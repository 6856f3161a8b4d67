import UniDERP.Control.DomainNames
import UniDERP.Daemon.Reload
import UniDERP.Node.Registration

/-!
# Registering the controller's own node

`SaveSettings` and `RegisterLocal`.  A call that could not enroll leaves the node that it created
in the store, and the next call looks for it under the name of the server.  The store has the name
in its normal form, the settings have it as it was typed.
-/

namespace UniDERP

inductive LocalErr
  | control (e : Err)
  | failed (text : String)
  deriving DecidableEq, Repr

structure LocalSettings where
  role : ConfigRole
  hostname : String
  derpListen : String
  stunListen : String
  tlsMode : String
  certMode : String
  derpPort : Int
  stunPort : Int
  maxBudgetBPS : ℕ
  loggingLevel : String
  deriving DecidableEq, Repr

section Settings

variable (lib : HostLib)

def withRole (s : LocalSettings) (cfg : Config) : Config :=
  if s.role = .member then { cfg with controller := some { enabled := false } }
  else
    let node := { cfg.node with controllerURL := "" }
    if cfg.controller.any ControllerConfig.enabled then { cfg with node := node }
    else { cfg with
      node := node
      controller := lib.default.controller.map fun k =>
        { k with
          database := lib.join cfg.storage.stateDir "controller.sqlite"
          keyFile := lib.join cfg.storage.stateDir "controller.key" } }

def certDirFor (s : LocalSettings) (cfg : Config) : String :=
  if s.tlsMode = "external" then ""
  else if cfg.server.derp.certDir = "" then lib.join cfg.storage.stateDir "certs"
  else cfg.server.derp.certDir

def withSettings (s : LocalSettings) (cfg : Config) : Config :=
  { cfg with
    setupRequired := false
    server := { cfg.server with
      hostname := trimSpace s.hostname
      derp := ⟨s.derpListen, s.stunListen, s.tlsMode, s.certMode, certDirFor lib s cfg⟩ }
    node := { cfg.node with
      derpPort := s.derpPort, stunPort := s.stunPort, maxBudgetBPS := s.maxBudgetBPS }
    logging := ⟨s.loggingLevel⟩ }

/-- `SaveSettings`; `joined` is whether the client has a node. -/
def saveSettings (d : Daemon) (joined : Bool) (s : LocalSettings) (write : Except String Unit) :
    Except LocalErr Daemon := do
  let active := d.activeConfig
  let hostname := trimSpace s.hostname
  require (lib.validateHostname hostname = .ok ()) (.control (.input "invalid_hostname" "hostname"))
  require (s.role ≠ .setup) (.control .invalid)
  require (active.setupRequired ∨ s.role = configRole active) (.control .conflict)
  require (joined = false ∨ hostname = active.server.hostname)
    (.failed "已注册节点更改域名前，请先退出集群并在主控修改节点域名")
  (d.saveLocalConfig lib (withSettings lib s (withRole lib s d.desiredConfig)) write).mapError .failed

end Settings

/-- `Node`: a row that the actor may see. -/
def nodeOf (actor : Actor) (id : String) (db : DB) : Except Err (String × Node) := do
  let n ← orElse (db.nodes.get? id) .noRows
  requireOwner actor n.ownerID
  pure (id, n)

/-- The nodes of the actor, or all of them for an admin, by their names. -/
def listNodes (actor : Actor) (db : DB) : Except Err (List (String × Node)) := do
  require (actor.role = .admin ∨ actor.role = .provider) .forbidden
  requireOwner actor actor.id
  pure ((db.nodes.rows.filter fun x => x.2.ownerID = actor.id ∨ actor.role = .admin).mergeSort
    fun x y => x.2.displayName ≤ y.2.displayName)

/-- What a call of `RegisterLocal` is given. -/
structure RegisterCall where
  actor : Actor
  name : String
  clock : Clock
  /-- The random numbers that the store draws. -/
  id : Token
  code : Token

/-- A code for the node that was found; if there is none it is created. -/
def codeFor (E : Env) (call : RegisterCall) (cfg : Config) (db : DB) :
    Option (String × Node) → Except Err (DB × IssuedCode)
  | none =>
    createNode E call.clock call.actor call.name cfg.server.hostname cfg.node.derpPort.toNat
      cfg.node.stunPort.toNat call.id call.code db
  | some (id, n) => do
    require (n.ownerID = call.actor.id ∧ n.state = .pending) .conflict
    issueEnrollment E call.clock call.actor id call.code db

def localCode (E : Env) (call : RegisterCall) (cfg : Config) (db : DB) :
    Except Err (DB × IssuedCode) := do
  let nodes ← listNodes call.actor db
  -- The stored domain is in normal form, the hostname is as it was typed.
  codeFor E call cfg db (nodes.find? fun x => x.2.domain = cfg.server.hostname)

structure Machine where
  daemon : Daemon
  client : Option Node.NodeRegistration
  db : DB

inductive EnrollFailure
  | rejected
  | other (text : String)
  deriving DecidableEq, Repr

/-- `Enroll` and the rest of the machine, which may do anything. -/
structure Surroundings where
  enroll : String → Node.NodeRegistration → DB →
    Node.NodeRegistration × DB × Except EnrollFailure NodeSession
  clear : Except String Unit := .ok ()
  apply : ApplyOutcome := {}
  preparePolicy : Except String Unit := .ok ()
  derperRunning : Bool := true
  syncDerper : Except String Unit := .ok ()
  running : Bool := true

/-- How far a call has come: it is over, or it has a code to enroll with. -/
inductive Registering
  | done (r : Except LocalErr (String × Node))
  | issued (code : IssuedCode)

namespace Machine

variable (lib : HostLib) (E : Env) (call : RegisterCall) (o : Surroundings)

def finish (s : Machine) (r : Except LocalErr (String × Node)) : Machine × Registering :=
  (s, .done r)

def answer (s : Machine) (id : String) : Except LocalErr (String × Node) :=
  (nodeOf call.actor id s.db).mapError .control

def issue (s : Machine) : Machine × Registering :=
  match localCode E call s.daemon.activeConfig s.db with
  | .ok (db, code) => ({ s with db := db }, .issued code)
  | .error e => s.finish (.error (.control e))

/-- Go on with the request that is still pending. -/
def resume (s : Machine) (client : Node.NodeRegistration) (code : String) : Machine × Registering :=
  match o.enroll code client s.db with
  | (client, db, .ok session) =>
    match s.daemon.applyLocalConfig lib s.daemon.activeConfig o.apply with
    | .ok d =>
      let s : Machine := ⟨d, some client, db⟩
      s.finish (s.answer call session.nodeID)
    | .error e =>
      let s : Machine := ⟨s.daemon.setApplyError e, some client, db⟩
      s.finish (.error (.failed e))
  | (client, db, .error .rejected) =>
    match o.clear with
    | .ok () =>
      let s : Machine := ⟨s.daemon, some {}, db⟩
      s.issue E call
    | .error e =>
      let s : Machine := ⟨s.daemon, some client, db⟩
      s.finish (.error (.failed e))
  | (client, db, .error (.other e)) =>
    let s : Machine := ⟨s.daemon, some client, db⟩
    s.finish (.error (.failed e))

/-- `RegisterLocal` up to the call of `Enroll` with a new code. -/
def prepare (s : Machine) : Machine × Registering :=
  if call.actor.role ≠ .admin then s.finish (.error (.control .forbidden))
  else match s.client with
    | none => s.finish (.error (.control .conflict))
    | some client =>
      if configRole s.daemon.activeConfig ≠ .controller then s.finish (.error (.control .conflict))
      else match client.session with
        | some session => s.finish (s.answer call session.nodeID)
        | none =>
          if s.daemon.activeConfig.server.hostname = "" then
            s.finish (.error (.control .invalid))
          else match client.pending.map EnrollmentRequest.code with
            | none => s.issue E call
            | some code => if code = "" then s.issue E call else s.resume lib E call o client code

def startNode (s : Machine) (id : String) : Except LocalErr (String × Node) := do
  o.preparePolicy.mapError .failed
  (if o.derperRunning then .ok () else o.syncDerper).mapError .failed
  require (o.running = true) (.failed "daemon is not running")
  s.answer call id

def registerLocal (s : Machine) : Machine × Except LocalErr (String × Node) :=
  match s.prepare lib E call o with
  | (s, .done r) => (s, r)
  | (s, .issued code) =>
    match o.enroll code.code (s.client.getD {}) s.db with
    | (client, db, .ok _) =>
      let s : Machine := ⟨s.daemon, some client, db⟩
      (s, s.startNode call o code.nodeID)
    | (client, db, .error .rejected) =>
      (⟨s.daemon, some client, db⟩, .error (.failed "enrollment code rejected"))
    | (client, db, .error (.other e)) => (⟨s.daemon, some client, db⟩, .error (.failed e))

end Machine

theorem listNodes_ok {actor : Actor} {db : DB} {nodes : List (String × Node)}
    (hrole : actor.role = .admin) (h : listNodes actor db = .ok nodes) {x : String × Node} :
    x ∈ nodes ↔ db.nodes.get? x.1 = some x.2 := by
  simp only [listNodes, Except_bind_eq_ok, Except_pure_eq_ok] at h
  obtain ⟨-, -, -, -, rfl⟩ := h
  rw [List.mem_mergeSort, Table.get?_eq_some_iff]
  simp [hrole]

theorem find_local {actor : Actor} {db : DB} {nodes : List (String × Node)} {id hostname : String}
    {n : Node} (hrole : actor.role = .admin) (h : listNodes actor db = .ok nodes)
    (hdb : Apart db) (hn : db.nodes.get? id = some n) (hdomain : n.domain = hostname) :
    nodes.find? (fun x => x.2.domain = hostname) = some (id, n) := by
  have hmem : (id, n) ∈ nodes := (listNodes_ok hrole h).mpr hn
  cases hfind : nodes.find? fun x => x.2.domain = hostname with
  | none =>
    have hno := List.find?_eq_none.mp hfind (id, n) hmem
    exact absurd hdomain (by simpa using hno)
  | some x =>
    have hx := (listNodes_ok hrole h).mp (List.mem_of_find?_eq_some hfind)
    have hxd : x.2.domain = hostname := by simpa using List.find?_some hfind
    have hid : x.1 = id := hdb.domains x.1 id x.2 n hx hn (hxd.trans hdomain.symm)
    rw [hid, hn] at hx
    rw [Option.some.injEq]
    exact Prod.ext hid (Option.some.inj hx).symm

section Codes

variable {E : Env} {call : RegisterCall} {cfg : Config} {db db' : DB} {issued : IssuedCode}

theorem issueEnrollment_domain {c : Clock} {actor : Actor} {id : String} {code : Token}
    (h : issueEnrollment E c actor id code db = .ok (db', issued)) :
    issued.nodeID = id ∧ ∃ n, db.nodes.get? id = some n ∧ issued.domain = n.domain := by
  simp only [issueEnrollment, Except_bind_eq_ok, orElse_eq_ok] at h
  obtain ⟨-, -, n, hn, -, -, h⟩ := h
  have hissued : ∃ now db₁, issueCode E now id n code db₁ = .ok (db', issued) := by
    split_ifs at h
    · obtain ⟨db₁, -, h⟩ := Except_bind_eq_ok.mp h
      exact ⟨_, db₁, h⟩
    · exact ⟨_, db, h⟩
  obtain ⟨now, db₁, hcode⟩ := hissued
  obtain ⟨-, rfl, -⟩ := issueCode_eq_ok.mp hcode
  exact ⟨rfl, n, hn, rfl⟩

theorem createNode_domain {c : Clock} {actor : Actor} {name domain : String} {derp stun : ℕ}
    {id code : Token} (h : createNode E c actor name domain derp stun id code db =
      .ok (db', issued)) : db.nodes.get? id.text = none ∧ issued.nodeID = id.text ∧
      E.normalizeNodeDomain domain = some issued.domain := by
  simp only [createNode, Except_bind_eq_ok, require_eq_ok, orElse_eq_ok] at h
  obtain ⟨-, -, -, -, normal, hnormal, -, -, -, -, region, -, -, hnew, h⟩ := h
  obtain ⟨-, rfl, -⟩ := issueCode_eq_ok.mp h
  exact ⟨hnew.1, rfl, hnormal⟩

/-- The domain of a code is the server's name or its normal form. -/
theorem localCode_domain (h : localCode E call cfg db = .ok (db', issued)) :
    E.normalizeNodeDomain cfg.server.hostname = some issued.domain ∨
      issued.domain = cfg.server.hostname := by
  simp only [localCode, Except_bind_eq_ok] at h
  obtain ⟨nodes, hnodes, h⟩ := h
  cases hfind : nodes.find? fun x => x.2.domain = cfg.server.hostname with
  | none =>
    rw [hfind] at h
    exact .inl (createNode_domain h).2.2
  | some x =>
    rw [hfind] at h
    simp only [codeFor, Except_bind_eq_ok] at h
    obtain ⟨-, -, h⟩ := h
    obtain ⟨-, n, hn, hdomain⟩ := issueEnrollment_domain h
    simp only [listNodes, Except_bind_eq_ok, Except_pure_eq_ok] at hnodes
    obtain ⟨-, -, -, -, rfl⟩ := hnodes
    have hx := List.mem_of_find?_eq_some hfind
    rw [List.mem_mergeSort, List.mem_filter] at hx
    rw [Table.get?_eq_some_iff.mpr hx.1, Option.some.injEq] at hn
    subst hn
    exact .inr (hdomain.trans (by simpa using List.find?_some hfind))

theorem issueEnrollment_pending {c : Clock} {actor : Actor} {id : String} {code : Token} {n : Node}
    (hactive : activeActor actor db = .ok ()) (hn : db.nodes.get? id = some n)
    (howner : requireOwner actor n.ownerID = .ok ()) (hpending : n.state = .pending)
    (hfresh : ∀ k e, k ≠ id → db.enrollments.get? k = some e → e.codeHash ≠ E.tokenHash code.text) :
    ∃ db' issued, issueEnrollment E c actor id code db = .ok (db', issued) ∧
      issued.nodeID = id ∧ issued.code = code.text ∧ db'.nodes = db.nodes := by
  have heq : issueEnrollment E c actor id code db = issueCode E (c.read 1) id n code db := by
    simp only [issueEnrollment, hactive, hn, howner, hpending, orElse, ok_bind, ne_eq,
      not_true_eq_false, if_false]
    rfl
  rw [heq]
  exact ⟨_, _, issueCode_eq_ok.mpr ⟨hfresh, rfl, rfl⟩, rfl, rfl, rfl⟩

end Codes

namespace Machine

variable {lib : HostLib} {E : Env} {call : RegisterCall} {o : Surroundings} {s s' : Machine}
  {issued : IssuedCode}

theorem issue_issued (h : s.issue E call = (s', .issued issued)) :
    localCode E call s.daemon.activeConfig s.db = .ok (s'.db, issued) := by
  unfold issue at h
  split at h
  · rename_i heq
    cases h
    exact heq
  · cases h

theorem resume_issued {client : Node.NodeRegistration} {code : String}
    (h : s.resume lib E call o client code = (s', .issued issued)) :
    ∃ db, localCode E call s.daemon.activeConfig db = .ok (s'.db, issued) := by
  unfold resume at h
  split at h
  · split at h <;> cases h
  · rename_i client' db' _
    split at h
    · exact ⟨_, issue_issued (s := ⟨s.daemon, some {}, db'⟩) h⟩
    · cases h
  · cases h

/-- A code is issued under the name that the daemon has. -/
theorem prepare_issued (h : s.prepare lib E call o = (s', .issued issued)) :
    call.actor.role = .admin ∧
      ∃ db, localCode E call s.daemon.activeConfig db = .ok (s'.db, issued) := by
  unfold prepare at h
  by_cases hrole : call.actor.role = .admin
  · refine ⟨hrole, ?_⟩
    rw [if_neg (not_not.mpr hrole)] at h
    split at h
    · cases h
    · split at h
      · cases h
      · split at h
        · cases h
        · split at h
          · cases h
          · split at h
            · exact ⟨_, issue_issued h⟩
            · split at h
              · exact ⟨_, issue_issued h⟩
              · exact resume_issued h
  · rw [if_pos hrole] at h
    cases h

theorem prepare_unregistered {client : Node.NodeRegistration} (hrole : call.actor.role = .admin)
    (hclient : s.client = some client) (hsession : client.session = none)
    (hpending : client.pending = none) (hcontroller : configRole s.daemon.activeConfig = .controller)
    (hname : s.daemon.activeConfig.server.hostname ≠ "") :
    s.prepare lib E call o = s.issue E call := by
  simp [prepare, hrole, hclient, hcontroller, hsession, hname, hpending]

/-- A call that had a code for a node and failed, with nothing of it pending. -/
structure Abandoned (lib : HostLib) (E : Env) (call : RegisterCall) (o : Surroundings)
    (s s' : Machine) (issued : IssuedCode) : Prop where
  issued : ∃ s₁, s.prepare lib E call o = (s₁, .issued issued)
  failed : ∃ e, s.registerLocal lib E call o = (s', .error e)
  unsaved : ∃ client, s'.client = some client ∧ client.session = none ∧ client.pending = none

/-- A later state, where the daemon has the same name and the node is as it was left. -/
structure Awaits (E : Env) (s s' : Machine) (actor : Actor) (issued : IssuedCode) : Prop where
  reachable : Store.Reachable E s'.db
  hostname : s'.daemon.activeConfig.server.hostname = s.daemon.activeConfig.server.hostname
  named : s'.daemon.activeConfig.server.hostname ≠ ""
  role : configRole s'.daemon.activeConfig = .controller
  client : ∃ client, s'.client = some client ∧ client.session = none ∧ client.pending = none
  node : ∃ n, s'.db.nodes.get? issued.nodeID = some n ∧ n.domain = issued.domain ∧
    n.ownerID = actor.id ∧ n.state = .pending
  active : activeActor actor s'.db = .ok ()

/-- The next call of the same admin finds the node and issues another code for it, exactly if the
name of the server is its own normal form. -/
theorem registers_again (lib : HostLib) (E : Env) (R : NameRules) (call call' : RegisterCall)
    (o o' : Surroundings) (s s₁ s' : Machine) (issued : IssuedCode)
    (hfirst : Abandoned lib (E.naming R) call o s s₁ issued)
    (hlater : Awaits (E.naming R) s s' call.actor issued) (hactor : call'.actor = call.actor)
    (hfresh : ∀ k e, s'.db.enrollments.get? k = some e →
      e.codeHash ≠ (E.naming R).tokenHash call'.code.text) :
    (∃ s₂ again, s'.prepare lib (E.naming R) call' o' = (s₂, .issued again) ∧
      again.nodeID = issued.nodeID ∧ again.code = call'.code.text ∧ s₂.db.nodes = s'.db.nodes) ↔
    R.normalize s.daemon.activeConfig.server.hostname =
      some s.daemon.activeConfig.server.hostname := by
  obtain ⟨s₂, hissued⟩ := hfirst.issued
  obtain ⟨hrole, db, hcode⟩ := prepare_issued hissued
  obtain ⟨client, hclient, hsession, hpending⟩ := hlater.client
  obtain ⟨n, hn, hdomain, howner, hstate⟩ := hlater.node
  have hnormal := hlater.reachable.normal issued.nodeID n hn
  rw [hdomain] at hnormal
  have hname : R.normalize s.daemon.activeConfig.server.hostname = some issued.domain := by
    rcases localCode_domain hcode with h | h
    · rw [Env.naming_normalize] at h
      exact h
    · rw [← h]
      exact hnormal
  have howns : requireOwner call.actor call.actor.id = .ok () := by
    simp only [localCode, listNodes, Except_bind_eq_ok] at hcode
    obtain ⟨-, ⟨-, -, ⟨⟩, h, -⟩, -⟩ := hcode
    exact h
  have hlist : ∃ nodes, listNodes call'.actor s'.db = .ok nodes := by
    simp [listNodes, hactor, hrole, howns, require, ok_bind]
  obtain ⟨nodes, hnodes⟩ := hlist
  have hrole' : call'.actor.role = .admin := hactor ▸ hrole
  rw [prepare_unregistered hrole' hclient hsession hpending hlater.role hlater.named, hname,
    Option.some.injEq, ← hlater.hostname]
  constructor
  · rintro ⟨s₃, again, hagain, hid, -⟩
    by_contra hne
    -- the store has no domain that is not a normal form, so that a node would be created
    have hfind : nodes.find? (fun x => x.2.domain =
        s'.daemon.activeConfig.server.hostname) = none := by
      apply List.find?_eq_none.mpr
      intro x hx
      rw [decide_eq_true_eq]
      intro hx'
      have hfixed := hlater.reachable.normal x.1 x.2 ((listNodes_ok hrole' hnodes).mp hx)
      rw [hx', hlater.hostname, hname, Option.some.injEq, ← hlater.hostname] at hfixed
      exact hne hfixed
    have h := issue_issued hagain
    simp only [localCode, hnodes, ok_bind, hfind, codeFor] at h
    obtain ⟨hnew, hnodeID, -⟩ := createNode_domain h
    rw [← hnodeID, hid, hn] at hnew
    cases hnew
  · intro hsame
    have hfind := find_local hrole' hnodes hlater.reachable.apart hn (hdomain.trans hsame)
    obtain ⟨db', again, hissue, hid, hnew, hkept⟩ := issueEnrollment_pending (E := E.naming R)
      (c := call'.clock) (hactor ▸ hlater.active) hn (by rw [howner, hactor]; exact howns) hstate
      fun k e _ => hfresh k e
    have howner' : n.ownerID = call'.actor.id := by rw [hactor, howner]
    have hlocal : localCode (E.naming R) call' s'.daemon.activeConfig s'.db = .ok (db', again) := by
      simp only [localCode, hnodes, ok_bind, hfind, codeFor, howner', hstate, require, and_self,
        if_true]
      exact hissue
    refine ⟨{ s' with db := db' }, again, ?_, hid, hnew, hkept⟩
    unfold issue
    rw [hlocal]

def typed (hostname : String) : LocalSettings :=
  ⟨.controller, hostname, ":3377", ":3478", "external", "none", 443, 3478, 0, "info"⟩

def named (hostname : String) : Except LocalErr Daemon := do
  let d ← saveSettings .plain (Daemon.startedFrom []) false (typed hostname) (.ok ())
  (d.applyLocalConfig .plain d.desiredConfig {}).mapError .failed

def runsAs (hostname : String) : Daemon :=
  let cfg := HostLib.plain.normalize { version := 2, server := { hostname := hostname } }
  { started := true, current := cfg, desired := cfg }

def opened : List Op := [.initializeAdmin "admin" "a long password" First.owner "hash"]

def added (hostname : String) : List Op :=
  opened ++ [.createNode First.admin "relay" hostname 443 3478 First.node First.code]

/-- The machine of this name after some commits, without a registration. -/
noncomputable def machine (hostname : String) (ops : List Op) : Machine where
  daemon := runsAs hostname
  client := some {}
  db := (replay (Env.plain.naming .plain) First.clock ops DB.empty).toOption.getD DB.empty

def unreachable : Surroundings where
  enroll _ client db := (client, db, .error (.other "controller HTTPS request failed"))

def firstCall : RegisterCall := ⟨First.admin, "relay", First.clock, First.node, First.code⟩

def secondCall : RegisterCall := ⟨First.admin, "relay", First.clock, First.tailnet, First.session⟩

def issuedBy : Machine × Registering → Option IssuedCode
  | (_, .issued code) => some code
  | (_, .done _) => none

theorem exists_issued {x : Machine × Registering} {code : IssuedCode} (h : issuedBy x = some code) :
    ∃ s, x = (s, .issued code) := by
  obtain ⟨s, r⟩ := x
  cases r with
  | done r => cases h
  | issued c =>
    cases h
    exact ⟨s, rfl⟩

theorem exists_failed {x : Machine × Except LocalErr (String × Node)} {e : LocalErr}
    (h : x.2 = .error e) : ∃ e, x = (x.1, .error e) :=
  ⟨e, by rw [← h]⟩

def firstCode : IssuedCode :=
  ⟨First.node.text, "cluster", "relay.example", First.code.text, 2800 * second⟩

/-- The first call, which has created the node and could not enroll it. -/
noncomputable def tried (hostname : String) : Machine × Except LocalErr (String × Node) :=
  (machine hostname opened).registerLocal .plain (Env.plain.naming .plain) firstCall unreachable

theorem tried_abandoned {hostname : String}
    (hcode : issuedBy ((machine hostname opened).prepare .plain (Env.plain.naming .plain) firstCall
      unreachable) = some firstCode)
    (hfailed : (tried hostname).2 = .error (.failed "controller HTTPS request failed"))
    (hclient : (tried hostname).1.client = some {}) :
    Abandoned .plain (Env.plain.naming .plain) firstCall unreachable (machine hostname opened)
      (tried hostname).1 firstCode := by
  unfold tried at hfailed hclient ⊢
  exact ⟨exists_issued hcode, exists_failed hfailed, ⟨{}, hclient, rfl, rfl⟩⟩

theorem machine_reachable {hostname : String} {ops : List Op}
    (h : (replay (Env.plain.naming .plain) First.clock ops DB.empty).toOption.isSome = true) :
    Store.Reachable (Env.plain.naming .plain) (machine hostname ops).db := by
  obtain ⟨db, hdb⟩ := Option.isSome_iff_exists.mp h
  have hreplay := toOption_eq_some.mp hdb
  have heq : (machine hostname ops).db = db := by
    simp only [machine, hdb, Option.getD_some]
  rw [heq]
  exact replay_reachable hreplay (.start rfl)

theorem lower_case_retried : ∃ s₂ again,
    (machine "relay.example" (added "relay.example")).prepare .plain (Env.plain.naming .plain)
        secondCall unreachable = (s₂, .issued again) ∧ again.nodeID = First.node.text := by
  have hrow : ((machine "relay.example" (added "relay.example")).db.nodes.get?
      First.node.text).map (fun n => (n.domain, n.ownerID, n.state)) =
      some ("relay.example", First.owner.text, .pending) := by decide +kernel
  have hcodes : (machine "relay.example" (added "relay.example")).db.enrollments.any
      (fun _ e => e.codeHash = (Env.plain.naming .plain).tokenHash secondCall.code.text) = false := by
    decide +kernel
  have hlater : Awaits (Env.plain.naming .plain) (machine "relay.example" opened)
      (machine "relay.example" (added "relay.example")) First.admin firstCode := by
    refine ⟨machine_reachable (by decide +kernel), rfl, by decide +kernel, by decide +kernel,
      ⟨{}, rfl, rfl, rfl⟩, ?_, by decide +kernel⟩
    obtain ⟨n, hn, hvalues⟩ := Option.map_eq_some_iff.mp hrow
    simp only [Prod.mk.injEq] at hvalues
    exact ⟨n, hn, hvalues⟩
  have hfresh : ∀ k e, (machine "relay.example" (added "relay.example")).db.enrollments.get? k =
      some e → e.codeHash ≠ (Env.plain.naming .plain).tokenHash secondCall.code.text := by
    intro k e he
    simpa using Table.any_eq_false.mp hcodes k e he
  have h := (registers_again .plain Env.plain .plain firstCall secondCall unreachable unreachable
    (machine "relay.example" opened) (tried "relay.example").1
    (machine "relay.example" (added "relay.example")) firstCode
    (tried_abandoned (by decide +kernel) (by decide +kernel) (by decide +kernel)) hlater rfl
    hfresh).mpr (by decide +kernel)
  obtain ⟨s₂, again, hagain, hid, -⟩ := h
  exact ⟨s₂, again, hagain, hid⟩

/-- A name with capitals is accepted, and the second call runs into the node of the first. -/
theorem capitals_conflict :
    named "Relay.Example" = .ok (runsAs "Relay.Example") ∧
    Abandoned .plain (Env.plain.naming .plain) firstCall unreachable
      (machine "Relay.Example" opened) (tried "Relay.Example").1 firstCode ∧
    ((tried "Relay.Example").1.registerLocal .plain (Env.plain.naming .plain) secondCall
      unreachable).2 = .error (.control .conflict) :=
  ⟨by decide +kernel, tried_abandoned (by decide +kernel) (by decide +kernel) (by decide +kernel),
    by decide +kernel⟩

end Machine

end UniDERP
