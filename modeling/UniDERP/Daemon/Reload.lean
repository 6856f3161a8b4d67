import UniDERP.Config.Args
import UniDERP.Config.Yaml
import UniDERP.Library.Run

namespace UniDERP

/-- The configurations of a daemon, and what is left to do about them. -/
structure Daemon where
  started : Bool := false
  current : Config := {}
  desired : Config := {}
  pendingRestart : Bool := false
  applyError : String := ""
  deriving DecidableEq, Repr

inductive ConfigRole
  | setup
  | controller
  | member
  deriving DecidableEq, Repr

def configRole (c : Config) : ConfigRole :=
  if c.setupRequired then .setup
  else if c.controller.any ControllerConfig.enabled then .controller
  else .member

inductive AdminResponse
  | success (message : String)
  | failure (message : String)
  deriving DecidableEq, Repr

/-- What reading a file gives: the documents of its stream, if it can be read. -/
inductive FileRead
  | missing
  | failed (error : String)
  | stream (documents : List (Except String Yaml))

/-- How the parts of a start turn out that are not about the configuration. -/
structure StartOutcome where
  createFile : Except String Unit := .ok ()
  management : Except String Unit := .ok ()
  prepareRole : Except String Unit := .ok ()
  adminServer : Except String Unit := .ok ()
  healthServer : Except String Unit := .ok ()
  syncDerper : Except String Unit := .ok ()

/-- The same for applying a configuration; the ports are sent for a registered node only. -/
structure ApplyOutcome where
  context : Except String Unit := .ok ()
  certificate : Except String Unit := .ok ()
  stopRelay : Except String Unit := .ok ()
  prepareRole : Except String Unit := .ok ()
  syncDerper : Except String Unit := .ok ()
  registered : Bool := false
  setPorts : Except String Unit := .ok ()

def loadFile (lib : HostLib) (D : Decoder) (path : String) : FileRead → Except String ParseResult
  | .missing =>
    throw ("required config file " ++ lib.quote path ++ " does not exist: file does not exist")
  | .failed e => throw ("read config file " ++ lib.quote path ++ ": " ++ e)
  | .stream documents =>
    (D.parse lib documents).mapError (("config file " ++ lib.quote path ++ ": ") ++ ·)

namespace Daemon

variable (lib : HostLib)

def activeConfig (d : Daemon) : Config := d.current.clone

def desiredConfig (d : Daemon) : Config := d.desired.clone

def setApplyError (d : Daemon) (e : String) : Daemon :=
  { d with applyError := e, pendingRestart := true }

def noteError (d : Daemon) : Except String Unit → Daemon
  | .ok () => d
  | .error e => d.setApplyError e

/-- `Start`; the relay is started only if the role could be prepared. -/
def start (loaded : Except String ParseResult) (o : StartOutcome) (d : Daemon) :
    Except String Daemon := do
  require (d.started = false) "daemon is already started"
  o.createFile
  let parsed ← loaded
  let d := { d with
    current := parsed.config.clone, desired := parsed.config.clone, pendingRestart := false }
  o.management
  let d := d.noteError o.prepareRole
  o.adminServer
  o.healthServer
  let d := if d.applyError = "" then d.noteError o.syncDerper else d
  return { d with started := true }

/-- The configuration a running daemon goes on with: what a restart would change stays. -/
def runtimeConfig (d : Daemon) (cfg : Config) : Config :=
  let active := d.current.clone
  if d.started then
    -- `SetupRequired` is compared by `RestartOnlyChanged` but is not among the fields put back.
    { cfg.clone with
      server := active.server, storage := active.storage
      controller := active.controller, node := active.node }
  else cfg.clone

/-- The comparison fills in the defaults of the controller that it is given, which is shared. -/
def defaultsFilled (c : Config) : Config :=
  { c with controller :=
    c.controller.map (lib.normalizeController (HostLib.orDefault c.storage.stateDir "/data")) }

def applyCommittedConfig (d : Daemon) (cfg : Config) (sync : Except String Unit) :
    Daemon × Except String Unit :=
  let runtime := d.runtimeConfig cfg
  let pendingRestart := lib.restartOnlyChanged runtime cfg
  ({ d with
      desired := cfg.clone
      current := if d.started then (defaultsFilled lib runtime).clone else cfg.clone
      pendingRestart := pendingRestart }, sync)

def commitConfig (d : Daemon) (cfg : Config) (write sync : Except String Unit) :
    Daemon × Except String Unit :=
  let cfg := lib.normalize cfg
  match lib.validate cfg with
  | .error e => (d, .error e)
  | .ok () =>
    match write with
    | .error e => (d, .error e)
    | .ok () => d.applyCommittedConfig lib cfg sync

def reloaded : String := "configuration reloaded"

def restartNotice : String :=
  "; restart required for pending listener, TLS, admin, health, storage, or hostname changes"

def reloadConfig (d : Daemon) (loaded : Except String ParseResult)
    (write sync : Except String Unit) : Daemon × AdminResponse :=
  match loaded with
  | .error e => (d, .failure e)
  | .ok parsed =>
    -- The notice is about the active configuration, the flag that is kept about the merged one.
    let pendingRestart := lib.restartOnlyChanged d.activeConfig parsed.config
    match d.commitConfig lib parsed.config write sync with
    | (d', .error e) => (d', .failure e)
    | (d', .ok ()) => (d', .success (if pendingRestart then reloaded ++ restartNotice else reloaded))

def saveLocalConfig (d : Daemon) (cfg : Config) (write : Except String Unit) :
    Except String Daemon := do
  lib.validate (lib.normalize cfg)
  write
  return { d with
    desired := (lib.normalize cfg).clone
    pendingRestart := decide (d.current ≠ lib.normalize cfg) }

def portsChanged (active cfg : Config) : Prop :=
  active.setupRequired = false ∧ (active.node.derpPort ≠ cfg.node.derpPort ∨
    active.node.stunPort ≠ cfg.node.stunPort ∨ active.node.controllerURL ≠ cfg.node.controllerURL)

instance portsChangedDecidable (active cfg : Config) : Decidable (portsChanged active cfg) :=
  inferInstanceAs (Decidable (_ ∧ _))

def sendPorts (active cfg : Config) (o : ApplyOutcome) : Except String Unit :=
  if portsChanged active cfg ∧ o.registered then o.setPorts else .ok ()

def applyLocalConfig (d : Daemon) (cfg : Config) (o : ApplyOutcome) : Except String Daemon := do
  o.context
  let active := d.activeConfig
  require (active.setupRequired ∨ configRole active = configRole cfg) "conflicting operation"
  require (active.storage = cfg.storage ∧ active.server.management = cfg.server.management ∧
      active.server.admin = cfg.server.admin ∧ active.server.health = cfg.server.health ∧
      active.node.stateDir = cfg.node.stateDir)
    "部署路径与管理监听变更需要重启服务"
  lib.validate cfg
  o.certificate
  o.stopRelay
  o.prepareRole
  o.syncDerper
  sendPorts active cfg o
  return { d with current := cfg.clone, pendingRestart := false, applyError := "" }

/-- What a daemon does with its configuration; a file may have any content. -/
inductive Act
  | start (file : FileRead) (o : StartOutcome)
  | reload (file : FileRead) (write sync : Except String Unit)
  | save (cfg : Config) (write : Except String Unit)
  /-- The desired configuration, as the settings, `Join` and `Leave` have it. -/
  | apply (o : ApplyOutcome)
  /-- The active one again, as `RegisterLocal` has it. -/
  | reapply (o : ApplyOutcome)
  | fail (e : String)

/-- The daemon after an attempt; one that could not be started is gone. -/
def orKeep (d : Daemon) : Except String Daemon → Daemon
  | .ok d' => d'
  | .error _ => d

variable (D : Decoder) (path : String)

def act (d : Daemon) : Act → Daemon
  | .start file o => d.orKeep (d.start (loadFile lib D path file) o)
  | .reload file write sync => (d.reloadConfig lib (loadFile lib D path file) write sync).1
  | .save cfg write => d.orKeep (d.saveLocalConfig lib cfg write)
  | .apply o => d.orKeep (d.applyLocalConfig lib d.desiredConfig o)
  | .reapply o => d.orKeep (d.applyLocalConfig lib d.activeConfig o)
  | .fail e => d.setApplyError e

/-- The states of a daemon that has just been made, and what its acts lead to. -/
def Reachable : Daemon → Prop :=
  UniDERP.Reachable (· = {}) fun d a d' => d' = d.act lib D path a

/-- The defaults are filled in, and the lists are as a copy has them. -/
structure Settled (c : Config) : Prop where
  copied : c.clone = c
  normal : lib.normalize c = c

variable {lib D path}

theorem Settled.of_normal {c : Config} (h : lib.normalize c = c) : Settled lib c.clone where
  copied := c.clone_clone
  normal := by rw [← lib.clone_normalize, h]

theorem Settled.clone {c : Config} (h : Settled lib c) : Settled lib c.clone := by
  rw [h.copied]
  exact h

theorem Settled.filled {c : Config} (h : Settled lib c) : defaultsFilled lib c = c := by
  have hc := congrArg Config.controller h.normal
  have hmap : c.controller.map (lib.normalizeController
      (HostLib.orDefault c.storage.stateDir "/data")) = c.controller := by
    rw [← hc]
    simp only [HostLib.normalize, Option.map_some, HostLib.normalizeController_idem]
  unfold defaultsFilled
  rw [hmap]

theorem Settled.with {a c : Config} (ha : Settled lib a) (hc : Settled lib c) :
    Settled lib { c with
      server := a.server, storage := a.storage, controller := a.controller, node := a.node } where
  copied := by
    have hcopy := congrArg Config.controller ha.copied
    calc
      _ = { c with
            server := a.server, storage := a.storage
            controller := a.clone.controller, node := a.node } := rfl
      _ = _ := by rw [hcopy]
  normal := by
    calc
      _ = { lib.normalize c with
            server := (lib.normalize a).server, storage := (lib.normalize a).storage
            controller := (lib.normalize a).controller, node := (lib.normalize a).node } := rfl
      _ = _ := by rw [ha.normal, hc.normal]

theorem runtimeConfig_eq {d : Daemon} (hs : d.started = true) (h : Settled lib d.current)
    (cfg : Config) : d.runtimeConfig cfg = { cfg.clone with
      server := d.current.server, storage := d.current.storage
      controller := d.current.controller, node := d.current.node } := by
  unfold runtimeConfig
  rw [if_pos hs, h.copied]

theorem runtimeConfig_settled {d : Daemon} (hs : d.started = true) (h : Settled lib d.current)
    {cfg : Config} (hcfg : lib.normalize cfg = cfg) : Settled lib (d.runtimeConfig cfg) := by
  rw [runtimeConfig_eq hs h]
  exact h.with (.of_normal hcfg)

def Steady (lib : HostLib) (d : Daemon) : Prop :=
  d.started = true → Settled lib d.current ∧ Settled lib d.desired

theorem start_ok {loaded : Except String ParseResult} {o : StartOutcome} {d d' : Daemon}
    (h : d.start loaded o = .ok d') : d.started = false ∧ ∃ r, loaded = .ok r ∧
      d'.started = true ∧ d'.current = r.config.clone ∧ d'.desired = r.config.clone := by
  have hnote : ∀ (d : Daemon) (x : Except String Unit), (d.noteError x).current = d.current ∧
      (d.noteError x).desired = d.desired := by
    intro d x
    cases x <;> exact ⟨rfl, rfl⟩
  simp only [start, Except_bind_eq_ok, Except_pure_eq_ok, require_eq_ok] at h
  obtain ⟨-, hstarted, -, -, r, hr, -, -, -, -, -, -, rfl⟩ := h
  refine ⟨hstarted, r, hr, rfl, ?_⟩
  split_ifs <;> simp [hnote]

theorem applyCommittedConfig_steady {d : Daemon} (hd : Steady lib d) {cfg : Config}
    (hcfg : lib.normalize cfg = cfg) (sync : Except String Unit) :
    Steady lib (d.applyCommittedConfig lib cfg sync).1 := by
  intro hs
  change d.started = true at hs
  have hruntime := runtimeConfig_settled hs (hd hs).1 hcfg
  constructor
  · simp only [applyCommittedConfig]
    rw [if_pos hs, hruntime.filled]
    exact hruntime.clone
  · exact .of_normal hcfg

theorem reloadConfig_steady {d : Daemon} (hd : Steady lib d) (loaded : Except String ParseResult)
    (write sync : Except String Unit) : Steady lib (d.reloadConfig lib loaded write sync).1 := by
  have hcommit : ∀ cfg, Steady lib (d.commitConfig lib cfg write sync).1 := by
    intro cfg
    dsimp only [commitConfig]
    split
    · exact hd
    · split
      · exact hd
      · exact applyCommittedConfig_steady hd (lib.normalize_idem cfg) sync
  unfold reloadConfig
  split
  · exact hd
  · rename_i parsed
    have h := hcommit parsed.config
    split <;> rename_i heq <;> rw [heq] at h <;> exact h

theorem applyLocalConfig_steady {d d' : Daemon} (hd : Steady lib d) {cfg : Config}
    (hcfg : d.started = true → Settled lib cfg) {o : ApplyOutcome}
    (h : d.applyLocalConfig lib cfg o = .ok d') : Steady lib d' := by
  simp only [applyLocalConfig, Except_bind_eq_ok, Except_pure_eq_ok] at h
  obtain ⟨-, -, -, -, -, -, -, -, -, -, -, -, -, -, -, -, -, -, rfl⟩ := h
  intro hs
  exact ⟨(hcfg hs).clone, (hd hs).2⟩

theorem orKeep_steady {d : Daemon} (hd : Steady lib d) {x : Except String Daemon}
    (h : ∀ d', x = .ok d' → Steady lib d') : Steady lib (d.orKeep x) := by
  cases x with
  | ok d' => exact h d' rfl
  | error e => exact hd

theorem act_steady {d : Daemon} (hd : Steady lib d) (a : Act) : Steady lib (d.act lib D path a) := by
  cases a with
  | start file o =>
    apply orKeep_steady hd
    intro d' h _
    obtain ⟨-, r, hr, -, hcurrent, hdesired⟩ := start_ok h
    have hparse : ∃ documents, D.parse lib documents = .ok r := by
      cases file with
      | missing => cases hr
      | failed e => cases hr
      | stream documents => exact ⟨documents, mapError_eq_ok.mp hr⟩
    obtain ⟨documents, hparse⟩ := hparse
    have hsettled : Settled lib r.config.clone := .of_normal (Decoder.parse_valid hparse).1
    rw [hcurrent, hdesired]
    exact ⟨hsettled, hsettled⟩
  | reload file write sync => exact reloadConfig_steady hd _ _ _
  | save cfg write =>
    apply orKeep_steady hd
    intro d' h hs
    simp only [saveLocalConfig, Except_bind_eq_ok, Except_pure_eq_ok] at h
    obtain ⟨-, -, -, -, rfl⟩ := h
    exact ⟨(hd hs).1, .of_normal (lib.normalize_idem cfg)⟩
  | apply o =>
    apply orKeep_steady hd
    intro d' h
    exact applyLocalConfig_steady hd (fun hs => (hd hs).2.clone) h
  | reapply o =>
    apply orKeep_steady hd
    intro d' h
    exact applyLocalConfig_steady hd (fun hs => (hd hs).1.clone) h
  | fail e => exact hd

theorem Reachable.steady {d : Daemon} (h : Reachable lib D path d) : Steady lib d := by
  apply h.invariant
  · rintro _ rfl hs
    cases hs
  · rintro d a _ _ hd rfl
    exact act_steady hd a

theorem reloadConfig_eq (d : Daemon) {c : Config} (hc : lib.validate (lib.normalize c) = .ok ())
    (warnings : List String) (sync : Except String Unit) :
    let pending := lib.restartOnlyChanged d.activeConfig c
    (d.reloadConfig lib (.ok ⟨c, warnings⟩) (.ok ()) sync).1 =
        (d.applyCommittedConfig lib (lib.normalize c) sync).1 ∧
      ∀ m, (d.reloadConfig lib (.ok ⟨c, warnings⟩) (.ok ()) sync).2 = .success m →
        m = if pending then reloaded ++ restartNotice else reloaded := by
  cases sync with
  | ok u =>
    simp only [reloadConfig, commitConfig, hc, applyCommittedConfig, true_and]
    intro m hm
    exact (AdminResponse.success.inj hm).symm
  | error e =>
    simp only [reloadConfig, commitConfig, hc, applyCommittedConfig, true_and]
    intro m hm
    cases hm

theorem applyCommittedConfig_current {d : Daemon} (hs : d.started = true)
    (h : Settled lib d.current) {cfg : Config} (hcfg : lib.normalize cfg = cfg)
    (sync : Except String Unit) :
    (d.applyCommittedConfig lib cfg sync).1.current = { cfg.clone with
      server := d.current.server, storage := d.current.storage
      controller := d.current.controller, node := d.current.node } := by
  have hruntime := runtimeConfig_settled hs h hcfg
  calc
    _ = (defaultsFilled lib (d.runtimeConfig cfg)).clone := if_pos hs
    _ = d.runtimeConfig cfg := by rw [hruntime.filled, hruntime.copied]
    _ = _ := runtimeConfig_eq hs h cfg

theorem applyCommittedConfig_pending {d : Daemon} (hs : d.started = true)
    (h : Settled lib d.current) {cfg : Config} (hcfg : lib.normalize cfg = cfg)
    (sync : Except String Unit) :
    (d.applyCommittedConfig lib cfg sync).1.pendingRestart = true ↔
      (d.applyCommittedConfig lib cfg sync).1.current.restartOnly ≠ cfg.restartOnly := by
  have hruntime := runtimeConfig_settled hs h hcfg
  rw [applyCommittedConfig_current hs h hcfg, ← runtimeConfig_eq hs h]
  show lib.restartOnlyChanged (d.runtimeConfig cfg) cfg = true ↔ _
  rw [lib.restartOnlyChanged_iff, hruntime.normal, hcfg]

theorem notice_ne : reloaded ++ restartNotice ≠ reloaded := by decide

/-- A reload keeps what takes a restart to change, and reports and records what waits for one,
exactly if it does not change whether setup is required. -/
theorem reload_restart_only (lib : HostLib) (D : Decoder) (path : String) (d : Daemon)
    (hd : Reachable lib D path d) (hs : d.started = true) (c : Config)
    (hc : lib.validate (lib.normalize c) = .ok ()) (warnings : List String)
    (sync : Except String Unit) :
    let after := d.reloadConfig lib (.ok ⟨c, warnings⟩) (.ok ()) sync
    ((after.1.current.restartOnly = d.current.restartOnly ∧
        configRole after.1.current = configRole d.current) ∧
      (after.1.pendingRestart = true ↔ lib.restartOnlyChanged d.current c = true) ∧
      ∀ m, after.2 = .success m →
        (m = reloaded ++ restartNotice ↔ after.1.pendingRestart = true)) ↔
    c.setupRequired = d.current.setupRequired := by
  intro after
  have hsettled := (hd.steady hs).1
  have hnormal := lib.normalize_idem c
  obtain ⟨hafter, hanswer⟩ := reloadConfig_eq d hc warnings sync
  have hcurrent : after.1.current = _ :=
    (congrArg Daemon.current hafter).trans (applyCommittedConfig_current hs hsettled hnormal sync)
  have hpending : after.1.pendingRestart = true ↔
      after.1.current.restartOnly ≠ (lib.normalize c).restartOnly := by
    rw [show after.1 = _ from hafter]
    exact applyCommittedConfig_pending hs hsettled hnormal sync
  have hactive : d.activeConfig = d.current := hsettled.copied
  constructor
  · intro h
    have hsetup := congrArg (fun x => x.2.1) h.1.1
    rw [hcurrent] at hsetup
    exact hsetup
  · intro hsetup
    have hkept : after.1.current.restartOnly = d.current.restartOnly := by
      rw [hcurrent]
      simp only [Config.restartOnly]
      rw [← hsetup]
      rfl
    have hchanged : after.1.pendingRestart = true ↔ lib.restartOnlyChanged d.current c = true := by
      rw [hpending, hkept, lib.restartOnlyChanged_iff, hsettled.normal]
    refine ⟨⟨hkept, ?_⟩, hchanged, ?_⟩
    · rw [hcurrent]
      simp only [configRole]
      rw [← hsetup]
      rfl
    · intro m hm
      rw [hanswer m hm, hactive, hchanged]
      split_ifs with h
      · simp [h]
      · simp [h, notice_ne.symm]

def documentWith (key : String) (value : Yaml) : List (Except String Yaml) :=
  [.ok (.mapping [("version", .scalar "!!int" "2"), (key, value)])]

def load (documents : List (Except String Yaml)) : Except String ParseResult :=
  loadFile HostLib.plain Decoder.plain "config.yaml" (.stream documents)

def startedFrom (documents : List (Except String Yaml)) : Daemon :=
  Daemon.act HostLib.plain Decoder.plain "config.yaml" {} (.start (.stream documents) {})

def reloadFrom (d : Daemon) (documents : List (Except String Yaml)) : Daemon × AdminResponse :=
  d.reloadConfig HostLib.plain (load documents) (.ok ()) (.ok ())

theorem startedFrom_reachable (documents : List (Except String Yaml)) :
    Reachable HostLib.plain Decoder.plain "config.yaml" (startedFrom documents) :=
  .step (.start rfl) rfl

def otherListener : Config :=
  HostLib.plain.normalize { version := 2, server := { derp := { listen := ":3379" } } }

theorem reload_new_listener :
    ((startedFrom []).reloadConfig HostLib.plain (.ok ⟨otherListener, []⟩) (.ok ())
      (.ok ())).1.pendingRestart = true := by
  have h := (reload_restart_only HostLib.plain Decoder.plain "config.yaml" (startedFrom [])
    (startedFrom_reachable _) (by decide +kernel) otherListener (by decide +kernel) []
    (.ok ())).mpr (by decide +kernel)
  exact h.2.1.mpr (by decide +kernel)

def setupAgain : List (Except String Yaml) :=
  documentWith "setup_required" (.scalar "!!bool" "true")

/-- The answer announces a restart, the flag says that none is pending, and the role changes. -/
theorem setup_taken_over :
    Reachable HostLib.plain Decoder.plain "config.yaml" (startedFrom []) ∧
      ((startedFrom []).started = true ∧ configRole (startedFrom []).current = .controller) ∧
      ((startedFrom []).reloadFrom setupAgain).2 = .success (reloaded ++ restartNotice) ∧
      ((startedFrom []).reloadFrom setupAgain).1.pendingRestart = false ∧
      configRole ((startedFrom []).reloadFrom setupAgain).1.current = .setup :=
  ⟨startedFrom_reachable _, by decide +kernel, by decide +kernel, by decide +kernel,
    by decide +kernel⟩

theorem restartOnly_clone (c : Config) : c.clone.restartOnly = c.restartOnly ↔
    ∀ k, c.controller = some k → k.allowedNodeCIDRs ≠ some [] := by
  have hiff : c.clone.restartOnly = c.restartOnly ↔ c.clone.controller = c.controller := by
    simp [Config.restartOnly, Config.clone]
  rw [hiff]
  cases hk : c.controller with
  | none => simp [Config.clone, hk]
  | some k =>
    simp only [Config.clone, hk, Option.map_some, Option.some.injEq, forall_eq']
    constructor
    · intro h hempty
      rw [if_pos hempty] at h
      have hlist := congrArg ControllerConfig.allowedNodeCIDRs h
      rw [hempty] at hlist
      cases hlist
    · intro h
      rw [if_neg h]

/-- A daemon that reads its file again keeps its configuration.  It reports a pending restart
exactly if the file gives the allowed ranges as an empty list. -/
theorem reload_unchanged (lib : HostLib) (D : Decoder) (path : String)
    (documents : List (Except String Yaml)) (r : ParseResult)
    (hparse : D.parse lib documents = .ok r) (o : StartOutcome) (d : Daemon)
    (hstart : start (loadFile lib D path (.stream documents)) o {} = .ok d)
    (sync : Except String Unit) :
    let after := d.reloadConfig lib (loadFile lib D path (.stream documents)) (.ok ()) sync
    after.1.current = d.current ∧
    ((after.1.pendingRestart = false ∧ ∀ m, after.2 = .success m → m = reloaded) ↔
      ∀ k, r.config.controller = some k → k.allowedNodeCIDRs ≠ some []) := by
  intro after
  obtain ⟨hnormal, hvalid⟩ := Decoder.parse_valid hparse
  have hload : loadFile lib D path (.stream documents) = .ok r := mapError_eq_ok.mpr hparse
  obtain ⟨-, r', hr', hs, hcurrent, -⟩ := start_ok hstart
  cases hload.symm.trans hr'
  have hsettled : Settled lib d.current := by
    rw [hcurrent]
    exact .of_normal hnormal
  obtain ⟨hafter, hanswer⟩ := reloadConfig_eq (c := r.config) d (by rw [hnormal]; exact hvalid)
    r.warnings sync
  rw [hnormal] at hafter
  have heq : after = d.reloadConfig lib (.ok ⟨r.config, r.warnings⟩) (.ok ()) sync := by
    rw [show after = d.reloadConfig lib (loadFile lib D path (.stream documents)) (.ok ()) sync
      from rfl, hload]
  have hkept : after.1.current = d.current := by
    rw [heq, hafter, applyCommittedConfig_current hs hsettled hnormal, hcurrent]
  have hpending : after.1.pendingRestart = true ↔ d.current.restartOnly ≠ r.config.restartOnly := by
    have h := applyCommittedConfig_pending hs hsettled hnormal sync
    rw [← hafter, ← heq, hkept] at h
    exact h
  have hchanged : lib.restartOnlyChanged d.activeConfig r.config = true ↔
      d.current.restartOnly ≠ r.config.restartOnly := by
    rw [lib.restartOnlyChanged_iff, activeConfig, hsettled.copied, hsettled.normal, hnormal]
  rw [← restartOnly_clone, ← hcurrent]
  refine ⟨hkept, ?_, ?_⟩
  · intro h
    by_contra hne
    rw [hpending.mpr hne] at h
    cases h.1
  · intro hsame
    constructor
    · rw [← Bool.not_eq_true, hpending]
      exact fun hne => hne hsame
    · intro m hm
      rw [heq] at hm
      rw [hanswer m hm, if_neg]
      rw [hchanged]
      exact fun hne => hne hsame

def allowing (cidrs : List Yaml) : List (Except String Yaml) :=
  documentWith "controller" (.mapping
    [("enabled", .scalar "!!bool" "true"), ("allowed_node_cidrs", .sequence cidrs)])

def ownNetwork : List (Except String Yaml) := allowing [.scalar "!!str" "10.0.0.0/8"]

def parsedOwnNetwork : ParseResult := (load ownNetwork).toOption.getD ⟨{}, []⟩

theorem reload_own_network :
    ((startedFrom ownNetwork).reloadFrom ownNetwork).1.pendingRestart = false := by
  have h := reload_unchanged HostLib.plain Decoder.plain "config.yaml" ownNetwork parsedOwnNetwork
    (by decide +kernel) {} (startedFrom ownNetwork) (by decide +kernel) (.ok ())
  have hlist : ∀ k, parsedOwnNetwork.config.controller = some k →
      k.allowedNodeCIDRs ≠ some [] := by
    intro k hk
    have hsome : parsedOwnNetwork.config.controller.map ControllerConfig.allowedNodeCIDRs =
        some (some ["10.0.0.0/8"]) := by decide +kernel
    rw [hk, Option.map_some, Option.some.injEq] at hsome
    rw [hsome]
    decide
  unfold reloadFrom load
  exact (h.2.mpr hlist).1

/-- An empty list of ranges, read twice. -/
theorem empty_ranges_pending :
    ((startedFrom (allowing [])).started = true ∧
      (startedFrom (allowing [])).pendingRestart = false) ∧
    ((startedFrom (allowing [])).reloadFrom (allowing [])).2 =
      .success (reloaded ++ restartNotice) ∧
    ((startedFrom (allowing [])).reloadFrom (allowing [])).1.pendingRestart = true :=
  ⟨by decide +kernel, by decide +kernel, by decide +kernel⟩

end Daemon

end UniDERP
