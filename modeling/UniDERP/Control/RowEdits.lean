import UniDERP.Control.Effects

namespace UniDERP

def Node.released (n : Node) : Node :=
  { n with
    state := .pending, instanceID := "", leaseUntil := 0, domainVerifiedAt := 0
    lastHeartbeat := 0, lastError := "" }

inductive NodeEdit (E : Env) (c : Clock) (db mid : DB) (op : Op) (id : String) : Prop
  | kept (same : mid.nodes.get? id = db.nodes.get? id)
  | created {n : Node} (call : op.creates id) (before : db.nodes.get? id = none)
      (after : mid.nodes.get? id = some n) (pending : n.state = .pending) (key : n.publicKey = none)
      (owner : ∃ u, db.users.get? n.ownerID = some u)
  | deleted {actor : Actor} {connected : Bool} {n : Node}
      (call : op = .deleteNode actor id connected) (before : db.nodes.get? id = some n)
      (gone : mid = db.deleteNode id)
  | released {n : Node} (call : Reissues E c db op id) (before : db.nodes.get? id = some n)
      (after : mid.nodes.get? id = some n.released) (grants : mid.grants = (db.release id).grants)
  | enrolled {req : EnrollmentRequest} {token : Token} {box : Bytes} {n : Node}
      (call : op = .enrollCommit req token box) (nodeID : req.challenge.nodeID = id)
      (before : db.nodes.get? id = some n) (domain : n.domain = req.challenge.domain)
      (pending : n.state = .pending)
      (key : n.publicKey = none ∨ n.publicKey = some req.challenge.publicKey)
      (usable : Usable E (c.read 2) (c.read 3) req.challenge req.signature db)
      (after : mid.nodes.get? id = some { n with
        publicKey := some req.challenge.publicKey, instanceID := req.challenge.instanceID
        state := .registered, leaseUntil := unix (c.read 4 + 90 * second)
        domainVerifiedAt := unix (c.read 5) })
  | renewed {ch : NodeChallenge} {sig : Bytes} {token : Token} {n : Node}
      (call : op = .renewNodeSession ch sig token) (nodeID : ch.nodeID = id)
      (before : db.nodes.get? id = some n) (domain : n.domain = ch.domain)
      (state : renewable ch.purpose n.state) (key : n.publicKey = some ch.publicKey)
      (lease : n.instanceID = ch.instanceID ∨ n.leaseUntil ≤ unix (c.read 2))
      (usable : Usable E (c.read 0) (c.read 1) ch sig db)
      (after : mid.nodes.get? id = some { n with
        instanceID := ch.instanceID, leaseUntil := unix (c.read 4 + 90 * second)
        state := if n.state = .domainPending then .registered else n.state
        domainVerifiedAt :=
          if ch.purpose = .domainChange then unix (c.read 5) else n.domainVerifiedAt })
  | refused {ch : NodeChallenge} {sig : Bytes} {token : Token} {n : Node}
      (call : op = .renewNodeSession ch sig token) (nodeID : ch.nodeID = id)
      (before : db.nodes.get? id = some n) (domain : n.domain = ch.domain)
      (state : renewable ch.purpose n.state) (key : n.publicKey = some ch.publicKey)
      (usable : Usable E (c.read 0) (c.read 1) ch sig db)
      (after : mid.nodes.get? id = some { n with
        state := .identityConflict, lastError := "node identity is active on another instance" })
  | recovered {actor : Actor} {instance_ : String} {n : Node}
      (call : op = .recoverNodeInstance actor id instance_) (before : db.nodes.get? id = some n)
      (active : Active actor db) (owner : Permitted actor n.ownerID)
      (conflict : n.state = .identityConflict)
      (after : mid.nodes.get? id = some { n with
        state := .registered, instanceID := instance_, lastError := ""
        leaseUntil := unix (c.read 0 + 90 * second) })
  | moved {actor : Actor} {domain normal : String} {connected : Bool} {n : Node}
      (call : op = .changeNodeDomain actor id domain connected) (before : db.nodes.get? id = some n)
      (disabled : n.enabled = false) (state : n.state.serving ∨ n.state = .domainPending)
      (unique : ∀ k m, db.nodes.get? k = some m → m.domain = normal → k = id)
      (after : mid.nodes.get? id = some { n with
        domain := normal, state := .domainPending, domainVerifiedAt := 0, lastError := "" })
      (challenges : mid.challenges = db.challenges.delete fun _ ch => ch.nodeID = id)
  | ported {n : Node} {derpPort stunPort : ℕ} (before : db.nodes.get? id = some n)
      (after : mid.nodes.get? id = some { n with derpPort := derpPort, stunPort := stunPort })
  | switched {n : Node} {enabled : Bool} (before : db.nodes.get? id = some n)
      (state : ¬ (enabled ∧ n.state = .domainPending))
      (after : mid.nodes.get? id = some { n with enabled := enabled })
  | heard {n : Node} (before : db.nodes.get? id = some n) (serving : n.state.serving)
      (after : mid.nodes.get? id = some { n with
        leaseUntil := unix (c.read 1 + 90 * second), lastHeartbeat := unix (c.read 1) })
  | acknowledged {n : Node} {state : NodeState} {lastError : String}
      (before : db.nodes.get? id = some n) (serving : n.state.serving)
      (next : state = .ready ∨ state = .registered)
      (after : mid.nodes.get? id = some { n with state := state, lastError := lastError })

section Nodes

variable {E : Env} {c : Clock} {db mid : DB} {op : Op} {reply : Reply} {S : String → Prop}
  {id : String}

theorem NodeEdit.of_insert {k : String} {m : Node} (hmid : mid.nodes = db.nodes.insert k m)
    (h : mid.nodes.get? k = some m → NodeEdit E c db mid op k) : NodeEdit E c db mid op id := by
  by_cases hk : id = k
  · subst hk
    exact h (by rw [hmid, Table.get?_insert_self])
  · exact .kept (by rw [hmid, Table.get?_insert_ne _ _ hk])

theorem NodeEdit.of_release {k : String} {n : Node} (hn : db.nodes.get? k = some n)
    (hcall : Reissues E c db op k) (hmid : mid.nodes = (db.release k).nodes)
    (hgrants : mid.grants = (db.release k).grants) : NodeEdit E c db mid op id := by
  have hnodes : mid.nodes = db.nodes.insert k n.released :=
    hmid.trans (Table.modify_eq_insert Node.released hn)
  exact .of_insert hnodes fun hafter => .released hcall hn hafter hgrants

theorem Effect.node_edit (h : Effect E c db op reply mid S) (id : String) :
    NodeEdit E c db mid op id := by
  cases h
  case createNode token _ _ n hfresh hpending hkey howner _ =>
    exact .of_insert rfl fun hafter =>
      .created (by simp [Op.creates]) hfresh hafter hpending hkey howner
  case reissueEnrollment hn _ _ _ _ => exact .of_release hn (.inl ⟨_, _, rfl⟩) rfl rfl
  case leaveNode hs =>
    exact .of_release (liveSession_eq_some.mp hs).2.1 (.inr ⟨_, _, _, rfl, hs, rfl⟩) rfl rfl
  case enroll hn hdomain hpending hkey _ _ _ _ husable _ _ _ _ =>
    exact .of_insert rfl fun hafter =>
      .enrolled rfl rfl hn hdomain hpending hkey husable hafter
  case renew hn hdomain hstate _ hkey hlease husable _ _ =>
    exact .of_insert rfl fun hafter =>
      .renewed rfl rfl hn hdomain hstate hkey hlease husable hafter
  case refuse hn hdomain hstate _ hkey _ husable _ =>
    exact .of_insert rfl fun hafter =>
      .refused rfl rfl hn hdomain hstate hkey husable hafter
  case recover hn hactive howner hconflict =>
    exact .of_insert rfl fun hafter => .recovered rfl hn hactive howner hconflict hafter
  case ports hn _ => exact .of_insert rfl fun hafter => .ported hn hafter
  case setNodeEnabled hn _ _ hstate => exact .of_insert rfl fun hafter => .switched hn hstate hafter
  case deleteNode k _ n hn =>
    by_cases hk : id = k
    · subst hk
      exact .deleted rfl hn rfl
    · exact .kept (Table.get?_erase_ne _ hk)
  case changeNodeDomain hn hdisabled hstate hunique _ _ =>
    exact .of_insert rfl fun hafter => .moved rfl hn hdisabled hstate hunique hafter rfl
  case nodeHeartbeat hs =>
    obtain ⟨-, hn, -, -, hserving, -⟩ := liveSession_eq_some.mp hs
    have hnodes := Table.modify_eq_insert (fun n : Node =>
      { n with leaseUntil := unix (c.read 1 + 90 * second), lastHeartbeat := unix (c.read 1) }) hn
    exact .of_insert hnodes fun hafter => .heard hn hserving hafter
  case ackApplied usable _ hs _ _ _ =>
    obtain ⟨-, hn, -, -, hserving, -⟩ := liveSession_eq_some.mp hs
    refine .of_insert rfl fun hafter => .acknowledged hn hserving ?_ hafter
    cases usable <;> simp
  case ackNack hs _ =>
    obtain ⟨-, hn, -, -, hserving, -⟩ := liveSession_eq_some.mp hs
    exact .of_insert rfl fun hafter => .acknowledged hn hserving (.inr rfl) hafter
  all_goals exact .kept rfl

/-- What a node keeps through every transaction: its owner and its region, its key once it has one,
and its domain unless that is changed to one that no other node has. -/
structure Node.Keeps (db : DB) (op : Op) (id : String) (n₀ n : Node) : Prop where
  owner : n.ownerID = n₀.ownerID
  region : n.regionID = n₀.regionID
  key : n₀.publicKey = none ∨ n.publicKey = n₀.publicKey
  domain : n.domain = n₀.domain ∨
    (∃ actor domain connected, op = .changeNodeDomain actor id domain connected) ∧
      ∀ k m, db.nodes.get? k = some m → m.domain = n.domain → k = id

/-- Nodes come only from `CreateNode`. -/
theorem NodeEdit.origin (h : NodeEdit E c db mid op id) {n : Node}
    (hn : mid.nodes.get? id = some n) :
    op.creates id ∨ ∃ n₀, db.nodes.get? id = some n₀ ∧ n₀.Keeps db op id n := by
  have hsame : ∀ {m m' : Node}, db.nodes.get? id = some m → mid.nodes.get? id = some m' →
      m'.ownerID = m.ownerID ∧ m'.regionID = m.regionID ∧ m'.publicKey = m.publicKey ∧
        m'.domain = m.domain →
      op.creates id ∨ ∃ n₀, db.nodes.get? id = some n₀ ∧ n₀.Keeps db op id n := by
    intro m m' hm hm' ⟨howner, hregion, hkey, hdomain⟩
    cases hn.symm.trans hm'
    exact .inr ⟨m, hm, howner, hregion, .inr hkey, .inl hdomain⟩
  cases h with
  | kept same => exact hsame (same.symm.trans hn) hn ⟨rfl, rfl, rfl, rfl⟩
  | created call => exact .inl call
  | deleted _ _ gone =>
    rw [gone, DB.deleteNode, Table.get?_erase_self] at hn
    cases hn
  | released _ before after => exact hsame before after ⟨rfl, rfl, rfl, rfl⟩
  | enrolled _ _ before _ _ key _ after =>
    cases hn.symm.trans after
    exact .inr ⟨_, before, rfl, rfl, key.imp_right Eq.symm, .inl rfl⟩
  | renewed _ _ before _ _ _ _ _ after => exact hsame before after ⟨rfl, rfl, rfl, rfl⟩
  | refused _ _ before _ _ _ _ after => exact hsame before after ⟨rfl, rfl, rfl, rfl⟩
  | recovered _ before _ _ _ after => exact hsame before after ⟨rfl, rfl, rfl, rfl⟩
  | moved call before _ _ unique after =>
    cases hn.symm.trans after
    exact .inr ⟨_, before, rfl, rfl, .inr rfl, .inr ⟨⟨_, _, _, call⟩, unique⟩⟩
  | ported before after => exact hsame before after ⟨rfl, rfl, rfl, rfl⟩
  | switched before _ after => exact hsame before after ⟨rfl, rfl, rfl, rfl⟩
  | heard before _ after => exact hsame before after ⟨rfl, rfl, rfl, rfl⟩
  | acknowledged before _ _ after => exact hsame before after ⟨rfl, rfl, rfl, rfl⟩

theorem Step.origin {db' : DB} {a : Commit} {n : Node} (h : Step E db a db')
    (hn : db'.nodes.get? id = some n) :
    a.op.creates id ∨ ∃ n₀, db.nodes.get? id = some n₀ ∧ n₀.Keeps db a.op id n := by
  obtain ⟨mid, S, i, he, hr⟩ := exec_does h
  rw [hr.frame] at hn
  exact (he.node_edit id).origin hn

end Nodes

inductive ChallengeEdit (E : Env) (c : Clock) (db : DB) (op : Op) (reply : Reply) (k : String)
    (row' : Challenge) : Prop
  | kept (before : db.challenges.get? k = some row')
  | used {row : Challenge} (i : ℕ) (before : db.challenges.get? k = some row)
      (after : row' = { row with usedAt := unix (c.read i) })
  | enrollment {ch : NodeChallenge} {code : String} {nonce : Token} {n : Node}
      (call : op = .enrollmentChallenge code ch.publicKey ch.instanceID nonce)
      (answer : reply = .challenge ch) (purpose : ch.purpose = .enroll)
      (nonce_eq : ch.nonce = nonce.text) (key : k = E.tokenHash ch.nonce) (after : row' = ch.row)
      (node : db.nodes.get? ch.nodeID = some n) (domain : ch.domain = n.domain)
  | session {ch : NodeChallenge} {id instance_ : String} {nonce : Token} {n : Node}
      (call : op = .sessionChallenge id instance_ nonce) (answer : reply = .challenge ch)
      (purpose : ch.purpose = if n.state = .domainPending then .domainChange else .session)
      (nonce_eq : ch.nonce = nonce.text) (key : k = E.tokenHash ch.nonce) (after : row' = ch.row)
      (node : db.nodes.get? ch.nodeID = some n) (domain : ch.domain = n.domain)

section Challenges

variable {E : Env} {c : Clock} {db mid : DB} {op : Op} {reply : Reply} {S : String → Prop}
  {k : String} {row' : Challenge}

theorem Effect.challenge_edit (h : Effect E c db op reply mid S)
    (hrow : mid.challenges.get? k = some row') : ChallengeEdit E c db op reply k row' := by
  have hdelete : ∀ {challenges : Table String Challenge} {id : String},
      (challenges.delete fun _ ch => ch.nodeID = id).get? k = some row' →
      challenges.get? k = some row' := fun h => (Table.get?_delete_eq_some.mp h).1
  have huse : ∀ {nonce : String} {i : ℕ}, mid.challenges =
      db.challenges.modify (E.tokenHash nonce) (fun r => { r with usedAt := unix (c.read i) }) →
      ChallengeEdit E c db op reply k row' := by
    intro nonce i hmid
    rw [hmid] at hrow
    obtain ⟨row, hrow₀, rfl⟩ := Table.get?_modify_eq_some.mp hrow
    split_ifs
    · exact .used i hrow₀ rfl
    · exact .kept hrow₀
  cases h
  case createNode => exact .kept (hdelete hrow)
  case issueEnrollment => exact .kept (hdelete hrow)
  case reissueEnrollment => exact .kept (hdelete (hdelete hrow))
  case leaveNode => exact .kept (hdelete hrow)
  case enrollmentChallenge hn hdomain hpub hinstance hnonce hpurpose _ =>
    rcases Table.get?_insert_eq_some.mp hrow with ⟨rfl, rfl⟩ | ⟨-, hrow⟩
    · subst hpub hinstance
      exact .enrollment rfl rfl hpurpose hnonce rfl rfl hn hdomain
    · exact .kept (Table.get?_delete_eq_some.mp hrow).1
  case sessionChallenge hn hdomain hnonce hpurpose _ =>
    rcases Table.get?_insert_eq_some.mp hrow with ⟨rfl, rfl⟩ | ⟨-, hrow⟩
    · exact .session rfl rfl hpurpose hnonce rfl rfl hn hdomain
    · exact .kept (Table.get?_delete_eq_some.mp hrow).1
  case enroll => exact huse rfl
  case renew => exact huse rfl
  case refuse => exact huse rfl
  case recover => exact .kept (hdelete hrow)
  case deleteNode => exact .kept (hdelete hrow)
  case changeNodeDomain => exact .kept (hdelete hrow)
  all_goals exact .kept hrow

end Challenges

end UniDERP
