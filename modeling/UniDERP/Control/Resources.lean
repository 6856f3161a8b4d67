import UniDERP.Control.Nodes

namespace UniDERP

def ownedNode (actor : Actor) (id : String) (db : DB) : Except Err Node := do
  activeActor actor db
  let n ← orElse (db.nodes.get? id) .noRows
  requireOwner actor n.ownerID
  pure n

/-- Write the ports, unless they are the stored ones, and forget the old probes. -/
def changePorts (id : String) (n : Node) (derpPort stunPort : ℕ) (db : DB) : Except Err DB := do
  require (validPort derpPort ∧ validPort stunPort) .invalid
  if derpPort = n.derpPort ∧ stunPort = n.stunPort then pure db
  else pure { db with
    nodes := db.nodes.insert id { n with derpPort := derpPort, stunPort := stunPort }
    observations := db.observations.modify id fun o => { o with probesJSON := none } }

def setNodePorts (actor : Actor) (id : String) (derpPort stunPort : ℕ) (db : DB) :
    Except Err DB := do
  require (validPort derpPort ∧ validPort stunPort) .invalid
  let n ← ownedNode actor id db
  changePorts id n derpPort stunPort db

def setNodeSessionPorts (E : Env) (c : Clock) (token : String) (derpPort stunPort : ℕ) (db : DB) :
    Except Err DB := do
  let session ← nodeSession E (c.read 0) token db
  let n ← orElse (db.nodes.get? session.nodeID) .noRows
  changePorts session.nodeID n derpPort stunPort db

def setNodeEnabled (E : Env) (c : Clock) (actor : Actor) (id : String) (enabled : Bool) (db : DB) :
    Except Err DB := do
  let n ← ownedNode actor id db
  require (¬ (enabled ∧ n.state = .domainPending)) .conflict
  let db := { db with nodes := db.nodes.insert id { n with enabled := enabled } }
  if n.state ≠ .pending then do
    let (db, _) ← buildPolicy E id (c.read 0) db
    pure db
  else pure db

/-- The relay has applied what it was last given, as far as its open stream tells. -/
def settled (connected : Bool) (row : PolicyRow) : Bool :=
  !connected || row.appliedRevision = row.desiredRevision

/-- `connected` is whether the node's control stream is open. -/
def deleteNode (actor : Actor) (id : String) (connected : Bool) (db : DB) : Except Err DB := do
  let n ← ownedNode actor id db
  require (n.state ≠ .pending → n.enabled = false ∧
    settled connected ((db.policies.get? id).getD {})) .conflict
  pure (db.deleteNode id)

def changeNodeDomain (E : Env) (actor : Actor) (id domain : String) (connected : Bool) (db : DB) :
    Except Err DB := do
  let domain ← orElse (E.normalizeNodeDomain domain) (.input "invalid_hostname" "domain")
  let n ← ownedNode actor id db
  require (n.enabled = false ∧ (n.state.serving ∨ n.state = .domainPending)) .conflict
  if domain = n.domain then pure db
  else do
    require (db.nodes.any (fun k m => m.domain = domain ∧ k ≠ id) = false) .conflict
    let row ← orElse (db.policies.get? id) .noRows
    require (settled connected row) .conflict
    pure { db with
      nodes := db.nodes.insert id { n with
        domain := domain, state := .domainPending, domainVerifiedAt := 0, lastError := "" }
      nodeSessions := db.nodeSessions.delete fun _ s => s.nodeID = id
      challenges := db.challenges.delete fun _ ch => ch.nodeID = id
      enrollments := db.enrollments.erase id
      observations := db.observations.erase id }

/-- The transaction of `ProbeNode`, for a node that had these values when it was probed. -/
def saveProbes (actor : Actor) (id domain : String) (derpPort stunPort : ℕ) (probes : NodeProbes)
    (db : DB) : Except Err DB := do
  let n ← ownedNode actor id db
  require (n.domain = domain ∧ n.derpPort = derpPort ∧ n.stunPort = stunPort ∧ n.state.serving)
    .conflict
  pure { db with
    observations := db.observations.insert id
      { (db.observations.get? id).getD {} with probesJSON := some probes } }

/-- The loop over the rules: each is for an open grant, and only the owner's own tailnets are in
the owner's class. -/
def insertRules (node owner : String) : List TailnetQoS → DB → Except Err DB
  | [], db => .ok db
  | rule :: rules, db => do
    let g ← orElse (db.grants.get? (pair node rule.tailnetID)) .invalid
    let tn ← orElse (db.tailnets.get? rule.tailnetID) .invalid
    require (g.state.live) .invalid
    require (¬ (rule.group = .owner ∧ tn.ownerID ≠ owner)) .invalid
    require (db.rules.get? (pair node rule.tailnetID) = none) .constraint
    insertRules node owner rules { db with
      rules := db.rules.insert (pair node rule.tailnetID) ⟨rule.group, rule.weight, rule.maxBPS⟩ }

def setNodeQoS (E : Env) (c : Clock) (actor : Actor) (node : String) (q : QoSPolicy) (db : DB) :
    Except Err DB := do
  (validateQoS q).mapError fun _ => .invalid
  let n ← ownedNode actor node db
  let db := { db with
    policies := db.policies.modify node fun row =>
      { row with
        budgetBPS := q.budgetBPS, ownerWeight := q.ownerWeight, sharedWeight := q.sharedWeight
        sharedMaxBPS := q.sharedMaxBPS }
    rules := db.rules.delete fun k _ => (ofLex k).1 = node }
  let db ← insertRules node n.ownerID q.tailnets db
  let (db, _) ← buildPolicy E node (c.read 0) db
  pure db

def tailnetOwner (actor : Actor) (id : String) (db : DB) : Except Err Tailnet := do
  activeActor actor db
  let tn ← orElse (db.tailnets.get? id) .noRows
  requireOwner actor tn.ownerID
  pure tn

def setTailnetEnabled (E : Env) (c : Clock) (actor : Actor) (id : String) (enabled : Bool)
    (db : DB) : Except Err DB := do
  let _ ← tailnetOwner actor id db
  rebuildPolicies E (c.read 0) { db with
    tailnets := db.tailnets.modify id fun tn => { tn with enabled := enabled } }

def deleteTailnet (E : Env) (c : Clock) (actor : Actor) (id : String) (db : DB) :
    Except Err DB := do
  let _ ← tailnetOwner actor id db
  rebuildPolicies E (c.read 0) (db.deleteTailnet id)

def transferTailnet (E : Env) (c : Clock) (actor : Actor) (id newOwner : String) (db : DB) :
    Except Err DB := do
  require (actor.role = .admin ∧ actor.enabled) .forbidden
  let _ ← tailnetOwner actor id db
  require (db.userEnabled newOwner) .invalid
  rebuildPolicies E (c.read 0) { db with
    tailnets := db.tailnets.modify id fun tn => { tn with ownerID := newOwner }
    rules := db.rules.update (fun k r => (ofLex k).2 = id ∧ r.group = .owner ∧
      (db.nodes.get? (ofLex k).1).any fun n => n.ownerID ≠ newOwner) fun r =>
        { r with group := .shared } }

theorem ownedNode_eq_ok {actor : Actor} {id : String} {db : DB} {n : Node} :
    ownedNode actor id db = .ok n ↔
      Active actor db ∧ db.nodes.get? id = some n ∧ Permitted actor n.ownerID := by
  simp only [ownedNode, Except_bind_eq_ok, activeActor_eq_ok, exists_const, orElse_eq_ok,
    requireOwner_eq_ok, Except_pure_eq_ok]
  constructor
  · rintro ⟨ha, n, hn, hp, rfl⟩
    exact ⟨ha, hn, hp⟩
  · rintro ⟨ha, hn, hp⟩
    exact ⟨ha, n, hn, hp, rfl⟩

theorem tailnetOwner_eq_ok {actor : Actor} {id : String} {db : DB} {tn : Tailnet} :
    tailnetOwner actor id db = .ok tn ↔
      Active actor db ∧ db.tailnets.get? id = some tn ∧ Permitted actor tn.ownerID := by
  simp only [tailnetOwner, Except_bind_eq_ok, activeActor_eq_ok, exists_const, orElse_eq_ok,
    requireOwner_eq_ok, Except_pure_eq_ok]
  constructor
  · rintro ⟨ha, tn, htn, hp, rfl⟩
    exact ⟨ha, htn, hp⟩
  · rintro ⟨ha, htn, hp⟩
    exact ⟨ha, tn, htn, hp, rfl⟩

theorem insertRules_frame {node owner : String} {rules : List TailnetQoS} {db db' : DB}
    (h : insertRules node owner rules db = .ok db') :
    db' = { db with rules := db'.rules } ∧
      ∀ k, (ofLex k).1 ≠ node → db'.rules.get? k = db.rules.get? k := by
  induction rules generalizing db with
  | nil =>
    obtain rfl : db = db' := by simpa [insertRules] using h
    exact ⟨rfl, fun _ _ => rfl⟩
  | cons rule rules ih =>
    simp only [insertRules, Except_bind_eq_ok, require_eq_ok, exists_const, orElse_eq_ok] at h
    obtain ⟨g, -, tn, -, -, -, -, h⟩ := h
    obtain ⟨hframe, hothers⟩ := ih h
    refine ⟨hframe, fun k hk => ?_⟩
    rw [hothers k hk, Table.get?_insert_ne]
    rintro rfl
    exact hk rfl

theorem insertRules_own {node owner tailnet : String} {rules : List TailnetQoS} {db db' : DB}
    {r : Rule} (h : insertRules node owner rules db = .ok db')
    (hr : db'.rules.get? (pair node tailnet) = some r) :
    db.rules.get? (pair node tailnet) = some r ∨
      ∃ tn, db.tailnets.get? tailnet = some tn ∧ (r.group = .owner → tn.ownerID = owner) := by
  induction rules generalizing db with
  | nil =>
    obtain rfl : db = db' := by simpa [insertRules] using h
    exact .inl hr
  | cons rule rules ih =>
    simp only [insertRules, Except_bind_eq_ok, require_eq_ok, exists_const, orElse_eq_ok] at h
    obtain ⟨g, -, tn, htn, -, hgroup, -, h⟩ := h
    rcases ih h with hold | hnew
    · rcases Table.get?_insert_eq_some.mp hold with ⟨hk, rfl⟩ | ⟨-, hold⟩
      · obtain rfl := (pair_inj.mp hk).2
        exact .inr ⟨tn, htn, fun ho => not_not.mp fun hne => hgroup ⟨ho, hne⟩⟩
      · exact .inl hold
    · exact .inr hnew

end UniDERP
