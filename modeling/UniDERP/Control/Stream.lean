import UniDERP.Control.Nodes

namespace UniDERP

/-- The loop over a report's traffic: every tailnet once, and of this node's grants. -/
def checkTraffic (db : DB) (node : String) (seen : List String) :
    List TailnetTraffic → Except Err Unit
  | [] => .ok ()
  | t :: ts => do
    require (t.tailnetID ≠ "" ∧ t.tailnetID ∉ seen) .invalid
    require (db.grants.get? (pair node t.tailnetID) ≠ none) .invalid
    checkTraffic db node (t.tailnetID :: seen) ts

/-- A stored report of the same instance that the new one does not follow. -/
def Observation.stale (o : Observation) (instance_ : String) (report : NodeReport) :
    Except Err Bool :=
  if o.reportInstance = instance_ then do
    let old ← orElse o.reportJSON .marshal
    pure (report.revision < old.revision || report.observedAt.time ≤ old.observedAt.time)
  else pure false

def saveNodeReport (session : NodeSession) (report : NodeReport) (desired : ℕ) (now : Int)
    (db : DB) : Except Err DB := do
  require (report.revision ≤ desired ∧ report.observedAt.time ≠ zeroTime ∧
    report.observedAt.time ≤ now + 5 * second ∧ report.traffic.length ≤ 4096) .invalid
  checkTraffic db session.nodeID [] report.traffic
  let o := (db.observations.get? session.nodeID).getD {}
  if ← o.stale session.instanceID report then pure db
  else do
    require (validTime report.observedAt) .marshal
    pure { db with
      observations := db.observations.insert session.nodeID { o with
        previousReportJSON := if o.reportInstance = session.instanceID then o.reportJSON else none
        reportInstance := session.instanceID
        reportJSON := some report
        reportedAt := unix now } }

structure HeartbeatReply where
  nodeID : String
  leaseUntil : Int
  desiredRevision : ℕ
  heartbeatIntervalMillis : ℕ
  deriving DecidableEq, Repr

def DB.heartbeat (db : DB) (id : String) (now : Int) : DB :=
  { db with
    nodes := db.nodes.modify id fun n =>
      { n with leaseUntil := unix (now + 90 * second), lastHeartbeat := unix now }
    grants := db.grants.update (fun k g => (ofLex k).1 = id ∧ g.state = .active) fun g =>
      { g with lastControlSuccess := unix now } }

def nodeHeartbeat (E : Env) (c : Clock) (token : String) (report : Option NodeReport) (db : DB) :
    Except Err (DB × HeartbeatReply) := do
  let session ← nodeSession E (c.read 0) token db
  let now := c.read 1
  let (db, p) ← buildPolicy E session.nodeID now (db.heartbeat session.nodeID now)
  let db ← match report with
    | some report => saveNodeReport session report p.revision now db
    | none => pure db
  let retention ← readRetentions db
  pure (db, ⟨session.nodeID, now + 90 * second, p.revision,
    max 250 (min 30000 (retention.controlSeconds * 1000 / 3))⟩)

inductive AckState
  | received
  | applied
  | nack
  deriving DecidableEq, Repr

structure PolicyACK where
  revision : ℕ
  state : AckState
  usable : Bool
  error : String
  deriving DecidableEq, Repr

def validACK (ack : PolicyACK) : Bool :=
  match ack.state with
  | .received => ack.error = "" && !ack.usable
  | .applied => ack.error = ""
  | .nack => !ack.usable &&
      ack.error ∈ ["invalid_policy", "persist_failed", "apply_failed", "clock_rollback"]

/-- Some key of the policy is live; `now` gives the reading taken for each key in turn. -/
def hasLiveKey (now : ℕ → Int) (p : Policy) : Bool :=
  (p.grants.flatMap fun g => g.keys.map fun k => (g, k)).zipIdx.any fun x =>
    now x.2 < effectiveUntil x.1.1 x.1.2

def applyFailed (now : Int) (id owner error : String) (db : DB) : DB :=
  if db.events.any fun e => e.resource = .node ∧ e.resourceID = id ∧ e.kind = .policyApplyFailed ∧
      e.resolvedAt = 0 then db
  else db.addEvent {
    ownerID := owner, resource := .node, resourceID := id, kind := .policyApplyFailed
    message := "Policy application failed: " ++ error, createdAt := unix now }

def acknowledgePolicy (E : Env) (c : Clock) (token : String) (ack : PolicyACK) (db : DB) :
    Except Err DB := do
  require (ack.revision ≠ 0 ∧ ack.revision ≤ maxInt64) .invalid
  require (validACK ack) .invalid
  let session ← nodeSession E (c.read 0) token db
  let id := session.nodeID
  let row ← orElse (db.policies.get? id) .noRows
  let n ← orElse (db.nodes.get? id) .noRows
  require (ack.revision ≤ row.desiredRevision) .conflict
  match ack.state with
  | .received =>
    require (row.receivedRevision ≤ ack.revision) .conflict
    pure { db with policies := db.policies.insert id { row with receivedRevision := ack.revision } }
  | .applied =>
    require (ack.revision ≤ row.receivedRevision ∧ row.appliedRevision ≤ ack.revision) .conflict
    let body ← orElse row.policyJSON (.policy "decode policy")
    let p ← decodePolicy E body id
    let usable := ack.usable && ack.revision = row.desiredRevision &&
      hasLiveKey (fun i => c.read (i + 2)) p
    let db : DB := { db with
      policies := db.policies.insert id
        { row with appliedRevision := ack.revision, derperUsable := usable }
      nodes := db.nodes.insert id
        { n with state := if usable then .ready else .registered, lastError := "" } }
    pure (db.resolveEvents (unix (c.read 1)) fun e =>
      e.resource = .node ∧ e.resourceID = id ∧ e.kind = .policyApplyFailed)
  | .nack =>
    require (¬ (ack.revision ≤ row.appliedRevision ∨ ack.revision < row.receivedRevision)) .conflict
    pure (applyFailed (c.read 1) id n.ownerID ack.error { db with
      nodes := db.nodes.insert id
        { n with state := .registered, lastError := "policy application failed: " ++ ack.error } })

/-- No key of the grant can be admitted at `now`, for one of its own deadlines or for all keys'. -/
def grantEnded (now : Int) (g : GrantPolicy) : Bool :=
  decide (g.identityUntil ≤ now ∨ g.controlUntil ≤ now ∨
    (g.explicitUntil ≠ zeroTime ∧ g.explicitUntil ≤ now)) ||
  (!g.keys.isEmpty && g.keys.all fun k => decide (effectiveUntil g k ≤ now))

/-- The map `expired`, to which every stored policy adds its grants. -/
def endedGrants (E : Env) (now : Int) :
    List (String × PolicyRow) → Table String Bool → Except Err (Table String Bool)
  | [], expired => .ok expired
  | (id, row) :: rows, expired =>
    match row.policyJSON with
    | none => endedGrants E now rows expired
    | some body => do
      let p ← decodePolicy E body id
      endedGrants E now rows
        (p.grants.foldl (fun expired g => expired.insert g.grantID (grantEnded now g)) expired)

def expiryEvent (now : Int) (grant owner : String) (db : DB) : DB :=
  if db.events.any fun e => e.ownerID = owner ∧ e.resource = .grant ∧ e.resourceID = grant ∧
      e.kind = .authorizationExpired ∧ e.resolvedAt = 0 then db
  else db.addEvent {
    ownerID := owner, resource := .grant, resourceID := grant, kind := .authorizationExpired
    message := "Authorization deadline reached; relay permission has expired."
    createdAt := unix now }

def updateExpiry (ended : Table String Bool) (now : Int) (db : DB) (x : Pair × Grant) : DB :=
  let g := x.2
  match db.nodes.get? (ofLex x.1).1, db.tailnets.get? (ofLex x.1).2 with
  | some n, some tn =>
    if g.state.live ∧ ((g.explicitUntil ≠ 0 ∧ ofUnix g.explicitUntil ≤ now) ∨
        (g.state = .active ∧ ended.get? g.id = some true)) then
      let db := expiryEvent now g.id n.ownerID db
      if tn.ownerID ≠ n.ownerID then expiryEvent now g.id tn.ownerID db else db
    else db.resolveEvents (unix now) fun e =>
      e.resource = .grant ∧ e.resourceID = g.id ∧ e.kind = .authorizationExpired
  | _, _ => db

def refreshExpiryEvents (E : Env) (c : Clock) (db : DB) : Except Err DB := do
  let ended ← endedGrants E (c.read 0) db.policies.rows ∅
  pure (db.grants.rows.foldl (updateExpiry ended (c.read 0)) db)

theorem saveNodeReport_frame {session : NodeSession} {report : NodeReport} {desired : ℕ}
    {now : Int} {db db' : DB} (h : saveNodeReport session report desired now db = .ok db') :
    db' = { db with observations := db'.observations } := by
  simp only [saveNodeReport, Except_bind_eq_ok, require_eq_ok, exists_const] at h
  obtain ⟨-, -, -, stale, -, h⟩ := h
  cases stale with
  | true =>
    obtain rfl := Except_pure_eq_ok.mp h
    rfl
  | false =>
    simp only [Bool.false_eq_true, if_false, Except_bind_eq_ok, require_eq_ok, exists_const,
      Except_pure_eq_ok] at h
    obtain ⟨-, rfl⟩ := h
    rfl

theorem applyFailed_frame (now : Int) (id owner error : String) (db : DB) :
    applyFailed now id owner error db =
      { db with events := (applyFailed now id owner error db).events } := by
  unfold applyFailed
  split_ifs <;> rfl

theorem expiryEvent_frame (now : Int) (grant owner : String) (db : DB) :
    expiryEvent now grant owner db =
      { db with events := (expiryEvent now grant owner db).events } := by
  unfold expiryEvent
  split_ifs <;> rfl

theorem updateExpiry_frame (ended : Table String Bool) (now : Int) (db : DB) (x : Pair × Grant) :
    updateExpiry ended now db x =
      { db with events := (updateExpiry ended now db x).events } := by
  unfold updateExpiry
  cases db.nodes.get? (ofLex x.1).1 with
  | none => rfl
  | some n =>
    cases db.tailnets.get? (ofLex x.1).2 with
    | none => rfl
    | some tn =>
      dsimp only
      split_ifs
      · rw [expiryEvent_frame, expiryEvent_frame]
      · exact expiryEvent_frame _ _ _ _
      · rfl

theorem refreshExpiryEvents_frame {E : Env} {c : Clock} {db db' : DB}
    (h : refreshExpiryEvents E c db = .ok db') : ∃ events, db' = { db with events := events } := by
  simp only [refreshExpiryEvents, Except_bind_eq_ok, Except_pure_eq_ok] at h
  obtain ⟨ended, -, rfl⟩ := h
  generalize db.grants.rows = xs
  induction xs generalizing db with
  | nil => exact ⟨db.events, rfl⟩
  | cons x xs ih =>
    rw [List.foldl_cons, updateExpiry_frame]
    exact ih

end UniDERP
