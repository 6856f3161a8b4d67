import UniDERP.Control.Resources

namespace UniDERP

/-- A tailnet's id at the API: `T` and letters and digits. -/
def canonicalTailnetID (value : String) : Option String :=
  let value := trimSpace value
  match value.toList with
  | 'T' :: rest =>
    if 3 ≤ value.utf8ByteSize ∧ value.utf8ByteSize ≤ 64 ∧ rest.all fun c =>
        ('0' ≤ c && c ≤ '9') || ('a' ≤ c && c ≤ 'z') || ('A' ≤ c && c ≤ 'Z')
    then some value else none
  | _ => none

def identityEvent (now : Int) (id : String) (kind : EventKind) (message : String) (db : DB) : DB :=
  match db.tailnets.get? id with
  | some tn =>
    if db.events.any fun e => e.resourceID = id ∧ e.kind = kind ∧ e.resolvedAt = 0 then db
    else db.addEvent {
      ownerID := tn.ownerID, resource := .tailnet, resourceID := id, kind := kind
      message := message, createdAt := unix now }
  | none => db

def updateConflict (conflicts : List String) (now : Int) (id : String) (snap : Snapshot)
    (db : DB) : DB :=
  if snap.keys.any fun k => k.nodePublic ∈ conflicts then
    identityEvent now id .identityConflict "conflicting identity keys are blocked" db
  else
    db.resolveEvents (unix now) fun e => e.resourceID = id ∧ e.kind = .identityConflict

/-- `now` gives the reading taken for each tailnet in turn. -/
def updateIdentityConflicts (now : ℕ → Int) (db : DB) : DB :=
  let conflicts := conflictingKeys db.snapshots.rows
  db.snapshots.rows.zipIdx.foldl
    (fun acc x => updateConflict conflicts (now x.2) x.1.1 x.1.2 acc) db

/-- Replace a tailnet's device list; the readings are those from `i` on. -/
def publishIdentity (E : Env) (c : Clock) (i : ℕ) (id : String) (keys : List IdentityKey)
    (db : DB) : Except Err DB := do
  require (keys.all fun k => validTime k.notAfter) .marshal
  let old := db.snapshots.get? id
  require ((old.map (·.lastSuccess)).getD 0 ≤ unix (c.read i)) .conflict
  let db : DB := { db with
    snapshots := db.snapshots.insert id
      ⟨(old.map (·.revision)).getD 0 + 1, unix (c.read (i + 1)), keys⟩ }
  let db := db.resolveEvents (unix (c.read (i + 2))) fun e =>
    e.resourceID = id ∧ e.kind = .identityUnavailable
  let db := updateIdentityConflicts (fun j => c.read (i + 4 + j)) db
  rebuildPolicies E (c.read (i + 3)) db

/-- The transaction of `AddTailnet`, after the fetch that returned `keys`. -/
def addTailnet (E : Env) (c : Clock) (actor : Actor) (name apiID : String) (id : Token)
    (encrypted : Bytes) (keys : List IdentityKey) (db : DB) : Except Err DB := do
  requireOwner actor actor.id
  let apiID ← orElse (canonicalTailnetID apiID) .invalid
  require (trimSpace name ≠ "" ∧ name.utf8ByteSize ≤ 160) .invalid
  activeActor actor db
  require (db.tailnets.get? id.text = none ∧ db.tailnets.any (fun _ t => t.apiID = apiID) = false ∧
    db.users.get? actor.id ≠ none) .conflict
  require (db.credentials.get? id.text = none) .constraint
  publishIdentity E c 1 id.text keys { db with
    tailnets := db.tailnets.insert id.text
      { ownerID := actor.id, displayName := name, apiID := apiID }
    credentials := db.credentials.insert id.text
      { encrypted := encrypted, status := .valid, updatedAt := unix (c.read 0) } }

def DB.credentialRevision (db : DB) (id : String) : ℕ :=
  ((db.credentials.get? id).map (·.revision)).getD 0

/-- The tailnet whose device list `ReplaceCredential` is about to fetch. -/
def replaceRead (actor : Actor) (id : String) (db : DB) : Except Err Tailnet := do
  let tn ← orElse (db.tailnets.get? id) .noRows
  requireOwner actor tn.ownerID
  pure tn

/-- The transaction of `ReplaceCredential`, whose fetch followed a read of `revision`. -/
def replaceCommit (E : Env) (c : Clock) (actor : Actor) (id : String) (revision : ℕ)
    (encrypted : Bytes) (keys : List IdentityKey) (db : DB) : Except Err DB := do
  let _ ← tailnetOwner actor id db
  require (db.credentialRevision id = revision) .conflict
  publishIdentity E c 1 id keys { db with
    credentials := db.credentials.insert id
      { encrypted := encrypted, status := .valid, updatedAt := unix (c.read 0)
        revision := revision + 1 } }

def deleteCredential (E : Env) (c : Clock) (actor : Actor) (id : String) (db : DB) :
    Except Err DB := do
  let _ ← tailnetOwner actor id db
  let db := { db with
    credentials := db.credentials.modify id fun cr =>
      { cr with
        encrypted := [], status := .missing, error := "", revision := cr.revision + 1
        refreshSeq := 0, updatedAt := unix (c.read 0) }
    snapshots := db.snapshots.modify id fun s => { s with keys := [], revision := s.revision + 1 } }
  rebuildPolicies E (c.read 1) (updateIdentityConflicts (fun j => c.read (2 + j)) db)

structure RefreshTicket where
  apiID : String
  encrypted : Bytes
  revision : ℕ
  seq : ℕ
  deriving DecidableEq, Repr

/-- The first transaction of `RefreshIdentity`. -/
def refreshBegin (id : String) (db : DB) : Except Err (DB × RefreshTicket) := do
  let cr ← orElse (db.credentials.get? id) .noRows
  let tn ← orElse (db.tailnets.get? id) .noRows
  require (tn.enabled ∧ db.userEnabled tn.ownerID ∧ cr.status ≠ .missing) .noRows
  pure ({ db with
    credentials := db.credentials.insert id { cr with refreshSeq := cr.refreshSeq + 1 } },
    ⟨tn.apiID, cr.encrypted, cr.revision, cr.refreshSeq + 1⟩)

/-- The second transaction of `RefreshIdentity`; `none` if the fetch failed. -/
def refreshCommit (E : Env) (c : Clock) (id : String) (ticket : RefreshTicket)
    (fetched : Option (List IdentityKey)) (db : DB) : Except Err DB := do
  let cr ← orElse (db.credentials.get? id) .noRows
  require (cr.revision = ticket.revision ∧ cr.refreshSeq = ticket.seq) .conflict
  match fetched with
  | none =>
    pure (identityEvent (c.read 0) id .identityUnavailable
      "identity source unavailable; cached identity retains its original deadline" { db with
        credentials := db.credentials.insert id
          { cr with status := .unavailable, error := "identity source unavailable" } })
  | some keys =>
    publishIdentity E c 0 id keys { db with
      credentials := db.credentials.insert id { cr with status := .valid, error := "" } }

theorem identityEvent_frame (now : Int) (id : String) (kind : EventKind) (message : String)
    (db : DB) : identityEvent now id kind message db =
      { db with events := (identityEvent now id kind message db).events } := by
  unfold identityEvent
  cases db.tailnets.get? id with
  | none => rfl
  | some tn =>
    dsimp only
    split_ifs <;> rfl

theorem updateConflict_frame (conflicts : List String) (now : Int) (id : String) (snap : Snapshot)
    (db : DB) : updateConflict conflicts now id snap db =
      { db with events := (updateConflict conflicts now id snap db).events } := by
  unfold updateConflict
  split_ifs
  · exact identityEvent_frame _ _ _ _ _
  · rfl

theorem updateIdentityConflicts_frame (now : ℕ → Int) (db : DB) :
    ∃ events, updateIdentityConflicts now db = { db with events := events } := by
  unfold updateIdentityConflicts
  generalize conflictingKeys db.snapshots.rows = conflicts
  generalize db.snapshots.rows.zipIdx = xs
  induction xs generalizing db with
  | nil => exact ⟨db.events, rfl⟩
  | cons x xs ih =>
    rw [List.foldl_cons, updateConflict_frame]
    exact ih _

theorem publishIdentity_ok {E : Env} {c : Clock} {i : ℕ} {id : String} {keys : List IdentityKey}
    {db db' : DB} (h : publishIdentity E c i id keys db = .ok db') :
    ∃ events, Rebuilt E (c.read (i + 3)) (fun _ => True) { db with
      snapshots := db.snapshots.insert id ⟨((db.snapshots.get? id).map (·.revision)).getD 0 + 1,
        unix (c.read (i + 1)), keys⟩
      events := events } db' := by
  simp only [publishIdentity, Except_bind_eq_ok, require_eq_ok, exists_const] at h
  obtain ⟨-, -, h⟩ := h
  obtain ⟨events, he⟩ := updateIdentityConflicts_frame (fun j => c.read (i + 4 + j))
    (DB.resolveEvents { db with
      snapshots := db.snapshots.insert id ⟨((db.snapshots.get? id).map (·.revision)).getD 0 + 1,
        unix (c.read (i + 1)), keys⟩ } (unix (c.read (i + 2)))
      fun e => e.resourceID = id ∧ e.kind = .identityUnavailable)
  rw [he] at h
  exact ⟨events, rebuildPolicies_rebuilt h⟩

end UniDERP
