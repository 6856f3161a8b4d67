import UniDERP.Control.Build

namespace UniDERP

def validNodeInstance (instance_ : String) : Bool :=
  0 < instance_.utf8ByteSize && instance_.utf8ByteSize ≤ 128 && instance_.toList.all fun c =>
    ('a' ≤ c && c ≤ 'z') || ('A' ≤ c && c ≤ 'Z') || ('0' ≤ c && c ≤ '9') || c = '-' || c = '_'

def validPort (port : ℕ) : Bool := 1 ≤ port && port ≤ 65535

/-- The session row that `nodeSession` selects for a token at the reading `now`. -/
def DB.liveSession (db : DB) (E : Env) (now : Int) (token : String) :
    Option (NodeSessionRow × Node) := do
  let s ← db.nodeSessions.get? (E.tokenHash token)
  let n ← db.nodes.get? s.nodeID
  guard (unix now < s.expiresAt ∧ s.instanceID = n.instanceID ∧ n.state.serving ∧
    db.userEnabled n.ownerID)
  pure (s, n)

def nodeSession (E : Env) (now : Int) (token : String) (db : DB) : Except Err NodeSession := do
  require (validToken token) .unauthorized
  let (s, n) ← orElse (db.liveSession E now token) .unauthorized
  pure ⟨E.clusterID, s.nodeID, n.instanceID, "", ofUnix s.expiresAt, ofUnix n.leaseUntil⟩

def mintNodeSession (E : Env) (now now' : Int) (id instance_ : String) (token : Token) (db : DB) :
    Except Err (DB × NodeSession) := do
  let session : NodeSession := ⟨E.clusterID, id, instance_, token.text,
    truncate (now + 3600 * second), truncate (now' + 90 * second)⟩
  let sessions := db.nodeSessions.delete fun _ s => s.nodeID = id
  require (sessions.get? (E.tokenHash token.text) = none) .constraint
  pure ({ db with
    nodeSessions := sessions.insert (E.tokenHash token.text)
      ⟨id, instance_, unix session.expiresAt⟩ }, session)

structure IssuedCode where
  nodeID : String
  clusterID : String
  domain : String
  code : String
  expiresAt : Int
  deriving DecidableEq, Repr

def issueCode (E : Env) (now : Int) (id : String) (n : Node) (code : Token) (db : DB) :
    Except Err (DB × IssuedCode) := do
  let expiresAt := truncate (now + 1800 * second)
  require (db.enrollments.any
    (fun k e => k ≠ id ∧ e.codeHash = E.tokenHash code.text) = false) .constraint
  pure ({ db with
    enrollments := db.enrollments.insert id
      { ownerID := n.ownerID, codeHash := E.tokenHash code.text, expiresAt := unix expiresAt }
    challenges := db.challenges.delete fun _ ch => ch.nodeID = id },
    ⟨id, E.clusterID, n.domain, code.text, expiresAt⟩)

def freeRegion (db : DB) : Option ℕ :=
  (List.range' 900 100).find? fun r => !db.nodes.any fun _ n => n.regionID = r

def createNode (E : Env) (c : Clock) (actor : Actor) (name domain : String) (derpPort stunPort : ℕ)
    (id code : Token) (db : DB) : Except Err (DB × IssuedCode) := do
  require (actor.role = .admin ∨ actor.role = .provider) .forbidden
  require (E.clusterID ≠ "" ∧ trimSpace name ≠ "" ∧ name.utf8ByteSize ≤ 160 ∧ validPort derpPort ∧
    validPort stunPort) .invalid
  let domain ← orElse (E.normalizeNodeDomain domain) (.input "invalid_hostname" "domain")
  activeActor actor db
  requireOwner actor actor.id
  let region ← orElse (freeRegion db) .conflict
  let n : Node := {
    ownerID := actor.id, domain := domain, derpPort := derpPort, stunPort := stunPort
    displayName := name, regionID := region }
  require (db.nodes.get? id.text = none ∧ db.nodes.any (fun _ m => m.domain = domain) = false ∧
    db.users.get? actor.id ≠ none) .conflict
  issueCode E (c.read 0) id.text n code { db with nodes := db.nodes.insert id.text n }

/-- Forget a node's registration: its grants end and its policy starts over. -/
def DB.release (db : DB) (id : String) : DB :=
  { db with
    nodeSessions := db.nodeSessions.delete fun _ s => s.nodeID = id
    challenges := db.challenges.delete fun _ ch => ch.nodeID = id
    enrollments := db.enrollments.erase id
    observations := db.observations.erase id
    nodes := db.nodes.modify id fun n =>
      { n with
        state := .pending, instanceID := "", leaseUntil := 0, domainVerifiedAt := 0
        lastHeartbeat := 0, lastError := "" }
    grants := db.grants.update (fun k g => (ofLex k).1 = id ∧ g.state ≠ .revoked) fun g =>
      { g with state := .revoked, revision := g.revision + 1, lastControlSuccess := 0 }
    policies := db.policies.modify id fun row =>
      { row with
        receivedRevision := 0, appliedRevision := 0, derperUsable := false, policyJSON := none } }

def releaseNode (E : Env) (now : Int) (id : String) (db : DB) : Except Err DB := do
  let db := db.release id
  if db.policies.get? id = none then pure db
  else do
    let (db, _) ← buildPolicy E id now db
    pure db

def issueEnrollment (E : Env) (c : Clock) (actor : Actor) (id : String) (code : Token) (db : DB) :
    Except Err (DB × IssuedCode) := do
  activeActor actor db
  let n ← orElse (db.nodes.get? id) .noRows
  requireOwner actor n.ownerID
  let db ← if n.state ≠ .pending then releaseNode E (c.read 0) id db else pure db
  issueCode E (c.read 1) id n code db

/-- `ReleaseNode`, by the node itself. -/
def leaveNode (E : Env) (c : Clock) (token : String) (db : DB) : Except Err DB := do
  let session ← nodeSession E (c.read 0) token db
  releaseNode E (c.read 1) session.nodeID db

/-- A node's challenges that can still be used, with those of the other nodes. -/
def DB.openChallenges (db : DB) (id : String) (now : Int) : Table String Challenge :=
  db.challenges.delete fun _ r => r.nodeID = id ∧ (r.expiresAt ≤ unix now ∨ r.usedAt ≠ 0)

def newNodeChallenge (E : Env) (now now' : Int) (purpose : Purpose) (id domain : String)
    (pub : Bytes) (instance_ : String) (nonce : Token) (db : DB) :
    Except Err (DB × NodeChallenge) := do
  let ch : NodeChallenge := {
    purpose := purpose, clusterID := E.clusterID, nodeID := id, domain := domain
    nonce := nonce.text, expiresAt := .utc (truncate (now + 120 * second)), publicKey := pub
    instanceID := instance_ }
  let challenges := db.openChallenges id now'
  require (challenges.count (fun _ r => r.nodeID = id) < 8) .conflict
  require (challenges.get? (E.tokenHash nonce.text) = none) .constraint
  pure ({ db with
    challenges := challenges.insert (E.tokenHash nonce.text)
      { nodeID := id, payload := ch, expiresAt := unix ch.expiresAt.time } }, ch)

def DB.enrollable (db : DB) (E : Env) (now : Int) (code : String) (pub : Bytes) :
    Option (String × Node) := do
  let (id, _) ← db.enrollments.find? fun id e =>
    e.codeHash = E.tokenHash code ∧ unix now < e.expiresAt ∧ e.consumedAt = 0 ∧
      (db.nodes.get? id).any fun n => e.ownerID = n.ownerID ∧ n.state = .pending ∧
        (n.publicKey = none ∨ n.publicKey = some pub) ∧ db.userEnabled n.ownerID
  let n ← db.nodes.get? id
  pure (id, n)

def enrollmentChallenge (E : Env) (c : Clock) (code : String) (pub : Bytes) (instance_ : String)
    (nonce : Token) (db : DB) : Except Err (DB × NodeChallenge) := do
  require (code.utf8ByteSize = 64 ∧ pub.length = 32 ∧ validNodeInstance instance_ ∧
    E.clusterID ≠ "") .invalid
  let (id, n) ← orElse (db.enrollable E (c.read 0) code pub) .unauthorized
  newNodeChallenge E (c.read 1) (c.read 2) .enroll id n.domain pub instance_ nonce db

def checkNodeChallenge (E : Env) (now now' : Int) (ch : NodeChallenge) (sig : Bytes)
    (purpose : Purpose) (db : DB) : Except Err Unit := do
  require (ch.clusterID = E.clusterID ∧ ch.purpose = purpose ∧ ch.publicKey.length = 32 ∧
    sig.length = 64 ∧ ch.nonce.utf8ByteSize = 64 ∧ now < ch.expiresAt.time) .unauthorized
  let row ← orElse (db.challenges.get? (E.tokenHash ch.nonce)) .unauthorized
  require (row.nodeID = ch.nodeID ∧ unix now' < row.expiresAt ∧ row.usedAt = 0) .unauthorized
  require (row.payload = ch ∧ E.verify ch.publicKey row.payload sig) .unauthorized

def sessionChallenge (E : Env) (c : Clock) (id instance_ : String) (nonce : Token) (db : DB) :
    Except Err (DB × NodeChallenge) := do
  require (validNodeInstance instance_ ∧ E.clusterID ≠ "") .invalid
  let n ← orElse (db.nodes.get? id) .unauthorized
  require ((n.state.serving ∨ n.state = .domainPending) ∧ db.userEnabled n.ownerID) .unauthorized
  let pub ← orElse n.publicKey .unauthorized
  require (pub.length = 32) .unauthorized
  newNodeChallenge E (c.read 0) (c.read 1)
    (if n.state = .domainPending then .domainChange else .session) id n.domain pub instance_ nonce db

/-- `UPDATE node_challenges SET used_at=?`. -/
def DB.useChallenge (db : DB) (E : Env) (now : Int) (nonce : String) : DB :=
  { db with
    challenges := db.challenges.modify (E.tokenHash nonce) fun r => { r with usedAt := unix now } }

/-- The answer that a consumed code has already given to this request. -/
def enrollmentReceipt (E : Env) (now now' : Int) (req : EnrollmentRequest) (db : DB) :
    Except Err (Option NodeSession) := do
  let e ← orElse (db.enrollments.get? req.challenge.nodeID) .unauthorized
  let n ← orElse (db.nodes.get? req.challenge.nodeID) .unauthorized
  require (e.ownerID = n.ownerID ∧ e.codeHash = E.tokenHash req.code ∧ unix now < e.expiresAt ∧
    db.userEnabled n.ownerID) .unauthorized
  if e.consumedAt = 0 then pure none
  else do
    require (e.requestHash = some (E.enrollmentDigest req)) .unauthorized
    let data ← orElse e.responseEncrypted .unauthorized
    let session ← orElse (E.openSession req.challenge.nodeID data) .unauthorized
    require (now' < session.expiresAt) .unauthorized
    pure (some session)

/-- The first transaction of `EnrollNode`: the answer, or leave to probe the domain. -/
def enrollCheck (E : Env) (c : Clock) (req : EnrollmentRequest) (db : DB) :
    Except Err (Option NodeSession) := do
  require (req.code.utf8ByteSize = 64) .invalid
  match ← enrollmentReceipt E (c.read 0) (c.read 1) req db with
  | some session => pure (some session)
  | none =>
    checkNodeChallenge E (c.read 2) (c.read 3) req.challenge req.signature .enroll db
    pure none

/-- Bind the node to the request and open its session. -/
def enrollNew (E : Env) (c : Clock) (req : EnrollmentRequest) (token : Token) (box : Bytes)
    (db : DB) : Except Err (DB × NodeSession) := do
  let ch := req.challenge
  checkNodeChallenge E (c.read 2) (c.read 3) ch req.signature .enroll db
  let n ← orElse (db.nodes.get? ch.nodeID) .unauthorized
  require (n.domain = ch.domain ∧ n.state = .pending ∧
    (n.publicKey = none ∨ n.publicKey = some ch.publicKey)) .unauthorized
  let db := { db with
    nodes := db.nodes.insert ch.nodeID { n with
      publicKey := some ch.publicKey, instanceID := ch.instanceID, state := .registered
      leaseUntil := unix (c.read 4 + 90 * second), domainVerifiedAt := unix (c.read 5) }
    policies := match db.policies.get? ch.nodeID with
      | some _ => db.policies
      | none => db.policies.insert ch.nodeID {} }
  let (db, _) ← buildPolicy E ch.nodeID (c.read 6) db
  let (db, session) ← mintNodeSession E (c.read 8) (c.read 9) ch.nodeID ch.instanceID token
    (db.useChallenge E (c.read 7) ch.nonce)
  pure ({ db with
    enrollments := db.enrollments.modify ch.nodeID fun e =>
      { e with
        consumedAt := unix (c.read 10), requestHash := some (E.enrollmentDigest req)
        responseEncrypted := some (E.sealSession ch.nodeID box session) } }, session)

/-- The second transaction of `EnrollNode`, after the domain was verified. -/
def enrollCommit (E : Env) (c : Clock) (req : EnrollmentRequest) (token : Token) (box : Bytes)
    (db : DB) : Except Err (DB × NodeSession) := do
  match ← enrollmentReceipt E (c.read 0) (c.read 1) req db with
  | some session => pure (db, session)
  | none => enrollNew E c req token box db

/-- The first transaction of a domain change, before the new domain is probed. -/
def renewCheck (E : Env) (c : Clock) (ch : NodeChallenge) (sig : Bytes) (db : DB) :
    Except Err Unit := do
  checkNodeChallenge E (c.read 0) (c.read 1) ch sig .domainChange db
  require ((db.nodes.get? ch.nodeID).any fun n => n.domain = ch.domain ∧
    n.publicKey = some ch.publicKey ∧ n.state = .domainPending ∧ db.userEnabled n.ownerID)
    .unauthorized

/-- A renewal's answer; the refusal of a second instance is committed like a session. -/
inductive Renewal
  | session (s : NodeSession)
  | identityConflict
  deriving DecidableEq, Repr

def renewable (purpose : Purpose) (state : NodeState) : Bool :=
  (purpose = .session && state.serving) || (purpose = .domainChange && state = .domainPending)

/-- Another instance asks while the lease is live: nobody is the node any more. -/
def refuseInstance (E : Env) (c : Clock) (ch : NodeChallenge) (n : Node) (db : DB) :
    Except Err DB := do
  let db := { db with
    nodes := db.nodes.insert ch.nodeID { n with
      state := .identityConflict, lastError := "node identity is active on another instance" }
    nodeSessions := db.nodeSessions.delete fun _ s => s.nodeID = ch.nodeID }
  let db := (db.useChallenge E (c.read 3) ch.nonce).addEvent {
    ownerID := n.ownerID, resource := .node, resourceID := ch.nodeID, kind := .identityConflict
    message := "Node identity was presented by another running instance."
    createdAt := unix (c.read 4) }
  let (db, _) ← buildPolicy E ch.nodeID (c.read 5) db
  pure db

/-- The transaction of `RenewNodeSession`, after the probe if the domain changes. -/
def renewNodeSession (E : Env) (c : Clock) (ch : NodeChallenge) (sig : Bytes) (token : Token)
    (db : DB) : Except Err (DB × Renewal) := do
  require (ch.purpose = .session ∨ ch.purpose = .domainChange) .unauthorized
  checkNodeChallenge E (c.read 0) (c.read 1) ch sig ch.purpose db
  let n ← orElse (db.nodes.get? ch.nodeID) .unauthorized
  require (n.domain = ch.domain ∧ renewable ch.purpose n.state ∧ db.userEnabled n.ownerID ∧
    n.publicKey = some ch.publicKey) .unauthorized
  if n.instanceID ≠ ch.instanceID ∧ unix (c.read 2) < n.leaseUntil then do
    let db ← refuseInstance E c ch n db
    pure (db, .identityConflict)
  else do
    let db := db.useChallenge E (c.read 3) ch.nonce
    let db := { db with
      nodes := db.nodes.insert ch.nodeID { n with
        instanceID := ch.instanceID, leaseUntil := unix (c.read 4 + 90 * second)
        state := if n.state = .domainPending then .registered else n.state
        domainVerifiedAt :=
          if ch.purpose = .domainChange then unix (c.read 5) else n.domainVerifiedAt } }
    let (db, session) ← mintNodeSession E (c.read 6) (c.read 7) ch.nodeID ch.instanceID token db
    pure (db, .session session)

def recoverNodeInstance (E : Env) (c : Clock) (actor : Actor) (id instance_ : String) (db : DB) :
    Except Err DB := do
  require (validNodeInstance instance_) .invalid
  activeActor actor db
  let n ← orElse (db.nodes.get? id) .noRows
  requireOwner actor n.ownerID
  require (n.state = .identityConflict) .conflict
  let db := { db with
    nodes := db.nodes.insert id { n with
      state := .registered, instanceID := instance_, lastError := ""
      leaseUntil := unix (c.read 0 + 90 * second) }
    nodeSessions := db.nodeSessions.delete fun _ s => s.nodeID = id
    challenges := db.challenges.delete fun _ ch => ch.nodeID = id }
  let db := db.resolveEvents (unix (c.read 1)) fun e =>
    e.resource = .node ∧ e.resourceID = id ∧ e.kind = .identityConflict
  let (db, _) ← buildPolicy E id (c.read 2) db
  pure db

structure Usable (E : Env) (now now' : Int) (ch : NodeChallenge) (sig : Bytes) (db : DB) : Prop where
  cluster : ch.clusterID = E.clusterID
  publicKey : ch.publicKey.length = 32
  unexpired : now < ch.expiresAt.time
  verified : E.verify ch.publicKey ch sig
  row : ∃ r, db.challenges.get? (E.tokenHash ch.nonce) = some r ∧ r.nodeID = ch.nodeID ∧
    r.payload = ch ∧ r.usedAt = 0 ∧ unix now' < r.expiresAt

def NodeChallenge.row (ch : NodeChallenge) : Challenge :=
  { nodeID := ch.nodeID, payload := ch, expiresAt := unix ch.expiresAt.time }

def DB.withSession (db : DB) (E : Env) (s : NodeSession) : Table String NodeSessionRow :=
  (db.nodeSessions.delete fun _ r => r.nodeID = s.nodeID).insert (E.tokenHash s.token)
    ⟨s.nodeID, s.instanceID, unix s.expiresAt⟩

theorem liveSession_eq_some {db : DB} {E : Env} {now : Int} {token : String} {s : NodeSessionRow}
    {n : Node} : db.liveSession E now token = some (s, n) ↔
      db.nodeSessions.get? (E.tokenHash token) = some s ∧ db.nodes.get? s.nodeID = some n ∧
      unix now < s.expiresAt ∧ s.instanceID = n.instanceID ∧ n.state.serving ∧
      db.userEnabled n.ownerID := by
  simp only [DB.liveSession, Option.bind_eq_bind, Option.bind_eq_some_iff, Option.guard_eq_some',
    Option.pure_def, Option.some.injEq, Prod.mk.injEq]
  constructor
  · rintro ⟨s, hs, n, hn, _, hg, rfl, rfl⟩
    exact ⟨hs, hn, hg⟩
  · rintro ⟨hs, hn, hg⟩
    exact ⟨s, hs, n, hn, (), hg, rfl, rfl⟩

theorem nodeSession_eq_ok {E : Env} {now : Int} {token : String} {db : DB} {r : NodeSession} :
    nodeSession E now token db = .ok r ↔ validToken token ∧
      ∃ s n, db.liveSession E now token = some (s, n) ∧
        r = ⟨E.clusterID, s.nodeID, n.instanceID, "", ofUnix s.expiresAt, ofUnix n.leaseUntil⟩ := by
  simp only [nodeSession, Except_bind_eq_ok, require_eq_ok, exists_const, orElse_eq_ok, Prod.exists,
    Except_pure_eq_ok]
  constructor
  · rintro ⟨ht, s, n, h, rfl⟩
    exact ⟨ht, s, n, h, rfl⟩
  · rintro ⟨ht, s, n, h, rfl⟩
    exact ⟨ht, s, n, h, rfl⟩

theorem checkNodeChallenge_eq_ok {E : Env} {now now' : Int} {ch : NodeChallenge} {sig : Bytes}
    {purpose : Purpose} {db : DB} {u : Unit} :
    checkNodeChallenge E now now' ch sig purpose db = .ok u ↔ ch.purpose = purpose ∧
      sig.length = 64 ∧ ch.nonce.utf8ByteSize = 64 ∧ Usable E now now' ch sig db := by
  simp only [checkNodeChallenge, Except_bind_eq_ok, require_eq_ok, exists_const, orElse_eq_ok]
  constructor
  · rintro ⟨⟨hc, hp, hk, hs, hn, ht⟩, r, hr, ⟨hid, he, hu⟩, rfl, hv⟩
    exact ⟨hp, hs, hn, hc, hk, ht, hv, r, hr, hid, rfl, hu, he⟩
  · rintro ⟨hp, hs, hn, hc, hk, ht, hv, r, hr, hid, rfl, hu, he⟩
    exact ⟨⟨hc, hp, hk, hs, hn, ht⟩, r, hr, ⟨hid, he, hu⟩, rfl, hv⟩

theorem mintNodeSession_eq_ok {E : Env} {now now' : Int} {id instance_ : String} {token : Token}
    {db db' : DB} {s : NodeSession} :
    mintNodeSession E now now' id instance_ token db = .ok (db', s) ↔
      (db.nodeSessions.delete fun _ r => r.nodeID = id).get? (E.tokenHash token.text) = none ∧
      s = ⟨E.clusterID, id, instance_, token.text, truncate (now + 3600 * second),
        truncate (now' + 90 * second)⟩ ∧
      db' = { db with nodeSessions := db.withSession E s } := by
  simp only [mintNodeSession, Except_bind_eq_ok, require_eq_ok, exists_const, Except_pure_eq_ok,
    Prod.mk.injEq]
  constructor
  · rintro ⟨hf, rfl, rfl⟩
    exact ⟨hf, rfl, rfl⟩
  · rintro ⟨hf, rfl, rfl⟩
    exact ⟨hf, rfl, rfl⟩

theorem issueCode_eq_ok {E : Env} {now : Int} {id : String} {n : Node} {code : Token}
    {db db' : DB} {r : IssuedCode} :
    issueCode E now id n code db = .ok (db', r) ↔
      (∀ k e, k ≠ id → db.enrollments.get? k = some e → e.codeHash ≠ E.tokenHash code.text) ∧
      r = ⟨id, E.clusterID, n.domain, code.text, truncate (now + 1800 * second)⟩ ∧
      db' = { db with
        enrollments := db.enrollments.insert id
          { ownerID := n.ownerID, codeHash := E.tokenHash code.text
            expiresAt := unix (truncate (now + 1800 * second)) }
        challenges := db.challenges.delete fun _ ch => ch.nodeID = id } := by
  simp only [issueCode, Except_bind_eq_ok, require_eq_ok, exists_const, Except_pure_eq_ok,
    Prod.mk.injEq, Table.any_eq_false, decide_eq_false_iff_not, not_and]
  constructor
  · rintro ⟨hu, rfl, rfl⟩
    exact ⟨fun k e hk he => hu k e he hk, rfl, rfl⟩
  · rintro ⟨hu, rfl, rfl⟩
    exact ⟨fun k e he hk => hu k e hk he, rfl, rfl⟩

theorem newNodeChallenge_eq_ok {E : Env} {now now' : Int} {purpose : Purpose} {id domain : String}
    {pub : Bytes} {instance_ : String} {nonce : Token} {db db' : DB} {ch : NodeChallenge} :
    newNodeChallenge E now now' purpose id domain pub instance_ nonce db = .ok (db', ch) ↔
      (db.openChallenges id now').count (fun _ r => r.nodeID = id) < 8 ∧
      (db.openChallenges id now').get? (E.tokenHash nonce.text) = none ∧
      ch = ⟨purpose, E.clusterID, id, domain, nonce.text, .utc (truncate (now + 120 * second)), pub,
        instance_⟩ ∧
      db' = { db with
        challenges := (db.openChallenges id now').insert (E.tokenHash nonce.text) ch.row } := by
  simp only [newNodeChallenge, Except_bind_eq_ok, require_eq_ok, exists_const, Except_pure_eq_ok,
    Prod.mk.injEq]
  constructor
  · rintro ⟨hcount, hf, rfl, rfl⟩
    exact ⟨hcount, hf, rfl, rfl⟩
  · rintro ⟨hcount, hf, rfl, rfl⟩
    exact ⟨hcount, hf, rfl, rfl⟩

end UniDERP
