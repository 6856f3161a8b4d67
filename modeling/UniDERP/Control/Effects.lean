import UniDERP.Control.Ops

namespace UniDERP

def nobody : String → Prop := fun _ => False

def everybody : String → Prop := fun _ => True

def Op.repeatable : Op → Bool
  | .setUserRole .. | .setNodePorts .. | .setNodeSessionPorts .. | .changeNodeDomain ..
  | .requestGrant .. | .applyGrantAction .. => true
  | _ => false

def Op.login : Op → Bool
  | .insertSession .. | .logout .. => true
  | _ => false

def Op.portChange : Op → Bool
  | .setNodePorts .. | .setNodeSessionPorts .. => true
  | _ => false

theorem Op.repeatable_of_portChange {op : Op} (h : op.portChange) : op.repeatable := by
  cases op <;> simp_all [Op.portChange, Op.repeatable]

def Reissues (E : Env) (c : Clock) (db : DB) (op : Op) (id : String) : Prop :=
  (∃ actor code, op = .issueEnrollment actor id code) ∨
    ∃ token s n, op = .leaveNode token ∧ db.liveSession E (c.read 0) token = some (s, n) ∧
      s.nodeID = id

def Op.creates (id : String) : Op → Bool
  | .createNode _ _ _ _ _ token _ => token.text = id
  | _ => false

/-- The edit of one committed transaction, and the nodes whose policies it then builds. -/
inductive Effect (E : Env) (c : Clock) (db : DB) : Op → Reply → DB → (String → Prop) → Prop
  /-- A repeated or vacuous call. -/
  | idle {op : Op} {reply : Reply} (repeatable : op.repeatable)
      (noSession : ∀ s, reply ≠ .session s) :
      Effect E c db op reply db nobody
  | initializeAdmin {username password : String} {id : Token} {hash : String}
      (fresh : db.users.get? id.text = none) :
      Effect E c db (.initializeAdmin username password id hash) .done
        { db with users := db.users.insert id.text ⟨username, .admin, true, hash, 1⟩ } nobody
  | createAccount {actor : Actor} {username password : String} {role : Role} {id : Token}
      {hash : String} (fresh : db.users.get? id.text = none) :
      Effect E c db (.createAccount actor username password role id hash) .done
        { db with users := db.users.insert id.text ⟨username, role, true, hash, 1⟩ } nobody
  | setUserRole {actor : Actor} {userID : String} {role : Role} :
      Effect E c db (.setUserRole actor userID role) .done
        (db.changeUser userID fun u => { u with role := role }) nobody
  | changePassword {actor : Actor} {userID password hash : String} :
      Effect E c db (.changePassword actor userID password hash) .done
        (db.changeUser userID fun u => { u with passwordHash := hash }) nobody
  | setUserEnabled {actor : Actor} {userID : String} {enabled : Bool} :
      Effect E c db (.setUserEnabled actor userID enabled) .done
        (db.changeUser userID fun u => { u with enabled := enabled }) everybody
  | sessions {op : Op} (login : op.login) (sessions : Table String Session) :
      Effect E c db op .done { db with sessions := sessions } nobody
  | setRetentions {actor : Actor} {r : Retentions} (valid : validRetentions r) :
      Effect E c db (.setRetentions actor r) .done { db with retentions := r } everybody
  | createNode {actor : Actor} {name domain : String} {derpPort stunPort : ℕ} {id code : Token}
      {reply : IssuedCode} (n : Node) (fresh : db.nodes.get? id.text = none)
      (pending : n.state = .pending) (key : n.publicKey = none)
      (owner : ∃ u, db.users.get? n.ownerID = some u)
      (unique : ∀ k e, k ≠ id.text → db.enrollments.get? k = some e →
        e.codeHash ≠ E.tokenHash code.text) :
      Effect E c db (.createNode actor name domain derpPort stunPort id code) (.code reply)
        { db with
          nodes := db.nodes.insert id.text n
          enrollments := db.enrollments.insert id.text
            { ownerID := n.ownerID, codeHash := E.tokenHash code.text
              expiresAt := unix (truncate (c.read 0 + 1800 * second)) }
          challenges := db.challenges.delete fun _ ch => ch.nodeID = id.text } nobody
  | issueEnrollment {actor : Actor} {id : String} {code : Token} {reply : IssuedCode} {n : Node}
      (node : db.nodes.get? id = some n) (pending : n.state = .pending)
      (active : Active actor db) (owner : Permitted actor n.ownerID)
      (unique : ∀ k e, k ≠ id → db.enrollments.get? k = some e →
        e.codeHash ≠ E.tokenHash code.text) :
      Effect E c db (.issueEnrollment actor id code) (.code reply)
        { db with
          enrollments := db.enrollments.insert id
            { ownerID := n.ownerID, codeHash := E.tokenHash code.text
              expiresAt := unix (truncate (c.read 1 + 1800 * second)) }
          challenges := db.challenges.delete fun _ ch => ch.nodeID = id } nobody
  | reissueEnrollment {actor : Actor} {id : String} {code : Token} {reply : IssuedCode} {n : Node}
      (node : db.nodes.get? id = some n) (registered : n.state ≠ .pending)
      (active : Active actor db) (owner : Permitted actor n.ownerID)
      (unique : ∀ k e, k ≠ id → db.enrollments.get? k = some e →
        e.codeHash ≠ E.tokenHash code.text) :
      Effect E c db (.issueEnrollment actor id code) (.code reply)
        { db.release id with
          enrollments := (db.release id).enrollments.insert id
            { ownerID := n.ownerID, codeHash := E.tokenHash code.text
              expiresAt := unix (truncate (c.read 1 + 1800 * second)) }
          challenges := (db.release id).challenges.delete fun _ ch => ch.nodeID = id } (· = id)
  | leaveNode {token : String} {s : NodeSessionRow} {n : Node}
      (session : db.liveSession E (c.read 0) token = some (s, n)) :
      Effect E c db (.leaveNode token) .done (db.release s.nodeID) (· = s.nodeID)
  | enrollmentChallenge {code : String} {pub : Bytes} {instance_ : String} {nonce : Token}
      {ch : NodeChallenge} {n : Node} (node : db.nodes.get? ch.nodeID = some n)
      (domain : ch.domain = n.domain) (key : ch.publicKey = pub)
      (instance_eq : ch.instanceID = instance_) (nonce_eq : ch.nonce = nonce.text)
      (purpose : ch.purpose = .enroll)
      (fresh : (db.openChallenges ch.nodeID (c.read 2)).get? (E.tokenHash ch.nonce) = none) :
      Effect E c db (.enrollmentChallenge code pub instance_ nonce) (.challenge ch)
        { db with
          challenges := (db.openChallenges ch.nodeID (c.read 2)).insert (E.tokenHash ch.nonce)
            ch.row } nobody
  | sessionChallenge {id instance_ : String} {nonce : Token} {ch : NodeChallenge} {n : Node}
      (node : db.nodes.get? ch.nodeID = some n) (domain : ch.domain = n.domain)
      (nonce_eq : ch.nonce = nonce.text)
      (purpose : ch.purpose = if n.state = .domainPending then .domainChange else .session)
      (fresh : (db.openChallenges ch.nodeID (c.read 1)).get? (E.tokenHash ch.nonce) = none) :
      Effect E c db (.sessionChallenge id instance_ nonce) (.challenge ch)
        { db with
          challenges := (db.openChallenges ch.nodeID (c.read 1)).insert (E.tokenHash ch.nonce)
            ch.row } nobody
  | receipt {req : EnrollmentRequest} {token : Token} {box : Bytes} {s : NodeSession}
      (receipt : enrollmentReceipt E (c.read 0) (c.read 1) req db = .ok (some s)) :
      Effect E c db (.enrollCommit req token box) (.session s) db nobody
  | enroll {req : EnrollmentRequest} {token : Token} {box : Bytes} {s : NodeSession} {n : Node}
      {e : Enrollment} (node : db.nodes.get? req.challenge.nodeID = some n)
      (domain : n.domain = req.challenge.domain) (pending : n.state = .pending)
      (key : n.publicKey = none ∨ n.publicKey = some req.challenge.publicKey)
      (enrollment : db.enrollments.get? req.challenge.nodeID = some e)
      (code : e.codeHash = E.tokenHash req.code) (unused : e.consumedAt = 0)
      (unexpired : unix (c.read 0) < e.expiresAt)
      (usable : Usable E (c.read 2) (c.read 3) req.challenge req.signature db)
      (purpose : req.challenge.purpose = .enroll)
      (minted : s = ⟨E.clusterID, req.challenge.nodeID, req.challenge.instanceID, token.text,
        truncate (c.read 8 + 3600 * second), truncate (c.read 9 + 90 * second)⟩)
      (fresh : (db.nodeSessions.delete fun _ r => r.nodeID = s.nodeID).get?
        (E.tokenHash token.text) = none)
      (owner : e.ownerID = n.ownerID ∧ db.userEnabled n.ownerID) :
      Effect E c db (.enrollCommit req token box) (.session s)
        { db with
          nodes := db.nodes.insert req.challenge.nodeID { n with
            publicKey := some req.challenge.publicKey, instanceID := req.challenge.instanceID
            state := .registered, leaseUntil := unix (c.read 4 + 90 * second)
            domainVerifiedAt := unix (c.read 5) }
          policies := match db.policies.get? req.challenge.nodeID with
            | some _ => db.policies
            | none => db.policies.insert req.challenge.nodeID {}
          challenges := db.challenges.modify (E.tokenHash req.challenge.nonce) fun r =>
            { r with usedAt := unix (c.read 7) }
          nodeSessions := db.withSession E s
          enrollments := db.enrollments.modify req.challenge.nodeID fun e =>
            { e with
              consumedAt := unix (c.read 10), requestHash := some (E.enrollmentDigest req)
              responseEncrypted := some (E.sealSession req.challenge.nodeID box s) } }
        (· = req.challenge.nodeID)
  | renew {ch : NodeChallenge} {sig : Bytes} {token : Token} {s : NodeSession} {n : Node}
      (node : db.nodes.get? ch.nodeID = some n) (domain : n.domain = ch.domain)
      (state : renewable ch.purpose n.state) (owner : db.userEnabled n.ownerID)
      (key : n.publicKey = some ch.publicKey)
      (lease : n.instanceID = ch.instanceID ∨ n.leaseUntil ≤ unix (c.read 2))
      (usable : Usable E (c.read 0) (c.read 1) ch sig db)
      (minted : s = ⟨E.clusterID, ch.nodeID, ch.instanceID, token.text,
        truncate (c.read 6 + 3600 * second), truncate (c.read 7 + 90 * second)⟩)
      (fresh : (db.nodeSessions.delete fun _ r => r.nodeID = s.nodeID).get?
        (E.tokenHash token.text) = none) :
      Effect E c db (.renewNodeSession ch sig token) (.renewal (.session s))
        { db with
          nodes := db.nodes.insert ch.nodeID { n with
            instanceID := ch.instanceID, leaseUntil := unix (c.read 4 + 90 * second)
            state := if n.state = .domainPending then .registered else n.state
            domainVerifiedAt :=
              if ch.purpose = .domainChange then unix (c.read 5) else n.domainVerifiedAt }
          challenges := db.challenges.modify (E.tokenHash ch.nonce) fun r =>
            { r with usedAt := unix (c.read 3) }
          nodeSessions := db.withSession E s } nobody
  | refuse {ch : NodeChallenge} {sig : Bytes} {token : Token} {n : Node} (events : List Event)
      (node : db.nodes.get? ch.nodeID = some n) (domain : n.domain = ch.domain)
      (state : renewable ch.purpose n.state) (owner : db.userEnabled n.ownerID)
      (key : n.publicKey = some ch.publicKey)
      (lease : n.instanceID ≠ ch.instanceID ∧ unix (c.read 2) < n.leaseUntil)
      (usable : Usable E (c.read 0) (c.read 1) ch sig db)
      (stored : ∃ row, db.policies.get? ch.nodeID = some row) :
      Effect E c db (.renewNodeSession ch sig token) (.renewal .identityConflict)
        { db with
          nodes := db.nodes.insert ch.nodeID { n with
            state := .identityConflict
            lastError := "node identity is active on another instance" }
          nodeSessions := db.nodeSessions.delete fun _ s => s.nodeID = ch.nodeID
          challenges := db.challenges.modify (E.tokenHash ch.nonce) fun r =>
            { r with usedAt := unix (c.read 3) }
          events := events } (· = ch.nodeID)
  | recover {actor : Actor} {id instance_ : String} {n : Node} (events : List Event)
      (node : db.nodes.get? id = some n) (active : Active actor db)
      (owner : Permitted actor n.ownerID) (conflict : n.state = .identityConflict) :
      Effect E c db (.recoverNodeInstance actor id instance_) .done
        { db with
          nodes := db.nodes.insert id { n with
            state := .registered, instanceID := instance_, lastError := ""
            leaseUntil := unix (c.read 0 + 90 * second) }
          nodeSessions := db.nodeSessions.delete fun _ s => s.nodeID = id
          challenges := db.challenges.delete fun _ ch => ch.nodeID = id
          events := events } (· = id)
  | ports {op : Op} {id : String} {n : Node} {derpPort stunPort : ℕ} (portChange : op.portChange)
      (node : db.nodes.get? id = some n) :
      Effect E c db op .done
        { db with
          nodes := db.nodes.insert id { n with derpPort := derpPort, stunPort := stunPort }
          observations := db.observations.modify id fun o => { o with probesJSON := none } } nobody
  | setNodeEnabled {actor : Actor} {id : String} {enabled : Bool} {n : Node}
      (node : db.nodes.get? id = some n) (active : Active actor db)
      (owner : Permitted actor n.ownerID) (state : ¬ (enabled ∧ n.state = .domainPending)) :
      Effect E c db (.setNodeEnabled actor id enabled) .done
        { db with nodes := db.nodes.insert id { n with enabled := enabled } }
        (fun k => k = id ∧ n.state ≠ .pending)
  | deleteNode {actor : Actor} {id : String} {connected : Bool} {n : Node}
      (node : db.nodes.get? id = some n) :
      Effect E c db (.deleteNode actor id connected) .done (db.deleteNode id) nobody
  | changeNodeDomain {actor : Actor} {id domain normal : String} {connected : Bool} {n : Node}
      {row : PolicyRow} (normalized : E.normalizeNodeDomain domain = some normal)
      (node : db.nodes.get? id = some n) (disabled : n.enabled = false)
      (state : n.state.serving ∨ n.state = .domainPending)
      (unique : ∀ k m, db.nodes.get? k = some m → m.domain = normal → k = id)
      (stored : db.policies.get? id = some row) (settled : settled connected row) :
      Effect E c db (.changeNodeDomain actor id domain connected) .done
        { db with
          nodes := db.nodes.insert id { n with
            domain := normal, state := .domainPending, domainVerifiedAt := 0, lastError := "" }
          nodeSessions := db.nodeSessions.delete fun _ s => s.nodeID = id
          challenges := db.challenges.delete fun _ ch => ch.nodeID = id
          enrollments := db.enrollments.erase id
          observations := db.observations.erase id } nobody
  | saveProbes {actor : Actor} {id domain : String} {derpPort stunPort : ℕ} {probes : NodeProbes}
      (observations : Table String Observation) :
      Effect E c db (.saveProbes actor id domain derpPort stunPort probes) .done
        { db with observations := observations } nobody
  | setNodeQoS {actor : Actor} {node : String} {q : QoSPolicy} (rules : Table Pair Rule)
      (others : ∀ k, (ofLex k).1 ≠ node → rules.get? k = db.rules.get? k)
      (own : ∀ tailnet rule, rules.get? (pair node tailnet) = some rule → ∃ n tn,
        db.nodes.get? node = some n ∧ db.tailnets.get? tailnet = some tn ∧
        (rule.group = .owner → tn.ownerID = n.ownerID)) :
      Effect E c db (.setNodeQoS actor node q) .done
        { db with
          policies := db.policies.modify node fun row =>
            { row with
              budgetBPS := q.budgetBPS, ownerWeight := q.ownerWeight
              sharedWeight := q.sharedWeight, sharedMaxBPS := q.sharedMaxBPS }
          rules := rules } (· = node)
  | setTailnetEnabled {actor : Actor} {id : String} {enabled : Bool} :
      Effect E c db (.setTailnetEnabled actor id enabled) .done
        { db with tailnets := db.tailnets.modify id fun tn => { tn with enabled := enabled } }
        everybody
  | deleteTailnet {actor : Actor} {id : String} :
      Effect E c db (.deleteTailnet actor id) .done (db.deleteTailnet id) everybody
  | transferTailnet {actor : Actor} {id newOwner : String} (owner : db.userEnabled newOwner) :
      Effect E c db (.transferTailnet actor id newOwner) .done
        { db with
          tailnets := db.tailnets.modify id fun tn => { tn with ownerID := newOwner }
          rules := db.rules.update (fun k r => (ofLex k).2 = id ∧ r.group = .owner ∧
            (db.nodes.get? (ofLex k).1).any fun n => n.ownerID ≠ newOwner) fun r =>
              { r with group := .shared } } everybody
  | addTailnet {actor : Actor} {name apiID : String} {id : Token} {encrypted : Bytes}
      {keys : List IdentityKey} (tn : Tailnet) (events : List Event) (lastSuccess : Int)
      (fresh : db.tailnets.get? id.text = none) (freshCredential : db.credentials.get? id.text = none)
      (owner : ∃ u, db.users.get? tn.ownerID = some u) :
      Effect E c db (.addTailnet actor name apiID id encrypted keys) .done
        { db with
          tailnets := db.tailnets.insert id.text tn
          credentials := db.credentials.insert id.text
            { encrypted := encrypted, status := .valid, updatedAt := unix (c.read 0) }
          snapshots := db.snapshots.insert id.text
            ⟨((db.snapshots.get? id.text).map (·.revision)).getD 0 + 1, lastSuccess, keys⟩
          events := events } everybody
  | replaceCommit {actor : Actor} {id : String} {revision : ℕ} {encrypted : Bytes}
      {keys : List IdentityKey} {tn : Tailnet} (events : List Event) (lastSuccess : Int)
      (tailnet : db.tailnets.get? id = some tn) (current : db.credentialRevision id = revision) :
      Effect E c db (.replaceCommit actor id revision encrypted keys) .done
        { db with
          credentials := db.credentials.insert id
            { encrypted := encrypted, status := .valid, updatedAt := unix (c.read 0)
              revision := revision + 1 }
          snapshots := db.snapshots.insert id
            ⟨((db.snapshots.get? id).map (·.revision)).getD 0 + 1, lastSuccess, keys⟩
          events := events } everybody
  | deleteCredential {actor : Actor} {id : String} {tn : Tailnet} (events : List Event)
      (tailnet : db.tailnets.get? id = some tn) :
      Effect E c db (.deleteCredential actor id) .done
        { db with
          credentials := db.credentials.modify id fun cr =>
            { cr with
              encrypted := [], status := .missing, error := "", revision := cr.revision + 1
              refreshSeq := 0, updatedAt := unix (c.read 0) }
          snapshots := db.snapshots.modify id fun s =>
            { s with keys := [], revision := s.revision + 1 }
          events := events } everybody
  | refreshBegin {id : String} {cr : Credential} {tn : Tailnet}
      (credential : db.credentials.get? id = some cr) (tailnet : db.tailnets.get? id = some tn)
      (status : cr.status ≠ .missing) :
      Effect E c db (.refreshBegin id)
        (.ticket ⟨tn.apiID, cr.encrypted, cr.revision, cr.refreshSeq + 1⟩)
        { db with
          credentials := db.credentials.insert id { cr with refreshSeq := cr.refreshSeq + 1 } } nobody
  | refreshFailed {id : String} {ticket : RefreshTicket} {cr : Credential} (events : List Event)
      (credential : db.credentials.get? id = some cr)
      (current : cr.revision = ticket.revision ∧ cr.refreshSeq = ticket.seq) :
      Effect E c db (.refreshCommit id ticket none) .done
        { db with
          credentials := db.credentials.insert id
            { cr with status := .unavailable, error := "identity source unavailable" }
          events := events } nobody
  | refreshCommit {id : String} {ticket : RefreshTicket} {keys : List IdentityKey}
      {cr : Credential} (events : List Event) (lastSuccess : Int)
      (credential : db.credentials.get? id = some cr)
      (current : cr.revision = ticket.revision ∧ cr.refreshSeq = ticket.seq) :
      Effect E c db (.refreshCommit id ticket (some keys)) .done
        { db with
          credentials := db.credentials.insert id { cr with status := .valid, error := "" }
          snapshots := db.snapshots.insert id
            ⟨((db.snapshots.get? id).map (·.revision)).getD 0 + 1, lastSuccess, keys⟩
          events := events } everybody
  | requestGrant {actor : Actor} {node tailnet : String} {expected : ℕ} {until_ : Int} {id : Token}
      {reply : GrantView} {ps : Parties} (g : Grant) (parties : parties node tailnet db = .ok ps)
      (active : Active actor db) (owner : Permitted actor ps.tailnet.ownerID)
      (serving : ps.node.state.serving)
      (base : requestBase (c.read 1) node tailnet expected id db = .ok g) :
      Effect E c db (.requestGrant actor node tailnet expected until_ id) (.grant reply)
        { db with
          grants := db.grants.insert (pair node tailnet) { g with
            state := requestedState ps, revision := g.revision + 1
            explicitUntil := untilUnix until_
            lastControlSuccess :=
              if requestedState ps = .active then unix (c.read 2) else 0 } } (· = node)
  | applyGrantAction {actor : Actor} {id : String} {expected : ℕ} {action : GrantAction}
      {reply : GrantView} {k : Pair} {g : Grant} {ps : Parties}
      (grant : db.grants.get? k = some g) (grant_id : g.id = id)
      (parties : parties (ofLex k).1 (ofLex k).2 db = .ok ps)
      (active : Active actor db) (owner : Permitted actor (actionOwner ps action))
      (current : g.revision = expected) (allowed : actionAllowed action (g.stateAt (c.read 0))) :
      Effect E c db (.applyGrantAction actor id expected action) (.grant reply)
        { db with
          grants := db.grants.insert k { g with
            state := actionNext action, revision := g.revision + 1
            lastControlSuccess :=
              if actionNext action = .active then unix (c.read 1) else 0 } } (· = (ofLex k).1)
  | nodeHeartbeat {token : String} {report : Option NodeReport} {reply : HeartbeatReply}
      {s : NodeSessionRow} {n : Node} (observations : Table String Observation)
      (session : db.liveSession E (c.read 0) token = some (s, n)) :
      Effect E c db (.nodeHeartbeat token report) (.heartbeat reply)
        { db.heartbeat s.nodeID (c.read 1) with observations := observations } (· = s.nodeID)
  | ackReceived {token : String} {ack : PolicyACK} {s : NodeSessionRow} {n : Node} {row : PolicyRow}
      (session : db.liveSession E (c.read 0) token = some (s, n)) (state : ack.state = .received)
      (stored : db.policies.get? s.nodeID = some row)
      (order : row.receivedRevision ≤ ack.revision ∧ ack.revision ≤ row.desiredRevision) :
      Effect E c db (.acknowledgePolicy token ack) .done
        { db with
          policies := db.policies.insert s.nodeID
            { row with receivedRevision := ack.revision } } nobody
  | ackApplied {token : String} {ack : PolicyACK} {s : NodeSessionRow} {n : Node} {row : PolicyRow}
      (usable : Bool) (events : List Event)
      (session : db.liveSession E (c.read 0) token = some (s, n)) (state : ack.state = .applied)
      (stored : db.policies.get? s.nodeID = some row)
      (order : row.appliedRevision ≤ ack.revision ∧ ack.revision ≤ row.receivedRevision ∧
        ack.revision ≤ row.desiredRevision) :
      Effect E c db (.acknowledgePolicy token ack) .done
        { db with
          policies := db.policies.insert s.nodeID
            { row with appliedRevision := ack.revision, derperUsable := usable }
          nodes := db.nodes.insert s.nodeID
            { n with state := if usable then .ready else .registered, lastError := "" }
          events := events } nobody
  | ackNack {token : String} {ack : PolicyACK} {s : NodeSessionRow} {n : Node}
      (lastError : String) (events : List Event)
      (session : db.liveSession E (c.read 0) token = some (s, n)) (state : ack.state = .nack) :
      Effect E c db (.acknowledgePolicy token ack) .done
        { db with
          nodes := db.nodes.insert s.nodeID
            { n with state := .registered, lastError := lastError }
          events := events } nobody
  | refreshExpiryEvents (events : List Event) :
      Effect E c db .refreshExpiryEvents .done { db with events := events } nobody
  | buildPolicy {id : String} {p : Policy} :
      Effect E c db (.buildPolicy id) (.policy p) db (· = id)

def Does (E : Env) (c : Clock) (db : DB) (op : Op) (reply : Reply) (db' : DB) : Prop :=
  ∃ mid S i, Effect E c db op reply mid S ∧ Rebuilt E (c.read i) S mid db'

section Does

variable {E : Env} {c : Clock} {db db' : DB}

theorem Does.of_edit {op : Op} {reply : Reply} (h : Effect E c db op reply db' nobody) :
    Does E c db op reply db' := ⟨db', nobody, 0, h, Rebuilt.refl E _ db'⟩

theorem createUser_eq_ok {actor : Actor} {username password : String} {role : Role}
    {initial : Bool} {id : Token} {hash : String}
    (h : createUser actor username password role initial id hash db = .ok db') :
    db.users.get? id.text = none ∧
      db' = { db with users := db.users.insert id.text ⟨username, role, true, hash, 1⟩ } := by
  simp only [createUser, Except_bind_eq_ok, require_eq_ok, activeActor_eq_ok, exists_const,
    Except_pure_eq_ok] at h
  obtain ⟨-, -, -, -, ⟨hfresh, -⟩, rfl⟩ := h
  exact ⟨hfresh, rfl⟩

theorem createAccount_does {actor : Actor} {username password : String} {role : Role} {id : Token}
    {hash : String} (h : createAccount actor username password role id hash db = .ok db') :
    Does E c db (.createAccount actor username password role id hash) .done db' := by
  simp only [createAccount, Except_bind_eq_ok, requireAdmin, require_eq_ok, exists_const] at h
  obtain ⟨-, -, h⟩ := h
  obtain ⟨hfresh, rfl⟩ := createUser_eq_ok h
  exact .of_edit (.createAccount hfresh)

theorem setUserRole_does {actor : Actor} {userID : String} {role : Role}
    (h : setUserRole actor userID role db = .ok db') :
    Does E c db (.setUserRole actor userID role) .done db' := by
  simp only [setUserRole, Except_bind_eq_ok, requireAdmin, require_eq_ok, activeActor_eq_ok,
    orElse_eq_ok, exists_const] at h
  obtain ⟨-, -, -, u, -, -, h⟩ := h
  split_ifs at h
  · obtain rfl := Except_pure_eq_ok.mp h
    exact .of_edit (.idle rfl (by simp))
  · simp only [Except_bind_eq_ok, require_eq_ok, exists_const, Except_pure_eq_ok] at h
    obtain ⟨-, rfl⟩ := h
    exact .of_edit .setUserRole

theorem changePassword_does {actor : Actor} {userID password hash : String}
    (h : changePassword actor userID password hash db = .ok db') :
    Does E c db (.changePassword actor userID password hash) .done db' := by
  simp only [changePassword, Except_bind_eq_ok, requireOwner_eq_ok, require_eq_ok,
    activeActor_eq_ok, exists_const, Except_pure_eq_ok] at h
  obtain ⟨-, -, -, -, rfl⟩ := h
  exact .of_edit .changePassword

theorem setUserEnabled_does {actor : Actor} {userID : String} {enabled : Bool}
    (h : setUserEnabled E c actor userID enabled db = .ok db') :
    Does E c db (.setUserEnabled actor userID enabled) .done db' := by
  simp only [setUserEnabled, Except_bind_eq_ok, requireAdmin, require_eq_ok, activeActor_eq_ok,
    exists_const] at h
  obtain ⟨-, -, -, h⟩ := h
  exact ⟨_, _, 0, .setUserEnabled, rebuildPolicies_rebuilt h⟩

theorem insertSession_does {userID : String} {version : ℕ} {token : Token}
    (h : insertSession E c userID version token db = .ok db') :
    Does E c db (.insertSession userID version token) .done db' := by
  simp only [insertSession, Except_bind_eq_ok, require_eq_ok, orElse_eq_ok, exists_const,
    Except_pure_eq_ok] at h
  obtain ⟨u, -, -, -, rfl⟩ := h
  exact .of_edit (.sessions rfl _)

theorem setRetentions_does {actor : Actor} {r : Retentions}
    (h : setRetentions E c actor r db = .ok db') :
    Does E c db (.setRetentions actor r) .done db' := by
  simp only [setRetentions, Except_bind_eq_ok, requireAdmin, require_eq_ok, activeActor_eq_ok,
    exists_const] at h
  obtain ⟨-, hr, -, h⟩ := h
  exact ⟨_, _, 0, .setRetentions hr, rebuildPolicies_rebuilt h⟩

theorem createNode_does {actor : Actor} {name domain : String} {derpPort stunPort : ℕ}
    {id code : Token} {r : IssuedCode}
    (h : createNode E c actor name domain derpPort stunPort id code db = .ok (db', r)) :
    Does E c db (.createNode actor name domain derpPort stunPort id code) (.code r) db' := by
  simp only [createNode, Except_bind_eq_ok, require_eq_ok, orElse_eq_ok, activeActor_eq_ok,
    requireOwner_eq_ok, exists_const, issueCode_eq_ok] at h
  obtain ⟨-, -, normal, -, -, -, region, -, ⟨hfresh, -, howner⟩, hunique, -, rfl⟩ := h
  exact .of_edit (.createNode _ hfresh rfl rfl (Option.ne_none_iff_exists'.mp howner) hunique)

theorem releaseNode_rebuilt {now : Int} {id : String} (h : releaseNode E now id db = .ok db') :
    Rebuilt E now (· = id) (db.release id) db' := by
  simp only [releaseNode] at h
  split_ifs at h with hnone
  · obtain rfl := Except_pure_eq_ok.mp h
    refine ⟨rfl, rfl, ?_, fun _ _ => rfl⟩
    rintro _ row rfl hrow
    simp [hnone] at hrow
  · simp only [Except_bind_eq_ok, Except_pure_eq_ok, Prod.exists] at h
    obtain ⟨_, p, h, rfl⟩ := h
    exact buildPolicy_rebuilt h

theorem issueEnrollment_does {actor : Actor} {id : String} {code : Token} {r : IssuedCode}
    (h : issueEnrollment E c actor id code db = .ok (db', r)) :
    Does E c db (.issueEnrollment actor id code) (.code r) db' := by
  simp only [issueEnrollment, Except_bind_eq_ok, activeActor_eq_ok, orElse_eq_ok,
    requireOwner_eq_ok, exists_const] at h
  obtain ⟨hactive, n, hn, hp, h⟩ := h
  split_ifs at h with hstate
  · obtain ⟨mid, hrel, h⟩ := Except_bind_eq_ok.mp h
    obtain ⟨hunique, -, rfl⟩ := issueCode_eq_ok.mp h
    have hr := releaseNode_rebuilt hrel
    obtain ⟨policies, rfl⟩ : ∃ policies, mid = { db.release id with policies := policies } :=
      ⟨_, hr.frame⟩
    have hunique' : ∀ k e, k ≠ id → db.enrollments.get? k = some e →
        e.codeHash ≠ E.tokenHash code.text := fun k e hk he =>
      hunique k e hk ((Table.get?_erase_ne _ hk).trans he)
    refine ⟨_, _, 0, .reissueEnrollment hn hstate hactive hp hunique', ?_⟩
    exact hr.side _ _ _ _
  · obtain ⟨_, hrel, h⟩ := Except_bind_eq_ok.mp h
    obtain rfl := Except_pure_eq_ok.mp hrel
    obtain ⟨hunique, -, rfl⟩ := issueCode_eq_ok.mp h
    exact .of_edit (.issueEnrollment hn (not_not.mp hstate) hactive hp hunique)

theorem leaveNode_does {token : String} (h : leaveNode E c token db = .ok db') :
    Does E c db (.leaveNode token) .done db' := by
  simp only [leaveNode, Except_bind_eq_ok, nodeSession_eq_ok] at h
  obtain ⟨_, ⟨-, s, n, hs, rfl⟩, h⟩ := h
  exact ⟨_, _, 1, .leaveNode hs, releaseNode_rebuilt h⟩

theorem enrollmentChallenge_does {code : String} {pub : Bytes} {instance_ : String} {nonce : Token}
    {ch : NodeChallenge} (h : enrollmentChallenge E c code pub instance_ nonce db = .ok (db', ch)) :
    Does E c db (.enrollmentChallenge code pub instance_ nonce) (.challenge ch) db' := by
  simp only [enrollmentChallenge, Except_bind_eq_ok, require_eq_ok, orElse_eq_ok, exists_const,
    Prod.exists, newNodeChallenge_eq_ok] at h
  obtain ⟨-, id, n, hfind, -, hfresh, rfl, rfl⟩ := h
  simp only [DB.enrollable, Option.bind_eq_bind, Option.bind_eq_some_iff, Option.pure_def,
    Option.some.injEq, Prod.mk.injEq, Prod.exists] at hfind
  obtain ⟨_, e, -, _, hn, rfl, rfl⟩ := hfind
  exact .of_edit (.enrollmentChallenge hn rfl rfl rfl rfl rfl hfresh)

theorem sessionChallenge_does {id instance_ : String} {nonce : Token} {ch : NodeChallenge}
    (h : sessionChallenge E c id instance_ nonce db = .ok (db', ch)) :
    Does E c db (.sessionChallenge id instance_ nonce) (.challenge ch) db' := by
  simp only [sessionChallenge, Except_bind_eq_ok, require_eq_ok, orElse_eq_ok, exists_const,
    newNodeChallenge_eq_ok] at h
  obtain ⟨-, n, hn, -, pub, -, -, -, hfresh, rfl, rfl⟩ := h
  exact .of_edit (.sessionChallenge hn rfl rfl rfl hfresh)

theorem enrollmentReceipt_eq_none {now now' : Int} {req : EnrollmentRequest}
    (h : enrollmentReceipt E now now' req db = .ok none) :
    ∃ e n, db.enrollments.get? req.challenge.nodeID = some e ∧
      db.nodes.get? req.challenge.nodeID = some n ∧ e.codeHash = E.tokenHash req.code ∧
      e.consumedAt = 0 ∧ unix now < e.expiresAt ∧ e.ownerID = n.ownerID ∧
      db.userEnabled n.ownerID := by
  simp only [enrollmentReceipt, Except_bind_eq_ok, orElse_eq_ok, require_eq_ok,
    exists_const] at h
  obtain ⟨e, he, n, hn, ⟨howner, hcode, hexp, henabled⟩, h⟩ := h
  split_ifs at h with hc
  · exact ⟨e, n, he, hn, hcode, hc, hexp, howner, henabled⟩
  · simp at h

theorem enrollNew_does {req : EnrollmentRequest} {token : Token} {box : Bytes} {s : NodeSession}
    (hr : enrollmentReceipt E (c.read 0) (c.read 1) req db = .ok none)
    (h : enrollNew E c req token box db = .ok (db', s)) :
    Does E c db (.enrollCommit req token box) (.session s) db' := by
  obtain ⟨e, n', he, hn', hcode, hunused, hexp, howner⟩ := enrollmentReceipt_eq_none hr
  simp only [enrollNew, Except_bind_eq_ok, checkNodeChallenge_eq_ok, orElse_eq_ok, require_eq_ok,
    exists_const, Prod.exists, mintNodeSession_eq_ok, Except_pure_eq_ok, Prod.mk.injEq] at h
  obtain ⟨⟨hpurpose, -, -, husable⟩, n, hn, ⟨hdomain, hpending, hkey⟩, mid, p, hb, _, _,
    ⟨hfresh, rfl, rfl⟩, rfl, rfl⟩ := h
  rw [← Option.some.inj (hn.symm.trans hn')] at howner
  have hbuilt := buildPolicy_rebuilt hb
  obtain ⟨policies, rfl⟩ : ∃ policies, mid = { db with
      nodes := db.nodes.insert req.challenge.nodeID { n with
        publicKey := some req.challenge.publicKey, instanceID := req.challenge.instanceID
        state := .registered, leaseUntil := unix (c.read 4 + 90 * second)
        domainVerifiedAt := unix (c.read 5) }
      policies := policies } := ⟨_, hbuilt.frame⟩
  exact ⟨_, _, 6, .enroll hn hdomain hpending hkey he hcode hunused hexp husable hpurpose rfl hfresh
    howner, hbuilt.side _ _ _ _⟩

theorem enrollCommit_does {req : EnrollmentRequest} {token : Token} {box : Bytes} {s : NodeSession}
    (h : enrollCommit E c req token box db = .ok (db', s)) :
    Does E c db (.enrollCommit req token box) (.session s) db' := by
  obtain ⟨receipt, hr, h⟩ := Except_bind_eq_ok.mp h
  cases receipt with
  | none => exact enrollNew_does hr h
  | some session =>
    simp only [Except_pure_eq_ok, Prod.mk.injEq] at h
    obtain ⟨rfl, rfl⟩ := h
    exact .of_edit (.receipt hr)

theorem renewNodeSession_does {ch : NodeChallenge} {sig : Bytes} {token : Token} {r : Renewal}
    (h : renewNodeSession E c ch sig token db = .ok (db', r)) :
    Does E c db (.renewNodeSession ch sig token) (.renewal r) db' := by
  simp only [renewNodeSession, Except_bind_eq_ok, checkNodeChallenge_eq_ok, orElse_eq_ok,
    require_eq_ok, exists_const] at h
  obtain ⟨-, ⟨-, -, -, husable⟩, n, hn, ⟨hdomain, hstate, howner, hkey⟩, h⟩ := h
  by_cases hlease : n.instanceID ≠ ch.instanceID ∧ unix (c.read 2) < n.leaseUntil
  · rw [if_pos hlease] at h
    simp only [Except_bind_eq_ok, refuseInstance, Except_pure_eq_ok, Prod.mk.injEq,
      Prod.exists] at h
    obtain ⟨_, ⟨_, p, hb, rfl⟩, rfl, rfl⟩ := h
    obtain ⟨row, _, _, hproj, -⟩ := buildPolicy_eq_ok.mp hb
    exact ⟨_, _, 5, .refuse _ hn hdomain hstate howner hkey hlease husable ⟨row, hproj.row⟩,
      buildPolicy_rebuilt hb⟩
  · rw [if_neg hlease] at h
    simp only [Except_bind_eq_ok, mintNodeSession_eq_ok, Except_pure_eq_ok, Prod.mk.injEq,
      Prod.exists] at h
    obtain ⟨_, _, ⟨hfresh, rfl, rfl⟩, rfl, rfl⟩ := h
    have hlease' : n.instanceID = ch.instanceID ∨ n.leaseUntil ≤ unix (c.read 2) := by
      by_contra hcon
      push Not at hcon
      exact hlease hcon
    exact .of_edit (.renew hn hdomain hstate howner hkey hlease' husable rfl hfresh)

theorem recoverNodeInstance_does {actor : Actor} {id instance_ : String}
    (h : recoverNodeInstance E c actor id instance_ db = .ok db') :
    Does E c db (.recoverNodeInstance actor id instance_) .done db' := by
  simp only [recoverNodeInstance, Except_bind_eq_ok, require_eq_ok, activeActor_eq_ok, orElse_eq_ok,
    requireOwner_eq_ok, exists_const, Except_pure_eq_ok, Prod.exists] at h
  obtain ⟨-, hactive, n, hn, howner, hstate, _, p, hb, rfl⟩ := h
  exact ⟨_, _, 2, .recover _ hn hactive howner hstate, buildPolicy_rebuilt hb⟩

theorem changePorts_does {op : Op} {id : String} {n : Node} {derpPort stunPort : ℕ}
    (hop : op.portChange) (hn : db.nodes.get? id = some n)
    (h : changePorts id n derpPort stunPort db = .ok db') :
    Does E c db op .done db' := by
  simp only [changePorts, Except_bind_eq_ok, require_eq_ok, exists_const] at h
  obtain ⟨-, h⟩ := h
  split_ifs at h
  · obtain rfl := Except_pure_eq_ok.mp h
    exact .of_edit (.idle (Op.repeatable_of_portChange hop) (by simp))
  · obtain rfl := Except_pure_eq_ok.mp h
    exact .of_edit (.ports hop hn)

theorem setNodePorts_does {actor : Actor} {id : String} {derpPort stunPort : ℕ}
    (h : setNodePorts actor id derpPort stunPort db = .ok db') :
    Does E c db (.setNodePorts actor id derpPort stunPort) .done db' := by
  simp only [setNodePorts, Except_bind_eq_ok, require_eq_ok, exists_const, ownedNode_eq_ok] at h
  obtain ⟨-, n, ⟨-, hn, -⟩, h⟩ := h
  exact changePorts_does rfl hn h

theorem setNodeSessionPorts_does {token : String} {derpPort stunPort : ℕ}
    (h : setNodeSessionPorts E c token derpPort stunPort db = .ok db') :
    Does E c db (.setNodeSessionPorts token derpPort stunPort) .done db' := by
  simp only [setNodeSessionPorts, Except_bind_eq_ok, orElse_eq_ok] at h
  obtain ⟨session, -, n, hn, h⟩ := h
  exact changePorts_does rfl hn h

theorem setNodeEnabled_does {actor : Actor} {id : String} {enabled : Bool}
    (h : setNodeEnabled E c actor id enabled db = .ok db') :
    Does E c db (.setNodeEnabled actor id enabled) .done db' := by
  simp only [setNodeEnabled, Except_bind_eq_ok, ownedNode_eq_ok, require_eq_ok, exists_const] at h
  obtain ⟨n, ⟨hactive, hn, howner⟩, hstate, h⟩ := h
  refine ⟨_, _, 0, .setNodeEnabled hn hactive howner hstate, ?_⟩
  split_ifs at h with hpending
  · simp only [Except_bind_eq_ok, Except_pure_eq_ok, Prod.exists] at h
    obtain ⟨_, p, h, rfl⟩ := h
    simpa only [hpending, ne_eq, not_false_eq_true, and_true] using buildPolicy_rebuilt h
  · obtain rfl := Except_pure_eq_ok.mp h
    simpa only [hpending, and_false] using Rebuilt.refl E _ _

theorem deleteNode_does {actor : Actor} {id : String} {connected : Bool}
    (h : deleteNode actor id connected db = .ok db') :
    Does E c db (.deleteNode actor id connected) .done db' := by
  simp only [deleteNode, Except_bind_eq_ok, ownedNode_eq_ok, require_eq_ok, exists_const,
    Except_pure_eq_ok] at h
  obtain ⟨n, ⟨-, hn, -⟩, -, rfl⟩ := h
  exact .of_edit (.deleteNode hn)

theorem changeNodeDomain_does {actor : Actor} {id domain : String} {connected : Bool}
    (h : changeNodeDomain E actor id domain connected db = .ok db') :
    Does E c db (.changeNodeDomain actor id domain connected) .done db' := by
  simp only [changeNodeDomain, Except_bind_eq_ok, orElse_eq_ok, ownedNode_eq_ok, require_eq_ok,
    exists_const] at h
  obtain ⟨normal, hnormal, n, ⟨-, hn, -⟩, ⟨hdisabled, hstate⟩, h⟩ := h
  split_ifs at h
  · obtain rfl := Except_pure_eq_ok.mp h
    exact .of_edit (.idle rfl (by simp))
  · simp only [Except_bind_eq_ok, require_eq_ok, orElse_eq_ok, exists_const, Except_pure_eq_ok,
      Table.any_eq_false, decide_eq_false_iff_not, not_and, not_not] at h
    obtain ⟨hunique, row, hrow, hsettled, rfl⟩ := h
    exact .of_edit (.changeNodeDomain hnormal hn hdisabled hstate hunique hrow hsettled)

theorem saveProbes_does {actor : Actor} {id domain : String} {derpPort stunPort : ℕ}
    {probes : NodeProbes} (h : saveProbes actor id domain derpPort stunPort probes db = .ok db') :
    Does E c db (.saveProbes actor id domain derpPort stunPort probes) .done db' := by
  simp only [saveProbes, Except_bind_eq_ok, require_eq_ok, exists_const, Except_pure_eq_ok] at h
  obtain ⟨n, -, -, rfl⟩ := h
  exact .of_edit (.saveProbes _)

theorem setNodeQoS_does {actor : Actor} {node : String} {q : QoSPolicy}
    (h : setNodeQoS E c actor node q db = .ok db') :
    Does E c db (.setNodeQoS actor node q) .done db' := by
  simp only [setNodeQoS, Except_bind_eq_ok, Except_pure_eq_ok, Prod.exists] at h
  obtain ⟨-, -, n, hn, mid, hrules, _, p, h, rfl⟩ := h
  obtain ⟨hframe, hothers⟩ := insertRules_frame hrules
  have hothers' : ∀ k, (ofLex k).1 ≠ node → mid.rules.get? k = db.rules.get? k := by
    intro k hk
    rw [hothers k hk, Table.get?_delete]
    cases db.rules.get? k <;> simp [Option.filter, hk]
  have hown : ∀ tailnet rule, mid.rules.get? (pair node tailnet) = some rule → ∃ n tn,
      db.nodes.get? node = some n ∧ db.tailnets.get? tailnet = some tn ∧
      (rule.group = .owner → tn.ownerID = n.ownerID) := by
    intro tailnet rule hrule
    rcases insertRules_own hrules hrule with hold | ⟨tn, htn, hgroup⟩
    · simp at hold
    · exact ⟨n, tn, (ownedNode_eq_ok.mp hn).2.1, htn, hgroup⟩
  rw [hframe] at h
  exact ⟨_, _, 0, .setNodeQoS mid.rules hothers' hown, buildPolicy_rebuilt h⟩

theorem setTailnetEnabled_does {actor : Actor} {id : String} {enabled : Bool}
    (h : setTailnetEnabled E c actor id enabled db = .ok db') :
    Does E c db (.setTailnetEnabled actor id enabled) .done db' := by
  simp only [setTailnetEnabled, Except_bind_eq_ok] at h
  obtain ⟨tn, -, h⟩ := h
  exact ⟨_, _, 0, .setTailnetEnabled, rebuildPolicies_rebuilt h⟩

theorem deleteTailnet_does {actor : Actor} {id : String}
    (h : deleteTailnet E c actor id db = .ok db') :
    Does E c db (.deleteTailnet actor id) .done db' := by
  simp only [deleteTailnet, Except_bind_eq_ok] at h
  obtain ⟨tn, -, h⟩ := h
  exact ⟨_, _, 0, .deleteTailnet, rebuildPolicies_rebuilt h⟩

theorem transferTailnet_does {actor : Actor} {id newOwner : String}
    (h : transferTailnet E c actor id newOwner db = .ok db') :
    Does E c db (.transferTailnet actor id newOwner) .done db' := by
  simp only [transferTailnet, Except_bind_eq_ok, require_eq_ok, exists_const] at h
  obtain ⟨-, tn, -, howner, h⟩ := h
  exact ⟨_, _, 0, .transferTailnet howner, rebuildPolicies_rebuilt h⟩

theorem addTailnet_does {actor : Actor} {name apiID : String} {id : Token} {encrypted : Bytes}
    {keys : List IdentityKey} (h : addTailnet E c actor name apiID id encrypted keys db = .ok db') :
    Does E c db (.addTailnet actor name apiID id encrypted keys) .done db' := by
  simp only [addTailnet, Except_bind_eq_ok, requireOwner_eq_ok, orElse_eq_ok, require_eq_ok,
    activeActor_eq_ok, exists_const] at h
  obtain ⟨-, canonical, -, -, -, ⟨hfresh, -, howner⟩, hcred, h⟩ := h
  obtain ⟨events, hr⟩ := publishIdentity_ok h
  exact ⟨_, _, 4, .addTailnet _ events _ hfresh hcred (Option.ne_none_iff_exists'.mp howner), hr⟩

theorem replaceCommit_does {actor : Actor} {id : String} {revision : ℕ} {encrypted : Bytes}
    {keys : List IdentityKey} (h : replaceCommit E c actor id revision encrypted keys db = .ok db') :
    Does E c db (.replaceCommit actor id revision encrypted keys) .done db' := by
  simp only [replaceCommit, Except_bind_eq_ok, tailnetOwner_eq_ok, require_eq_ok, exists_const] at h
  obtain ⟨tn, ⟨-, htn, -⟩, hcurrent, h⟩ := h
  obtain ⟨events, hr⟩ := publishIdentity_ok h
  exact ⟨_, _, 4, .replaceCommit events _ htn hcurrent, hr⟩

theorem deleteCredential_does {actor : Actor} {id : String}
    (h : deleteCredential E c actor id db = .ok db') :
    Does E c db (.deleteCredential actor id) .done db' := by
  simp only [deleteCredential, Except_bind_eq_ok, tailnetOwner_eq_ok] at h
  obtain ⟨tn, ⟨-, htn, -⟩, h⟩ := h
  obtain ⟨events, he⟩ := updateIdentityConflicts_frame (fun j => c.read (2 + j)) { db with
    credentials := db.credentials.modify id fun cr =>
      { cr with
        encrypted := [], status := .missing, error := "", revision := cr.revision + 1
        refreshSeq := 0, updatedAt := unix (c.read 0) }
    snapshots := db.snapshots.modify id fun s => { s with keys := [], revision := s.revision + 1 } }
  rw [he] at h
  exact ⟨_, _, 1, .deleteCredential events htn, rebuildPolicies_rebuilt h⟩

theorem refreshBegin_does {id : String} {t : RefreshTicket}
    (h : refreshBegin id db = .ok (db', t)) :
    Does E c db (.refreshBegin id) (.ticket t) db' := by
  simp only [refreshBegin, Except_bind_eq_ok, orElse_eq_ok, require_eq_ok, exists_const,
    Except_pure_eq_ok, Prod.mk.injEq] at h
  obtain ⟨cr, hcr, tn, htn, ⟨-, -, hstatus⟩, rfl, rfl⟩ := h
  exact .of_edit (.refreshBegin hcr htn hstatus)

theorem refreshCommit_does {id : String} {ticket : RefreshTicket}
    {fetched : Option (List IdentityKey)} (h : refreshCommit E c id ticket fetched db = .ok db') :
    Does E c db (.refreshCommit id ticket fetched) .done db' := by
  simp only [refreshCommit, Except_bind_eq_ok, orElse_eq_ok, require_eq_ok, exists_const] at h
  obtain ⟨cr, hcr, hcurrent, h⟩ := h
  cases fetched with
  | none =>
    obtain rfl := Except_pure_eq_ok.mp h
    rw [identityEvent_frame]
    exact .of_edit (.refreshFailed _ hcr hcurrent)
  | some keys =>
    obtain ⟨events, hr⟩ := publishIdentity_ok h
    exact ⟨_, _, 3, .refreshCommit events _ hcr hcurrent, hr⟩

theorem requestGrant_does {actor : Actor} {node tailnet : String} {expected : ℕ} {until_ : Int}
    {id : Token} {r : GrantView}
    (h : requestGrant E c actor node tailnet expected until_ id db = .ok (db', r)) :
    Does E c db (.requestGrant actor node tailnet expected until_ id) (.grant r) db' := by
  simp only [requestGrant, Except_bind_eq_ok, require_eq_ok, activeActor_eq_ok, requireOwner_eq_ok,
    grantResourcesEnabled_eq_ok, exists_const] at h
  obtain ⟨-, hactive, ps, hps, howner, _, ⟨nu, tu, -, -, rfl⟩, henabled, h⟩ := h
  simp only [Bool.and_eq_true] at henabled
  split at h
  · obtain ⟨rfl, rfl⟩ := Prod.mk.inj (Except_pure_eq_ok.mp h)
    exact .of_edit (.idle rfl (by simp))
  · simp only [Except_bind_eq_ok, Except_pure_eq_ok, Prod.exists, Prod.mk.injEq] at h
    obtain ⟨g, hbase, _, p, hb, rfl, rfl⟩ := h
    exact ⟨_, _, 3, .requestGrant g hps hactive howner henabled.1.1.1.2 hbase,
      buildPolicy_rebuilt hb⟩

theorem applyGrantAction_does {actor : Actor} {id : String} {expected : ℕ} {action : GrantAction}
    {r : GrantView} (h : applyGrantAction E c actor id expected action db = .ok (db', r)) :
    Does E c db (.applyGrantAction actor id expected action) (.grant r) db' := by
  simp only [applyGrantAction, Except_bind_eq_ok, require_eq_ok, activeActor_eq_ok,
    requireOwner_eq_ok, exists_const, Prod.exists] at h
  obtain ⟨-, hactive, k, g, ps, hg, howner, h⟩ := h
  obtain ⟨hget, hid, hps⟩ := grantByID_eq_ok hg
  by_cases hrepeat : (scanGrant (c.read 0) (ofLex k).1 (ofLex k).2 g ps).state = actionNext action ∧
      (g.revision = expected ∨ g.revision = expected + 1)
  · rw [if_pos hrepeat] at h
    obtain ⟨rfl, rfl⟩ := Prod.mk.inj (Except_pure_eq_ok.mp h)
    exact .of_edit (.idle rfl (by simp))
  · rw [if_neg hrepeat] at h
    simp only [Except_bind_eq_ok, require_eq_ok, exists_const] at h
    obtain ⟨⟨hrev, hallowed⟩, h⟩ := h
    -- Both branches of the check for enabled resources go on with the same edit.
    have hedit : ∃ p db₁, buildPolicy E (ofLex k).1 (c.read 2) { db with
        grants := db.grants.insert k { g with
          state := actionNext action, revision := g.revision + 1
          lastControlSuccess := if actionNext action = .active then unix (c.read 1) else 0 } } =
        .ok (db₁, p) ∧ db' = db₁ := by
      by_cases ha : action = .approve ∨ action = .confirm
      · rw [if_pos ha] at h
        simp only [Except_bind_eq_ok, require_eq_ok, exists_const, Except_pure_eq_ok, Prod.exists,
          Prod.mk.injEq] at h
        obtain ⟨_, -, -, db₁, p, hb, rfl, -⟩ := h
        exact ⟨p, _, hb, rfl⟩
      · rw [if_neg ha] at h
        simp only [Except_bind_eq_ok, require_eq_ok, exists_const, Except_pure_eq_ok, Prod.exists,
          Prod.mk.injEq] at h
        obtain ⟨_, -, -, db₁, p, hb, rfl, -⟩ := h
        exact ⟨p, _, hb, rfl⟩
    obtain ⟨p, db₁, hb, rfl⟩ := hedit
    exact ⟨_, _, 2, .applyGrantAction hget hid hps hactive howner hrev hallowed,
      buildPolicy_rebuilt hb⟩

theorem nodeHeartbeat_does {token : String} {report : Option NodeReport} {r : HeartbeatReply}
    (h : nodeHeartbeat E c token report db = .ok (db', r)) :
    Does E c db (.nodeHeartbeat token report) (.heartbeat r) db' := by
  simp only [nodeHeartbeat, Except_bind_eq_ok, nodeSession_eq_ok, Prod.exists] at h
  obtain ⟨_, ⟨-, s, n, hs, rfl⟩, mid, p, hb, h⟩ := h
  have hbuilt := buildPolicy_rebuilt hb
  obtain ⟨policies, rfl⟩ : ∃ policies, mid =
      { db.heartbeat s.nodeID (c.read 1) with policies := policies } := ⟨_, hbuilt.frame⟩
  have hobs : ∃ observations, db' =
      { db.heartbeat s.nodeID (c.read 1) with policies := policies, observations := observations } := by
    cases report with
    | none =>
      simp only [Except_bind_eq_ok, Except_pure_eq_ok, Prod.mk.injEq] at h
      obtain ⟨_, rfl, _, -, rfl, -⟩ := h
      exact ⟨_, rfl⟩
    | some report =>
      simp only [Except_bind_eq_ok, Except_pure_eq_ok, Prod.mk.injEq] at h
      obtain ⟨mid, hsave, _, -, rfl, -⟩ := h
      exact ⟨_, saveNodeReport_frame hsave⟩
  obtain ⟨observations, rfl⟩ := hobs
  exact ⟨_, _, 1, .nodeHeartbeat observations hs, hbuilt.side _ _ _ _⟩

theorem acknowledgePolicy_does {token : String} {ack : PolicyACK}
    (h : acknowledgePolicy E c token ack db = .ok db') :
    Does E c db (.acknowledgePolicy token ack) .done db' := by
  simp only [acknowledgePolicy, Except_bind_eq_ok, require_eq_ok, nodeSession_eq_ok, orElse_eq_ok,
    exists_const] at h
  obtain ⟨-, -, _, ⟨-, s, m, hs, rfl⟩, row, hrow, n, hn, hdesired, h⟩ := h
  obtain rfl : m = n := Option.some.inj ((liveSession_eq_some.mp hs).2.1.symm.trans hn)
  cases hstate : ack.state with
  | received =>
    simp only [hstate, Except_bind_eq_ok, require_eq_ok, exists_const, Except_pure_eq_ok] at h
    obtain ⟨hle, rfl⟩ := h
    exact .of_edit (.ackReceived hs hstate hrow ⟨hle, hdesired⟩)
  | applied =>
    simp only [hstate, Except_bind_eq_ok, require_eq_ok, orElse_eq_ok, exists_const,
      Except_pure_eq_ok] at h
    obtain ⟨⟨hreceived, happlied⟩, body, -, p, -, rfl⟩ := h
    exact .of_edit (.ackApplied _ _ hs hstate hrow ⟨happlied, hreceived, hdesired⟩)
  | nack =>
    simp only [hstate, Except_bind_eq_ok, require_eq_ok, exists_const, Except_pure_eq_ok] at h
    obtain ⟨-, rfl⟩ := h
    rw [applyFailed_frame]
    exact .of_edit (.ackNack _ _ hs hstate)

theorem refreshExpiryEvents_does (h : refreshExpiryEvents E c db = .ok db') :
    Does E c db .refreshExpiryEvents .done db' := by
  obtain ⟨events, rfl⟩ := refreshExpiryEvents_frame h
  exact .of_edit (.refreshExpiryEvents events)

@[simp] theorem quiet_eq_ok {r : Except Err DB} {reply : Reply} :
    quiet r = .ok (db', reply) ↔ r = .ok db' ∧ reply = .done := by
  cases r <;> simp [quiet, Except.map, eq_comm]

@[simp] theorem answer_eq_ok {α : Type} {f : α → Reply} {r : Except Err (DB × α)} {reply : Reply} :
    answer f r = .ok (db', reply) ↔ ∃ a, r = .ok (db', a) ∧ reply = f a := by
  cases r with
  | error e => simp [answer, Except.map]
  | ok x =>
    obtain ⟨x, a⟩ := x
    simp [answer, Except.map, eq_comm]

theorem exec_does {op : Op} {reply : Reply} (h : exec E c op db = .ok (db', reply)) :
    Does E c db op reply db' := by
  cases op <;> simp only [exec, quiet_eq_ok, answer_eq_ok] at h
  case initializeAdmin =>
    obtain ⟨h, rfl⟩ := h
    obtain ⟨hfresh, rfl⟩ := createUser_eq_ok h
    exact .of_edit (.initializeAdmin hfresh)
  case createAccount => obtain ⟨h, rfl⟩ := h; exact createAccount_does h
  case setUserRole => obtain ⟨h, rfl⟩ := h; exact setUserRole_does h
  case changePassword => obtain ⟨h, rfl⟩ := h; exact changePassword_does h
  case setUserEnabled => obtain ⟨h, rfl⟩ := h; exact setUserEnabled_does h
  case insertSession => obtain ⟨h, rfl⟩ := h; exact insertSession_does h
  case logout =>
    obtain ⟨h, rfl⟩ := h
    obtain rfl := Except.ok.inj h
    exact .of_edit (.sessions rfl _)
  case setRetentions => obtain ⟨h, rfl⟩ := h; exact setRetentions_does h
  case createNode => obtain ⟨_, h, rfl⟩ := h; exact createNode_does h
  case issueEnrollment => obtain ⟨_, h, rfl⟩ := h; exact issueEnrollment_does h
  case leaveNode => obtain ⟨h, rfl⟩ := h; exact leaveNode_does h
  case enrollmentChallenge => obtain ⟨_, h, rfl⟩ := h; exact enrollmentChallenge_does h
  case sessionChallenge => obtain ⟨_, h, rfl⟩ := h; exact sessionChallenge_does h
  case enrollCommit => obtain ⟨_, h, rfl⟩ := h; exact enrollCommit_does h
  case renewNodeSession => obtain ⟨_, h, rfl⟩ := h; exact renewNodeSession_does h
  case recoverNodeInstance => obtain ⟨h, rfl⟩ := h; exact recoverNodeInstance_does h
  case setNodePorts => obtain ⟨h, rfl⟩ := h; exact setNodePorts_does h
  case setNodeSessionPorts => obtain ⟨h, rfl⟩ := h; exact setNodeSessionPorts_does h
  case setNodeEnabled => obtain ⟨h, rfl⟩ := h; exact setNodeEnabled_does h
  case deleteNode => obtain ⟨h, rfl⟩ := h; exact deleteNode_does h
  case changeNodeDomain => obtain ⟨h, rfl⟩ := h; exact changeNodeDomain_does h
  case saveProbes => obtain ⟨h, rfl⟩ := h; exact saveProbes_does h
  case setNodeQoS => obtain ⟨h, rfl⟩ := h; exact setNodeQoS_does h
  case setTailnetEnabled => obtain ⟨h, rfl⟩ := h; exact setTailnetEnabled_does h
  case deleteTailnet => obtain ⟨h, rfl⟩ := h; exact deleteTailnet_does h
  case transferTailnet => obtain ⟨h, rfl⟩ := h; exact transferTailnet_does h
  case addTailnet => obtain ⟨h, rfl⟩ := h; exact addTailnet_does h
  case replaceCommit => obtain ⟨h, rfl⟩ := h; exact replaceCommit_does h
  case deleteCredential => obtain ⟨h, rfl⟩ := h; exact deleteCredential_does h
  case refreshBegin => obtain ⟨_, h, rfl⟩ := h; exact refreshBegin_does h
  case refreshCommit => obtain ⟨h, rfl⟩ := h; exact refreshCommit_does h
  case requestGrant => obtain ⟨_, h, rfl⟩ := h; exact requestGrant_does h
  case applyGrantAction => obtain ⟨_, h, rfl⟩ := h; exact applyGrantAction_does h
  case nodeHeartbeat => obtain ⟨_, h, rfl⟩ := h; exact nodeHeartbeat_does h
  case acknowledgePolicy => obtain ⟨h, rfl⟩ := h; exact acknowledgePolicy_does h
  case refreshExpiryEvents => obtain ⟨h, rfl⟩ := h; exact refreshExpiryEvents_does h
  case buildPolicy =>
    obtain ⟨_, h, rfl⟩ := h
    exact ⟨_, _, 0, .buildPolicy, buildPolicy_rebuilt h⟩

end Does

end UniDERP
