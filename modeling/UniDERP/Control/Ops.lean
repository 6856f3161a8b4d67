import UniDERP.Library.Run
import UniDERP.Control.Accounts
import UniDERP.Control.Identity
import UniDERP.Control.Grants
import UniDERP.Control.Stream

namespace UniDERP

inductive Op
  | initializeAdmin (username password : String) (id : Token) (hash : String)
  | createAccount (actor : Actor) (username password : String) (role : Role) (id : Token)
      (hash : String)
  | setUserRole (actor : Actor) (userID : String) (role : Role)
  | changePassword (actor : Actor) (userID password hash : String)
  | setUserEnabled (actor : Actor) (userID : String) (enabled : Bool)
  | insertSession (userID : String) (version : ℕ) (token : Token)
  | logout (token : String)
  | setRetentions (actor : Actor) (r : Retentions)
  | createNode (actor : Actor) (name domain : String) (derpPort stunPort : ℕ) (id code : Token)
  | issueEnrollment (actor : Actor) (id : String) (code : Token)
  | leaveNode (token : String)
  | enrollmentChallenge (code : String) (pub : Bytes) (instance_ : String) (nonce : Token)
  | sessionChallenge (id instance_ : String) (nonce : Token)
  | enrollCommit (req : EnrollmentRequest) (token : Token) (box : Bytes)
  | renewNodeSession (ch : NodeChallenge) (sig : Bytes) (token : Token)
  | recoverNodeInstance (actor : Actor) (id instance_ : String)
  | setNodePorts (actor : Actor) (id : String) (derpPort stunPort : ℕ)
  | setNodeSessionPorts (token : String) (derpPort stunPort : ℕ)
  | setNodeEnabled (actor : Actor) (id : String) (enabled : Bool)
  | deleteNode (actor : Actor) (id : String) (connected : Bool)
  | changeNodeDomain (actor : Actor) (id domain : String) (connected : Bool)
  | saveProbes (actor : Actor) (id domain : String) (derpPort stunPort : ℕ) (probes : NodeProbes)
  | setNodeQoS (actor : Actor) (node : String) (q : QoSPolicy)
  | setTailnetEnabled (actor : Actor) (id : String) (enabled : Bool)
  | deleteTailnet (actor : Actor) (id : String)
  | transferTailnet (actor : Actor) (id newOwner : String)
  | addTailnet (actor : Actor) (name apiID : String) (id : Token) (encrypted : Bytes)
      (keys : List IdentityKey)
  | replaceCommit (actor : Actor) (id : String) (revision : ℕ) (encrypted : Bytes)
      (keys : List IdentityKey)
  | deleteCredential (actor : Actor) (id : String)
  | refreshBegin (id : String)
  | refreshCommit (id : String) (ticket : RefreshTicket) (fetched : Option (List IdentityKey))
  | requestGrant (actor : Actor) (node tailnet : String) (expected : ℕ) (until_ : Int) (id : Token)
  | applyGrantAction (actor : Actor) (id : String) (expected : ℕ) (action : GrantAction)
  | nodeHeartbeat (token : String) (report : Option NodeReport)
  | acknowledgePolicy (token : String) (ack : PolicyACK)
  | refreshExpiryEvents
  | buildPolicy (id : String)

/-- What `randomToken` draws for the call. -/
def Op.randomTokens : Op → List String
  | .initializeAdmin _ _ id _ | .createAccount _ _ _ _ id _ => [id.text]
  | .insertSession _ _ token => [token.text]
  | .createNode _ _ _ _ _ id code => [id.text, code.text]
  | .issueEnrollment _ _ code => [code.text]
  | .enrollmentChallenge _ _ _ nonce | .sessionChallenge _ _ nonce => [nonce.text]
  | .enrollCommit _ token _ | .renewNodeSession _ _ token => [token.text]
  | .addTailnet _ _ _ id _ _ => [id.text]
  | .requestGrant _ _ _ _ _ id => [id.text]
  | _ => []

inductive Reply
  | done
  | code (e : IssuedCode)
  | challenge (ch : NodeChallenge)
  | session (s : NodeSession)
  | renewal (r : Renewal)
  | ticket (t : RefreshTicket)
  | grant (g : GrantView)
  | heartbeat (r : HeartbeatReply)
  | policy (p : Policy)
  deriving DecidableEq

def quiet (r : Except Err DB) : Except Err (DB × Reply) := r.map fun db => (db, .done)

def answer {α : Type} (f : α → Reply) (r : Except Err (DB × α)) : Except Err (DB × Reply) :=
  r.map fun x => (x.1, f x.2)

def exec (E : Env) (c : Clock) : Op → DB → Except Err (DB × Reply)
  | .initializeAdmin username password id hash, db =>
    quiet (initializeAdmin username password id hash db)
  | .createAccount actor username password role id hash, db =>
    quiet (createAccount actor username password role id hash db)
  | .setUserRole actor userID role, db => quiet (setUserRole actor userID role db)
  | .changePassword actor userID password hash, db =>
    quiet (changePassword actor userID password hash db)
  | .setUserEnabled actor userID enabled, db => quiet (setUserEnabled E c actor userID enabled db)
  | .insertSession userID version token, db => quiet (insertSession E c userID version token db)
  | .logout token, db => quiet (logout E token db)
  | .setRetentions actor r, db => quiet (setRetentions E c actor r db)
  | .createNode actor name domain derpPort stunPort id code, db =>
    answer .code (createNode E c actor name domain derpPort stunPort id code db)
  | .issueEnrollment actor id code, db => answer .code (issueEnrollment E c actor id code db)
  | .leaveNode token, db => quiet (leaveNode E c token db)
  | .enrollmentChallenge code pub instance_ nonce, db =>
    answer .challenge (enrollmentChallenge E c code pub instance_ nonce db)
  | .sessionChallenge id instance_ nonce, db =>
    answer .challenge (sessionChallenge E c id instance_ nonce db)
  | .enrollCommit req token box, db => answer .session (enrollCommit E c req token box db)
  | .renewNodeSession ch sig token, db => answer .renewal (renewNodeSession E c ch sig token db)
  | .recoverNodeInstance actor id instance_, db =>
    quiet (recoverNodeInstance E c actor id instance_ db)
  | .setNodePorts actor id derpPort stunPort, db =>
    quiet (setNodePorts actor id derpPort stunPort db)
  | .setNodeSessionPorts token derpPort stunPort, db =>
    quiet (setNodeSessionPorts E c token derpPort stunPort db)
  | .setNodeEnabled actor id enabled, db => quiet (setNodeEnabled E c actor id enabled db)
  | .deleteNode actor id connected, db => quiet (deleteNode actor id connected db)
  | .changeNodeDomain actor id domain connected, db =>
    quiet (changeNodeDomain E actor id domain connected db)
  | .saveProbes actor id domain derpPort stunPort probes, db =>
    quiet (saveProbes actor id domain derpPort stunPort probes db)
  | .setNodeQoS actor node q, db => quiet (setNodeQoS E c actor node q db)
  | .setTailnetEnabled actor id enabled, db => quiet (setTailnetEnabled E c actor id enabled db)
  | .deleteTailnet actor id, db => quiet (deleteTailnet E c actor id db)
  | .transferTailnet actor id newOwner, db => quiet (transferTailnet E c actor id newOwner db)
  | .addTailnet actor name apiID id encrypted keys, db =>
    quiet (addTailnet E c actor name apiID id encrypted keys db)
  | .replaceCommit actor id revision encrypted keys, db =>
    quiet (replaceCommit E c actor id revision encrypted keys db)
  | .deleteCredential actor id, db => quiet (deleteCredential E c actor id db)
  | .refreshBegin id, db => answer .ticket (refreshBegin id db)
  | .refreshCommit id ticket fetched, db => quiet (refreshCommit E c id ticket fetched db)
  | .requestGrant actor node tailnet expected until_ id, db =>
    answer .grant (requestGrant E c actor node tailnet expected until_ id db)
  | .applyGrantAction actor id expected action, db =>
    answer .grant (applyGrantAction E c actor id expected action db)
  | .nodeHeartbeat token report, db => answer .heartbeat (nodeHeartbeat E c token report db)
  | .acknowledgePolicy token ack, db => quiet (acknowledgePolicy E c token ack db)
  | .refreshExpiryEvents, db => quiet (refreshExpiryEvents E c db)
  | .buildPolicy id, db => answer .policy (buildPolicy E id (c.read 0) db)

/-- A committed transaction: what was called, when, and what it answered. -/
structure Commit where
  op : Op
  clock : Clock
  reply : Reply

def Step (E : Env) (db : DB) (a : Commit) (db' : DB) : Prop :=
  exec E a.clock a.op db = .ok (db', a.reply)

def Store.Reachable (E : Env) : DB → Prop := UniDERP.Reachable (· = DB.empty) (Step E)

abbrev Store.Run (E : Env) := UniDERP.Run (· = DB.empty) (Step E)

def replay (E : Env) (c : Clock) : List Op → DB → Except Err DB
  | [], db => .ok db
  | op :: ops, db => do
    let (db, _) ← exec E c op db
    replay E c ops db

theorem replay_reachable {E : Env} {c : Clock} {ops : List Op} {db db' : DB}
    (h : replay E c ops db = .ok db') (hdb : Store.Reachable E db) : Store.Reachable E db' := by
  induction ops generalizing db with
  | nil =>
    obtain rfl : db = db' := by simpa [replay] using h
    exact hdb
  | cons op ops ih =>
    obtain ⟨⟨db₁, reply⟩, he, hrest⟩ := Except_bind_eq_ok.mp h
    have hstep : Step E db ⟨op, c, reply⟩ db₁ := he
    exact ih hrest (hdb.step hstep)

theorem replay_append (E : Env) (c : Clock) (ops ops' : List Op) (db : DB) :
    replay E c (ops ++ ops') db = (replay E c ops db).bind (replay E c ops') := by
  induction ops generalizing db with
  | nil => rfl
  | cons op ops ih =>
    cases he : exec E c op db with
    | error e => simp [replay, he, bind, Except.bind]
    | ok x => simp [replay, he, bind, Except.bind, ih]

theorem replay_toOption (E : Env) (c : Clock) (ops : List Op) (db : DB) :
    (replay E c ops db).toOption =
      Run.play (fun db op => (exec E c op db).toOption.map (·.1)) ops db := by
  induction ops generalizing db with
  | nil => rfl
  | cons op ops ih =>
    rw [Run.play, replay]
    cases exec E c op db with
    | error e => rfl
    | ok x => exact ih x.1

theorem replay_run {E : Env} {c : Clock} {ops : List Op} {db : DB}
    (h : replay E c ops DB.empty = .ok db) :
    ∃ r : Store.Run E, r.len = ops.length ∧
      (∀ i ≤ ops.length, replay E c (ops.take i) DB.empty = .ok (r.state i)) ∧
      ∀ i op, ops[i]? = some op → (r.label i).op = op ∧ (r.label i).clock = c := by
  rw [← toOption_eq_some, replay_toOption] at h
  simp only [← toOption_eq_some, replay_toOption]
  refine Run.of_play (R := fun a op => a.op = op ∧ a.clock = c) (fun db op db' hmap => ?_)
    (Commit.mk .refreshExpiryEvents c .done) ?_ h
  · obtain ⟨⟨db₁, reply⟩, hexec, rfl⟩ := Option.map_eq_some_iff.mp hmap
    exact ⟨⟨op, c, reply⟩, ⟨rfl, rfl⟩, toOption_eq_some.mp hexec⟩
  · rfl

namespace First

def token (c : Char) : String := String.ofList (List.replicate 64 c)

theorem utf8Len_replicate (c : Char) (n : ℕ) :
    String.utf8Len (List.replicate n c) = n * c.utf8Size := by
  induction n with
  | zero => simp
  | succ n ih => rw [List.replicate_succ, String.utf8Len_cons, ih, Nat.succ_mul]

theorem utf8Size_of_isHex {c : Char} (h : isHex c = true) : c.utf8Size = 1 := by
  have hle : c ≤ 'f' := by
    simp only [isHex, Bool.or_eq_true, Bool.and_eq_true, decide_eq_true_eq] at h
    rcases h with (⟨-, h⟩ | ⟨-, h⟩) | ⟨-, h⟩
    · exact h.trans (by decide)
    · exact h
    · exact h.trans (by decide)
  have hf : 'f'.val ≤ 127 := by decide
  exact Char.utf8Size_eq_one_iff.mpr (UInt32.le_trans (Char.le_def.mp hle) hf)

theorem token_valid {c : Char} (h : isHex c = true) : validToken (token c) = true := by
  have hsize : (token c).utf8ByteSize = 64 := by
    rw [token, String.utf8ByteSize_ofList, utf8Len_replicate, utf8Size_of_isHex h]
  have hall : (token c).toList.all isHex = true := by
    rw [token, String.toList_ofList, List.all_replicate, h]
    rfl
  rw [validToken, hsize, hall]
  rfl

def owner : Token := ⟨token 'a', token_valid rfl⟩
def node : Token := ⟨token 'b', token_valid rfl⟩
def code : Token := ⟨token 'c', token_valid rfl⟩
def nonce : Token := ⟨token 'd', token_valid rfl⟩
def session : Token := ⟨token 'e', token_valid rfl⟩
def tailnet : Token := ⟨token 'f', token_valid rfl⟩
def grant : Token := ⟨token '0', token_valid rfl⟩

def clock : Clock := .still (1000 * second) (by decide) (by decide)

def admin : Actor := ⟨owner.text, .admin, true⟩

def publicKey : Bytes := List.replicate 32 1
def signature : Bytes := publicKey ++ publicKey

def homeKey : String := nodePublicHexPrefix ++ token '1'
def awayKey : String := nodePublicHexPrefix ++ token '2'

def challenge : NodeChallenge where
  purpose := .enroll
  clusterID := "cluster"
  nodeID := node.text
  domain := "relay.example"
  nonce := nonce.text
  expiresAt := .utc (1120 * second)
  publicKey := publicKey
  instanceID := "one"

def enrolling : List Op := [
  .initializeAdmin "admin" "a long password" owner "hash",
  .createNode admin "relay" "relay.example" 443 3478 node code,
  .enrollmentChallenge code.text publicKey "one" nonce,
  .enrollCommit ⟨code.text, challenge, signature⟩ session []]

def granting : List Op := [
  .addTailnet admin "home" "Thome" tailnet [] [⟨homeKey, .utc (5000 * second)⟩],
  .requestGrant admin node.text tailnet.text 0 zeroTime grant]

def guestID : Token := ⟨token '1', token_valid rfl⟩
def guestTailnet : Token := ⟨token '2', token_valid rfl⟩
def guestGrant : Token := ⟨token '3', token_valid rfl⟩

def guest : Actor := ⟨guestID.text, .member, true⟩

def sharing : List Op := [
  .createAccount admin "guest" "another password" .member guestID "hash",
  .addTailnet guest "away" "Taway" guestTailnet [] [⟨awayKey, .utc (5000 * second)⟩],
  .requestGrant guest node.text guestTailnet.text 0 zeroTime guestGrant,
  .applyGrantAction admin guestGrant.text 1 .approve,
  .applyGrantAction guest guestGrant.text 2 .confirm]

end First

end UniDERP
