import UniDERP.Library.Outcome
import UniDERP.Wire
import UniDERP.Control.Schema

namespace UniDERP

inductive Err
  | unauthorized
  | rateLimited
  | forbidden
  | invalid
  | conflict
  | identityUnavailable
  | noRows
  /-- A row that breaks a key, a uniqueness or a reference. -/
  | constraint
  /-- A value that has no JSON text. -/
  | marshal
  | input (code field : String)
  | policy (text : String)
  deriving DecidableEq, Repr

/-- The functions the store is given: hashes without collisions, the signature check, the sealed
box that holds an enrollment's answer, and the key and domain parsers. -/
structure Env where
  clusterID : String
  unmarshalText : String → Option ℕ
  normalizeNodeDomain : String → Option String
  tokenHash : String → String
  tokenHash_injective : Function.Injective tokenHash
  enrollmentDigest : EnrollmentRequest → String
  enrollmentDigest_injective : Function.Injective enrollmentDigest
  verify : Bytes → NodeChallenge → Bytes → Bool
  sealSession : String → Bytes → NodeSession → Bytes
  openSession : String → Bytes → Option NodeSession
  openSession_sealSession : ∀ id nonce s, openSession id (sealSession id nonce s) = some s

deriving instance Countable for Purpose
deriving instance Countable for NodeChallenge
deriving instance Countable for EnrollmentRequest
deriving instance Countable for NodeSession

noncomputable def Env.plain : Env where
  clusterID := "cluster"
  unmarshalText := unmarshalNodePublic
  normalizeNodeDomain := some
  tokenHash := id
  tokenHash_injective := Function.injective_id
  enrollmentDigest := (exists_injective EnrollmentRequest String).choose
  enrollmentDigest_injective := (exists_injective EnrollmentRequest String).choose_spec
  verify publicKey _ signature := signature = publicKey ++ publicKey
  sealSession _ _ := (exists_injective NodeSession Bytes).choose
  openSession _ := (exists_injective NodeSession Bytes).choose.partialInv
  openSession_sealSession _ _ _ :=
    Function.partialInv_left (exists_injective NodeSession Bytes).choose_spec _

def isHex (c : Char) : Bool :=
  ('0' ≤ c && c ≤ '9') || ('a' ≤ c && c ≤ 'f') || ('A' ≤ c && c ≤ 'F')

def validToken (token : String) : Bool := token.utf8ByteSize = 64 && token.toList.all isHex

/-- What `randomToken` returns. -/
structure Token where
  text : String
  valid : validToken text = true
  deriving DecidableEq

structure Actor where
  id : String
  role : Role
  enabled : Bool
  deriving DecidableEq, Repr

def requireOwner (actor : Actor) (ownerID : String) : Except Err Unit :=
  require (actor.enabled ∧ actor.id ≠ "" ∧ (actor.role = .admin ∨ actor.id = ownerID)) .forbidden

/-- The stored account still is what the actor was when it was authenticated. -/
def activeActor (actor : Actor) (db : DB) : Except Err Unit :=
  if actor.id = "local" then .ok ()
  else match db.users.get? actor.id with
    | some u => require (u.enabled ∧ u.role = actor.role) .forbidden
    | none => .error .forbidden

def DB.userEnabled (db : DB) (id : String) : Bool := (db.users.get? id).any (·.enabled)

def DB.addEvent (db : DB) (e : Event) : DB := { db with events := db.events ++ [e] }

/-- `UPDATE events SET resolved_at=? WHERE p AND resolved_at=0`. -/
def DB.resolveEvents (db : DB) (at_ : Int) (p : Event → Bool) : DB :=
  { db with
    events := db.events.map fun e =>
      if p e ∧ e.resolvedAt = 0 then { e with resolvedAt := at_ } else e }

/-- The account an actor acts for is an owner of the resource or an administrator. -/
def Permitted (actor : Actor) (ownerID : String) : Prop :=
  actor.enabled ∧ actor.id ≠ "" ∧ (actor.role = .admin ∨ actor.id = ownerID)

/-- The stored account agrees with the actor; the local administrator has none. -/
def Active (actor : Actor) (db : DB) : Prop :=
  actor.id = "local" ∨ ∃ u, db.users.get? actor.id = some u ∧ u.enabled ∧ u.role = actor.role

@[simp] theorem requireOwner_eq_ok {actor : Actor} {ownerID : String} {u : Unit} :
    requireOwner actor ownerID = .ok u ↔ Permitted actor ownerID := require_eq_ok

@[simp] theorem activeActor_eq_ok {actor : Actor} {db : DB} {u : Unit} :
    activeActor actor db = .ok u ↔ Active actor db := by
  unfold activeActor Active
  split_ifs with h
  · simp [h]
  · cases hu : db.users.get? actor.id <;> simp [h]

theorem userEnabled_eq_true {db : DB} {id : String} :
    db.userEnabled id = true ↔ ∃ u, db.users.get? id = some u ∧ u.enabled := by
  unfold DB.userEnabled
  cases db.users.get? id <;> simp

end UniDERP
