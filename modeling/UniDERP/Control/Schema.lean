import UniDERP.Library.Table
import UniDERP.PolicySize

namespace UniDERP

inductive Purpose
  | enroll
  | session
  | domainChange
  | other (text : String)
  deriving DecidableEq, Repr

structure NodeChallenge where
  purpose : Purpose
  clusterID : String
  nodeID : String
  domain : String
  nonce : String
  expiresAt : Stamp
  publicKey : Bytes
  instanceID : String
  deriving DecidableEq, Repr

structure EnrollmentRequest where
  code : String
  challenge : NodeChallenge
  signature : Bytes
  deriving DecidableEq, Repr

structure NodeSession where
  clusterID : String
  nodeID : String
  instanceID : String
  token : String
  expiresAt : Int
  leaseUntil : Int
  deriving DecidableEq, Repr

structure TailnetTraffic where
  counterID : ℕ
  tailnetID : String
  rxPayloadBytes : ℕ
  txPayloadBytes : ℕ
  relayedPayloadBytes : ℕ
  queuedPayloadBytes : ℕ
  deriving DecidableEq, Repr

structure NodeReport where
  localMaxBudgetBPS : Option ℕ
  effectiveBudgetBPS : Option ℕ
  revision : ℕ
  usable : Bool
  observedAt : Stamp
  traffic : List TailnetTraffic
  activeConnections : Option ℕ
  deriving DecidableEq, Repr

structure Probe where
  ok : Bool
  observedAt : Int
  deriving DecidableEq, Repr

structure NodeProbes where
  derp : Probe
  stun : Probe
  deriving DecidableEq, Repr

inductive Role
  | admin
  | provider
  | member
  deriving DecidableEq, Repr

inductive NodeState
  | pending
  | registered
  | ready
  | offline
  | domainPending
  | identityConflict
  deriving DecidableEq, Repr

def NodeState.serving : NodeState → Bool
  | .registered | .ready | .offline => true
  | _ => false

inductive GrantState
  | requested
  | ownerApproved
  | active
  | cancelled
  | rejected
  | revoked
  | expired
  deriving DecidableEq, Repr

def GrantState.live : GrantState → Bool
  | .requested | .ownerApproved | .active => true
  | _ => false

inductive CredentialStatus
  | valid
  | unavailable
  | missing
  deriving DecidableEq, Repr

inductive Resource
  | node
  | tailnet
  | grant
  deriving DecidableEq, Repr

inductive EventKind
  | identityConflict
  | identityUnavailable
  | policyApplyFailed
  | authorizationExpired
  deriving DecidableEq, Repr

structure User where
  username : String
  role : Role
  enabled : Bool
  passwordHash : String
  sessionVersion : ℕ := 1
  deriving DecidableEq, Repr

structure Session where
  userID : String
  sessionVersion : ℕ
  csrfHash : String
  expiresAt : Int
  deriving DecidableEq, Repr

structure Tailnet where
  ownerID : String
  displayName : String
  apiID : String
  enabled : Bool := true
  deriving DecidableEq, Repr

structure Credential where
  encrypted : Bytes
  status : CredentialStatus
  updatedAt : Int
  revision : ℕ := 1
  refreshSeq : ℕ := 0
  error : String := ""
  deriving DecidableEq, Repr

structure IdentityKey where
  nodePublic : String
  notAfter : Stamp
  deriving DecidableEq, Repr

structure Snapshot where
  revision : ℕ
  /-- In seconds, like every time that the database holds. -/
  lastSuccess : Int
  keys : List IdentityKey
  deriving DecidableEq, Repr

structure Node where
  ownerID : String
  domain : String
  derpPort : ℕ
  stunPort : ℕ
  displayName : String
  regionID : ℕ
  publicKey : Option Bytes := none
  state : NodeState := .pending
  instanceID : String := ""
  leaseUntil : Int := 0
  lastHeartbeat : Int := 0
  lastError : String := ""
  enabled : Bool := true
  domainVerifiedAt : Int := 0
  deriving DecidableEq, Repr

structure Enrollment where
  ownerID : String
  codeHash : String
  expiresAt : Int
  consumedAt : Int := 0
  requestHash : Option String := none
  responseEncrypted : Option Bytes := none
  deriving DecidableEq, Repr

structure Challenge where
  nodeID : String
  payload : NodeChallenge
  expiresAt : Int
  usedAt : Int := 0
  deriving DecidableEq, Repr

structure NodeSessionRow where
  nodeID : String
  instanceID : String
  expiresAt : Int
  deriving DecidableEq, Repr

structure Grant where
  id : String
  state : GrantState
  revision : ℕ
  explicitUntil : Int := 0
  lastControlSuccess : Int := 0
  deriving DecidableEq, Repr

structure PolicyRow where
  desiredRevision : ℕ := 0
  receivedRevision : ℕ := 0
  appliedRevision : ℕ := 0
  generatedAt : Int := 0
  policyJSON : Option Policy := none
  budgetBPS : ℕ := 100000000
  ownerWeight : ℕ := 8
  sharedWeight : ℕ := 2
  sharedMaxBPS : ℕ := 0
  derperUsable : Bool := false
  deriving DecidableEq, Repr

structure Rule where
  group : Group
  weight : ℕ
  maxBPS : ℕ
  deriving DecidableEq, Repr

structure Observation where
  reportInstance : String := ""
  reportJSON : Option NodeReport := none
  reportedAt : Int := 0
  probesJSON : Option NodeProbes := none
  previousReportJSON : Option NodeReport := none
  deriving DecidableEq, Repr

structure Event where
  ownerID : String
  resource : Resource
  resourceID : String
  kind : EventKind
  message : String
  createdAt : Int
  resolvedAt : Int := 0
  deriving DecidableEq, Repr

structure Retentions where
  identitySeconds : ℕ := 86400
  controlSeconds : ℕ := 86400
  deriving DecidableEq, Repr

abbrev Pair := String ×ₗ String

def pair (node tailnet : String) : Pair := toLex (node, tailnet)

@[simp] theorem pair_fst (node tailnet : String) : (ofLex (pair node tailnet)).1 = node := rfl

@[simp] theorem pair_snd (node tailnet : String) : (ofLex (pair node tailnet)).2 = tailnet := rfl

theorem pair_ofLex (k : Pair) : pair (ofLex k).1 (ofLex k).2 = k := rfl

@[simp] theorem pair_inj {a b c d : String} : pair a b = pair c d ↔ a = c ∧ b = d := by
  simp [pair]

theorem pair_lt_pair {a b c : String} : pair a b < pair a c ↔ b < c := by
  simp [pair, Prod.Lex.toLex_lt_toLex]

structure DB where
  users : Table String User := ∅
  /-- By token hash, as the node sessions are. -/
  sessions : Table String Session := ∅
  tailnets : Table String Tailnet := ∅
  credentials : Table String Credential := ∅
  snapshots : Table String Snapshot := ∅
  nodes : Table String Node := ∅
  enrollments : Table String Enrollment := ∅
  /-- By nonce hash. -/
  challenges : Table String Challenge := ∅
  nodeSessions : Table String NodeSessionRow := ∅
  grants : Table Pair Grant := ∅
  policies : Table String PolicyRow := ∅
  rules : Table Pair Rule := ∅
  observations : Table String Observation := ∅
  events : List Event := []
  retentions : Retentions := {}

/-- The database after migration and `ConfigureNodes`. -/
def DB.empty : DB := {}

/-- `DELETE FROM nodes`, with every row that refers to the node. -/
def DB.deleteNode (db : DB) (id : String) : DB :=
  { db with
    nodes := db.nodes.erase id
    enrollments := db.enrollments.erase id
    challenges := db.challenges.delete fun _ c => c.nodeID = id
    nodeSessions := db.nodeSessions.delete fun _ s => s.nodeID = id
    grants := db.grants.delete fun k _ => (ofLex k).1 = id
    policies := db.policies.erase id
    rules := db.rules.delete fun k _ => (ofLex k).1 = id
    observations := db.observations.erase id }

/-- `DELETE FROM tailnets`, with every row that refers to the tailnet. -/
def DB.deleteTailnet (db : DB) (id : String) : DB :=
  { db with
    tailnets := db.tailnets.erase id
    credentials := db.credentials.erase id
    snapshots := db.snapshots.erase id
    grants := db.grants.delete fun k _ => (ofLex k).2 = id
    rules := db.rules.delete fun k _ => (ofLex k).2 = id }

end UniDERP
