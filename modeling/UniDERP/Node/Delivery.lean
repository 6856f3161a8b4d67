import UniDERP.Control.Revisions
import UniDERP.Node.Cache
import UniDERP.Relay.Admission

/-!
# From the controller to the relay

One node and the controller: the daemon's control loop with its cache (`internal/cluster/client.go`,
`internal/derper/policy.go`), the relay process with its own reads of the cache and its socket
(`cmd/derper/uniderp_policy.go`), and the acknowledgements on their way.  Each process can end
between any two of its steps.
-/

namespace UniDERP.Node

/-- `policyIPCRequest`. -/
structure PolicyNotice where
  revision : ℕ
  digest : String
  deriving DecidableEq, Repr

inductive RelayError
  | invalidCache
  | applyFailed
  | invalidRequest
  deriving DecidableEq, Repr

/-- What the daemon reads of `policyIPCResponse`. -/
structure PolicyReply where
  revision : ℕ
  usable : Bool
  error : Option RelayError
  deriving DecidableEq, Repr

/-- How far `loadUniDERPPolicy` has come: before the watermark, before the policy, or before
`ApplyUniDERPPolicy`. -/
inductive Load
  | opened
  | marked (m : CacheWatermark)
  | read (body : Bytes)
  deriving DecidableEq

/-- What the process is doing beside relaying: waiting for a request, loading the policy at its
start or for a request, or about to answer. -/
inductive Service
  | accepting
  | loading (expected : Option PolicyNotice) (load : Load)
  | replying (error : Option RelayError)
  deriving DecidableEq

structure Process where
  state : Relay.State
  service : Service := .loading none .opened
  lastError : Option RelayError := none

inductive ProcessAct
  | relay (a : Relay.Act)
  | readMark (now : Stamp)
  | readBody
  | fail
  | apply (read : ℕ → Reading) (order : List ℕ)
  | accept (request : Option PolicyNotice)
  | answer (read : ℕ → Reading) (order : List ℕ)

/-- The checks of the watermark in `loadUniDERPPolicy`. -/
def markUsable (now : Stamp) (m : CacheWatermark) : Bool :=
  decide (markSize m ≤ 4096 ∧ m.revision ≠ 0 ∧ m.observedAt.time ≠ zeroTime ∧ m.ahead now = false)

/-- The checks of the policy in `loadUniDERPPolicy`. -/
def bodyUsable (W : Wire) (expected : Option PolicyNotice) (m : CacheWatermark) (body : Bytes) :
    Bool :=
  decide (body.length ≤ maxPolicyBytes ∧ W.sha256 body = m.digest) &&
    expected.all (fun e => e.revision = m.revision && e.digest = W.sha256 body) &&
    match W.decodePolicy body m.clusterID m.nodeID with
    | .ok p => p.revision = m.revision
    | .error _ => false

/-- The load ends; `missing` says that a file does not exist. -/
def Process.loadFailed (x : Process) (expected : Option PolicyNotice) (missing : Bool) : Process :=
  match expected with
  | none =>
    { x with service := .accepting, lastError := if missing then none else some .invalidCache }
  | some _ => { x with service := .replying (some .applyFailed), lastError := some .applyFailed }

def Process.loadDone (x : Process) (expected : Option PolicyNotice) : Process :=
  match expected with
  | none => { x with service := .accepting, lastError := none }
  | some _ => { x with service := .replying none, lastError := none }

/-- A request that could not be read is `none`. -/
def Process.accept (W : Wire) (x : Process) : Option PolicyNotice → Process
  | none => { x with service := .replying (some .invalidRequest) }
  | some request =>
    if request.revision = 0 then
      { x with
        service := .replying (if request.digest = "" then x.lastError else some .invalidRequest) }
    else if W.isDigest request.digest then { x with service := .loading (some request) .opened }
    else { x with service := .replying (some .invalidRequest) }

/-- A step of the process, with the answer it gives. -/
def Process.act (W : Wire) (d : Disk) (x : Process) :
    ProcessAct → Option (Process × Option PolicyReply)
  | .relay a =>
    match a with
    | .apply _ _ _ => none
    | a => (Relay.act W a x.state).map fun s => ({ x with state := s }, none)
  | .readMark now =>
    match x.service with
    | .loading expected .opened =>
      match d.watermark with
      | none => some (x.loadFailed expected true, none)
      | some m =>
        if markUsable now m then some ({ x with service := .loading expected (.marked m) }, none)
        else some (x.loadFailed expected false, none)
    | _ => none
  | .readBody =>
    match x.service with
    | .loading expected (.marked m) =>
      match d.policy with
      | none => some (x.loadFailed expected true, none)
      | some body =>
        if bodyUsable W expected m body then
          some ({ x with service := .loading expected (.read body) }, none)
        else some (x.loadFailed expected false, none)
    | _ => none
  | .fail =>
    match x.service with
    | .loading expected _ => some (x.loadFailed expected false, none)
    | _ => none
  | .apply read order =>
    match x.service with
    | .loading expected (.read body) =>
      (Relay.act W (.apply body read order) x.state).map fun s =>
        match (Relay.applyPolicy W read order body x.state.server).1 with
        | .ok _ => ({ x with state := s }.loadDone expected, none)
        | .error _ => ({ x with state := s }.loadFailed expected false, none)
    | _ => none
  | .accept request =>
    match x.service with
    | .accepting => some (x.accept W request, none)
    | _ => none
  | .answer read order =>
    match x.service with
    | .replying error =>
      (Relay.act W (.status read order) x.state).map fun s =>
        let status := (Relay.policyStatus read order x.state.server).1
        ({ x with state := s, service := .accepting }, some ⟨status.revision, status.usable, error⟩)
    | _ => none

/-- Where the control loop is with a policy: between the two writes of its first save, before the
confirmation, before `ApplyPolicy`, between the writes of its save, or waiting for the relay.
`report` says that the stream waits for an acknowledgement. -/
inductive Phase
  | down
  | idle
  | saving (p : Policy) (body : Bytes)
  | saved (p : Policy)
  | applying (p : Policy) (report : Bool)
  | resaving (p : Policy) (body : Bytes) (report : Bool)
  | waiting (p : Policy) (report : Bool)

def Phase.free : Phase → Bool
  | .down | .saving _ _ | .resaving _ _ _ => false
  | _ => true

inductive DaemonAct
  | start (now : Stamp) (cut : Option ℕ)
  | stop
  | resume (now : Stamp) (cut : Option ℕ)
  | look (now : Stamp) (cut : Option ℕ)
  | conflict
  | receive (p : Policy) (now : Stamp) (written : Bool)
  | write
  | confirm (answered : Bool)
  | apply (now : Stamp) (written : Bool)
  | rewrite
  | fail
  | settle (reply : PolicyReply)

def nack (p : Policy) (error : String) : PolicyACK := ⟨p.revision, .nack, false, error⟩

/-- `prepareNodePolicy`: a cache that cannot be loaded loses its policy, not its watermark. -/
def prepareNodePolicy (W : Wire) (clusterID nodeID : String) (now : Stamp) (cut : Option ℕ)
    (d : Disk) : Disk :=
  match perform W (.load clusterID nodeID now) cut d with
  | (d, .loaded _) => d
  | (d, _) => { d with policy := none }

/-- What the loop posts when `apply` fails. -/
def applyFailed (p : Policy) (report : Bool) : List PolicyACK :=
  if report then [nack p "apply_failed"] else []

/-- A step of the daemon on its phase and its disk, with the acknowledgements that it posts. -/
def daemonAct (W : Wire) (clusterID nodeID : String) (replies : List PolicyReply) (phase : Phase)
    (d : Disk) : DaemonAct → Option (Phase × Disk × List PolicyACK)
  | .start now cut =>
    match phase with
    | .down => some (.idle, prepareNodePolicy W clusterID nodeID now cut d, [])
    | _ => none
  | .stop => some (.down, d, [])
  | .resume now cut =>
    match phase with
    | .idle =>
      match perform W (.load clusterID nodeID now) cut d with
      | (d, .loaded p) => some (.applying p false, d, [])
      | (d, _) => some (.idle, d, [])
    | _ => none
  | .look now cut =>
    if phase.free then some (phase, (perform W (.load clusterID nodeID now) cut d).1, []) else none
  | .conflict =>
    match phase with
    | .idle => some (.down, { d with policy := none }, [])
    | _ => none
  | .receive p now written =>
    match phase with
    | .idle =>
      match validatePolicy W.unmarshalText p clusterID nodeID with
      | .error _ => some (.idle, d, [nack p "invalid_policy"])
      | .ok () =>
        match saveCacheAt W p now d, written with
        | .ok (m, body), true => some (.saving p body, { d with watermark := some m }, [])
        | _, _ => some (.idle, d, [nack p "persist_failed"])
    | _ => none
  | .write =>
    match phase with
    | .saving p body => some (.saved p, { d with policy := some body }, [])
    | _ => none
  | .confirm answered =>
    match phase with
    | .saved p => some (.applying p answered, d, [⟨p.revision, .received, false, ""⟩])
    | _ => none
  | .apply now written =>
    match phase with
    | .applying p report =>
      match saveCacheAt W p now d, written with
      | .ok (m, body), true => some (.resaving p body report, { d with watermark := some m }, [])
      | _, _ => some (.idle, d, applyFailed p report)
    | _ => none
  | .rewrite =>
    match phase with
    | .resaving p body report => some (.waiting p report, { d with policy := some body }, [])
    | _ => none
  | .fail =>
    match phase with
    -- A directory that cannot be synced fails the save with both files replaced.
    | .saving p _ | .saved p => some (.idle, d, [nack p "persist_failed"])
    | .resaving p _ report | .waiting p report => some (.idle, d, applyFailed p report)
    | _ => none
  | .settle reply =>
    match phase with
    | .waiting p report =>
      if reply ∈ replies then
        if reply.error = none ∧ reply.revision = p.revision then
          some (.idle, d,
            if report then [⟨reply.revision, .applied, reply.usable, ""⟩] else [])
        else some (.idle, d, applyFailed p report)
      else none
    | _ => none

/-- The controller's tables, the node's disk and processes, every answer that a relay process ever
gave, and every acknowledgement that was ever posted.  An answer may reach the daemon late and an
acknowledgement may reach the controller late, never, or again. -/
structure System where
  db : DB := DB.empty
  disk : Disk := {}
  phase : Phase := .down
  relay : Option Process := none
  replies : List PolicyReply := []
  sent : List PolicyACK := []

inductive Move
  | commit (op : Op) (clock : Clock)
  | daemon (a : DaemonAct)
  | startRelay (budget : ℕ) (now : Reading)
  | stopRelay
  | relay (a : ProcessAct)

section System

variable (E : Env) (W : Wire) (nodeID : String)

def System.authentic (s : System) (clock : Clock) : Op → Bool
  | .acknowledgePolicy token ack =>
    ack ∈ s.sent || (s.db.liveSession E (clock.read 0) token).all fun x => x.1.nodeID ≠ nodeID
  | _ => true

def System.move (s : System) : Move → Option System
  | .commit op clock =>
    match exec E clock op s.db with
    | .ok (db, _) => if s.authentic E nodeID clock op then some { s with db := db } else none
    | .error _ => none
  | .daemon a =>
    (daemonAct W E.clusterID nodeID s.replies s.phase s.disk a).map fun (phase, disk, acks) =>
      { s with phase := phase, disk := disk, sent := acks ++ s.sent }
  | .startRelay budget now =>
    match s.relay with
    | none => some { s with relay := some { state := { server := .enable budget now {} } } }
    | some _ => none
  | .stopRelay => some { s with relay := none }
  | .relay a =>
    s.relay.bind fun x => (x.act W s.disk a).map fun (x, reply) =>
      { s with relay := some x, replies := reply.toList ++ s.replies }

abbrev System.Run := UniDERP.Run (fun s : System => s = {})
  fun s (a : Move) s' => s.move E W nodeID a = some s'

end System

end UniDERP.Node
