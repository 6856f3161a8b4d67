import UniDERP.Control.Leases
import UniDERP.Node.Registration

/-!
# The node's control loop

`RunControl` and `RenewSession` of `internal/cluster`, next to `Enroll` and with the controller that
answers them.  A node is one process after another on one key and one `registration.json`; every
process draws a new instance id.  Timers of the node and the controller's clock run at one rate, so
there is one time; what a process reads from its own wall clock is arbitrary.
-/

namespace UniDERP.Node

inductive Request
  | enroll (req : EnrollmentRequest)
  | renew (ch : NodeChallenge) (sig : Bytes)
  | heartbeat (token : String)
  deriving DecidableEq

/-- Where `RunControl` is; a session is the one it read at the head of the loop. -/
inductive ControlPhase
  /-- At the head of the loop, or waiting to get there. -/
  | loop
  /-- Waiting for the lease of another instance to run out. -/
  | waiting (session : NodeSession) (until_ : Int)
  | ready (session : NodeSession)
  /-- In `RenewSession`, without and with a challenge. -/
  | challenge
  | renew (ch : NodeChallenge)
  /-- In `controlConnection`. -/
  | connected (session : NodeSession)
  deriving DecidableEq

/-- `RenewSession` holds the client's mutex. -/
def ControlPhase.locked : ControlPhase → Bool
  | .challenge | .renew _ => true
  | _ => false

structure Control where
  loaded : Bool := false
  renewRequired : Bool := false
  phase : ControlPhase := .loop

/-- What happens in `RunControl`; `clock` are readings of the node's own wall clock. -/
inductive ControlAct
  /-- The session is read, and the policy cache is loaded the first time. -/
  | load
  /-- The wait is over. -/
  | wake
  /-- The session is renewed, or used. -/
  | choose (clock : Int)
  | challenge (ch : NodeChallenge) (clock : ℕ → Int)
  | session (s : NodeSession) (clock : ℕ → Int) (written : Bool)
  | heartbeat (clock : Int)
  | heard (r : HeartbeatReply) (written : Bool)
  /-- The stream answers 401. -/
  | reject
  /-- Any other failure, or no response. -/
  | fail

/-- The check of a challenge in `RenewSession`. -/
def EnrollmentClient.validRenewal (c : EnrollmentClient) (s : NodeSession) (ch : NodeChallenge)
    (clock : ℕ → Int) : Bool :=
  ((c.validChallenge ch .session clock && ch.domain = c.state.domain) ||
    c.validChallenge ch .domainChange fun i => clock (i + 2)) &&
    ch.nodeID = s.nodeID && ch.clusterID = s.clusterID

/-- The check of an answer in `controlHeartbeats`. -/
def validHeartbeat (r : HeartbeatReply) (s : NodeSession) : Bool :=
  r.nodeID = s.nodeID && r.leaseUntil ≠ zeroTime && 250 ≤ r.heartbeatIntervalMillis &&
    r.heartbeatIntervalMillis ≤ 30000

def Control.again (k : Control) : Control := { k with phase := .loop }

/-- What `RunControl` does, and the requests that it sends. -/
def Control.act (k : Control) (c : EnrollmentClient) (now : Int) :
    ControlAct → Option (Control × EnrollmentClient × List Request)
  | .load => match k.phase, c.state.session with
    | .loop, some s =>
      if k.loaded = false ∧ s.instanceID ≠ "" ∧ some s.instanceID ≠ c.instanceID then
        some ({ k with loaded := true, phase := .waiting s (now + 90 * second) }, c, [])
      else some ({ k with loaded := true, phase := .ready s }, c, [])
    | _, _ => none
  | .wake => match k.phase with
    | .waiting s until_ => if until_ ≤ now then some ({ k with phase := .ready s }, c, []) else none
    | _ => none
  | .choose clock => match k.phase with
    | .ready s =>
      if k.renewRequired ∨ some s.instanceID ≠ c.instanceID ∨
          s.expiresAt ≤ clock + 600 * second then
        -- `RenewSession` takes the mutex, and fails if the registration was cleared meanwhile.
        if c.phase = .idle then
          some ({ k with phase := if c.state.session = none then .loop else .challenge }, c, [])
        else none
      else some ({ k with phase := .connected s }, c, [])
    | _ => none
  | .challenge ch clock => match k.phase, c.state.session with
    | .challenge, some s =>
      if c.validRenewal s ch clock then
        some ({ k with phase := .renew ch }, c, [.renew ch (c.sign ch)])
      else some (k.again, c, [])
    | _, _ => none
  | .session s clock written => match k.phase with
    | .renew ch =>
      if EnrollmentClient.acceptable s ch clock ∧ written then
        some ({ k with renewRequired := false, phase := .connected s },
          c.saveRegistration { domain := ch.domain, session := some s } true .idle, [])
      else some (k.again, c, [])
    | _ => none
  | .heartbeat clock => match k.phase with
    | .connected s =>
      if clock + 300 * second < s.expiresAt then some (k, c, [.heartbeat s.token])
      else some (k.again, c, [])
    | _ => none
  | .heard r written => match k.phase with
    | .connected s =>
      if c.phase = .idle then
        if validHeartbeat r s ∧ written then
          some (k, c.saveRegistration { c.state with
            session := c.state.session.map fun s => { s with leaseUntil := r.leaseUntil } }
            true .idle, [])
        else some (k.again, c, [])
      else none
    | _ => none
  | .reject => match k.phase with
    | .connected _ => some ({ k.again with renewRequired := true }, c, [])
    | _ => none
  | .fail => match k.phase with
    | .challenge | .renew _ | .connected _ => some (k.again, c, [])
    | _ => none

def Request.ofOp : Op → Option Request
  | .enrollCommit req _ _ => some (.enroll req)
  | .renewNodeSession ch sig _ => some (.renew ch sig)
  | .nodeHeartbeat token _ => some (.heartbeat token)
  | _ => none

def Request.ofAct (w : World) : UniDERP.Act → Option Request
  | .enrollBegin _ _ req => some (.enroll req)
  | act => (w.op act).bind fun x => ofOp x.2

/-- The request carries a signature of the key, or a session of a node that has it. -/
def Request.proves (E : Env) (db : DB) (key : Bytes) (c : Clock) : Request → Bool
  | .enroll req => req.challenge.publicKey = key && E.verify key req.challenge req.signature
  | .renew ch sig => ch.publicKey = key && E.verify key ch sig
  | .heartbeat token => (db.liveSession E (c.read 0) token).any fun x => x.2.publicKey = some key

def issuedChallenge : Option Reply → Option NodeChallenge
  | some (.challenge ch) => some ch
  | _ => none

def issuedSession : Option Reply → Option NodeSession
  | some (.session s) => some s
  | some (.renewal (.session s)) => some s
  | _ => none

structure Site where
  world : World := {}
  now : Int
  client : EnrollmentClient
  control : Option Control := none
  /-- What the running process has sent, and when. -/
  sent : List (Request × Int) := []
  /-- What the controller has answered and given out so far. -/
  answers : List (Request × NodeSession) := []
  issued : List NodeChallenge := []
  /-- The ids of all processes so far, and the random texts that the controller has drawn. -/
  instances : List String := []
  drawn : List String := []

namespace Site

inductive Act
  | pass (d : ℕ)
  | start (instance_ : String)
  | stop
  | client (a : ClientAct)
  /-- `RunControl` is called. -/
  | run
  /-- It returns: its context is done, or the controller reported a conflict. -/
  | return_
  | control (a : ControlAct)
  | controller (act : UniDERP.Act)

/-- When `Enroll` and `ClearRegistration` may go on: with the mutex, and with what the controller
has sent. -/
def mayClient (σ : Site) : ClientAct → Bool
  | .start _ | .stop => false
  | .enroll _ | .clear _ => !σ.control.any fun k => k.phase.locked
  | .challenge ch _ _ => ch ∈ σ.issued
  | .session s _ _ => σ.client.state.pending.any fun p => (.enroll p, s) ∈ σ.answers
  | .reject _ _ | .fail => true

def mayControl (σ : Site) (k : Control) : ControlAct → Bool
  | .challenge ch _ => ch ∈ σ.issued
  | .session s _ _ => match k.phase with
    | .renew ch => (.renew ch (σ.client.sign ch), s) ∈ σ.answers
    | _ => false
  | _ => true

/-- When a transaction may commit.  Its readings of the clock are between the time its request was
sent and now; random texts do not repeat; and what proves the node's key is a request of the running
process. -/
def admits (σ : Site) (E : Env) (c : Clock) (op : Op) : Prop :=
  (∀ i < 16, c.read i ≤ σ.now) ∧ (∀ t ∈ op.randomTokens, t ∉ σ.drawn) ∧
    ∀ q ∈ Request.ofOp op, q.proves E σ.world.db σ.client.publicKey c →
      ∃ x ∈ σ.sent, x.1 = q ∧ ∀ i < 16, x.2 ≤ c.read i

instance instDecidableAdmits (σ : Site) (E : Env) (c : Clock) (op : Op) :
    Decidable (σ.admits E c op) := by
  unfold admits
  infer_instance

/-- The request that `Enroll` has just sent. -/
def posted (c : EnrollmentClient) : List Request := match c.phase, c.state.pending with
  | .session _, some p => [.enroll p]
  | _, _ => []

def send (σ : Site) (qs : List Request) : List (Request × Int) :=
  qs.map (fun q => (q, σ.now)) ++ σ.sent

def record (σ : Site) (act : UniDERP.Act) (w : World) (reply : Option Reply) : Site :=
  { σ with
    world := w
    drawn := ((σ.world.op act).elim [] fun x => x.2.randomTokens) ++ σ.drawn
    issued := (issuedChallenge reply).toList ++ σ.issued
    answers := (do pure (← Request.ofAct σ.world act, ← issuedSession reply)).toList ++ σ.answers }

def step (E : Env) (σ : Site) : Act → Option Site
  | .pass d => some { σ with now := σ.now + d }
  | .start instance_ => do
    guard (σ.client.instanceID = none ∧ validToken instance_ ∧ instance_ ∉ σ.instances)
    let client ← σ.client.act (.start instance_)
    pure { σ with
      client, control := none, sent := [], instances := instance_ :: σ.instances }
  | .stop => do
    -- What the process has sent is not handled any more.
    let client ← σ.client.act .stop
    pure { σ with client, control := none, sent := [] }
  | .client a => do
    guard (σ.mayClient a)
    let client ← σ.client.act a
    pure { σ with client, sent := σ.send (posted client) }
  | .run => do
    guard (σ.client.instanceID.isSome ∧ σ.control.isNone)
    pure { σ with control := some {} }
  | .return_ => some { σ with control := none }
  | .control a => do
    let k ← σ.control
    guard (σ.mayControl k a)
    let (control, client, requests) ← k.act σ.client σ.now a
    pure { σ with control := some control, client, sent := σ.send requests }
  | .controller act => do
    guard (∀ x ∈ σ.world.op act, σ.admits E x.1 x.2)
    let (w, reply) ← σ.world.step E act
    pure (σ.record act w reply)

/-- A node that was never started, and a controller that was never used. -/
def Start (σ : Site) : Prop := ∃ now publicKey sign, σ = { now, client := { publicKey, sign } }

abbrev Reachable (E : Env) := UniDERP.Reachable Start fun σ a σ' => step E σ a = some σ'

abbrev Run (E : Env) := UniDERP.Run Start fun σ a σ' => step E σ a = some σ'

end Site
end UniDERP.Node
