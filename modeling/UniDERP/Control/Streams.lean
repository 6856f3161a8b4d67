import UniDERP.Control.Ops

/-!
# Control streams

`controlStream` of `internal/control/control_stream.go`: each connected node has a handler that
sends it the stored policy.  Handlers, transactions and the calls that follow a commit run
concurrently; a handler reads the policy and checks its session in two transactions, and is told
of changes through a channel with one place.
-/

namespace UniDERP

/-- `notifyPolicy`, `notifyPolicies` and `closeNodeStream`. -/
inductive Notice
  | policy (id : String)
  | policies
  | close (id : String)
  deriving DecidableEq, Repr

def Notice.covers (id : String) : Notice → Bool
  | .policy k => k = id
  | .policies => true
  | .close _ => false

/-- The call that follows a transaction once it committed.  A repeated grant call answers with the
stored revision and calls nothing. -/
def Op.notice (E : Env) (c : Clock) (db : DB) : Op → Reply → Option Notice
  | .setUserEnabled .., _ | .setRetentions .., _ | .setTailnetEnabled .., _ | .deleteTailnet .., _
  | .transferTailnet .., _ | .addTailnet .., _ | .replaceCommit .., _ | .deleteCredential .., _
  | .refreshCommit _ _ (some _), _ => some .policies
  | .recoverNodeInstance _ id _, _ | .setNodeEnabled _ id _, _ | .deleteNode _ id _, _
  | .setNodeQoS _ id _, _ | .buildPolicy id, _ => some (.policy id)
  | .renewNodeSession ch _ _, .renewal .identityConflict => some (.policy ch.nodeID)
  | .nodeHeartbeat .., .heartbeat r => some (.policy r.nodeID)
  | .changeNodeDomain _ id domain _, _ =>
    if (db.nodes.get? id).any fun n => E.normalizeNodeDomain domain = some n.domain then none
    else some (.policy id)
  | .requestGrant _ node tailnet _ _ _, .grant g =>
    if (db.grants.get? (pair node tailnet)).any fun old => old.revision = g.revision then none
    else some (.policy node)
  | .applyGrantAction .., .grant g =>
    if (db.grants.get? (pair g.nodeID g.tailnetID)).any fun old => old.revision = g.revision then none
    else some (.policy g.nodeID)
  | .issueEnrollment _ id _, _ => some (.close id)
  | .leaveNode token, _ => (db.liveSession E (c.read 0) token).map fun x => .close x.1.nodeID
  | _, _ => none

/-- Where a handler is: a policy it holds was read and is not yet checked or written. -/
inductive StreamPhase
  | opened
  | registered
  | first (p : Policy)
  | greet (p : Policy)
  | waiting
  | signalled
  | read (p : Policy)
  | update (p : Policy)
  | farewell (p : Policy)
  | ended
  | gone
  deriving DecidableEq

structure ControlStream where
  token : String
  nodeID : String
  instanceID : String
  applied : ℕ
  phase : StreamPhase := .opened
  /-- The channel `changed` holds a signal. -/
  changed : Bool := false
  /-- The channel `done` is closed. -/
  done : Bool := false
  last : ℕ := 0
  /-- Every policy that was written, the latest first. -/
  written : List Policy := []
  deriving DecidableEq

inductive StreamStep
  | read
  | authenticate (now : Int)
  | write
  | take
  | tick (now : Int)
  | finish
  /-- The client is gone, or a write failed. -/
  | cancel
  deriving DecidableEq

def currentPolicy (E : Env) (id : String) (db : DB) : Except Err Policy := do
  let row ← orElse (db.policies.get? id) .noRows
  let body ← orElse row.policyJSON (.policy "decode policy")
  decodePolicy E body id

namespace ControlStream

/-- `AuthenticateNode` accepts the handler's token, for the same instance. -/
def authenticates (E : Env) (now : Int) (db : DB) (s : ControlStream) : Bool :=
  match nodeSession E now s.token db with
  | .ok session => session.instanceID = s.instanceID
  | .error _ => false

def reading (s : ControlStream) (E : Env) (db : DB) (f : Policy → StreamPhase) : ControlStream :=
  match currentPolicy E s.nodeID db with
  | .ok p => { s with phase := f p }
  | .error _ => { s with phase := .ended }

def writing (s : ControlStream) (p : Policy) (next : StreamPhase) : ControlStream :=
  if s.done then { s with phase := .ended }
  else { s with phase := next, last := p.revision, written := p :: s.written }

def act (E : Env) (db : DB) (s : ControlStream) : StreamStep → Option ControlStream
  | .read => match s.phase with
    | .registered => some (s.reading E db .first)
    | .signalled => some (s.reading E db .read)
    | _ => none
  | .authenticate now => match s.phase with
    | .first p =>
      if s.applied ≤ p.revision ∧ s.authenticates E now db then some { s with phase := .greet p }
      else some { s with phase := .ended }
    | .read p =>
      if s.authenticates E now db then
        some { s with phase := if p.revision ≠ s.last then .update p else .waiting }
      else some { s with phase := if p.grants.isEmpty then .farewell p else .ended }
    | _ => none
  | .write => match s.phase with
    | .greet p | .update p => some (s.writing p .waiting)
    | .farewell p => some (s.writing p .ended)
    | _ => none
  | .take => match s.phase with
    | .waiting => if s.changed then some { s with phase := .signalled, changed := false } else none
    | _ => none
  | .tick now => match s.phase with
    | .waiting =>
      if s.authenticates E now db ∧ s.done = false then some s else some { s with phase := .ended }
    | _ => none
  | .finish => match s.phase with
    | .waiting => if s.done then some { s with phase := .ended } else none
    | _ => none
  | .cancel => match s.phase with
    | .ended | .gone => none
    | _ => some { s with phase := .ended }

end ControlStream

structure Hub where
  db : DB := DB.empty
  /-- Every random value that was drawn. -/
  drawn : List String := []
  /-- The calls that committed transactions have not made yet. -/
  due : List Notice := []
  policyStreams : Table String ℕ := ∅
  streams : Table ℕ ControlStream := ∅

inductive HubAct
  | commit (c : Clock) (op : Op)
  | notify (n : Notice)
  | accept (x : ℕ) (now : Int) (token : String) (applied : ℕ)
  | register (x : ℕ)
  | stream (x : ℕ) (a : StreamStep)
  | unregister (x : ℕ)

namespace Hub

/-- `stop`. -/
def stop (h : Hub) (x : ℕ) : Hub :=
  { h with streams := h.streams.modify x fun s => { s with done := true } }

def notify (h : Hub) : Notice → Hub
  | .policy id => match h.policyStreams.get? id with
    | some x => { h with streams := h.streams.modify x fun s => { s with changed := true } }
    | none => h
  | .policies => { h with
      streams := h.streams.update (fun x _ => h.policyStreams.any fun _ y => y = x) fun s =>
        { s with changed := true } }
  | .close id => match h.policyStreams.get? id with
    | some x => { h.stop x with policyStreams := h.policyStreams.erase id }
    | none => h

/-- Take the node's place among the streams, and stop the stream that had it. -/
def register (h : Hub) (x : ℕ) (s : ControlStream) : Hub :=
  let h := match h.policyStreams.get? s.nodeID with
    | some y => h.stop y
    | none => h
  { h with
    policyStreams := h.policyStreams.insert s.nodeID x
    streams := h.streams.modify x fun s => { s with phase := .registered } }

/-- One step; random values are never drawn twice. -/
def act (E : Env) (h : Hub) : HubAct → Option Hub
  | .commit c op => do
    guard (∀ t ∈ op.randomTokens, t ∉ h.drawn)
    let (db, reply) ← (exec E c op h.db).toOption
    pure { h with
      db := db, drawn := op.randomTokens ++ h.drawn
      due := (op.notice E c h.db reply).toList ++ h.due }
  | .notify n => do
    guard (n ∈ h.due)
    pure { h.notify n with due := h.due.erase n }
  | .accept x now token applied => do
    guard (h.streams.get? x = none)
    let session ← (nodeSession E now token h.db).toOption
    pure { h with
      streams := h.streams.insert x
        { token := token, nodeID := session.nodeID, instanceID := session.instanceID
          applied := applied } }
  | .register x => do
    let s ← h.streams.get? x
    guard (s.phase = .opened)
    pure (h.register x s)
  | .stream x a => do
    let s ← h.streams.get? x
    let s ← s.act E h.db a
    pure { h with streams := h.streams.insert x s }
  | .unregister x => do
    let s ← h.streams.get? x
    guard (s.phase = .ended)
    pure { h with
      streams := h.streams.insert x { s with phase := .gone }
      policyStreams :=
        if h.policyStreams.get? s.nodeID = some x then h.policyStreams.erase s.nodeID
        else h.policyStreams }

def Step (E : Env) (h : Hub) (a : HubAct) (h' : Hub) : Prop := h.act E a = some h'

abbrev Run (E : Env) := UniDERP.Run (· = ({} : Hub)) (Hub.Step E)

end Hub

section Handler

variable {E : Env} {db : DB} {s : ControlStream}

inductive ControlStream.Ends (E : Env) (db : DB) (s : ControlStream) : StreamStep → Prop
  | unread (phase : s.phase = .registered ∨ s.phase = .signalled)
      (missing : ∀ p, currentPolicy E s.nodeID db ≠ .ok p) : Ends E db s .read
  | refused {now : Int} {p : Policy} (phase : s.phase = .first p) : Ends E db s (.authenticate now)
  | denied {now : Int} {p : Policy} (phase : s.phase = .read p)
      (session : s.authenticates E now db = false) (grants : p.grants ≠ []) :
      Ends E db s (.authenticate now)
  | stopped (done : s.done) : Ends E db s .write
  | expired {now : Int} (phase : s.phase = .waiting) : Ends E db s (.tick now)
  | finished (phase : s.phase = .waiting) (done : s.done) : Ends E db s .finish
  | cancelled : Ends E db s .cancel

inductive ControlStream.Moves (E : Env) (db : DB) (s : ControlStream) :
    StreamStep → ControlStream → Prop
  | ends {a : StreamStep} (why : s.Ends E db a) : Moves E db s a { s with phase := .ended }
  | first {p : Policy} (phase : s.phase = .registered)
      (policy : currentPolicy E s.nodeID db = .ok p) :
      Moves E db s .read { s with phase := .first p }
  | read {p : Policy} (phase : s.phase = .signalled)
      (policy : currentPolicy E s.nodeID db = .ok p) :
      Moves E db s .read { s with phase := .read p }
  | greet {now : Int} {p : Policy} (phase : s.phase = .first p) :
      Moves E db s (.authenticate now) { s with phase := .greet p }
  | update {now : Int} {p : Policy} (phase : s.phase = .read p)
      (session : s.authenticates E now db) :
      Moves E db s (.authenticate now) { s with phase := .update p }
  | settle {now : Int} {p : Policy} (phase : s.phase = .read p)
      (session : s.authenticates E now db) (same : p.revision = s.last) :
      Moves E db s (.authenticate now) { s with phase := .waiting }
  | farewell {now : Int} {p : Policy} (phase : s.phase = .read p)
      (session : s.authenticates E now db = false) (grants : p.grants = []) :
      Moves E db s (.authenticate now) { s with phase := .farewell p }
  | write {p : Policy} (phase : s.phase = .greet p ∨ s.phase = .update p) :
      Moves E db s .write
        { s with phase := .waiting, last := p.revision, written := p :: s.written }
  | lastWrite {p : Policy} (phase : s.phase = .farewell p) :
      Moves E db s .write { s with phase := .ended, last := p.revision, written := p :: s.written }
  | take (phase : s.phase = .waiting) : Moves E db s .take
      { s with phase := .signalled, changed := false }
  | ping {now : Int} (phase : s.phase = .waiting) (session : s.authenticates E now db) :
      Moves E db s (.tick now) s

theorem ControlStream.act_moves {step : StreamStep} {s' : ControlStream}
    (hact : s.act E db step = some s') : s.Moves E db step s' := by
  cases step <;> simp only [ControlStream.act] at hact
  case read =>
    split at hact <;> rename_i hphase <;> simp only [Option.some.injEq, reduceCtorEq] at hact <;>
      subst hact <;> unfold ControlStream.reading <;> split
    · exact .first hphase ‹_›
    · exact .ends (.unread (.inl hphase) (by simp [*]))
    · exact .read hphase ‹_›
    · exact .ends (.unread (.inr hphase) (by simp [*]))
  case authenticate =>
    split at hact <;> rename_i hphase <;> try cases hact
    · split_ifs at hact <;> cases hact
      · exact .greet hphase
      · exact .ends (.refused hphase)
    · split_ifs at hact with hsession hrevision hgrants <;> cases hact
      · exact .update hphase hsession
      · exact .settle hphase hsession (not_not.mp hrevision)
      · exact .farewell hphase (by simpa using hsession) (List.isEmpty_iff.mp hgrants)
      · exact .ends (.denied hphase (by simpa using hsession) (by simpa using hgrants))
  case write =>
    split at hact <;> rename_i hphase <;> try cases hact
    all_goals
      unfold ControlStream.writing
      split_ifs with hdone
    · exact .ends (.stopped hdone)
    · exact .write (.inl hphase)
    · exact .ends (.stopped hdone)
    · exact .write (.inr hphase)
    · exact .ends (.stopped hdone)
    · exact .lastWrite hphase
  case take =>
    split at hact <;> rename_i hphase <;> try cases hact
    split_ifs at hact
    cases hact
    exact .take hphase
  case tick =>
    split at hact <;> rename_i hphase <;> try cases hact
    split_ifs at hact with hsession <;> cases hact
    · exact .ping hphase hsession.1
    · exact .ends (.expired hphase)
  case finish =>
    split at hact <;> rename_i hphase <;> try cases hact
    split_ifs at hact with hdone
    cases hact
    exact .ends (.finished hphase hdone)
  case cancel =>
    split at hact <;> try cases hact
    exact .ends .cancelled

end Handler
end UniDERP
