import UniDERP.Library.Run
import UniDERP.Relay.Server

namespace UniDERP.Relay

def keyLen : ℕ := 32
def maxPacketSize : ℕ := 64 * 2 ^ 10

inductive Stage
  | verified (key : ℕ)
  | bound (c : Sclient)
  | accepted (c : Sclient)
  deriving DecidableEq, Repr

inductive Side
  | receive
  | send
  deriving DecidableEq, Repr

/-- Where the loop of a connection is: before the next frame or packet, waiting for the scheduler,
about to be checked, with the check passed, or at its end. -/
inductive Loop
  | idle
  | parked
  | due
  | admitted
  | stopped
  deriving DecidableEq, Repr

structure State where
  server : Server
  conns : Table ℕ Stage := ∅
  loops : ℕ → Side → Loop := fun _ _ => .stopped

def State.setLoop (s : State) (conn : ℕ) (side : Side) (l : Loop) : State :=
  { s with loops := fun conn' side' => if conn' = conn ∧ side' = side then l else s.loops conn' side' }

inductive Act
  | verify (conn key : ℕ) (mesh : Bool) (now : Reading)
  | bind (conn : ℕ) (now : Reading)
  | register (conn : ℕ) (now : Reading)
  | unregister (conn : ℕ)
  | frame (conn : ℕ) (sendPacket : Bool) (length : ℕ)
  | packet (conn : ℕ)
  | wake (side : Side) (conn : ℕ) (ok : Bool)
  | check (side : Side) (conn : ℕ) (now : Reading)
  | finish (side : Side) (conn : ℕ)
  | stop (side : Side) (conn : ℕ)
  | apply (body : Bytes) (read : ℕ → Reading) (order : List ℕ)
  | reap (read : ℕ → Reading) (order : List ℕ)
  | status (read : ℕ → Reading) (order : List ℕ)
  | close

/-- `verifyClient`; what an unmanaged relay checks instead is left open. -/
def verifyClient (now : Reading) (k : ℕ) (mesh : Bool) (s : Server) : Bool × Server :=
  let (b, s') := bindingLocked now k s
  (s.policy.isNone || (!mesh && b.isSome), s')

def registerClient (now : Reading) (conn : ℕ) (c : Sclient) (s : Server) : Bool × Server :=
  let (allowed, s) := clientAllowedLocked now c s
  if allowed then (true, { s with clients := s.clients.insert conn { client := c, checked := now } })
  else (false, s)

/-- Where a loop goes with a new frame or packet, which waits if the scheduler is there. -/
def arrive (s : State) (side : Side) (conn : ℕ) (waits valid : Bool) : Option State :=
  if s.loops conn side = .idle then
    some (s.setLoop conn side (if waits then (if valid then .parked else .stopped) else .due))
  else none

def Server.covered (s : Server) (order : List ℕ) : Bool := s.clients.keys.all (· ∈ order)

def act (W : Wire) : Act → State → Option State
  | .verify conn k mesh now, s =>
    if s.conns.get? conn = none then
      let (ok, server) := verifyClient now k mesh s.server
      some { s with
        server := server
        conns := if ok then s.conns.insert conn (.verified k) else s.conns }
    else none
  | .bind conn now, s =>
    match s.conns.get? conn with
    | some (.verified k) =>
      let (b, server) := bindingLocked now k s.server
      some { s with
        server := server
        conns := match b with
          | some b => s.conns.insert conn (.bound ⟨k, b.tailnet, b.grant⟩)
          | none => s.conns.erase conn }
    | _ => none
  | .register conn now, s =>
    match s.conns.get? conn with
    | some (.bound c) =>
      let (ok, server) := registerClient now conn c s.server
      some { s with
        server := server
        conns := if ok then s.conns.insert conn (.accepted c) else s.conns.erase conn
        loops := fun conn' side => if ok ∧ conn' = conn then .idle else s.loops conn' side }
    | _ => none
  | .unregister conn, s =>
    some { s with server := { s.server with clients := s.server.clients.erase conn } }
  | .frame conn sendPacket length, s =>
    arrive s .receive conn (s.server.rx && sendPacket)
      (keyLen ≤ length && length - keyLen ≤ maxPacketSize)
  | .packet conn, s => arrive s .send conn s.server.tx true
  | .wake side conn ok, s =>
    if s.loops conn side = .parked then some (s.setLoop conn side (if ok then .due else .stopped))
    else none
  | .check side conn now, s =>
    match s.conns.get? conn with
    | some (.accepted c) =>
      if s.loops conn side = .due then
        let (allowed, server) := clientAllowedLocked now c s.server
        some ({ s with server := server }.setLoop conn side (if allowed then .admitted else .stopped))
      else none
    | _ => none
  | .finish side conn, s =>
    if s.loops conn side = .admitted then some (s.setLoop conn side .idle) else none
  | .stop side conn, s => some (s.setLoop conn side .stopped)
  | .apply body read order, s =>
    if s.server.covered order then
      some { s with server := (applyPolicy W read order body s.server).2 }
    else none
  | .reap read order, s =>
    if s.server.covered order then
      if s.server.closed then some s
      else some { s with server := reapLocked (read 0) (fun i => read (i + 1)) order s.server }
    else none
  | .status read order, s =>
    if s.server.covered order then
      some { s with server := (policyStatus read order s.server).2 }
    else none
  | .close, s => some { s with server := { s.server with closed := true, rx := false, tx := false } }

/-- A relay on which `EnableUniDERP` was just called. -/
def Start (s : State) : Prop := ∃ budget now, s = { server := Server.enable budget now {} }

def Step (W : Wire) (s : State) (a : Act) (s' : State) : Prop := act W a s = some s'

abbrev Run (W : Wire) := UniDERP.Run Start (Step W)

def Act.sweeps (s : Server) : Act → Bool
  | .reap _ _ => !s.closed
  | .status _ _ => true
  | _ => false

inductive ServerChange (W : Wire) (s : Server) : Act → Server → Prop
  | clock {a : Act} {s' : Server} (quiet : a.sweeps s = false) (same : SameButClock s s') :
      ServerChange W s a s'
  | registered {conn : ℕ} {now : Reading} {c : Sclient} {mid : Server} (same : SameButClock s mid)
      (bound : ∀ p, s.policy = some p → Bound p c now) :
      ServerChange W s (.register conn now)
        { mid with clients := mid.clients.insert conn { client := c, checked := now } }
  | unregistered (conn : ℕ) :
      ServerChange W s (.unregister conn) { s with clients := s.clients.erase conn }
  | installed {body : Bytes} {read : ℕ → Reading} {order : List ℕ} {p : Policy} {s' : Server}
      (covered : s.covered order) (installed : Installed W read order body p s s') :
      ServerChange W s (.apply body read order) s'
  | reaped {read : ℕ → Reading} {order : List ℕ} {a : Act} {mid s' : Server}
      (sweep : a = .reap read order ∨ a = .status read order) (covered : s.covered order)
      (reaped : Reaped (fun i => read (i + 1)) order s mid) (same : SameButClock mid s') :
      ServerChange W s a s'
  | closed : ServerChange W s .close { s with closed := true, rx := false, tx := false }

section Change

variable {W : Wire} {s s' : State} {a : Act}

theorem registerClient_change (now : Reading) (conn : ℕ) (c : Sclient) (s : Server) :
    ServerChange W s (.register conn now) (registerClient now conn c s).2 := by
  have hsame := clientAllowedLocked_same now c s
  unfold registerClient
  dsimp only
  by_cases hallowed : (clientAllowedLocked now c s).1 = true
  · rw [if_pos hallowed]
    exact .registered hsame fun p hp => clientAllowedLocked_bound hp hallowed
  · rw [if_neg hallowed]
    exact .clock rfl hsame

theorem applyPolicy_change {read : ℕ → Reading} {order : List ℕ} {body : Bytes} {s : Server}
    (hcovered : s.covered order) :
    ServerChange W s (.apply body read order) (applyPolicy W read order body s).2 := by
  have happlied := applyPolicy_applied W read order body s
  generalize (applyPolicy W read order body s).2 = s' at happlied ⊢
  generalize (applyPolicy W read order body s).1 = result at happlied
  cases happlied with
  | refused e same => exact .clock rfl same
  | repeated decoded stored identity revision digest same answer => exact .clock rfl same
  | installed installed answer => exact .installed hcovered installed

theorem arrive_server {side : Side} {conn : ℕ} {waits valid : Bool}
    (h : arrive s side conn waits valid = some s') : s'.server = s.server := by
  unfold arrive at h
  split_ifs at h <;> cases h <;> rfl

theorem Step.server (h : Step W s a s') {p : PolicyState} (hp : s.server.policy = some p) :
    ServerChange W s.server a s'.server := by
  have hnothing : ∀ {a : Act}, a.sweeps s.server = false → s'.server = s.server →
      ServerChange W s.server a s'.server := by
    intro a hq he
    rw [he]
    exact .clock hq (.refl _)
  unfold Step at h
  cases a <;> simp only [act] at h
  case verify conn k mesh now =>
    split_ifs at h <;> cases h
    all_goals exact .clock rfl (bindingLocked_same now k s.server)
  case bind conn now =>
    split at h <;> cases h
    exact .clock rfl (bindingLocked_same now _ s.server)
  case register conn now =>
    split at h <;> cases h
    exact registerClient_change now conn _ s.server
  case unregister conn =>
    cases h
    exact .unregistered conn
  -- A frame or packet that arrives changes the loop of its connection and nothing in the server.
  case frame => exact hnothing rfl (arrive_server h)
  case packet => exact hnothing rfl (arrive_server h)
  case wake =>
    split_ifs at h <;> cases h <;> exact hnothing rfl rfl
  case check side conn now =>
    split at h
    · split_ifs at h <;> cases h
      all_goals exact .clock rfl (clientAllowedLocked_same now _ s.server)
    · cases h
  case finish =>
    split_ifs at h
    cases h
    exact hnothing rfl rfl
  case stop =>
    cases h
    exact hnothing rfl rfl
  case apply body read order =>
    split_ifs at h with hcovered
    cases h
    exact applyPolicy_change hcovered
  case reap read order =>
    split_ifs at h with hcovered hclosed
    · cases h
      exact hnothing (by simp [Act.sweeps, hclosed]) rfl
    · cases h
      exact .reaped (.inl rfl) hcovered (reapLocked_reaped _ _ _ _) (.refl _)
  case status read order =>
    split_ifs at h with hcovered
    cases h
    obtain ⟨mid, hreaped, hsame, -⟩ := policyStatus_reaped hp
    exact .reaped (.inr rfl) hcovered hreaped hsame
  case close =>
    cases h
    exact .closed

end Change

/-- A policy is in force, and it binds every connection that is not cut. -/
structure Guarded (s : Server) : Prop where
  enabled : ∃ p, s.policy = some p
  bound : ∀ p, s.policy = some p → ∀ id r, s.clients.get? id = some r → r.cancelled = false →
    Bound p r.client r.checked

section Guarded

variable {W : Wire} {s s' : Server} {a : Act}

theorem mem_of_covered {order : List ℕ} (h : s.covered order) {id : ℕ} {r : Registered}
    (hr : s.clients.get? id = some r) : id ∈ order := by
  have hkey : id ∈ s.clients.keys := Table.mem_keys.mpr ⟨r, hr⟩
  simpa using List.all_eq_true.mp h id hkey

theorem Guarded.of_same (h : Guarded s) (hsame : SameButClock s s') : Guarded s' := by
  constructor
  · rw [hsame.policy]
    exact h.enabled
  · rw [hsame.policy, hsame.clients]
    exact h.bound

theorem Guarded.of_reaped {read : ℕ → Reading} {order : List ℕ} (h : Guarded s)
    (hcovered : s.covered order) (hr : Reaped read order s s') : Guarded s' := by
  constructor
  · rw [hr.policy]
    exact h.enabled
  · intro p hp id r hget hcut
    rw [hr.policy] at hp
    obtain ⟨r₀, hr₀, -⟩ := hr.clients id r hget
    exact (hr.bound p hp id (mem_of_covered hcovered hr₀) r hget hcut).1

theorem ServerChange.guarded (h : ServerChange W s a s') (hg : Guarded s) : Guarded s' := by
  cases h with
  | clock quiet same => exact hg.of_same same
  | registered same bound =>
    have hmid := hg.of_same same
    refine ⟨hmid.enabled, fun p hp id r hr hcut => ?_⟩
    rcases Table.get?_insert_eq_some.mp hr with ⟨-, rfl⟩ | ⟨-, hr⟩
    · exact bound p (same.policy ▸ hp)
    · exact hmid.bound p hp id r hr hcut
  | unregistered conn =>
    refine ⟨hg.enabled, fun p hp id r hr hcut => ?_⟩
    rw [Table.get?_erase] at hr
    split_ifs at hr
    exact hg.bound p hp id r hr hcut
  | installed covered installed =>
    refine ⟨⟨_, installed.policy⟩, fun p hp id r hr hcut => ?_⟩
    obtain ⟨r₀, hr₀, -⟩ := installed.clients id r hr
    exact (installed.bound p hp id (mem_of_covered covered hr₀) r hr hcut).1
  | reaped sweep covered reaped same => exact (hg.of_reaped covered reaped).of_same same
  | closed => exact ⟨hg.enabled, hg.bound⟩

theorem start_guarded {s : State} (h : Start s) : Guarded s.server := by
  obtain ⟨budget, now, rfl⟩ := h
  refine ⟨⟨_, rfl⟩, fun p _ id r hr => ?_⟩
  simp [Server.enable] at hr

theorem Run.guarded (r : Run W) {i : ℕ} (hi : i ≤ r.len) : Guarded (r.state i).server := by
  refine Reachable.invariant (I := fun s => Guarded s.server) (r.reachable hi)
    (fun _ => start_guarded) ?_
  intro s a s' _ hg hstep
  obtain ⟨p, hp⟩ := hg.enabled
  exact (Step.server hstep hp).guarded hg

/-- A sweep, and an application that changes the policy, read the clock for every connection
that they leave. -/
theorem ServerChange.checked (h : ServerChange W s a s') {read : ℕ → Reading} {order : List ℕ}
    (ha : a.sweeps s ∧ (a = .reap read order ∨ a = .status read order) ∨
      s'.policy ≠ s.policy ∧ ∃ body, a = .apply body read order)
    (hg : Guarded s) {id : ℕ} {r : Registered} (hr : s'.clients.get? id = some r)
    (hcut : r.cancelled = false) : ∃ i, r.checked = read i := by
  cases h with
  | clock quiet same =>
    rcases ha with ⟨hs, -⟩ | ⟨hp, -⟩
    · rw [quiet] at hs
      cases hs
    · exact absurd same.policy hp
  | registered same bound =>
    rcases ha with ⟨hs, -⟩ | ⟨-, body, ha⟩
    · cases hs
    · cases ha
  | unregistered conn =>
    rcases ha with ⟨hs, -⟩ | ⟨-, body, ha⟩
    · cases hs
    · cases ha
  | installed covered installed =>
    rcases ha with ⟨hs, -⟩ | ⟨-, body, ha⟩
    · cases hs
    · cases ha
      obtain ⟨r₀, hr₀, -⟩ := installed.clients id r hr
      exact (installed.bound _ installed.policy id (mem_of_covered covered hr₀) r hr hcut).2
  -- The first reading of the sweep is for the clock, the others are for the connections.
  | reaped sweep covered reaped same =>
    obtain ⟨p, hp⟩ := hg.enabled
    rw [same.clients] at hr
    obtain ⟨r₀, hr₀, -⟩ := reaped.clients id r hr
    obtain ⟨-, i, hi⟩ := reaped.bound p hp id (mem_of_covered covered hr₀) r hr hcut
    rcases ha with ⟨-, ha⟩ | ⟨-, body, ha⟩
    · rcases sweep with rfl | rfl <;> rcases ha with ha | ha <;> cases ha <;> exact ⟨i + 1, hi⟩
    · subst ha
      rcases sweep with hs | hs <;> cases hs
  | closed =>
    rcases ha with ⟨hs, -⟩ | ⟨-, body, ha⟩
    · cases hs
    · cases ha

end Guarded

/-- A frame is read or a packet is taken from a queue, and waits for the scheduler or not. -/
def Arrives (s : State) (conn : ℕ) (side : Side) (a : Act) (waits : Bool) : Prop :=
  match side with
  | .receive => ∃ sendPacket length, a = .frame conn sendPacket length ∧
      waits = (s.server.rx && sendPacket)
  | .send => a = .packet conn ∧ waits = s.server.tx

inductive LoopChange (s : State) (a : Act) (conn : ℕ) (side : Side) : Loop → Prop
  | kept : LoopChange s a conn side (s.loops conn side)
  | started : LoopChange s a conn side .idle
  | parked (idle : s.loops conn side = .idle) (arrives : Arrives s conn side a true) :
      LoopChange s a conn side .parked
  | unscheduled (idle : s.loops conn side = .idle) (arrives : Arrives s conn side a false) :
      LoopChange s a conn side .due
  | woken (parked : s.loops conn side = .parked) (wake : a = .wake side conn true) :
      LoopChange s a conn side .due
  | passed {now : Reading} {c : Sclient} (due : s.loops conn side = .due)
      (check : a = .check side conn now) (accepted : s.conns.get? conn = some (.accepted c))
      (bound : ∀ p, s.server.policy = some p → Bound p c now) :
      LoopChange s a conn side .admitted
  | stopped : LoopChange s a conn side .stopped

section Loops

variable {W : Wire} {s s' : State} {a : Act}

theorem LoopChange.of_setLoop {t : State} {conn₀ conn : ℕ} {side₀ side : Side} {l : Loop}
    (hl : LoopChange s a conn₀ side₀ l) (ht : t.loops = s.loops) :
    LoopChange s a conn side ((t.setLoop conn₀ side₀ l).loops conn side) := by
  by_cases h : conn = conn₀ ∧ side = side₀
  · obtain ⟨rfl, rfl⟩ := h
    simp only [State.setLoop, and_self, if_true]
    exact hl
  · simp only [State.setLoop, if_neg h, ht]
    exact .kept

theorem LoopChange.of_arrive {conn₀ conn : ℕ} {side₀ side : Side} {waits valid : Bool}
    (harrives : Arrives s conn₀ side₀ a waits) (h : arrive s side₀ conn₀ waits valid = some s') :
    LoopChange s a conn side (s'.loops conn side) := by
  unfold arrive at h
  by_cases hidle : s.loops conn₀ side₀ = .idle
  · rw [if_pos hidle, Option.some.injEq] at h
    subst h
    refine LoopChange.of_setLoop ?_ rfl
    cases waits with
    | false => exact .unscheduled hidle harrives
    | true => cases valid with
      | false => exact .stopped
      | true => exact .parked hidle harrives
  · rw [if_neg hidle] at h
    cases h

theorem Step.loop (h : Step W s a s') (conn : ℕ) (side : Side) :
    LoopChange s a conn side (s'.loops conn side) := by
  unfold Step at h
  cases a <;> simp only [act] at h
  case register conn₀ now =>
    split at h <;> cases h
    dsimp only
    split
    · exact .started
    · exact .kept
  case frame conn₀ sendPacket length =>
    have harrives : Arrives s conn₀ .receive (.frame conn₀ sendPacket length) _ :=
      ⟨sendPacket, length, rfl, rfl⟩
    exact .of_arrive harrives h
  case packet conn₀ =>
    have harrives : Arrives s conn₀ .send (.packet conn₀) _ := ⟨rfl, rfl⟩
    exact .of_arrive harrives h
  case wake side₀ conn₀ ok =>
    by_cases hparked : s.loops conn₀ side₀ = .parked
    · rw [if_pos hparked, Option.some.injEq] at h
      subst h
      refine LoopChange.of_setLoop ?_ rfl
      cases ok with
      | false => exact .stopped
      | true => exact .woken hparked rfl
    · rw [if_neg hparked] at h
      cases h
  case check side₀ conn₀ now =>
    split at h
    · next c haccepted =>
      by_cases hdue : s.loops conn₀ side₀ = .due
      · rw [if_pos hdue, Option.some.injEq] at h
        subst h
        refine LoopChange.of_setLoop ?_ rfl
        split_ifs with hallowed
        · exact .passed hdue rfl haccepted fun p hp => clientAllowedLocked_bound hp hallowed
        · exact .stopped
      · rw [if_neg hdue] at h
        cases h
    · cases h
  case finish =>
    split_ifs at h
    cases h
    exact .of_setLoop .started rfl
  case stop =>
    cases h
    exact .of_setLoop .stopped rfl
  case bind =>
    split at h <;> cases h
    exact .kept
  case unregister =>
    cases h
    exact .kept
  case close =>
    cases h
    exact .kept
  all_goals
    split_ifs at h <;> cases h <;> exact .kept

theorem Step.finished {side : Side} {conn : ℕ} (h : Step W s (.finish side conn) s') :
    s.loops conn side = .admitted := by
  simp only [Step, act] at h
  split_ifs at h with hadmitted
  exact hadmitted

/-- The frame handled or the packet written at the step `i` arrived at `h`, waited if it had to,
and passed a check against the policy in force at `j`. -/
structure CheckedBefore (r : Run W) (side : Side) (conn h j i : ℕ) (c : Sclient) (now : Reading) :
    Prop where
  order : h < j ∧ j < i
  arrival : ∃ waits, Arrives (r.state h) conn side (r.label h) waits ∧
    (waits → ∃ w, h < w ∧ w < j ∧ r.label w = .wake side conn true)
  waiting : ∀ l, h < l → l ≤ j →
    (r.state l).loops conn side = .parked ∨ (r.state l).loops conn side = .due
  check : r.label j = .check side conn now
  accepted : (r.state j).conns.get? conn = some (.accepted c)
  bound : ∃ p, (r.state j).server.policy = some p ∧ Bound p c now
  admitted : ∀ l, j < l → l ≤ i → (r.state l).loops conn side = .admitted

theorem Run.checked_before (r : Run W) {i : ℕ} (hi : i < r.len) {side : Side} {conn : ℕ}
    (hfinish : r.label i = .finish side conn) : ∃ h j c now, CheckedBefore r side conn h j i c now := by
  have hstart : (r.state 0).loops conn side = .stopped := by
    obtain ⟨budget, now, hs⟩ := r.start
    rw [hs]
  have hstep := r.next i hi
  rw [hfinish] at hstep
  -- Back from the work to the check that admitted it.
  obtain ⟨j, -, hji, hj, hadmitted⟩ := r.established
    (P := fun s => s.loops conn side = .admitted) (Nat.zero_le i) (by simp [hstart])
    (Step.finished hstep)
  have hchange := Step.loop (r.next j (hji.trans hi)) conn side
  rw [hadmitted (j + 1) (Nat.lt_succ_self j) hji] at hchange
  obtain ⟨now, c, hdue, hcheck, haccepted, hbound⟩ :
      ∃ now c, (r.state j).loops conn side = .due ∧ r.label j = .check side conn now ∧
        (r.state j).conns.get? conn = some (.accepted c) ∧
        ∀ p, (r.state j).server.policy = some p → Bound p c now := by
    generalize hl : Loop.admitted = l at hchange
    cases hchange with
    | kept => exact absurd hl.symm hj
    | passed due check accepted bound => exact ⟨_, _, due, check, accepted, bound⟩
    | _ => cases hl
  -- Back from the check to the arrival.
  obtain ⟨h, -, hhj, hh, hwaiting⟩ := r.established
    (P := fun s => s.loops conn side = .parked ∨ s.loops conn side = .due) (Nat.zero_le j)
    (by simp [hstart]) (Or.inr hdue)
  have hchange := Step.loop (r.next h (hhj.trans (hji.trans hi))) conn side
  have harrival : ∃ waits, Arrives (r.state h) conn side (r.label h) waits ∧
      (waits → (r.state (h + 1)).loops conn side = .parked) := by
    have hnext := hwaiting (h + 1) (Nat.lt_succ_self h) hhj
    generalize hl : (r.state (h + 1)).loops conn side = l at hchange hnext
    cases hchange with
    | kept => exact absurd hnext hh
    | parked idle arrives => exact ⟨true, arrives, fun _ => rfl⟩
    | unscheduled idle arrives => exact ⟨false, arrives, by simp⟩
    | woken parked wake => exact absurd (Or.inl parked) hh
    | passed due check accepted bound => exact absurd (Or.inr due) hh
    | _ => simp at hnext
  obtain ⟨waits, harrives, hparked⟩ := harrival
  obtain ⟨p, hp⟩ := (Run.guarded r (hji.trans hi).le).enabled
  refine ⟨h, j, c, now, ⟨hhj, hji⟩, ⟨waits, harrives, fun hw => ?_⟩, hwaiting, hcheck, haccepted,
    ⟨p, hp, hbound p hp⟩, hadmitted⟩
  -- A loop that was parked is due only once it was woken.
  obtain ⟨w, hhw, hwj, hw, hafter⟩ := r.established (P := fun s => s.loops conn side = .due)
    hhj (by simp [hparked hw]) hdue
  have hwparked := (hwaiting w hhw hwj.le).resolve_right hw
  have hchange := Step.loop (r.next w (hwj.trans (hji.trans hi))) conn side
  rw [hafter (w + 1) (Nat.lt_succ_self w) hwj] at hchange
  refine ⟨w, hhw, hwj, ?_⟩
  generalize hl : Loop.due = l at hchange
  cases hchange with
  | kept => exact absurd hl.symm hw
  | unscheduled idle arrives => simp [hwparked] at idle
  | woken parked wake => exact wake
  | _ => cases hl

/-- In every run of the relay, the current policy binds every registered connection that is not
cut as it was accepted, at the reading of its latest check; a sweep and a new policy check all of
them; and no frame is handled and no packet is written before its own check. -/
theorem Run.admission (r : Run W) :
    (∀ i ≤ r.len, ∀ id reg, (r.state i).server.clients.get? id = some reg →
      reg.cancelled = false → ∃ p, (r.state i).server.policy = some p ∧
        Bound p reg.client reg.checked) ∧
    (∀ i < r.len, ∀ read order,
      ((r.label i).sweeps (r.state i).server ∧
          (r.label i = .reap read order ∨ r.label i = .status read order) ∨
        (r.state (i + 1)).server.policy ≠ (r.state i).server.policy ∧
          ∃ body, r.label i = .apply body read order) →
      ∀ id reg, (r.state (i + 1)).server.clients.get? id = some reg → reg.cancelled = false →
        ∃ n, reg.checked = read n) ∧
    ∀ i < r.len, ∀ side conn, r.label i = .finish side conn →
      ∃ h j c now, CheckedBefore r side conn h j i c now := by
  refine ⟨fun i hi id reg hreg hcut => ?_, fun i hi read order ha id reg hreg hcut => ?_,
    fun i hi side conn hfinish => Run.checked_before r hi hfinish⟩
  · have hguarded := Run.guarded r hi
    obtain ⟨p, hp⟩ := hguarded.enabled
    exact ⟨p, hp, hguarded.bound p hp id reg hreg hcut⟩
  · have hguarded := Run.guarded r hi.le
    obtain ⟨p, hp⟩ := hguarded.enabled
    exact (Step.server (r.next i hi) hp).checked ha hguarded hreg hcut

end Loops

end UniDERP.Relay
