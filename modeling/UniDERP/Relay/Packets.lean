import UniDERP.Library.Ledger
import UniDERP.Library.Run
import UniDERP.Relay.Traffic

/-!
# Queued packets

The payload bytes that wait in the queues of the relay's connections are charged to a counter of
the tailnet and to one of its group.  `sendPkt`, the end of a sender, the reaper and the policy hold
the server's lock, but they take many steps under it; the senders take packets out of the queues
and lower the counters without it.  Every load and every addition is a step of its own here.
-/

namespace UniDERP.Relay.Packets

def groupQueueBytes : ℕ := 8 * 2 ^ 20

/-- The counters a packet can be charged to: one of `uniderpTraffic` by its id, or a group's. -/
inductive Account
  | tailnet (id : ℕ)
  | group (g : GroupID)
  deriving DecidableEq

def Account.limit : Account → ℕ
  | .tailnet _ => tailnetQueueBytes
  | .group _ => groupQueueBytes

/-- `pkt` with the counters that it was charged to.  The packets are numbered as they come. -/
structure Packet where
  id : ℕ
  size : ℕ
  disco : Bool
  charge : Option (ℕ × GroupID) := none
  deriving DecidableEq

/-- A packet whose release has begun, and whether the counter of the tailnet is lowered. -/
structure Release where
  packet : Packet
  half : Bool := false
  deriving DecidableEq

structure Conn where
  tailnet : String
  sendQueue : List Packet := []
  discoSendQueue : List Packet := []
  sending : Option Release := none
  ended : Bool := false
  sendClosed : Bool := false

inductive Work
  | idle
  /-- The packet fits the tailnet's counter. -/
  | sized (dst : ℕ) (p : Packet) (c : ℕ × GroupID)
  /-- It fits both counters. -/
  | fits (dst : ℕ) (p : Packet) (c : ℕ × GroupID)
  /-- The tailnet's counter is raised. -/
  | added (dst : ℕ) (p : Packet) (c : ℕ × GroupID)
  | trying (dst : ℕ) (p : Packet) (attempt : ℕ)
  | full (dst : ℕ) (p : Packet) (attempt : ℕ)
  | closing (conn : ℕ)
  | reaping (conns : List ℕ) (disco : Bool)
  deriving DecidableEq

/-- The relay's packets.  The code does not keep `ledger`, nor the number of packets `made`. -/
structure State where
  conns : Table ℕ Conn := ∅
  managed : Bool := false
  traffic : Traffic := {}
  groupQueued : GroupID → ℤ := fun _ => 0
  work : Work := .idle
  /-- A packet that the holder of the lock is releasing. -/
  taken : Option Release := none
  made : ℕ := 0
  ledger : Ledger Account := {}

namespace State

def counter (s : State) : Account → ℤ
  | .tailnet id => ((s.traffic.counters.get? id).map (·.queued)).getD 0
  | .group g => s.groupQueued g

def add (a : Account) (n : ℤ) (s : State) : State :=
  match a with
  | .tailnet id =>
    { s with traffic := { s.traffic with
        counters := s.traffic.counters.modify id fun c => { c with queued := c.queued + n } } }
  | .group g => { s with groupQueued := Function.update s.groupQueued g (s.groupQueued g + n) }

def charge (e : Charge Account) (s : State) : State :=
  { s.add e.account e.size with ledger := s.ledger.charge e }

def lower (e : Charge Account) (s : State) : State :=
  { s.add e.account (-e.size) with ledger := s.ledger.release e }

end State

def Packet.tailnetCharge (p : Packet) (c : ℕ × GroupID) : Charge Account :=
  ⟨p.id, .tailnet c.1, p.size⟩

def Packet.groupCharge (p : Packet) (c : ℕ × GroupID) : Charge Account := ⟨p.id, .group c.2, p.size⟩

/-- One of the two additions of `uniderpRelease`. -/
def State.release (r : Release) (s : State) : Option Release × State :=
  match r.packet.charge with
  | none => (none, s)
  | some c =>
    if r.half then (none, s.lower (r.packet.groupCharge c))
    else (some { r with half := true }, s.lower (r.packet.tailnetCharge c))

def Conn.queue (disco : Bool) (c : Conn) : List Packet :=
  if disco then c.discoSendQueue else c.sendQueue

def Conn.setQueue (disco : Bool) (q : List Packet) (c : Conn) : Conn :=
  if disco then { c with discoSendQueue := q } else { c with sendQueue := q }

def Conn.pop (disco : Bool) (c : Conn) : Option (Packet × Conn) :=
  match c.queue disco with
  | [] => none
  | p :: rest => some (p, c.setQueue disco rest)

def State.take (conn : ℕ) (x : Packet × Conn) (work : Work) (s : State) : State :=
  { s with conns := s.conns.insert conn x.2, taken := some { packet := x.1 }, work := work }

/-- The next step under the lock.  `gone` says whether the destination is done, and `disco` which
queue `onSendLoopDone` looks at first. -/
def State.proceed (depth : ℕ) (gone disco : Bool) (s : State) : Option State :=
  match s.work with
  | .idle => none
  | .sized dst p c =>
    some { s with
      work := if groupQueueBytes < s.groupQueued c.2 + p.size then .idle else .fits dst p c }
  | .fits dst p c => some { s.charge (p.tailnetCharge c) with work := .added dst p c }
  | .added dst p c =>
    some { s.charge (p.groupCharge c) with work := .trying dst { p with charge := some c } 0 }
  | .trying dst p attempt =>
    if gone || 3 ≤ attempt then some { s with work := .idle, taken := some { packet := p } }
    else (s.conns.get? dst).map fun c =>
      if (c.queue p.disco).length < depth then
        { s with
          conns := s.conns.insert dst (c.setQueue p.disco (c.queue p.disco ++ [p]))
          work := .idle }
      else { s with work := .full dst p attempt }
  | .full dst p attempt =>
    (s.conns.get? dst).map fun c =>
      match c.pop p.disco with
      | some x => s.take dst x (.trying dst p (attempt + 1))
      | none => { s with work := .trying dst p (attempt + 1) }
  | .closing conn =>
    (s.conns.get? conn).map fun c =>
      match (c.pop disco).or (c.pop !disco) with
      | some x => s.take conn x s.work
      | none => { s with work := .idle }
  | .reaping [] _ => some { s with work := .idle }
  | .reaping (conn :: conns) second =>
    (s.conns.get? conn).map fun c =>
      match c.pop second with
      | some x => s.take conn x s.work
      | none =>
        { s with work := if second then .reaping conns false else .reaping (conn :: conns) true }

inductive Act
  | accept (conn : ℕ) (tailnet : String)
  | enable
  | apply (rules : List TailnetQoS) (conns : List ℕ)
  | reap (conns : List ℕ)
  | sendPkt (dst size : ℕ) (disco allowed : Bool)
  | proceed (gone disco : Bool)
  | release
  | onSendLoopDone (conn : ℕ)
  | dequeue (conn : ℕ) (disco : Bool)
  | sent (conn : ℕ)
  | leave (conn : ℕ)

/-- `sendPkt` up to the first load: the packet is dropped, or it goes on. -/
def State.reserve (dst size : ℕ) (disco allowed : Bool) (c : Conn) (s : State) : State :=
  let p : Packet := { id := s.made, size := size, disco := disco }
  let s := { s with made := s.made + 1 }
  if c.sendClosed then s
  else if !s.managed then { s with work := .trying dst p 0 }
  else if !allowed then s
  else
    match s.traffic.current.get? c.tailnet with
    | none => s
    | some id =>
      match s.traffic.counters.get? id with
      | none => s
      | some counter =>
        { s with
          work := if tailnetQueueBytes < counter.queued + size then .idle
            else .sized dst p (id, counter.group) }

/-- `ApplyUniDERPPolicy` with its counters, and the reaper after it. -/
def State.install (rules : List TailnetQoS) (conns : List ℕ) (s : State) : State :=
  { s with managed := true, traffic := s.traffic.install rules, work := .reaping conns false }

/-- A step; `conns` are the connections that the reaper finds not allowed. -/
def act (depth : ℕ) : Act → State → Option State
  | .accept conn tailnet, s =>
    if s.conns.get? conn = none then
      some { s with conns := s.conns.insert conn { tailnet := tailnet } }
    else none
  | .proceed gone disco, s => if s.taken = none then s.proceed depth gone disco else none
  | .release, s => s.taken.map fun r => { (s.release r).2 with taken := (s.release r).1 }
  | .dequeue conn disco, s => do
    let c ← s.conns.get? conn
    let (p, c) ← c.pop disco
    if c.sending = none ∧ !c.ended then
      some { s with conns := s.conns.insert conn { c with sending := some { packet := p } } }
    else none
  | .sent conn, s => do
    let c ← s.conns.get? conn
    let r ← c.sending
    let (rest, s') := s.release r
    some { s' with conns := s.conns.insert conn { c with sending := rest } }
  | .leave conn, s => do
    let c ← s.conns.get? conn
    if c.sending = none then some { s with conns := s.conns.insert conn { c with ended := true } }
    else none
  | a, s =>
    if s.work = .idle ∧ s.taken = none then
      match a with
      | .enable => some { s with managed := true }
      | .apply rules conns => some (s.install rules conns)
      | .reap conns => some { s with work := .reaping conns false }
      | .sendPkt dst size disco allowed => (s.conns.get? dst).map (s.reserve dst size disco allowed)
      | .onSendLoopDone conn => do
        let c ← s.conns.get? conn
        if c.ended ∧ !c.sendClosed then
          some { s with
            conns := s.conns.insert conn { c with sendClosed := true }
            work := .closing conn }
        else none
      | _ => none
    else none

def Start (s : State) : Prop := s = {}

def Step (depth : ℕ) (s : State) (a : Act) (s' : State) : Prop := act depth a s = some s'

abbrev Run (depth : ℕ) := UniDERP.Run Start (Step depth)

def Packet.held (p : Packet) : Multiset (Charge Account) :=
  p.charge.elim 0 fun c => p.tailnetCharge c ::ₘ {p.groupCharge c}

def Release.held (r : Release) : Multiset (Charge Account) :=
  if r.half then r.packet.charge.elim 0 fun c => {r.packet.groupCharge c} else r.packet.held

def Conn.held (c : Conn) : Multiset (Charge Account) :=
  (c.sendQueue.map Packet.held).sum + (c.discoSendQueue.map Packet.held).sum +
    c.sending.elim 0 Release.held

def Work.held : Work → Multiset (Charge Account)
  | .added _ p c => {p.tailnetCharge c}
  | .trying _ p _ => p.held
  | .full _ p _ => p.held
  | _ => 0

/-- The charges of the packets that are in a queue or in somebody's hands. -/
def State.held (s : State) : Multiset (Charge Account) :=
  s.work.held + s.taken.elim 0 Release.held + (s.conns.values.map Conn.held).sum

section Held

variable {s s' : State} {c c' : Conn} {conn : ℕ}

def State.beside (conn : ℕ) (s : State) : Multiset (Charge Account) :=
  ((s.conns.erase conn).values.map Conn.held).sum

theorem held_insert (s : State) (conn : ℕ) (c : Conn) :
    ((s.conns.insert conn c).values.map Conn.held).sum = c.held + s.beside conn := by
  rw [((s.conns.values_insert conn c).map Conn.held).sum_eq, List.map_cons, List.sum_cons]
  rfl

theorem held_of_get? (h : s.conns.get? conn = some c) :
    (s.conns.values.map Conn.held).sum = c.held + s.beside conn := by
  rw [((Table.values_of_get? h).map Conn.held).sum_eq, List.map_cons, List.sum_cons]
  rfl

theorem setQueue_held (disco : Bool) (q : List Packet) (c : Conn) :
    (c.setQueue disco q).held + ((c.queue disco).map Packet.held).sum =
      c.held + (q.map Packet.held).sum := by
  cases disco <;> simp only [Conn.setQueue, Conn.queue, Conn.held, if_true, Bool.false_eq_true,
    if_false] <;> abel

theorem pop_held {disco : Bool} {x : Packet × Conn} (h : c.pop disco = some x) :
    c.held = x.1.held + x.2.held := by
  unfold Conn.pop at h
  split at h
  · cases h
  · next p rest hq =>
    cases h
    have hset := setQueue_held disco rest c
    rw [hq, List.map_cons, List.sum_cons, ← add_assoc] at hset
    rw [add_comm p.held]
    exact (add_right_cancel hset).symm

theorem push_held (p : Packet) (c : Conn) :
    (c.setQueue p.disco (c.queue p.disco ++ [p])).held = c.held + p.held := by
  have hset := setQueue_held p.disco (c.queue p.disco ++ [p]) c
  rw [List.map_append, List.sum_append, ← add_assoc, add_right_comm] at hset
  simpa using add_right_cancel hset

end Held

def State.has (s : State) : Account → Prop
  | .tailnet id => (s.traffic.counters.get? id).isSome
  | .group _ => True

def Work.coming : Work → List (Charge Account)
  | .sized _ p c => [p.tailnetCharge c, p.groupCharge c]
  | .fits _ p c => [p.tailnetCharge c, p.groupCharge c]
  | .added _ p c => [p.groupCharge c]
  | _ => []

def Work.fitting : Work → List (Charge Account)
  | .sized _ p c => [p.tailnetCharge c]
  | .fits _ p c => [p.tailnetCharge c, p.groupCharge c]
  | .added _ p c => [p.groupCharge c]
  | _ => []

/-- A step moves packets around, makes one charge or releases one. -/
inductive Effect (s s' : State) : Prop
  | moves (held : s'.held = s.held) (ledger : s'.ledger = s.ledger)
      (counter : ∀ a, s'.counter a = s.counter a)
  | charges (e : Charge Account) (pending : e ∈ s.work.coming ∧ e ∈ s.work.fitting)
      (held : s'.held = e ::ₘ s.held) (ledger : s'.ledger = s.ledger.charge e)
      (counter : ∀ a, s'.counter a = s.counter a + if e.account = a then (e.size : ℤ) else 0)
  | releases (e : Charge Account) (held : s.held = e ::ₘ s'.held)
      (ledger : s'.ledger = s.ledger.release e)
      (counter : ∀ a, s'.counter a = s.counter a - if e.account = a then (e.size : ℤ) else 0)

structure Frame (s s' : State) : Prop where
  has : ∀ a, s.has a → s'.has a
  made : s.made ≤ s'.made
  sound : s.traffic.Sound → s'.traffic.Sound

/-- Each counter is the sum of what is outstanding, and within its limit. -/
structure Accounted (s : State) : Prop where
  balanced : s.ledger.Balanced s.held
  counter : ∀ a, s.counter a = balance a s.held
  bounded : ∀ a, s.counter a ≤ a.limit

/-- The charges that were made, and those that the holder of the lock is about to make. -/
structure Staged (s : State) : Prop where
  sound : s.traffic.Sound
  old : ∀ e ∈ s.ledger.charged, e.owner < s.made ∧ s.has e.account
  coming : ∀ e ∈ s.work.coming, e ∉ s.ledger.charged ∧ e.owner < s.made ∧ s.has e.account
  room : ∀ e ∈ s.work.fitting, s.counter e.account + e.size ≤ e.account.limit

section Effect

variable {s s' : State}

theorem Effect.accounted (h : Effect s s') (hs : Staged s) (ha : Accounted s) : Accounted s' := by
  cases h with
  | moves held ledger counter =>
    refine ⟨by rw [ledger, held]; exact ha.balanced, fun a => ?_, fun a => ?_⟩
    · rw [counter, held, ha.counter]
    · rw [counter]
      exact ha.bounded a
  | charges e pending held ledger counter =>
    refine ⟨?_, fun a => ?_, fun a => ?_⟩
    · rw [ledger, held]
      exact ha.balanced.charge (hs.coming e pending.1).1
    · rw [counter, held, balance_cons, ha.counter]
      push_cast
      ring
    · rw [counter]
      split_ifs with hea
      · rw [← hea]
        exact hs.room e pending.2
      · rw [add_zero]
        exact ha.bounded a
  | releases e held ledger counter =>
    refine ⟨?_, fun a => ?_, fun a => ?_⟩
    · have hbalanced := ha.balanced
      rw [held] at hbalanced
      rw [ledger]
      exact hbalanced.release
    · rw [counter, ha.counter, held, balance_cons]
      push_cast
      ring
    · rw [counter]
      refine le_trans ?_ (ha.bounded a)
      split_ifs <;> omega

theorem Staged.next (hs : Staged s) (hf : Frame s s')
    (hcharged : s'.ledger.charged = s.ledger.charged) (hcounter : ∀ a, s'.counter a ≤ s.counter a)
    (hcoming : ∀ e ∈ s'.work.coming, e ∈ s.work.coming)
    (hfitting : ∀ e ∈ s'.work.fitting, e ∈ s.work.fitting) : Staged s' := by
  refine ⟨hf.sound hs.sound, fun e he => ?_, fun e he => ?_, fun e he => ?_⟩
  · obtain ⟨howner, hhas⟩ := hs.old e (hcharged ▸ he)
    exact ⟨howner.trans_le hf.made, hf.has _ hhas⟩
  · obtain ⟨hnot, howner, hhas⟩ := hs.coming e (hcoming e he)
    exact ⟨hcharged ▸ hnot, howner.trans_le hf.made, hf.has _ hhas⟩
  · have := hs.room e (hfitting e he)
    have := hcounter e.account
    omega

theorem counter_add {a : Account} (n : ℤ) (h : s.has a) (b : Account) :
    (s.add a n).counter b = s.counter b + if a = b then n else 0 := by
  cases a with
  | tailnet id =>
    obtain ⟨c, hc⟩ := Option.isSome_iff_exists.mp h
    cases b with
    | tailnet id' =>
      simp only [State.add, State.counter, Table.get?_modify, Account.tailnet.injEq]
      by_cases hid : id' = id
      · subst hid
        simp [hc]
      · simp [hid, Ne.symm hid]
    | group g => simp [State.add, State.counter]
  | group g =>
    cases b with
    | tailnet id => simp [State.add, State.counter]
    | group g' =>
      simp only [State.add, State.counter, Function.update_apply, Account.group.injEq]
      by_cases hg : g' = g
      · subst hg
        simp
      · simp [hg, Ne.symm hg]

theorem add_frame (a : Account) (n : ℤ) (s : State) : Frame s (s.add a n) := by
  cases a with
  | tailnet id =>
    refine ⟨fun b hb => ?_, le_rfl, fun hs => hs.modify _ _⟩
    cases b with
    | group => trivial
    | tailnet id' =>
      simp only [State.has, State.add, Table.get?_modify] at hb ⊢
      split_ifs <;> simp [hb]
  | group g => exact ⟨fun b hb => by cases b <;> exact hb, le_rfl, id⟩

structure Good (s s' : State) : Prop where
  effect : Effect s s'
  staged : Staged s'

/-- A step that only moves packets. -/
theorem Staged.moves (hs : Staged s) (hheld : s'.held = s.held) (hledger : s'.ledger = s.ledger)
    (htraffic : s'.traffic = s.traffic) (hgroup : s'.groupQueued = s.groupQueued)
    (hmade : s.made ≤ s'.made) (hwork : s'.work = s.work ∨ s'.work.coming = [] ∧ s'.work.fitting = []) :
    Good s s' := by
  have hcounter : ∀ a, s'.counter a = s.counter a := by
    intro a
    cases a <;> simp only [State.counter, htraffic, hgroup]
  have hhas : ∀ a, s.has a → s'.has a := by
    intro a ha
    cases a with
    | tailnet id => simpa only [State.has, htraffic] using ha
    | group g => trivial
  refine ⟨.moves hheld hledger hcounter, hs.next ⟨hhas, hmade, by rw [htraffic]; exact id⟩
    (by rw [hledger]) (fun a => (hcounter a).le) ?_ ?_⟩
  · rcases hwork with hwork | ⟨hnone, -⟩
    · rw [hwork]
      exact fun e he => he
    · simp [hnone]
  · rcases hwork with hwork | ⟨-, hnone⟩
    · rw [hwork]
      exact fun e he => he
    · simp [hnone]

theorem Staged.turns (hs : Staged s) {work : Work} (hheld : work.held = s.work.held)
    (hnone : work.coming = [] ∧ work.fitting = []) : Good s { s with work := work } :=
  hs.moves (by simp only [State.held, hheld]) rfl rfl rfl le_rfl (.inr hnone)

theorem Staged.take (hs : Staged s) {conn : ℕ} {c : Conn} {disco : Bool} {x : Packet × Conn}
    {work : Work} (hc : s.conns.get? conn = some c) (hx : c.pop disco = some x)
    (htaken : s.taken = none)
    (hwork : work.held = s.work.held) (hnone : work.coming = [] ∧ work.fitting = []) :
    Good s (s.take conn x work) := by
  refine hs.moves ?_ rfl rfl rfl le_rfl (.inr hnone)
  simp only [State.held, State.take, hwork, htaken, held_insert, held_of_get? hc, pop_held hx,
    Option.elim_some, Option.elim_none, Release.held, Bool.false_eq_true, if_false]
  abel

section Add

variable (a : Account) (n : ℤ) (s : State)

@[simp] theorem add_conns : (s.add a n).conns = s.conns := by cases a <;> rfl

@[simp] theorem add_work : (s.add a n).work = s.work := by cases a <;> rfl

@[simp] theorem add_taken : (s.add a n).taken = s.taken := by cases a <;> rfl

@[simp] theorem add_made : (s.add a n).made = s.made := by cases a <;> rfl

end Add

theorem Staged.charge (hs : Staged s) {e : Charge Account} {work : Work}
    (hpending : e ∈ s.work.coming ∧ e ∈ s.work.fitting) (hheld : work.held = e ::ₘ s.work.held)
    (hcoming : ∀ e' ∈ work.coming, e' ∈ s.work.coming ∧ e'.account ≠ e.account)
    (hfitting : ∀ e' ∈ work.fitting, e' ∈ s.work.fitting ∧ e'.account ≠ e.account) :
    Good s { s.charge e with work := work } := by
  obtain ⟨-, howner, hhas⟩ := hs.coming e hpending.1
  have hframe := add_frame e.account e.size s
  have hcounter := counter_add e.size hhas
  refine ⟨.charges e hpending ?_ rfl hcounter, hframe.sound hs.sound, fun e' he' => ?_,
    fun e' he' => ?_, fun e' he' => ?_⟩
  · simp only [State.held, State.charge, add_conns, add_taken, hheld, Multiset.cons_add]
  · rw [State.charge, Ledger.charge, Multiset.mem_cons] at he'
    rcases he' with rfl | he'
    · exact ⟨howner.trans_le hframe.made, hframe.has _ hhas⟩
    · exact ⟨(hs.old e' he').1.trans_le hframe.made, hframe.has _ (hs.old e' he').2⟩
  · obtain ⟨hmem, hne⟩ := hcoming e' he'
    obtain ⟨hnot, howner', hhas'⟩ := hs.coming e' hmem
    refine ⟨?_, howner'.trans_le hframe.made, hframe.has _ hhas'⟩
    rw [State.charge, Ledger.charge, Multiset.mem_cons, not_or]
    exact ⟨fun h => hne (by rw [h]), hnot⟩
  · obtain ⟨hmem, hne⟩ := hfitting e' he'
    have hroom := hs.room e' hmem
    have hsame := hcounter e'.account
    rw [if_neg (Ne.symm hne), add_zero] at hsame
    rw [← hsame] at hroom
    exact hroom

theorem Staged.lower (hs : Staged s) (ha : Accounted s) {e : Charge Account} (conns : Table ℕ Conn)
    (taken : Option Release)
    (hheld : s.held = e ::ₘ ({ s.lower e with conns := conns, taken := taken } : State).held) :
    Good s { s.lower e with conns := conns, taken := taken } := by
  have hmem : e ∈ s.held := by
    rw [hheld]
    exact Multiset.mem_cons_self _ _
  have hhas := (hs.old e (ha.balanced.mem_charged hmem)).2
  have hframe := add_frame e.account (-e.size) s
  have hcounter : ∀ a, (s.add e.account (-e.size)).counter a =
      s.counter a - if e.account = a then (e.size : ℤ) else 0 := by
    intro a
    rw [counter_add _ hhas]
    split_ifs <;> ring
  refine ⟨.releases e hheld rfl hcounter, hs.next ⟨hframe.has, hframe.made, hframe.sound⟩ rfl ?_ ?_ ?_⟩
  · intro a
    refine (hcounter a).le.trans ?_
    split_ifs <;> omega
  · simp only [State.lower, add_work]
    exact fun e he => he
  · simp only [State.lower, add_work]
    exact fun e he => he

theorem release_cases (r : Release) (s : State) :
    (r.held = 0 ∧ s.release r = (none, s)) ∨
      ∃ e, r.held = e ::ₘ (s.release r).1.elim 0 Release.held ∧ (s.release r).2 = s.lower e := by
  unfold State.release
  cases hcharge : r.packet.charge with
  | none =>
    refine .inl ⟨?_, rfl⟩
    simp [Release.held, Packet.held, hcharge]
  | some c =>
    refine .inr ?_
    dsimp only
    split_ifs with hhalf
    · refine ⟨_, ?_, rfl⟩
      simp [Release.held, hcharge, hhalf]
    · refine ⟨_, ?_, rfl⟩
      simp [Release.held, Packet.held, hcharge, hhalf]

theorem proceed_good {depth : ℕ} {gone disco : Bool} (hs : Staged s) (htaken : s.taken = none)
    (h : s.proceed depth gone disco = some s') : Good s s' := by
  cases hwork : s.work <;> simp only [State.proceed, hwork] at h
  case idle => cases h
  case sized dst p c =>
    cases h
    split_ifs with hfull
    · exact hs.turns (by rw [hwork]; rfl) ⟨rfl, rfl⟩
    · -- The group's counter was read: until it is raised it can only be lowered.
      have hheld : ({ s with work := .fits dst p c } : State).held = s.held := by
        simp [State.held, Work.held, hwork]
      refine ⟨.moves hheld rfl fun _ => rfl, hs.sound, hs.old, ?_, ?_⟩
      · have hcoming := hs.coming
        rw [hwork] at hcoming
        exact hcoming
      · intro e he
        have hroom := hs.room
        rw [hwork] at hroom
        simp only [Work.fitting, List.mem_cons, List.not_mem_nil, or_false] at he
        rcases he with rfl | rfl
        · exact hroom _ (by simp [Work.fitting])
        · simp only [Packet.groupCharge, State.counter, Account.limit]
          omega
  case fits dst p c =>
    cases h
    refine hs.charge (by simp [hwork, Work.coming, Work.fitting]) (by simp [hwork, Work.held]) ?_ ?_
    · intro e he
      simp only [Work.coming, List.mem_cons, List.not_mem_nil, or_false] at he
      subst he
      exact ⟨by simp [hwork, Work.coming], by simp [Packet.groupCharge, Packet.tailnetCharge]⟩
    · intro e he
      simp only [Work.fitting, List.mem_cons, List.not_mem_nil, or_false] at he
      subst he
      exact ⟨by simp [hwork, Work.fitting], by simp [Packet.groupCharge, Packet.tailnetCharge]⟩
  case added dst p c =>
    cases h
    refine hs.charge (by simp [hwork, Work.coming, Work.fitting]) ?_ (by simp [Work.coming])
      (by simp [Work.fitting])
    rw [hwork, Work.held, Work.held, Packet.held, Option.elim_some]
    exact Multiset.cons_swap _ _ 0
  case trying dst p attempt =>
    split_ifs at h
    · cases h
      refine hs.moves ?_ rfl rfl rfl le_rfl (.inr ⟨rfl, rfl⟩)
      simp [State.held, Work.held, hwork, htaken, Release.held]
    · obtain ⟨c, hc, rfl⟩ := Option.map_eq_some_iff.mp h
      split_ifs
      · refine hs.moves ?_ rfl rfl rfl le_rfl (.inr ⟨rfl, rfl⟩)
        simp only [State.held, Work.held, hwork, held_insert, held_of_get? hc, push_held]
        abel
      · exact hs.turns (by rw [hwork]; rfl) ⟨rfl, rfl⟩
  case full dst p attempt =>
    obtain ⟨c, hc, rfl⟩ := Option.map_eq_some_iff.mp h
    cases hpop : c.pop p.disco with
    | some x => exact hs.take hc hpop htaken (by rw [hwork]; rfl) ⟨rfl, rfl⟩
    | none => exact hs.turns (by rw [hwork]; rfl) ⟨rfl, rfl⟩
  case closing conn =>
    obtain ⟨c, hc, rfl⟩ := Option.map_eq_some_iff.mp h
    cases hpop : (c.pop disco).or (c.pop !disco) with
    | some x =>
      rcases Option.or_eq_some_iff.mp hpop with hx | ⟨-, hx⟩
      · exact hs.take hc hx htaken (by rw [hwork]) ⟨rfl, rfl⟩
      · exact hs.take hc hx htaken (by rw [hwork]) ⟨rfl, rfl⟩
    | none => exact hs.turns (by rw [hwork]; rfl) ⟨rfl, rfl⟩
  case reaping conns second =>
    cases conns with
    | nil =>
      cases h
      exact hs.turns (by rw [hwork]; rfl) ⟨rfl, rfl⟩
    | cons conn conns =>
      obtain ⟨c, hc, rfl⟩ := Option.map_eq_some_iff.mp h
      cases hpop : c.pop second with
      | some x => exact hs.take hc hpop htaken (by rw [hwork]) ⟨rfl, rfl⟩
      | none =>
        dsimp only
        split_ifs
        · exact hs.turns (by rw [hwork]; rfl) ⟨rfl, rfl⟩
        · exact hs.turns (by rw [hwork]; rfl) ⟨rfl, rfl⟩

theorem reserve_good {dst size : ℕ} {disco allowed : Bool} {c : Conn} (hs : Staged s)
    (hwork : s.work = .idle) : Good s (s.reserve dst size disco allowed c) := by
  have hdrop : Good s { s with made := s.made + 1 } :=
    hs.moves rfl rfl rfl rfl (Nat.le_succ _) (.inl rfl)
  unfold State.reserve
  dsimp only
  split_ifs
  · exact hdrop
  · exact hs.moves (by simp [State.held, Work.held, hwork, Packet.held]) rfl rfl rfl (Nat.le_succ _)
      (.inr ⟨rfl, rfl⟩)
  · exact hdrop
  cases hid : s.traffic.current.get? c.tailnet with
  | none => exact hdrop
  | some id =>
    dsimp only
    cases hcounter : s.traffic.counters.get? id with
    | none => exact hdrop
    | some counter =>
      dsimp only
      split_ifs with hfull
      · exact hs.moves (by simp [State.held, Work.held, hwork]) rfl rfl rfl (Nat.le_succ _)
          (.inr ⟨rfl, rfl⟩)
      · -- No charge has the number of the new packet.
        refine ⟨.moves ?_ rfl fun _ => rfl, hs.sound, fun e he => ?_, fun e he => ?_, fun e he => ?_⟩
        · simp [State.held, Work.held, hwork]
        · exact ⟨(hs.old e he).1.trans (Nat.lt_succ_self _), (hs.old e he).2⟩
        · have howner : e.owner = s.made ∧ s.has e.account := by
            simp only [Work.coming, List.mem_cons, List.not_mem_nil, or_false] at he
            rcases he with rfl | rfl
            · exact ⟨rfl, by simp [Packet.tailnetCharge, State.has, hcounter]⟩
            · exact ⟨rfl, trivial⟩
          refine ⟨fun hold => ?_, howner.1 ▸ Nat.lt_succ_self _, howner.2⟩
          have := (hs.old e hold).1
          omega
        · simp only [Work.fitting, List.mem_singleton] at he
          subst he
          simp only [Packet.tailnetCharge, State.counter, hcounter, Option.map_some, Option.getD_some,
            Account.limit]
          omega

theorem install_good {rules : List TailnetQoS} {conns : List ℕ} (hs : Staged s)
    (hwork : s.work = .idle) : Good s (s.install rules conns) := by
  obtain ⟨hsound, hgrows, -⟩ := hs.sound.install rules
  have hcounter : ∀ a, (s.install rules conns).counter a = s.counter a := by
    intro a
    cases a with
    | group g => rfl
    | tailnet id =>
      simp only [State.counter, State.install]
      cases hold : s.traffic.counters.get? id with
      | some c =>
        obtain ⟨g, hg⟩ := hgrows.kept id c hold
        rw [hg]
        rfl
      | none =>
        cases hnew : (s.traffic.install rules).counters.get? id with
        | none => rfl
        | some c =>
          obtain ⟨g, rfl⟩ := hgrows.fresh id c hnew hold
          rfl
  refine ⟨.moves ?_ rfl hcounter, hs.next ⟨fun a ha => ?_, le_rfl, fun _ => hsound⟩ rfl
    (fun a => (hcounter a).le) (by simp [State.install, Work.coming])
    (by simp [State.install, Work.fitting])⟩
  · simp [State.held, State.install, Work.held, hwork]
  · cases a with
    | group g => trivial
    | tailnet id =>
      obtain ⟨c, hc⟩ := Option.isSome_iff_exists.mp ha
      obtain ⟨g, hg⟩ := hgrows.kept id c hc
      simp [State.has, State.install, hg]

theorem Step.good {depth : ℕ} {a : Act} (h : Step depth s a s') (hs : Staged s) (ha : Accounted s) :
    Good s s' := by
  unfold Step at h
  cases a <;> simp only [act] at h
  case accept conn tailnet =>
    split_ifs at h with hnone
    cases h
    refine hs.moves ?_ rfl rfl rfl le_rfl (.inl rfl)
    have hbeside : s.beside conn = (s.conns.values.map Conn.held).sum := by
      rw [State.beside, Table.erase_eq_self hnone]
    simp only [State.held, held_insert, hbeside]
    simp [Conn.held]
  case proceed gone disco =>
    split_ifs at h with htaken
    exact proceed_good hs htaken h
  -- A packet without a charge is only dropped; for another one each release lowers one of the
  -- two counters.
  case release =>
    obtain ⟨r, hr, rfl⟩ := Option.map_eq_some_iff.mp h
    rcases release_cases r s with ⟨hzero, hsame⟩ | ⟨e, hheld, hlower⟩
    · rw [hsame]
      refine hs.moves ?_ rfl rfl rfl le_rfl (.inl rfl)
      simp [State.held, hr, hzero]
    · rw [hlower]
      refine hs.lower ha (s.lower e).conns _ ?_
      simp only [State.held, State.lower, add_conns, add_work, hr, Option.elim_some, hheld]
      rw [← Multiset.singleton_add, ← Multiset.singleton_add]
      abel
  case dequeue conn disco =>
    obtain ⟨c, hc, h⟩ := Option.bind_eq_some_iff.mp h
    obtain ⟨⟨p, c'⟩, hpop, h⟩ := Option.bind_eq_some_iff.mp h
    dsimp only at h
    split_ifs at h with hidle
    cases h
    refine hs.moves ?_ rfl rfl rfl le_rfl (.inl rfl)
    simp only [State.held, held_insert, held_of_get? hc, pop_held hpop]
    simp only [Conn.held, hidle.1, Option.elim_some, Option.elim_none, Release.held,
      Bool.false_eq_true, if_false]
    abel
  case sent conn =>
    obtain ⟨c, hc, h⟩ := Option.bind_eq_some_iff.mp h
    obtain ⟨r, hr, h⟩ := Option.bind_eq_some_iff.mp h
    cases h
    rcases release_cases r s with ⟨hzero, hsame⟩ | ⟨e, hheld, hlower⟩
    · rw [hsame]
      refine hs.moves ?_ rfl rfl rfl le_rfl (.inl rfl)
      simp only [State.held, held_insert, held_of_get? hc]
      simp [Conn.held, hr, hzero]
    · rw [hlower]
      refine hs.lower ha _ (s.lower e).taken ?_
      simp only [State.held, State.lower, add_taken, add_work, held_insert, held_of_get? hc]
      simp only [Conn.held, hr, Option.elim_some, hheld]
      rw [← Multiset.singleton_add, ← Multiset.singleton_add]
      abel
  case leave conn =>
    obtain ⟨c, hc, h⟩ := Option.bind_eq_some_iff.mp h
    split_ifs at h
    cases h
    refine hs.moves ?_ rfl rfl rfl le_rfl (.inl rfl)
    simp only [State.held, held_insert, held_of_get? hc]
    rfl
  case enable =>
    split_ifs at h
    cases h
    exact hs.moves rfl rfl rfl rfl le_rfl (.inl rfl)
  case apply rules conns =>
    split_ifs at h with hfree
    cases h
    exact install_good hs hfree.1
  case reap conns =>
    split_ifs at h with hfree
    cases h
    exact hs.turns (by rw [hfree.1]; rfl) ⟨rfl, rfl⟩
  case sendPkt dst size disco allowed =>
    split_ifs at h with hfree
    obtain ⟨c, -, rfl⟩ := Option.map_eq_some_iff.mp h
    exact reserve_good hs hfree.1
  case onSendLoopDone conn =>
    split_ifs at h with hfree
    obtain ⟨c, hc, h⟩ := Option.bind_eq_some_iff.mp h
    split_ifs at h
    cases h
    refine hs.moves ?_ rfl rfl rfl le_rfl (.inr ⟨rfl, rfl⟩)
    simp only [State.held, held_insert, held_of_get? hc, hfree.1]
    rfl

end Effect

def Work.dst : Work → Option ℕ
  | .sized dst _ _ => some dst
  | .fits dst _ _ => some dst
  | .added dst _ _ => some dst
  | .trying dst _ _ => some dst
  | .full dst _ _ => some dst
  | _ => none

/-- A sender that has ended holds no packet, and once it is closed and drained its queues are and
stay empty. -/
structure Settled (work : Work) (conn : ℕ) (c : Conn) : Prop where
  ended : c.ended = true → c.sending = none
  closed : c.sendClosed = true → c.ended = true
  drained : c.sendClosed = true → work = .closing conn ∨ c.sendQueue = [] ∧ c.discoSendQueue = []
  open_ : work.dst = some conn → c.sendClosed = false

def Closing (s : State) : Prop := ∀ conn c, s.conns.get? conn = some c → Settled s.work conn c

section Closing

variable {s s' : State} {c c' : Conn} {conn : ℕ} {work : Work}

theorem Settled.of_work (h : Settled s.work conn c) (hdst : work.dst = none ∨ work.dst = s.work.dst)
    (hclosing : ∀ k, s.work ≠ .closing k) : Settled work conn c := by
  refine ⟨h.ended, h.closed, fun hc => .inr ((h.drained hc).resolve_left (hclosing conn)), ?_⟩
  intro hw
  rcases hdst with hnone | hsame
  · simp [hnone] at hw
  · exact h.open_ (hsame ▸ hw)

theorem Settled.of_open (hended : c.ended = true → c.sending = none) (hopen : c.sendClosed = false) :
    Settled work conn c := by
  refine ⟨hended, ?_, ?_, fun _ => hopen⟩ <;> simp [hopen]

theorem Closing.insert (s' : State) (h : Closing s) (hnew : Settled work conn c')
    (hother : ∀ k c, k ≠ conn → Settled s.work k c → Settled work k c) :
    Closing { s' with conns := s.conns.insert conn c', work := work } := by
  intro k c₁ hk
  rcases Table.get?_insert_eq_some.mp hk with ⟨rfl, rfl⟩ | ⟨hne, hk⟩
  · exact hnew
  · exact hother k c₁ hne (h k c₁ hk)

theorem pop_keeps {disco : Bool} {x : Packet × Conn} (h : c.pop disco = some x) :
    x.2.sending = c.sending ∧ x.2.ended = c.ended ∧ x.2.sendClosed = c.sendClosed ∧
      ¬ (c.sendQueue = [] ∧ c.discoSendQueue = []) := by
  unfold Conn.pop at h
  split at h
  · cases h
  · next p rest hq =>
    cases h
    cases disco <;> simp_all [Conn.setQueue, Conn.queue]

theorem pop_none {disco : Bool} (h : (c.pop disco).or (c.pop !disco) = none) :
    c.sendQueue = [] ∧ c.discoSendQueue = [] := by
  obtain ⟨h₁, h₂⟩ := Option.or_eq_none_iff.mp h
  cases disco <;> cases hs : c.sendQueue <;> cases hd : c.discoSendQueue <;>
    simp_all [Conn.pop, Conn.queue]

theorem Settled.pop {disco : Bool} {x : Packet × Conn} (h : Settled work conn c)
    (hpop : c.pop disco = some x) : Settled work conn x.2 := by
  obtain ⟨hsending, hended, hclosed, hqueue⟩ := pop_keeps hpop
  refine ⟨?_, ?_, ?_, ?_⟩
  · rw [hsending, hended]
    exact h.ended
  · rw [hclosed, hended]
    exact h.closed
  · rw [hclosed]
    exact fun hc => .inl ((h.drained hc).resolve_right hqueue)
  · rw [hclosed]
    exact h.open_

theorem Closing.take {disco : Bool} {x : Packet × Conn} (h : Closing s)
    (hc : s.conns.get? conn = some c) (hpop : c.pop disco = some x)
    (hwork : ∀ k c, Settled s.work k c → Settled work k c) : Closing (s.take conn x work) :=
  Closing.insert { s with taken := some { packet := x.1 } } h
    ((hwork conn c (h conn c hc)).pop hpop) fun k c₁ _ => hwork k c₁

theorem Closing.turns (s' : State) (h : Closing s)
    (hwork : ∀ k c, Settled s.work k c → Settled work k c) : Closing { s' with conns := s.conns, work := work } :=
  fun k c₁ hk => hwork k c₁ (h k c₁ hk)

theorem proceed_closing {depth : ℕ} {gone disco : Bool} (hs : Closing s)
    (h : s.proceed depth gone disco = some s') : Closing s' := by
  -- Work that goes on for the same connection, or ends, leaves the closed senders alone.
  have hon : ∀ work, (work.dst = none ∨ work.dst = s.work.dst) → (∀ k, s.work ≠ .closing k) →
      ∀ k c, Settled s.work k c → Settled work k c := fun _ hdst hno _ _ hk => hk.of_work hdst hno
  cases hwork : s.work <;> simp only [State.proceed, hwork] at h
  case idle => cases h
  case sized dst p c =>
    cases h
    split_ifs
    · exact Closing.turns s hs (hon _ (.inl rfl) (by simp [hwork]))
    · exact Closing.turns s hs (hon _ (.inr (by rw [hwork]; rfl)) (by simp [hwork]))
  case fits dst p c =>
    cases h
    intro k c₁ hk
    simp only [State.charge, add_conns] at hk
    exact hon _ (.inr (by rw [hwork]; rfl)) (by simp [hwork]) k c₁ (hs k c₁ hk)
  case added dst p c =>
    cases h
    intro k c₁ hk
    simp only [State.charge, add_conns] at hk
    exact hon _ (.inr (by rw [hwork]; rfl)) (by simp [hwork]) k c₁ (hs k c₁ hk)
  case trying dst p attempt =>
    split_ifs at h
    · cases h
      exact Closing.turns { s with taken := some { packet := p } } hs
        (hon _ (.inl rfl) (by simp [hwork]))
    · obtain ⟨c, hc, rfl⟩ := Option.map_eq_some_iff.mp h
      have hc' := hs dst c hc
      have hopen : c.sendClosed = false := hc'.open_ (by rw [hwork]; rfl)
      split_ifs
      · refine Closing.insert s hs (.of_open ?_ ?_) fun k c₁ _ =>
          hon _ (.inl rfl) (by simp [hwork]) k c₁
        · cases p.disco <;> exact hc'.ended
        · cases p.disco <;> exact hopen
      · exact Closing.turns s hs (hon _ (.inr (by rw [hwork]; rfl)) (by simp [hwork]))
  case full dst p attempt =>
    obtain ⟨c, hc, rfl⟩ := Option.map_eq_some_iff.mp h
    have hgoes := hon (.trying dst p (attempt + 1)) (.inr (by rw [hwork]; rfl)) (by simp [hwork])
    cases hpop : c.pop p.disco with
    | some x => exact hs.take hc hpop hgoes
    | none => exact Closing.turns s hs hgoes
  case closing conn =>
    obtain ⟨c, hc, rfl⟩ := Option.map_eq_some_iff.mp h
    have hsame : ∀ k c, Settled s.work k c → Settled (.closing conn) k c := by
      rw [hwork]
      exact fun k c hk => hk
    cases hpop : (c.pop disco).or (c.pop !disco) with
    | some x =>
      rcases Option.or_eq_some_iff.mp hpop with hx | ⟨-, hx⟩
      · exact hs.take hc hx hsame
      · exact hs.take hc hx hsame
    | none =>
      intro k c₁ hk
      have hk' := hs k c₁ hk
      refine ⟨hk'.ended, hk'.closed, fun hclosed => .inr ?_, by simp [Work.dst]⟩
      rcases hk'.drained hclosed with hw | hempty
      · -- This is the sender whose queues were just found empty.
        rw [hwork, Work.closing.injEq] at hw
        subst hw
        obtain rfl := Option.some.inj (hc.symm.trans hk)
        exact pop_none hpop
      · exact hempty
  case reaping conns second =>
    cases conns with
    | nil =>
      cases h
      exact Closing.turns s hs (hon _ (.inl rfl) (by simp [hwork]))
    | cons conn conns =>
      obtain ⟨c, hc, rfl⟩ := Option.map_eq_some_iff.mp h
      cases hpop : c.pop second with
      | some x => exact hs.take hc hpop (hon _ (.inl rfl) (by simp [hwork]))
      | none =>
        dsimp only
        split_ifs
        · exact Closing.turns s hs (hon _ (.inl rfl) (by simp [hwork]))
        · exact Closing.turns s hs (hon _ (.inl rfl) (by simp [hwork]))

theorem Settled.running (h : Settled work conn c) (hended : c.ended = false) :
    c.sendClosed = false := by
  by_contra hclosed
  have hdone := h.closed (by simpa using hclosed)
  simp [hended] at hdone

theorem Settled.busy {r : Release} (h : Settled work conn c) (hr : c.sending = some r) :
    c.ended = false := by
  by_contra hended
  have hnone := h.ended (by simpa using hended)
  simp [hr] at hnone

theorem release_keeps (r : Release) (s : State) :
    (s.release r).2.conns = s.conns ∧ (s.release r).2.work = s.work := by
  rcases release_cases r s with ⟨-, hrelease⟩ | ⟨e, -, hlower⟩
  · rw [hrelease]
    exact ⟨rfl, rfl⟩
  · rw [hlower]
    exact ⟨add_conns _ _ _, add_work _ _ _⟩

theorem Settled.of_idle (h : Settled s.work conn c) (hidle : s.work = .idle) (hdst : work.dst = none) :
    Settled work conn c :=
  h.of_work (.inl hdst) (by simp [hidle])

theorem reserve_closing {dst size : ℕ} {disco allowed : Bool} (hs : Closing s)
    (hidle : s.work = .idle) (hc : s.conns.get? dst = some c) :
    Closing (s.reserve dst size disco allowed c) := by
  have hdrop : Closing { s with made := s.made + 1 } := hs
  -- The packet goes on only for a sender that is open.
  have hgoes : c.sendClosed = false → ∀ work, work.dst = some dst →
      Closing { s with made := s.made + 1, work := work } := by
    intro hopen work hdst k c₁ hk
    have hk' := hs k c₁ hk
    by_cases hkd : k = dst
    · subst hkd
      obtain rfl := Option.some.inj (hc.symm.trans hk)
      exact .of_open hk'.ended hopen
    · refine ⟨hk'.ended, hk'.closed, fun hclosed => .inr ?_, fun hw => ?_⟩
      · exact (hk'.drained hclosed).resolve_left (by simp [hidle])
      · exact absurd (Option.some.inj (hw.symm.trans hdst)) hkd
  unfold State.reserve
  dsimp only
  split_ifs with hclosed
  · exact hdrop
  · exact hgoes (by simpa using hclosed) _ rfl
  · exact hdrop
  split
  · exact hdrop
  split
  · exact hdrop
  · split_ifs
    · exact Closing.turns { s with made := s.made + 1 } hs fun _ _ hk => hk.of_idle hidle rfl
    · exact hgoes (by simpa using hclosed) _ rfl

theorem Step.closing {depth : ℕ} {a : Act} (h : Step depth s a s') (hs : Closing s) : Closing s' := by
  have hsame : ∀ {t : State}, t.conns = s.conns → t.work = s.work → Closing t := by
    intro t hconns hwork
    unfold Closing
    rw [hconns, hwork]
    exact hs
  unfold Step at h
  cases a <;> simp only [act] at h
  case accept conn tailnet =>
    split_ifs at h
    cases h
    exact Closing.insert s hs (.of_open (by simp) rfl) fun _ _ _ hk => hk
  case proceed gone disco =>
    split_ifs at h
    exact proceed_closing hs h
  case release =>
    obtain ⟨r, -, rfl⟩ := Option.map_eq_some_iff.mp h
    exact hsame (release_keeps r s).1 (release_keeps r s).2
  case dequeue conn disco =>
    obtain ⟨c, hc, h⟩ := Option.bind_eq_some_iff.mp h
    obtain ⟨⟨p, c'⟩, hpop, h⟩ := Option.bind_eq_some_iff.mp h
    dsimp only at h
    split_ifs at h with hidle
    cases h
    have hc' := (hs conn c hc).pop hpop
    have hended : c'.ended = false := by simpa using hidle.2
    exact Closing.insert s hs (.of_open (by simp [hended]) (hc'.running hended)) fun _ _ _ hk => hk
  -- A loop that was sending had not ended.
  case sent conn =>
    obtain ⟨c, hc, h⟩ := Option.bind_eq_some_iff.mp h
    obtain ⟨r, hr, h⟩ := Option.bind_eq_some_iff.mp h
    cases h
    have hc' := hs conn c hc
    have hended := hc'.busy hr
    have hnew : Settled s.work conn { c with sending := (s.release r).1 } :=
      .of_open (by simp [hended]) (hc'.running hended)
    have hclosing := Closing.insert (s.release r).2 hs hnew fun _ _ _ hk => hk
    rwa [← (release_keeps r s).2] at hclosing
  case leave conn =>
    obtain ⟨c, hc, h⟩ := Option.bind_eq_some_iff.mp h
    split_ifs at h with hidle
    cases h
    have hc' := hs conn c hc
    exact Closing.insert s hs ⟨fun _ => hidle, fun _ => rfl, hc'.drained, hc'.open_⟩ fun _ _ _ hk => hk
  case enable =>
    split_ifs at h
    cases h
    exact hsame rfl rfl
  case apply rules conns =>
    split_ifs at h with hfree
    cases h
    exact Closing.turns { s with managed := true, traffic := s.traffic.install rules } hs
      fun _ _ hk => hk.of_idle hfree.1 rfl
  case reap conns =>
    split_ifs at h with hfree
    cases h
    exact Closing.turns s hs fun _ _ hk => hk.of_idle hfree.1 rfl
  case sendPkt dst size disco allowed =>
    split_ifs at h with hfree
    obtain ⟨c, hc, rfl⟩ := Option.map_eq_some_iff.mp h
    exact reserve_closing hs hfree.1 hc
  case onSendLoopDone conn =>
    split_ifs at h with hfree
    obtain ⟨c, hc, h⟩ := Option.bind_eq_some_iff.mp h
    split_ifs at h with hended
    cases h
    have hc' := hs conn c hc
    refine Closing.insert s hs ⟨hc'.ended, fun _ => hended.1, fun _ => .inl rfl, by simp [Work.dst]⟩ ?_
    exact fun _ _ _ hk => hk.of_idle hfree.1 rfl

end Closing

structure Invariant (s : State) : Prop where
  accounted : Accounted s
  staged : Staged s
  closing : Closing s

theorem start_invariant : Invariant {} := by
  have hcounter : ∀ a, ({} : State).counter a = 0 := by
    intro a
    cases a <;> rfl
  refine ⟨⟨⟨rfl, Multiset.nodup_zero⟩, fun a => ?_, fun a => ?_⟩, ⟨⟨?_, ?_⟩, ?_, ?_, ?_⟩, ?_⟩
  · rw [hcounter]
    rfl
  · rw [hcounter]
    exact Int.natCast_nonneg _
  · simp
  · simp
  · simp
  · simp [Work.coming]
  · simp [Work.fitting]
  · intro conn c hc
    simp at hc

variable {depth : ℕ}

theorem Step.invariant {s s' : State} {a : Act} (h : Step depth s a s') (hs : Invariant s) :
    Invariant s' := by
  obtain ⟨heffect, hstaged⟩ := Step.good h hs.staged hs.accounted
  exact ⟨heffect.accounted hs.staged hs.accounted, hstaged, Step.closing h hs.closing⟩

theorem Run.invariant (r : Run depth) {i : ℕ} (hi : i ≤ r.len) : Invariant (r.state i) := by
  refine Reachable.invariant (I := Invariant) (r.reachable hi) ?_ ?_
  · intro s hs
    rw [Start] at hs
    rw [hs]
    exact start_invariant
  · exact fun s a s' _ hs hstep => Step.invariant hstep hs

/-- In every interleaving: each counter is the size of the outstanding packets, not negative and
within its limit; every charge is made once, and released once from the account it was made to as
soon as its packet is in no queue and in nobody's hands; and a closed sender leaves no packet
behind. -/
theorem Run.packets_accounted (r : Run depth) :
    (∀ i ≤ r.len, ∀ a, (r.state i).counter a = balance a (r.state i).held ∧
      0 ≤ (r.state i).counter a ∧ (r.state i).counter a ≤ a.limit ∧
      ((∀ e ∈ (r.state i).held, e.account ≠ a) → (r.state i).counter a = 0)) ∧
    (∀ i ≤ r.len, (r.state i).ledger.charged.Nodup ∧
      (r.state i).ledger.released ≤ (r.state i).ledger.charged ∧
      ∀ e ∈ (r.state i).ledger.charged,
        (r.state i).ledger.released.count e = if e ∈ (r.state i).held then 0 else 1) ∧
    ∀ i ≤ r.len, ∀ conn c, (r.state i).conns.get? conn = some c → c.sendClosed = true →
      (r.state i).work = .idle → c.held = 0 := by
  refine ⟨fun i hi a => ?_, fun i hi => ?_, fun i hi conn c hc hclosed hidle => ?_⟩
  · have h := (Run.invariant r hi).accounted
    refine ⟨h.counter a, ?_, h.bounded a, fun hnone => ?_⟩
    · rw [h.counter]
      exact Int.natCast_nonneg _
    · rw [h.counter, balance_eq_zero hnone]
      rfl
  · have h := (Run.invariant r hi).accounted.balanced
    refine ⟨h.nodup, ?_, fun e he => h.count_released he⟩
    rw [h.sum]
    exact Multiset.le_add_right _ _
  · have h := (Run.invariant r hi).closing conn c hc
    obtain ⟨hsend, hdisco⟩ := (h.drained hclosed).resolve_left (by simp [hidle])
    simp [Conn.held, hsend, hdisco, h.ended (h.closed hclosed)]

end UniDERP.Relay.Packets
