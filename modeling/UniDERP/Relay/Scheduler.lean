import Mathlib.Data.List.DropRight
import Mathlib.Logic.Relation
import UniDERP.Library.Run
import UniDERP.Library.TokenBucket
import UniDERP.Policy

/-!
# The bandwidth scheduler

`derp/derpserver/uniderp_qos.go` of the patched relay: requests wait in one queue for each tailnet,
and two levels of deficit round robin, over the two groups and over the tailnets of a group, pick
the next request that the token buckets let through.  Times are in nanoseconds and tokens are
rational numbers.
-/

namespace UniDERP.Relay

inductive GroupID
  | owner
  | shared
  deriving DecidableEq, Repr

def GroupID.other : GroupID → GroupID
  | .owner => .shared
  | .shared => .owner

/-- `UniDERPTailnetQoS` of the relay. -/
structure TailnetLimit where
  tailnetID : String
  group : Group
  weight : ℕ
  maxBytesPerSec : ℕ
  deriving DecidableEq, Repr

/-- Every group but `shared` is scheduled with the owner's. -/
def TailnetLimit.groupID (t : TailnetLimit) : GroupID :=
  if t.group = .shared then .shared else .owner

/-- The arguments of `SetUniDERPQoS`: no tailnet has two rules. -/
structure Limits where
  budget : ℕ
  ownerWeight : ℕ
  sharedWeight : ℕ
  sharedMax : ℕ
  tailnets : List TailnetLimit
  nodup : (tailnets.map (·.tailnetID)).Nodup

def Limits.ofPolicy (localBudgetBPS : ℕ) (q : QoSPolicy) (h : validateQoS q = .ok ()) : Limits where
  budget := (if localBudgetBPS ≠ 0 then min q.budgetBPS localBudgetBPS else q.budgetBPS) / 8
  ownerWeight := q.ownerWeight
  sharedWeight := q.sharedWeight
  sharedMax := q.sharedMaxBPS / 8
  tailnets := q.tailnets.map fun r => ⟨r.tailnetID, r.group, r.weight, r.maxBPS / 8⟩
  nodup := by
    simp only [validateQoS, Except_bind_eq_ok, checkRules_eq_ok] at h
    obtain ⟨-, -, -, -, -, hnodup, -⟩ := h
    simpa [Function.comp_def] using hnodup

def Limits.weight (L : Limits) : GroupID → ℕ
  | .owner => L.ownerWeight
  | .shared => L.sharedWeight

structure Request where
  ctx : ℕ
  size : ℕ
  deriving DecidableEq, Repr

structure TailnetQueue where
  id : String
  weight : ℕ := 0
  deficit : ℕ := 0
  credit : Bool := false
  bucket : TokenBucket := {}
  requests : List Request := []
  queuedBytes : ℕ := 0
  idleSince : Option ℤ := none
  deriving DecidableEq

structure GroupQueue where
  weight : ℕ := 0
  deficit : ℕ := 0
  credit : Bool := false
  bucket : TokenBucket := {}
  tailnets : List TailnetQueue := []
  deriving DecidableEq

structure Scheduler where
  owner : GroupQueue := {}
  shared : GroupQueue := {}
  next : GroupID := .owner
  budget : TokenBucket := {}
  /-- The contexts that are done. -/
  cancelled : List ℕ := []
  deriving DecidableEq

structure Granted where
  group : GroupID
  tailnet : String
  size : ℕ
  deriving DecidableEq, Repr

def burst : ℚ := 65536

def nanosecond : ℚ := 1 / 10 ^ 9

def quantum : ℕ := 1200

def tailnetQueueBytes : ℕ := 2 ^ 20

/-- The requests of a tailnet without the cancelled ones at the front. -/
def TailnetQueue.live (cancelled : List ℕ) (t : TailnetQueue) : List Request :=
  t.requests.dropWhile (·.ctx ∈ cancelled)

def TailnetQueue.drop (cancelled : List ℕ) (t : TailnetQueue) : TailnetQueue :=
  { t with
    requests := t.live cancelled
    queuedBytes := t.queuedBytes -
      ((t.requests.takeWhile (·.ctx ∈ cancelled)).map (·.size)).sum }

def TailnetQueue.enqueue (t : TailnetQueue) (r : Request) : TailnetQueue :=
  { t with
    requests := t.requests ++ [r], queuedBytes := t.queuedBytes + r.size, idleSince := none }

def TailnetQueue.credited (t : TailnetQueue) : TailnetQueue :=
  if t.credit then t else { t with deficit := t.deficit + quantum * t.weight, credit := true }

def GroupQueue.credited (g : GroupQueue) : GroupQueue :=
  if g.credit then g else { g with deficit := g.deficit + quantum * g.weight, credit := true }

def TailnetQueue.offered (t : TailnetQueue) (cancelled : List ℕ) : TailnetQueue :=
  (t.drop cancelled).credited

def TailnetQueue.idled (t : TailnetQueue) (cancelled : List ℕ) (now : ℤ) : TailnetQueue :=
  { t.drop cancelled with idleSince := some (t.idleSince.getD now) }

def TailnetQueue.asked (t : TailnetQueue) (now : ℤ) : TailnetQueue :=
  { t with bucket := t.bucket.refill burst nanosecond now }

def GroupQueue.asked (g : GroupQueue) (now : ℤ) : GroupQueue :=
  { g with bucket := g.bucket.refill burst nanosecond now }

/-- The queue without the request for `n` bytes that it starts with. -/
def TailnetQueue.served (t : TailnetQueue) (n : ℕ) : TailnetQueue :=
  { t with
    bucket := t.bucket.consume n, deficit := t.deficit - n
    queuedBytes := t.queuedBytes - n, requests := t.requests.tail }

def GroupQueue.served (g : GroupQueue) (n : ℕ) : GroupQueue :=
  { g with bucket := g.bucket.consume n, deficit := g.deficit - n }

@[simp] theorem TailnetQueue.credited_bucket (t : TailnetQueue) : t.credited.bucket = t.bucket := by
  unfold credited
  split_ifs <;> rfl

@[simp] theorem TailnetQueue.credited_id (t : TailnetQueue) : t.credited.id = t.id := by
  unfold credited
  split_ifs <;> rfl

@[simp] theorem TailnetQueue.credited_requests (t : TailnetQueue) :
    t.credited.requests = t.requests := by
  unfold credited
  split_ifs <;> rfl

@[simp] theorem TailnetQueue.credited_weight (t : TailnetQueue) : t.credited.weight = t.weight := by
  unfold credited
  split_ifs <;> rfl

@[simp] theorem TailnetQueue.offered_id (t : TailnetQueue) (cancelled : List ℕ) :
    (t.offered cancelled).id = t.id := credited_id _

@[simp] theorem TailnetQueue.credited_credit (t : TailnetQueue) : t.credited.credit := by
  unfold credited
  split_ifs with h
  · exact h
  · rfl

@[simp] theorem GroupQueue.credited_credit (g : GroupQueue) : g.credited.credit := by
  unfold credited
  split_ifs with h
  · exact h
  · rfl

@[simp] theorem GroupQueue.credited_weight (g : GroupQueue) : g.credited.weight = g.weight := by
  unfold credited
  split_ifs <;> rfl

@[simp] theorem GroupQueue.credited_bucket (g : GroupQueue) : g.credited.bucket = g.bucket := by
  unfold credited
  split_ifs <;> rfl

namespace Scheduler

def group (s : Scheduler) : GroupID → GroupQueue
  | .owner => s.owner
  | .shared => s.shared

def setGroup (s : Scheduler) (i : GroupID) (g : GroupQueue) : Scheduler :=
  match i with
  | .owner => { s with owner := g }
  | .shared => { s with shared := g }

def find (s : Scheduler) (id : String) : Option (GroupID × TailnetQueue) :=
  match s.shared.tailnets.find? (·.id = id) with
  | some t => some (.shared, t)
  | none => (s.owner.tailnets.find? (·.id = id)).map (.owner, ·)

/-- `newUniDERPScheduler`. -/
def new (L : Limits) : Scheduler :=
  let queues i := (L.tailnets.filter (·.groupID = i)).map fun t =>
    { id := t.tailnetID, weight := t.weight, bucket := { rate := t.maxBytesPerSec } }
  { budget := { rate := L.budget }
    owner := { weight := L.ownerWeight, tailnets := queues .owner }
    shared := { weight := L.sharedWeight, bucket := { rate := L.sharedMax }
                tailnets := queues .shared } }

/-- The queue of a tailnet under a rule: an old one keeps its requests and its tokens. -/
def requeue (s : Scheduler) (rule : TailnetLimit) : TailnetQueue :=
  let queue := ((s.find rule.tailnetID).map (·.2)).getD { id := rule.tailnetID }
  { queue with
    weight := rule.weight, bucket := { queue.bucket with rate := rule.maxBytesPerSec }
    deficit := 0, credit := false }

def update (L : Limits) (s : Scheduler) : Scheduler :=
  let queues i := (L.tailnets.filter (·.groupID = i)).map s.requeue
  { s with
    owner := { weight := L.ownerWeight, tailnets := queues .owner }
    shared := { weight := L.sharedWeight, bucket := { s.shared.bucket with rate := L.sharedMax }
                tailnets := queues .shared }
    budget := { s.budget with rate := L.budget }
    next := .owner }

def enqueue (i : GroupID) (id : String) (r : Request) (s : Scheduler) : Scheduler :=
  s.setGroup i { s.group i with
    tailnets := (s.group i).tailnets.map fun t => if t.id = id then t.enqueue r else t }

/-- The part of `wait` under the lock. -/
def wait (ctx : ℕ) (id : String) (size : ℤ) (s : Scheduler) : Except String Scheduler := do
  require (0 ≤ size ∧ size ≤ 65536) "UniDERP invalid payload size"
  let (i, q) ← orElse (s.find id) "UniDERP tailnet queue unavailable"
  require (q.requests.length < 256 ∧ q.queuedBytes + size.toNat ≤ tailnetQueueBytes)
    "UniDERP tailnet queue unavailable"
  return s.enqueue i id ⟨ctx, size.toNat⟩

def cancel (ctx : ℕ) (s : Scheduler) : Scheduler := { s with cancelled := ctx :: s.cancelled }

def current (s : Scheduler) : GroupQueue := s.group s.next

def put (s : Scheduler) (g : GroupQueue) : Scheduler := s.setGroup s.next g

def setBudget (s : Scheduler) (b : TokenBucket) : Scheduler := { s with budget := b }

def switch (s : Scheduler) : Scheduler := { s with next := s.next.other }

/-- How one pass of the loop of `step` ends. -/
inductive Try
  | again (s : Scheduler)
  | stop (s : Scheduler)
  | grant (g : Granted) (s : Scheduler)

def Try.state : Try → Scheduler
  | .again s | .stop s | .grant _ s => s

def Try.granted : Try → Option Granted
  | .grant g _ => some g
  | _ => none

def grace (s : Scheduler) : ℤ := min 2000000 ((1200 * 10 ^ 9 / max s.budget.rate 1 : ℕ) : ℤ)

/-- The pass over a tailnet `t` without requests. -/
def idle (now : ℤ) (t : TailnetQueue) (rest : List TailnetQueue) (s : Scheduler) : Try :=
  let g := s.current
  let idleSince := t.idleSince.getD now
  let t := { t with idleSince := some idleSince }
  if g.credit ∧ 0 < g.deficit ∧ now - idleSince < s.grace then
    .stop (s.put { g with tailnets := t :: rest })
  else
    let tailnets := rest ++ [{ t with deficit := 0, credit := false }]
    if tailnets.any (·.requests ≠ []) then .again (s.put { g with tailnets := tailnets })
    else .again (s.put { g with tailnets := tailnets, deficit := 0, credit := false }).switch

/-- The pass over a tailnet `t` whose first request is for `n` bytes. -/
def offer (now : ℤ) (t : TailnetQueue) (rest : List TailnetQueue) (n : ℕ) (s : Scheduler) : Try :=
  let g := s.current.credited
  let t := t.credited
  if g.deficit < n then .again (s.put { g with credit := false, tailnets := t :: rest }).switch
  else if t.deficit < n then
    .again (s.put { g with tailnets := rest ++ [{ t with credit := false }] })
  else
    let (ok, bucket) := g.bucket.available burst nanosecond now n
    let g := { g with bucket := bucket }
    if !ok then .again (s.put { g with tailnets := rest ++ [t] }).switch
    else
      let (ok, bucket) := t.bucket.available burst nanosecond now n
      let t := { t with bucket := bucket }
      if !ok then .again (s.put { g with tailnets := rest ++ [t] }).switch
      else
        let (ok, budget) := s.budget.available burst nanosecond now n
        let s := s.setBudget budget
        if !ok then .stop (s.put { g with tailnets := t :: rest })
        else
          let t := { t with
            bucket := t.bucket.consume n, deficit := t.deficit - n
            queuedBytes := t.queuedBytes - n, requests := t.requests.tail }
          let g := { g with
            bucket := g.bucket.consume n, deficit := g.deficit - n, tailnets := t :: rest }
          .grant ⟨s.next, t.id, n⟩ ((s.put g).setBudget (s.budget.consume n))

/-- The body of the loop of `step`. -/
def attempt (now : ℤ) (s : Scheduler) : Try :=
  let g := s.current
  match g.tailnets with
  | [] => .again s.switch
  | t :: rest =>
    if g.credit ∧ g.deficit = 0 then .again (s.put { g with credit := false }).switch
    else if t.credit ∧ t.deficit = 0 then
      .again (s.put { g with tailnets := rest ++ [{ t with credit := false }] })
    else match t.live s.cancelled with
      | [] => s.idle now (t.drop s.cancelled) rest
      | r :: _ => s.offer now (t.drop s.cancelled) rest r.size

/-- The loop of `step`, with the tries that are left. -/
def search (now : ℤ) : ℕ → Scheduler → Option Granted × Scheduler
  | 0, s => (none, s)
  | tries + 1, s =>
    match s.attempt now with
    | .again s => search now tries s
    | .stop s => (none, s)
    | .grant g s => (some g, s)

def step (now : ℤ) (s : Scheduler) : Option Granted × Scheduler := search now 512 s

inductive Call
  | update (L : Limits)
  | wait (ctx : ℕ) (id : String) (size : ℤ)
  | cancel (ctx : ℕ)
  | step (now : ℤ)

structure Event where
  call : Call
  grant : Option Granted := none

structure Clocked where
  scheduler : Scheduler
  time : ℤ

def act : Call → Clocked → Option Granted × Clocked
  | .update L, s => (none, { s with scheduler := s.scheduler.update L })
  | .wait ctx id size, s => (none,
    { s with scheduler := (s.scheduler.wait ctx id size).toOption.getD s.scheduler })
  | .cancel ctx, s => (none, { s with scheduler := s.scheduler.cancel ctx })
  | .step now, s => let (g, scheduler) := s.scheduler.step now; (g, ⟨scheduler, now⟩)

def Call.due (time : ℤ) : Call → Bool
  | .step now => time ≤ now
  | _ => true

def Start (s : Clocked) : Prop := ∃ L time, s = ⟨new L, time⟩

def Step (s : Clocked) (e : Event) (s' : Clocked) : Prop :=
  e.call.due s.time ∧ act e.call s = (e.grant, s')

abbrev Run := UniDERP.Run Start Step

def after (L : Limits) (time : ℤ) (calls : List Call) : Clocked :=
  calls.foldl (fun s c => (act c s).2) ⟨new L, time⟩

/-- The run of a list of calls. -/
def Run.ofCalls (L : Limits) (time : ℤ) (calls : List Call)
    (hdue : ∀ i (hi : i < calls.length), calls[i].due (after L time (calls.take i)).time) : Run where
  len := calls.length
  state i := after L time (calls.take i)
  label i := let call := calls.getD i (.cancel 0)
    ⟨call, (act call (after L time (calls.take i))).1⟩
  start := ⟨L, time, rfl⟩
  next i hi := by
    have hcall : calls.getD i (.cancel 0) = calls[i] := by
      rw [List.getD_eq_getElem?_getD, List.getElem?_eq_getElem hi, Option.getD_some]
    refine ⟨?_, ?_⟩
    · dsimp only
      rw [hcall]
      exact hdue i hi
    · dsimp only
      rw [List.take_succ_eq_append_getElem hi, hcall, after, after, List.foldl_append]
      rfl

/-- The bytes that are let through, if the grant is in `P`. -/
def bytesOf (P : Granted → Bool) (out : Option Granted) : ℕ := (out.filter P).elim 0 (·.size)

/-- The bytes that the calls from `i` to `j` let through for the grants in `P`. -/
def Run.granted (r : Run) (P : Granted → Bool) (i j : ℕ) : ℕ :=
  ∑ k ∈ Finset.Ico i j, bytesOf P (r.label k).grant

theorem Run.granted_succ (r : Run) (P : Granted → Bool) {i j : ℕ} (hij : i ≤ j) :
    r.granted P i (j + 1) = r.granted P i j + bytesOf P (r.label j).grant :=
  Finset.sum_Ico_succ_top hij _

variable {now : ℤ} {s s' : Scheduler} {i : GroupID} {g : GroupQueue}

theorem other_other : i.other.other = i := by cases i <;> rfl

theorem other_ne : i.other ≠ i := by cases i <;> decide

theorem eq_other_of_ne {j : GroupID} (h : j ≠ i) : j = i.other := by
  cases i <;> cases j <;> first | rfl | exact absurd rfl h

@[simp] theorem setGroup_next : (s.setGroup i g).next = s.next := by cases i <;> rfl

@[simp] theorem setGroup_budget : (s.setGroup i g).budget = s.budget := by cases i <;> rfl

@[simp] theorem setGroup_cancelled : (s.setGroup i g).cancelled = s.cancelled := by cases i <;> rfl

@[simp] theorem group_setGroup : (s.setGroup i g).group i = g := by cases i <;> rfl

theorem group_setGroup_of_ne {j : GroupID} (h : j ≠ i) : (s.setGroup i g).group j = s.group j := by
  cases i <;> cases j <;> first | rfl | exact absurd rfl h

@[simp] theorem put_next : (s.put g).next = s.next := setGroup_next

@[simp] theorem put_budget : (s.put g).budget = s.budget := setGroup_budget

@[simp] theorem put_cancelled : (s.put g).cancelled = s.cancelled := setGroup_cancelled

@[simp] theorem put_current : (s.put g).current = g := by simp [current, put]

theorem put_group : (s.put g).group i = if i = s.next then g else s.group i := by
  split_ifs with h
  · rw [h]
    exact group_setGroup
  · exact group_setGroup_of_ne h

theorem put_group_next : (s.put g).group s.next = g := group_setGroup

@[simp] theorem switch_group : s.switch.group i = s.group i := by cases i <;> rfl

@[simp] theorem switch_next : s.switch.next = s.next.other := rfl

theorem put_switch_next : (s.put g).switch.next = s.next.other := by rw [switch_next, put_next]

@[simp] theorem switch_cancelled : s.switch.cancelled = s.cancelled := rfl

theorem mem_current {t : TailnetQueue} {rest : List TailnetQueue}
    (hring : s.current.tailnets = t :: rest) : t ∈ (s.group s.next).tailnets := by
  rw [show (s.group s.next).tailnets = t :: rest from hring]
  exact List.mem_cons_self

/-- The pass gets as far as the requests of the current tailnet `t`, of which `live` are left. -/
structure Visits (s : Scheduler) (t : TailnetQueue) (rest : List TailnetQueue)
    (live : List Request) : Prop where
  ring : s.current.tailnets = t :: rest
  group : s.current.credit → s.current.deficit ≠ 0
  tailnet : t.credit → t.deficit ≠ 0
  live : t.live s.cancelled = live

theorem Visits.mem {t : TailnetQueue} {rest : List TailnetQueue} {live : List Request}
    (h : s.Visits t rest live) : t ∈ (s.group s.next).tailnets := mem_current h.ring

/-- The bucket lets `n` bytes through at `now`. -/
def allows (b : TokenBucket) (now : ℤ) (n : ℕ) : Bool := (b.available burst nanosecond now n).1

inductive Turn (now : ℤ) (s : Scheduler) : Try → Prop
  | empty (ring : s.current.tailnets = []) : Turn now s (.again s.switch)
  | groupSpent {t rest} (ring : s.current.tailnets = t :: rest) (credit : s.current.credit)
      (spent : s.current.deficit = 0) :
      Turn now s (.again (s.put { s.current with credit := false }).switch)
  | tailnetSpent {t rest} (ring : s.current.tailnets = t :: rest) (credit : t.credit)
      (spent : t.deficit = 0) :
      Turn now s (.again (s.put { s.current with tailnets := rest ++ [{ t with credit := false }] }))
  | grace {t rest} (visits : s.Visits t rest []) (credit : s.current.credit)
      (deficit : 0 < s.current.deficit) (early : now - t.idleSince.getD now < s.grace) :
      Turn now s (.stop (s.put { s.current with tailnets := t.idled s.cancelled now :: rest }))
  | idle {t rest} (visits : s.Visits t rest []) (active : ∃ q ∈ rest, q.requests ≠ []) :
      Turn now s (.again (s.put { s.current with
        tailnets := rest ++ [{ t.idled s.cancelled now with deficit := 0, credit := false }] }))
  | inactive {t rest} (visits : s.Visits t rest []) (inactive : ∀ q ∈ rest, q.requests = []) :
      Turn now s (.again (s.put { s.current with
        tailnets := rest ++ [{ t.idled s.cancelled now with deficit := 0, credit := false }]
        deficit := 0, credit := false }).switch)
  | groupShort {t rest r live} (visits : s.Visits t rest (r :: live))
      (short : s.current.credited.deficit < r.size) :
      Turn now s (.again (s.put { s.current.credited with
        credit := false, tailnets := t.offered s.cancelled :: rest }).switch)
  | tailnetShort {t rest r live} (visits : s.Visits t rest (r :: live))
      (group : r.size ≤ s.current.credited.deficit)
      (short : (t.offered s.cancelled).deficit < r.size) :
      Turn now s (.again (s.put { s.current.credited with
        tailnets := rest ++ [{ t.offered s.cancelled with credit := false }] }))
  | groupBlocked {t rest r live} (visits : s.Visits t rest (r :: live))
      (group : r.size ≤ s.current.credited.deficit)
      (tailnet : r.size ≤ (t.offered s.cancelled).deficit)
      (blocked : ¬ allows s.current.bucket now r.size) :
      Turn now s (.again (s.put { s.current.credited.asked now with
        tailnets := rest ++ [t.offered s.cancelled] }).switch)
  | tailnetBlocked {t rest r live} (visits : s.Visits t rest (r :: live))
      (group : r.size ≤ s.current.credited.deficit)
      (tailnet : r.size ≤ (t.offered s.cancelled).deficit)
      (allowed : allows s.current.bucket now r.size) (blocked : ¬ allows t.bucket now r.size) :
      Turn now s (.again (s.put { s.current.credited.asked now with
        tailnets := rest ++ [(t.offered s.cancelled).asked now] }).switch)
  | budget {t rest r live} (visits : s.Visits t rest (r :: live))
      (group : r.size ≤ s.current.credited.deficit)
      (tailnet : r.size ≤ (t.offered s.cancelled).deficit)
      (allowed : allows s.current.bucket now r.size ∧ allows t.bucket now r.size)
      (blocked : ¬ allows s.budget now r.size) :
      Turn now s (.stop ((s.put { s.current.credited.asked now with
        tailnets := (t.offered s.cancelled).asked now :: rest }).setBudget
          (s.budget.refill burst nanosecond now)))
  | grant {t rest r live} (visits : s.Visits t rest (r :: live))
      (group : r.size ≤ s.current.credited.deficit)
      (tailnet : r.size ≤ (t.offered s.cancelled).deficit)
      (allowed : allows s.current.bucket now r.size ∧ allows t.bucket now r.size ∧
        allows s.budget now r.size) :
      Turn now s (.grant ⟨s.next, t.id, r.size⟩
        ((s.put { (s.current.credited.asked now).served r.size with
          tailnets := ((t.offered s.cancelled).asked now).served r.size :: rest }).setBudget
            ((s.budget.refill burst nanosecond now).consume r.size)))

theorem idle_turn {t : TailnetQueue} {rest : List TailnetQueue} (h : s.Visits t rest []) :
    Turn now s (s.idle now (t.drop s.cancelled) rest) := by
  unfold idle
  dsimp only
  split_ifs with hgrace hactive
  · exact .grace h hgrace.1 hgrace.2.1 hgrace.2.2
  · refine .idle h ?_
    simpa [TailnetQueue.drop, h.live] using hactive
  · refine .inactive h ?_
    simpa [TailnetQueue.drop, h.live] using hactive

@[simp] theorem setBudget_group {b : TokenBucket} : (s.setBudget b).group i = s.group i := by
  cases i <;> rfl

@[simp] theorem setBudget_current {b : TokenBucket} : (s.setBudget b).current = s.current :=
  setBudget_group

@[simp] theorem setBudget_put {b : TokenBucket} : (s.setBudget b).put g = (s.put g).setBudget b := by
  unfold put setGroup setBudget
  cases s.next <;> rfl

theorem offer_turn {t : TailnetQueue} {rest : List TailnetQueue} {r : Request} {live : List Request}
    (h : s.Visits t rest (r :: live)) :
    Turn now s (s.offer now (t.drop s.cancelled) rest r.size) := by
  have hgroup : s.current.credited.bucket = s.current.bucket := GroupQueue.credited_bucket _
  have htailnet : (t.drop s.cancelled).credited.bucket = t.bucket := TailnetQueue.credited_bucket _
  have hid : (t.drop s.cancelled).credited.id = t.id := TailnetQueue.credited_id _
  unfold offer
  dsimp only
  split_ifs with h₁ h₂ h₃ h₄ h₅
  · exact .groupShort h h₁
  · exact .tailnetShort h (not_lt.mp h₁) h₂
  all_goals rw [not_lt] at h₁ h₂
  all_goals rw [hgroup] at h₃
  · exact .groupBlocked h h₁ h₂ (by simpa [allows] using h₃)
  all_goals rw [Bool.not_eq_true, Bool.not_eq_false'] at h₃
  all_goals rw [htailnet] at h₄
  · exact .tailnetBlocked h h₁ h₂ h₃ (by simpa [allows] using h₄)
  all_goals rw [Bool.not_eq_true, Bool.not_eq_false'] at h₄
  · rw [setBudget_put]
    exact .budget h h₁ h₂ ⟨h₃, h₄⟩ (by simpa [allows] using h₅)
  · rw [Bool.not_eq_true, Bool.not_eq_false'] at h₅
    have hturn := Turn.grant h h₁ h₂ ⟨h₃, h₄, h₅⟩
    rw [← hid] at hturn
    rw [setBudget_put]
    exact hturn

theorem attempt_turn (now : ℤ) (s : Scheduler) : Turn now s (s.attempt now) := by
  unfold attempt
  dsimp only
  split
  next hring => exact .empty hring
  next t rest hring =>
    split_ifs with hgroup htailnet
    · exact .groupSpent hring hgroup.1 hgroup.2
    · exact .tailnetSpent hring htailnet.1 htailnet.2
    · have hvisits : s.Visits t rest (t.live s.cancelled) :=
        ⟨hring, fun hc hd => hgroup ⟨hc, hd⟩, fun hc hd => htailnet ⟨hc, hd⟩, rfl⟩
      split
      next hlive => exact idle_turn (hlive ▸ hvisits)
      next r live hlive => exact offer_turn (hlive ▸ hvisits)

theorem Turn.other {t : Try} (h : Turn now s t) (hi : i ≠ s.next) :
    t.state.group i = s.group i := by
  cases h <;> simp [Try.state, put_group, hi]

def Tries (now : ℤ) : Scheduler → Scheduler → Prop :=
  Relation.ReflTransGen fun s s' => s.attempt now = .again s'

/-- How the search ends after its last pass started from `s`. -/
inductive Ends (now : ℤ) (s : Scheduler) : Option Granted → Scheduler → Prop
  | stop {s' : Scheduler} (turn : s.attempt now = .stop s') : Ends now s none s'
  | grant {g : Granted} {s' : Scheduler} (turn : s.attempt now = .grant g s') : Ends now s (some g) s'

/-- A search uses up its tries, or it ends by itself. -/
theorem search_ends {tries : ℕ} {out : Option Granted} (h : search now tries s = (out, s')) :
    (out = none ∧ Tries now s s') ∨ ∃ s₁, Tries now s s₁ ∧ Ends now s₁ out s' := by
  induction tries generalizing s with
  | zero =>
    obtain ⟨rfl, rfl⟩ := Prod.mk.inj h
    exact .inl ⟨rfl, .refl⟩
  | succ tries ih =>
    rw [search] at h
    cases hturn : s.attempt now with
    | again s₁ =>
      rw [hturn] at h
      rcases ih h with ⟨hout, htries⟩ | ⟨s₂, htries, hends⟩
      · exact .inl ⟨hout, .head hturn htries⟩
      · exact .inr ⟨s₂, .head hturn htries, hends⟩
    | stop s₁ =>
      rw [hturn] at h
      obtain ⟨rfl, rfl⟩ := Prod.mk.inj h
      exact .inr ⟨s, .refl, .stop hturn⟩
    | grant g s₁ =>
      rw [hturn] at h
      obtain ⟨rfl, rfl⟩ := Prod.mk.inj h
      exact .inr ⟨s, .refl, .grant hturn⟩

theorem Tries.invariant {I : Scheduler → Prop} (h : Tries now s s') (hs : I s)
    (hturn : ∀ a b, I a → Turn now a (.again b) → I b) : I s' := by
  induction h with
  | refl => exact hs
  | tail _ hlast ih => exact hturn _ _ ih (hlast ▸ attempt_turn now _)

theorem step_turns {R : Option Granted → Scheduler → Prop} {out : Option Granted}
    (h : s.step now = (out, s')) (hs : R none s)
    (hturn : ∀ a t, R none a → Turn now a t → R t.granted t.state) : R out s' := by
  have htries {a : Scheduler} (h : Tries now s a) : R none a :=
    h.invariant hs fun a b ha h => hturn a _ ha h
  rcases search_ends h with ⟨rfl, ha⟩ | ⟨a, ha, hends⟩
  · exact htries ha
  · cases hends with
    | stop h' => exact hturn a _ (htries ha) (h' ▸ attempt_turn now a)
    | grant h' => exact hturn a _ (htries ha) (h' ▸ attempt_turn now a)

inductive Change (s : Clocked) : Event → Clocked → Prop
  | update (L : Limits) : Change s ⟨.update L, none⟩ { s with scheduler := s.scheduler.update L }
  | queued {ctx : ℕ} {id : String} {size : ℤ} {i : GroupID} {t : TailnetQueue}
      (found : s.scheduler.find id = some (i, t)) (small : size.toNat ≤ 65536) :
      Change s ⟨.wait ctx id size, none⟩
        { s with scheduler := s.scheduler.enqueue i id ⟨ctx, size.toNat⟩ }
  | refused {ctx : ℕ} {id : String} {size : ℤ} : Change s ⟨.wait ctx id size, none⟩ s
  | cancel (ctx : ℕ) :
      Change s ⟨.cancel ctx, none⟩ { s with scheduler := s.scheduler.cancel ctx }
  | step {now : ℤ} {out : Option Granted} {s' : Scheduler} (time : s.time ≤ now)
      (search : s.scheduler.step now = (out, s')) : Change s ⟨.step now, out⟩ ⟨s', now⟩

theorem wait_eq_ok {ctx : ℕ} {id : String} {size : ℤ} (h : s.wait ctx id size = .ok s') :
    size.toNat ≤ 65536 ∧ ∃ i t, s.find id = some (i, t) ∧ s' = s.enqueue i id ⟨ctx, size.toNat⟩ := by
  simp only [wait, Except_bind_eq_ok, require_eq_ok, orElse_eq_ok] at h
  obtain ⟨-, hsize, ⟨i, t⟩, hfind, -, -, hs⟩ := h
  exact ⟨by omega, i, t, hfind, (Except.ok.inj hs).symm⟩

theorem Step.change {s s' : Clocked} {e : Event} (h : Step s e s') : Change s e s' := by
  obtain ⟨call, grant⟩ := e
  obtain ⟨hdue, hact⟩ := h
  cases call with
  | update L =>
    obtain ⟨rfl, rfl⟩ := Prod.mk.inj hact
    exact .update L
  | wait ctx id size =>
    obtain ⟨rfl, rfl⟩ := Prod.mk.inj hact
    cases hwait : s.scheduler.wait ctx id size with
    | error e => exact .refused
    | ok s₁ =>
      obtain ⟨hsize, i, t, hfind, rfl⟩ := wait_eq_ok hwait
      exact .queued hfind hsize
  | cancel ctx =>
    obtain ⟨rfl, rfl⟩ := Prod.mk.inj hact
    exact .cancel ctx
  | step now =>
    obtain ⟨rfl, rfl⟩ := Prod.mk.inj hact
    exact .step (by simpa [Call.due] using hdue) rfl

structure Distinct (s : Scheduler) : Prop where
  nodup : ∀ i, ((s.group i).tailnets.map (·.id)).Nodup
  apart : ∀ {i j t u}, t ∈ (s.group i).tailnets → u ∈ (s.group j).tailnets → t.id = u.id → i = j

theorem Distinct.eq (h : s.Distinct) {t u : TailnetQueue} (ht : t ∈ (s.group i).tailnets)
    (hu : u ∈ (s.group i).tailnets) (hid : t.id = u.id) : t = u :=
  List.inj_on_of_nodup_map (h.nodup i) ht hu hid

theorem Distinct.congr (hd : s.Distinct) (h : ∀ i, (s'.group i).tailnets = (s.group i).tailnets) :
    s'.Distinct where
  nodup i := by
    rw [h]
    exact hd.nodup i
  apart ht hu hid := by
    rw [h] at ht hu
    exact hd.apart ht hu hid

theorem find_congr (h : ∀ i, (s'.group i).tailnets = (s.group i).tailnets) (id : String) :
    s'.find id = s.find id := by
  unfold find
  rw [show s'.shared.tailnets = s.shared.tailnets from h .shared,
    show s'.owner.tailnets = s.owner.tailnets from h .owner]

theorem find_some {id : String} {t : TailnetQueue} (h : s.find id = some (i, t)) :
    t ∈ (s.group i).tailnets ∧ t.id = id := by
  unfold find at h
  cases hshared : s.shared.tailnets.find? (·.id = id) with
  | some u =>
    rw [hshared] at h
    obtain ⟨rfl, rfl⟩ := Prod.mk.inj (Option.some.inj h)
    exact ⟨List.mem_of_find?_eq_some hshared, by simpa using List.find?_some hshared⟩
  | none =>
    rw [hshared] at h
    obtain ⟨u, howner, heq⟩ := Option.map_eq_some_iff.mp h
    obtain ⟨rfl, rfl⟩ := Prod.mk.inj heq
    exact ⟨List.mem_of_find?_eq_some howner, by simpa using List.find?_some howner⟩

theorem find_isSome {id : String} {t : TailnetQueue} (ht : t ∈ (s.group i).tailnets)
    (hid : t.id = id) : (s.find id).isSome := by
  unfold find
  cases hshared : s.shared.tailnets.find? (·.id = id) with
  | some u => rfl
  | none =>
    cases i with
    | shared => simpa [hid] using List.find?_eq_none.mp hshared t ht
    | owner =>
      rw [Option.isSome_map, List.find?_isSome]
      exact ⟨t, ht, by simpa using hid⟩

theorem Distinct.find (h : s.Distinct) {t : TailnetQueue} (ht : t ∈ (s.group i).tailnets) :
    s.find t.id = some (i, t) := by
  obtain ⟨⟨j, u⟩, hu⟩ := Option.isSome_iff_exists.mp (find_isSome ht rfl)
  obtain ⟨hmem, hid⟩ := find_some hu
  obtain rfl := h.apart hmem ht hid
  rw [hu, h.eq hmem ht hid]

theorem Distinct.find_eq_some (h : s.Distinct) {id : String} {t : TailnetQueue} :
    s.find id = some (i, t) ↔ t ∈ (s.group i).tailnets ∧ t.id = id := by
  constructor
  · exact find_some
  · rintro ⟨ht, rfl⟩
    exact h.find ht

/-- The current tailnet's queue becomes `t'`, wherever it is put. -/
structure Replaces (s : Scheduler) (t t' : TailnetQueue) (s' : Scheduler) : Prop where
  id : t'.id = t.id
  ring : ∃ rest, s.current.tailnets = t :: rest ∧ (s'.group s.next).tailnets.Perm (t' :: rest)
  other : ∀ i ≠ s.next, (s'.group i).tailnets = (s.group i).tailnets

theorem Replaces.current {t t' : TailnetQueue} (h : s.Replaces t t' s') :
    t ∈ (s.group s.next).tailnets := by
  obtain ⟨rest, hring, -⟩ := h.ring
  exact mem_current hring

theorem Replaces.congr {t t' : TailnetQueue} {s₁ : Scheduler} (h : s.Replaces t t' s')
    (hsame : ∀ i, s₁.group i = s'.group i) : s.Replaces t t' s₁ where
  id := h.id
  ring := by simpa only [hsame] using h.ring
  other i hi := by rw [hsame, h.other i hi]

theorem Replaces.mem {t t' u : TailnetQueue} (h : s.Replaces t t' s') (hd : s.Distinct) :
    u ∈ (s'.group i).tailnets ↔
      if u.id = t.id then i = s.next ∧ u = t' else u ∈ (s.group i).tailnets := by
  obtain ⟨rest, hring, hperm⟩ := h.ring
  have hnodup := hd.nodup s.next
  rw [show (s.group s.next).tailnets = t :: rest from hring, List.map_cons, List.nodup_cons] at hnodup
  have hrest : u ∈ rest → u.id ≠ t.id := fun hu hid => hnodup.1 (hid ▸ List.mem_map_of_mem hu)
  by_cases hi : i = s.next
  · rw [hi, hperm.mem_iff, show (s.group s.next).tailnets = t :: rest from hring, List.mem_cons,
      List.mem_cons]
    split_ifs with hid
    · simpa using fun hu => absurd hid (hrest hu)
    · have hne : u ≠ t' := fun heq => hid (heq ▸ h.id)
      have hne' : u ≠ t := fun heq => hid (heq ▸ rfl)
      simp [hne, hne']
  · rw [h.other i hi]
    split_ifs with hid
    · simpa [hi] using fun hu => hi (hd.apart hu h.current hid)
    · rfl

theorem Replaces.forall {t t' : TailnetQueue} {P : GroupID → TailnetQueue → Prop}
    (h : s.Replaces t t' s') (hs : ∀ i, ∀ u ∈ (s.group i).tailnets, P i u) (ht' : P s.next t') :
    ∀ i, ∀ u ∈ (s'.group i).tailnets, P i u := by
  intro i u hu
  obtain ⟨rest, hring, hperm⟩ := h.ring
  by_cases hi : i = s.next
  · rw [hi] at hu ⊢
    rcases List.mem_cons.mp (hperm.mem_iff.mp hu) with rfl | hu
    · exact ht'
    · apply hs
      rw [show (s.group s.next).tailnets = t :: rest from hring]
      exact List.mem_cons_of_mem t hu
  · rw [h.other i hi] at hu
    exact hs i u hu

theorem Replaces.exists {t t' u : TailnetQueue} {P : TailnetQueue → Prop} (h : s.Replaces t t' s')
    (hu : u ∈ (s.group i).tailnets) (hP : P u) (ht' : P t → P t') :
    ∃ u ∈ (s'.group i).tailnets, P u := by
  obtain ⟨rest, hring, hperm⟩ := h.ring
  by_cases hi : i = s.next
  · rw [hi, show (s.group s.next).tailnets = t :: rest from hring] at hu
    rw [hi]
    rcases List.mem_cons.mp hu with rfl | hu
    · exact ⟨t', hperm.mem_iff.mpr List.mem_cons_self, ht' hP⟩
    · exact ⟨u, hperm.mem_iff.mpr (List.mem_cons_of_mem _ hu), hP⟩
  · rw [h.other i hi]
    exact ⟨u, hu, hP⟩

theorem Replaces.distinct {t t' : TailnetQueue} (h : s.Replaces t t' s') (hd : s.Distinct) :
    s'.Distinct where
  nodup i := by
    by_cases hi : i = s.next
    · obtain ⟨rest, hring, hperm⟩ := h.ring
      have hnodup := hd.nodup s.next
      rw [show (s.group s.next).tailnets = t :: rest from hring, List.map_cons, ← h.id,
        ← List.map_cons] at hnodup
      rw [hi, (hperm.map _).nodup_iff]
      exact hnodup
    · rw [h.other i hi]
      exact hd.nodup i
  apart {i j u v} hu hv hid := by
    rw [h.mem hd] at hu hv
    rw [← hid] at hv
    split_ifs at hu hv
    · rw [hu.1, hv.1]
    · exact hd.apart hu hv hid

theorem Replaces.find {t t' : TailnetQueue} (h : s.Replaces t t' s') (hd : s.Distinct)
    (id : String) :
    s'.find id = if id = t.id then some (s.next, t') else s.find id := by
  split_ifs with hid
  · rw [(h.distinct hd).find_eq_some, h.mem hd, if_pos h.id]
    exact ⟨⟨rfl, rfl⟩, h.id.trans hid.symm⟩
  · ext ⟨i, u⟩
    rw [(h.distinct hd).find_eq_some, hd.find_eq_some]
    apply and_congr_left
    intro hu
    rw [h.mem hd, if_neg (hu ▸ hid)]

/-- What a pass that grants nothing does to the queue of the tailnet that it visits. -/
structure Passed (now : ℤ) (cancelled : List ℕ) (t t' : TailnetQueue) : Prop where
  weight : t'.weight = t.weight
  bucket : TokenBucket.Asked burst nanosecond now t.bucket t'.bucket
  requests : t'.requests = t.requests ∨ t'.requests = t.live cancelled

theorem live_subset (cancelled : List ℕ) {t : TailnetQueue} : t.live cancelled ⊆ t.requests :=
  (List.dropWhile_sublist _).subset

theorem Visits.head_mem {t : TailnetQueue} {rest : List TailnetQueue} {r : Request}
    {live : List Request} (h : s.Visits t rest (r :: live)) : r ∈ t.requests := by
  apply live_subset s.cancelled
  rw [h.live]
  exact List.mem_cons_self

theorem Passed.requests_subset {cancelled : List ℕ} {t t' : TailnetQueue}
    (h : Passed now cancelled t t') : t'.requests ⊆ t.requests := by
  rcases h.requests with hr | hr
  · rw [hr]
    exact List.Subset.refl _
  · rw [hr]
    exact live_subset cancelled

theorem Passed.live {cancelled : List ℕ} {t t' : TailnetQueue} (h : Passed now cancelled t t') :
    t'.live cancelled = t.live cancelled := by
  rcases h.requests with hr | hr
  · rw [TailnetQueue.live, TailnetQueue.live, hr]
  · rw [TailnetQueue.live, hr, TailnetQueue.live, List.dropWhile_idempotent]

structure Passes (now : ℤ) (s s' : Scheduler) : Prop where
  cancelled : s'.cancelled = s.cancelled
  budget : TokenBucket.Asked burst nanosecond now s.budget s'.budget
  weight : ∀ i, (s'.group i).weight = (s.group i).weight
  bucket : ∀ i, TokenBucket.Asked burst nanosecond now (s.group i).bucket (s'.group i).bucket
  tailnets : (∀ i, (s'.group i).tailnets = (s.group i).tailnets) ∨
    ∃ t t', s.Replaces t t' s' ∧ Passed now s.cancelled t t'

section Passes

variable {t t' : TailnetQueue} {rest : List TailnetQueue}

theorem replaces_put (hring : s.current.tailnets = t :: rest) (hid : t'.id = t.id)
    (hperm : g.tailnets.Perm (t' :: rest)) : s.Replaces t t' (s.put g) where
  id := hid
  ring := ⟨rest, hring, by rwa [put_group, if_pos rfl]⟩
  other i hi := by rw [put_group, if_neg hi]

theorem Passes.put (hweight : g.weight = s.current.weight)
    (hbucket : TokenBucket.Asked burst nanosecond now s.current.bucket g.bucket)
    (htailnets : g.tailnets = s.current.tailnets ∨
      ∃ t t' rest, s.current.tailnets = t :: rest ∧
        (g.tailnets = t' :: rest ∨ g.tailnets = rest ++ [t']) ∧ t'.id = t.id ∧
        Passed now s.cancelled t t') :
    Passes now s (s.put g) where
  cancelled := put_cancelled
  budget := .inl put_budget
  weight i := by
    rw [put_group]
    split_ifs with hi
    · rw [hweight, hi, current]
    · rfl
  bucket i := by
    rw [put_group]
    split_ifs with hi
    · rw [hi]
      exact hbucket
    · exact .refl
  tailnets := by
    rcases htailnets with hsame | ⟨t, t', rest, hring, hplace, hid, hpassed⟩
    · refine .inl fun i => ?_
      rw [put_group]
      split_ifs with hi
      · rw [hsame, hi, current]
      · rfl
    · refine .inr ⟨t, t', replaces_put hring hid ?_, hpassed⟩
      rcases hplace with hplace | hplace
      · rw [hplace]
      · rw [hplace]
        exact List.perm_append_singleton t' rest

theorem Passes.switch (h : Passes now s s') : Passes now s s'.switch where
  cancelled := h.cancelled
  budget := h.budget
  weight i := by rw [switch_group, h.weight]
  bucket i := by
    rw [switch_group]
    exact h.bucket i
  tailnets := by
    rcases h.tailnets with hsame | ⟨t, t', hreplaces, hpassed⟩
    · exact .inl fun i => by rw [switch_group, hsame]
    · exact .inr ⟨t, t', hreplaces.congr fun i => switch_group, hpassed⟩

theorem Passes.askBudget (h : Passes now s s') :
    Passes now s (s'.setBudget (s.budget.refill burst nanosecond now)) where
  cancelled := h.cancelled
  budget := .inr rfl
  weight i := by rw [setBudget_group, h.weight]
  bucket i := by
    rw [setBudget_group]
    exact h.bucket i
  tailnets := by
    rcases h.tailnets with hsame | ⟨t, t', hreplaces, hpassed⟩
    · exact .inl fun i => by rw [setBudget_group, hsame]
    · exact .inr ⟨t, t', hreplaces.congr fun i => setBudget_group, hpassed⟩

theorem passed_offered (cancelled : List ℕ) : Passed now cancelled t (t.offered cancelled) where
  weight := TailnetQueue.credited_weight _
  bucket := .inl (TailnetQueue.credited_bucket _)
  requests := .inr (TailnetQueue.credited_requests _)

theorem Passed.asked {cancelled : List ℕ} (h : Passed now cancelled t t') :
    Passed now cancelled t (t'.asked now) where
  weight := h.weight
  bucket := h.bucket.trans (.inr rfl)
  requests := h.requests

theorem Passed.spent {cancelled : List ℕ} (h : Passed now cancelled t t') :
    Passed now cancelled t { t' with credit := false } := ⟨h.weight, h.bucket, h.requests⟩

theorem credited_asked (g : GroupQueue) :
    TokenBucket.Asked burst nanosecond now g.bucket (g.credited.asked now).bucket :=
  .inr (by rw [GroupQueue.asked, GroupQueue.credited_bucket])

theorem Turn.passes (h : Turn now s (.again s')) : Passes now s s' := by
  cases h with
  | empty ring => exact .switch ⟨rfl, .refl, fun _ => rfl, fun _ => .refl, .inl fun _ => rfl⟩
  | groupSpent ring credit spent => exact .switch (.put rfl .refl (.inl rfl))
  | tailnetSpent ring credit spent =>
    exact .put rfl .refl (.inr ⟨_, _, _, ring, .inr rfl, rfl, rfl, .refl, .inl rfl⟩)
  | idle visits active =>
    exact .put rfl .refl (.inr ⟨_, _, _, visits.ring, .inr rfl, rfl, rfl, .refl, .inr rfl⟩)
  | inactive visits inactive =>
    exact .switch (.put rfl .refl
      (.inr ⟨_, _, _, visits.ring, .inr rfl, rfl, rfl, .refl, .inr rfl⟩))
  | groupShort visits short =>
    exact .switch (.put (GroupQueue.credited_weight _) (.inl (GroupQueue.credited_bucket _))
      (.inr ⟨_, _, _, visits.ring, .inl rfl, TailnetQueue.offered_id _ _, passed_offered _⟩))
  | tailnetShort visits group short =>
    exact .put (GroupQueue.credited_weight _) (.inl (GroupQueue.credited_bucket _))
      (.inr ⟨_, _, _, visits.ring, .inr rfl, TailnetQueue.offered_id _ _, (passed_offered _).spent⟩)
  | groupBlocked visits group tailnet blocked =>
    exact .switch (.put (GroupQueue.credited_weight _) (credited_asked _)
      (.inr ⟨_, _, _, visits.ring, .inr rfl, TailnetQueue.offered_id _ _, passed_offered _⟩))
  | tailnetBlocked visits group tailnet allowed blocked =>
    exact .switch (.put (GroupQueue.credited_weight _) (credited_asked _)
      (.inr ⟨_, _, _, visits.ring, .inr rfl, TailnetQueue.offered_id _ _, (passed_offered _).asked⟩))

theorem Turn.stop_passes (h : Turn now s (.stop s')) : Passes now s s' := by
  cases h with
  | grace visits credit deficit early =>
    exact .put rfl .refl (.inr ⟨_, _, _, visits.ring, .inl rfl, rfl, rfl, .refl, .inr rfl⟩)
  | budget visits group tailnet allowed blocked =>
    refine Passes.askBudget (.put (GroupQueue.credited_weight _) (credited_asked s.current)
      (.inr ⟨_, _, _, visits.ring, .inl rfl, ?_, (passed_offered _).asked⟩))
    exact TailnetQueue.offered_id _ _

end Passes

structure Serves (now : ℤ) (s : Scheduler) (g : Granted) (s' : Scheduler) : Prop where
  cancelled : s'.cancelled = s.cancelled
  group : g.group = s.next
  budget : TokenBucket.Charged burst nanosecond now (some g.size) s.budget s'.budget
  weight : ∀ i, (s'.group i).weight = (s.group i).weight
  bucket : ∀ i, TokenBucket.Charged burst nanosecond now (if g.group = i then some g.size else none)
    (s.group i).bucket (s'.group i).bucket
  tailnet : ∃ t t', s.Replaces t t' s' ∧ g.tailnet = t.id ∧ t'.weight = t.weight ∧
    TokenBucket.Charged burst nanosecond now (some g.size) t.bucket t'.bucket ∧
    ∃ r, t.live s.cancelled = r :: t'.requests

theorem Turn.serves {g : Granted} (h : Turn now s (.grant g s')) : Serves now s g s' := by
  cases h with
  | @grant t rest r live visits group tailnet allowed =>
    have hlive : (((t.offered s.cancelled).asked now).served r.size).requests = live := by
      show (t.drop s.cancelled).credited.requests.tail = live
      rw [TailnetQueue.credited_requests]
      exact congrArg List.tail visits.live
    have hbucket : (t.offered s.cancelled).bucket = t.bucket := TailnetQueue.credited_bucket _
    have hreplaces : s.Replaces t (((t.offered s.cancelled).asked now).served r.size)
        (s.put { (s.current.credited.asked now).served r.size with
          tailnets := ((t.offered s.cancelled).asked now).served r.size :: rest }) :=
      replaces_put visits.ring (TailnetQueue.offered_id t s.cancelled) .rfl
    refine ⟨put_cancelled, rfl, ⟨allowed.2.2, rfl⟩, fun i => ?_, fun i => ?_, t, _,
      hreplaces.congr fun i => setBudget_group, rfl, TailnetQueue.credited_weight _,
      ⟨allowed.2.1, ?_⟩, r, ?_⟩
    · rw [setBudget_group, put_group]
      split_ifs with hi
      · rw [hi]
        exact GroupQueue.credited_weight _
      · rfl
    · rw [setBudget_group, put_group]
      by_cases hi : i = s.next
      · rw [if_pos hi, if_pos hi.symm, hi]
        refine ⟨allowed.1, ?_⟩
        show ((s.current.credited.bucket).refill _ _ _).consume _ = _
        rw [GroupQueue.credited_bucket, current]
      · rw [if_neg hi, if_neg (Ne.symm hi)]
        exact .refl
    · show ((t.offered s.cancelled).bucket.refill _ _ _).consume _ = _
      rw [hbucket]
    · rw [hlive, visits.live]

theorem Turn.passes_or_serves {t : Try} (h : Turn now s t) :
    (t.granted = none ∧ Passes now s t.state) ∨
      ∃ g, t.granted = some g ∧ Serves now s g t.state := by
  cases t with
  | again s' => exact .inl ⟨rfl, h.passes⟩
  | stop s' => exact .inl ⟨rfl, h.stop_passes⟩
  | grant g s' => exact .inr ⟨g, rfl, h.serves⟩

theorem Passes.distinct (h : Passes now s s') (hd : s.Distinct) : s'.Distinct := by
  rcases h.tailnets with hsame | ⟨t, t', hreplaces, -⟩
  · exact hd.congr hsame
  · exact hreplaces.distinct hd

theorem Passes.find_isSome (h : Passes now s s') (hd : s.Distinct) (id : String) :
    (s'.find id).isSome = (s.find id).isSome := by
  rcases h.tailnets with hsame | ⟨t, t', hreplaces, -⟩
  · rw [find_congr hsame]
  · rw [hreplaces.find hd]
    split_ifs with hid
    · rw [hid, hd.find hreplaces.current, Option.isSome_some, Option.isSome_some]
    · rfl

theorem Serves.distinct {g : Granted} (h : Serves now s g s') (hd : s.Distinct) : s'.Distinct := by
  obtain ⟨t, t', hreplaces, -⟩ := h.tailnet
  exact hreplaces.distinct hd

variable {L : Limits}

theorem new_eq_update : new L = ({} : Scheduler).update L := rfl

@[simp] theorem requeue_id (rule : TailnetLimit) : (s.requeue rule).id = rule.tailnetID := by
  unfold requeue
  cases hfind : s.find rule.tailnetID with
  | none => rfl
  | some x => exact (find_some hfind).2

theorem update_tailnets : ((s.update L).group i).tailnets =
    (L.tailnets.filter (·.groupID = i)).map s.requeue := by cases i <;> rfl

theorem mem_update {t : TailnetQueue} : t ∈ ((s.update L).group i).tailnets ↔
    ∃ rule ∈ L.tailnets, rule.groupID = i ∧ s.requeue rule = t := by
  simp [update_tailnets, and_assoc]

theorem update_distinct : (s.update L).Distinct where
  nodup i := by
    have hids : (·.id) ∘ s.requeue = TailnetLimit.tailnetID := funext requeue_id
    rw [update_tailnets, List.map_map, hids]
    exact L.nodup.sublist (List.filter_sublist.map _)
  apart {i j t u} ht hu hid := by
    obtain ⟨rule, hrule, rfl, rfl⟩ := mem_update.mp ht
    obtain ⟨rule', hrule', rfl, rfl⟩ := mem_update.mp hu
    rw [requeue_id, requeue_id] at hid
    rw [List.inj_on_of_nodup_map L.nodup hrule hrule' hid]

section Enqueue

variable {id : String} {r : Request}

theorem enqueue_tailnets (j : GroupID) : ((s.enqueue i id r).group j).tailnets =
    (s.group j).tailnets.map fun t => if j = i ∧ t.id = id then t.enqueue r else t := by
  unfold enqueue
  by_cases hj : j = i
  · simp [hj]
  · simp [group_setGroup_of_ne hj, hj]

theorem enqueue_id (j : GroupID) (t : TailnetQueue) :
    (if j = i ∧ t.id = id then t.enqueue r else t).id = t.id := by
  split_ifs <;> rfl

theorem enqueue_find (id' : String) : (s.enqueue i id r).find id' = (s.find id').map fun x =>
    (x.1, if x.1 = i ∧ x.2.id = id then x.2.enqueue r else x.2) := by
  have hfind (j : GroupID) : ((s.enqueue i id r).group j).tailnets.find? (·.id = id') =
      ((s.group j).tailnets.find? (·.id = id')).map
        fun t => if j = i ∧ t.id = id then t.enqueue r else t := by
    rw [enqueue_tailnets, List.find?_map]
    simp only [Function.comp_def, enqueue_id]
  have hshared := hfind .shared
  have howner := hfind .owner
  simp only [group] at hshared howner
  unfold find
  rw [hshared, howner]
  cases s.shared.tailnets.find? (·.id = id') with
  | some t => rfl
  | none =>
    cases s.owner.tailnets.find? (·.id = id') with
    | some t => rfl
    | none => rfl

theorem enqueue_distinct (hd : s.Distinct) : (s.enqueue i id r).Distinct where
  nodup j := by
    rw [enqueue_tailnets, List.map_map]
    have hids : (·.id) ∘ (fun t => if j = i ∧ t.id = id then t.enqueue r else t) =
      TailnetQueue.id := funext (enqueue_id j)
    rw [hids]
    exact hd.nodup j
  apart {j k t u} ht hu hid := by
    rw [enqueue_tailnets, List.mem_map] at ht hu
    obtain ⟨t, ht, rfl⟩ := ht
    obtain ⟨u, hu, rfl⟩ := hu
    rw [enqueue_id, enqueue_id] at hid
    exact hd.apart ht hu hid

end Enqueue

@[simp] theorem cancel_group {ctx : ℕ} : (s.cancel ctx).group i = s.group i := by cases i <;> rfl

theorem Change.distinct {s s' : Clocked} {e : Event} (h : Change s e s')
    (hd : s.scheduler.Distinct) : s'.scheduler.Distinct := by
  cases h with
  | update L => exact update_distinct
  | queued found small => exact enqueue_distinct hd
  | refused => exact hd
  | cancel ctx => exact hd.congr fun i => by rw [cancel_group]
  | step time search =>
    apply step_turns (R := fun _ a => a.Distinct) search hd
    intro a t hd hturn
    rcases hturn.passes_or_serves with ⟨-, hpasses⟩ | ⟨g, -, hserves⟩
    · exact hpasses.distinct hd
    · exact hserves.distinct hd

theorem Run.distinct (r : Run) {k : ℕ} (hk : k ≤ r.len) : (r.state k).scheduler.Distinct := by
  apply r.preserved (P := fun s => s.scheduler.Distinct) (Nat.zero_le k)
  · obtain ⟨L, time, hstart⟩ := r.start
    rw [hstart, new_eq_update]
    exact update_distinct
  · exact fun i _ hi hd => (r.next i (hi.trans_le hk)).change.distinct hd

def Small (s : Scheduler) : Prop :=
  ∀ i, ∀ t ∈ (s.group i).tailnets, ∀ r ∈ t.requests, r.size ≤ 65536

theorem Turn.small {t : Try} (h : Turn now s t) (hs : s.Small) : t.state.Small := by
  rcases h.passes_or_serves with ⟨-, hpasses⟩ | ⟨g, -, hserves⟩
  · rcases hpasses.tailnets with hsame | ⟨u, u', hreplaces, hpassed⟩
    · intro i
      rw [hsame]
      exact hs i
    · apply hreplaces.forall hs
      exact fun r hr => hs s.next u hreplaces.current r (hpassed.requests_subset hr)
  · obtain ⟨u, u', hreplaces, -, -, -, r, hlive⟩ := hserves.tailnet
    apply hreplaces.forall hs
    intro x hx
    apply hs s.next u hreplaces.current
    exact live_subset s.cancelled (hlive ▸ List.mem_cons_of_mem r hx)

theorem Change.small {s s' : Clocked} {e : Event} (h : Change s e s') (hs : s.scheduler.Small) :
    s'.scheduler.Small := by
  cases h with
  | update L =>
    intro i t ht r hr
    obtain ⟨rule, -, -, rfl⟩ := mem_update.mp ht
    unfold requeue at hr
    cases hfind : s.scheduler.find rule.tailnetID with
    | none => simp [hfind] at hr
    | some x =>
      rw [hfind] at hr
      exact hs _ _ (find_some hfind).1 r hr
  | queued found small =>
    intro j t ht r hr
    rw [enqueue_tailnets, List.mem_map] at ht
    obtain ⟨u, hu, rfl⟩ := ht
    split_ifs at hr
    · rcases List.mem_append.mp hr with hr | hr
      · exact hs j u hu r hr
      · rw [List.mem_singleton.mp hr]
        exact small
    · exact hs j u hu r hr
  | refused => exact hs
  | cancel ctx =>
    intro i
    rw [cancel_group]
    exact hs i
  | step time search =>
    exact step_turns (R := fun _ a => a.Small) search hs fun a t ha hturn => hturn.small ha

theorem Run.small (r : Run) {k : ℕ} (hk : k ≤ r.len) : (r.state k).scheduler.Small := by
  apply r.preserved (P := fun s => s.scheduler.Small) (Nat.zero_le k)
  · obtain ⟨L, time, hstart⟩ := r.start
    rw [hstart, new_eq_update]
    intro i t ht x hx
    obtain ⟨rule, -, -, rfl⟩ := mem_update.mp ht
    cases hx
  · exact fun i _ hi hs => (r.next i (hi.trans_le hk)).change.small hs

end Scheduler
end UniDERP.Relay
