import UniDERP.Library.Run
import UniDERP.Library.Table
import UniDERP.Relay.Scheduler

namespace UniDERP.Relay.Requests

/-- `uniderpRequest`.  The requests are numbered as they are accepted, and remember for whom. -/
structure Request where
  id : ℕ
  tailnet : String
  ctx : ℕ
  size : ℕ
  deriving DecidableEq, Repr

structure TailnetQueue where
  id : String
  weight : ℕ := 0
  deficit : ℤ := 0
  credit : Bool := false
  bucket : TokenBucket := {}
  requests : List Request := []
  queuedBytes : ℤ := 0
  idleSince : Option ℤ := none

structure GroupQueue where
  weight : ℕ := 0
  deficit : ℤ := 0
  credit : Bool := false
  bucket : TokenBucket := {}
  tailnets : List TailnetQueue := []
  next : ℕ := 0

/-- The scheduler, the contexts that are done and the messages on the channels of the requests.
The code does not keep the number of requests, nor those it dropped. -/
structure Scheduler where
  groups : GroupID → GroupQueue := fun _ => {}
  next : GroupID := .owner
  budget : TokenBucket := {}
  cancelled : List ℕ := []
  sent : List (Request × Option String) := []
  made : ℕ := 0
  dropped : List Request := []

def TailnetQueue.gone (cancelled : List ℕ) (t : TailnetQueue) : List Request :=
  t.requests.takeWhile (·.ctx ∈ cancelled)

def TailnetQueue.drop (cancelled : List ℕ) (t : TailnetQueue) : TailnetQueue :=
  { t with
    requests := t.requests.dropWhile (·.ctx ∈ cancelled)
    queuedBytes := t.queuedBytes - ((t.gone cancelled).map (·.size)).sum }

def TailnetQueue.enqueue (r : Request) (t : TailnetQueue) : TailnetQueue :=
  { t with
    requests := t.requests ++ [r], queuedBytes := t.queuedBytes + r.size, idleSince := none }

def TailnetQueue.credited (t : TailnetQueue) : TailnetQueue :=
  if t.credit then t else { t with deficit := t.deficit + quantum * t.weight, credit := true }

def GroupQueue.credited (g : GroupQueue) : GroupQueue :=
  if g.credit then g else { g with deficit := g.deficit + quantum * g.weight, credit := true }

/-- `g.tailnets[g.next] = t`. -/
def GroupQueue.set (t : TailnetQueue) (g : GroupQueue) : GroupQueue :=
  { g with tailnets := g.tailnets.set g.next t }

def GroupQueue.advance (g : GroupQueue) : GroupQueue :=
  { g with next := (g.next + 1) % g.tailnets.length }

def GroupQueue.find (id : String) (g : GroupQueue) : Option (ℕ × TailnetQueue) :=
  let k := g.tailnets.findIdx (·.id = id)
  g.tailnets[k]?.map fun t => (k, t)

namespace Scheduler

def put (g : GroupQueue) (s : Scheduler) : Scheduler :=
  { s with groups := Function.update s.groups s.next g }

def switch (s : Scheduler) : Scheduler := { s with next := s.next.other }

def new (L : Limits) : Scheduler where
  budget := { rate := L.budget }
  groups := L.tailnets.foldl
    (fun groups t => Function.update groups t.groupID { groups t.groupID with
      tailnets := (groups t.groupID).tailnets ++
        [{ id := t.tailnetID, weight := t.weight, bucket := { rate := t.maxBytesPerSec } }] })
    fun
      | .owner => { weight := L.ownerWeight }
      | .shared => { weight := L.sharedWeight, bucket := { rate := L.sharedMax } }

/-- The old queue of the rule's tailnet, or a new one, under the rule. -/
def requeued (previous : Table String TailnetQueue) (rule : TailnetLimit) : TailnetQueue :=
  let queue := (previous.get? rule.tailnetID).getD { id := rule.tailnetID }
  { queue with
    weight := rule.weight, bucket := { queue.bucket with rate := rule.maxBytesPerSec }
    deficit := 0, credit := false }

/-- One rule of the loop of `update`: the queue leaves the map and goes to its group. -/
def requeue (x : Table String TailnetQueue × (GroupID → GroupQueue)) (rule : TailnetLimit) :
    Table String TailnetQueue × (GroupID → GroupQueue) :=
  (x.1.erase rule.tailnetID, Function.update x.2 rule.groupID { x.2 rule.groupID with
    tailnets := (x.2 rule.groupID).tailnets ++ [requeued x.1 rule] })

def previous (s : Scheduler) : Table String TailnetQueue :=
  ((s.groups .owner).tailnets ++ (s.groups .shared).tailnets).foldl (fun m t => m.insert t.id t) ∅

def emptied (L : Limits) (s : Scheduler) : GroupID → GroupQueue
  | .owner => { weight := L.ownerWeight }
  | .shared => { weight := L.sharedWeight
                 bucket := { (s.groups .shared).bucket with rate := L.sharedMax } }

def update (L : Limits) (s : Scheduler) : Scheduler :=
  let (previous, groups) := L.tailnets.foldl requeue (s.previous, s.emptied L)
  { s with
    groups := groups
    budget := { s.budget with rate := L.budget }
    next := .owner
    sent := s.sent ++ previous.values.flatMap fun queue =>
      queue.requests.map fun r => (r, some "UniDERP tailnet authorization removed") }

def find (id : String) (s : Scheduler) : Option (GroupID × ℕ × TailnetQueue) :=
  match (s.groups .shared).find id with
  | some (k, t) => some (.shared, k, t)
  | none => ((s.groups .owner).find id).map fun (k, t) => (.owner, k, t)

/-- The queue `q`, which is the `k`th of its group, gets a request. -/
def enqueue (i : GroupID) (k : ℕ) (q : TailnetQueue) (r : Request) (s : Scheduler) : Scheduler :=
  { s with
    groups := Function.update s.groups i { s.groups i with
      tailnets := (s.groups i).tailnets.set k (q.enqueue r) }
    made := s.made + 1 }

/-- The part of `wait` under the lock. -/
def wait (ctx : ℕ) (id : String) (size : ℤ) (s : Scheduler) : Except String Scheduler := do
  require (0 ≤ size ∧ size ≤ 65536) "UniDERP invalid payload size"
  let (i, k, q) ← orElse (s.find id) "UniDERP tailnet queue unavailable"
  require (q.requests.length < 256 ∧ q.queuedBytes + size ≤ tailnetQueueBytes)
    "UniDERP tailnet queue unavailable"
  return s.enqueue i k q ⟨s.made, id, ctx, size.toNat⟩

/-- How one pass of the loop of `step` ends; an index out of range is a panic. -/
inductive Try
  | again (s : Scheduler)
  | stop (s : Scheduler)
  | grant (s : Scheduler)
  | panic

def grace (s : Scheduler) : ℤ := min 2000000 ((1200 * 10 ^ 9 / max s.budget.rate 1 : ℕ) : ℤ)

/-- The pass over a queue `t` without requests. -/
def idle (now : ℤ) (t : TailnetQueue) (s : Scheduler) : Try :=
  let g := s.groups s.next
  let idleSince := t.idleSince.getD now
  let t := { t with idleSince := some idleSince }
  if g.credit ∧ 0 < g.deficit ∧ now - idleSince < s.grace then .stop (s.put (g.set t))
  else
    let g := (g.set { t with deficit := 0, credit := false }).advance
    if g.tailnets.any (·.requests ≠ []) then .again (s.put g)
    else .again (s.put { g with deficit := 0, credit := false }).switch

/-- The pass over a queue `t` that starts with the request `r`. -/
def offer (now : ℤ) (t : TailnetQueue) (r : Request) (s : Scheduler) : Try :=
  let g := (s.groups s.next).credited
  let t := t.credited
  let n := r.size
  if g.deficit < n then .again (s.put { g.set t with credit := false }).switch
  else if t.deficit < n then .again (s.put (g.set { t with credit := false }).advance)
  else
    let (ok, bucket) := g.bucket.available burst nanosecond now n
    let g := { g with bucket := bucket }
    if !ok then .again (s.put (g.set t).advance).switch
    else
      let (ok, bucket) := t.bucket.available burst nanosecond now n
      let t := { t with bucket := bucket }
      if !ok then .again (s.put (g.set t).advance).switch
      else
        let (ok, budget) := s.budget.available burst nanosecond now n
        let s := { s with budget := budget }
        if !ok then .stop (s.put (g.set t))
        else
          let t := { t with
            bucket := t.bucket.consume n, deficit := t.deficit - n
            queuedBytes := t.queuedBytes - n, requests := t.requests.tail }
          let g := { g with bucket := g.bucket.consume n, deficit := g.deficit - n }
          .grant { s.put (g.set t) with
            budget := s.budget.consume n
            sent := s.sent ++ [(r, none)] }

/-- The body of the loop of `step`. -/
def attempt (now : ℤ) (s : Scheduler) : Try :=
  let g := s.groups s.next
  if g.tailnets.isEmpty then .again s.switch
  else if g.credit ∧ g.deficit = 0 then .again (s.put { g with credit := false }).switch
  else match g.tailnets[g.next]? with
    | none => .panic
    | some t =>
      if t.credit ∧ t.deficit = 0 then .again (s.put (g.set { t with credit := false }).advance)
      else
        let dropping := { s with dropped := s.dropped ++ t.gone s.cancelled }
        match (t.drop s.cancelled).requests with
        | [] => dropping.idle now (t.drop s.cancelled)
        | r :: _ => dropping.offer now (t.drop s.cancelled) r

def cancel (ctxs : List ℕ) (s : Scheduler) : Scheduler := { s with cancelled := ctxs ++ s.cancelled }

/-- The loop of `step` with the tries that are left, and the contexts that are cancelled before each
of them. -/
def search (now : ℤ) : ℕ → (ℕ → List ℕ) → Scheduler → Option Scheduler
  | 0, _, s => some s
  | tries + 1, ctxs, s =>
    match (s.cancel (ctxs 0)).attempt now with
    | .again s => search now tries (fun i => ctxs (i + 1)) s
    | .stop s => some s
    | .grant s => some s
    | .panic => none

def step (now : ℤ) (ctxs : ℕ → List ℕ) (s : Scheduler) : Option Scheduler := search now 512 ctxs s

inductive Call
  | update (L : Limits)
  | wait (ctx : ℕ) (id : String) (size : ℤ)
  | cancel (ctx : ℕ)
  | step (now : ℤ) (ctxs : ℕ → List ℕ)

def act : Call → Scheduler → Option Scheduler
  | .update L, s => some (s.update L)
  | .wait ctx id size, s => some ((s.wait ctx id size).toOption.getD s)
  | .cancel ctx, s => some (s.cancel [ctx])
  | .step now ctxs, s => s.step now ctxs

def Start (s : Scheduler) : Prop := ∃ L, s = new L

def Step (s : Scheduler) (c : Call) (s' : Scheduler) : Prop := act c s = some s'

abbrev Run := UniDERP.Run Start Step

end Scheduler

/-- What a deficit can be: a queue keeps less than the largest request when its credit is spent. -/
def Bounded (deficit : ℤ) (credit : Bool) (weight : ℕ) : Prop :=
  0 ≤ deficit ∧ deficit ≤ 65535 + if credit then quantum * weight else 0

structure TailnetQueue.Good (t : TailnetQueue) : Prop where
  bytes : t.queuedBytes = (t.requests.map (·.size)).sum
  full : t.queuedBytes ≤ tailnetQueueBytes
  count : t.requests.length ≤ 256
  requests : ∀ r ∈ t.requests, r.tailnet = t.id ∧ r.size ≤ 65536
  order : t.requests.Pairwise (·.id < ·.id)
  deficit : Bounded t.deficit t.credit t.weight

structure GroupQueue.Good (g : GroupQueue) : Prop where
  cursor : g.next < g.tailnets.length ∨ g.tailnets = [] ∧ g.next = 0
  deficit : Bounded g.deficit g.credit g.weight
  queues : ∀ t ∈ g.tailnets, t.Good

section Good

variable {deficit : ℤ} {credit : Bool} {weight : ℕ} {t : TailnetQueue} {g : GroupQueue}

theorem bounded_zero : Bounded 0 credit weight := by
  refine ⟨le_rfl, ?_⟩
  split_ifs <;> positivity

theorem Bounded.spent {n : ℕ} (h : Bounded deficit credit weight) (hn : n ≤ 65536)
    (hlt : deficit < n) : Bounded deficit false weight := by
  refine ⟨h.1, ?_⟩
  rw [if_neg Bool.false_ne_true]
  omega

theorem Bounded.served {n : ℕ} (h : Bounded deficit credit weight) (hn : ¬ deficit < n) :
    Bounded (deficit - n) credit weight :=
  ⟨by omega, by have := h.2; omega⟩

def credited (deficit : ℤ) (credit : Bool) (weight : ℕ) : ℤ :=
  if credit then deficit else deficit + quantum * weight

theorem Bounded.credited (h : Bounded deficit credit weight) :
    Bounded (credited deficit credit weight) true weight := by
  obtain ⟨h0, hle⟩ := h
  unfold Requests.credited
  split_ifs with hcredit
  · rw [hcredit] at hle
    exact ⟨h0, hle⟩
  · rw [if_neg hcredit] at hle
    refine ⟨by positivity, ?_⟩
    rw [if_pos rfl]
    omega

theorem TailnetQueue.credited_eq (t : TailnetQueue) :
    t.credited =
      { t with deficit := Requests.credited t.deficit t.credit t.weight, credit := true } := by
  unfold TailnetQueue.credited Requests.credited
  split_ifs with h
  · rw [← h]
  · rfl

theorem GroupQueue.credited_eq (g : GroupQueue) :
    g.credited =
      { g with deficit := Requests.credited g.deficit g.credit g.weight, credit := true } := by
  unfold GroupQueue.credited Requests.credited
  split_ifs with h
  · rw [← h]
  · rfl

theorem gone_append_drop (cancelled : List ℕ) (t : TailnetQueue) :
    t.gone cancelled ++ (t.drop cancelled).requests = t.requests := List.takeWhile_append_dropWhile

theorem TailnetQueue.Good.leave (h : t.Good) {t' : TailnetQueue} (left : List Request)
    (hid : t'.id = t.id) (hrequests : t.requests = left ++ t'.requests)
    (hbytes : t'.queuedBytes = t.queuedBytes - (left.map (·.size)).sum)
    (hdeficit : Bounded t'.deficit t'.credit t'.weight) : t'.Good := by
  have hsum := h.bytes
  rw [hrequests, List.map_append, List.sum_append] at hsum
  have hsuffix : t'.requests.Sublist t.requests := by
    rw [hrequests]
    exact List.sublist_append_right _ _
  refine ⟨?_, ?_, hsuffix.length_le.trans h.count, ?_, h.order.sublist hsuffix, hdeficit⟩
  · rw [Nat.cast_add] at hsum
    omega
  · have := h.full
    omega
  · intro r hr
    rw [hid]
    exact h.requests r (hsuffix.subset hr)

theorem TailnetQueue.Good.keep (h : t.Good) {t' : TailnetQueue} (hid : t'.id = t.id)
    (hrequests : t'.requests = t.requests) (hbytes : t'.queuedBytes = t.queuedBytes)
    (hdeficit : Bounded t'.deficit t'.credit t'.weight) : t'.Good :=
  h.leave [] hid (by rw [hrequests]; rfl) (by simpa using hbytes) hdeficit

theorem empty_good (id : String) : TailnetQueue.Good { id := id } := by
  refine ⟨rfl, ?_, ?_, by simp, List.Pairwise.nil, bounded_zero⟩
  · exact Int.natCast_nonneg _
  · exact Nat.zero_le _

theorem TailnetQueue.Good.drop (h : t.Good) (cancelled : List ℕ) : (t.drop cancelled).Good :=
  h.leave _ rfl (gone_append_drop cancelled t).symm rfl h.deficit

end Good

namespace Scheduler

def Try.state? : Try → Option Scheduler
  | .again s | .stop s | .grant s => some s
  | .panic => none

/-- What a pass does: requests leave one queue of the current group at the front, some as dropped
and at most one as granted. -/
structure Turned (s s' : Scheduler) (drops grants : List Request) : Prop where
  other : ∀ i, i ≠ s.next → s'.groups i = s.groups i
  good : (s'.groups s.next).Good
  queue : (s'.groups s.next).tailnets = (s.groups s.next).tailnets ∧ drops ++ grants = [] ∨
    ∃ k t t', (s.groups s.next).tailnets[k]? = some t ∧
      (s'.groups s.next).tailnets = (s.groups s.next).tailnets.set k t' ∧ t'.id = t.id ∧
      t.requests = drops ++ grants ++ t'.requests
  cancelled : s'.cancelled = s.cancelled ∧ ∀ r ∈ drops, r.ctx ∈ s.cancelled
  made : s'.made = s.made
  sent : s'.sent = s.sent ++ grants.map fun r => (r, none)
  dropped : s'.dropped = s.dropped ++ drops

section Turned

variable {s s' : Scheduler} {g' : GroupQueue} {t t' : TailnetQueue} {drops grants : List Request}

/-- The pass looked at the queue `t` and left `t'`. -/
theorem turned_set (hg : (s.groups s.next).Good)
    (ht : (s.groups s.next).tailnets[(s.groups s.next).next]? = some t)
    (hgroups : s'.groups = Function.update s.groups s.next g')
    (htailnets : g'.tailnets = (s.groups s.next).tailnets.set (s.groups s.next).next t')
    (ht' : t'.Good) (hid : t'.id = t.id) (hrequests : t.requests = drops ++ grants ++ t'.requests)
    (hdrops : ∀ r ∈ drops, r.ctx ∈ s.cancelled)
    (hnext : g'.next = (s.groups s.next).next ∨
      g'.next = ((s.groups s.next).next + 1) % g'.tailnets.length)
    (hdeficit : Bounded g'.deficit g'.credit g'.weight) (hcancelled : s'.cancelled = s.cancelled)
    (hmade : s'.made = s.made) (hsent : s'.sent = s.sent ++ grants.map fun r => (r, none))
    (hdropped : s'.dropped = s.dropped ++ drops) : Turned s s' drops grants := by
  have hlt : (s.groups s.next).next < (s.groups s.next).tailnets.length :=
    (List.getElem?_eq_some_iff.mp ht).1
  refine ⟨fun i hi => ?_, ?_, .inr ⟨_, t, t', ht, ?_, hid, hrequests⟩, ⟨hcancelled, hdrops⟩, hmade,
    hsent, hdropped⟩
  · rw [hgroups, Function.update_of_ne hi]
  · rw [hgroups, Function.update_self]
    refine ⟨.inl ?_, hdeficit, fun q hq => ?_⟩
    · rcases hnext with hsame | hon
      · rw [hsame, htailnets, List.length_set]
        exact hlt
      · rw [hon]
        refine Nat.mod_lt _ ?_
        rw [htailnets, List.length_set]
        omega
    · rw [htailnets] at hq
      rcases List.mem_or_eq_of_mem_set hq with hold | rfl
      · exact hg.queues q hold
      · exact ht'
  · rw [hgroups, Function.update_self, htailnets]

theorem turned_same (g' : GroupQueue) (hg : g'.Good)
    (htailnets : g'.tailnets = (s.groups s.next).tailnets)
    (hgroups : s'.groups = Function.update s.groups s.next g')
    (hcancelled : s'.cancelled = s.cancelled)
    (hmade : s'.made = s.made) (hsent : s'.sent = s.sent) (hdropped : s'.dropped = s.dropped) :
    Turned s s' [] [] := by
  refine ⟨fun i hi => ?_, ?_, .inl ⟨?_, rfl⟩, ⟨hcancelled, by simp⟩, hmade, by simpa using hsent,
    by simpa using hdropped⟩
  · rw [hgroups, Function.update_of_ne hi]
  · rw [hgroups, Function.update_self]
    exact hg
  · rw [hgroups, Function.update_self, htailnets]

theorem gone_cancelled {r : Request} {cancelled : List ℕ} (h : r ∈ t.gone cancelled) :
    r.ctx ∈ cancelled := by
  simpa using List.mem_takeWhile_imp h

theorem idle_turned (now : ℤ) (hg : (s.groups s.next).Good)
    (ht : (s.groups s.next).tailnets[(s.groups s.next).next]? = some t) :
    ∃ s', (idle now (t.drop s.cancelled)
        { s with dropped := s.dropped ++ t.gone s.cancelled }).state? = some s' ∧
      Turned s s' (t.gone s.cancelled) [] := by
  have htg := (hg.queues t (List.mem_of_getElem? ht)).drop s.cancelled
  have hrequests : t.requests = t.gone s.cancelled ++ [] ++ (t.drop s.cancelled).requests := by
    rw [List.append_nil, gone_append_drop]
  unfold idle
  dsimp only
  split_ifs
  · exact ⟨_, rfl, turned_set hg ht rfl rfl (htg.keep rfl rfl rfl htg.deficit) rfl hrequests
      (fun r => gone_cancelled) (.inl rfl) hg.deficit rfl rfl (by simp [put]) rfl⟩
  · exact ⟨_, rfl, turned_set hg ht rfl rfl (htg.keep rfl rfl rfl bounded_zero) rfl hrequests
      (fun r => gone_cancelled) (.inr rfl) hg.deficit rfl rfl (by simp [put]) rfl⟩
  · exact ⟨_, rfl, turned_set hg ht rfl rfl (htg.keep rfl rfl rfl bounded_zero) rfl hrequests
      (fun r => gone_cancelled) (.inr rfl) bounded_zero rfl rfl (by simp [put, switch]) rfl⟩

theorem offer_turned (now : ℤ) (hg : (s.groups s.next).Good)
    (ht : (s.groups s.next).tailnets[(s.groups s.next).next]? = some t) {r : Request}
    {rest : List Request} (hr : (t.drop s.cancelled).requests = r :: rest) :
    ∃ s' grants, (offer now (t.drop s.cancelled) r
        { s with dropped := s.dropped ++ t.gone s.cancelled }).state? = some s' ∧
      Turned s s' (t.gone s.cancelled) grants := by
  have htg := (hg.queues t (List.mem_of_getElem? ht)).drop s.cancelled
  have hsize : r.size ≤ 65536 := (htg.requests r (by simp [hr])).2
  have hrequests : t.requests = t.gone s.cancelled ++ [] ++ (t.drop s.cancelled).requests := by
    rw [List.append_nil, gone_append_drop]
  have hgd := hg.deficit.credited
  have htd := htg.deficit.credited
  unfold offer
  rw [GroupQueue.credited_eq, TailnetQueue.credited_eq]
  dsimp only
  split_ifs with hgn htn hgb htb hb
  · exact ⟨_, [], rfl, turned_set hg ht rfl rfl (htg.keep rfl rfl rfl htd) rfl hrequests
      (fun r => gone_cancelled) (.inl rfl) (hgd.spent hsize hgn) rfl rfl (by simp [put, switch]) rfl⟩
  · exact ⟨_, [], rfl, turned_set hg ht rfl rfl (htg.keep rfl rfl rfl (htd.spent hsize htn)) rfl
      hrequests (fun r => gone_cancelled) (.inr rfl) hgd rfl rfl (by simp [put]) rfl⟩
  · exact ⟨_, [], rfl, turned_set hg ht rfl rfl (htg.keep rfl rfl rfl htd) rfl hrequests
      (fun r => gone_cancelled) (.inr rfl) hgd rfl rfl (by simp [put, switch]) rfl⟩
  · exact ⟨_, [], rfl, turned_set hg ht rfl rfl (htg.keep rfl rfl rfl htd) rfl hrequests
      (fun r => gone_cancelled) (.inr rfl) hgd rfl rfl (by simp [put, switch]) rfl⟩
  · exact ⟨_, [], rfl, turned_set hg ht rfl rfl (htg.keep rfl rfl rfl htd) rfl hrequests
      (fun r => gone_cancelled) (.inl rfl) hgd rfl rfl (by simp [put]) rfl⟩
  · have hserved : (t.drop s.cancelled).requests = [r] ++ (t.drop s.cancelled).requests.tail := by
      rw [hr]
      rfl
    refine ⟨_, [r], rfl, turned_set hg ht rfl rfl ?_ rfl ?_ (fun r => gone_cancelled) (.inl rfl)
      (hgd.served hgn) rfl rfl rfl rfl⟩
    · exact htg.leave [r] rfl hserved (by simp) (htd.served htn)
    · rw [List.append_assoc, ← hserved, gone_append_drop]

/-- Every pass leaves the groups well formed, and none panics. -/
theorem attempt_turned (hg : ∀ i, (s.groups i).Good) (now : ℤ) :
    ∃ s' drops grants, (s.attempt now).state? = some s' ∧ Turned s s' drops grants := by
  have hnext := hg s.next
  unfold attempt
  dsimp only
  split_ifs with hempty hspent
  · exact ⟨_, [], [], rfl, turned_same _ hnext rfl (Function.update_eq_self _ _).symm rfl rfl rfl rfl⟩
  · refine ⟨_, [], [], rfl, turned_same { s.groups s.next with credit := false } ?_ rfl rfl rfl
      rfl rfl rfl⟩
    exact ⟨hnext.cursor, by rw [hspent.2]; exact bounded_zero, hnext.queues⟩
  · have hlt : (s.groups s.next).next < (s.groups s.next).tailnets.length := by
      refine hnext.cursor.resolve_right fun h => hempty ?_
      rw [h.1]
      rfl
    obtain ⟨t, ht⟩ : ∃ t, (s.groups s.next).tailnets[(s.groups s.next).next]? = some t :=
      ⟨_, List.getElem?_eq_getElem hlt⟩
    have htg := hnext.queues t (List.mem_of_getElem? ht)
    simp only [ht]
    split_ifs with hcredit
    · refine ⟨_, [], [], rfl, turned_set hnext ht rfl rfl ?_ rfl rfl (by simp) (.inr rfl)
        hnext.deficit rfl rfl (by simp [put, GroupQueue.advance]) (by simp [put])⟩
      exact htg.keep rfl rfl rfl (by rw [hcredit.2]; exact bounded_zero)
    · split
      · obtain ⟨s', hstate, hturned⟩ := idle_turned now hnext ht
        exact ⟨s', _, _, hstate, hturned⟩
      · next r rest hr =>
        obtain ⟨s', grants, hstate, hturned⟩ := offer_turned now hnext ht hr
        exact ⟨s', _, grants, hstate, hturned⟩

end Turned

def queuesOf (groups : GroupID → GroupQueue) : List TailnetQueue :=
  (groups .owner).tailnets ++ (groups .shared).tailnets

def queues (s : Scheduler) : List TailnetQueue := queuesOf s.groups

def pending (s : Scheduler) : List Request := s.queues.flatMap (·.requests)

def known (s : Scheduler) : List Request := s.pending ++ s.sent.map (·.1) ++ s.dropped

structure Valid (s : Scheduler) : Prop where
  distinct : (s.queues.map (·.id)).Nodup
  groups : ∀ i, (s.groups i).Good
  conserved : (s.known.map (·.id)).Perm (List.range s.made)
  dropped : ∀ r ∈ s.dropped, r.ctx ∈ s.cancelled
  granted : ∀ r, (r, none) ∈ s.sent → ∀ r' ∈ s.pending, r'.tailnet = r.tailnet → r.id < r'.id
  order : s.sent.Pairwise fun x y =>
    x.2 = none → y.2 = none → x.1.tailnet = y.1.tailnet → x.1.id < y.1.id

section Valid

variable {s s' : Scheduler} {drops grants : List Request}

theorem mem_queues {t : TailnetQueue} : t ∈ s.queues ↔ ∃ i, t ∈ (s.groups i).tailnets := by
  rw [queues, queuesOf, List.mem_append]
  constructor
  · rintro (h | h)
    · exact ⟨.owner, h⟩
    · exact ⟨.shared, h⟩
  · rintro ⟨i, h⟩
    cases i
    · exact .inl h
    · exact .inr h

theorem Valid.queue (h : s.Valid) {t : TailnetQueue} (ht : t ∈ s.queues) : t.Good := by
  obtain ⟨i, hi⟩ := mem_queues.mp ht
  exact (h.groups i).queues t hi

theorem Valid.lt_made (h : s.Valid) {r : Request} (hr : r ∈ s.known) : r.id < s.made :=
  List.mem_range.mp (h.conserved.subset (List.mem_map_of_mem hr))

theorem flatMap_set {ts : List TailnetQueue} {k : ℕ} {t : TailnetQueue} (t' : TailnetQueue)
    (ht : ts[k]? = some t) : (ts.flatMap (·.requests) ++ t'.requests).Perm
      ((ts.set k t').flatMap (·.requests) ++ t.requests) := by
  obtain ⟨hk, rfl⟩ := List.getElem?_eq_some_iff.mp ht
  rw [List.set_eq_take_append_cons_drop, if_pos hk, List.perm_iff_count]
  conv in ts.flatMap _ => rw [← List.take_append_drop k ts, List.drop_eq_getElem_cons hk]
  intro r
  simp only [List.flatMap_append, List.flatMap_cons, List.count_append]
  omega

theorem map_id_set {ts : List TailnetQueue} {k : ℕ} {t t' : TailnetQueue} (ht : ts[k]? = some t)
    (hid : t'.id = t.id) : (ts.set k t').map (·.id) = ts.map (·.id) := by
  obtain ⟨hk, rfl⟩ := List.getElem?_eq_some_iff.mp ht
  have hself := @List.set_getElem_self _ (ts.map (·.id)) k (by simpa using hk)
  rwa [List.getElem_map, ← hid, ← List.map_set] at hself

theorem Turned.ids (h : Turned s s' drops grants) (i : GroupID) :
    (s'.groups i).tailnets.map (·.id) = (s.groups i).tailnets.map (·.id) := by
  by_cases hi : i = s.next
  · subst hi
    rcases h.queue with ⟨hsame, -⟩ | ⟨k, t, t', ht, hset, hid, -⟩
    · rw [hsame]
    · rw [hset, map_id_set ht hid]
  · rw [h.other i hi]

theorem pending_set {i : GroupID} {k : ℕ} {t t' : TailnetQueue}
    (hother : ∀ j, j ≠ i → s'.groups j = s.groups j) (ht : (s.groups i).tailnets[k]? = some t)
    (hset : (s'.groups i).tailnets = (s.groups i).tailnets.set k t') :
    (s.pending ++ t'.requests).Perm (s'.pending ++ t.requests) := by
  have hgroup := flatMap_set t' ht
  rw [← hset] at hgroup
  rw [List.perm_iff_count] at hgroup ⊢
  intro r
  have hr := hgroup r
  unfold Scheduler.pending queues queuesOf
  cases i with
  | owner =>
    rw [hother .shared (by decide)]
    simp only [List.flatMap_append, List.count_append] at hr ⊢
    omega
  | shared =>
    rw [hother .owner (by decide)]
    simp only [List.flatMap_append, List.count_append] at hr ⊢
    omega

theorem Turned.pending (h : Turned s s' drops grants) :
    s.pending.Perm (drops ++ grants ++ s'.pending) := by
  rcases h.queue with ⟨hsame, hnone⟩ | ⟨k, t, t', ht, hset, -, hrequests⟩
  · have hgroups : ∀ i, (s'.groups i).tailnets = (s.groups i).tailnets := by
      intro i
      by_cases hi : i = s.next
      · rw [hi, hsame]
      · rw [h.other i hi]
    rw [hnone, Scheduler.pending, Scheduler.pending, queues, queues, queuesOf, queuesOf, hgroups,
      hgroups]
    exact .refl _
  · have hset := pending_set h.other ht hset
    rw [hrequests, List.perm_iff_count] at hset
    rw [List.perm_iff_count]
    intro r
    have hr := hset r
    simp only [List.count_append] at hr ⊢
    omega

theorem Turned.distinct (h : Turned s s' drops grants) (hs : s.Valid) :
    (s'.queues.map (·.id)).Nodup := by
  have hids : s'.queues.map (·.id) = s.queues.map (·.id) := by
    rw [queues, queues, queuesOf, queuesOf, List.map_append, List.map_append, h.ids, h.ids]
  exact hids ▸ hs.distinct

theorem Turned.groups (h : Turned s s' drops grants) (hs : s.Valid) (i : GroupID) :
    (s'.groups i).Good := by
  by_cases hi : i = s.next
  · exact hi ▸ h.good
  · rw [h.other i hi]
    exact hs.groups i

/-- A granted request is the first of its queue that is left, and the queue is the only one of its
tailnet. -/
theorem Turned.first (h : Turned s s' drops grants) (hs : s.Valid) {r : Request} (hr : r ∈ grants) :
    r ∈ s.pending ∧ ∀ r' ∈ s'.pending, r'.tailnet = r.tailnet → r.id < r'.id := by
  rcases h.queue with ⟨-, hnone⟩ | ⟨k, t, t', ht, hset, hid, hrequests⟩
  · rw [(List.append_eq_nil_iff.mp hnone).2] at hr
    cases hr
  have hmem : t ∈ s.queues := mem_queues.mpr ⟨s.next, List.mem_of_getElem? ht⟩
  have htg := hs.queue hmem
  have hrt : r ∈ t.requests := by
    rw [hrequests]
    exact List.mem_append_left _ (List.mem_append_right _ hr)
  refine ⟨List.mem_flatMap.mpr ⟨t, hmem, hrt⟩, fun r' hr' htailnet => ?_⟩
  obtain ⟨q, hq, hrq⟩ := List.mem_flatMap.mp hr'
  obtain ⟨i, hi⟩ := mem_queues.mp hq
  have hqg := (h.groups hs i).queues q hi
  have hmem' : t' ∈ s'.queues := by
    refine mem_queues.mpr ⟨s.next, ?_⟩
    rw [hset]
    exact List.mem_set (List.getElem?_eq_some_iff.mp ht).1 _
  have hsame : q = t' := by
    refine List.inj_on_of_nodup_map (h.distinct hs) hq hmem' ?_
    rw [hid, ← (htg.requests r hrt).1, ← (hqg.requests r' hrq).1, htailnet]
  subst hsame
  have horder := htg.order
  rw [hrequests, List.pairwise_append] at horder
  exact horder.2.2 r (List.mem_append_right _ hr) r' hrq

theorem Turned.order (h : Turned s s' drops grants) (hs : s.Valid) :
    grants.Pairwise (fun r r' => r.id < r'.id) := by
  rcases h.queue with ⟨-, hnone⟩ | ⟨k, t, t', ht, -, -, hrequests⟩
  · rw [(List.append_eq_nil_iff.mp hnone).2]
    exact List.Pairwise.nil
  · have horder := (hs.queue (mem_queues.mpr ⟨s.next, List.mem_of_getElem? ht⟩)).order
    rw [hrequests, List.pairwise_append, List.pairwise_append] at horder
    exact horder.1.2.1

theorem Turned.known (h : Turned s s' drops grants) : s'.known.Perm s.known := by
  have hpending := h.pending
  rw [List.perm_iff_count] at hpending ⊢
  intro r
  have hr := hpending r
  simp only [Scheduler.known, h.sent, h.dropped, List.map_append, List.map_map, List.count_append,
    Function.comp_def, List.map_id'] at hr ⊢
  omega

theorem Turned.valid (h : Turned s s' drops grants) (hs : s.Valid) : s'.Valid := by
  refine ⟨h.distinct hs, h.groups hs, ?_, ?_, ?_, ?_⟩
  · rw [h.made]
    exact (h.known.map _).trans hs.conserved
  · intro r hr
    rw [h.cancelled.1]
    rw [h.dropped, List.mem_append] at hr
    rcases hr with hr | hr
    · exact hs.dropped r hr
    · exact h.cancelled.2 r hr
  · intro r hr r' hr' htailnet
    rw [h.sent, List.mem_append] at hr
    rcases hr with hr | hr
    · exact hs.granted r hr r' (h.pending.symm.subset (List.mem_append_right _ hr')) htailnet
    · obtain ⟨r₀, hr₀, heq⟩ := List.mem_map.mp hr
      obtain rfl : r₀ = r := congrArg Prod.fst heq
      exact (h.first hs hr₀).2 r' hr' htailnet
  · -- Older answers came before whatever was pending, and the new ones are in order.
    rw [h.sent, List.pairwise_append, List.pairwise_map]
    refine ⟨hs.order, (h.order hs).imp fun hlt _ _ _ => hlt, ?_⟩
    intro x hx y hy hxn _ htailnet
    obtain ⟨r, hr, rfl⟩ := List.mem_map.mp hy
    obtain ⟨r₀, answer⟩ := x
    obtain rfl : answer = none := hxn
    exact hs.granted r₀ hx r (h.first hs hr).1 htailnet.symm

theorem cancel_valid (hs : s.Valid) (ctxs : List ℕ) : (s.cancel ctxs).Valid :=
  ⟨hs.distinct, hs.groups, hs.conserved, fun r hr => List.mem_append_right _ (hs.dropped r hr),
    hs.granted, hs.order⟩

/-- A search grants requests and does not panic. -/
theorem search_valid (now : ℤ) (tries : ℕ) (ctxs : ℕ → List ℕ) (hs : s.Valid) :
    ∃ (s' : Scheduler) (grants : List Request), search now tries ctxs s = some s' ∧ s'.Valid ∧
      s'.sent = s.sent ++ grants.map fun r => (r, none) := by
  induction tries generalizing ctxs s with
  | zero => exact ⟨s, [], rfl, hs, by simp⟩
  | succ tries ih =>
    have hcancel := cancel_valid hs (ctxs 0)
    obtain ⟨s₁, drops, grants, hstate, hturned⟩ := attempt_turned hcancel.groups now
    have hs₁ := hturned.valid hcancel
    have hsent : s₁.sent = s.sent ++ grants.map fun r => (r, none) := hturned.sent
    unfold search
    cases hattempt : (s.cancel (ctxs 0)).attempt now with
    | again s₂ =>
      rw [hattempt, Try.state?, Option.some.injEq] at hstate
      subst hstate
      obtain ⟨s', grants', hsearch, hs', hsent'⟩ := ih (fun i => ctxs (i + 1)) hs₁
      refine ⟨s', grants ++ grants', hsearch, hs', ?_⟩
      rw [hsent', hsent, List.map_append, List.append_assoc]
    | stop s₂ =>
      rw [hattempt, Try.state?, Option.some.injEq] at hstate
      subst hstate
      exact ⟨s₂, grants, rfl, hs₁, hsent⟩
    | grant s₂ =>
      rw [hattempt, Try.state?, Option.some.injEq] at hstate
      subst hstate
      exact ⟨s₂, grants, rfl, hs₁, hsent⟩
    | panic =>
      rw [hattempt] at hstate
      cases hstate

theorem group_find_some {g : GroupQueue} {id : String} {k : ℕ} {t : TailnetQueue}
    (h : g.find id = some (k, t)) : g.tailnets[k]? = some t ∧ t.id = id := by
  obtain ⟨t', ht', heq⟩ := Option.map_eq_some_iff.mp h
  obtain ⟨rfl, rfl⟩ := Prod.mk.inj heq
  refine ⟨ht', ?_⟩
  obtain ⟨hlt, hget⟩ := List.getElem?_eq_some_iff.mp ht'
  have hfound := List.findIdx_getElem (w := hlt)
  rw [hget] at hfound
  simpa using hfound

theorem find_some {id : String} {i : GroupID} {k : ℕ} {t : TailnetQueue}
    (h : s.find id = some (i, k, t)) : (s.groups i).tailnets[k]? = some t ∧ t.id = id := by
  unfold find at h
  split at h
  · next k' t' hshared =>
    cases h
    exact group_find_some hshared
  · obtain ⟨⟨k', t'⟩, howner, heq⟩ := Option.map_eq_some_iff.mp h
    cases heq
    exact group_find_some howner

theorem wait_eq_ok {ctx : ℕ} {id : String} {size : ℤ} (h : s.wait ctx id size = .ok s') :
    ∃ (i : GroupID) (k : ℕ) (q : TailnetQueue) (r : Request),
      (s.groups i).tailnets[k]? = some q ∧ q.requests.length < 256 ∧
      q.queuedBytes + (r.size : ℤ) ≤ tailnetQueueBytes ∧ s' = s.enqueue i k q r ∧ r.id = s.made ∧
      r.tailnet = q.id ∧ r.size ≤ 65536 := by
  simp only [wait, Except_bind_eq_ok, require_eq_ok, orElse_eq_ok, exists_const] at h
  obtain ⟨⟨h0, hsize⟩, ⟨i, k, q⟩, hfind, ⟨hcount, hbytes⟩, hs'⟩ := h
  obtain ⟨hq, hid⟩ := find_some hfind
  refine ⟨i, k, q, _, hq, hcount, ?_, (Except.ok.inj hs').symm, rfl, hid.symm, ?_⟩
  · dsimp only at hbytes ⊢
    omega
  · dsimp only
    omega

theorem enqueue_good {q : TailnetQueue} {r : Request} (hq : q.Good) (hcount : q.requests.length < 256)
    (hbytes : q.queuedBytes + r.size ≤ tailnetQueueBytes) (htailnet : r.tailnet = q.id)
    (hsize : r.size ≤ 65536) (hlater : ∀ r' ∈ q.requests, r'.id < r.id) : (q.enqueue r).Good := by
  refine ⟨?_, hbytes, ?_, ?_, ?_, hq.deficit⟩
  · have := hq.bytes
    simp only [TailnetQueue.enqueue, List.map_append, List.sum_append, List.map_cons, List.map_nil,
      List.sum_singleton, Nat.cast_add]
    omega
  · simp only [TailnetQueue.enqueue, List.length_append, List.length_singleton]
    omega
  · intro r' hr'
    rcases List.mem_append.mp hr' with hr' | hr'
    · exact hq.requests r' hr'
    · rw [List.mem_singleton.mp hr']
      exact ⟨htailnet, hsize⟩
  · rw [TailnetQueue.enqueue, List.pairwise_append]
    refine ⟨hq.order, List.pairwise_singleton _ _, fun r' hr' x hx => ?_⟩
    rw [List.mem_singleton.mp hx]
    exact hlater r' hr'

section Enqueue

variable {i : GroupID} {k : ℕ} {q : TailnetQueue} {r : Request}

theorem enqueue_group : (s.enqueue i k q r).groups i = { s.groups i with
    tailnets := (s.groups i).tailnets.set k (q.enqueue r) } := Function.update_self _ _ _

theorem enqueue_other {j : GroupID} (hj : j ≠ i) : (s.enqueue i k q r).groups j = s.groups j :=
  Function.update_of_ne hj _ _

theorem enqueue_ids (hq : (s.groups i).tailnets[k]? = some q) (j : GroupID) :
    ((s.enqueue i k q r).groups j).tailnets.map (·.id) = (s.groups j).tailnets.map (·.id) := by
  by_cases hj : j = i
  · rw [hj, enqueue_group]
    exact map_id_set hq rfl
  · rw [enqueue_other hj]

theorem enqueue_pending (hq : (s.groups i).tailnets[k]? = some q) :
    (s.enqueue i k q r).pending.Perm (r :: s.pending) := by
  have hset : ((s.enqueue i k q r).groups i).tailnets = (s.groups i).tailnets.set k (q.enqueue r) := by
    rw [enqueue_group]
  have hperm := pending_set (fun _ => enqueue_other) hq hset
  rw [List.perm_iff_count] at hperm ⊢
  intro x
  have hx := hperm x
  simp only [TailnetQueue.enqueue, List.count_append, List.count_cons, List.count_nil] at hx ⊢
  omega

theorem enqueue_groups (hq : (s.groups i).tailnets[k]? = some q) (hs : s.Valid)
    (hgood : (q.enqueue r).Good) (j : GroupID) : ((s.enqueue i k q r).groups j).Good := by
  by_cases hj : j = i
  · subst hj
    rw [enqueue_group]
    refine ⟨.inl ?_, (hs.groups j).deficit, fun t ht => ?_⟩
    · rw [List.length_set]
      refine (hs.groups j).cursor.resolve_right fun hempty => ?_
      rw [hempty.1] at hq
      cases hq
    · rcases List.mem_or_eq_of_mem_set ht with ht | rfl
      · exact (hs.groups j).queues t ht
      · exact hgood
  · rw [enqueue_other hj]
    exact hs.groups j

end Enqueue

theorem wait_valid {ctx : ℕ} {id : String} {size : ℤ} (h : s.wait ctx id size = .ok s')
    (hs : s.Valid) : s'.Valid := by
  obtain ⟨i, k, q, r, hq, hcount, hbytes, rfl, hrid, htailnet, hsize⟩ := wait_eq_ok h
  have hqmem : q ∈ s.queues := mem_queues.mpr ⟨i, List.mem_of_getElem? hq⟩
  have hold : ∀ r' ∈ s.pending, r'.id < r.id := fun r' hr' => by
    rw [hrid]
    exact hs.lt_made (List.mem_append_left _ (List.mem_append_left _ hr'))
  have hgood := enqueue_good (hs.queue hqmem) hcount hbytes htailnet hsize fun r' hr' =>
    hold r' (List.mem_flatMap.mpr ⟨q, hqmem, hr'⟩)
  have hpending := enqueue_pending (r := r) hq
  refine ⟨?_, enqueue_groups hq hs hgood, ?_, hs.dropped, fun x hx r' hr' hsame => ?_, hs.order⟩
  · rw [queues, queuesOf, List.map_append, enqueue_ids hq, enqueue_ids hq, ← List.map_append]
    exact hs.distinct
  · have hknown : (s.enqueue i k q r).known.Perm (r :: s.known) :=
      (hpending.append_right _).append_right _
    refine (hknown.map _).trans ?_
    rw [List.map_cons, hrid]
    refine (hs.conserved.cons _).trans ?_
    rw [enqueue, List.range_succ]
    exact (List.perm_append_singleton _ _).symm
  · rcases List.mem_cons.mp (hpending.subset hr') with rfl | hr'
    · -- The new request has the largest number.
      rw [hrid]
      refine hs.lt_made (List.mem_append_left _ (List.mem_append_right _ ?_))
      exact List.mem_map.mpr ⟨_, hx, rfl⟩
    · exact hs.granted x hx r' hr' hsame

end Valid

section Update

variable {s : Scheduler}

def Keyed (m : Table String TailnetQueue) : Prop := ∀ id t, m.get? id = some t → t.id = id

theorem foldl_insert (ts : List TailnetQueue) (m : Table String TailnetQueue) (hm : Keyed m)
    (hnodup : (ts.map (·.id)).Nodup) (hfresh : ∀ t ∈ ts, m.get? t.id = none) :
    Keyed (ts.foldl (fun m t => m.insert t.id t) m) ∧
      (ts.foldl (fun m t => m.insert t.id t) m).values.Perm (ts ++ m.values) := by
  induction ts generalizing m with
  | nil => exact ⟨hm, .refl _⟩
  | cons t ts ih =>
    rw [List.map_cons, List.nodup_cons] at hnodup
    have hkeyed : Keyed (m.insert t.id t) := by
      intro id u hu
      rcases Table.get?_insert_eq_some.mp hu with ⟨rfl, rfl⟩ | ⟨-, hu⟩
      · rfl
      · exact hm id u hu
    obtain ⟨hkeyed', hperm⟩ := ih (m.insert t.id t) hkeyed hnodup.2 fun u hu => by
      have hne : u.id ≠ t.id := fun heq => hnodup.1 (heq ▸ List.mem_map_of_mem hu)
      rw [Table.get?_insert_ne _ _ hne]
      exact hfresh u (List.mem_cons_of_mem _ hu)
    refine ⟨hkeyed', hperm.trans ?_⟩
    have hvalues := m.values_insert t.id t
    rw [Table.erase_eq_self (hfresh t List.mem_cons_self)] at hvalues
    exact (hvalues.append_left ts).trans List.perm_middle

theorem Valid.previous (hs : s.Valid) : Keyed s.previous ∧ s.previous.values.Perm s.queues := by
  obtain ⟨hkeyed, hperm⟩ := foldl_insert s.queues ∅ (fun id t ht => by simp at ht) hs.distinct
    fun t _ => Table.get?_empty _
  refine ⟨hkeyed, hperm.trans ?_⟩
  rw [show (∅ : Table String TailnetQueue).values = [] from rfl, List.append_nil]

theorem queuesOf_append (groups : GroupID → GroupQueue) (i : GroupID) (q : TailnetQueue) :
    (queuesOf (Function.update groups i { groups i with
      tailnets := (groups i).tailnets ++ [q] })).Perm (q :: queuesOf groups) := by
  cases i with
  | owner =>
    simp only [queuesOf, Function.update_self,
      Function.update_of_ne (show GroupID.shared ≠ .owner by decide)]
    rw [List.append_assoc]
    exact List.perm_middle
  | shared =>
    simp only [queuesOf, Function.update_self,
      Function.update_of_ne (show GroupID.owner ≠ .shared by decide)]
    rw [← List.append_assoc]
    exact List.perm_append_singleton _ _

/-- The loop over the rules so far: every old queue is in a new group or still in the map. -/
structure Requeued (total : List Request) (rules : List TailnetLimit)
    (x : Table String TailnetQueue × (GroupID → GroupQueue)) : Prop where
  keyed : Keyed x.1
  absent : ∀ rule ∈ rules, x.1.get? rule.tailnetID = none
  good : (∀ t ∈ x.1.values, t.Good) ∧ ∀ t ∈ queuesOf x.2, t.Good
  ids : ((queuesOf x.2).map (·.id)).Perm (rules.map (·.tailnetID))
  zero : ∀ i, (x.2 i).next = 0 ∧ (x.2 i).deficit = 0
  requests : ((queuesOf x.2).flatMap (·.requests) ++ x.1.values.flatMap (·.requests)).Perm total

theorem Requeued.next {total : List Request} {rules : List TailnetLimit}
    {x : Table String TailnetQueue × (GroupID → GroupQueue)} (h : Requeued total rules x)
    (rule : TailnetLimit) : Requeued total (rules ++ [rule]) (requeue x rule) := by
  have hrebuilt := queuesOf_append x.2 rule.groupID (requeued x.1 rule)
  -- The queue comes out of the map, or is new and has no requests.
  have hout : (requeued x.1 rule).id = rule.tailnetID ∧ (requeued x.1 rule).Good ∧
      (x.1.values.flatMap (·.requests)).Perm ((requeued x.1 rule).requests ++
        (x.1.erase rule.tailnetID).values.flatMap (·.requests)) := by
    unfold requeued
    cases hget : x.1.get? rule.tailnetID with
    | some q =>
      have hvalues := Table.values_of_get? hget
      have hq := h.good.1 q (hvalues.symm.subset List.mem_cons_self)
      have hid : q.id = rule.tailnetID := h.keyed _ _ hget
      exact ⟨hid, hq.keep rfl rfl rfl bounded_zero, hvalues.flatMap_right _⟩
    | none =>
      rw [Table.erase_eq_self hget]
      exact ⟨rfl, (empty_good rule.tailnetID).keep rfl rfl rfl bounded_zero, .refl _⟩
  obtain ⟨hid, hgood, hrequests⟩ := hout
  refine ⟨fun id t ht => ?_, fun r hr => ?_, ⟨fun t ht => ?_, fun t ht => ?_⟩, ?_, fun i => ?_, ?_⟩
  · rw [requeue, Table.get?_erase] at ht
    split_ifs at ht
    exact h.keyed id t ht
  · rw [requeue, Table.get?_erase]
    split_ifs with hr'
    · rfl
    · refine h.absent r ((List.mem_append.mp hr).resolve_right fun hlast => hr' ?_)
      rw [List.mem_singleton.mp hlast]
  · refine h.good.1 t ?_
    exact (Table.values_sublist fun k r hk => by
      rw [requeue, Table.get?_erase] at hk
      split_ifs at hk
      exact hk).subset ht
  · rcases List.mem_cons.mp (hrebuilt.subset ht) with rfl | ht
    · exact hgood
    · exact h.good.2 t ht
  · refine (hrebuilt.map _).trans ?_
    rw [List.map_cons, List.map_append, hid]
    exact (h.ids.cons _).trans (List.perm_append_singleton _ _).symm
  · by_cases hi : i = rule.groupID
    · rw [hi]
      simp only [requeue, Function.update_self]
      exact h.zero rule.groupID
    · simp only [requeue, Function.update_of_ne hi]
      exact h.zero i
  · have hall := hrebuilt.flatMap_right (·.requests)
    have htotal := h.requests
    rw [List.perm_iff_count] at hall hrequests htotal ⊢
    intro r
    have hr₁ := hall r
    have hr₂ := hrequests r
    have hr₃ := htotal r
    simp only [requeue, List.flatMap_cons, List.count_append] at hr₁ hr₂ hr₃ ⊢
    omega

theorem foldl_requeued {total : List Request} (rules done : List TailnetLimit)
    {x : Table String TailnetQueue × (GroupID → GroupQueue)} (h : Requeued total done x) :
    Requeued total (done ++ rules) (rules.foldl requeue x) := by
  induction rules generalizing done x with
  | nil => simpa using h
  | cons rule rules ih =>
    have hrest := ih (done ++ [rule]) (h.next rule)
    rwa [List.append_assoc] at hrest

theorem Valid.requeued (hs : s.Valid) (L : Limits) :
    Requeued s.pending L.tailnets (L.tailnets.foldl requeue (s.previous, s.emptied L)) := by
  obtain ⟨hkeyed, hvalues⟩ := hs.previous
  refine foldl_requeued L.tailnets [] ⟨hkeyed, by simp, ⟨fun t ht => ?_, ?_⟩, .refl _, ?_, ?_⟩
  · exact hs.queue (hvalues.subset ht)
  · intro t ht
    cases ht
  · intro i
    cases i <;> exact ⟨rfl, rfl⟩
  · exact hvalues.flatMap_right _

theorem update_sent (hs : s.Valid) (L : Limits) :
    ∃ failed : List Request, (s.update L).sent =
        s.sent ++ failed.map (fun r => (r, some "UniDERP tailnet authorization removed")) ∧
      s.pending.Perm ((s.update L).pending ++ failed) ∧
      ∀ r ∈ failed, r.tailnet ∉ L.tailnets.map (·.tailnetID) := by
  have h := hs.requeued L
  refine ⟨(L.tailnets.foldl requeue (s.previous, s.emptied L)).1.values.flatMap TailnetQueue.requests,
    ?_, h.requests.symm, fun r hr hrule => ?_⟩
  · rw [List.map_flatMap]
    rfl
  · obtain ⟨t, ht, hrt⟩ := List.mem_flatMap.mp hr
    obtain ⟨x, hx, rfl⟩ := List.mem_map.mp ht
    have hget := Table.get?_eq_some_iff.mpr hx
    obtain ⟨rule, hrule, hid⟩ := List.mem_map.mp hrule
    have hnone := h.absent rule hrule
    rw [hid, ((h.good.1 x.2 ht).requests r hrt).1, h.keyed _ _ hget, hget] at hnone
    cases hnone

theorem update_valid (hs : s.Valid) (L : Limits) : (s.update L).Valid := by
  have h := hs.requeued L
  obtain ⟨failed, hsent, hpending, -⟩ := update_sent hs L
  have hsub : ∀ r ∈ (s.update L).pending, r ∈ s.pending := fun r hr =>
    hpending.symm.subset (List.mem_append_left _ hr)
  refine ⟨?_, fun i => ?_, ?_, hs.dropped, fun r hr r' hr' htailnet => ?_, ?_⟩
  · exact h.ids.nodup_iff.mpr L.nodup
  · refine ⟨?_, ?_, fun t ht => ?_⟩
    · rw [show ((s.update L).groups i).next = 0 from (h.zero i).1]
      rcases List.eq_nil_or_concat ((s.update L).groups i).tailnets with hnil | ⟨ts, t, hcons⟩
      · exact .inr ⟨hnil, rfl⟩
      · refine .inl ?_
        simp [hcons]
    · rw [show ((s.update L).groups i).deficit = 0 from (h.zero i).2]
      exact bounded_zero
    · refine h.good.2 t ?_
      cases i
      · exact List.mem_append_left _ ht
      · exact List.mem_append_right _ ht
  · have hknown : (s.update L).known.Perm s.known := by
      rw [List.perm_iff_count] at hpending ⊢
      intro r
      have hr := hpending r
      simp only [known, hsent, List.map_append, List.map_map, List.count_append, Function.comp_def,
        List.map_id'] at hr ⊢
      rw [show (s.update L).dropped = s.dropped from rfl]
      omega
    exact (hknown.map _).trans hs.conserved
  · rw [hsent, List.mem_append] at hr
    rcases hr with hr | hr
    · exact hs.granted r hr r' (hsub r' hr') htailnet
    · obtain ⟨r₀, -, heq⟩ := List.mem_map.mp hr
      cases heq
  · rw [hsent, List.pairwise_append]
    refine ⟨hs.order, ?_, ?_⟩
    · rw [List.pairwise_map]
      exact List.pairwise_of_forall fun _ _ hx => by cases hx
    · intro x _ y hy _ hyn
      obtain ⟨r₀, -, rfl⟩ := List.mem_map.mp hy
      cases hyn

theorem new_eq_update (L : Limits) : new L = ({} : Scheduler).update L := by
  have hloop : ∀ (rules : List TailnetLimit) (groups : GroupID → GroupQueue),
      rules.foldl requeue (∅, groups) = (∅, rules.foldl
        (fun groups t => Function.update groups t.groupID { groups t.groupID with
          tailnets := (groups t.groupID).tailnets ++
            [{ id := t.tailnetID, weight := t.weight, bucket := { rate := t.maxBytesPerSec } }] })
        groups) := by
    intro rules
    induction rules with
    | nil => exact fun groups => rfl
    | cons rule rules ih =>
      intro groups
      rw [List.foldl_cons, List.foldl_cons, ← ih]
      rfl
  have hfold := hloop L.tailnets (emptied L {})
  unfold update
  rw [show ({} : Scheduler).previous = ∅ from rfl, hfold]
  rfl

theorem empty_valid : ({} : Scheduler).Valid := by
  refine ⟨List.nodup_nil, fun i => ?_, .refl _, by simp, by simp, List.Pairwise.nil⟩
  exact ⟨.inr ⟨rfl, rfl⟩, bounded_zero, by simp⟩

theorem new_valid (L : Limits) : (new L).Valid := by
  rw [new_eq_update]
  exact update_valid empty_valid L

end Update

theorem Run.valid (r : Run) {i : ℕ} (hi : i ≤ r.len) : (r.state i).Valid := by
  refine Reachable.invariant (I := Valid) (r.reachable hi) ?_ ?_
  · rintro s ⟨L, rfl⟩
    exact new_valid L
  · intro s c s' _ hs hstep
    unfold Step at hstep
    cases c with
    | update L =>
      cases hstep
      exact update_valid hs L
    | wait ctx id size =>
      cases hstep
      cases hwait : s.wait ctx id size with
      | error e => exact hs
      | ok s₁ => exact wait_valid hwait hs
    | cancel ctx =>
      cases hstep
      exact cancel_valid hs [ctx]
    | step now ctxs =>
      obtain ⟨s₁, -, hsearch, hs₁, -⟩ := search_valid now 512 ctxs hs
      obtain rfl : s₁ = s' := Option.some.inj (hsearch.symm.trans hstep)
      exact hs₁

inductive Fate
  | pending
  | granted
  | dropped
  | failed
  deriving DecidableEq

/-- The request with number `n` has this fate. -/
def Has (s : Scheduler) (n : ℕ) : Fate → Prop
  | .pending => ∃ r ∈ s.pending, r.id = n
  | .granted => ∃ r, (r, none) ∈ s.sent ∧ r.id = n
  | .dropped => ∃ r ∈ s.dropped, r.id = n
  | .failed => ∃ r e, (r, some e) ∈ s.sent ∧ r.id = n

def messages (n : ℕ) (s : Scheduler) : List (Request × Option String) := s.sent.filter (·.1.id = n)

/-- The representation is sound: one queue for each tailnet, whose bytes are those of its requests,
cursors in range and deficits in their bounds. -/
structure Represented (s : Scheduler) : Prop where
  distinct : (s.queues.map (·.id)).Nodup
  queued : ∀ t ∈ s.queues, t.queuedBytes = (t.requests.map (·.size)).sum ∧
    t.queuedBytes ≤ 2 ^ 20 ∧ t.requests.length ≤ 256
  cursor : ∀ i, (s.groups i).tailnets ≠ [] → (s.groups i).next < (s.groups i).tailnets.length
  groups : ∀ i, 0 ≤ (s.groups i).deficit ∧ (s.groups i).deficit ≤ 65535 + 1200 * (s.groups i).weight
  tailnets : ∀ t ∈ s.queues, 0 ≤ t.deficit ∧ t.deficit ≤ 65535 + 1200 * t.weight

section Fate

variable {s : Scheduler}

theorem Bounded.le {deficit : ℤ} {credit : Bool} {weight : ℕ} (h : Bounded deficit credit weight) :
    0 ≤ deficit ∧ deficit ≤ 65535 + 1200 * weight := by
  obtain ⟨h0, hle⟩ := h
  refine ⟨h0, hle.trans ?_⟩
  rw [quantum]
  split_ifs <;> omega

theorem Valid.represented (hs : s.Valid) : s.Represented where
  distinct := hs.distinct
  queued _ ht := ⟨(hs.queue ht).bytes, (hs.queue ht).full, (hs.queue ht).count⟩
  cursor i hne := (hs.groups i).cursor.resolve_right fun h => hne h.1
  groups i := Bounded.le (hs.groups i).deficit
  tailnets _ ht := Bounded.le (hs.queue ht).deficit

def fates (s : Scheduler) : List (ℕ × Fate) :=
  s.pending.map (fun r => (r.id, .pending)) ++
    s.sent.map (fun x => (x.1.id, if x.2 = none then .granted else .failed)) ++
    s.dropped.map fun r => (r.id, .dropped)

theorem fates_fst (s : Scheduler) : s.fates.map (·.1) = s.known.map (·.id) := by
  simp [fates, known, Function.comp_def]

theorem has_iff {n : ℕ} {f : Fate} : s.Has n f ↔ (n, f) ∈ s.fates := by
  simp only [fates, List.mem_append, List.mem_map, Prod.mk.injEq]
  cases f with
  | pending =>
    simp only [Has, reduceCtorEq, and_false, exists_false, and_true, or_false]
    refine ⟨Or.inl, fun h => h.resolve_right ?_⟩
    rintro ⟨x, -, -, hx⟩
    split_ifs at hx
  | granted =>
    simp only [Has, reduceCtorEq, and_false, exists_false, false_or, or_false]
    constructor
    · rintro ⟨r, hr, hn⟩
      exact ⟨_, hr, hn, by simp⟩
    · rintro ⟨⟨r, answer⟩, hr, hn, hx⟩
      split_ifs at hx with hnone
      exact ⟨r, hnone ▸ hr, hn⟩
  | dropped =>
    simp only [Has, reduceCtorEq, and_false, exists_false, and_true, false_or]
    refine ⟨Or.inr, fun h => h.resolve_left ?_⟩
    rintro ⟨x, -, -, hx⟩
    split_ifs at hx
  | failed =>
    simp only [Has, reduceCtorEq, and_false, exists_false, false_or, or_false]
    constructor
    · rintro ⟨r, e, hr, hn⟩
      exact ⟨_, hr, hn, by simp⟩
    · rintro ⟨⟨r, answer⟩, hr, hn, hx⟩
      split_ifs at hx with hsome
      obtain ⟨e, rfl⟩ := Option.ne_none_iff_exists'.mp hsome
      exact ⟨r, e, hr, hn⟩

theorem Valid.fate (hs : s.Valid) {n : ℕ} (hn : n < s.made) : ∃! f, s.Has n f := by
  have hnodup : (s.fates.map (·.1)).Nodup := by
    rw [fates_fst]
    exact hs.conserved.nodup_iff.mpr List.nodup_range
  have hmem : n ∈ s.fates.map (·.1) := by
    rw [fates_fst]
    exact hs.conserved.symm.subset (List.mem_range.mpr hn)
  obtain ⟨⟨n', f⟩, hf, rfl⟩ := List.mem_map.mp hmem
  refine ⟨f, has_iff.mpr hf, fun f' hf' => ?_⟩
  have heq := List.inj_on_of_nodup_map hnodup (has_iff.mp hf') hf rfl
  exact (Prod.mk.inj heq).2

theorem Valid.messages_le (hs : s.Valid) (n : ℕ) : (s.messages n).length ≤ 1 := by
  have hnodup : (s.sent.map (·.1.id)).Nodup := by
    have hall : (s.known.map (·.id)).Nodup := hs.conserved.nodup_iff.mpr List.nodup_range
    rw [known, List.map_append, List.map_append, List.map_map] at hall
    exact (List.nodup_append.mp (List.nodup_append.mp hall).1).2.1
  have hcount := List.nodup_iff_count_le_one.mp hnodup n
  rw [messages, ← List.countP_eq_length_filter]
  rw [List.count, List.countP_map] at hcount
  convert hcount using 2
  funext x
  rw [Bool.eq_iff_iff]
  simp

/-- A request that is overtaken by a later one of its tailnet was granted before it, dropped, or
failed. -/
theorem Valid.overtaken (hs : s.Valid) {a b : Request} (ha : a ∈ s.known)
    (htailnet : a.tailnet = b.tailnet) (hlt : a.id < b.id) (hb : (b, none) ∈ s.sent) :
    (∃ before after, s.sent = before ++ (b, none) :: after ∧ (a, none) ∈ before) ∨
      a ∈ s.dropped ∨ ∃ e, (a, some e) ∈ s.sent := by
  rw [known, List.mem_append, List.mem_append] at ha
  rcases ha with (ha | ha) | ha
  · exact absurd (hs.granted b hb a ha htailnet) (by omega)
  · obtain ⟨⟨a', answer⟩, hsent, rfl⟩ := List.mem_map.mp ha
    cases answer with
    | some e => exact .inr (.inr ⟨e, hsent⟩)
    | none =>
      obtain ⟨before, after, hsplit⟩ := List.append_of_mem hb
      refine .inl ⟨before, after, hsplit, ?_⟩
      rw [hsplit, List.mem_append, List.mem_cons] at hsent
      rcases hsent with hbefore | hsame | hafter
      · exact hbefore
      · rw [Prod.mk.injEq] at hsame
        rw [hsame.1] at hlt
        exact absurd hlt (lt_irrefl _)
      · have horder := hs.order
        rw [hsplit, List.pairwise_append, List.pairwise_cons] at horder
        exact absurd (horder.2.1.1 _ hafter rfl rfl htailnet.symm) hlt.not_gt
  · exact .inr (.inl ha)

end Fate

/-- Only `step` grants, and only an update without a rule for the tailnet fails a request. -/
theorem Run.answered (r : Run) {i : ℕ} (hi : i < r.len) :
    ∃ new, (r.state (i + 1)).sent = (r.state i).sent ++ new ∧ ∀ x ∈ new,
      (x.2 = none → ∃ now ctxs, r.label i = .step now ctxs) ∧
      ∀ e, x.2 = some e → ∃ L, r.label i = .update L ∧
        x.1.tailnet ∉ L.tailnets.map (·.tailnetID) := by
  have hs := Run.valid r hi.le
  have hstep : act (r.label i) (r.state i) = some (r.state (i + 1)) := r.next i hi
  cases hlabel : r.label i <;> rw [hlabel] at hstep
  case update L =>
    obtain ⟨failed, hsent, -, hrule⟩ := update_sent hs L
    rw [← Option.some.inj hstep]
    refine ⟨_, hsent, fun x hx => ?_⟩
    obtain ⟨q, hq, rfl⟩ := List.mem_map.mp hx
    refine ⟨fun hnone => ?_, fun e _ => ⟨L, rfl, hrule q hq⟩⟩
    cases hnone
  case wait ctx id size =>
    refine ⟨[], ?_, by simp⟩
    rw [← Option.some.inj hstep, List.append_nil]
    cases hwait : (r.state i).wait ctx id size with
    | error e => rfl
    | ok s₁ =>
      obtain ⟨_, _, _, _, -, -, -, rfl, -⟩ := wait_eq_ok hwait
      rfl
  case cancel ctx =>
    refine ⟨[], ?_, by simp⟩
    rw [← Option.some.inj hstep, List.append_nil]
    rfl
  case step now ctxs =>
    obtain ⟨s', grants, hsearch, -, hsent⟩ := search_valid now 512 ctxs hs
    obtain rfl : s' = r.state (i + 1) := Option.some.inj (hsearch.symm.trans hstep)
    refine ⟨_, hsent, fun x hx => ?_⟩
    obtain ⟨q, -, rfl⟩ := List.mem_map.mp hx
    refine ⟨fun _ => ⟨now, ctxs, rfl⟩, fun e he => ?_⟩
    cases he

/-- In every run the representation is sound and no call panics; every accepted request has exactly
one fate and its channel at most one message; and of two requests of one tailnet the later is
granted only after the earlier was granted, or was dropped or failed. -/
theorem Run.requests_conserved (r : Run) :
    (∀ i ≤ r.len, (r.state i).Represented ∧ ∀ c, (act c (r.state i)).isSome) ∧
    (∀ i ≤ r.len, ∀ n, (n < (r.state i).made → ∃! f, (r.state i).Has n f) ∧
      ((r.state i).messages n).length ≤ 1) ∧
    (∀ i ≤ r.len, ∀ x ∈ (r.state i).dropped, x.ctx ∈ (r.state i).cancelled) ∧
    (∀ i < r.len, ∃ new, (r.state (i + 1)).sent = (r.state i).sent ++ new ∧ ∀ x ∈ new,
      (x.2 = none → ∃ now ctxs, r.label i = .step now ctxs) ∧
      ∀ e, x.2 = some e → ∃ L, r.label i = .update L ∧
        x.1.tailnet ∉ L.tailnets.map (·.tailnetID)) ∧
    ∀ i ≤ r.len, ∀ a ∈ (r.state i).known, ∀ b, a.tailnet = b.tailnet → a.id < b.id →
      (b, none) ∈ (r.state i).sent →
      (∃ before after, (r.state i).sent = before ++ (b, none) :: after ∧ (a, none) ∈ before) ∨
        a ∈ (r.state i).dropped ∨ ∃ e, (a, some e) ∈ (r.state i).sent := by
  refine ⟨fun i hi => ?_, fun i hi n => ?_, fun i hi => (Run.valid r hi).dropped,
    fun i hi => Run.answered r hi, fun i hi a ha b => (Run.valid r hi).overtaken ha⟩
  · have hs := Run.valid r hi
    refine ⟨hs.represented, fun c => ?_⟩
    cases c with
    | step now ctxs =>
      obtain ⟨s', -, hsearch, -⟩ := search_valid now 512 ctxs hs
      rw [act, step, hsearch]
      rfl
    | update | wait | cancel => rfl
  · have hs := Run.valid r hi
    exact ⟨hs.fate, hs.messages_le n⟩

end Scheduler

end UniDERP.Relay.Requests
