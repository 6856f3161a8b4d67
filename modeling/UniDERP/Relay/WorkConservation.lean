import UniDERP.Library.DeficitRoundRobin
import UniDERP.Relay.Scheduler

namespace UniDERP.Relay

namespace TailnetQueue

/-- The turns that a tailnet still passes on, if its requests are for at most `m` bytes. -/
def turns (cancelled : List ℕ) (m : ℕ) (t : TailnetQueue) : ℕ :=
  if t.live cancelled = [] then (if t.credit then 1 else 0)
  else turnsLeft (quantum * t.weight) m t.deficit t.credit

variable {cancelled : List ℕ} {m : ℕ} {t : TailnetQueue}

theorem turns_of_live (h : t.live cancelled ≠ []) :
    t.turns cancelled m = turnsLeft (quantum * t.weight) m t.deficit t.credit := if_neg h

theorem turns_of_idle (h : t.live cancelled = []) :
    t.turns cancelled m = if t.credit then 1 else 0 := if_pos h

theorem live_offered : (t.offered cancelled).live cancelled = t.live cancelled := by
  unfold live offered
  rw [credited_requests]
  exact List.dropWhile_idempotent _ _

theorem offered_weight : (t.offered cancelled).weight = t.weight := credited_weight _

theorem turns_offered (hw : 0 < t.weight) (hlive : t.live cancelled ≠ []) :
    (t.offered cancelled).turns cancelled m = t.turns cancelled m := by
  have hcredit : (t.drop cancelled).credit = t.credit := rfl
  have hlive' : (t.offered cancelled).live cancelled ≠ [] := by
    rw [live_offered]
    exact hlive
  rw [turns_of_live hlive, turns_of_live hlive', offered_weight, offered, credited, hcredit]
  cases hc : t.credit with
  | true => simp [hc, drop]
  | false => exact turnsLeft_credit (Nat.mul_pos (by decide) hw)

theorem turns_short (cancelled : List ℕ) (hw : 0 < t.weight) (hcredit : t.credit)
    (hdeficit : t.deficit < m) :
    turns cancelled m { t with credit := false } + 1 = t.turns cancelled m := by
  have hsame : live cancelled { t with credit := false } = t.live cancelled := rfl
  by_cases hlive : t.live cancelled = []
  · rw [turns_of_idle hlive, turns_of_idle (hsame.trans hlive), hcredit]
    rfl
  · rw [turns_of_live hlive, turns_of_live (hsame ▸ hlive), hcredit]
    exact turnsLeft_short (Nat.mul_pos (by decide) hw) hdeficit

theorem turns_le {k : ℕ} (hw : 0 < t.weight) (hk : 0 < k) (h : m ≤ quantum * t.weight * k) :
    t.turns cancelled m ≤ k := by
  unfold turns
  split_ifs
  · exact hk
  · exact Nat.zero_le k
  · exact turnsLeft_le (Nat.mul_pos (by decide) hw) h

/-- The tailnet has requests, or had the quantum of its turn. -/
def engaged (t : TailnetQueue) : Bool := t.requests ≠ [] || t.credit

theorem engaged_of_live (h : t.live cancelled ≠ []) : t.engaged := by
  have hrequests : t.requests ≠ [] := fun hnil => h (by rw [live, hnil, List.dropWhile_nil])
  simp [engaged, hrequests]

theorem engaged_of_turns (h : 0 < t.turns cancelled m) : t.engaged := by
  by_cases hlive : t.live cancelled = []
  · rw [turns_of_idle hlive] at h
    cases hc : t.credit with
    | true => simp [engaged, hc]
    | false => simp [hc] at h
  · exact engaged_of_live hlive

end TailnetQueue

open TailnetQueue

/-- The passes over a group before the tailnet `id` has the deficit for `m` bytes and its turn. -/
def reach (cancelled : List ℕ) (m : ℕ) (id : String) (ts : List TailnetQueue) : ℕ :=
  (ts.find? (·.id = id)).elim 0 (turns cancelled m) * ts.length + (ts.map (·.id)).idxOf id

def work (cancelled : List ℕ) (m : ℕ) (ts : List TailnetQueue) : ℕ :=
  (ts.map (turns cancelled m)).sum

/-- The idle tailnets before the next one with a request, while any request is left. -/
def skipped (cancelled : List ℕ) : List TailnetQueue → ℕ
  | [] => 0
  | t :: rest =>
    if t.live cancelled = [] ∧ rest.any (·.requests ≠ []) then skipped cancelled rest + 1 else 0

section Ring

variable {cancelled : List ℕ} {m : ℕ} {id : String} {t t' : TailnetQueue}
  {rest : List TailnetQueue}

theorem reach_replace (id : String) (rest : List TailnetQueue) (hid : t'.id = t.id)
    (hturns : t'.turns cancelled m = t.turns cancelled m) :
    reach cancelled m id (t' :: rest) = reach cancelled m id (t :: rest) := by
  unfold reach
  rw [List.map_cons, List.map_cons, hid, List.length_cons, List.length_cons]
  by_cases h : t.id = id
  · rw [List.find?_cons_of_pos (by simpa using hid.trans h),
      List.find?_cons_of_pos (by simpa using h), Option.elim_some, Option.elim_some, hturns]
  · rw [List.find?_cons_of_neg (by simpa [hid] using h), List.find?_cons_of_neg (by simpa using h)]

theorem reach_rotate_other (hne : t.id ≠ id) (hmem : id ∈ rest.map (·.id)) :
    reach cancelled m id (rest ++ [t']) + 1 = reach cancelled m id (t :: rest) := by
  obtain ⟨u, hu, huid⟩ := List.mem_map.mp hmem
  have hsome : (rest.find? (·.id = id)).isSome := List.find?_isSome.mpr ⟨u, hu, by simpa using huid⟩
  obtain ⟨v, hv⟩ := Option.isSome_iff_exists.mp hsome
  unfold reach
  rw [List.find?_append, hv, Option.some_or, List.find?_cons_of_neg (by simpa using hne), hv,
    List.map_append, List.idxOf_append_of_mem hmem, List.map_cons, List.idxOf_cons_ne _ hne,
    List.length_append, List.length_cons, List.length_cons, List.length_nil]
  rfl

theorem reach_rotate_self (hid : t'.id = t.id) (hnot : t.id ∉ rest.map (·.id))
    (hturns : t'.turns cancelled m + 1 = t.turns cancelled m) :
    reach cancelled m t.id (rest ++ [t']) + 1 = reach cancelled m t.id (t :: rest) := by
  have hnone : rest.find? (·.id = t.id) = none := by
    apply List.find?_eq_none.mpr
    intro u hu huid
    exact hnot (of_decide_eq_true huid ▸ List.mem_map_of_mem hu)
  unfold reach
  rw [List.find?_append, hnone, Option.none_or, List.find?_cons_of_pos (by simpa using hid),
    List.find?_cons_of_pos (by simp), List.map_append, List.idxOf_append_of_notMem hnot,
    List.map_cons, List.map_cons, hid, List.idxOf_cons_self, List.idxOf_cons_self, Option.elim_some,
    Option.elim_some, ← hturns, List.length_append, List.length_cons, List.length_cons,
    List.length_nil, List.length_map]
  ring

theorem reach_rotate (hid : t'.id = t.id) (hnodup : ((t :: rest).map (·.id)).Nodup)
    (hmem : id ∈ (t :: rest).map (·.id))
    (hturns : t.id = id → t'.turns cancelled m + 1 = t.turns cancelled m) :
    reach cancelled m id (rest ++ [t']) + 1 = reach cancelled m id (t :: rest) := by
  rw [List.map_cons, List.nodup_cons] at hnodup
  by_cases h : t.id = id
  · subst h
    exact reach_rotate_self hid hnodup.1 (hturns rfl)
  · apply reach_rotate_other h
    simpa [Ne.symm h] using hmem

theorem work_rotate (cancelled : List ℕ) (m : ℕ) (t t' : TailnetQueue) (rest : List TailnetQueue) :
    work cancelled m (rest ++ [t']) + t.turns cancelled m =
    work cancelled m (t :: rest) + t'.turns cancelled m := by
  simp only [work, List.map_append, List.map_cons, List.map_nil, List.sum_append, List.sum_cons,
    List.sum_nil]
  omega

theorem work_replace (h : t'.turns cancelled m = t.turns cancelled m) :
    work cancelled m (t' :: rest) = work cancelled m (t :: rest) := by
  rw [work, work, List.map_cons, List.map_cons, h]

theorem skipped_le (cancelled : List ℕ) (ts : List TailnetQueue) :
    skipped cancelled ts ≤ ts.length := by
  induction ts with
  | nil => exact le_rfl
  | cons t rest ih =>
    rw [skipped, List.length_cons]
    split_ifs <;> omega

theorem skipped_append (ts : List TailnetQueue) (h : t'.requests = []) :
    skipped cancelled (ts ++ [t']) = skipped cancelled ts := by
  have hlive : t'.live cancelled = [] := by rw [live, h, List.dropWhile_nil]
  induction ts with
  | nil => simp [skipped]
  | cons t rest ih =>
    have hany : (rest ++ [t']).any (·.requests ≠ []) = rest.any (·.requests ≠ []) := by simp [h]
    rw [List.cons_append, skipped, skipped, hany, ih]

/-- The last turn of every engaged tailnet is less than `n` passes over the group away. -/
def Settles (cancelled : List ℕ) (m n : ℕ) (ts : List TailnetQueue) : Prop :=
  ∀ t ∈ ts, t.engaged → reach cancelled m t.id ts < n

theorem Settles.rotate {n : ℕ} (h : Settles cancelled m n (t :: rest))
    (hnodup : ((t :: rest).map (·.id)).Nodup) (hid : t'.id = t.id)
    (hturns : t'.engaged → t'.turns cancelled m + 1 = t.turns cancelled m) :
    Settles cancelled m (n - 1) (rest ++ [t']) := by
  intro u hu hengaged
  rw [List.map_cons, List.nodup_cons] at hnodup
  rcases List.mem_append.mp hu with hu | hu
  · have hmem : u.id ∈ rest.map (·.id) := List.mem_map_of_mem hu
    have hnear : reach cancelled m u.id (rest ++ [t']) + 1 = reach cancelled m u.id (t :: rest) :=
      reach_rotate_other (fun hid => hnodup.1 (hid ▸ hmem)) hmem
    have hold := h u (List.mem_cons_of_mem t hu) hengaged
    omega
  · obtain rfl := List.mem_singleton.mp hu
    have hless := hturns hengaged
    have hpos : 0 < t.turns cancelled m := by omega
    have hnear := reach_rotate_self hid hnodup.1 hless
    have hold := h t List.mem_cons_self (engaged_of_turns hpos)
    rw [hid]
    omega

theorem Settles.replace {n : ℕ} (h : Settles cancelled m n (t :: rest)) (hid : t'.id = t.id)
    (hturns : t'.turns cancelled m = t.turns cancelled m) (hengaged : t.engaged) :
    Settles cancelled m n (t' :: rest) := by
  intro u hu hu'
  rw [reach_replace u.id rest hid hturns]
  rcases List.mem_cons.mp hu with rfl | hu
  · rw [hid]
    exact h t List.mem_cons_self hengaged
  · exact h u (List.mem_cons_of_mem t hu) hu'

end Ring

namespace GroupQueue

/-- The turns that a group still passes on, if requests are for at most `m` bytes. -/
def turns (m : ℕ) (g : GroupQueue) : ℕ := turnsLeft (quantum * g.weight) m g.deficit g.credit

variable {m : ℕ} {g : GroupQueue}

theorem turns_credited (hw : 0 < g.weight) : g.credited.turns m = g.turns m := by
  rw [turns, turns, credited_weight, credited]
  cases hc : g.credit with
  | true => simp [hc]
  | false => exact turnsLeft_credit (Nat.mul_pos (by decide) hw)

theorem turns_short (hw : 0 < g.weight) (hcredit : g.credit) (hdeficit : g.deficit < m)
    (ts : List TailnetQueue) :
    turns m { g with credit := false, tailnets := ts } + 1 = g.turns m := by
  rw [turns, turns, hcredit]
  exact turnsLeft_short (Nat.mul_pos (by decide) hw) hdeficit

theorem turns_credited_short (hw : 0 < g.weight) (hdeficit : g.credited.deficit < m)
    (ts : List TailnetQueue) :
    turns m { g.credited with credit := false, tailnets := ts } + 1 = g.turns m := by
  rw [← turns_credited hw]
  exact turns_short (by rwa [credited_weight]) (credited_credit g) hdeficit ts

end GroupQueue

namespace Scheduler

variable {now : ℤ} {s s' : Scheduler} {i : GroupID} {m : ℕ} {id : String}

/-- The first request of a tailnet is let through by its own and its group's ceiling. -/
def sendable (s : Scheduler) (now : ℤ) (i : GroupID) (t : TailnetQueue) : Bool :=
  match t.live s.cancelled with
  | [] => false
  | r :: _ => allows (s.group i).bucket now r.size && allows t.bucket now r.size

/-- A ceiling keeps a request of the group back. -/
def held (s : Scheduler) (now : ℤ) (i : GroupID) : Bool :=
  (s.group i).tailnets.any fun t => t.live s.cancelled ≠ [] && !s.sendable now i t

/-- Requests are for at most `m` bytes, and every weight is positive. -/
structure Fits (m : ℕ) (s : Scheduler) : Prop where
  pos : 0 < m
  distinct : s.Distinct
  group : ∀ i, 0 < (s.group i).weight
  tailnet : ∀ i, ∀ t ∈ (s.group i).tailnets, 0 < t.weight ∧ ∀ r ∈ t.requests, r.size ≤ m

/-- The passes over group `i` before a request of the tailnet `id` is next. -/
def toReach (s : Scheduler) (m : ℕ) (i : GroupID) (id : String) : ℕ :=
  reach s.cancelled m id (s.group i).tailnets + (s.group i).turns m

theorem sendable_live {t : TailnetQueue} (h : s.sendable now i t) : t.live s.cancelled ≠ [] := by
  intro hnil
  simp [sendable, hnil] at h

theorem sendable_head {t : TailnetQueue} {r : Request} {live : List Request}
    (h : s.sendable now i t) (hlive : t.live s.cancelled = r :: live) :
    allows (s.group i).bucket now r.size ∧ allows t.bucket now r.size := by
  simpa [sendable, hlive] using h

theorem Visits.nobody {t x : TailnetQueue} {rest : List TailnetQueue} (h : s.Visits t rest [])
    (hrest : ∀ q ∈ rest, q.requests = []) (hx : x ∈ s.current.tailnets) :
    ¬ s.sendable now s.next x := by
  intro hsend
  rw [h.ring] at hx
  rcases List.mem_cons.mp hx with rfl | hx
  · exact sendable_live hsend h.live
  · have hlive : x.live s.cancelled = [] := by
      rw [TailnetQueue.live, hrest x hx, List.dropWhile_nil]
    exact sendable_live hsend hlive

theorem held_eq_false : s.held now i = false ↔
    ∀ t ∈ (s.group i).tailnets, t.live s.cancelled ≠ [] → s.sendable now i t := by
  simp [held, List.any_eq_false]

theorem Visits.held {t : TailnetQueue} {rest : List TailnetQueue} {r : Request}
    {live : List Request} (h : s.Visits t rest (r :: live))
    (hblocked : ¬ (allows s.current.bucket now r.size ∧ allows t.bucket now r.size)) :
    s.held now s.next := by
  by_contra hnot
  have hsend := held_eq_false.mp (Bool.eq_false_iff.mpr hnot) t h.mem (by simp [h.live])
  exact hblocked (sendable_head hsend h.live)

theorem Visits.engaged {t : TailnetQueue} {rest : List TailnetQueue} {r : Request}
    {live : List Request} (h : s.Visits t rest (r :: live)) : t.engaged := by
  have hlive : t.live s.cancelled ≠ [] := by simp [h.live]
  exact engaged_of_live hlive

theorem Fits.head_le (hf : s.Fits m) {t : TailnetQueue} {rest : List TailnetQueue} {r : Request}
    {live : List Request} (h : s.Visits t rest (r :: live)) : r.size ≤ m :=
  (hf.tailnet s.next t h.mem).2 r h.head_mem

theorem toReach_current : s.toReach m s.next id =
    reach s.cancelled m id s.current.tailnets + s.current.turns m := rfl

theorem toReach_put {g : GroupQueue} : (s.put g).toReach m s.next id =
    reach s.cancelled m id g.tailnets + g.turns m := by
  rw [toReach, put_group, if_pos rfl, put_cancelled]

theorem toReach_switch : s.switch.toReach m i id = s.toReach m i id := by
  rw [toReach, toReach, switch_group, switch_cancelled]

theorem Fits.turns_offered (hf : s.Fits m) {t : TailnetQueue} {rest : List TailnetQueue}
    {r : Request} {live : List Request} (h : s.Visits t rest (r :: live)) :
    (t.offered s.cancelled).turns s.cancelled m = t.turns s.cancelled m := by
  apply TailnetQueue.turns_offered (hf.tailnet s.next t h.mem).1
  rw [h.live]
  exact List.cons_ne_nil r live

theorem Fits.turns_tailnetShort (hf : s.Fits m) {t : TailnetQueue} {rest : List TailnetQueue}
    {r : Request} {live : List Request} (h : s.Visits t rest (r :: live))
    (hshort : (t.offered s.cancelled).deficit < r.size) :
    TailnetQueue.turns s.cancelled m { t.offered s.cancelled with credit := false } + 1 =
      t.turns s.cancelled m := by
  rw [← hf.turns_offered h]
  apply turns_short s.cancelled _ (credited_credit _) (hshort.trans_le (hf.head_le h))
  rw [credited_weight]
  exact (hf.tailnet s.next t h.mem).1

/-- A pass over the group of a tailnet that can send brings it nearer. -/
theorem Turn.nearer (h : Turn now s (.again s')) (hf : s.Fits m) {x : TailnetQueue}
    (hx : x ∈ s.current.tailnets) (hsend : s.sendable now s.next x) :
    s'.toReach m s.next x.id < s.toReach m s.next x.id := by
  have hw : 0 < s.current.weight := hf.group s.next
  have hself {t : TailnetQueue} {rest : List TailnetQueue} (hring : s.current.tailnets = t :: rest)
      (hid : t.id = x.id) : t = x := hf.distinct.eq (mem_current hring) hx hid
  -- The ring turns by one, and a turn of the tailnet itself counts.
  have hrotate {g : GroupQueue} {t t' : TailnetQueue} {rest : List TailnetQueue}
      (hring : s.current.tailnets = t :: rest) (hts : g.tailnets = rest ++ [t'])
      (hg : g.turns m = s.current.turns m) (hid : t'.id = t.id)
      (hturns : t = x → t'.turns s.cancelled m + 1 = t.turns s.cancelled m) :
      (s.put g).toReach m s.next x.id < s.toReach m s.next x.id := by
    have hreach : reach s.cancelled m x.id (rest ++ [t']) + 1 =
        reach s.cancelled m x.id (t :: rest) := by
      apply reach_rotate hid
      · rw [← hring]
        exact hf.distinct.nodup s.next
      · rw [← hring]
        exact List.mem_map_of_mem hx
      · exact fun hid => hturns (hself hring hid)
    rw [toReach_current, toReach_put, hts, hg, hring]
    omega
  -- The tailnet that is visited is another one, since this one can send.
  have hother {t : TailnetQueue} {rest : List TailnetQueue} {r : Request} {live : List Request}
      (visits : s.Visits t rest (r :: live))
      (hblocked : ¬ (allows s.current.bucket now r.size ∧ allows t.bucket now r.size)) : t ≠ x := by
    rintro rfl
    exact hblocked (sendable_head hsend visits.live)
  cases h with
  | empty ring =>
    rw [ring] at hx
    cases hx
  | groupSpent ring credit spent =>
    have hturns := GroupQueue.turns_short (m := m) hw credit (spent.trans_lt hf.pos) s.current.tailnets
    rw [toReach_switch, toReach_put, toReach_current]
    dsimp only
    omega
  | @tailnetSpent t rest ring credit spent =>
    refine hrotate ring rfl rfl rfl fun htx => ?_
    subst htx
    exact turns_short s.cancelled (hf.tailnet s.next t hx).1 credit (spent.trans_lt hf.pos)
  | idle visits active =>
    refine hrotate visits.ring rfl rfl rfl fun htx => ?_
    exact absurd (htx ▸ visits.live) (sendable_live hsend)
  | inactive visits inactive => exact absurd hsend (visits.nobody inactive hx)
  | @groupShort t rest r live visits short =>
    have hturns := GroupQueue.turns_credited_short hw (short.trans_le (hf.head_le visits))
      (t.offered s.cancelled :: rest)
    have hreach := reach_replace x.id rest (offered_id t s.cancelled) (hf.turns_offered visits)
    rw [toReach_switch, toReach_put, toReach_current, visits.ring]
    dsimp only at hturns ⊢
    omega
  | tailnetShort visits group short =>
    exact hrotate visits.ring rfl (GroupQueue.turns_credited hw) (offered_id _ _)
      fun _ => hf.turns_tailnetShort visits short
  | groupBlocked visits group tailnet blocked =>
    rw [toReach_switch]
    exact hrotate visits.ring rfl (GroupQueue.turns_credited hw) (offered_id _ _)
      fun htx => absurd htx (hother visits fun h => blocked h.1)
  | tailnetBlocked visits group tailnet allowed blocked =>
    rw [toReach_switch]
    exact hrotate visits.ring rfl (GroupQueue.turns_credited hw) (offered_id _ _)
      fun htx => absurd htx (hother visits fun h => blocked h.2)

/-- A pass over the other group ends its turn, or it leaves less work or fewer idle tailnets. -/
theorem Turn.spends (h : Turn now s (.again s')) (hf : s.Fits m) :
    (s'.group s.next).tailnets.length = s.current.tailnets.length ∧
    work s.cancelled m (s'.group s.next).tailnets ≤ work s.cancelled m s.current.tailnets ∧
    (s'.next = s.next.other ∨ s'.next = s.next ∧
      (work s.cancelled m (s'.group s.next).tailnets < work s.cancelled m s.current.tailnets ∨
        skipped s.cancelled (s'.group s.next).tailnets < skipped s.cancelled s.current.tailnets)) := by
  have hrotate {t t' : TailnetQueue} {rest : List TailnetQueue}
      (hring : s.current.tailnets = t :: rest)
      (hturns : t'.turns s.cancelled m ≤ t.turns s.cancelled m) :
      (rest ++ [t']).length = s.current.tailnets.length ∧
        work s.cancelled m (rest ++ [t']) ≤ work s.cancelled m s.current.tailnets := by
    have hwork := work_rotate s.cancelled m t t' rest
    rw [hring]
    exact ⟨by simp, by omega⟩
  have hpassed {t t' : TailnetQueue} {rest : List TailnetQueue}
      (hring : s.current.tailnets = t :: rest)
      (hturns : t'.turns s.cancelled m + 1 = t.turns s.cancelled m) :
      work s.cancelled m (rest ++ [t']) < work s.cancelled m s.current.tailnets := by
    have hwork := work_rotate s.cancelled m t t' rest
    rw [hring]
    omega
  -- An idle tailnet is left without turns.
  have hidle {t : TailnetQueue} {rest : List TailnetQueue} (visits : s.Visits t rest []) :
      TailnetQueue.turns s.cancelled m
        { t.idled s.cancelled now with deficit := 0, credit := false } = 0 := by
    apply turns_of_idle
    show (t.live s.cancelled).dropWhile _ = []
    rw [visits.live, List.dropWhile_nil]
  cases h with
  | empty ring =>
    rw [switch_group]
    exact ⟨rfl, le_rfl, .inl rfl⟩
  | groupSpent ring credit spent =>
    rw [switch_group, put_group_next]
    exact ⟨rfl, le_rfl, .inl put_switch_next⟩
  | @tailnetSpent t rest ring credit spent =>
    have hturns := turns_short s.cancelled (hf.tailnet s.next t (mem_current ring)).1 credit
      (spent.trans_lt hf.pos)
    obtain ⟨hlength, hwork⟩ := hrotate ring (Nat.le_of_succ_le hturns.le)
    rw [put_group_next]
    exact ⟨hlength, hwork, .inr ⟨put_next, .inl (hpassed ring hturns)⟩⟩
  | @idle t rest visits active =>
    have hskipped : skipped s.cancelled (t :: rest) = skipped s.cancelled rest + 1 := by
      rw [skipped, if_pos ⟨visits.live, by simpa using active⟩]
    obtain ⟨hlength, hwork⟩ := hrotate visits.ring ((hidle visits).trans_le (Nat.zero_le _))
    rw [put_group_next]
    refine ⟨hlength, hwork, .inr ⟨put_next, .inr ?_⟩⟩
    dsimp only
    rw [skipped_append rest visits.live, visits.ring, hskipped]
    exact Nat.lt_succ_self _
  | inactive visits inactive =>
    obtain ⟨hlength, hwork⟩ := hrotate visits.ring ((hidle visits).trans_le (Nat.zero_le _))
    rw [switch_group, put_group_next]
    exact ⟨hlength, hwork, .inl put_switch_next⟩
  | groupShort visits short =>
    rw [switch_group, put_group_next, visits.ring]
    exact ⟨rfl, (work_replace (hf.turns_offered visits)).le, .inl put_switch_next⟩
  | tailnetShort visits group short =>
    have hturns := hf.turns_tailnetShort visits short
    obtain ⟨hlength, hwork⟩ := hrotate visits.ring (Nat.le_of_succ_le hturns.le)
    rw [put_group_next]
    exact ⟨hlength, hwork, .inr ⟨put_next, .inl (hpassed visits.ring hturns)⟩⟩
  | groupBlocked visits group tailnet blocked =>
    obtain ⟨hlength, hwork⟩ := hrotate visits.ring (hf.turns_offered visits).le
    rw [switch_group, put_group_next]
    exact ⟨hlength, hwork, .inl put_switch_next⟩
  | @tailnetBlocked t rest r live visits group tailnet allowed blocked =>
    have hturns : ((t.offered s.cancelled).asked now).turns s.cancelled m = t.turns s.cancelled m :=
      hf.turns_offered visits
    obtain ⟨hlength, hwork⟩ := hrotate visits.ring hturns.le
    rw [switch_group, put_group_next]
    exact ⟨hlength, hwork, .inl put_switch_next⟩

/-- A pass that leaves the group of a tailnet that can send ends a turn of the group, unless a ceiling
keeps a request back. -/
theorem Turn.leaves (h : Turn now s (.again s')) (hf : s.Fits m) {x : TailnetQueue}
    (hx : x ∈ s.current.tailnets) (hsend : s.sendable now s.next x)
    (hclear : s.held now s.next = false) :
    (s'.group s.next).turns m ≤ s.current.turns m ∧
      (s'.next = s.next ∨ (s'.group s.next).turns m < s.current.turns m) := by
  have hw : 0 < s.current.weight := hf.group s.next
  have hstays {g : GroupQueue} (hg : g.turns m = s.current.turns m) :
      ((s.put g).group s.next).turns m ≤ s.current.turns m ∧ ((s.put g).next = s.next ∨
        ((s.put g).group s.next).turns m < s.current.turns m) := by
    rw [put_group_next]
    exact ⟨hg.le, .inl put_next⟩
  have hends {g : GroupQueue} (hg : g.turns m + 1 = s.current.turns m) :
      ((s.put g).switch.group s.next).turns m ≤ s.current.turns m ∧ ((s.put g).switch.next = s.next ∨
        ((s.put g).switch.group s.next).turns m < s.current.turns m) := by
    rw [switch_group, put_group_next]
    exact ⟨by omega, .inr (by omega)⟩
  -- Nothing in the group is held, so its buckets pay for every head it visits.
  have hblocked {t : TailnetQueue} {rest : List TailnetQueue} {r : Request} {live : List Request}
      (visits : s.Visits t rest (r :: live)) :
      allows s.current.bucket now r.size ∧ allows t.bucket now r.size := by
    by_contra hnot
    simp [visits.held hnot] at hclear
  cases h with
  | empty ring =>
    rw [ring] at hx
    cases hx
  | groupSpent ring credit spent =>
    exact hends (GroupQueue.turns_short hw credit (spent.trans_lt hf.pos) s.current.tailnets)
  | tailnetSpent | idle => exact hstays rfl
  | inactive visits inactive => exact absurd hsend (visits.nobody inactive hx)
  | groupShort visits short =>
    exact hends (GroupQueue.turns_credited_short hw (short.trans_le (hf.head_le visits)) _)
  | tailnetShort => exact hstays (GroupQueue.turns_credited hw)
  | groupBlocked visits _ _ blocked => exact absurd (hblocked visits).1 blocked
  | tailnetBlocked visits _ _ _ blocked => exact absurd (hblocked visits).2 blocked

/-- A pass over the other group ends its turn, or it brings every engaged tailnet nearer to its last
turn, if no ceiling keeps a request back. -/
theorem Turn.settles (h : Turn now s (.again s')) (hf : s.Fits m) {n : ℕ}
    (hs : Settles s.cancelled m n s.current.tailnets) (hclear : s.held now s.next = false) :
    ∃ n', Settles s.cancelled m n' (s'.group s.next).tailnets ∧ n' ≤ n ∧
      (s'.next = s.next.other ∨ s'.next = s.next ∧ n' < n) := by
  have hnodup : (s.current.tailnets.map (·.id)).Nodup := hf.distinct.nodup s.next
  have hrotate {t t' : TailnetQueue} {rest : List TailnetQueue}
      (hring : s.current.tailnets = t :: rest) (hid : t'.id = t.id)
      (hturns : t'.engaged → t'.turns s.cancelled m + 1 = t.turns s.cancelled m) :
      Settles s.cancelled m (n - 1) (rest ++ [t']) := by
    rw [hring] at hs hnodup
    exact hs.rotate hnodup hid hturns
  -- Somebody is engaged, so that a pass is left.
  have hpassed {t : TailnetQueue} (ht : t ∈ s.current.tailnets) (hengaged : t.engaged) : n - 1 < n :=
    Nat.pred_lt_of_lt (hs t ht hengaged)
  have hidle {t : TailnetQueue} {rest : List TailnetQueue} (visits : s.Visits t rest []) :
      engaged { t.idled s.cancelled now with deficit := 0, credit := false } = false := by
    simp [engaged, idled, drop, visits.live]
  cases h with
  | empty ring =>
    rw [switch_group]
    exact ⟨n, hs, le_rfl, .inl rfl⟩
  | groupSpent =>
    rw [switch_group, put_group_next]
    exact ⟨n, hs, le_rfl, .inl put_switch_next⟩
  | @tailnetSpent t rest ring credit spent =>
    rw [put_group_next]
    refine ⟨n - 1, hrotate ring rfl fun _ => ?_, Nat.sub_le n 1, .inr ⟨put_next, ?_⟩⟩
    · exact turns_short s.cancelled (hf.tailnet s.next t (mem_current ring)).1 credit
        (spent.trans_lt hf.pos)
    · exact hpassed (mem_current ring) (by simp [engaged, credit])
  | idle visits active =>
    obtain ⟨u, hu, hrequests⟩ := active
    rw [put_group_next]
    refine ⟨n - 1, hrotate visits.ring rfl fun h => ?_, Nat.sub_le n 1, .inr ⟨put_next, ?_⟩⟩
    · simp [hidle visits] at h
    · refine hpassed (t := u) ?_ (by simp [engaged, hrequests])
      rw [visits.ring]
      exact List.mem_cons_of_mem _ hu
  | inactive visits inactive =>
    rw [switch_group, put_group_next]
    refine ⟨n - 1, hrotate visits.ring rfl fun h => ?_, Nat.sub_le n 1, .inl put_switch_next⟩
    simp [hidle visits] at h
  | groupShort visits short =>
    rw [visits.ring] at hs
    rw [switch_group, put_group_next]
    exact ⟨n, hs.replace (offered_id _ _) (hf.turns_offered visits) visits.engaged, le_rfl,
      .inl put_switch_next⟩
  | tailnetShort visits group short =>
    rw [put_group_next]
    refine ⟨n - 1, hrotate visits.ring (offered_id _ _) fun _ => ?_, Nat.sub_le n 1,
      .inr ⟨put_next, ?_⟩⟩
    · exact hf.turns_tailnetShort visits short
    · exact hpassed visits.mem visits.engaged
  | groupBlocked visits _ _ blocked =>
    simp [visits.held fun h => blocked h.1] at hclear
  | tailnetBlocked visits _ _ _ blocked =>
    simp [visits.held fun h => blocked h.2] at hclear

/-- The passes each time that the search comes to a group of `n` tailnets. -/
def lap (held : Bool) (n : ℕ) : ℕ := if held then n + 1 else 1

/-- The passes over a group that are still to come, while the search is in the other group and while
it is in this one. -/
inductive Toll (cancelled : List ℕ) (m : ℕ) (ts : List TailnetQueue) : Bool → ℕ → ℕ → Prop
  | clear {n : ℕ} (settles : Settles cancelled m n ts) : Toll cancelled m ts false n (n + 1)
  | held : Toll cancelled m ts true (work cancelled m ts * (ts.length + 1))
      (work cancelled m ts * (ts.length + 1) + skipped cancelled ts + 1)

theorem Toll.comes {cancelled : List ℕ} {ts : List TailnetQueue} {held : Bool} {away here : ℕ}
    (h : Toll cancelled m ts held away here) : here ≤ away + lap held ts.length := by
  cases h with
  | clear => exact le_rfl
  | held =>
    have hskipped := skipped_le cancelled ts
    simp only [lap, if_true]
    omega

theorem Toll.pass {held : Bool} {away here : ℕ}
    (ht : Toll s.cancelled m s.current.tailnets held away here) (h : Turn now s (.again s'))
    (hf : s.Fits m) (hheld : held = false → s.held now s.next = false) :
    (s'.group s.next).tailnets.length = s.current.tailnets.length ∧
    ∃ away' here', Toll s.cancelled m (s'.group s.next).tailnets held away' here' ∧
      (if s'.next = s.next then here' else away') < here := by
  obtain ⟨hlength, hwork, hnext⟩ := h.spends hf
  refine ⟨hlength, ?_⟩
  cases ht with
  | @clear n settles =>
    obtain ⟨n', hsettles, hle, hnext⟩ := h.settles hf settles (hheld rfl)
    refine ⟨n', n' + 1, .clear hsettles, ?_⟩
    rcases hnext with hnext | ⟨hnext, hlt⟩
    · rw [if_neg (hnext ▸ other_ne)]
      omega
    · rw [if_pos hnext]
      omega
  -- A turn that stays in the group takes from its work or, at the same work, from the tailnets
  -- to skip.
  | held =>
    refine ⟨_, _, .held, ?_⟩
    have hscaled := Nat.mul_le_mul_right (s.current.tailnets.length + 1) hwork
    have hskipped := skipped_le s.cancelled (s'.group s.next).tailnets
    rw [hlength] at hskipped ⊢
    rcases hnext with hnext | ⟨hnext, hless | hless⟩
    · rw [if_neg (hnext ▸ other_ne)]
      omega
    · have hscaled' := Nat.mul_le_mul_right (s.current.tailnets.length + 1) hless
      rw [Nat.succ_mul] at hscaled'
      rw [if_pos hnext]
      omega
    · rw [if_pos hnext]
      omega

/-- How often the search still leaves group `i` before the tailnet `id` is next. -/
def leaves (s : Scheduler) (m : ℕ) (i : GroupID) (id : String) (held : Bool) : ℕ :=
  if held then s.toReach m i id else (s.group i).turns m

/-- The passes before a request of the tailnet `id` of group `i` is next, where `away` and `here` are
those over the other group. -/
def triesTo (s : Scheduler) (m : ℕ) (i : GroupID) (id : String) (held held' : Bool)
    (away here : ℕ) : ℕ :=
  s.toReach m i id + s.leaves m i id held * lap held' (s.group i.other).tailnets.length +
    if s.next = i then away else here

/-- Every pass is one of them. -/
theorem Turn.fewer (h : Turn now s (.again s')) (hf : s.Fits m) {x : TailnetQueue}
    (hx : x ∈ (s.group i).tailnets) (hsend : s.sendable now i x) {held held' : Bool}
    (hheld : held = false → s.held now i = false)
    (hheld' : held' = false → s.held now i.other = false) {away here : ℕ}
    (ht : Toll s.cancelled m (s.group i.other).tailnets held' away here) :
    ∃ away' here', Toll s'.cancelled m (s'.group i.other).tailnets held' away' here' ∧
      s'.triesTo m i x.id held held' away' here' < s.triesTo m i x.id held held' away here := by
  unfold triesTo
  rw [h.passes.cancelled]
  -- Either the turn was in the group of `x`, and the other group is untouched, or it was in the
  -- other.
  by_cases hi : s.next = i
  · subst hi
    have hsame : s'.group s.next.other = s.group s.next.other := h.other other_ne
    have hnearer := h.nearer hf hx hsend
    have hleaves : s'.leaves m s.next x.id held ≤ s.leaves m s.next x.id held ∧
        (s'.next = s.next ∨ s'.leaves m s.next x.id held < s.leaves m s.next x.id held) := by
      cases held with
      | true => exact ⟨hnearer.le, .inr hnearer⟩
      | false => exact h.leaves hf hx hsend (hheld rfl)
    obtain ⟨hle, hnext⟩ := hleaves
    refine ⟨away, here, by rwa [hsame], ?_⟩
    rw [hsame, if_pos rfl]
    generalize hlap : lap held' (s.group s.next.other).tailnets.length = c
    have hcomes := ht.comes
    rw [hlap] at hcomes
    rcases hnext with hnext | hless
    · have hscaled := Nat.mul_le_mul_right c hle
      rw [if_pos hnext]
      omega
    · have hscaled := Nat.mul_le_mul_right c hless
      rw [Nat.succ_mul] at hscaled
      split_ifs <;> omega
  · obtain rfl : i = s.next.other := eq_other_of_ne (Ne.symm hi)
    rw [other_other] at *
    obtain ⟨hlength, away', here', ht', hless⟩ := ht.pass h hf hheld'
    refine ⟨away', here', ht', ?_⟩
    have hgroup : s'.group s.next.other = s.group s.next.other := h.other other_ne
    have hsame : s'.toReach m s.next.other x.id = s.toReach m s.next.other x.id := by
      rw [toReach, toReach, hgroup, h.passes.cancelled]
    have hleaves : s'.leaves m s.next.other x.id held = s.leaves m s.next.other x.id held := by
      rw [Scheduler.leaves, Scheduler.leaves, hsame, hgroup]
    rw [hsame, hleaves, hlength, if_neg hi]
    rw [show s.current = s.group s.next from rfl] at *
    by_cases hnext : s'.next = s.next
    · rw [if_pos hnext] at hless
      rw [if_neg (hnext ▸ hi)]
      omega
    · rw [if_neg hnext] at hless
      rw [if_pos (eq_other_of_ne hnext)]
      omega

theorem allows_asked {b b' : TokenBucket} (h : TokenBucket.Asked burst nanosecond now b b') (n : ℕ) :
    allows b' now n = allows b now n := by
  unfold allows TokenBucket.available
  rw [h.refill_eq]

theorem Passes.sendable_eq (h : Passes now s s') {t t' : TailnetQueue}
    (hlive : t'.live s.cancelled = t.live s.cancelled)
    (hbucket : TokenBucket.Asked burst nanosecond now t.bucket t'.bucket) :
    s'.sendable now i t' = s.sendable now i t := by
  unfold Scheduler.sendable
  rw [h.cancelled, hlive]
  simp only [allows_asked (h.bucket i), allows_asked hbucket]

theorem Passes.sendable (h : Passes now s s') {x : TailnetQueue} (hx : x ∈ (s.group i).tailnets)
    (hsend : s.sendable now i x) :
    ∃ y ∈ (s'.group i).tailnets, y.id = x.id ∧ s'.sendable now i y := by
  rcases h.tailnets with hsame | ⟨t, t', hreplaces, hpassed⟩
  · rw [hsame]
    exact ⟨x, hx, rfl, (h.sendable_eq rfl .refl).trans hsend⟩
  · have hexists := hreplaces.exists (P := fun u => u.id = x.id ∧ s'.sendable now i u) hx
      ⟨rfl, (h.sendable_eq rfl .refl).trans hsend⟩ fun ht => ?_
    · exact hexists
    · refine ⟨hreplaces.id.trans ht.1, ?_⟩
      rw [h.sendable_eq hpassed.live hpassed.bucket, ← h.sendable_eq rfl .refl]
      exact ht.2

theorem Passes.held (h : Passes now s s') (hclear : s.held now i = false) :
    s'.held now i = false := by
  rw [held_eq_false] at hclear ⊢
  rw [h.cancelled]
  intro u hu hlive
  rcases h.tailnets with hsame | ⟨t, t', hreplaces, hpassed⟩
  · rw [hsame] at hu
    exact (h.sendable_eq rfl .refl).trans (hclear u hu hlive)
  · refine hreplaces.forall (P := fun j u => j = i → u.live s.cancelled ≠ [] → s'.sendable now j u)
      ?_ ?_ i u hu rfl hlive
    · intro j v hv hj hlive
      subst hj
      exact (h.sendable_eq rfl .refl).trans (hclear v hv hlive)
    · rintro rfl hlive
      rw [h.sendable_eq hpassed.live hpassed.bucket]
      exact hclear t hreplaces.current (hpassed.live ▸ hlive)

theorem Passes.fits (h : Passes now s s') (hf : s.Fits m) : s'.Fits m := by
  refine ⟨hf.pos, h.distinct hf.distinct, fun i => (h.weight i).symm ▸ hf.group i, ?_⟩
  rcases h.tailnets with hsame | ⟨t, t', hreplaces, hpassed⟩
  · intro i
    rw [hsame]
    exact hf.tailnet i
  · obtain ⟨hweight, hsize⟩ := hf.tailnet s.next t hreplaces.current
    apply hreplaces.forall hf.tailnet
    rw [hpassed.weight]
    exact ⟨hweight, fun r hr => hsize r (hpassed.requests_subset hr)⟩

/-- A search with enough passes does not use them up while a tailnet can send. -/
theorem search_stops {tries : ℕ} (hf : s.Fits m) {x : TailnetQueue}
    (hx : x ∈ (s.group i).tailnets) (hsend : s.sendable now i x) {held held' : Bool}
    (hheld : held = false → s.held now i = false)
    (hheld' : held' = false → s.held now i.other = false) {away here : ℕ}
    (htoll : Toll s.cancelled m (s.group i.other).tailnets held' away here)
    (htries : s.triesTo m i x.id held held' away here < tries)
    (h : search now tries s = (none, s')) : ∃ a, Turn now a (.stop s') := by
  induction tries generalizing s x away here with
  | zero => exact absurd htries (Nat.not_lt_zero _)
  | succ tries ih =>
    have hturn := s.attempt_turn now
    rw [search] at h
    cases ha : s.attempt now with
    | again b =>
      rw [ha] at h hturn
      have hpasses := hturn.passes
      obtain ⟨y, hy, hid, hsend'⟩ := hpasses.sendable hx hsend
      obtain ⟨away', here', htoll', hfewer⟩ := hturn.fewer hf hx hsend hheld hheld' htoll
      exact ih (hpasses.fits hf) hy hsend' (hpasses.held ∘ hheld) (hpasses.held ∘ hheld') htoll'
        (by rw [hid]; omega) h
    | stop b =>
      rw [ha] at h hturn
      obtain ⟨-, rfl⟩ := Prod.mk.inj h
      exact ⟨s, hturn⟩
    | grant g b =>
      rw [ha] at h
      cases (Prod.mk.inj h).1

def budgetBlocked (s : Scheduler) (now : ℤ) : Bool :=
  match s.current.tailnets with
  | [] => false
  | t :: _ =>
    match t.live s.cancelled with
    | [] => false
    | r :: _ => r.size ≤ s.current.deficit && r.size ≤ t.deficit &&
      allows s.current.bucket now r.size && allows t.bucket now r.size && !allows s.budget now r.size

def inGrace (s : Scheduler) (now : ℤ) : Bool :=
  match s.current.tailnets with
  | [] => false
  | t :: _ => t.live s.cancelled = [] && s.current.credit && 0 < s.current.deficit &&
    t.idleSince.any (now - · < s.grace)

theorem Turn.stop_reason (h : Turn now s (.stop s')) : s'.budgetBlocked now ∨ s'.inGrace now := by
  cases h with
  | @grace t rest visits credit deficit early =>
    right
    have hlive : (t.idled s.cancelled now).live s.cancelled = [] := by
      show (t.live s.cancelled).dropWhile _ = []
      rw [visits.live, List.dropWhile_nil]
    have hgrace (g : GroupQueue) : (s.put g).grace = s.grace := by
      rw [Scheduler.grace, Scheduler.grace, put_budget]
    have hidle : (t.idled s.cancelled now).idleSince = some (t.idleSince.getD now) := rfl
    rw [inGrace, put_current, put_cancelled, hgrace]
    simp [hlive, credit, deficit, hidle, early]
  | @budget t rest r live visits group tailnet allowed blocked =>
    left
    have hlive : ((t.offered s.cancelled).asked now).live s.cancelled = r :: live :=
      live_offered.trans visits.live
    have hgroup : allows (s.current.credited.asked now).bucket now r.size := by
      rw [allows_asked (credited_asked s.current)]
      exact allowed.1
    have htailnet : allows ((t.offered s.cancelled).asked now).bucket now r.size := by
      rw [allows_asked (passed_offered s.cancelled).asked.bucket]
      exact allowed.2
    -- A stop leaves the budget refilled, and a refill at the same instant adds nothing.
    have hbudget : allows (s.budget.refill burst nanosecond now) now r.size = false := by
      rw [allows_asked (.inr rfl)]
      exact Bool.eq_false_iff.mpr blocked
    have hdeficit : r.size ≤ ((t.offered s.cancelled).asked now).deficit := tailnet
    have hdeficit' : r.size ≤ (s.current.credited.asked now).deficit := group
    rw [budgetBlocked, setBudget_current, put_current]
    simp [hlive, hgroup, htailnet, hbudget, hdeficit, hdeficit', setBudget]

/-- The passes before any request in a group of `n` tailnets is next, if the other group has `n'`
tailnets and `k` quanta are enough for any request. -/
def passBound (k n n' : ℕ) (held held' : Bool) : ℕ :=
  let own := k * n + n + k
  own + ((if held then own else k) + 1) * lap held' n' +
    if held' then k * n' * (n' + 1) else k * n' + n'

/-- Requests are for at most `m` bytes, which everyone gets in `k` turns, and `tries` passes are
enough. -/
structure Affords (s : Scheduler) (now : ℤ) (m k tries : ℕ) : Prop where
  size : ∀ i, ∀ t ∈ (s.group i).tailnets, ∀ r ∈ t.requests, r.size ≤ m
  group : ∀ i, m ≤ quantum * (s.group i).weight * k
  tailnet : ∀ i, ∀ t ∈ (s.group i).tailnets, m ≤ quantum * t.weight * k
  tries : ∀ i, passBound k (s.group i).tailnets.length (s.group i.other).tailnets.length
    (s.held now i) (s.held now i.other) ≤ tries

theorem weight_pos {w k : ℕ} (hm : 0 < m) (h : m ≤ quantum * w * k) : 0 < w ∧ 0 < k := by
  have hpos := hm.trans_le h
  refine ⟨Nat.pos_of_ne_zero fun hw => ?_, Nat.pos_of_ne_zero fun hk => ?_⟩
  · simp [hw] at hpos
  · simp [hk] at hpos

theorem Affords.fits {k tries : ℕ} (h : s.Affords now m k tries) (hm : 0 < m) (hd : s.Distinct) :
    s.Fits m where
  pos := hm
  distinct := hd
  group i := (weight_pos hm (h.group i)).1
  tailnet i t ht := ⟨(weight_pos hm (h.tailnet i t ht)).1, h.size i t ht⟩

theorem Affords.turns_le {k tries : ℕ} (h : s.Affords now m k tries) (hm : 0 < m)
    {t : TailnetQueue} (ht : t ∈ (s.group i).tailnets) : t.turns s.cancelled m ≤ k :=
  TailnetQueue.turns_le (weight_pos hm (h.tailnet i t ht)).1 (weight_pos hm (h.group i)).2
    (h.tailnet i t ht)

theorem Affords.reach_lt {k tries : ℕ} (h : s.Affords now m k tries) (hm : 0 < m)
    {t : TailnetQueue} (ht : t ∈ (s.group i).tailnets) :
    reach s.cancelled m t.id (s.group i).tailnets <
      k * (s.group i).tailnets.length + (s.group i).tailnets.length := by
  have hfound : ((s.group i).tailnets.find? (·.id = t.id)).elim 0 (turns s.cancelled m) ≤ k := by
    cases hfind : (s.group i).tailnets.find? (·.id = t.id) with
    | none => exact Nat.zero_le k
    | some u => exact h.turns_le hm (List.mem_of_find?_eq_some hfind)
  have hscaled := Nat.mul_le_mul_right (s.group i).tailnets.length hfound
  have hindex := List.idxOf_lt_length_of_mem (List.mem_map_of_mem (f := (·.id)) ht)
  rw [List.length_map] at hindex
  unfold reach
  omega

theorem Affords.toll {k tries : ℕ} (h : s.Affords now m k tries) (hm : 0 < m) (i : GroupID)
    (held : Bool) : ∃ away here, Toll s.cancelled m (s.group i).tailnets held away here ∧
      away ≤ if held then k * (s.group i).tailnets.length * ((s.group i).tailnets.length + 1)
        else k * (s.group i).tailnets.length + (s.group i).tailnets.length := by
  cases held with
  | false => exact ⟨_, _, .clear fun t ht _ => h.reach_lt hm ht, le_rfl⟩
  | true =>
    refine ⟨_, _, .held, Nat.mul_le_mul_right _ ?_⟩
    have hsum := List.sum_le_card_nsmul ((s.group i).tailnets.map (turns s.cancelled m)) k
      fun n hn => by
        obtain ⟨t, ht, rfl⟩ := List.mem_map.mp hn
        exact h.turns_le hm ht
    rwa [List.length_map, smul_eq_mul, Nat.mul_comm] at hsum

theorem Affords.triesTo_lt {k tries : ℕ} (h : s.Affords now m k tries) (hm : 0 < m)
    {t : TailnetQueue} (ht : t ∈ (s.group i).tailnets) :
    ∃ away here, Toll s.cancelled m (s.group i.other).tailnets (s.held now i.other) away here ∧
      s.triesTo m i t.id (s.held now i) (s.held now i.other) away here < tries := by
  obtain ⟨away, here, htoll, haway⟩ := h.toll hm i.other (s.held now i.other)
  refine ⟨away, here, htoll, Nat.lt_of_lt_of_le ?_ (h.tries i)⟩
  have hgroup : (s.group i).turns m ≤ k :=
    turnsLeft_le (Nat.mul_pos (by decide) (weight_pos hm (h.group i)).1) (h.group i)
  have hreach : s.toReach m i t.id <
      k * (s.group i).tailnets.length + (s.group i).tailnets.length + k := by
    have := h.reach_lt hm ht
    unfold toReach
    omega
  have hleaves : s.leaves m i t.id (s.held now i) ≤ if s.held now i then
      k * (s.group i).tailnets.length + (s.group i).tailnets.length + k else k := by
    unfold leaves
    split_ifs
    · exact hreach.le
    · exact hgroup
  have hscaled := Nat.mul_le_mul_right
    (lap (s.held now i.other) (s.group i.other).tailnets.length) hleaves
  have hcomes := htoll.comes
  unfold triesTo passBound
  dsimp only
  rw [Nat.succ_mul]
  split_ifs at * <;> omega

/-- As long as 512 passes are enough, a step that lets nothing through is blocked by the budget or
waits for an idle tailnet, or the ceilings block every tailnet. -/
theorem Run.work_conserved (r : Run) {l : ℕ} (hl : l ≤ r.len) {m k : ℕ} (hm : 0 < m)
    (hafford : (r.state l).scheduler.Affords now m k 512)
    (hstep : (r.state l).scheduler.step now = (none, s')) :
    s'.budgetBlocked now ∨ s'.inGrace now ∨ ∀ i, ∀ t ∈ ((r.state l).scheduler.group i).tailnets,
      ¬ (r.state l).scheduler.sendable now i t := by
  by_cases hsend : ∃ i, ∃ t ∈ ((r.state l).scheduler.group i).tailnets,
      (r.state l).scheduler.sendable now i t
  · obtain ⟨i, t, ht, hsend⟩ := hsend
    obtain ⟨away, here, htoll, htries⟩ := hafford.triesTo_lt hm ht
    obtain ⟨a, hstop⟩ := search_stops (hafford.fits hm (Run.distinct r hl)) ht hsend id id htoll
      htries hstep
    rcases hstop.stop_reason with h | h
    · exact .inl h
    · exact .inr (.inl h)
  · exact .inr (.inr fun i t ht h => hsend ⟨i, t, ht, h⟩)

def cappedRun : Run := .ofCalls ⟨1000000, 8, 2, 0, [⟨"a", .owner, 1, 1000⟩], List.nodup_singleton _⟩ 0
  [.wait 0 "a" 0, .step 0, .wait 0 "a" 1200] (by decide +kernel)

theorem capped_conserved : ((cappedRun.state 3).scheduler.step 1000).1 = none ∧
    (((cappedRun.state 3).scheduler.step 1000).2.budgetBlocked 1000 ∨
      ((cappedRun.state 3).scheduler.step 1000).2.inGrace 1000 ∨
      ∀ i, ∀ t ∈ ((cappedRun.state 3).scheduler.group i).tailnets,
        ¬ (cappedRun.state 3).scheduler.sendable 1000 i t) := by
  have hnone : ((cappedRun.state 3).scheduler.step 1000).1 = none := by decide +kernel
  refine ⟨hnone, Run.work_conserved cappedRun (by decide) (m := 1200) (k := 1) (by decide) ?_
    (Prod.ext hnone rfl)⟩
  refine ⟨fun i => ?_, fun i => ?_, fun i => ?_, fun i => ?_⟩
  all_goals cases i <;> decide +kernel

-- The largest requests of seven tailnets are within the tries, those of eight are not.
example : passBound 55 7 0 false false ≤ 512 ∧ 512 < passBound 55 8 0 false false := by decide

def crowdedPolicy : QoSPolicy :=
  ⟨8000000, 1, 1, 0, ["a", "b", "c", "d", "e", "f", "g", "h"].map fun id => ⟨id, .owner, 1, 0⟩⟩

theorem crowdedPolicy_valid : validateQoS crowdedPolicy = .ok () := by decide +kernel

/-- The budget is asked once; later every tailnet queues a request for 65536 bytes. -/
def crowdedRun : Run := .ofCalls (.ofPolicy 0 crowdedPolicy crowdedPolicy_valid) 0
  ([.wait 0 "a" 0, .step 0] ++
    ["a", "b", "c", "d", "e", "f", "g", "h"].map fun id => .wait 0 id 65536) (by decide +kernel)

/-- No ceiling is set and the budget is there for any of the requests, but the step gives up. -/
theorem crowded_gives_up : crowdedRun.len = 10 ∧
    ((crowdedRun.state 10).scheduler.step 1000000000).1 = none ∧
    ¬ ((crowdedRun.state 10).scheduler.step 1000000000).2.budgetBlocked 1000000000 ∧
    ¬ ((crowdedRun.state 10).scheduler.step 1000000000).2.inGrace 1000000000 ∧
    allows (crowdedRun.state 10).scheduler.budget 1000000000 65536 ∧
    ∃ t ∈ ((crowdedRun.state 10).scheduler.group .owner).tailnets,
      (crowdedRun.state 10).scheduler.sendable 1000000000 .owner t := by
  decide +kernel

end Scheduler

end UniDERP.Relay
