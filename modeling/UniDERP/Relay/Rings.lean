import UniDERP.Relay.Requests

namespace UniDERP.Relay.Requests

def TailnetQueue.ring (t : TailnetQueue) : Relay.TailnetQueue where
  id := t.id
  weight := t.weight
  deficit := t.deficit.toNat
  credit := t.credit
  bucket := t.bucket
  requests := t.requests.map fun r => ⟨r.ctx, r.size⟩
  queuedBytes := t.queuedBytes.toNat
  idleSince := t.idleSince

def GroupQueue.ring (g : GroupQueue) : Relay.GroupQueue where
  weight := g.weight
  deficit := g.deficit.toNat
  credit := g.credit
  bucket := g.bucket
  tailnets := (g.tailnets.rotate g.next).map TailnetQueue.ring

def Scheduler.ring (s : Scheduler) : Relay.Scheduler where
  owner := (s.groups .owner).ring
  shared := (s.groups .shared).ring
  next := s.next
  budget := s.budget
  cancelled := s.cancelled

section Queue

variable {t : TailnetQueue} {g : GroupQueue}

theorem live_ring (cancelled : List ℕ) (t : TailnetQueue) :
    t.ring.live cancelled = (t.drop cancelled).requests.map fun r => ⟨r.ctx, r.size⟩ := by
  simp only [TailnetQueue.ring, Relay.TailnetQueue.live, TailnetQueue.drop, List.dropWhile_map]
  rfl

theorem drop_ring (cancelled : List ℕ) (t : TailnetQueue) :
    (t.drop cancelled).ring = t.ring.drop cancelled := by
  have hgone : ((t.ring.requests.takeWhile (·.ctx ∈ cancelled)).map (·.size)).sum =
      ((t.gone cancelled).map (·.size)).sum := by
    simp only [TailnetQueue.ring, TailnetQueue.gone, List.takeWhile_map, List.map_map]
    rfl
  rw [Relay.TailnetQueue.drop, live_ring, hgone]
  simp only [TailnetQueue.ring, TailnetQueue.drop, Relay.TailnetQueue.mk.injEq, true_and, and_true]
  omega

theorem credited_ring (h : 0 ≤ t.deficit) : t.credited.ring = t.ring.credited := by
  unfold TailnetQueue.credited Relay.TailnetQueue.credited
  rw [show t.ring.credit = t.credit from rfl]
  split_ifs
  · rfl
  · simp only [TailnetQueue.ring, Relay.TailnetQueue.mk.injEq, true_and, and_true]
    have := Int.natCast_nonneg (quantum * t.weight)
    push_cast at this
    omega

theorem group_credited_ring (h : 0 ≤ g.deficit) : g.credited.ring = g.ring.credited := by
  unfold GroupQueue.credited Relay.GroupQueue.credited
  rw [show g.ring.credit = g.credit from rfl]
  split_ifs
  · rfl
  · simp only [GroupQueue.ring, Relay.GroupQueue.mk.injEq, true_and, and_true]
    have := Int.natCast_nonneg (quantum * g.weight)
    push_cast at this
    omega

theorem credited_nonneg {deficit : ℤ} {credit : Bool} {weight : ℕ} (h : 0 ≤ deficit) :
    0 ≤ credited deficit credit weight := by
  unfold credited
  split_ifs <;> positivity

def GroupQueue.rest (g : GroupQueue) : List TailnetQueue :=
  g.tailnets.drop (g.next + 1) ++ g.tailnets.take g.next

theorem ring_tailnets (h : g.tailnets[g.next]? = some t) :
    g.ring.tailnets = t.ring :: g.rest.map TailnetQueue.ring := by
  obtain ⟨hk, rfl⟩ := List.getElem?_eq_some_iff.mp h
  rw [GroupQueue.ring, List.rotate_eq_drop_append_take hk.le, List.drop_eq_getElem_cons hk]
  rfl

theorem set_ring (t : TailnetQueue) (h : g.next < g.tailnets.length) :
    (g.set t).ring = { g.ring with tailnets := t.ring :: g.rest.map TailnetQueue.ring } := by
  have hget : (g.set t).tailnets[(g.set t).next]? = some t := List.getElem?_set_self h
  have hrest : (g.set t).rest = g.rest := by
    simp only [GroupQueue.rest, GroupQueue.set]
    rw [List.drop_set_of_lt (Nat.lt_succ_self _), List.take_set_of_le le_rfl]
  have hring := ring_tailnets hget
  rw [hrest] at hring
  rw [← hring]
  rfl

theorem advance_ring (t : TailnetQueue) (h : g.next < g.tailnets.length) :
    (g.set t).advance.ring = { g.ring with tailnets := g.rest.map TailnetQueue.ring ++ [t.ring] } := by
  have hrotate : (g.set t).tailnets.rotate (g.set t).advance.next = g.rest ++ [t] := by
    have hlen : g.next + 1 ≤ (g.set t).tailnets.length := by
      rw [GroupQueue.set, List.length_set]
      exact h
    rw [GroupQueue.advance, List.rotate_mod, show (g.set t).next = g.next from rfl,
      List.rotate_eq_drop_append_take hlen]
    simp only [GroupQueue.rest, GroupQueue.set]
    rw [List.drop_set_of_lt (Nat.lt_succ_self _), List.take_add_one, List.take_set_of_le le_rfl,
      List.getElem?_set_self h, List.append_assoc]
    rfl
  have hmap := congrArg (List.map TailnetQueue.ring) hrotate
  rw [List.map_append] at hmap
  simp only [List.map_cons, List.map_nil] at hmap
  rw [← hmap]
  rfl

end Queue

namespace Scheduler

/-- Two ends of a pass that agree; a grant is that of the last message. -/
inductive Matches (s : Scheduler) : Try → Relay.Scheduler.Try → Prop
  | again (s' : Scheduler) (sent : s'.sent = s.sent) : Matches s (.again s') (.again s'.ring)
  | stop (s' : Scheduler) (sent : s'.sent = s.sent) : Matches s (.stop s') (.stop s'.ring)
  | grant (s' : Scheduler) (r : Request) (g : Granted) (sent : s'.sent = s.sent ++ [(r, none)])
      (size : g.size = r.size) (tailnet : g.tailnet = r.tailnet) :
      Matches s (.grant s') (.grant g s'.ring)

section Pass

variable {s : Scheduler} {t : TailnetQueue} {now : ℤ}

theorem ring_group (s : Scheduler) (i : GroupID) : s.ring.group i = (s.groups i).ring := by
  cases i <;> rfl

theorem put_ring (s : Scheduler) (g : GroupQueue) : (s.put g).ring = s.ring.put g.ring := by
  obtain ⟨groups, next⟩ := s
  cases next <;> rfl

theorem switch_ring (s : Scheduler) : s.switch.ring = s.ring.switch := rfl

theorem reset_ring (g : GroupQueue) : ({ g with deficit := 0, credit := false } : GroupQueue).ring =
    { g.ring with deficit := 0, credit := false } := rfl

theorem matches_again {s s' : Scheduler} {x : Relay.Scheduler} (sent : s'.sent = s.sent)
    (h : s'.ring = x) : Matches s (.again s') (.again x) := h ▸ .again s' sent

theorem matches_stop {s s' : Scheduler} {x : Relay.Scheduler} (sent : s'.sent = s.sent)
    (h : s'.ring = x) : Matches s (.stop s') (.stop x) := h ▸ .stop s' sent

theorem any_ring (g : GroupQueue) : (g.ring.tailnets.any fun t => t.requests ≠ []) =
    g.tailnets.any fun t => t.requests ≠ [] := by
  rw [Bool.eq_iff_iff]
  simp [GroupQueue.ring, TailnetQueue.ring, List.any_eq_true]

theorem idle_matches (h : (s.groups s.next).next < (s.groups s.next).tailnets.length)
    (hdeficit : 0 ≤ (s.groups s.next).deficit) (t : TailnetQueue) (now : ℤ) :
    Matches s (s.idle now t)
      (s.ring.idle now t.ring ((s.groups s.next).rest.map TailnetQueue.ring)) := by
  have hcurrent : s.ring.current = (s.groups s.next).ring := ring_group s s.next
  have hwaits : ((s.groups s.next).ring.credit = true ∧ 0 < (s.groups s.next).ring.deficit ∧
      now - t.ring.idleSince.getD now < s.ring.grace) = ((s.groups s.next).credit = true ∧
      0 < (s.groups s.next).deficit ∧ now - t.idleSince.getD now < s.grace) := by
    have hpositive : 0 < (s.groups s.next).ring.deficit ↔ 0 < (s.groups s.next).deficit := by
      simp only [GroupQueue.ring]
      omega
    rw [hpositive]
    rfl
  have hadvance := advance_ring (g := s.groups s.next)
    { t with idleSince := some (t.idleSince.getD now), deficit := 0, credit := false } h
  have hany := any_ring ((s.groups s.next).set
    { t with idleSince := some (t.idleSince.getD now), deficit := 0, credit := false }).advance
  rw [hadvance] at hany
  unfold idle Relay.Scheduler.idle
  dsimp only
  rw [hcurrent]
  simp only [hwaits]
  split_ifs with hwait hactive hring hring
  · refine matches_stop rfl ?_
    rw [put_ring, set_ring _ h]
    rfl
  · refine matches_again rfl ?_
    rw [put_ring, hadvance]
    rfl
  · exact absurd (hany.trans hactive) hring
  · exact absurd (hany.symm.trans hring) hactive
  · refine matches_again rfl ?_
    rw [switch_ring, put_ring, reset_ring, hadvance]
    rfl

theorem matches_grant {s s' : Scheduler} {x : Relay.Scheduler} {r : Request} {g : Granted}
    (h : s'.ring = x) (sent : s'.sent = s.sent ++ [(r, none)]) (size : g.size = r.size)
    (tailnet : g.tailnet = r.tailnet) : Matches s (.grant s') (.grant g x) :=
  h ▸ .grant s' r g sent size tailnet

/-- The pass over a queue with a request, whose number the ring forgets. -/
theorem offer_matches (h : (s.groups s.next).next < (s.groups s.next).tailnets.length)
    (hdeficit : 0 ≤ (s.groups s.next).deficit) (ht : t.Good) {r : Request} {rest : List Request}
    (hr : t.requests = r :: rest) (now : ℤ) :
    Matches s (s.offer now t r)
      (s.ring.offer now t.ring ((s.groups s.next).rest.map TailnetQueue.ring) r.size) := by
  have hcurrent : s.ring.current = (s.groups s.next).ring := ring_group s s.next
  have hgc := group_credited_ring hdeficit
  have htc := credited_ring ht.deficit.1
  have hug := ht.requests r (by simp [hr])
  -- From here on only the credited group and queue are looked at.
  obtain ⟨g, hg⟩ : ∃ g, g = (s.groups s.next).credited := ⟨_, rfl⟩
  obtain ⟨u, hu⟩ : ∃ u, u = t.credited := ⟨_, rfl⟩
  have hgnext : g.next < g.tailnets.length := by
    rw [hg, GroupQueue.credited_eq]
    exact h
  have hrest : (s.groups s.next).rest = g.rest := by
    rw [hg, GroupQueue.credited_eq]
    rfl
  have hid : u.id = r.tailnet := by
    rw [hu, TailnetQueue.credited_eq]
    exact hug.1.symm
  unfold offer Relay.Scheduler.offer
  dsimp only
  rw [hcurrent, ← hgc, ← htc, ← hg, ← hu, hrest]
  have hg0 : 0 ≤ g.deficit := by
    rw [hg, GroupQueue.credited_eq]
    exact credited_nonneg hdeficit
  have hu0 : 0 ≤ u.deficit := by
    rw [hu, TailnetQueue.credited_eq]
    exact credited_nonneg ht.deficit.1
  have hgn : (g.ring.deficit < r.size) = (g.deficit < r.size) := by
    refine propext ?_
    simp only [GroupQueue.ring]
    omega
  have hun : (u.ring.deficit < r.size) = (u.deficit < r.size) := by
    refine propext ?_
    simp only [TailnetQueue.ring]
    omega
  have hgb : g.ring.bucket = g.bucket := rfl
  have hub : u.ring.bucket = u.bucket := rfl
  have hb : s.ring.budget = s.budget := rfl
  simp only [hgn, hun, hgb, hub, hb]
  split_ifs with hg₁ hu₁ hg₂ hu₂ hb₂
  · refine matches_again rfl ?_
    rw [switch_ring, put_ring]
    have hset := set_ring u hgnext
    exact congrArg (fun x => (s.ring.put { x with credit := false }).switch) hset
  · refine matches_again rfl ?_
    rw [put_ring, advance_ring _ hgnext]
    rfl
  · refine matches_again rfl ?_
    rw [switch_ring, put_ring, advance_ring]
    · rfl
    · exact hgnext
  · refine matches_again rfl ?_
    rw [switch_ring, put_ring, advance_ring]
    · rfl
    · exact hgnext
  · refine matches_stop rfl ?_
    rw [put_ring, set_ring]
    · rfl
    · exact hgnext
  · -- Less the size of the request, the deficits stay natural numbers.
    have hgd : (g.deficit - r.size).toNat = g.ring.deficit - r.size := by
      simp only [GroupQueue.ring]
      omega
    have hud : (u.deficit - r.size).toNat = u.ring.deficit - r.size := by
      simp only [TailnetQueue.ring]
      omega
    have hbytes : (u.queuedBytes - r.size).toNat = u.ring.queuedBytes - r.size := by
      simp only [TailnetQueue.ring]
      omega
    refine matches_grant ?_ rfl rfl hid
    change (Scheduler.put _ _).ring.setBudget _ = _
    rw [put_ring, set_ring]
    · simp only [GroupQueue.ring, TailnetQueue.ring, List.map_tail] at hgd hud hbytes ⊢
      rw [hgd, hud, hbytes]
      rfl
    · exact hgnext

theorem Matches.congr {s s₁ : Scheduler} {a : Try} {b : Relay.Scheduler.Try} (h : Matches s₁ a b)
    (hsent : s₁.sent = s.sent) : Matches s a b := by
  cases h with
  | again s' sent => exact .again s' (sent.trans hsent)
  | stop s' sent => exact .stop s' (sent.trans hsent)
  | grant s' r g sent size tailnet => exact .grant s' r g (hsent ▸ sent) size tailnet

/-- A pass with the cursors is a pass over the rings. -/
theorem attempt_matches (hg : ∀ i, (s.groups i).Good) (now : ℤ) :
    Matches s (s.attempt now) (s.ring.attempt now) := by
  have hnext := hg s.next
  have hcurrent : s.ring.current = (s.groups s.next).ring := ring_group s s.next
  unfold attempt Relay.Scheduler.attempt
  dsimp only
  rw [hcurrent]
  rcases hnext.cursor with hlt | ⟨hnil, -⟩
  · obtain ⟨t, ht⟩ : ∃ t, (s.groups s.next).tailnets[(s.groups s.next).next]? = some t :=
      ⟨_, List.getElem?_eq_getElem hlt⟩
    have htg := hnext.queues t (List.mem_of_getElem? ht)
    have hempty : ¬ (s.groups s.next).tailnets.isEmpty = true := by
      rw [List.isEmpty_iff]
      intro hnil
      simp [hnil] at hlt
    have hgd : ((s.groups s.next).ring.credit = true ∧ (s.groups s.next).ring.deficit = 0) =
        ((s.groups s.next).credit = true ∧ (s.groups s.next).deficit = 0) := by
      have := hnext.deficit.1
      refine propext (and_congr_right fun _ => ?_)
      simp only [GroupQueue.ring]
      omega
    have htd : (t.ring.credit = true ∧ t.ring.deficit = 0) = (t.credit = true ∧ t.deficit = 0) := by
      have := htg.deficit.1
      refine propext (and_congr_right fun _ => ?_)
      simp only [TailnetQueue.ring]
      omega
    rw [if_neg hempty, ring_tailnets ht]
    simp only [ht, hgd, htd]
    split_ifs
    · refine matches_again rfl ?_
      rw [switch_ring, put_ring, ← ring_tailnets ht]
      rfl
    · refine matches_again rfl ?_
      rw [put_ring, advance_ring _ hlt]
      rfl
    · rw [show s.ring.cancelled = s.cancelled from rfl, ← drop_ring, live_ring]
      have hdrop := htg.drop s.cancelled
      cases hrequests : (t.drop s.cancelled).requests with
      | nil =>
        exact (idle_matches (s := { s with dropped := s.dropped ++ t.gone s.cancelled }) hlt
          hnext.deficit.1 _ now).congr rfl
      | cons r rest =>
        exact (offer_matches (s := { s with dropped := s.dropped ++ t.gone s.cancelled }) hlt
          hnext.deficit.1 hdrop hrequests now).congr rfl
  · have hring : (s.groups s.next).ring.tailnets = [] := by
      simp [GroupQueue.ring, hnil]
    rw [if_pos (by rw [hnil]; rfl), hring]
    exact .again s.switch rfl

/-- `step`, if no context is cancelled in the middle of it. -/
theorem search_ring (now : ℤ) (tries : ℕ) (hs : s.Valid) :
    ∃ (s' : Scheduler) (out : Option Granted) (grants : List Request),
      search now tries (fun _ => []) s = some s' ∧
      Relay.Scheduler.search now tries s.ring = (out, s'.ring) ∧
      s'.sent = s.sent ++ grants.map (fun r => (r, none)) ∧
      grants.map (fun r => (r.tailnet, r.size)) = out.toList.map fun g => (g.tailnet, g.size) := by
  induction tries generalizing s with
  | zero => exact ⟨s, none, [], rfl, rfl, by simp, rfl⟩
  | succ tries ih =>
    obtain ⟨s₁, _, _, hstate, hturned⟩ := attempt_turned hs.groups now
    have hs₁ := hturned.valid hs
    have hmatches := attempt_matches hs.groups now
    unfold search Relay.Scheduler.search
    rw [show s.cancel ((fun _ => []) 0) = s from rfl]
    generalize s.attempt now = a at hstate hmatches ⊢
    generalize s.ring.attempt now = b at hmatches ⊢
    cases hmatches with
    | again s' sent =>
      obtain rfl : s' = s₁ := Option.some.inj hstate
      obtain ⟨s'', out, grants, hsearch, hring, hsent, hgrants⟩ := ih hs₁
      exact ⟨s'', out, grants, hsearch, hring, by rw [hsent, sent], hgrants⟩
    | stop s' sent => exact ⟨s', none, [], rfl, rfl, by simp [sent], rfl⟩
    | grant s' r g sent size tailnet =>
      exact ⟨s', some g, [r], rfl, rfl, sent, by simp [size, tailnet]⟩

end Pass

section Calls

variable {s : Scheduler}

theorem mem_ring {i : GroupID} {u : Relay.TailnetQueue} :
    u ∈ (s.ring.group i).tailnets ↔ ∃ t ∈ (s.groups i).tailnets, t.ring = u := by
  rw [ring_group, GroupQueue.ring, List.mem_map]
  simp only [List.mem_rotate]

theorem Valid.apart (hs : s.Valid) {i j : GroupID} {t u : TailnetQueue}
    (ht : t ∈ (s.groups i).tailnets) (hu : u ∈ (s.groups j).tailnets) (hid : t.id = u.id) : i = j := by
  have hdistinct := hs.distinct
  rw [queues, queuesOf, List.map_append, List.nodup_append] at hdistinct
  obtain ⟨-, -, hne⟩ := hdistinct
  cases i <;> cases j
  · rfl
  · exact absurd hid (hne _ (List.mem_map_of_mem ht) _ (List.mem_map_of_mem hu))
  · exact absurd hid.symm (hne _ (List.mem_map_of_mem hu) _ (List.mem_map_of_mem ht))
  · rfl

theorem Valid.group_nodup (hs : s.Valid) (i : GroupID) : ((s.groups i).tailnets.map (·.id)).Nodup := by
  have hdistinct := hs.distinct
  rw [queues, queuesOf, List.map_append, List.nodup_append] at hdistinct
  cases i
  · exact hdistinct.1
  · exact hdistinct.2.1

theorem Valid.ring_distinct (hs : s.Valid) : s.ring.Distinct where
  nodup i := by
    rw [ring_group, GroupQueue.ring, List.map_map, show (·.id) ∘ TailnetQueue.ring =
      TailnetQueue.id from rfl, List.map_rotate]
    exact List.nodup_rotate.mpr (hs.group_nodup i)
  apart ht hu hid := by
    obtain ⟨t, ht', rfl⟩ := mem_ring.mp ht
    obtain ⟨u, hu', rfl⟩ := mem_ring.mp hu
    exact hs.apart ht' hu' hid

theorem Valid.ring_find (hs : s.Valid) {i : GroupID} {t : TailnetQueue}
    (ht : t ∈ (s.groups i).tailnets) : s.ring.find t.id = some (i, t.ring) :=
  hs.ring_distinct.find (mem_ring.mpr ⟨t, ht, rfl⟩)

theorem ring_find_none {id : String} (h : ∀ t ∈ s.queues, t.id ≠ id) : s.ring.find id = none := by
  cases hfind : s.ring.find id with
  | none => rfl
  | some x =>
    obtain ⟨hmem, hid⟩ := Relay.Scheduler.find_some hfind
    obtain ⟨t, ht, hring⟩ := mem_ring.mp hmem
    rw [← hring] at hid
    exact absurd hid (h t (mem_queues.mpr ⟨x.1, ht⟩))

theorem Valid.previous_ring (hs : s.Valid) (id : String) :
    (s.ring.find id).map (·.2) = (s.previous.get? id).map TailnetQueue.ring := by
  obtain ⟨hkeyed, hvalues⟩ := hs.previous
  cases hget : s.previous.get? id with
  | some t =>
    have hmem : t ∈ s.previous.values :=
      List.mem_map.mpr ⟨(id, t), Table.get?_eq_some_iff.mp hget, rfl⟩
    obtain ⟨i, hi⟩ := mem_queues.mp (hvalues.subset hmem)
    obtain rfl := hkeyed id t hget
    rw [hs.ring_find hi]
    rfl
  | none =>
    rw [ring_find_none]
    · rfl
    · rintro t ht rfl
      obtain ⟨x, hx, rfl⟩ := List.mem_map.mp (hvalues.symm.subset ht)
      have hget' := Table.get?_eq_some_iff.mpr hx
      rw [hkeyed _ _ hget', hget'] at hget
      cases hget

theorem Valid.requeue_ring (hs : s.Valid) (rule : TailnetLimit) :
    (Scheduler.requeued s.previous rule).ring = s.ring.requeue rule := by
  have hfind := hs.previous_ring rule.tailnetID
  unfold Scheduler.requeued Relay.Scheduler.requeue
  rw [hfind]
  cases s.previous.get? rule.tailnetID <;> rfl

/-- The loop over the rules puts each queue at the end of its group. -/
theorem foldl_requeue (rules : List TailnetLimit) (m : Table String TailnetQueue)
    (groups : GroupID → GroupQueue) (hnodup : (rules.map (·.tailnetID)).Nodup) (i : GroupID) :
    (rules.foldl requeue (m, groups)).2 i = { groups i with
      tailnets := (groups i).tailnets ++ (rules.filter (·.groupID = i)).map (requeued m) } := by
  induction rules generalizing m groups with
  | nil => simp
  | cons rule rules ih =>
    rw [List.map_cons, List.nodup_cons] at hnodup
    have hlater : ∀ rule' ∈ rules, requeued (m.erase rule.tailnetID) rule' = requeued m rule' := by
      intro rule' hrule'
      have hne : rule'.tailnetID ≠ rule.tailnetID := fun heq =>
        hnodup.1 (heq ▸ List.mem_map_of_mem hrule')
      unfold requeued
      rw [Table.get?_erase_ne _ hne]
    have hmap : (rules.filter (·.groupID = i)).map (requeued (m.erase rule.tailnetID)) =
        (rules.filter (·.groupID = i)).map (requeued m) :=
      List.map_congr_left fun rule' hrule' => hlater rule' (List.mem_filter.mp hrule').1
    rw [List.foldl_cons, requeue, ih _ _ hnodup.2, hmap]
    by_cases hi : rule.groupID = i
    · subst hi
      simp
    · simp [hi, Function.update_of_ne (Ne.symm hi)]

theorem Valid.update_ring (hs : s.Valid) (L : Limits) : (s.update L).ring = s.ring.update L := by
  have hgroup : ∀ i, ((s.update L).groups i) = { s.emptied L i with
      tailnets := (L.tailnets.filter (·.groupID = i)).map (Scheduler.requeued s.previous) } := by
    intro i
    have hfold := foldl_requeue L.tailnets s.previous (s.emptied L) L.nodup i
    rw [show (s.emptied L i).tailnets = [] by cases i <;> rfl, List.nil_append] at hfold
    exact hfold
  have hqueues : ∀ i, ((L.tailnets.filter (·.groupID = i)).map (Scheduler.requeued s.previous)).map
      TailnetQueue.ring = (L.tailnets.filter (·.groupID = i)).map s.ring.requeue := by
    intro i
    rw [List.map_map, show TailnetQueue.ring ∘ Scheduler.requeued s.previous = s.ring.requeue from
      funext hs.requeue_ring]
  unfold Scheduler.ring Relay.Scheduler.update
  rw [hgroup, hgroup]
  simp only [GroupQueue.ring, emptied, List.rotate_zero, hqueues]
  rfl

theorem set_eq_map {ts : List TailnetQueue} {k : ℕ} {q : TailnetQueue}
    (hnodup : (ts.map (·.id)).Nodup) (hq : ts[k]? = some q) (f : TailnetQueue → TailnetQueue) :
    ts.set k (f q) = ts.map fun t => if t.id = q.id then f t else t := by
  obtain ⟨hk, rfl⟩ := List.getElem?_eq_some_iff.mp hq
  refine List.ext_getElem (by simp) fun j hj hj' => ?_
  rw [List.getElem_set, List.getElem_map]
  rw [List.length_set] at hj
  by_cases hjk : k = j
  · subst hjk
    simp
  · have hne : ¬ ts[j].id = ts[k].id := by
      intro heq
      have hids : (ts.map (·.id)).get ⟨j, by simpa using hj⟩ =
          (ts.map (·.id)).get ⟨k, by simpa using hk⟩ := by
        simp [heq]
      exact hjk (Fin.mk.inj (hnodup.get_inj_iff.mp hids)).symm
    simp [hjk, hne]

theorem Valid.queued_nonneg (hs : s.Valid) {t : TailnetQueue} (ht : t ∈ s.queues) :
    0 ≤ t.queuedBytes := by
  rw [(hs.queue ht).bytes]
  exact Int.natCast_nonneg _

theorem Valid.enqueue_ring (hs : s.Valid) {i : GroupID} {k : ℕ} {q : TailnetQueue}
    (hq : (s.groups i).tailnets[k]? = some q) (r : Request) :
    (s.enqueue i k q r).ring = s.ring.enqueue i q.id ⟨r.ctx, r.size⟩ := by
  have hgroup : ({ s.groups i with tailnets := (s.groups i).tailnets.set k (q.enqueue r) } :
      GroupQueue).ring = { (s.groups i).ring with
        tailnets := (s.groups i).ring.tailnets.map fun t =>
          if t.id = q.id then t.enqueue ⟨r.ctx, r.size⟩ else t } := by
    simp only [GroupQueue.ring, Relay.GroupQueue.mk.injEq, true_and]
    rw [set_eq_map (hs.group_nodup i) hq (·.enqueue r), ← List.map_rotate, List.map_map, List.map_map]
    refine List.map_congr_left fun t ht => ?_
    have ht' := hs.queued_nonneg (mem_queues.mpr ⟨i, List.mem_rotate.mp ht⟩)
    simp only [Function.comp_apply]
    rw [show t.ring.id = t.id from rfl]
    split_ifs
    · simp only [TailnetQueue.ring, TailnetQueue.enqueue, Relay.TailnetQueue.enqueue, List.map_append,
        Relay.TailnetQueue.mk.injEq, true_and, and_true]
      exact ⟨rfl, by omega⟩
    · rfl
  have hset : (s.enqueue i k q r).ring = s.ring.setGroup i ({ s.groups i with
      tailnets := (s.groups i).tailnets.set k (q.enqueue r) } : GroupQueue).ring := by
    cases i <;> rfl
  rw [hset, hgroup, Relay.Scheduler.enqueue, ring_group]

theorem group_find_none {g : GroupQueue} {id : String} (h : g.find id = none) :
    ∀ t ∈ g.tailnets, t.id ≠ id := by
  intro t ht hid
  have hlt : g.tailnets.findIdx (·.id = id) < g.tailnets.length :=
    List.findIdx_lt_length.mpr ⟨t, ht, by simpa using hid⟩
  rw [GroupQueue.find, List.getElem?_eq_getElem hlt] at h
  cases h

theorem find_none {id : String} (h : s.find id = none) : ∀ t ∈ s.queues, t.id ≠ id := by
  unfold find at h
  split at h
  · cases h
  · next hshared =>
    have howner := Option.map_eq_none_iff.mp h
    intro t ht
    obtain ⟨i, hi⟩ := mem_queues.mp ht
    cases i
    · exact group_find_none howner t hi
    · exact group_find_none hshared t hi

/-- `wait` reads the same queue, and refuses the same requests with the same errors. -/
theorem Valid.wait_ring (hs : s.Valid) (ctx : ℕ) (id : String) (size : ℤ) :
    (s.wait ctx id size).map ring = s.ring.wait ctx id size := by
  unfold wait Relay.Scheduler.wait
  by_cases hsize : 0 ≤ size ∧ size ≤ 65536
  swap
  · simp only [require, if_neg hsize]
    rfl
  simp only [require, if_pos hsize]
  cases hfind : s.find id with
  | none =>
    rw [ring_find_none (find_none hfind)]
    rfl
  | some x =>
    obtain ⟨i, k, q⟩ := x
    obtain ⟨hq, rfl⟩ := find_some hfind
    have hmem := List.mem_of_getElem? hq
    have hbytes := hs.queued_nonneg (mem_queues.mpr ⟨i, hmem⟩)
    have hroom : (q.ring.requests.length < 256 ∧ q.ring.queuedBytes + size.toNat ≤ tailnetQueueBytes) ↔
        q.requests.length < 256 ∧ q.queuedBytes + size ≤ tailnetQueueBytes := by
      simp only [TailnetQueue.ring, List.length_map]
      omega
    rw [hs.ring_find hmem]
    change ((require (q.requests.length < 256 ∧ q.queuedBytes + size ≤ tailnetQueueBytes)
        "UniDERP tailnet queue unavailable").bind fun _ =>
          .ok (s.enqueue i k q ⟨s.made, q.id, ctx, size.toNat⟩)).map ring =
      (require (q.ring.requests.length < 256 ∧ q.ring.queuedBytes + size.toNat ≤ tailnetQueueBytes)
        "UniDERP tailnet queue unavailable").bind fun _ =>
          .ok (s.ring.enqueue i q.id ⟨ctx, size.toNat⟩)
    unfold require
    by_cases hok : q.requests.length < 256 ∧ q.queuedBytes + size ≤ tailnetQueueBytes
    · rw [if_pos hok, if_pos (hroom.mpr hok)]
      exact congrArg Except.ok (hs.enqueue_ring hq _)
    · rw [if_neg hok, if_neg (hroom.not.mpr hok)]
      rfl

theorem new_ring (L : Limits) : (new L).ring = Relay.Scheduler.new L := by
  rw [new_eq_update, empty_valid.update_ring]
  rfl

end Calls

def Call.ring : Call → Relay.Scheduler.Call
  | .update L => .update L
  | .wait ctx id size => .wait ctx id size
  | .cancel ctx => .cancel ctx
  | .step now _ => .step now

def Call.Quiet : Call → Prop
  | .step _ ctxs => ctxs = fun _ => []
  | _ => True

def Call.clock (time : ℤ) : Call → ℤ
  | .step now _ => now
  | _ => time

/-- The requests that were let through: their tailnets and their bytes. -/
def granted (s : Scheduler) : List (String × ℕ) :=
  s.sent.filterMap fun x => if x.2 = none then some (x.1.tailnet, x.1.size) else none

theorem granted_failed (failed : List Request) (e : String) :
    (failed.map fun r => (r, some e)).filterMap (fun x : Request × Option String =>
      if x.2 = none then some (x.1.tailnet, x.1.size) else none) = [] := by
  simp

theorem granted_sent (grants : List Request) :
    (grants.map fun r => (r, none)).filterMap (fun x : Request × Option String =>
      if x.2 = none then some (x.1.tailnet, x.1.size) else none) =
      grants.map fun r => (r.tailnet, r.size) := by
  simp [List.filterMap_map]

/-- One call: the ring lets through what the code lets through. -/
theorem act_ring {s s' : Scheduler} {c : Call} (hs : s.Valid) (h : Step s c s') (hquiet : c.Quiet)
    (time : ℤ) : ∃ grant, Relay.Scheduler.act c.ring ⟨s.ring, time⟩ = (grant, ⟨s'.ring, c.clock time⟩) ∧
      s'.granted = s.granted ++ grant.toList.map fun g => (g.tailnet, g.size) := by
  unfold Step at h
  cases c with
  | update L =>
    cases h
    obtain ⟨failed, hsent, -⟩ := update_sent hs L
    refine ⟨none, ?_, ?_⟩
    · rw [hs.update_ring]
      rfl
    · rw [granted, hsent, List.filterMap_append, granted_failed]
      rfl
  | wait ctx id size =>
    cases h
    have hwait := hs.wait_ring ctx id size
    refine ⟨none, ?_, ?_⟩
    · simp only [Call.ring, Relay.Scheduler.act, ← hwait]
      cases s.wait ctx id size <;> rfl
    · cases hok : s.wait ctx id size with
      | error e => simp [Except.toOption]
      | ok s₁ =>
        obtain ⟨i, k, q, r, -, -, -, rfl, -⟩ := wait_eq_ok hok
        simp [Except.toOption, granted, enqueue]
  | cancel ctx =>
    cases h
    exact ⟨none, rfl, by simp [granted, cancel]⟩
  | step now ctxs =>
    obtain rfl : ctxs = fun _ => [] := hquiet
    obtain ⟨s₁, out, grants, hsearch, hring, hsent, hgrants⟩ := search_ring now 512 hs
    obtain rfl : s₁ = s' := Option.some.inj (hsearch.symm.trans h)
    refine ⟨out, ?_, ?_⟩
    · simp only [Call.ring, Relay.Scheduler.act, Relay.Scheduler.step, hring]
      rfl
    · rw [granted, hsent, List.filterMap_append, granted_sent, hgrants]
      rfl

def Run.Clocked (r : Run) (time : ℕ → ℤ) : Prop :=
  ∀ i < r.len, (r.label i).ring.due (time i) = true ∧ time (i + 1) = (r.label i).clock (time i)

/-- A run of the code in which no context is cancelled in the middle of a step is a run of the rings,
and what the rings grant is what the code sends. -/
theorem Run.rings (r : Run) {time : ℕ → ℤ} (hclock : r.Clocked time)
    (hquiet : ∀ i < r.len, (r.label i).Quiet) :
    ∃ r' : Relay.Scheduler.Run, r'.len = r.len ∧
      (∀ i ≤ r.len, r'.state i = ⟨(r.state i).ring, time i⟩) ∧
      ∀ i < r.len, (r'.label i).call = (r.label i).ring ∧ (r.state (i + 1)).granted =
        (r.state i).granted ++ (r'.label i).grant.toList.map fun g => (g.tailnet, g.size) := by
  let call i : Relay.Scheduler.Event := ⟨(r.label i).ring,
    (Relay.Scheduler.act (r.label i).ring ⟨(r.state i).ring, time i⟩).1⟩
  refine ⟨⟨r.len, fun i => ⟨(r.state i).ring, time i⟩, call, ?_, ?_⟩, rfl, fun i _ => rfl, ?_⟩
  · obtain ⟨L, hstart⟩ := r.start
    exact ⟨L, time 0, by rw [hstart, new_ring]⟩
  · intro i hi
    obtain ⟨hdue, hnow⟩ := hclock i hi
    obtain ⟨grant, hact, -⟩ := act_ring (r.valid hi.le) (r.next i hi) (hquiet i hi) (time i)
    refine ⟨hdue, ?_⟩
    simp only [call, hact, hnow]
  · intro i hi
    obtain ⟨grant, hact, hgranted⟩ := act_ring (r.valid hi.le) (r.next i hi) (hquiet i hi) (time i)
    refine ⟨rfl, ?_⟩
    simp only [call, hact, hgranted]

end Scheduler

end UniDERP.Relay.Requests
