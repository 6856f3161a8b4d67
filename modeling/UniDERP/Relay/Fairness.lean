import UniDERP.Library.DeficitRoundRobin
import UniDERP.Relay.Scheduler

namespace UniDERP.Relay

def TailnetQueue.share (t : TailnetQueue) : Share String := ⟨t.id, t.deficit, t.credit⟩

def GroupQueue.share (i : GroupID) (g : GroupQueue) : Share GroupID := ⟨i, g.deficit, g.credit⟩

def TailnetQueue.holds (cancelled : List ℕ) (t : TailnetQueue) : Bool :=
  t.requests.any (·.ctx ∉ cancelled)

def Limits.noCeilings (L : Limits) : Bool :=
  L.sharedMax = 0 && L.tailnets.all (·.maxBytesPerSec = 0)

def Limits.tailnetWeight (L : Limits) (id : String) : ℕ :=
  ((L.tailnets.find? (·.tailnetID = id)).map (·.weight)).getD 0

theorem Limits.tailnetWeight_eq (L : Limits) {rule : TailnetLimit} (h : rule ∈ L.tailnets) :
    L.tailnetWeight rule.tailnetID = rule.weight := by
  unfold tailnetWeight
  cases hfind : L.tailnets.find? (·.tailnetID = rule.tailnetID) with
  | none => simpa using List.find?_eq_none.mp hfind rule h
  | some found =>
    have hid : found.tailnetID = rule.tailnetID := by simpa using List.find?_some hfind
    have hsame := List.inj_on_of_nodup_map L.nodup (List.mem_of_find?_eq_some hfind) h hid
    rw [hsame, Option.map_some, Option.getD_some]

theorem TailnetQueue.holds_iff_live {cancelled : List ℕ} {t : TailnetQueue} :
    t.holds cancelled ↔ t.live cancelled ≠ [] := by
  simp [holds, live, List.dropWhile_eq_nil_iff]

namespace Scheduler

def groupRing (s : Scheduler) : List (Share GroupID) :=
  [s.current.share s.next, (s.group s.next.other).share s.next.other]

def tailnetRing (s : Scheduler) (i : GroupID) : List (Share String) :=
  (s.group i).tailnets.map TailnetQueue.share

def groupHolds (s : Scheduler) (i : GroupID) : Bool :=
  (s.group i).tailnets.any (·.holds s.cancelled)

def tailnetHolds (s : Scheduler) (id : String) : Bool :=
  (s.find id).any (·.2.holds s.cancelled)

variable {now : ℤ} {s s' : Scheduler} {i : GroupID} {g : GroupQueue} {L : Limits}

/-- What holds of a scheduler while limits without ceilings are in force. -/
structure Steady (L : Limits) (s : Scheduler) : Prop where
  distinct : s.Distinct
  weight : ∀ i, (s.group i).weight = L.weight i
  unlimited : ∀ i, (s.group i).bucket.rate = 0
  /-- A group without tailnets never gets a turn of its own. -/
  vacant : ∀ i, (s.group i).tailnets = [] → (s.group i).credit = false ∧ (s.group i).deficit = 0
  queue : ∀ i, ∀ t ∈ (s.group i).tailnets, t.bucket.rate = 0 ∧ (∀ r ∈ t.requests, r.size ≤ 65536) ∧
    ∃ rule ∈ L.tailnets, rule.tailnetID = t.id ∧ rule.groupID = i ∧ rule.weight = t.weight
  rule : ∀ rule ∈ L.tailnets, ∃ t ∈ (s.group rule.groupID).tailnets, t.id = rule.tailnetID

theorem put_self : s.put s.current = s := by
  obtain ⟨owner, shared, next, budget, cancelled⟩ := s
  cases next <;> rfl

theorem groupRing_put : (s.put g).groupRing =
    [g.share s.next, (s.group s.next.other).share s.next.other] := by
  rw [groupRing, put_current, put_next, put_group, if_neg other_ne]

theorem groupRing_switch : (s.put g).switch.groupRing =
    [(s.group s.next.other).share s.next.other, g.share s.next] := by
  rw [groupRing, current, switch_next, put_next, switch_group, switch_group, put_group, put_group,
    other_other, if_neg other_ne, if_pos rfl]

@[simp] theorem groupRing_setBudget {b : TokenBucket} : (s.setBudget b).groupRing = s.groupRing := by
  rw [groupRing, groupRing, current, current, setBudget_group, setBudget_group]
  rfl

theorem share_credited {w : GroupID → ℕ} (hw : g.weight = w i) :
    g.credited.share i = (g.share i).credited quantum w := by
  unfold GroupQueue.credited Share.credited GroupQueue.share
  split_ifs with h
  · rfl
  · simp [hw]

theorem share_offered {w : String → ℕ} {t : TailnetQueue} (cancelled : List ℕ)
    (hw : t.weight = w t.id) : (t.offered cancelled).share = t.share.credited quantum w := by
  have hcredit : (t.drop cancelled).credit = t.credit := rfl
  unfold TailnetQueue.offered TailnetQueue.credited Share.credited TailnetQueue.share
  rw [hcredit]
  split_ifs with h
  · rfl
  · simp [hw, TailnetQueue.drop]

theorem share_asked {t : TailnetQueue} : (t.asked now).share = t.share := rfl

theorem allows_of_rate {b : TokenBucket} (h : b.rate = 0) (n : ℕ) : allows b now n := by
  simp [allows, TokenBucket.available, h]

theorem Steady.size_le (h : s.Steady L) {t : TailnetQueue} {rest : List TailnetQueue} {r : Request}
    {live : List Request} (hvisits : s.Visits t rest (r :: live)) : r.size ≤ 65536 :=
  (h.queue _ t hvisits.mem).2.1 r hvisits.head_mem

theorem Visits.not_groupHolds {t : TailnetQueue} {rest : List TailnetQueue} (h : s.Visits t rest [])
    (hrest : ∀ q ∈ rest, q.requests = []) : ¬ s.groupHolds s.next := by
  have ht : ¬ t.holds s.cancelled := by simp [TailnetQueue.holds_iff_live, h.live]
  have hrest' : ∀ q ∈ rest, ¬ q.holds s.cancelled := fun q hq => by
    simp [TailnetQueue.holds, hrest q hq]
  rw [groupHolds, show (s.group s.next).tailnets = t :: rest from h.ring]
  simpa [ht] using hrest'

theorem bytesOf_some {ι : Type} [DecidableEq ι] {sends : ι → Granted → Bool} {g : Granted} {x : ι}
    (h : ∀ y, sends y g ↔ y = x) : (fun y => bytesOf (sends y) (some g)) = Pi.single x g.size := by
  funext y
  unfold bytesOf
  by_cases hy : y = x
  · rw [hy, Pi.single_eq_same, Option.filter_some_pos ((h x).mpr rfl)]
    rfl
  · have hsends : sends y g = false := Bool.eq_false_iff.mpr fun hs => hy ((h y).mp hs)
    rw [Pi.single_eq_of_ne hy, Option.filter_some_neg hsends]
    rfl

/-- Every pass is some turns of the ring of the groups. -/
theorem Turn.groupMoves {t : Try} (h : Turn now s t) (hs : s.Steady L) :
    Share.Moves quantum 65535 L.weight (s.groupHolds ·) s.groupRing
      (fun x => bytesOf (·.group = x) t.granted) t.state.groupRing := by
  have hcredited : s.current.credited.share s.next =
      (s.current.share s.next).credited quantum L.weight := share_credited (hs.weight s.next)
  -- The current group gets its quantum, and its turn may end there.
  have hcredit (rest : List (Share GroupID)) :
      Share.Moves quantum 65535 L.weight (s.groupHolds ·) (s.current.share s.next :: rest) 0
        (s.current.credited.share s.next :: rest) := by
    rw [hcredited]
    exact .credit _ _
  cases h with
  | empty ring =>
    have hvacant := hs.vacant s.next ring
    rw [Try.state, ← put_self (s := s), groupRing_switch, put_self]
    refine .skip (x := s.current.share s.next) ?_ rfl hvacant.1 (hvacant.2.le.trans (Nat.zero_le _))
    show ¬ s.groupHolds s.next
    simp [groupHolds, show (s.group s.next).tailnets = [] from ring]
  | groupSpent ring credit spent =>
    rw [Try.state, groupRing_switch]
    exact .pass (x := s.current.share s.next) credit (spent.le.trans (Nat.zero_le _))
  | tailnetSpent ring credit spent =>
    rw [Try.state, groupRing_put]
    exact .refl _
  | grace visits credit deficit early =>
    rw [Try.state, groupRing_put]
    exact .refl _
  | idle visits active =>
    rw [Try.state, groupRing_put]
    exact .refl _
  | inactive visits inactive =>
    rw [Try.state, groupRing_switch]
    exact .skip (x := s.current.share s.next) (visits.not_groupHolds inactive) rfl rfl (Nat.zero_le _)
  | groupShort visits short =>
    rw [Try.state, groupRing_switch]
    have hshort := Nat.le_of_lt_succ (short.trans_le (hs.size_le visits))
    exact .credit_pass (x := s.current.share s.next) hcredited hshort
  | tailnetShort visits group short =>
    rw [Try.state, groupRing_put]
    exact hcredit _
  | groupBlocked visits group tailnet blocked =>
    exact absurd (allows_of_rate (hs.unlimited s.next) _) blocked
  | tailnetBlocked visits group tailnet allowed blocked =>
    exact absurd (allows_of_rate (hs.queue s.next _ visits.mem).1 _) blocked
  | budget visits group tailnet allowed blocked =>
    rw [Try.state, groupRing_setBudget, groupRing_put]
    exact hcredit _
  | grant visits group tailnet allowed =>
    rw [Try.state, groupRing_setBudget, groupRing_put, Try.granted,
      bytesOf_some (x := s.next) (by simp [eq_comm])]
    exact .credit_serve (x := s.current.share s.next) hcredited group

theorem tailnetRing_put : (s.put g).tailnetRing s.next = g.tailnets.map TailnetQueue.share := by
  rw [tailnetRing, put_group, if_pos rfl]

@[simp] theorem tailnetRing_switch : s.switch.tailnetRing i = s.tailnetRing i := by
  rw [tailnetRing, tailnetRing, switch_group]

@[simp] theorem tailnetRing_setBudget {b : TokenBucket} :
    (s.setBudget b).tailnetRing i = s.tailnetRing i := by
  rw [tailnetRing, tailnetRing, setBudget_group]

theorem Turn.granted_group {t : Try} (h : Turn now s t) {g : Granted} (hg : t.granted = some g) :
    g.group = s.next := by
  cases h with
  | grant visits group tailnet allowed => exact Option.some.inj hg ▸ rfl
  | _ => cases hg

/-- Every pass is some turns of the ring of the tailnets of a group. -/
theorem Turn.tailnetMoves {t : Try} (h : Turn now s t) (hs : s.Steady L) (i : GroupID) :
    Share.Moves quantum 65535 L.tailnetWeight (s.tailnetHolds ·) (s.tailnetRing i)
      (fun x => bytesOf (fun g => g.group = i && g.tailnet = x) t.granted)
      (t.state.tailnetRing i) := by
  by_cases hi : i = s.next
  · subst hi
    have hring {q : TailnetQueue} {rest : List TailnetQueue} (h : s.current.tailnets = q :: rest) :
        s.tailnetRing s.next = q.share :: rest.map TailnetQueue.share :=
      congrArg (List.map TailnetQueue.share) h
    have hidle {q : TailnetQueue} {rest : List TailnetQueue} (h : s.Visits q rest []) :
        ¬ s.tailnetHolds q.id := by
      rw [tailnetHolds, hs.distinct.find h.mem]
      simp [TailnetQueue.holds_iff_live, h.live]
    have hoffered {q : TailnetQueue} {rest : List TailnetQueue} {live : List Request}
        (h : s.Visits q rest live) :
        (q.offered s.cancelled).share = q.share.credited quantum L.tailnetWeight := by
      obtain ⟨-, -, rule, hrule, hid, -, hweight⟩ := hs.queue s.next q h.mem
      apply share_offered
      rw [← hid, L.tailnetWeight_eq hrule, hweight]
    cases h with
    | empty ring =>
      rw [Try.state, tailnetRing_switch]
      exact .refl _
    | groupSpent ring credit spent =>
      rw [Try.state, tailnetRing_switch, tailnetRing_put]
      exact .refl _
    | tailnetSpent ring credit spent =>
      rw [Try.state, tailnetRing_put, hring ring, List.map_append]
      exact .pass (x := TailnetQueue.share _) credit (spent.le.trans (Nat.zero_le _))
    | grace visits credit deficit early =>
      rw [Try.state, tailnetRing_put, hring visits.ring]
      exact .refl _
    | idle visits active =>
      rw [Try.state, tailnetRing_put, hring visits.ring, List.map_append]
      exact .skip (hidle visits) rfl rfl (Nat.zero_le _)
    | inactive visits inactive =>
      rw [Try.state, tailnetRing_switch, tailnetRing_put, hring visits.ring, List.map_append]
      exact .skip (hidle visits) rfl rfl (Nat.zero_le _)
    | groupShort visits short =>
      rw [Try.state, tailnetRing_switch, tailnetRing_put, hring visits.ring, List.map_cons,
        hoffered visits]
      exact .credit _ _
    | tailnetShort visits group short =>
      rw [Try.state, tailnetRing_put, hring visits.ring, List.map_append]
      exact .credit_pass (hoffered visits) (Nat.le_of_lt_succ (short.trans_le (hs.size_le visits)))
    | groupBlocked visits group tailnet blocked =>
      exact absurd (allows_of_rate (hs.unlimited s.next) _) blocked
    | tailnetBlocked visits group tailnet allowed blocked =>
      exact absurd (allows_of_rate (hs.queue s.next _ visits.mem).1 _) blocked
    | budget visits group tailnet allowed blocked =>
      rw [Try.state, tailnetRing_setBudget, tailnetRing_put, hring visits.ring, List.map_cons,
        share_asked, hoffered visits]
      exact .credit _ _
    | @grant q _ _ _ visits group tailnet allowed =>
      rw [Try.state, tailnetRing_setBudget, tailnetRing_put, hring visits.ring, List.map_cons,
        Try.granted, bytesOf_some (x := q.id) (by simp [eq_comm])]
      exact .credit_serve (hoffered visits) tailnet
  · have hsent : (fun x => bytesOf (fun g => g.group = i && g.tailnet = x) t.granted) = 0 := by
      funext x
      cases hg : t.granted with
      | none => rfl
      | some g =>
        have hne : g.group ≠ i := fun h' => hi (h'.symm.trans (h.granted_group hg))
        rw [bytesOf, Option.filter_some_neg (by simp [hne])]
        rfl
    rw [hsent, tailnetRing, tailnetRing, h.other hi]
    exact .refl _

theorem Steady.replaces {t t' : TailnetQueue} (hs : s.Steady L) (h : s.Replaces t t' s')
    (hweight : t'.weight = t.weight) (hrate : t'.bucket.rate = t.bucket.rate)
    (hrequests : t'.requests ⊆ t.requests) :
    (∀ i, ∀ t ∈ (s'.group i).tailnets, t.bucket.rate = 0 ∧ (∀ r ∈ t.requests, r.size ≤ 65536) ∧
      ∃ rule ∈ L.tailnets, rule.tailnetID = t.id ∧ rule.groupID = i ∧ rule.weight = t.weight) ∧
    ∀ rule ∈ L.tailnets, ∃ t ∈ (s'.group rule.groupID).tailnets, t.id = rule.tailnetID := by
  refine ⟨h.forall hs.queue ?_, fun rule hrule => ?_⟩
  · obtain ⟨hopen, hsmall, hrule⟩ := hs.queue s.next t h.current
    rw [hrate, hweight, h.id]
    exact ⟨hopen, fun r hr => hsmall r (hrequests hr), hrule⟩
  · obtain ⟨u, hu, hid⟩ := hs.rule rule hrule
    exact h.exists hu hid h.id.trans

theorem Turn.vacant {t : Try} (h : Turn now s t) (hs : s.Steady L)
    (hnil : (t.state.group i).tailnets = []) :
    (t.state.group i).credit = false ∧ (t.state.group i).deficit = 0 := by
  by_cases hi : i = s.next
  · subst hi
    cases h with
    | empty ring =>
      rw [Try.state, switch_group]
      exact hs.vacant s.next ring
    | groupSpent ring credit spent => simp [Try.state, put_group, ring] at hnil
    | _ => simp [Try.state, put_group] at hnil
  · rw [h.other hi] at hnil ⊢
    exact hs.vacant i hnil

theorem Turn.steady {t : Try} (h : Turn now s t) (hs : s.Steady L) : t.state.Steady L := by
  have hvacant (i : GroupID) := h.vacant (i := i) hs
  rcases h.passes_or_serves with ⟨-, hpasses⟩ | ⟨g, -, hserves⟩
  · have hrate (i : GroupID) : (t.state.group i).bucket.rate = 0 :=
      (TokenBucket.Charged.rate (m := none) (hpasses.bucket i)).trans (hs.unlimited i)
    have hweight (i : GroupID) := (hpasses.weight i).trans (hs.weight i)
    rcases hpasses.tailnets with hsame | ⟨u, u', hreplaces, hpassed⟩
    · refine ⟨hpasses.distinct hs.distinct, hweight, hrate, hvacant, fun i => ?_, fun rule => ?_⟩
      · rw [hsame]
        exact hs.queue i
      · rw [hsame]
        exact hs.rule rule
    · obtain ⟨hqueue, hrule⟩ := hs.replaces hreplaces hpassed.weight
        (TokenBucket.Charged.rate (m := none) hpassed.bucket) hpassed.requests_subset
      exact ⟨hpasses.distinct hs.distinct, hweight, hrate, hvacant, hqueue, hrule⟩
  · obtain ⟨u, u', hreplaces, -, hsame, hcharged, r, hlive⟩ := hserves.tailnet
    have hrequests : u'.requests ⊆ u.requests := fun x hx =>
      live_subset s.cancelled (hlive ▸ List.mem_cons_of_mem r hx)
    obtain ⟨hqueue, hrule⟩ := hs.replaces hreplaces hsame hcharged.rate hrequests
    exact ⟨hserves.distinct hs.distinct, fun i => (hserves.weight i).trans (hs.weight i),
      fun i => (hserves.bucket i).rate.trans (hs.unlimited i), hvacant, hqueue, hrule⟩

theorem Turn.holds {t : Try} (h : Turn now s t) (hg : t.granted = none) {u : TailnetQueue}
    (hu : u ∈ (s.group i).tailnets) (hholds : u.holds s.cancelled) :
    ∃ v ∈ (t.state.group i).tailnets, v.id = u.id ∧ v.holds t.state.cancelled := by
  rcases h.passes_or_serves with ⟨-, hpasses⟩ | ⟨g, hsome, -⟩
  · rw [hpasses.cancelled]
    rcases hpasses.tailnets with hsame | ⟨v, v', hreplaces, hpassed⟩
    · rw [hsame]
      exact ⟨u, hu, rfl, hholds⟩
    · refine hreplaces.exists (P := fun v => v.id = u.id ∧ v.holds s.cancelled) hu ⟨rfl, hholds⟩ ?_
      rintro ⟨hid, hv⟩
      rw [TailnetQueue.holds_iff_live] at hv ⊢
      rw [hpassed.live]
      exact ⟨hreplaces.id.trans hid, hv⟩
  · rw [hg] at hsome
    cases hsome

/-- A part of the scheduler that is a deficit round robin while `L` is in force. -/
structure View (L : Limits) (ι : Type) [DecidableEq ι] where
  weight : ι → ℕ
  ring : Scheduler → List (Share ι)
  holds : Scheduler → ι → Bool
  sends : ι → Granted → Bool
  turn : ∀ {now s t}, Turn now s t → s.Steady L →
    Share.Moves quantum 65535 weight (holds s ·) (ring s) (fun x => bytesOf (sends x) t.granted)
      (ring t.state)
  keeps : ∀ {now s t}, Turn now s t → s.Steady L → t.granted = none →
    ∀ x, holds s x → holds t.state x
  enqueue : ∀ (s : Scheduler) i id r, ring (s.enqueue i id r) = ring s
  cancel : ∀ (s : Scheduler) ctx, ring (s.cancel ctx) = ring s
  update : ∀ s : Scheduler, Share.Settled quantum 65535 weight (ring (s.update L))
  nodup : ∀ s : Scheduler, s.Steady L → ((ring s).map (·.id)).Nodup

theorem enqueue_group (s : Scheduler) (i : GroupID) (id : String) (r : Request) (j : GroupID) :
    ∃ tailnets, (s.enqueue i id r).group j = { s.group j with tailnets := tailnets } := by
  unfold enqueue
  by_cases hj : j = i
  · rw [hj, group_setGroup]
    exact ⟨_, rfl⟩
  · rw [group_setGroup_of_ne hj]
    exact ⟨_, rfl⟩

/-- The ring of the two groups. -/
def groupView (L : Limits) : View L GroupID where
  weight := L.weight
  ring := groupRing
  holds := groupHolds
  sends x g := g.group = x
  turn h hs := h.groupMoves hs
  keeps {now s t} h hs hg x hx := by
    rw [groupHolds, List.any_eq_true] at hx ⊢
    obtain ⟨u, hu, hholds⟩ := hx
    obtain ⟨v, hv, -, hholds'⟩ := h.holds hg hu hholds
    exact ⟨v, hv, hholds'⟩
  enqueue s i id r := by
    obtain ⟨ts, hts⟩ := enqueue_group s i id r s.next
    obtain ⟨ts', hts'⟩ := enqueue_group s i id r s.next.other
    have hnext : (s.enqueue i id r).next = s.next := setGroup_next
    rw [groupRing, groupRing, current, current, hnext, hts, hts']
    rfl
  cancel s ctx := by
    have hnext : (s.cancel ctx).next = s.next := rfl
    rw [groupRing, groupRing, current, current, hnext, cancel_group, cancel_group]
  update s := by
    have hring : (s.update L).groupRing = [⟨.owner, 0, false⟩, ⟨.shared, 0, false⟩] := rfl
    rw [hring]
    refine ⟨fun x hx => ?_, fun x hx => ?_⟩
    · obtain rfl : x = ⟨.shared, 0, false⟩ := by simpa using hx
      rfl
    · obtain rfl | rfl : x = ⟨.owner, 0, false⟩ ∨ x = ⟨.shared, 0, false⟩ := by simpa using hx
      · exact Nat.zero_le _
      · exact Nat.zero_le _
  nodup s hs := by
    simpa [groupRing, GroupQueue.share] using other_ne.symm

/-- The ring of the tailnets of a group. -/
def tailnetView (L : Limits) (i : GroupID) : View L String where
  weight := L.tailnetWeight
  ring s := s.tailnetRing i
  holds := tailnetHolds
  sends x g := g.group = i && g.tailnet = x
  turn h hs := h.tailnetMoves hs i
  keeps {now s t} h hs hg x hx := by
    obtain ⟨⟨j, u⟩, hfind, hholds⟩ := (Option.any_eq_true _ _).mp hx
    obtain ⟨hu, hid⟩ := find_some hfind
    obtain ⟨v, hv, hid', hholds'⟩ := h.holds hg hu hholds
    rw [tailnetHolds, (h.steady hs).distinct.find_eq_some.mpr ⟨hv, hid'.trans hid⟩]
    exact hholds'
  enqueue s j id r := by
    rw [tailnetRing, tailnetRing, enqueue_tailnets, List.map_map]
    congr 1
    funext t
    show TailnetQueue.share (if _ then _ else _) = _
    split_ifs <;> rfl
  cancel s ctx := by rw [tailnetRing, tailnetRing, cancel_group]
  update s := by
    have hfresh : ∀ x ∈ (s.update L).tailnetRing i, x.deficit = 0 ∧ x.credit = false := by
      intro x hx
      obtain ⟨t, ht, rfl⟩ := List.mem_map.mp hx
      obtain ⟨rule, -, -, rfl⟩ := mem_update.mp ht
      exact ⟨rfl, rfl⟩
    refine ⟨fun x hx => (hfresh x (List.mem_of_mem_tail hx)).2, fun x hx => ?_⟩
    rw [(hfresh x hx).1]
    exact Nat.zero_le _
  nodup s hs := by
    rw [tailnetRing, List.map_map]
    exact hs.distinct.nodup i

def Call.isUpdate : Call → Bool
  | .update _ => true
  | _ => false

def Call.isStep : Call → Bool
  | .step _ => true
  | _ => false

theorem Steady.enqueue (hs : s.Steady L) {id : String} {r : Request} (hr : r.size ≤ 65536) :
    (s.enqueue i id r).Steady L := by
  have hgroup (j : GroupID) := enqueue_group s i id r j
  refine ⟨enqueue_distinct hs.distinct, fun j => ?_, fun j => ?_, fun j hnil => ?_, fun j t ht => ?_,
    fun rule hrule => ?_⟩
  · obtain ⟨ts, hts⟩ := hgroup j
    rw [hts]
    exact hs.weight j
  · obtain ⟨ts, hts⟩ := hgroup j
    rw [hts]
    exact hs.unlimited j
  · obtain ⟨ts, hts⟩ := hgroup j
    rw [enqueue_tailnets, List.map_eq_nil_iff] at hnil
    rw [hts]
    exact hs.vacant j hnil
  · rw [enqueue_tailnets, List.mem_map] at ht
    obtain ⟨u, hu, rfl⟩ := ht
    obtain ⟨hopen, hsmall, hrule⟩ := hs.queue j u hu
    split_ifs
    · refine ⟨hopen, fun x hx => ?_, hrule⟩
      rcases List.mem_append.mp hx with hx | hx
      · exact hsmall x hx
      · rw [List.mem_singleton.mp hx]
        exact hr
    · exact ⟨hopen, hsmall, hrule⟩
  · obtain ⟨t, ht, hid⟩ := hs.rule rule hrule
    rw [enqueue_tailnets]
    exact ⟨_, List.mem_map_of_mem ht, (enqueue_id _ t).trans hid⟩

theorem Steady.cancel (hs : s.Steady L) (ctx : ℕ) : (s.cancel ctx).Steady L where
  distinct := hs.distinct.congr fun i => by rw [cancel_group]
  weight i := by rw [cancel_group, hs.weight]
  unlimited i := by rw [cancel_group, hs.unlimited]
  vacant i := by
    rw [cancel_group]
    exact hs.vacant i
  queue i := by
    rw [cancel_group]
    exact hs.queue i
  rule rule := by
    rw [cancel_group]
    exact hs.rule rule

section View

variable {ι : Type} [DecidableEq ι] (V : View L ι) {c c' : Clocked} {e : Event}

theorem View.step {out : Option Granted} (h : s.step now = (out, s')) (hs : s.Steady L) :
    s'.Steady L ∧ Share.Moves quantum 65535 V.weight (V.holds s ·) (V.ring s)
      (fun x => bytesOf (V.sends x) out) (V.ring s') := by
  have hturns : s'.Steady L ∧ (out = none → ∀ x, V.holds s x → V.holds s' x) ∧
      Share.Moves quantum 65535 V.weight (V.holds s ·) (V.ring s)
        (fun x => bytesOf (V.sends x) out) (V.ring s') := by
    refine step_turns (R := fun out a => a.Steady L ∧ (out = none → ∀ x, V.holds s x → V.holds a x) ∧
      Share.Moves quantum 65535 V.weight (V.holds s ·) (V.ring s)
        (fun x => bytesOf (V.sends x) out) (V.ring a)) h ⟨hs, fun _ _ hx => hx, .refl _⟩ ?_
    rintro a t ⟨ha, hkeeps, hmoves⟩ hturn
    have hholds := hkeeps rfl
    refine ⟨hturn.steady ha, fun hg x hx => V.keeps hturn ha hg x (hholds x hx), ?_⟩
    have htrans := hmoves.trans ((V.turn hturn ha).mono hholds)
    have hzero : (fun x => bytesOf (V.sends x) none) + (fun x => bytesOf (V.sends x) t.granted) =
        fun x => bytesOf (V.sends x) t.granted := zero_add _
    rwa [hzero] at htrans
  exact ⟨hturns.1, hturns.2.2⟩

theorem Change.steady (h : Change c e c') (he : e.call.isUpdate = false)
    (hs : c.scheduler.Steady L) : c'.scheduler.Steady L := by
  cases h with
  | update L' => cases he
  | queued found small => exact hs.enqueue small
  | refused => exact hs
  | cancel ctx => exact hs.cancel ctx
  | step time search => exact ((groupView L).step search hs).1

theorem View.change (h : Change c e c') (he : e.call.isUpdate = false) (hs : c.scheduler.Steady L)
    {busy : ι → Prop} (hbusy : e.call.isStep → ∀ x, busy x → V.holds c.scheduler x) :
    Share.Moves quantum 65535 V.weight busy (V.ring c.scheduler)
      (fun x => bytesOf (V.sends x) e.grant) (V.ring c'.scheduler) := by
  cases h with
  | update L' => cases he
  | queued found small =>
    rw [V.enqueue]
    exact .refl _
  | refused => exact .refl _
  | cancel ctx =>
    rw [V.cancel]
    exact .refl _
  | step time search => exact (V.step search hs).2.mono (hbusy rfl)

end View

/-- `L` is set at `p`, by construction or by an update, and no update follows before `j`. -/
structure Run.InForce (r : Run) (L : Limits) (p j : ℕ) : Prop where
  set : (p = 0 ∧ (r.state 0).scheduler = new L) ∨ ∃ k, p = k + 1 ∧ (r.label k).call = .update L
  kept : ∀ k, p ≤ k → k < j → (r.label k).call.isUpdate = false

theorem update_steady (hfree : L.noCeilings) (hsmall : (s.update L).Small) :
    (s.update L).Steady L := by
  obtain ⟨hshared, hrules⟩ : L.sharedMax = 0 ∧ ∀ rule ∈ L.tailnets, rule.maxBytesPerSec = 0 := by
    simpa [Limits.noCeilings] using hfree
  refine ⟨update_distinct, fun i => ?_, fun i => ?_, fun i _ => ?_, fun i t ht => ?_,
    fun rule hrule => ?_⟩
  · cases i <;> rfl
  · cases i with
    | owner => rfl
    | shared => exact hshared
  · cases i <;> exact ⟨rfl, rfl⟩
  · refine ⟨?_, hsmall i t ht, ?_⟩
    all_goals obtain ⟨rule, hrule, hgroup, rfl⟩ := mem_update.mp ht
    · exact hrules rule hrule
    · exact ⟨rule, hrule, (requeue_id rule).symm, hgroup, rfl⟩
  · exact ⟨s.requeue rule, mem_update.mpr ⟨rule, hrule, rfl, rfl⟩, requeue_id rule⟩

section InForce

variable {r : Run} {p i j : ℕ}

theorem Run.InForce.exists_update (h : r.InForce L p j) (hp : p ≤ r.len) :
    ∃ s : Scheduler, (r.state p).scheduler = s.update L := by
  rcases h.set with ⟨rfl, hnew⟩ | ⟨k, rfl, hcall⟩
  · exact ⟨{}, hnew⟩
  · have hchange := (r.next k hp).change
    generalize r.label k = e at hcall hchange
    generalize r.state (k + 1) = c at hchange
    cases hchange with
    | update L' =>
      obtain rfl : L' = L := Call.update.inj hcall
      exact ⟨_, rfl⟩
    | _ => cases hcall

theorem Run.InForce.steady (h : r.InForce L p j) (hfree : L.noCeilings) (hj : j ≤ r.len) {k : ℕ}
    (hpk : p ≤ k) (hkj : k ≤ j) : (r.state k).scheduler.Steady L := by
  apply r.preserved (P := fun c => c.scheduler.Steady L) hpk
  · have hp := hpk.trans (hkj.trans hj)
    obtain ⟨s, hs⟩ := h.exists_update hp
    have hsmall := Run.small r hp
    rw [hs] at hsmall ⊢
    exact update_steady hfree hsmall
  · intro l hpl hlk hl
    have hlj := hlk.trans_le hkj
    exact (r.next l (hlj.trans_le hj)).change.steady (h.kept l hpl hlj) hl

variable {ι : Type} [DecidableEq ι]

theorem Run.InForce.moves (V : View L ι) (h : r.InForce L p j) (hfree : L.noCeilings)
    (hj : j ≤ r.len) {k : ℕ} (hpi : p ≤ i) (hik : i ≤ k) (hkj : k ≤ j) (busy : ι → Prop)
    (hbusy : ∀ l, i ≤ l → l < k → (r.label l).call.isStep →
      ∀ x, busy x → V.holds (r.state l).scheduler x) :
    Share.Moves quantum 65535 V.weight busy (V.ring (r.state i).scheduler)
      (fun x => r.granted (V.sends x) i k) (V.ring (r.state k).scheduler) := by
  induction k, hik using Nat.le_induction with
  | base =>
    have hzero : (fun x => r.granted (V.sends x) i i) = 0 := funext fun x => by simp [Run.granted]
    rw [hzero]
    exact .refl _
  | succ k hik ih =>
    have hmoves := ih (Nat.le_of_succ_le hkj) fun l hil hlk => hbusy l hil (Nat.lt_succ_of_lt hlk)
    have hpk := hpi.trans hik
    have hchange := V.change (r.next k (Nat.lt_of_lt_of_le hkj hj)).change (h.kept k hpk hkj)
      (h.steady hfree hj hpk (Nat.le_of_succ_le hkj)) (hbusy k hik (Nat.lt_succ_self k))
    have hsum : (fun x => r.granted (V.sends x) i (k + 1)) = (fun x => r.granted (V.sends x) i k) +
        fun x => bytesOf (V.sends x) (r.label k).grant := funext fun x => Run.granted_succ r _ hik
    rw [hsum]
    exact hmoves.trans hchange

/-- While two queues of a view hold requests before every step, what they send is in proportion
to their weights. -/
theorem Run.InForce.fair (V : View L ι) (h : r.InForce L p j) (hfree : L.noCeilings)
    (hj : j ≤ r.len) (hpi : p ≤ i) (hij : i ≤ j) {a b : ι} (hab : a ≠ b)
    (ha : a ∈ (V.ring (r.state i).scheduler).map (·.id))
    (hb : b ∈ (V.ring (r.state i).scheduler).map (·.id))
    (hbusy : ∀ k, i ≤ k → k < j → (r.label k).call.isStep →
      V.holds (r.state k).scheduler a ∧ V.holds (r.state k).scheduler b) :
    |(r.granted (V.sends a) i j * V.weight b - r.granted (V.sends b) i j * V.weight a : ℤ)| ≤
      4800 * V.weight a * V.weight b + 65536 * (V.weight a + V.weight b) := by
  obtain ⟨s, hs⟩ := h.exists_update (hpi.trans (hij.trans hj))
  have hstart := V.update s
  rw [← hs] at hstart
  -- Nothing is known of the queues before the stretch; the ring is settled all the same.
  have hsettled := (h.moves V hfree hj le_rfl hpi hij (fun _ => False)
    fun _ _ _ _ _ hx => hx.elim).settled hstart
  have hmoves := h.moves V hfree hj hpi hij le_rfl (fun x => x = a ∨ x = b) ?_
  · have hfair := hmoves.fair hsettled (V.nodup _ (h.steady hfree hj hpi hij)) hab ha hb
      ⟨.inl rfl, .inr rfl⟩
    refine hfair.trans ?_
    have hle : (quantum * V.weight a * V.weight b + 65535 * (V.weight a + V.weight b) : ℤ) ≤
        4800 * V.weight a * V.weight b + 65536 * (V.weight a + V.weight b) := by
      unfold quantum
      gcongr <;> norm_num
    exact_mod_cast hle
  · intro l hil hlj hstep x hx
    rcases hx with rfl | rfl
    · exact (hbusy l hil hlj hstep).1
    · exact (hbusy l hil hlj hstep).2

/-- While both groups hold requests before every step, what they send is in proportion to their
weights, whatever their tailnets are. -/
theorem Run.InForce.groups_fair (h : r.InForce L p j) (hfree : L.noCeilings) (hj : j ≤ r.len)
    (hpi : p ≤ i) (hij : i ≤ j)
    (hbusy : ∀ k, i ≤ k → k < j → (r.label k).call.isStep →
      (r.state k).scheduler.groupHolds .owner ∧ (r.state k).scheduler.groupHolds .shared) :
    |(r.granted (·.group = .owner) i j * L.sharedWeight -
        r.granted (·.group = .shared) i j * L.ownerWeight : ℤ)| ≤
      4800 * L.ownerWeight * L.sharedWeight + 65536 * (L.ownerWeight + L.sharedWeight) := by
  have hmem (x : GroupID) : x ∈ ((groupView L).ring (r.state i).scheduler).map (·.id) := by
    show x ∈ [(r.state i).scheduler.next, (r.state i).scheduler.next.other]
    by_cases hx : x = (r.state i).scheduler.next
    · rw [hx]
      exact List.mem_cons_self
    · rw [eq_other_of_ne hx]
      simp
  exact h.fair (groupView L) hfree hj hpi hij (a := .owner) (b := .shared) (by decide) (hmem .owner)
    (hmem .shared) hbusy

end InForce

/-- The limits of two tailnets, one in each group or both in the owner's. -/
def pairLimits (group : Group) : Limits :=
  ⟨1000000, 2, 1, 0, [⟨"a", .owner, 3, 0⟩, ⟨"b", group, 1, 0⟩], by simp⟩

/-- Both tailnets queue requests, which are let through one after the other. -/
def pairCalls : List Call :=
  [.wait 0 "a" 0, .step 0, .wait 0 "a" 1200, .wait 0 "a" 1200, .wait 0 "a" 1200, .wait 0 "a" 1200,
    .wait 0 "b" 1000, .wait 0 "b" 1000, .wait 0 "b" 1000, .wait 1 "b" 1000, .cancel 1,
    .step 1000000000, .step 1000000000, .step 1000000000, .step 1000000000]

theorem pairCalls_due : ∀ group ∈ [Group.owner, Group.shared], ∀ i (hi : i < pairCalls.length),
    pairCalls[i].due (after (pairLimits group) 0 (pairCalls.take i)).time := by
  decide +kernel

def apartRun : Run := .ofCalls (pairLimits .shared) 0 pairCalls (pairCalls_due .shared (by simp))

def togetherRun : Run := .ofCalls (pairLimits .owner) 0 pairCalls (pairCalls_due .owner (by simp))

theorem apart_groups_fair : apartRun.granted (·.group = .shared) 11 15 = 1000 ∧
    |(apartRun.granted (·.group = .owner) 11 15 * 1 - apartRun.granted (·.group = .shared) 11 15 * 2 :
      ℤ)| ≤ 4800 * 2 * 1 + 65536 * (2 + 1) :=
  ⟨by decide +kernel, Run.InForce.groups_fair (L := pairLimits .shared) (p := 0)
    ⟨.inl ⟨rfl, rfl⟩, by decide +kernel⟩ (by decide) (by decide +kernel) (by decide) (by decide)
    (by decide +kernel)⟩

section InForce

variable {r : Run} {p i j : ℕ}

theorem step_rule {out : Option Granted} (h : s.step now = (out, s')) (hs : s.Steady L)
    {g : Granted} (hg : out = some g) :
    ∃ rule ∈ L.tailnets, rule.tailnetID = g.tailnet ∧ rule.groupID = g.group := by
  have hturns : s'.Steady L ∧ ∀ g, out = some g →
      ∃ rule ∈ L.tailnets, rule.tailnetID = g.tailnet ∧ rule.groupID = g.group := by
    apply step_turns (R := fun out a => a.Steady L ∧ ∀ g, out = some g →
      ∃ rule ∈ L.tailnets, rule.tailnetID = g.tailnet ∧ rule.groupID = g.group) h ⟨hs, by simp⟩
    intro a t ha hturn
    refine ⟨hturn.steady ha.1, fun g hg => ?_⟩
    cases hturn with
    | @grant q _ _ _ visits group tailnet allowed =>
      obtain ⟨-, -, rule, hrule, hid, hgroup, -⟩ := ha.1.queue a.next q visits.mem
      exact ⟨rule, hrule, Option.some.inj hg ▸ hid, Option.some.inj hg ▸ hgroup⟩
    | _ => cases hg
  exact hturns.2 g hg

/-- What a tailnet is granted, it is granted in the group of its rule. -/
theorem Run.InForce.granted_tailnet (h : r.InForce L p j) (hfree : L.noCeilings) (hj : j ≤ r.len)
    (hpi : p ≤ i) {rule : TailnetLimit} (hrule : rule ∈ L.tailnets) :
    r.granted (·.tailnet = rule.tailnetID) i j =
      r.granted ((tailnetView L rule.groupID).sends rule.tailnetID) i j := by
  apply Finset.sum_congr rfl
  intro k hk
  obtain ⟨hik, hkj⟩ := Finset.mem_Ico.mp hk
  have hchange := (r.next k (hkj.trans_le hj)).change
  have hs := h.steady hfree hj (hpi.trans hik) hkj.le
  generalize r.label k = e at hchange
  generalize r.state (k + 1) = c at hchange
  cases hchange with
  | @step now out s' time search =>
    cases out with
    | none => rfl
    | some g =>
      have hgroup (hid : g.tailnet = rule.tailnetID) : g.group = rule.groupID := by
        obtain ⟨rule', hrule', hid', hgroup'⟩ := step_rule search hs rfl
        rw [← hgroup', List.inj_on_of_nodup_map L.nodup hrule' hrule (hid'.trans hid)]
      have hsends : (decide (g.tailnet = rule.tailnetID)) =
          (tailnetView L rule.groupID).sends rule.tailnetID g := by
        show _ = (decide (g.group = rule.groupID) && decide (g.tailnet = rule.tailnetID))
        by_cases hid : g.tailnet = rule.tailnetID
        · simp [hid, hgroup hid]
        · simp [hid]
      simp only [bytesOf, Option.filter, hsends]
  | _ => rfl

/-- While two tailnets of a group hold requests before every step, what they send is in proportion
to their weights, whatever the others do. -/
theorem Run.InForce.tailnets_fair (h : r.InForce L p j) (hfree : L.noCeilings) (hj : j ≤ r.len)
    (hpi : p ≤ i) (hij : i ≤ j) {a b : TailnetLimit} (ha : a ∈ L.tailnets) (hb : b ∈ L.tailnets)
    (hab : a ≠ b) (hgroup : a.groupID = b.groupID)
    (hbusy : ∀ k, i ≤ k → k < j → (r.label k).call.isStep →
      (r.state k).scheduler.tailnetHolds a.tailnetID ∧
      (r.state k).scheduler.tailnetHolds b.tailnetID) :
    |(r.granted (·.tailnet = a.tailnetID) i j * b.weight -
        r.granted (·.tailnet = b.tailnetID) i j * a.weight : ℤ)| ≤
      4800 * a.weight * b.weight + 65536 * (a.weight + b.weight) := by
  have hs := h.steady hfree hj hpi hij
  have hne : a.tailnetID ≠ b.tailnetID := fun hid =>
    hab (List.inj_on_of_nodup_map L.nodup ha hb hid)
  have hmem {rule : TailnetLimit} (hrule : rule ∈ L.tailnets) : rule.tailnetID ∈
      ((tailnetView L rule.groupID).ring (r.state i).scheduler).map (·.id) := by
    obtain ⟨t, ht, hid⟩ := hs.rule rule hrule
    rw [← hid]
    exact List.mem_map_of_mem (List.mem_map_of_mem ht)
  have hfair := h.fair (tailnetView L a.groupID) hfree hj hpi hij hne (hmem ha) (hgroup ▸ hmem hb)
    hbusy
  have hweight {rule : TailnetLimit} (hrule : rule ∈ L.tailnets) :
      (tailnetView L a.groupID).weight rule.tailnetID = rule.weight := L.tailnetWeight_eq hrule
  rw [h.granted_tailnet hfree hj hpi ha, h.granted_tailnet hfree hj hpi hb, ← hgroup]
  rwa [hweight ha, hweight hb] at hfair

end InForce

theorem together_tailnets_fair : togetherRun.granted (·.tailnet = "b") 11 15 = 1000 ∧
    |(togetherRun.granted (·.tailnet = "a") 11 15 * 1 -
      togetherRun.granted (·.tailnet = "b") 11 15 * 3 : ℤ)| ≤ 4800 * 3 * 1 + 65536 * (3 + 1) :=
  ⟨by decide +kernel, Run.InForce.tailnets_fair (L := pairLimits .owner) (p := 0)
    (a := ⟨"a", .owner, 3, 0⟩) (b := ⟨"b", .owner, 1, 0⟩) ⟨.inl ⟨rfl, rfl⟩, by decide +kernel⟩
    (by decide) (by decide +kernel) (by decide) (by decide) (by decide) (by decide) (by decide)
    (by decide) (by decide +kernel)⟩

end Scheduler
end UniDERP.Relay
