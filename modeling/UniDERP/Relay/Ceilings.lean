import UniDERP.Relay.Scheduler

namespace UniDERP.Relay.Scheduler

inductive Meter
  | budget
  | shared
  | tailnet (id : String)

def Meter.meters : Meter → Granted → Bool
  | .budget, _ => true
  | .shared, g => g.group = .shared
  | .tailnet id, g => g.tailnet = id

def rateOf (s : Scheduler) : Meter → Option ℕ
  | .budget => some s.budget.rate
  | .shared => some s.shared.bucket.rate
  | .tailnet id => (s.find id).map (·.2.bucket.rate)

/-- A tailnet without a queue has an empty bucket, which is what it gets when it is added. -/
def bucketOf (s : Scheduler) : Meter → TokenBucket
  | .budget => s.budget
  | .shared => s.shared.bucket
  | .tailnet id => ((s.find id).map (·.2.bucket)).getD {}

variable {now : ℤ} {s s' : Scheduler}

theorem bucketOf_rate (m : Meter) : (s.bucketOf m).rate = (s.rateOf m).getD 0 := by
  cases m with
  | budget => rfl
  | shared => rfl
  | tailnet id =>
    rw [bucketOf, rateOf]
    cases s.find id <;> rfl

theorem burst_nonneg : 0 ≤ burst := by
  unfold burst
  norm_num

theorem nanosecond_nonneg : 0 ≤ nanosecond := by
  unfold nanosecond
  norm_num

theorem Passes.asked (h : Passes now s s') (hd : s.Distinct) (m : Meter) :
    TokenBucket.Asked burst nanosecond now (s.bucketOf m) (s'.bucketOf m) := by
  cases m with
  | budget => exact h.budget
  | shared => exact h.bucket .shared
  | tailnet id =>
    rcases h.tailnets with hsame | ⟨t, t', hreplaces, hpassed⟩
    · rw [bucketOf, bucketOf, find_congr hsame]
      exact .refl
    · rw [bucketOf, bucketOf, hreplaces.find hd]
      split_ifs with hid
      · rw [hid, hd.find hreplaces.current]
        exact hpassed.bucket
      · exact .refl

theorem Serves.charged {g : Granted} (h : Serves now s g s') (hd : s.Distinct) (m : Meter) :
    TokenBucket.Charged burst nanosecond now (if m.meters g then some g.size else none)
      (s.bucketOf m) (s'.bucketOf m) := by
  cases m with
  | budget => exact h.budget
  | shared =>
    show TokenBucket.Charged _ _ _ (if decide (g.group = .shared) then _ else _)
      (s.group .shared).bucket (s'.group .shared).bucket
    simpa using h.bucket .shared
  | tailnet id =>
    obtain ⟨t, t', hreplaces, hid, -, hcharged, -⟩ := h.tailnet
    rw [bucketOf, bucketOf, hreplaces.find hd]
    by_cases hmeters : id = t.id
    · rw [if_pos hmeters, if_pos (by simp [Meter.meters, hid, hmeters]), hmeters,
        hd.find hreplaces.current]
      exact hcharged
    · rw [if_neg hmeters, if_neg (by simpa [Meter.meters, hid] using Ne.symm hmeters)]
      exact .refl

theorem Tries.asked {s₁ : Scheduler} (h : Tries now s s₁) (hd : s.Distinct) : s₁.Distinct ∧
    (∀ id, (s₁.find id).isSome = (s.find id).isSome) ∧
    ∀ m, TokenBucket.Asked burst nanosecond now (s.bucketOf m) (s₁.bucketOf m) :=
  h.invariant
    (I := fun a => a.Distinct ∧ (∀ id, (a.find id).isSome = (s.find id).isSome) ∧
      ∀ m, TokenBucket.Asked burst nanosecond now (s.bucketOf m) (a.bucketOf m))
    ⟨hd, fun _ => rfl, fun _ => .refl⟩ fun _ _ ⟨ha, hfind, hasked⟩ hturn =>
      ⟨hturn.passes.distinct ha,
        fun id => (hturn.passes.find_isSome ha id).trans (hfind id),
        fun m => (hasked m).trans (hturn.passes.asked ha m)⟩

theorem step_charged {out : Option Granted} (h : s.step now = (out, s')) (hd : s.Distinct)
    (m : Meter) : TokenBucket.Charged burst nanosecond now ((out.filter m.meters).map (·.size))
      (s.bucketOf m) (s'.bucketOf m) := by
  rcases search_ends h with ⟨rfl, htries⟩ | ⟨s₁, htries, hends⟩
  · exact (htries.asked hd).2.2 m
  · obtain ⟨hd₁, -, hasked⟩ := htries.asked hd
    cases hends with
    | stop h => exact (hasked m).trans ((h ▸ attempt_turn now s₁).stop_passes.asked hd₁ m)
    | @grant g _ h =>
      have hserves : Serves now s₁ g s' := (h ▸ attempt_turn now s₁).serves
      have hcharged := (hasked m).charged (hserves.charged hd₁ m)
      cases hm : m.meters g with
      | true => simpa [Option.filter, hm] using hcharged
      | false => simpa [Option.filter, hm] using hcharged

theorem step_rateOf {g : Granted} (h : s.step now = (some g, s')) (hd : s.Distinct) {m : Meter}
    (hm : m.meters g) : (s.rateOf m).isSome := by
  cases m with
  | budget => rfl
  | shared => rfl
  | tailnet id =>
    rcases search_ends h with ⟨hout, -⟩ | ⟨s₁, htries, hends⟩
    · cases hout
    · obtain ⟨hd₁, hfind, -⟩ := htries.asked hd
      cases hends with
      | grant h =>
        have hserves : Serves now s₁ g s' := (h ▸ attempt_turn now s₁).serves
        obtain ⟨t, t', hreplaces, hid, -⟩ := hserves.tailnet
        have hid' : t.id = id := hid.symm.trans (by simpa [Meter.meters] using hm)
        rw [rateOf, Option.isSome_map, ← hfind id, ← hid', hd₁.find hreplaces.current]
        rfl

theorem update_bucketOf (L : Limits) (m : Meter) :
    (∃ rate, (s.update L).bucketOf m = { s.bucketOf m with rate := rate }) ∨
      (s.update L).bucketOf m = {} := by
  cases m with
  | budget => exact .inl ⟨L.budget, rfl⟩
  | shared => exact .inl ⟨L.sharedMax, rfl⟩
  | tailnet id =>
    rw [bucketOf, bucketOf]
    cases hfind : (s.update L).find id with
    | none => exact .inr rfl
    | some x =>
      obtain ⟨hmem, hid⟩ := find_some (i := x.1) (t := x.2) hfind
      obtain ⟨rule, -, -, hqueue⟩ := mem_update.mp hmem
      rw [← hqueue, requeue_id] at hid
      refine .inl ⟨rule.maxBytesPerSec, ?_⟩
      rw [Option.map_some, Option.getD_some, ← hqueue, requeue, hid]
      cases s.find id <;> rfl

theorem enqueue_bucketOf {i : GroupID} {id : String} {r : Request} (m : Meter) :
    (s.enqueue i id r).bucketOf m = s.bucketOf m := by
  cases m with
  | budget => exact setGroup_budget
  | shared => cases i <;> rfl
  | tailnet id' =>
    rw [bucketOf, bucketOf, enqueue_find, Option.map_map]
    congr 2
    funext x
    show (if _ then _ else _ : TailnetQueue).bucket = _
    split_ifs <;> rfl

theorem cancel_bucketOf {ctx : ℕ} (m : Meter) : (s.cancel ctx).bucketOf m = s.bucketOf m := by
  cases m <;> rfl

variable {e : Event} {c c' : Clocked}

theorem Change.sound (h : Change c e c') (hd : c.scheduler.Distinct) {m : Meter}
    (hs : (c.scheduler.bucketOf m).Sound c.time) : (c'.scheduler.bucketOf m).Sound c'.time := by
  cases h with
  | update L =>
    rcases update_bucketOf (s := c.scheduler) L m with ⟨rate, hb⟩ | hb
    · rw [hb]
      exact hs.rate rate
    · rw [hb]
      exact .empty 0
  | queued found small =>
    rw [enqueue_bucketOf]
    exact hs
  | refused => exact hs
  | cancel ctx =>
    rw [cancel_bucketOf]
    exact hs
  | step time search =>
    exact hs.charged time nanosecond_nonneg burst_nonneg (step_charged search hd m)

theorem Run.sound (r : Run) (m : Meter) {k : ℕ} (hk : k ≤ r.len) :
    ((r.state k).scheduler.bucketOf m).Sound (r.state k).time := by
  apply r.preserved (P := fun s => (s.scheduler.bucketOf m).Sound s.time) (Nat.zero_le k)
  · obtain ⟨L, time, hstart⟩ := r.start
    have hempty : ({} : Scheduler).bucketOf m = {} := by cases m <;> rfl
    rw [hstart, new_eq_update]
    rcases update_bucketOf (s := {}) L m with ⟨rate, hb⟩ | hb
    · rw [hb, hempty]
      exact .empty rate
    · rw [hb]
      exact .empty 0
  · intro i _ hi hs
    exact (r.next i (hi.trans_le hk)).change.sound (Run.distinct r (hi.trans_le hk).le) hs

theorem Change.metered (h : Change c e c') (hd : c.scheduler.Distinct) {m : Meter} {R : ℕ}
    {start : ℤ} {granted : ℚ} (hs : (c.scheduler.bucketOf m).Sound c.time)
    (hstart : ∀ now, e.call = .step now → start ≤ now)
    (hrate : (c.scheduler.rateOf m).all fun rate => rate ≠ 0 && rate ≤ R)
    (hm : (c.scheduler.bucketOf m).Metered burst nanosecond R start c.time granted) :
    (c'.scheduler.bucketOf m).Metered burst nanosecond R start c'.time
      (granted + bytesOf m.meters e.grant) := by
  have hrate' (rate : ℕ) (h : c.scheduler.rateOf m = some rate) : rate ≠ 0 ∧ rate ≤ R := by
    simpa [h] using hrate
  cases h with
  | update L =>
    rw [bytesOf, Option.filter_none, Option.elim_none, Nat.cast_zero, add_zero]
    rcases update_bucketOf (s := c.scheduler) L m with ⟨rate, hb⟩ | hb
    · rw [hb]
      exact hm.rate rate
    · rw [hb]
      exact hm.replaced hs 0
  | queued found small =>
    rw [enqueue_bucketOf]
    simpa [bytesOf] using hm
  | refused => simpa [bytesOf] using hm
  | cancel ctx =>
    rw [cancel_bucketOf]
    simpa [bytesOf] using hm
  | @step now out s' time search =>
    have hbytes : bytesOf m.meters out = ((out.filter m.meters).map (·.size)).getD 0 := by
      rw [bytesOf]
      cases out.filter m.meters <;> rfl
    rw [hbytes]
    apply hm.charged (step_charged search hd m) time (hstart now rfl) nanosecond_nonneg
    · rw [bucketOf_rate]
      cases hr : c.scheduler.rateOf m with
      | none => simp
      | some rate => exact_mod_cast (hrate' rate hr).2
    · intro hsome
      obtain ⟨n, hn⟩ := Option.ne_none_iff_exists'.mp hsome
      obtain ⟨g, hg, -⟩ := Option.map_eq_some_iff.mp hn
      obtain ⟨rfl, hmeters⟩ := Option.filter_eq_some_iff.mp hg
      obtain ⟨rate, hr⟩ := Option.isSome_iff_exists.mp (step_rateOf search hd hmeters)
      rw [bucketOf_rate, hr]
      exact (hrate' rate hr).1

def Call.within (start close : ℤ) : Call → Bool
  | .step now => start ≤ now && now ≤ close
  | _ => true

/-- Calls from `i` to `j` that are made between `start` and `close`, while the rate of the bucket
is set and at most `R`. -/
structure Run.Window (r : Run) (m : Meter) (R : ℕ) (i j : ℕ) (start close : ℤ) : Prop where
  order : i ≤ j ∧ j ≤ r.len ∧ start ≤ close
  time : ∀ k, i ≤ k → k < j → (r.label k).call.within start close
  rate : ∀ k, i ≤ k → k < j →
    ((r.state k).scheduler.rateOf m).all fun rate => rate ≠ 0 && rate ≤ R

theorem Change.time (h : Change c e c') :
    (c'.time = c.time ∧ e.grant = none) ∨ e.call = .step c'.time := by
  cases h with
  | step time search => exact .inr rfl
  | _ => exact .inl ⟨rfl, rfl⟩

theorem Run.Window.metered {r : Run} {m : Meter} {R i j : ℕ} {start close : ℤ}
    (h : r.Window m R i j start close) :
    ((r.state j).scheduler.bucketOf m).Metered burst nanosecond R start (r.state j).time
        (r.granted m.meters i j) ∧
      (r.granted m.meters i j ≠ 0 → (r.state j).time ≤ close) := by
  obtain ⟨⟨hij, hj, hclose⟩, htime, hrate⟩ := h
  -- By induction on the calls of the window.
  induction j, hij using Nat.le_induction with
  | base => simp [Run.granted, TokenBucket.Metered.zero]
  | succ j hij ih =>
    obtain ⟨hmetered, hlast⟩ := ih (fun k hik hkj => htime k hik (Nat.lt_succ_of_lt hkj))
      (fun k hik hkj => hrate k hik (Nat.lt_succ_of_lt hkj)) (Nat.le_of_succ_le hj)
    have hchange := (r.next j hj).change
    have hle := Nat.le_of_succ_le hj
    have hwithin {now : ℤ} (hnow : (r.label j).call = .step now) : start ≤ now ∧ now ≤ close := by
      simpa [hnow, Call.within] using htime j hij (Nat.lt_succ_self j)
    rw [Run.granted_succ r _ hij, Nat.cast_add]
    refine ⟨hchange.metered (Run.distinct r hle) (Run.sound r m hle)
      (fun now hnow => (hwithin hnow).1) (hrate j hij (Nat.lt_succ_self j)) hmetered, fun hne => ?_⟩
    rcases hchange.time with ⟨hsame, hnone⟩ | hstep
    · rw [hsame]
      apply hlast
      simpa [bytesOf, hnone] using hne
    · exact (hwithin hstep).2

/-- In any window of length `close - start` in which the rate of a bucket is set and at most `R`,
at most the burst and `R` times that length are let through the bucket. -/
theorem Run.Window.ceiling {r : Run} {m : Meter} {R i j : ℕ} {start close : ℤ}
    (h : r.Window m R i j start close) :
    (r.granted m.meters i j : ℚ) ≤ 65536 + R * ((close - start : ℤ) / 10 ^ 9) := by
  obtain ⟨hmetered, hlast⟩ := h.metered
  have hbound := hmetered.bound (Run.sound r m h.order.2.1) h.order.2.2
    (fun hne => hlast (by exact_mod_cast hne)) nanosecond_nonneg burst_nonneg (Nat.cast_nonneg R)
  calc (r.granted m.meters i j : ℚ)
      ≤ burst + (close - start : ℤ) * nanosecond * R := hbound
    _ = 65536 + R * ((close - start : ℤ) / 10 ^ 9) := by
      rw [burst, nanosecond]
      ring

def ceilingOf (group : Group) (rate : ℕ) : Limits :=
  ⟨1000000, 8, 2, 0, [⟨"a", group, 1, rate⟩], List.nodup_singleton _⟩

/-- The tailnet is moved to the shared group, removed and added again. -/
def movedCalls : List Call :=
  [.wait 0 "a" 0, .step 0, .wait 0 "a" 1000, .step 1000000000, .update (ceilingOf .shared 2000),
    .wait 0 "a" 2000, .step 2000000000, .update ⟨1000000, 8, 2, 0, [], List.nodup_nil⟩,
    .step 3000000000, .update (ceilingOf .owner 500), .wait 0 "a" 0, .step 3000000000]

theorem movedCalls_due : ∀ i (hi : i < movedCalls.length),
    movedCalls[i].due (after (ceilingOf .owner 1000) 0 (movedCalls.take i)).time := by
  decide +kernel

def movedRun : Run := .ofCalls (ceilingOf .owner 1000) 0 movedCalls movedCalls_due

theorem moved_ceiling : movedRun.granted (Meter.tailnet "a").meters 0 12 = 3000 ∧
    (movedRun.granted (Meter.tailnet "a").meters 0 12 : ℚ) ≤
      65536 + 2000 * ((3000000000 - 0 : ℤ) / 10 ^ 9) := by
  refine ⟨by decide +kernel,
    Run.Window.ceiling ⟨by decide +kernel, by decide +kernel, by decide +kernel⟩⟩

end UniDERP.Relay.Scheduler
