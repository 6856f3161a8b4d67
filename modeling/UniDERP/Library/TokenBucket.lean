import Mathlib.Tactic

namespace UniDERP

structure TokenBucket where
  rate : ℕ := 0
  tokens : ℚ := 0
  last : Option ℤ := none
  deriving DecidableEq

namespace TokenBucket

/-- `tick` is the time between two readings of the clock that differ by one. -/
def refill (burst tick : ℚ) (b : TokenBucket) (now : ℤ) : TokenBucket :=
  if b.rate = 0 then b
  else { b with
    tokens := min (b.tokens + b.last.elim 0 fun last => (now - last : ℤ) * tick * b.rate) burst
    last := some now }

def available (burst tick : ℚ) (b : TokenBucket) (now : ℤ) (n : ℕ) : Bool × TokenBucket :=
  let b := b.refill burst tick now
  (b.rate = 0 || n ≤ b.tokens, b)

def consume (b : TokenBucket) (n : ℕ) : TokenBucket :=
  if b.rate ≠ 0 then { b with tokens := b.tokens - n } else b

variable {burst tick : ℚ} {b : TokenBucket} {now time : ℤ} {n : ℕ}

@[simp] theorem refill_rate : (b.refill burst tick now).rate = b.rate := by
  unfold refill
  split_ifs <;> rfl

@[simp] theorem consume_rate : (b.consume n).rate = b.rate := by
  unfold consume
  split_ifs <;> rfl

theorem refill_of_rate (h : b.rate ≠ 0) : b.refill burst tick now = { b with
    tokens := min (b.tokens + b.last.elim 0 fun last => (now - last : ℤ) * tick * b.rate) burst
    last := some now } := if_neg h

theorem consume_of_rate (h : b.rate ≠ 0) : b.consume n = { b with tokens := b.tokens - n } :=
  if_pos h

@[simp] theorem refill_refill :
    (b.refill burst tick now).refill burst tick now = b.refill burst tick now := by
  by_cases h : b.rate = 0
  · simp [refill, h]
  · rw [refill_of_rate (by simpa using h)]
    simp [refill_of_rate h]

def Asked (burst tick : ℚ) (now : ℤ) (b b' : TokenBucket) : Prop :=
  b' = b ∨ b' = b.refill burst tick now

theorem Asked.refl : Asked burst tick now b b := .inl rfl

theorem Asked.refill_eq {b' : TokenBucket} (h : Asked burst tick now b b') :
    b'.refill burst tick now = b.refill burst tick now := by
  rcases h with rfl | rfl
  · rfl
  · exact refill_refill

theorem Asked.trans {b₁ b₂ : TokenBucket} (h : Asked burst tick now b b₁)
    (h' : Asked burst tick now b₁ b₂) : Asked burst tick now b b₂ := by
  rcases h' with rfl | rfl
  · exact h
  · exact .inr h.refill_eq

/-- What became of a bucket at `now`, if it granted `n` bytes or nothing. -/
def Charged (burst tick : ℚ) (now : ℤ) (n : Option ℕ) (b b' : TokenBucket) : Prop :=
  match n with
  | none => Asked burst tick now b b'
  | some n => (b.available burst tick now n).1 ∧ b' = (b.refill burst tick now).consume n

theorem Charged.rate {b' : TokenBucket} {m : Option ℕ} (h : Charged burst tick now m b b') :
    b'.rate = b.rate := by
  cases m with
  | none =>
    rcases h with rfl | rfl
    · rfl
    · exact refill_rate
  | some n =>
    rw [h.2, consume_rate, refill_rate]

theorem Asked.charged {b₁ b₂ : TokenBucket} {n : Option ℕ} (h : Asked burst tick now b b₁)
    (h' : Charged burst tick now n b₁ b₂) : Charged burst tick now n b b₂ := by
  cases n with
  | none => exact h.trans h'
  | some n =>
    obtain ⟨hok, hb⟩ := h'
    unfold available at hok
    rw [h.refill_eq] at hok hb
    exact ⟨hok, hb⟩

structure Sound (time : ℤ) (b : TokenBucket) : Prop where
  tokens : 0 ≤ b.tokens
  last : ∀ last, b.last = some last → last ≤ time

theorem Sound.empty (rate : ℕ) : Sound time { rate := rate } := ⟨le_rfl, by simp⟩

theorem Sound.mono (h : b.Sound time) (hnow : time ≤ now) : b.Sound now :=
  ⟨h.tokens, fun last hlast => (h.last last hlast).trans hnow⟩

theorem Sound.rate (h : b.Sound time) (rate : ℕ) : Sound time { b with rate := rate } :=
  ⟨h.tokens, h.last⟩

theorem Sound.elapsed_nonneg (h : b.Sound time) (hnow : time ≤ now) (htick : 0 ≤ tick) :
    0 ≤ b.last.elim 0 fun last => ((now - last : ℤ) : ℚ) * tick * b.rate := by
  cases hlast : b.last with
  | none => rfl
  | some last =>
    have hle : (0 : ℚ) ≤ (now - last : ℤ) := by
      exact_mod_cast sub_nonneg.mpr ((h.last last hlast).trans hnow)
    rw [Option.elim_some]
    positivity

theorem Sound.refill (h : b.Sound time) (hnow : time ≤ now) (htick : 0 ≤ tick) (hburst : 0 ≤ burst) :
    (b.refill burst tick now).Sound now := by
  by_cases hrate : b.rate = 0
  · rw [TokenBucket.refill, if_pos hrate]
    exact h.mono hnow
  · rw [refill_of_rate hrate]
    refine ⟨le_min (add_nonneg h.tokens (h.elapsed_nonneg hnow htick)) hburst, fun last hlast => ?_⟩
    exact (Option.some.inj hlast).ge

theorem Sound.consume (h : b.Sound time) (hn : b.rate = 0 ∨ n ≤ b.tokens) :
    (b.consume n).Sound time := by
  by_cases hrate : b.rate = 0
  · simpa [TokenBucket.consume, hrate] using h
  · rw [consume_of_rate hrate]
    exact ⟨sub_nonneg.mpr (hn.resolve_left hrate), h.last⟩

theorem Sound.charged {b' : TokenBucket} {m : Option ℕ} (h : b.Sound time) (hnow : time ≤ now)
    (htick : 0 ≤ tick) (hburst : 0 ≤ burst) (hc : Charged burst tick now m b b') : b'.Sound now := by
  have hasked := h.refill hnow htick hburst
  cases m with
  | none =>
    rcases hc with rfl | rfl
    · exact h.mono hnow
    · exact hasked
  | some n =>
    obtain ⟨hok, rfl⟩ := hc
    apply hasked.consume
    simpa [available] using hok

/-- What was granted since the window opened at `start` is paid for: by the burst, and by time at
rate `R`. -/
def Metered (burst tick R : ℚ) (start time : ℤ) (granted : ℚ) (b : TokenBucket) : Prop :=
  granted = 0 ∨ ∃ paid, start ≤ paid ∧ paid ≤ time ∧ (∀ last, b.last = some last → paid ≤ last) ∧
    granted + b.tokens ≤ burst + (paid - start : ℤ) * tick * R

variable {R granted : ℚ} {start : ℤ}

theorem Metered.zero : Metered burst tick R start time 0 b := .inl rfl

theorem Metered.rate (h : Metered burst tick R start time granted b) (rate : ℕ) :
    Metered burst tick R start time granted { b with rate := rate } := h

theorem Metered.mono (h : Metered burst tick R start time granted b) (hnow : time ≤ now) :
    Metered burst tick R start now granted b := by
  rcases h with h | ⟨paid, hstart, htime, hlast, hle⟩
  · exact .inl h
  · exact .inr ⟨paid, hstart, htime.trans hnow, hlast, hle⟩

theorem Metered.replaced (h : Metered burst tick R start time granted b) (hb : b.Sound time)
    (rate : ℕ) : Metered burst tick R start time granted { rate := rate } := by
  rcases h with h | ⟨paid, hstart, htime, -, hle⟩
  · exact .inl h
  · refine .inr ⟨paid, hstart, htime, by simp, ?_⟩
    have := hb.tokens
    dsimp only
    linarith

theorem Metered.refill (h : Metered burst tick R start time granted b)
    (hnow : time ≤ now) (htick : 0 ≤ tick) (hR : b.rate ≤ R) :
    Metered burst tick R start now granted (b.refill burst tick now) := by
  by_cases hrate : b.rate = 0
  · rw [TokenBucket.refill, if_pos hrate]
    exact h.mono hnow
  rcases h with h | ⟨paid, hstart, htime, hlast, hle⟩
  · exact .inl h
  rw [refill_of_rate hrate]
  refine .inr ⟨now, by omega, le_rfl, fun last hlast => (Option.some.inj hlast).le, ?_⟩
  -- The time since the bucket was last asked is part of the time since `paid`.
  have helapsed : (b.last.elim 0 fun last => ((now - last : ℤ) : ℚ) * tick * b.rate) ≤
      (now - paid : ℤ) * tick * R := by
    have hpaid : (0 : ℚ) ≤ (now - paid : ℤ) := by exact_mod_cast sub_nonneg.mpr (htime.trans hnow)
    have hR' : 0 ≤ R := (Nat.cast_nonneg _).trans hR
    cases hl : b.last with
    | none => simpa using mul_nonneg (mul_nonneg hpaid htick) hR'
    | some last =>
      have hle' : ((now - last : ℤ) : ℚ) ≤ (now - paid : ℤ) := by
        exact_mod_cast sub_le_sub_left (hlast last hl) now
      rw [Option.elim_some]
      gcongr
  have hsplit : ((now - start : ℤ) : ℚ) * tick * R =
      (now - paid : ℤ) * tick * R + (paid - start : ℤ) * tick * R := by
    push_cast
    ring
  calc granted + min (b.tokens + _) burst
      ≤ granted + (b.tokens + _) := by gcongr; exact min_le_left _ _
    _ ≤ burst + (now - start : ℤ) * tick * R := by
      rw [hsplit]
      linarith

/-- Bytes are granted by a bucket that was just asked. -/
theorem Metered.consume (h : Metered burst tick R start now granted (b.refill burst tick now))
    (hstart : start ≤ now) (htick : 0 ≤ tick) (hR : b.rate ≤ R) (hrate : b.rate ≠ 0) (n : ℕ) :
    Metered burst tick R start now (granted + n) ((b.refill burst tick now).consume n) := by
  have hR' : 0 ≤ R := (Nat.cast_nonneg _).trans hR
  have htime : (0 : ℚ) ≤ (now - start : ℤ) := by exact_mod_cast sub_nonneg.mpr hstart
  have hpaid : (0 : ℚ) ≤ (now - start : ℤ) * tick * R := by positivity
  rw [consume_of_rate (by simpa using hrate)]
  refine .inr ?_
  rcases h with rfl | ⟨paid, hle, hnow, hlast, hbound⟩
  · refine ⟨now, hstart, le_rfl, fun last hlast => ?_, ?_⟩
    · rw [refill_of_rate hrate] at hlast
      exact (Option.some.inj hlast).le
    · have hfull : (b.refill burst tick now).tokens ≤ burst := by
        rw [refill_of_rate hrate]
        exact min_le_right _ _
      dsimp only
      linarith
  · refine ⟨paid, hle, hnow, hlast, ?_⟩
    dsimp only
    linarith

theorem Metered.charged {b' : TokenBucket} {m : Option ℕ}
    (h : Metered burst tick R start time granted b) (hc : Charged burst tick now m b b')
    (hnow : time ≤ now) (hstart : start ≤ now) (htick : 0 ≤ tick) (hR : b.rate ≤ R)
    (hrate : m ≠ none → b.rate ≠ 0) :
    Metered burst tick R start now (granted + (m.getD 0 : ℕ)) b' := by
  have hasked := h.refill hnow htick hR
  cases m with
  | none =>
    rw [Option.getD_none, Nat.cast_zero, add_zero]
    rcases hc with rfl | rfl
    · exact h.mono hnow
    · exact hasked
  | some n =>
    obtain ⟨-, rfl⟩ := hc
    exact hasked.consume hstart htick hR (hrate (by simp)) n

theorem Metered.bound (h : Metered burst tick R start time granted b) (hb : b.Sound time)
    {close : ℤ} (hstart : start ≤ close) (htime : granted ≠ 0 → time ≤ close) (htick : 0 ≤ tick)
    (hburst : 0 ≤ burst) (hR : 0 ≤ R) : granted ≤ burst + (close - start : ℤ) * tick * R := by
  rcases h with rfl | ⟨paid, -, hpaid, -, hle⟩
  · have hlength : (0 : ℚ) ≤ (close - start : ℤ) := by exact_mod_cast sub_nonneg.mpr hstart
    positivity
  · by_cases hzero : granted = 0
    · have hlength : (0 : ℚ) ≤ (close - start : ℤ) := by exact_mod_cast sub_nonneg.mpr hstart
      rw [hzero]
      positivity
    · have hle' : ((paid - start : ℤ) : ℚ) ≤ (close - start : ℤ) := by
        exact_mod_cast sub_le_sub_right (hpaid.trans (htime hzero)) start
      have hmul : ((paid - start : ℤ) : ℚ) * tick * R ≤ (close - start : ℤ) * tick * R := by gcongr
      have := hb.tokens
      linarith

end TokenBucket
end UniDERP
