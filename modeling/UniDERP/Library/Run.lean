import Mathlib.Order.Interval.Finset.Nat
import Mathlib.Tactic

namespace UniDERP

variable {σ α : Type}

/-- States reached from `Start` by finitely many steps. -/
inductive Reachable (Start : σ → Prop) (Step : σ → α → σ → Prop) : σ → Prop
  | start {s : σ} (h : Start s) : Reachable Start Step s
  | step {s s' : σ} {a : α} (h : Reachable Start Step s) (hs : Step s a s') :
      Reachable Start Step s'

structure Run (Start : σ → Prop) (Step : σ → α → σ → Prop) where
  len : ℕ
  state : ℕ → σ
  label : ℕ → α
  start : Start (state 0)
  next : ∀ i < len, Step (state i) (label i) (state (i + 1))

variable {Start : σ → Prop} {Step : σ → α → σ → Prop}

theorem Reachable.invariant {I : σ → Prop} {s : σ} (h : Reachable Start Step s)
    (h0 : ∀ s, Start s → I s)
    (hstep : ∀ s a s', Reachable Start Step s → I s → Step s a s' → I s') : I s := by
  induction h with
  | start hs => exact h0 _ hs
  | step hr hs ih => exact hstep _ _ _ hr ih hs

namespace Run

/-- A run with one more step. -/
def snoc (r : Run Start Step) {a : α} {s : σ} (h : Step (r.state r.len) a s) : Run Start Step where
  len := r.len + 1
  state i := if i ≤ r.len then r.state i else s
  label i := if i < r.len then r.label i else a
  start := by
    rw [if_pos (Nat.zero_le _)]
    exact r.start
  next i hi := by
    rw [if_pos (Nat.le_of_lt_succ hi)]
    rcases Nat.lt_or_eq_of_le (Nat.le_of_lt_succ hi) with hlt | rfl
    · rw [if_pos hlt, if_pos (Nat.succ_le_of_lt hlt)]
      exact r.next i hlt
    · rw [if_neg (Nat.lt_irrefl _), if_neg (Nat.not_succ_le_self _)]
      exact h

theorem reachable (r : Run Start Step) {i : ℕ} (hi : i ≤ r.len) :
    Reachable Start Step (r.state i) := by
  induction i with
  | zero => exact .start r.start
  | succ i ih => exact .step (ih (Nat.le_of_succ_le hi)) (r.next i hi)

theorem preserved (r : Run Start Step) {P : σ → Prop} {i j : ℕ} (hij : i ≤ j)
    (hp : P (r.state i))
    (hstep : ∀ k, i ≤ k → k < j → P (r.state k) → P (r.state (k + 1))) : P (r.state j) := by
  induction j, hij using Nat.le_induction with
  | base => exact hp
  | succ j hij ih =>
    exact hstep j hij (Nat.lt_succ_self j) (ih fun k hk hkj => hstep k hk (Nat.lt_succ_of_lt hkj))

theorem carried_back (r : Run Start Step) {P : σ → Prop} {i j : ℕ} (hij : i ≤ j)
    (hp : P (r.state j))
    (hstep : ∀ k, i ≤ k → k < j → P (r.state (k + 1)) → P (r.state k)) : P (r.state i) := by
  induction hij using Nat.decreasingInduction with
  | self => exact hp
  | of_succ k hk ih => exact hstep k le_rfl hk (ih fun m hm => hstep m (by omega))

theorem established (r : Run Start Step) {P : σ → Prop} {b i : ℕ} (hbi : b ≤ i)
    (hb : ¬ P (r.state b)) (hi : P (r.state i)) :
    ∃ j, b ≤ j ∧ j < i ∧ ¬ P (r.state j) ∧ ∀ k, j < k → k ≤ i → P (r.state k) := by
  induction i, hbi using Nat.le_induction with
  | base => exact absurd hi hb
  | succ i hbi ih =>
    by_cases hp : P (r.state i)
    · obtain ⟨j, hbj, hj, hn, hall⟩ := ih hp
      refine ⟨j, hbj, Nat.lt_succ_of_lt hj, hn, fun k hjk hk => ?_⟩
      rcases Nat.lt_or_eq_of_le hk with hlt | rfl
      · exact hall k hjk (Nat.le_of_lt_succ hlt)
      · exact hi
    · refine ⟨i, hbi, Nat.lt_succ_self i, hp, fun k hik hk => ?_⟩
      have : k = i + 1 := by omega
      rw [this]
      exact hi

variable {β : Type}

def play (f : σ → β → Option σ) : List β → σ → Option σ
  | [], s => some s
  | b :: bs, s => (f s b).bind (play f bs)

theorem play_append (f : σ → β → Option σ) (bs bs' : List β) (s : σ) :
    play f (bs ++ bs') s = (play f bs s).bind (play f bs') := by
  induction bs generalizing s with
  | nil => rfl
  | cons b bs ih =>
    rw [List.cons_append, play, play, Option.bind_assoc]
    exact congrArg _ (funext ih)

/-- Acts that are all possible are a run; `R` relates a label to the act that was chosen. -/
theorem of_play {f : σ → β → Option σ} {R : α → β → Prop}
    (hstep : ∀ s b s', f s b = some s' → ∃ a, R a b ∧ Step s a s') {bs : List β} {s₀ s : σ}
    (a₀ : α) (h₀ : Start s₀) (h : play f bs s₀ = some s) :
    ∃ r : Run Start Step, r.len = bs.length ∧
      (∀ i ≤ bs.length, play f (bs.take i) s₀ = some (r.state i)) ∧
      ∀ i b, bs[i]? = some b → R (r.label i) b := by
  induction bs using List.reverseRecOn generalizing s with
  | nil => exact ⟨⟨0, fun _ => s₀, fun _ => a₀, h₀, by simp⟩, rfl, by simp [play], by simp⟩
  | append_singleton bs b ih =>
    rw [play_append, Option.bind_eq_some_iff] at h
    obtain ⟨s₁, h₁, h₂⟩ := h
    obtain ⟨r, hlen, hstate, hlabel⟩ := ih h₁
    rw [play, Option.bind_eq_some_iff] at h₂
    obtain ⟨s₂, hf, hs₂⟩ := h₂
    obtain rfl : s₂ = s := by simpa [play] using hs₂
    have hlast : r.state r.len = s₁ := by
      have hfull := hstate bs.length le_rfl
      rw [List.take_length, h₁, Option.some.injEq] at hfull
      rw [hlen, hfull]
    obtain ⟨a, ha, hnext⟩ := hstep s₁ b s₂ hf
    rw [← hlast] at hnext
    refine ⟨r.snoc hnext, by simp [snoc, hlen], fun i hi => ?_, fun i b' hb => ?_⟩
    · rw [List.length_append, List.length_singleton] at hi
      rcases Nat.lt_or_eq_of_le hi with hlt | rfl
      · have hle : i ≤ bs.length := Nat.le_of_lt_succ hlt
        rw [List.take_append_of_le_length hle, hstate i hle]
        simp [snoc, hlen, hle]
      · rw [List.take_of_length_le (by simp), play_append, h₁]
        simp [snoc, hlen, play, hf]
    · rcases Nat.lt_trichotomy i bs.length with hlt | rfl | hgt
      · rw [List.getElem?_append_left hlt] at hb
        simpa [snoc, hlen, hlt] using hlabel i b' hb
      · rw [List.getElem?_concat_length, Option.some.injEq] at hb
        simpa [snoc, hlen, ← hb] using ha
      · rw [List.getElem?_eq_none (by simpa using hgt)] at hb
        cases hb

end Run
end UniDERP
