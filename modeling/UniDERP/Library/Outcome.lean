import Mathlib.Tactic

namespace UniDERP

variable {ε α β : Type}

/-- Go on only if `c` holds. -/
def require (c : Prop) [Decidable c] (e : ε) : Except ε Unit := if c then .ok () else .error e

def orElse (o : Option α) (e : ε) : Except ε α :=
  match o with
  | some a => .ok a
  | none => .error e

@[simp] theorem require_eq_ok {c : Prop} [Decidable c] {e : ε} {u : Unit} :
    require c e = .ok u ↔ c := by
  unfold require
  split_ifs with h <;> simp [h]

@[simp] theorem orElse_eq_ok {o : Option α} {e : ε} {a : α} :
    orElse o e = .ok a ↔ o = some a := by
  cases o <;> simp [orElse]

@[simp] theorem Except_bind_eq_ok {x : Except ε α} {f : α → Except ε β} {b : β} :
    (x >>= f) = .ok b ↔ ∃ a, x = .ok a ∧ f a = .ok b := by
  cases x <;> simp [bind, Except.bind]

theorem ok_bind (a : α) (f : α → Except ε β) : (Except.ok a >>= f) = f a := rfl

@[simp] theorem Except_pure_eq_ok {a b : α} : (pure a : Except ε α) = .ok b ↔ a = b := by
  simp [pure, Except.pure]

@[simp] theorem Except_map_eq_ok {x : Except ε α} {f : α → β} {b : β} :
    (f <$> x) = .ok b ↔ ∃ a, x = .ok a ∧ f a = b := by
  cases x <;> simp [Functor.map, Except.map]

@[simp] theorem mapError_eq_ok {ε' : Type} {x : Except ε α} {f : ε → ε'} {a : α} :
    x.mapError f = .ok a ↔ x = .ok a := by
  cases x <;> simp [Except.mapError]

theorem toOption_eq_some {x : Except ε α} {a : α} : x.toOption = some a ↔ x = .ok a := by
  cases x <;> simp [Except.toOption]

theorem mapM_self_eq_ok {l : List (Except ε α)} {xs : List α} :
    (l.mapM fun e => e) = .ok xs ↔ l = xs.map .ok := by
  induction l generalizing xs with
  | nil => cases xs <;> simp [pure, Except.pure]
  | cons e l ih =>
    simp only [List.mapM_cons, Except_bind_eq_ok, Except_pure_eq_ok]
    constructor
    · rintro ⟨x, rfl, ys, hys, rfl⟩
      rw [ih.mp hys, List.map_cons]
    · intro h
      cases xs with
      | nil => simp at h
      | cons x xs =>
        rw [List.map_cons, List.cons.injEq] at h
        exact ⟨x, h.1, xs, ih.mpr h.2, rfl⟩

end UniDERP
