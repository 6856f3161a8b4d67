import Mathlib.Algebra.BigOperators.Group.Multiset.Basic
import Mathlib.Data.Multiset.Filter
import Mathlib.Tactic

namespace UniDERP

variable {α : Type}

structure Charge (α : Type) where
  owner : ℕ
  account : α
  size : ℕ
  deriving DecidableEq

structure Ledger (α : Type) where
  charged : Multiset (Charge α) := 0
  released : Multiset (Charge α) := 0

def Ledger.charge (e : Charge α) (l : Ledger α) : Ledger α := { l with charged := e ::ₘ l.charged }

def Ledger.release (e : Charge α) (l : Ledger α) : Ledger α :=
  { l with released := e ::ₘ l.released }

structure Ledger.Balanced (l : Ledger α) (held : Multiset (Charge α)) : Prop where
  sum : l.charged = l.released + held
  nodup : l.charged.Nodup

section Balanced

variable {l : Ledger α} {held : Multiset (Charge α)} {e : Charge α}

theorem Ledger.Balanced.charge (h : l.Balanced held) (hnew : e ∉ l.charged) :
    (l.charge e).Balanced (e ::ₘ held) where
  sum := by rw [Ledger.charge, h.sum, Multiset.add_cons]
  nodup := Multiset.nodup_cons.mpr ⟨hnew, h.nodup⟩

theorem Ledger.Balanced.release (h : l.Balanced (e ::ₘ held)) : (l.release e).Balanced held where
  sum := by rw [Ledger.release, h.sum, Multiset.add_cons, Multiset.cons_add]
  nodup := h.nodup

theorem Ledger.Balanced.mem_charged (h : l.Balanced held) (he : e ∈ held) : e ∈ l.charged := by
  rw [h.sum]
  exact Multiset.mem_add.mpr (.inr he)

theorem Ledger.Balanced.count_released [DecidableEq α] (h : l.Balanced held) (he : e ∈ l.charged) :
    l.released.count e = if e ∈ held then 0 else 1 := by
  have hone := Multiset.count_eq_one_of_mem h.nodup he
  rw [h.sum, Multiset.count_add] at hone
  split_ifs with hheld
  · have := Multiset.one_le_count_iff_mem.mpr hheld
    omega
  · rw [Multiset.count_eq_zero_of_notMem hheld] at hone
    omega

end Balanced

section Balance

variable [DecidableEq α]

def balance (a : α) (held : Multiset (Charge α)) : ℕ :=
  ((held.filter (·.account = a)).map (·.size)).sum

@[simp] theorem balance_zero (a : α) : balance a 0 = 0 := rfl

@[simp] theorem balance_cons (a : α) (e : Charge α) (held : Multiset (Charge α)) :
    balance a (e ::ₘ held) = (if e.account = a then e.size else 0) + balance a held := by
  unfold balance
  split_ifs with h <;> simp [h]

theorem balance_eq_zero {a : α} {held : Multiset (Charge α)} (h : ∀ e ∈ held, e.account ≠ a) :
    balance a held = 0 := by
  rw [balance, Multiset.filter_eq_nil.mpr h]
  rfl

end Balance

end UniDERP
