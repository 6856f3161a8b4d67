import Mathlib.Data.List.Sort
import Mathlib.Order.Lex
import Mathlib.Data.Prod.Lex
import Mathlib.Data.String.Basic

namespace UniDERP

structure Table (κ ρ : Type) [LinearOrder κ] where
  rows : List (κ × ρ)
  ordered : rows.Pairwise fun a b => a.1 < b.1

namespace Table

variable {κ ρ β : Type} [LinearOrder κ]

instance : EmptyCollection (Table κ ρ) := ⟨⟨[], .nil⟩⟩

instance : Inhabited (Table κ ρ) := ⟨∅⟩

def get? (t : Table κ ρ) (k : κ) : Option ρ := t.rows.lookup k

def keys (t : Table κ ρ) : List κ := t.rows.map Prod.fst

def values (t : Table κ ρ) : List ρ := t.rows.map Prod.snd

/-- Add the row for `k`, replacing the one that is there. -/
def insert (t : Table κ ρ) (k : κ) (r : ρ) : Table κ ρ where
  rows := t.rows.filter (fun x => x.1 < k) ++ (k, r) :: t.rows.filter (fun x => k < x.1)
  ordered := by
    rw [List.pairwise_append, List.pairwise_cons]
    refine ⟨t.ordered.filter _, ⟨?_, t.ordered.filter _⟩, ?_⟩
    · intro x hx
      simpa using (List.mem_filter.mp hx).2
    · intro x hx y hy
      have hxk : x.1 < k := by simpa using (List.mem_filter.mp hx).2
      rcases List.mem_cons.mp hy with rfl | hy
      · exact hxk
      · have hky : k < y.1 := by simpa using (List.mem_filter.mp hy).2
        exact hxk.trans hky

/-- Rewrite every row to `f k r`, dropping the rows it sends to `none`. -/
def filterMap (t : Table κ ρ) (f : κ → ρ → Option β) : Table κ β where
  rows := t.rows.filterMap fun x => (f x.1 x.2).map fun r => (x.1, r)
  ordered := by
    refine t.ordered.filterMap _ ?_
    rintro ⟨a, ra⟩ ⟨b, rb⟩ hab x hx y hy
    obtain ⟨ra', -, rfl⟩ := Option.map_eq_some_iff.mp hx
    obtain ⟨rb', -, rfl⟩ := Option.map_eq_some_iff.mp hy
    exact hab

/-- `UPDATE ... SET f WHERE p`. -/
def update (t : Table κ ρ) (p : κ → ρ → Bool) (f : ρ → ρ) : Table κ ρ :=
  t.filterMap fun k r => some (if p k r then f r else r)

/-- `DELETE ... WHERE p`. -/
def delete (t : Table κ ρ) (p : κ → ρ → Bool) : Table κ ρ :=
  t.filterMap fun k r => if p k r then none else some r

/-- `UPDATE ... SET f` on the row with key `k`. -/
def modify (t : Table κ ρ) (k : κ) (f : ρ → ρ) : Table κ ρ :=
  t.update (fun k' _ => k' = k) f

def erase (t : Table κ ρ) (k : κ) : Table κ ρ := t.delete fun k' _ => k' = k

theorem get?_eq_some_iff {t : Table κ ρ} {k : κ} {r : ρ} :
    t.get? k = some r ↔ (k, r) ∈ t.rows := by
  obtain ⟨rows, h⟩ := t
  change rows.lookup k = some r ↔ (k, r) ∈ rows
  induction rows with
  | nil => simp
  | cons x rows ih =>
    obtain ⟨k', r'⟩ := x
    have hx := (List.pairwise_cons.mp h).1
    by_cases hk : k = k'
    · subst hk
      have hfresh : (k, r) ∉ rows := fun hm => lt_irrefl k (hx _ hm)
      simp [hfresh, eq_comm]
    · have hk' : (k == k') = false := by simpa using hk
      rw [List.lookup_cons, hk', ih (List.pairwise_cons.mp h).2]
      simp [hk]

theorem rows_nodup (t : Table κ ρ) : t.rows.Nodup :=
  t.ordered.imp fun {_ _} hlt heq => by simp [heq] at hlt

theorem mem_keys {t : Table κ ρ} {k : κ} : k ∈ t.keys ↔ ∃ r, t.get? k = some r := by
  simp only [keys, List.mem_map, get?_eq_some_iff]
  constructor
  · rintro ⟨⟨k', r⟩, hm, rfl⟩
    exact ⟨r, hm⟩
  · rintro ⟨r, hm⟩
    exact ⟨(k, r), hm, rfl⟩

@[ext] theorem ext {t t' : Table κ ρ} (h : ∀ k, t.get? k = t'.get? k) : t = t' := by
  have hmem : ∀ x : κ × ρ, x ∈ t.rows ↔ x ∈ t'.rows := by
    rintro ⟨k, r⟩
    rw [← get?_eq_some_iff, ← get?_eq_some_iff, h]
  have hperm : t.rows.Perm t'.rows :=
    (List.perm_ext_iff_of_nodup (rows_nodup t) (rows_nodup t')).mpr hmem
  have hrows : t.rows = t'.rows :=
    hperm.eq_of_pairwise (fun a b _ _ hab hba => absurd (hab.trans hba) (lt_irrefl _))
      t.ordered t'.ordered
  obtain ⟨rows, h⟩ := t
  obtain ⟨rows', h'⟩ := t'
  cases hrows
  rfl

theorem keys_nodup (t : Table κ ρ) : t.keys.Nodup := by
  have h : t.keys.Pairwise (· < ·) := List.pairwise_map.mpr t.ordered
  exact h.imp fun hlt => hlt.ne

@[simp] theorem get?_empty (k : κ) : (∅ : Table κ ρ).get? k = none := rfl

theorem get?_insert (t : Table κ ρ) (k k' : κ) (r : ρ) :
    (t.insert k r).get? k' = if k' = k then some r else t.get? k' := by
  ext r'
  rw [get?_eq_some_iff]
  change (k', r') ∈ t.rows.filter (fun x => x.1 < k) ++ (k, r) :: t.rows.filter _ ↔ _
  simp only [List.mem_append, List.mem_cons, List.mem_filter, Prod.mk.injEq, decide_eq_true_eq]
  split_ifs with h
  · subst h
    simp [eq_comm]
  · rw [get?_eq_some_iff]
    rcases lt_or_gt_of_ne h with hlt | hgt
    · simp [h, hlt, hlt.not_gt]
    · simp [h, hgt, hgt.not_gt]

@[simp] theorem get?_insert_self (t : Table κ ρ) (k : κ) (r : ρ) :
    (t.insert k r).get? k = some r := by
  simp [get?_insert]

theorem get?_insert_ne (t : Table κ ρ) {k k' : κ} (r : ρ) (h : k' ≠ k) :
    (t.insert k r).get? k' = t.get? k' := by
  simp [get?_insert, h]

theorem get?_insert_eq_some {t : Table κ ρ} {k k' : κ} {r r' : ρ} :
    (t.insert k r).get? k' = some r' ↔ k' = k ∧ r' = r ∨ k' ≠ k ∧ t.get? k' = some r' := by
  rw [get?_insert]
  split_ifs with h <;> simp [h, eq_comm]

theorem get?_of_insert_none {t : Table κ ρ} {k k' : κ} {r : ρ}
    (h : (t.insert k r).get? k' = none) : t.get? k' = none := by
  rw [get?_insert] at h
  split_ifs at h
  exact h

@[simp] theorem get?_filterMap (t : Table κ ρ) (f : κ → ρ → Option β) (k : κ) :
    (t.filterMap f).get? k = (t.get? k).bind (f k) := by
  ext r
  rw [get?_eq_some_iff]
  change (k, r) ∈ t.rows.filterMap _ ↔ _
  simp only [List.mem_filterMap, Option.map_eq_some_iff, Option.bind_eq_some_iff,
    get?_eq_some_iff, Prod.mk.injEq]
  constructor
  · rintro ⟨⟨k', r'⟩, hm, r'', hf, rfl, rfl⟩
    exact ⟨r', hm, hf⟩
  · rintro ⟨r', hm, hf⟩
    exact ⟨(k, r'), hm, r, hf, rfl, rfl⟩

@[simp] theorem get?_update (t : Table κ ρ) (p : κ → ρ → Bool) (f : ρ → ρ) (k : κ) :
    (t.update p f).get? k = (t.get? k).map fun r => if p k r then f r else r := by
  cases h : t.get? k <;> simp [update, h]

@[simp] theorem get?_delete (t : Table κ ρ) (p : κ → ρ → Bool) (k : κ) :
    (t.delete p).get? k = (t.get? k).filter fun r => !p k r := by
  cases h : t.get? k with
  | none => simp [delete, h]
  | some r => cases hp : p k r <;> simp [delete, h, hp, Option.filter]

theorem get?_update_of_forall {t : Table κ ρ} {p : κ → ρ → Bool} {f : ρ → ρ} {k : κ}
    (h : ∀ r, p k r = false) : (t.update p f).get? k = t.get? k := by
  simp [h]

theorem get?_delete_of_forall {t : Table κ ρ} {p : κ → ρ → Bool} {k : κ}
    (h : ∀ r, p k r = false) : (t.delete p).get? k = t.get? k := by
  cases ht : t.get? k <;> simp [ht, h, Option.filter]

theorem get?_modify (t : Table κ ρ) (k k' : κ) (f : ρ → ρ) :
    (t.modify k f).get? k' = if k' = k then (t.get? k').map f else t.get? k' := by
  by_cases h : k' = k <;> simp [modify, h]

@[simp] theorem get?_modify_self (t : Table κ ρ) (k : κ) (f : ρ → ρ) :
    (t.modify k f).get? k = (t.get? k).map f := by
  simp [get?_modify]

theorem get?_modify_ne (t : Table κ ρ) {k k' : κ} (f : ρ → ρ) (h : k' ≠ k) :
    (t.modify k f).get? k' = t.get? k' := by
  simp [get?_modify, h]

theorem get?_modify_eq_some {t : Table κ ρ} {k k' : κ} {f : ρ → ρ} {r' : ρ} :
    (t.modify k f).get? k' = some r' ↔
      ∃ r, t.get? k' = some r ∧ r' = if k' = k then f r else r := by
  rw [get?_modify]
  split_ifs with h <;> simp [eq_comm]

theorem get?_delete_eq_some {t : Table κ ρ} {p : κ → ρ → Bool} {k : κ} {r : ρ} :
    (t.delete p).get? k = some r ↔ t.get? k = some r ∧ p k r = false := by
  simp [Option.filter_eq_some_iff]

theorem get?_erase (t : Table κ ρ) (k k' : κ) :
    (t.erase k).get? k' = if k' = k then none else t.get? k' := by
  by_cases h : k' = k <;> cases ht : t.get? k' <;> simp_all [erase, Option.filter]

@[simp] theorem get?_erase_self (t : Table κ ρ) (k : κ) : (t.erase k).get? k = none := by
  simp [get?_erase]

theorem get?_erase_ne (t : Table κ ρ) {k k' : κ} (h : k' ≠ k) :
    (t.erase k).get? k' = t.get? k' := by
  simp [get?_erase, h]

theorem insert_eq_self {t : Table κ ρ} {k : κ} {r : ρ} (h : t.get? k = some r) :
    t.insert k r = t := by
  ext k' r'
  rw [get?_insert]
  split_ifs with hk
  · rw [hk, h]
  · rfl

theorem modify_eq_insert {t : Table κ ρ} {k : κ} {r : ρ} (f : ρ → ρ) (h : t.get? k = some r) :
    t.modify k f = t.insert k (f r) := by
  ext k' r'
  rw [get?_insert, get?_modify]
  split_ifs with hk
  · rw [hk, h, Option.map_some]
  · rfl

theorem erase_eq_self {t : Table κ ρ} {k : κ} (h : t.get? k = none) : t.erase k = t := by
  ext k' r'
  rw [get?_erase]
  split_ifs with hk
  · simp [hk, h]
  · rfl

/-- The rows beside the one with key `k` are those of the table without it. -/
theorem values_insert (t : Table κ ρ) (k : κ) (r : ρ) :
    (t.insert k r).values.Perm (r :: (t.erase k).values) := by
  have hne : (t.erase k).rows = t.rows.filter fun x => x.1 ≠ k := by
    change t.rows.filterMap _ = _
    rw [← List.filterMap_eq_filter]
    congr 1
    funext x
    by_cases hx : x.1 = k <;> simp [Option.guard, hx]
  have hlt : (t.rows.filter fun x => x.1 < k) = (t.erase k).rows.filter fun x => x.1 < k := by
    rw [hne, List.filter_filter]
    refine List.filter_congr fun x _ => ?_
    by_cases hx : x.1 < k <;> simp [hx, ne_of_lt]
  have hgt : (t.rows.filter fun x => k < x.1) = (t.erase k).rows.filter fun x => !(x.1 < k) := by
    rw [hne, List.filter_filter]
    refine List.filter_congr fun x _ => ?_
    rcases lt_trichotomy x.1 k with hx | hx | hx <;> simp [hx, hx.le, ne_of_gt, not_lt]
  have hrows : (t.insert k r).rows.Perm ((k, r) :: (t.erase k).rows) := by
    change (t.rows.filter (fun x => x.1 < k) ++ (k, r) :: t.rows.filter (fun x => k < x.1)).Perm _
    refine List.perm_middle.trans ?_
    rw [hlt, hgt]
    exact (List.filter_append_perm _ _).cons _
  exact hrows.map Prod.snd

theorem values_of_get? {t : Table κ ρ} {k : κ} {r : ρ} (h : t.get? k = some r) :
    t.values.Perm (r :: (t.erase k).values) := by
  have hperm := t.values_insert k r
  rwa [insert_eq_self h] at hperm

theorem keys_congr {t : Table κ ρ} {t' : Table κ β}
    (h : ∀ k, (t.get? k).isSome = (t'.get? k).isSome) : t.keys = t'.keys := by
  have hmem : ∀ k, k ∈ t.keys ↔ k ∈ t'.keys := by
    intro k
    rw [mem_keys, mem_keys, ← Option.isSome_iff_exists, h, Option.isSome_iff_exists]
  have hlt : ∀ {γ : Type} (u : Table κ γ), u.keys.Pairwise (· < ·) := fun u =>
    List.pairwise_map.mpr u.ordered
  exact ((List.perm_ext_iff_of_nodup t.keys_nodup t'.keys_nodup).mpr hmem).eq_of_pairwise
    (fun a b _ _ hab hba => absurd (hab.trans hba) (lt_irrefl _)) (hlt t) (hlt t')

theorem keys_insert_of_get? {t : Table κ ρ} {k : κ} {r : ρ} (r' : ρ) (h : t.get? k = some r) :
    (t.insert k r').keys = t.keys := by
  refine keys_congr fun k' => ?_
  rw [get?_insert]
  split_ifs with hk
  · rw [hk, h]
    rfl
  · rfl

@[simp] theorem keys_update (t : Table κ ρ) (p : κ → ρ → Bool) (f : ρ → ρ) :
    (t.update p f).keys = t.keys := by
  change (t.rows.filterMap fun x =>
    some (x.1, if p x.1 x.2 then f x.2 else x.2)).map Prod.fst = t.rows.map Prod.fst
  rw [List.filterMap_eq_map', List.map_map]
  rfl

@[simp] theorem keys_modify (t : Table κ ρ) (k : κ) (f : ρ → ρ) : (t.modify k f).keys = t.keys :=
  keys_update t _ f

theorem mem_keys_insert {t : Table κ ρ} {k k' : κ} {r : ρ} :
    k' ∈ (t.insert k r).keys ↔ k' = k ∨ k' ∈ t.keys := by
  rw [mem_keys, mem_keys, get?_insert]
  split_ifs with h <;> simp [h]

theorem mem_keys_erase {t : Table κ ρ} {k k' : κ} :
    k' ∈ (t.erase k).keys ↔ k' ≠ k ∧ k' ∈ t.keys := by
  rw [mem_keys, mem_keys, get?_erase]
  split_ifs with h <;> simp [h]

theorem values_sublist {t t' : Table κ ρ} (h : ∀ k r, t'.get? k = some r → t.get? k = some r) :
    t'.values.Sublist t.values := by
  have hdelete : t' = t.delete fun k _ => (t'.get? k).isNone := by
    ext k : 1
    cases ht : t'.get? k with
    | none => cases ht' : t.get? k <;> simp [Option.filter, ht, ht']
    | some r => simp [h k r ht, Option.filter, ht]
  have hrows : ∀ p : κ → ρ → Bool, (t.delete p).rows = t.rows.filter fun x => !p x.1 x.2 := by
    intro p
    rw [delete, filterMap, ← List.filterMap_eq_filter]
    refine List.filterMap_congr fun x _ => ?_
    cases hp : p x.1 x.2 <;> simp [Option.guard, hp]
  rw [hdelete, values, values, hrows]
  exact List.filter_sublist.map Prod.snd

def find? (t : Table κ ρ) (p : κ → ρ → Bool) : Option (κ × ρ) := t.rows.find? fun x => p x.1 x.2

def any (t : Table κ ρ) (p : κ → ρ → Bool) : Bool := t.rows.any fun x => p x.1 x.2

def count (t : Table κ ρ) (p : κ → ρ → Bool) : ℕ := t.rows.countP fun x => p x.1 x.2

theorem find?_eq_some {t : Table κ ρ} {p : κ → ρ → Bool} {k : κ} {r : ρ}
    (h : t.find? p = some (k, r)) : t.get? k = some r ∧ p k r = true := by
  change t.rows.find? (fun x => p x.1 x.2) = some (k, r) at h
  exact ⟨get?_eq_some_iff.mpr (List.mem_of_find?_eq_some h), by simpa using List.find?_some h⟩

theorem find?_of_unique {t : Table κ ρ} {p : κ → ρ → Bool} {k : κ} {r : ρ} (hr : t.get? k = some r)
    (hp : p k r) (hunique : ∀ k' r', t.get? k' = some r' → p k' r' → k' = k) :
    t.find? p = some (k, r) := by
  have hsome : (t.find? p).isSome := by
    rw [find?, List.find?_isSome]
    exact ⟨(k, r), get?_eq_some_iff.mp hr, hp⟩
  obtain ⟨⟨k', r'⟩, hfind⟩ := Option.isSome_iff_exists.mp hsome
  obtain ⟨hr', hp'⟩ := find?_eq_some hfind
  obtain rfl := hunique k' r' hr' hp'
  cases hr.symm.trans hr'
  exact hfind

theorem any_eq_true {t : Table κ ρ} {p : κ → ρ → Bool} :
    t.any p = true ↔ ∃ k r, t.get? k = some r ∧ p k r = true := by
  simp only [any, List.any_eq_true, get?_eq_some_iff]
  constructor
  · rintro ⟨⟨k, r⟩, hm, hp⟩
    exact ⟨k, r, hm, hp⟩
  · rintro ⟨k, r, hm, hp⟩
    exact ⟨(k, r), hm, hp⟩

theorem any_eq_false {t : Table κ ρ} {p : κ → ρ → Bool} :
    t.any p = false ↔ ∀ k r, t.get? k = some r → p k r = false := by
  rw [← Bool.not_eq_true, any_eq_true]
  push Not
  simp

section Fold

variable {α : Type} {key : α → κ} {value : α → ρ} {l : List α} {t : Table κ ρ} {k : κ}

/-- What is found after a list of writes was there before, or was written. -/
theorem get?_foldl_insert {r : ρ}
    (h : (l.foldl (fun t a => t.insert (key a) (value a)) t).get? k = some r) :
    t.get? k = some r ∨ ∃ a ∈ l, key a = k ∧ value a = r := by
  induction l generalizing t with
  | nil => exact .inl h
  | cons a l ih =>
    rcases ih h with hold | ⟨b, hb, hkey⟩
    · rcases get?_insert_eq_some.mp hold with ⟨rfl, rfl⟩ | ⟨-, hold⟩
      · exact .inr ⟨a, List.mem_cons_self, rfl, rfl⟩
      · exact .inl hold
    · exact .inr ⟨b, List.mem_cons_of_mem _ hb, hkey⟩

theorem isSome_get?_foldl_insert (h : (t.get? k).isSome ∨ ∃ a ∈ l, key a = k) :
    ((l.foldl (fun t a => t.insert (key a) (value a)) t).get? k).isSome := by
  induction l generalizing t with
  | nil => simpa using h
  | cons a l ih =>
    refine ih ?_
    rw [get?_insert]
    split_ifs with hk
    · exact .inl rfl
    · refine h.imp_right fun ⟨b, hb, hkey⟩ => ⟨b, ?_, hkey⟩
      exact (List.mem_cons.mp hb).resolve_left fun hba => hk (hkey.symm.trans (congrArg key hba))

end Fold

end Table
end UniDERP
