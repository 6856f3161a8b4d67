import Mathlib.Data.List.DropRight
import Mathlib.Tactic

namespace UniDERP

section Trim

variable {α β : Type} {p : α → Bool} {l w w' : List α} {a : α}

/-- Cut off both ends what `p` holds of. -/
def trim (p : α → Bool) (l : List α) : List α := (l.dropWhile p).rdropWhile p

/-- Cut off one last element if it is `a`. -/
def trimSuffix [DecidableEq α] (a : α) (l : List α) : List α :=
  if l.getLast? = some a then l.dropLast else l

theorem rdropWhile_append_all (hw : ∀ x ∈ w, p x) : (l ++ w).rdropWhile p = l.rdropWhile p := by
  induction w using List.reverseRecOn with
  | nil => simp
  | append_singleton w x ih =>
    rw [← List.append_assoc, List.rdropWhile_concat_pos _ _ _ (hw x (by simp))]
    exact ih fun y hy => hw y (by simp [hy])

theorem trim_surrounded (hw : ∀ x ∈ w, p x) (hw' : ∀ x ∈ w', p x) :
    trim p (w ++ l ++ w') = trim p l := by
  have hnone : w.dropWhile p = [] := List.dropWhile_eq_nil_iff.mpr hw
  unfold trim
  rw [List.append_assoc, List.dropWhile_append, hnone]
  simp only [List.isEmpty_nil, if_true]
  rw [List.dropWhile_append]
  split_ifs with hl
  · have hblank : w'.dropWhile p = [] := List.dropWhile_eq_nil_iff.mpr hw'
    rw [List.isEmpty_iff.mp hl, hblank]
  · exact rdropWhile_append_all hw'

theorem trim_map {f : α → β} {q : β → Bool} (hf : ∀ x, q (f x) = p x) :
    trim q (l.map f) = (trim p l).map f := by
  have hp : q ∘ f = p := funext hf
  unfold trim
  simp only [List.rdropWhile, List.dropWhile_map, ← List.map_reverse, hp]

theorem trim_eq_self (hhead : ∀ x, l.head? = some x → p x = false)
    (hlast : ∀ x, l.getLast? = some x → p x = false) : trim p l = l := by
  have hdrop : l.dropWhile p = l := by
    cases l with
    | nil => rfl
    | cons x l => simp [hhead x rfl]
  unfold trim
  rw [hdrop, List.rdropWhile_eq_self_iff]
  intro hl
  simp [hlast _ (List.getLast?_eq_some_getLast hl)]

theorem trim_append_singleton (ha : p a = false) :
    trim p (l ++ [a]) = l.dropWhile p ++ [a] := by
  unfold trim
  rw [List.dropWhile_append]
  split_ifs with hl
  · simp [List.isEmpty_iff.mp hl, ha, List.rdropWhile_singleton]
  · exact List.rdropWhile_concat_neg _ _ _ (by simp [ha])

variable [DecidableEq α] [DecidableEq β]

theorem trimSuffix_append_singleton : trimSuffix a (l ++ [a]) = l := by
  simp [trimSuffix]

theorem trimSuffix_eq_self (h : l.getLast? ≠ some a) : trimSuffix a l = l := if_neg h

theorem trimSuffix_map {f : α → β} {b : β} (hf : ∀ x, f x = b ↔ x = a) :
    trimSuffix b (l.map f) = (trimSuffix a l).map f := by
  have hlast : (l.map f).getLast? = some b ↔ l.getLast? = some a := by
    simp [List.getLast?_map, hf]
  unfold trimSuffix
  simp only [hlast]
  split_ifs <;> simp [List.map_dropLast]

end Trim

section Pieces

variable {α : Type} [DecidableEq α] {a x : α} {l : List α}

theorem mem_piece_of_mem (hx : x ∈ l) (hne : x ≠ a) : ∃ piece ∈ l.splitOn a, x ∈ piece := by
  induction l with
  | nil => cases hx
  | cons y l ih =>
    rw [List.splitOn, List.splitOnP_cons_eq_if_modifyHead, ← List.splitOn]
    split_ifs with hy
    · have hx' : x ∈ l := by
        rcases List.mem_cons.mp hx with rfl | hx
        · exact absurd (by simpa using hy) hne
        · exact hx
      obtain ⟨piece, hpiece, hmem⟩ := ih hx'
      exact ⟨piece, by simp [hpiece], hmem⟩
    · obtain ⟨first, rest, hsplit⟩ := List.exists_cons_of_ne_nil (List.splitOnP_ne_nil (· == a) l)
      rw [List.splitOn, hsplit] at ih ⊢
      rcases List.mem_cons.mp hx with rfl | hx
      · exact ⟨x :: first, by simp, by simp⟩
      · obtain ⟨piece, hpiece, hmem⟩ := ih hx
        rcases List.mem_cons.mp hpiece with rfl | hpiece
        · exact ⟨y :: piece, by simp, by simp [hmem]⟩
        · exact ⟨piece, by simp [hpiece], hmem⟩

theorem splitOn_append_cons (l₁ l₂ : List α) :
    (l₁ ++ a :: l₂).splitOn a = l₁.splitOn a ++ l₂.splitOn a :=
  List.splitOnP_append_cons l₁ l₂ (by simp)

theorem nil_mem_splitOn_concat : [] ∈ (l ++ [a]).splitOn a := by
  rw [splitOn_append_cons]
  simp [List.splitOn]

theorem nil_mem_splitOn_cons : [] ∈ (a :: l).splitOn a := by
  rw [← List.nil_append (a :: l), splitOn_append_cons]
  simp [List.splitOn]

theorem two_le_length_splitOn (ha : a ∈ l) : 2 ≤ (l.splitOn a).length := by
  obtain ⟨l₁, l₂, rfl⟩ := List.append_of_mem ha
  have h₁ := List.length_pos_of_ne_nil (List.splitOnP_ne_nil (· == a) l₁)
  have h₂ := List.length_pos_of_ne_nil (List.splitOnP_ne_nil (· == a) l₂)
  rw [splitOn_append_cons, List.length_append]
  exact Nat.add_le_add h₁ h₂

end Pieces

theorem ascii_cases {P : Char → Prop} (h : ∀ n < 128, P (.ofNat n)) {c : Char}
    (hc : c.toNat < 128) : P c := by
  rw [← Char.ofNat_toNat c]
  exact h _ hc

inductive Rune
  | char (c : Char)
  /-- A byte that is no part of a UTF-8 sequence. -/
  | bad (b : UInt8)
  deriving DecidableEq, Repr

abbrev Text := List Rune

def Rune.size : Rune → ℕ
  | .char c => c.utf8Size
  | .bad _ => 1

def Text.len (s : Text) : ℕ := (s.map Rune.size).sum

def Text.ofString (s : String) : Text := s.toList.map .char

def Text.toString (s : Text) : String :=
  String.ofList (s.filterMap fun r => match r with | .char c => some c | .bad _ => none)

theorem Text.toString_ofString (s : String) : (Text.ofString s).toString = s := by
  simp [Text.ofString, Text.toString, List.filterMap_map]

theorem Text.ofString_toString {s : Text} (h : ∀ r ∈ s, ∃ c, r = .char c) :
    Text.ofString s.toString = s := by
  unfold Text.ofString Text.toString
  rw [String.toList_ofList]
  induction s with
  | nil => rfl
  | cons r s ih =>
    obtain ⟨c, rfl⟩ := h r (by simp)
    simpa using ih fun x hx => h x (by simp [hx])

end UniDERP
