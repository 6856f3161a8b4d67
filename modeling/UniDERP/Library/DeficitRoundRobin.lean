import Mathlib.Tactic

namespace UniDERP

/-- A queue of the ring: what it may still send, and whether it had the quantum of its turn. -/
structure Share (ι : Type) where
  id : ι
  deficit : ℕ
  credit : Bool

namespace Share

variable {ι : Type} {q D : ℕ} {w : ι → ℕ}

def credited (q : ℕ) (w : ι → ℕ) (x : Share ι) : Share ι :=
  if x.credit then x else { x with deficit := x.deficit + q * w x.id, credit := true }

theorem credited_id (x : Share ι) : (x.credited q w).id = x.id := by
  unfold credited
  split_ifs <;> rfl

theorem credited_credit (x : Share ι) : (x.credited q w).credit := by
  unfold credited
  split_ifs with h
  · exact h
  · rfl

/-- Only the first queue may have had its quantum, and no deficit is more than `D` and a quantum. -/
structure Settled (q D : ℕ) (w : ι → ℕ) (ring : List (Share ι)) : Prop where
  credit : ∀ x ∈ ring.tail, x.credit = false
  deficit : ∀ x ∈ ring, x.deficit ≤ D + if x.credit then q * w x.id else 0

theorem Settled.rotate {x x' : Share ι} {rest : List (Share ι)} (h : Settled q D w (x :: rest))
    (hcredit : x'.credit = false) (hshort : x'.deficit ≤ D) : Settled q D w (rest ++ [x']) where
  credit y hy := by
    rcases List.mem_append.mp (List.mem_of_mem_tail hy) with hy | hy
    · exact h.credit y hy
    · rw [List.mem_singleton.mp hy]
      exact hcredit
  deficit y hy := by
    rcases List.mem_append.mp hy with hy | hy
    · exact h.deficit y (List.mem_cons_of_mem x hy)
    · rw [List.mem_singleton.mp hy, hcredit]
      simpa using hshort

theorem Settled.replace {x x' : Share ι} {rest : List (Share ι)} (h : Settled q D w (x :: rest))
    (hdeficit : x'.deficit ≤ D + if x'.credit then q * w x'.id else 0) :
    Settled q D w (x' :: rest) where
  credit y hy := h.credit y hy
  deficit y hy := by
    rcases List.mem_cons.mp hy with rfl | hy
    · exact hdeficit
    · exact h.deficit y (List.mem_cons_of_mem x hy)

/-- How far `a` is behind `b`, by its deficit and by the quantum that it had before `b`. -/
inductive Stands (q : ℕ) (w : ι → ℕ) (a b : ι) : List (Share ι) → ℤ → Prop
  | left {x y : Share ι} {v : ℤ} (hx : x.id = a) (hy : y.id = b) (hcredit : y.credit = false)
      (hv : v = x.deficit * w b - y.deficit * w a -
        (if x.credit then q * w a * w b else 0 : ℤ)) :
      Stands q w a b [x, y] v
  | right {x y : Share ι} {v : ℤ} (hx : x.id = b) (hy : y.id = a) (hcredit : y.credit = false)
      (hv : v = y.deficit * w b - x.deficit * w a -
        (if x.credit then 0 else q * w a * w b : ℤ)) :
      Stands q w a b [x, y] v

variable {a b : ι} {v : ℤ} {x y : Share ι}

theorem Stands.credit (h : Stands q w a b [x, y] v) : Stands q w a b [x.credited q w, y] v := by
  unfold credited
  split_ifs with hc
  · exact h
  · cases h with
    | left hx hy hcredit hv =>
      refine .left hx hy hcredit ?_
      rw [hv, hx, if_neg hc, if_pos rfl]
      push_cast
      ring
    | right hx hy hcredit hv =>
      refine .right hx hy hcredit ?_
      rw [hv, hx, if_neg hc, if_pos rfl]
      push_cast
      ring

theorem Stands.pass (h : Stands q w a b [x, y] v) (hc : x.credit) :
    Stands q w a b [y, { x with credit := false }] v := by
  cases h with
  | left hx hy hcredit hv =>
    refine .right hy hx rfl ?_
    rw [hv, hcredit, if_pos hc, if_neg Bool.false_ne_true]
  | right hx hy hcredit hv =>
    refine .left hy hx rfl ?_
    rw [hv, hcredit, if_pos hc, if_neg Bool.false_ne_true]

variable [DecidableEq ι]

/-- Turns of the ring in which no queue in `busy` is skipped, and what each queue sends in them.
A queue passes its turn on with a deficit of at most `D`. -/
inductive Moves (q D : ℕ) (w : ι → ℕ) (busy : ι → Prop) :
    List (Share ι) → (ι → ℕ) → List (Share ι) → Prop
  | refl (ring) : Moves q D w busy ring 0 ring
  | credit (x : Share ι) (rest : List (Share ι)) :
      Moves q D w busy (x :: rest) 0 (x.credited q w :: rest)
  | pass {x rest} (credit : x.credit) (short : x.deficit ≤ D) :
      Moves q D w busy (x :: rest) 0 (rest ++ [{ x with credit := false }])
  | serve {x rest n} (enough : n ≤ x.deficit) :
      Moves q D w busy (x :: rest) (Pi.single x.id n) ({ x with deficit := x.deficit - n } :: rest)
  | skip {x x' rest} (idle : ¬ busy x.id) (id : x'.id = x.id) (credit : x'.credit = false)
      (short : x'.deficit ≤ D) : Moves q D w busy (x :: rest) 0 (rest ++ [x'])
  | trans {ring ring₁ ring₂ sent sent'} (first : Moves q D w busy ring sent ring₁)
      (second : Moves q D w busy ring₁ sent' ring₂) : Moves q D w busy ring (sent + sent') ring₂

variable {busy : ι → Prop} {ring ring' : List (Share ι)} {sent : ι → ℕ}

theorem Moves.mono {busy' : ι → Prop} (h : Moves q D w busy ring sent ring')
    (hbusy : ∀ i, busy' i → busy i) : Moves q D w busy' ring sent ring' := by
  induction h with
  | refl ring => exact .refl ring
  | credit x rest => exact .credit x rest
  | pass credit short => exact .pass credit short
  | serve enough => exact .serve enough
  | skip idle id credit short => exact .skip (fun h => idle (hbusy _ h)) id credit short
  | trans _ _ ih ih' => exact ih.trans ih'

theorem Moves.credit_pass {x x' : Share ι} {rest : List (Share ι)} (hx : x' = x.credited q w)
    (hshort : x'.deficit ≤ D) :
    Moves q D w busy (x :: rest) 0 (rest ++ [{ x' with credit := false }]) := by
  subst hx
  have hcredit : Moves q D w busy (x :: rest) 0 (x.credited q w :: rest) := .credit x rest
  have hmoves := hcredit.trans (.pass (credited_credit x) hshort)
  rwa [add_zero] at hmoves

theorem Moves.credit_serve {x x' : Share ι} {rest : List (Share ι)} {n : ℕ}
    (hx : x' = x.credited q w) (henough : n ≤ x'.deficit) :
    Moves q D w busy (x :: rest) (Pi.single x.id n)
      ({ x' with deficit := x'.deficit - n } :: rest) := by
  subst hx
  have hcredit : Moves q D w busy (x :: rest) 0 (x.credited q w :: rest) := .credit x rest
  have hmoves := hcredit.trans (.serve henough)
  rw [zero_add] at hmoves
  rw [← credited_id (q := q) (w := w) x]
  exact hmoves

theorem Moves.settled (h : Moves q D w busy ring sent ring') (hs : Settled q D w ring) :
    Settled q D w ring' := by
  induction h with
  | refl ring => exact hs
  | credit x rest =>
    apply hs.replace
    have hx := hs.deficit x List.mem_cons_self
    unfold credited
    split_ifs with hc
    · simpa [hc] using hx
    · simpa [hc] using hx
    · simp_all
  | pass credit short => exact hs.rotate rfl short
  | @serve x rest n enough =>
    apply hs.replace
    have hx := hs.deficit x List.mem_cons_self
    exact (Nat.sub_le _ _).trans hx
  | skip idle id credit short => exact hs.rotate credit short
  | trans _ _ ih ih' => exact ih' (ih hs)

/-- The queues of `a` and `b`, in the order of the ring. -/
def duel (a b : ι) (ring : List (Share ι)) : List (Share ι) :=
  ring.filter fun x => x.id = a ∨ x.id = b

theorem Stands.serve (h : Stands q w a b [x, y] v) (hab : a ≠ b) {n : ℕ} (hn : n ≤ x.deficit) :
    ∃ v', Stands q w a b [{ x with deficit := x.deficit - n }, y] v' ∧
      ((Pi.single x.id n : ι → ℕ) a : ℤ) * w b - (Pi.single x.id n : ι → ℕ) b * w a = v - v' := by
  cases h with
  | left hx hy hcredit hv =>
    refine ⟨_, .left hx hy hcredit rfl, ?_⟩
    rw [hx, Pi.single_eq_same, Pi.single_eq_of_ne hab.symm, hv]
    push_cast [hn]
    ring
  | right hx hy hcredit hv =>
    refine ⟨_, .right hx hy hcredit rfl, ?_⟩
    rw [hx, Pi.single_eq_same, Pi.single_eq_of_ne hab, hv]
    push_cast [hn]
    ring

theorem duel_cons {rest : List (Share ι)} (h : x.id = a ∨ x.id = b) :
    duel a b (x :: rest) = x :: duel a b rest := List.filter_cons_of_pos (by simpa using h)

theorem duel_cons_of_not {rest : List (Share ι)} (h : ¬ (x.id = a ∨ x.id = b)) :
    duel a b (x :: rest) = duel a b rest := List.filter_cons_of_neg (by simpa using h)

theorem duel_append {rest : List (Share ι)} :
    duel a b (rest ++ ring) = duel a b rest ++ duel a b ring := List.filter_append ..

theorem Stands.head {rest : List (Share ι)} (h : Stands q w a b (duel a b (x :: rest)) v)
    (hx : x.id = a ∨ x.id = b) : ∃ y, duel a b rest = [y] ∧ Stands q w a b [x, y] v := by
  rw [duel_cons hx] at h
  generalize duel a b rest = others at h
  cases h with
  | @left _ y _ hx hy hcredit hv => exact ⟨y, rfl, .left hx hy hcredit hv⟩
  | @right _ y _ hx hy hcredit hv => exact ⟨y, rfl, .right hx hy hcredit hv⟩

theorem Moves.stands (h : Moves q D w busy ring sent ring') (hab : a ≠ b) (ha : busy a)
    (hb : busy b) (hv : Stands q w a b (duel a b ring) v) :
    ∃ v', Stands q w a b (duel a b ring') v' ∧ (sent a * w b - sent b * w a : ℤ) = v - v' := by
  induction h generalizing v with
  | refl ring => exact ⟨v, hv, by simp⟩
  | credit x rest =>
    have hid : (x.credited q w).id = x.id := credited_id x
    refine ⟨v, ?_, by simp⟩
    by_cases hx : x.id = a ∨ x.id = b
    · obtain ⟨y, hrest, hy⟩ := hv.head hx
      rw [duel_cons (hid ▸ hx), hrest]
      exact hy.credit
    · rw [duel_cons_of_not hx] at hv
      rw [duel_cons_of_not (hid ▸ hx)]
      exact hv
  | @pass x rest credit short =>
    refine ⟨v, ?_, by simp⟩
    rw [duel_append]
    by_cases hx : x.id = a ∨ x.id = b
    · obtain ⟨y, hrest, hy⟩ := hv.head hx
      rw [duel_cons (x := { x with credit := false }) hx, hrest]
      exact hy.pass credit
    · rw [duel_cons_of_not hx] at hv
      rw [duel_cons_of_not (x := { x with credit := false }) hx]
      simpa [duel] using hv
  | @serve x rest n enough =>
    by_cases hx : x.id = a ∨ x.id = b
    · obtain ⟨y, hrest, hy⟩ := hv.head hx
      rw [duel_cons (x := { x with deficit := x.deficit - n }) hx, hrest]
      exact hy.serve hab enough
    · obtain ⟨hxa, hxb⟩ := not_or.mp hx
      rw [duel_cons_of_not hx] at hv
      refine ⟨v, ?_, ?_⟩
      · rw [duel_cons_of_not (x := { x with deficit := x.deficit - n }) hx]
        exact hv
      · rw [Pi.single_eq_of_ne (Ne.symm hxa), Pi.single_eq_of_ne (Ne.symm hxb)]
        simp
  | @skip x x' rest idle id credit short =>
    have hx : ¬ (x.id = a ∨ x.id = b) := by
      rintro (rfl | rfl)
      · exact idle ha
      · exact idle hb
    refine ⟨v, ?_, by simp⟩
    rw [duel_cons_of_not hx] at hv
    rw [duel_append, duel_cons_of_not (id ▸ hx)]
    simpa [duel] using hv
  | trans _ _ ih ih' =>
    obtain ⟨v₁, hv₁, h₁⟩ := ih hv
    obtain ⟨v₂, hv₂, h₂⟩ := ih' hv₁
    refine ⟨v₂, hv₂, ?_⟩
    push_cast [Pi.add_apply]
    linarith

theorem duel_single {rest : List (Share ι)} (hnodup : (rest.map (·.id)).Nodup)
    (ha : a ∉ rest.map (·.id)) (hb : b ∈ rest.map (·.id)) :
    ∃ y ∈ rest, y.id = b ∧ duel a b rest = [y] := by
  induction rest with
  | nil => cases hb
  | cons z rest ih =>
    rw [List.map_cons, List.nodup_cons] at hnodup
    rw [List.map_cons, List.mem_cons, not_or] at ha
    by_cases hz : z.id = b
    · refine ⟨z, List.mem_cons_self, hz, ?_⟩
      have hnone : duel a b rest = [] := by
        apply List.filter_eq_nil_iff.mpr
        intro y hy hid
        rcases of_decide_eq_true hid with rfl | rfl
        · exact ha.2 (List.mem_map_of_mem hy)
        · exact hnodup.1 (hz ▸ List.mem_map_of_mem hy)
      rw [duel_cons (.inr hz), hnone]
    · have hb' : b ∈ rest.map (·.id) := by simpa [Ne.symm hz] using hb
      obtain ⟨y, hy, hid, hduel⟩ := ih hnodup.2 ha.2 hb'
      refine ⟨y, List.mem_cons_of_mem z hy, hid, ?_⟩
      rw [duel_cons_of_not (not_or.mpr ⟨Ne.symm ha.1, hz⟩), hduel]

theorem exists_stands (hnodup : (ring.map (·.id)).Nodup) (hab : a ≠ b) (ha : a ∈ ring.map (·.id))
    (hb : b ∈ ring.map (·.id)) (hcredit : ∀ x ∈ ring.tail, x.credit = false) :
    ∃ v, Stands q w a b (duel a b ring) v := by
  induction ring with
  | nil => cases ha
  | cons x rest ih =>
    rw [List.map_cons, List.nodup_cons] at hnodup
    rw [List.map_cons, List.mem_cons] at ha hb
    by_cases hxa : x.id = a
    · have hb' := hb.resolve_left fun h => hab (hxa.symm.trans h.symm)
      obtain ⟨y, hy, hid, hduel⟩ := duel_single hnodup.2 (hxa ▸ hnodup.1) hb'
      rw [duel_cons (.inl hxa), hduel]
      exact ⟨_, .left hxa hid (hcredit y hy) rfl⟩
    by_cases hxb : x.id = b
    · have ha' := ha.resolve_left fun h => hxa h.symm
      obtain ⟨y, hy, hid, hduel⟩ := duel_single hnodup.2 (hxb ▸ hnodup.1) ha'
      have hswap : duel a b rest = duel b a rest := by simp only [duel, or_comm]
      rw [duel_cons (.inr hxb), hswap, hduel]
      exact ⟨_, .right hxb hid (hcredit y hy) rfl⟩
    · rw [duel_cons_of_not (not_or.mpr ⟨hxa, hxb⟩)]
      exact ih hnodup.2 (ha.resolve_left (Ne.symm hxa)) (hb.resolve_left (Ne.symm hxb))
        fun y hy => hcredit y (List.mem_of_mem_tail hy)

theorem Stands.bound (h : Stands q w a b (duel a b ring) v) (hs : Settled q D w ring) :
    -(D * w a + q * w a * w b : ℤ) ≤ v ∧ v ≤ D * w b := by
  have hdeficit (x : Share ι) (hx : x ∈ duel a b ring) :
      x.deficit ≤ D + if x.credit then q * w x.id else 0 := hs.deficit x (List.mem_of_mem_filter hx)
  generalize duel a b ring = others at h hdeficit
  -- A deficit times the other weight, which is what the potential counts.
  have hscaled {x : Share ι} (hx : x ∈ others) (n : ℕ) :
      (x.deficit * n : ℤ) ≤ D * n + (if x.credit then q * w x.id * n else 0 : ℤ) := by
    have hle : x.deficit * n ≤ (D + if x.credit then q * w x.id else 0) * n :=
      Nat.mul_le_mul_right n (hdeficit x hx)
    have hcast : (x.deficit * n : ℤ) ≤ ((D + if x.credit then q * w x.id else 0) * n : ℕ) := by
      exact_mod_cast hle
    split_ifs at hcast ⊢ <;> push_cast at hcast <;> linarith
  cases h with
  | @left x y _ hx hy hcredit hv =>
    have h₁ := hscaled (x := x) (by simp) (w b)
    have h₂ := hscaled (x := y) (by simp) (w a)
    rw [hx] at h₁
    rw [hcredit, if_neg Bool.false_ne_true] at h₂
    have h₃ : (0 : ℤ) ≤ x.deficit * w b := by positivity
    have h₄ : (0 : ℤ) ≤ y.deficit * w a := by positivity
    have h₅ : (0 : ℤ) ≤ q * w a * w b := by positivity
    split_ifs at h₁ hv <;> constructor <;> linarith
  | @right x y _ hx hy hcredit hv =>
    have h₁ := hscaled (x := x) (by simp) (w a)
    have h₂ := hscaled (x := y) (by simp) (w b)
    rw [hx] at h₁
    rw [hcredit, if_neg Bool.false_ne_true] at h₂
    have h₃ : (0 : ℤ) ≤ x.deficit * w a := by positivity
    have h₄ : (0 : ℤ) ≤ y.deficit * w b := by positivity
    have h₅ : (0 : ℤ) ≤ q * w a * w b := by positivity
    split_ifs at h₁ hv <;> constructor <;> linarith

theorem Moves.fair (h : Moves q D w busy ring sent ring') (hs : Settled q D w ring)
    (hnodup : (ring.map (·.id)).Nodup) (hab : a ≠ b) (ha : a ∈ ring.map (·.id))
    (hb : b ∈ ring.map (·.id)) (hbusy : busy a ∧ busy b) :
    |(sent a * w b - sent b * w a : ℤ)| ≤ q * w a * w b + D * (w a + w b) := by
  obtain ⟨v, hv⟩ := exists_stands (q := q) (w := w) hnodup hab ha hb hs.credit
  obtain ⟨v', hv', hsent⟩ := h.stands hab hbusy.1 hbusy.2 hv
  obtain ⟨hlow, hhigh⟩ := hv.bound hs
  obtain ⟨hlow', hhigh'⟩ := hv'.bound (h.settled hs)
  rw [hsent, abs_le]
  constructor <;> linarith

end Share

/-- How many turns a queue still passes on, at most, before its deficit reaches `n`, if it gets
`quota` in each turn. -/
def turnsLeft (quota n deficit : ℕ) (credit : Bool) : ℕ :=
  let rounds := (n - deficit + (quota - 1)) / quota
  if credit then rounds else rounds - 1

variable {quota n deficit : ℕ}

theorem turnsLeft_credit (hquota : 0 < quota) :
    turnsLeft quota n (deficit + quota) true = turnsLeft quota n deficit false := by
  simp only [turnsLeft, if_true, Bool.false_eq_true, if_false]
  by_cases h : quota ≤ n - deficit
  · have hsub : n - deficit + (quota - 1) = n - (deficit + quota) + (quota - 1) + quota := by omega
    rw [hsub, Nat.add_div_right _ hquota, Nat.succ_sub_one]
  · have hzero : (n - (deficit + quota) + (quota - 1)) / quota = 0 := Nat.div_eq_of_lt (by omega)
    have hle : (n - deficit + (quota - 1)) / quota < 2 := Nat.div_lt_of_lt_mul (by omega)
    omega

theorem turnsLeft_short (hquota : 0 < quota) (h : deficit < n) :
    turnsLeft quota n deficit false + 1 = turnsLeft quota n deficit true := by
  simp only [turnsLeft, if_true, Bool.false_eq_true, if_false]
  have hpos : 0 < (n - deficit + (quota - 1)) / quota := Nat.div_pos (by omega) hquota
  omega

theorem turnsLeft_le {k : ℕ} {credit : Bool} (hquota : 0 < quota) (h : n ≤ quota * k) :
    turnsLeft quota n deficit credit ≤ k := by
  have hrounds : (n - deficit + (quota - 1)) / quota ≤ k := by
    have hlt : (n - deficit + (quota - 1)) / quota < k + 1 := by
      apply Nat.div_lt_of_lt_mul
      rw [Nat.mul_succ]
      omega
    omega
  unfold turnsLeft
  dsimp only
  split_ifs <;> omega

end UniDERP
