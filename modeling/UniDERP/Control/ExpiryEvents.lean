import UniDERP.Control.EventEdits

namespace UniDERP

def Event.opens (grant : String) (e : Event) : Bool :=
  e.resource = .grant ∧ e.resourceID = grant ∧ e.kind = .authorizationExpired ∧ e.resolvedAt = 0

def DB.openExpiries (db : DB) (owner grant : String) : ℕ :=
  db.events.countP fun e => e.ownerID = owner ∧ e.opens grant

section Counting

variable {db : DB} {now : Int} {owner owner' grant grant' : String}

theorem openExpiries_pos : 0 < db.openExpiries owner grant ↔
    ∃ e ∈ db.events, e.ownerID = owner ∧ e.opens grant := by
  simp [DB.openExpiries, List.countP_pos_iff]

theorem openExpiries_eq_zero : db.openExpiries owner grant = 0 ↔
    ∀ e ∈ db.events, e.ownerID = owner → ¬ e.opens grant := by
  simp [DB.openExpiries, List.countP_eq_zero]

theorem openExpiries_addEvent {e : Event} :
    (db.addEvent e).openExpiries owner grant =
      db.openExpiries owner grant + if e.ownerID = owner ∧ e.opens grant then 1 else 0 := by
  simp [DB.openExpiries, DB.addEvent, List.countP_append, List.countP_cons]

/-- An account has an open event afterwards, and no second one. -/
theorem openExpiries_expiryEvent : (expiryEvent now grant owner db).openExpiries owner' grant' =
    if owner' = owner ∧ grant' = grant then max 1 (db.openExpiries owner grant)
    else db.openExpiries owner' grant' := by
  have hany : (db.events.any fun e => e.ownerID = owner ∧ e.resource = .grant ∧
      e.resourceID = grant ∧ e.kind = .authorizationExpired ∧ e.resolvedAt = 0) = true ↔
      0 < db.openExpiries owner grant := by
    rw [openExpiries_pos]
    simp [Event.opens]
  rw [expiryEvent]
  by_cases hopen : 0 < db.openExpiries owner grant
  · rw [if_pos (hany.mpr hopen)]
    split_ifs with hsame
    · rw [hsame.1, hsame.2]
      omega
    · rfl
  · rw [if_neg fun h => hopen (hany.mp h), openExpiries_addEvent]
    by_cases hsame : owner' = owner ∧ grant' = grant
    · rw [if_pos hsame, hsame.1, hsame.2, if_pos (by simp [Event.opens])]
      omega
    · rw [if_neg hsame, if_neg, Nat.add_zero]
      rintro ⟨rfl, hopens⟩
      simp only [Event.opens, decide_eq_true_eq, true_and] at hopens
      exact hsame ⟨rfl, hopens.1.symm⟩

theorem openExpiries_resolveEvents {at_ : Int} {p : Event → Bool}
    (hp : ∀ e, p e → ¬ e.opens grant) :
    (db.resolveEvents at_ p).openExpiries owner grant = db.openExpiries owner grant := by
  rw [DB.openExpiries, DB.openExpiries, DB.resolveEvents, List.countP_map]
  refine List.countP_congr fun e _ => ?_
  by_cases he : p e ∧ e.resolvedAt = 0
  · have hother : e.resource = .grant → e.resourceID = grant → e.kind ≠ .authorizationExpired :=
      fun hr hid hk => hp e he.1 (by simp [Event.opens, hr, hid, hk, he.2])
    simp only [Function.comp, he, and_self, if_true, Event.opens, decide_eq_true_eq]
    tauto
  · simp [Function.comp, he]

theorem openExpiries_resolved (hnow : unix now ≠ 0) :
    (db.resolveEvents (unix now) fun e => e.resource = .grant ∧ e.resourceID = grant ∧
      e.kind = .authorizationExpired).openExpiries owner grant = 0 := by
  rw [openExpiries_eq_zero]
  intro e he _ hopens
  simp only [DB.resolveEvents, List.mem_map] at he
  obtain ⟨e₀, -, rfl⟩ := he
  split_ifs at hopens with hcond
  · simp [Event.opens, hnow] at hopens
  · simp only [Event.opens, decide_eq_true_eq] at hopens hcond
    exact hcond ⟨⟨hopens.1, hopens.2.1, hopens.2.2.1⟩, hopens.2.2.2⟩

end Counting

theorem Step.openExpiries {E : Env} {db db' : DB} {a : Commit} {owner grant : String}
    (h : Step E db a db') (hop : a.op ≠ .refreshExpiryEvents) :
    db'.openExpiries owner grant = db.openExpiries owner grant := by
  refine h.edits.countP_eq (fun e he => ?_) (fun e he hopens => ?_) fun e he hopens => ?_
  · simp only [Event.opens, decide_eq_true_eq] at he
    exact he.2.2.2.2
  · simp only [Event.opens, decide_eq_true_eq] at hopens
    cases he with
    | tailnet resource => simp [hopens.2.1] at resource
    | node resource => simp [hopens.2.1] at resource
    | grant call => exact hop call
  · simp only [Event.opens, decide_eq_true_eq] at hopens
    cases he with
    | tailnet _ kind => simp [hopens.2.2.2.1] at kind
    | node resource => simp [hopens.2.1] at resource
    | grant call => exact hop call

/-- Both owners of an expired grant have been told, and nobody has an open event of another. -/
def Told (ended : Table String Bool) (now : Int) (db : DB) (x : Pair × Grant) : Prop :=
  ∀ n tn, db.nodes.get? (ofLex x.1).1 = some n → db.tailnets.get? (ofLex x.1).2 = some tn →
    (Expired ended now x.2 → 0 < db.openExpiries n.ownerID x.2.id ∧
      0 < db.openExpiries tn.ownerID x.2.id) ∧
    (¬ Expired ended now x.2 → ∀ owner, db.openExpiries owner x.2.id = 0)

section Sweep

variable {ended : Table String Bool} {now : Int} {db : DB} {x : Pair × Grant} {n : Node}
  {tn : Tailnet} {owner grant : String} {xs : List (Pair × Grant)}

/-- The owners of an expired grant have an event each. -/
theorem openExpiries_of_expired (hn : db.nodes.get? (ofLex x.1).1 = some n)
    (htn : db.tailnets.get? (ofLex x.1).2 = some tn) (h : Expired ended now x.2) :
    (updateExpiry ended now db x).openExpiries owner grant =
      if (owner = n.ownerID ∨ owner = tn.ownerID) ∧ grant = x.2.id then
        max 1 (db.openExpiries owner grant)
      else db.openExpiries owner grant := by
  rw [updateExpiry_of_expired hn htn h]
  by_cases hgrant : grant = x.2.id
  · subst hgrant
    by_cases howners : tn.ownerID = n.ownerID
    · by_cases ho : owner = n.ownerID
      · simp [howners, ho, openExpiries_expiryEvent]
      · simp [howners, ho, openExpiries_expiryEvent]
    · by_cases ho : owner = n.ownerID
      · simp [howners, ho, openExpiries_expiryEvent, Ne.symm howners]
      · by_cases ho' : owner = tn.ownerID
        · simp [howners, ho', openExpiries_expiryEvent]
        · simp [howners, ho, ho', openExpiries_expiryEvent]
  · by_cases howners : tn.ownerID = n.ownerID
    · simp [howners, openExpiries_expiryEvent, hgrant]
    · simp [howners, openExpiries_expiryEvent, hgrant]

theorem openExpiries_updateExpiry_ne (hid : x.2.id ≠ grant) :
    (updateExpiry ended now db x).openExpiries owner grant = db.openExpiries owner grant := by
  apply updateExpiry_cases (P := fun db' => db'.openExpiries owner grant = _)
  · rfl
  · intro n tn hn htn h
    rw [openExpiries_of_expired hn htn h, if_neg fun hg => hid hg.2.symm]
  · intro n tn hn htn h
    refine openExpiries_resolveEvents fun e he hopens => ?_
    simp only [decide_eq_true_eq, Event.opens] at he hopens
    exact hid (he.2.1.symm.trans hopens.2.1)

theorem openExpiries_updateExpiry_le (hnow : unix now ≠ 0)
    (h : ∀ owner grant, db.openExpiries owner grant ≤ 1) :
    (updateExpiry ended now db x).openExpiries owner grant ≤ 1 := by
  have hone := h owner grant
  by_cases hid : x.2.id = grant
  · subst hid
    apply updateExpiry_cases (P := fun db' => db'.openExpiries owner x.2.id ≤ 1)
    · exact hone
    · intro n tn hn htn hexp
      rw [openExpiries_of_expired hn htn hexp]
      split_ifs
      · omega
      · exact hone
    · intro n tn hn htn hexp
      rw [openExpiries_resolved hnow]
      omega
  · rwa [openExpiries_updateExpiry_ne hid]

theorem updateExpiry_told (hnow : unix now ≠ 0) :
    Told ended now (updateExpiry ended now db x) x := by
  intro n tn hn htn
  have hn₀ : db.nodes.get? (ofLex x.1).1 = some n := by
    rw [updateExpiry_frame] at hn
    exact hn
  have htn₀ : db.tailnets.get? (ofLex x.1).2 = some tn := by
    rw [updateExpiry_frame] at htn
    exact htn
  constructor
  · intro hexp
    rw [openExpiries_of_expired hn₀ htn₀ hexp, openExpiries_of_expired hn₀ htn₀ hexp,
      if_pos ⟨.inl rfl, rfl⟩, if_pos ⟨.inr rfl, rfl⟩]
    omega
  · intro hexp owner
    rw [updateExpiry_of_not_expired hn₀ htn₀ hexp]
    exact openExpiries_resolved hnow

/-- A row whose owners have been told changes nothing. -/
theorem Told.updateExpiry_eq (h : Told ended now db x) : updateExpiry ended now db x = db := by
  have hopen : ∀ owner, 0 < db.openExpiries owner x.2.id →
      expiryEvent now x.2.id owner db = db := by
    intro owner hpos
    obtain ⟨e, he, howner, hopens⟩ := openExpiries_pos.mp hpos
    refine if_pos (List.any_eq_true.mpr ⟨e, he, ?_⟩)
    simp only [Event.opens, decide_eq_true_eq] at hopens
    exact decide_eq_true ⟨howner, hopens⟩
  apply updateExpiry_cases (P := fun db' => db' = db)
  · rfl
  · intro n tn hn htn hexp
    obtain ⟨hnode, htailnet⟩ := (h n tn hn htn).1 hexp
    rw [updateExpiry_of_expired hn htn hexp, hopen _ hnode, hopen _ htailnet, ite_self]
  · intro n tn hn htn hexp
    have hmap : (db.events.map fun e => if (decide (e.resource = .grant ∧
        e.resourceID = x.2.id ∧ e.kind = .authorizationExpired)) = true ∧ e.resolvedAt = 0
        then { e with resolvedAt := unix now } else e) = db.events := by
      refine (List.map_congr_left fun e he => ?_).trans (List.map_id _)
      have hnone := openExpiries_eq_zero.mp ((h n tn hn htn).2 hexp e.ownerID) e he rfl
      simp only [Event.opens, decide_eq_true_eq] at hnone
      refine if_neg fun hcond => hnone ?_
      have hkind := of_decide_eq_true hcond.1
      exact ⟨hkind.1, hkind.2.1, hkind.2.2, hcond.2⟩
    rw [DB.resolveEvents, hmap]

theorem openExpiries_sweep_ne (hids : ∀ x ∈ xs, x.2.id ≠ grant) :
    (xs.foldl (updateExpiry ended now) db).openExpiries owner grant =
      db.openExpiries owner grant := by
  induction xs generalizing db with
  | nil => rfl
  | cons x xs ih =>
    rw [List.foldl_cons, ih fun y hy => hids y (List.mem_cons_of_mem x hy),
      openExpiries_updateExpiry_ne (hids x List.mem_cons_self)]

theorem sweep_frame (ended : Table String Bool) (now : Int) (xs : List (Pair × Grant))
    (db : DB) : ∃ events,
      xs.foldl (updateExpiry ended now) db = { db with events := events } := by
  induction xs generalizing db with
  | nil => exact ⟨db.events, rfl⟩
  | cons x xs ih =>
    rw [List.foldl_cons, updateExpiry_frame]
    exact ih _

theorem sweep_le (hnow : unix now ≠ 0) (h : ∀ owner grant, db.openExpiries owner grant ≤ 1) :
    (xs.foldl (updateExpiry ended now) db).openExpiries owner grant ≤ 1 := by
  induction xs generalizing db with
  | nil => exact h _ _
  | cons x xs ih => exact ih fun owner grant => openExpiries_updateExpiry_le hnow h

theorem sweep_told (hnow : unix now ≠ 0) (hids : xs.Pairwise fun x y => x.2.id ≠ y.2.id)
    (hx : x ∈ xs) : Told ended now (xs.foldl (updateExpiry ended now) db) x := by
  induction xs generalizing db with
  | nil => cases hx
  | cons y ys ih =>
    obtain ⟨hy, hys⟩ := List.pairwise_cons.mp hids
    rw [List.foldl_cons]
    rcases List.mem_cons.mp hx with rfl | hx
    · intro n tn hn htn
      obtain ⟨events, hframe⟩ := sweep_frame ended now ys (updateExpiry ended now db x)
      have htold : Told ended now (updateExpiry ended now db x) x := updateExpiry_told hnow
      replace htold := htold n tn
        (by rw [hframe] at hn; exact hn) (by rw [hframe] at htn; exact htn)
      simpa only [openExpiries_sweep_ne fun z hz => (hy z hz).symm] using htold
    · exact ih hys hx

theorem sweep_eq_self (h : ∀ x ∈ xs, Told ended now db x) :
    xs.foldl (updateExpiry ended now) db = db := by
  induction xs with
  | nil => rfl
  | cons x xs ih =>
    rw [List.foldl_cons, (h x List.mem_cons_self).updateExpiry_eq]
    exact ih fun y hy => h y (List.mem_cons_of_mem x hy)

end Sweep

end UniDERP
