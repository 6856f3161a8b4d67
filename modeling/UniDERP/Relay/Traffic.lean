import UniDERP.Library.Table
import UniDERP.Relay.Scheduler

namespace UniDERP.Relay

/-- `uniderpTraffic` without its id. -/
structure Counter where
  group : GroupID
  queued : ℤ := 0
  rx : ℕ := 0
  tx : ℕ := 0
  deriving DecidableEq, Repr

/-- The counters of the policy's tailnets, all counters that were made, and the latest id. -/
structure Traffic where
  current : Table String ℕ := ∅
  counters : Table ℕ Counter := ∅
  sequence : ℕ := 0

def groupOf (g : Group) : GroupID := if g = .shared then .shared else .owner

/-- One rule of the loop of `ApplyUniDERPPolicy`: a tailnet of the old policy keeps its counter. -/
def Traffic.addRule (old : Table String ℕ) (t : Traffic) (rule : TailnetQoS) : Traffic :=
  match old.get? rule.tailnetID with
  | some id =>
    { t with
      current := t.current.insert rule.tailnetID id
      counters := t.counters.modify id fun c => { c with group := groupOf rule.group } }
  | none =>
    { current := t.current.insert rule.tailnetID (t.sequence + 1)
      counters := t.counters.insert (t.sequence + 1) { group := groupOf rule.group }
      sequence := t.sequence + 1 }

def Traffic.install (rules : List TailnetQoS) (t : Traffic) : Traffic :=
  rules.foldl (Traffic.addRule t.current) { t with current := ∅ }

/-- `recordUniDERPTraffic` with a policy. -/
def Traffic.record (tailnet : String) (receive : Bool) (bytes : ℕ) (t : Traffic) : Traffic :=
  match t.current.get? tailnet with
  | none => t
  | some id =>
    { t with
      counters := t.counters.modify id fun c =>
        if receive then { c with rx := c.rx + bytes } else { c with tx := c.tx + bytes } }

structure Traffic.Sound (t : Traffic) : Prop where
  made : ∀ name id, t.current.get? name = some id → ∃ c, t.counters.get? id = some c
  bounded : ∀ id c, t.counters.get? id = some c → id ≤ t.sequence

structure Traffic.Grows (t t' : Traffic) : Prop where
  sequence : t.sequence ≤ t'.sequence
  kept : ∀ id c, t.counters.get? id = some c → ∃ g, t'.counters.get? id = some { c with group := g }
  fresh : ∀ id c, t'.counters.get? id = some c → t.counters.get? id = none → ∃ g, c = { group := g }

theorem Traffic.Grows.refl (t : Traffic) : t.Grows t :=
  ⟨le_rfl, fun _ c hc => ⟨c.group, hc⟩, fun _ _ hc hnone => by simp [hnone] at hc⟩

theorem Traffic.Grows.trans {t t' t'' : Traffic} (h : t.Grows t') (h' : t'.Grows t'') :
    t.Grows t'' := by
  refine ⟨h.sequence.trans h'.sequence, fun id c hc => ?_, fun id c hc hnone => ?_⟩
  · obtain ⟨g, hg⟩ := h.kept id c hc
    obtain ⟨g', hg'⟩ := h'.kept id _ hg
    exact ⟨g', hg'⟩
  · cases hmid : t'.counters.get? id with
    | none => exact h'.fresh id c hc hmid
    | some c₁ =>
      obtain ⟨g, rfl⟩ := h.fresh id c₁ hmid hnone
      obtain ⟨g', hg'⟩ := h'.kept id _ hmid
      exact ⟨g', Option.some.inj (hc.symm.trans hg')⟩

section Install

variable {t : Traffic} {old : Table String ℕ} {rule : TailnetQoS} {name : String}

theorem Traffic.addRule_current : ((t.addRule old rule).current.get? name).isSome ↔
    name = rule.tailnetID ∨ (t.current.get? name).isSome := by
  unfold Traffic.addRule
  split
  · rw [Table.get?_insert]
    split_ifs with h <;> simp [h]
  · rw [Table.get?_insert]
    split_ifs with h <;> simp [h]

theorem Traffic.Sound.addRule (h : t.Sound) (rule : TailnetQoS)
    (hold : ∀ name id, old.get? name = some id → ∃ c, t.counters.get? id = some c) :
    (t.addRule old rule).Sound ∧ t.Grows (t.addRule old rule) := by
  have hnew : t.counters.get? (t.sequence + 1) = none := by
    cases hc : t.counters.get? (t.sequence + 1) with
    | none => rfl
    | some c => exact absurd (h.bounded _ c hc) (by omega)
  unfold Traffic.addRule
  split
  · next id hid =>
    obtain ⟨c₀, hc₀⟩ := hold _ id hid
    rw [Table.modify_eq_insert _ hc₀]
    refine ⟨⟨fun name i hi => ?_, fun i c hc => ?_⟩, le_rfl, fun i c hc => ?_, fun i c hc hnone => ?_⟩
    · rcases Table.get?_insert_eq_some.mp hi with ⟨-, rfl⟩ | ⟨-, hi⟩
      · exact ⟨_, Table.get?_insert_self _ _ _⟩
      · obtain ⟨c, hc⟩ := h.made name i hi
        rw [Table.get?_insert]
        split_ifs
        · exact ⟨_, rfl⟩
        · exact ⟨c, hc⟩
    · rcases Table.get?_insert_eq_some.mp hc with ⟨rfl, -⟩ | ⟨-, hc⟩
      · exact h.bounded _ c₀ hc₀
      · exact h.bounded i c hc
    · rw [Table.get?_insert]
      split_ifs with hi
      · subst hi
        obtain rfl := Option.some.inj (hc₀.symm.trans hc)
        exact ⟨_, rfl⟩
      · exact ⟨c.group, hc⟩
    · rcases Table.get?_insert_eq_some.mp hc with ⟨rfl, -⟩ | ⟨-, hc⟩
      · simp [hc₀] at hnone
      · simp [hc] at hnone
  · refine ⟨⟨fun name i hi => ?_, fun i c hc => ?_⟩, Nat.le_succ _, fun i c hc => ?_,
      fun i c hc hnone => ?_⟩
    · rcases Table.get?_insert_eq_some.mp hi with ⟨-, rfl⟩ | ⟨-, hi⟩
      · exact ⟨_, Table.get?_insert_self _ _ _⟩
      · obtain ⟨c, hc⟩ := h.made name i hi
        have hne : i ≠ t.sequence + 1 := fun heq => by simp [heq, hnew] at hc
        exact ⟨c, (Table.get?_insert_ne _ _ hne).trans hc⟩
    · rcases Table.get?_insert_eq_some.mp hc with ⟨rfl, -⟩ | ⟨-, hc⟩
      · exact le_rfl
      · exact (h.bounded i c hc).trans (Nat.le_succ _)
    · have hne : i ≠ t.sequence + 1 := fun heq => by simp [heq, hnew] at hc
      exact ⟨c.group, (Table.get?_insert_ne _ _ hne).trans hc⟩
    · rcases Table.get?_insert_eq_some.mp hc with ⟨-, rfl⟩ | ⟨-, hc⟩
      · exact ⟨_, rfl⟩
      · simp [hc] at hnone

/-- A policy has a counter for each of its tailnets and for no other. -/
theorem Traffic.Sound.install (h : t.Sound) (rules : List TailnetQoS) :
    (t.install rules).Sound ∧ t.Grows (t.install rules) ∧
      ∀ name, ((t.install rules).current.get? name).isSome ↔ name ∈ rules.map (·.tailnetID) := by
  have hloop : ∀ (rules : List TailnetQoS) (u : Traffic), u.Sound → t.Grows u →
      (rules.foldl (Traffic.addRule t.current) u).Sound ∧
        t.Grows (rules.foldl (Traffic.addRule t.current) u) ∧
        ∀ name, ((rules.foldl (Traffic.addRule t.current) u).current.get? name).isSome ↔
          name ∈ rules.map (·.tailnetID) ∨ (u.current.get? name).isSome := by
    intro rules
    induction rules with
    | nil => exact fun u hu hgrows => ⟨hu, hgrows, by simp⟩
    | cons rule rules ih =>
      intro u hu hgrows
      obtain ⟨hu', hgrows'⟩ := hu.addRule rule fun name id hid => by
        obtain ⟨c, hc⟩ := h.made name id hid
        obtain ⟨g, hg⟩ := hgrows.kept id c hc
        exact ⟨_, hg⟩
      obtain ⟨hsound, hgrown, hnames⟩ := ih _ hu' (hgrows.trans hgrows')
      refine ⟨hsound, hgrown, fun name => ?_⟩
      rw [List.foldl_cons, hnames, Traffic.addRule_current, List.map_cons, List.mem_cons]
      tauto
  have hempty : Traffic.Sound { t with current := ∅ } := ⟨by simp, h.bounded⟩
  obtain ⟨hsound, hgrows, hnames⟩ := hloop rules { t with current := ∅ } hempty
    ⟨le_rfl, fun _ c hc => ⟨c.group, hc⟩, fun _ _ hc hnone => by simp [hnone] at hc⟩
  exact ⟨hsound, hgrows, fun name => by simpa [Traffic.install] using hnames name⟩

end Install

theorem Traffic.Sound.modify {t : Traffic} (h : t.Sound) (id : ℕ) (f : Counter → Counter) :
    Traffic.Sound { t with counters := t.counters.modify id f } := by
  refine ⟨fun name id' hid => ?_, fun id' c hc => ?_⟩
  · obtain ⟨c, hc⟩ := h.made name id' hid
    rw [Table.get?_modify]
    split_ifs <;> simp [hc]
  · obtain ⟨c₀, hc₀, -⟩ := Table.get?_modify_eq_some.mp hc
    exact h.bounded id' c₀ hc₀

theorem Traffic.Sound.record {t : Traffic} (h : t.Sound) (tailnet : String) (receive : Bool)
    (bytes : ℕ) : (t.record tailnet receive bytes).Sound := by
  unfold Traffic.record
  split
  · exact h
  · exact h.modify _ _

end UniDERP.Relay
