import UniDERP.Control.IdentityEvents
import UniDERP.Control.Revocation

namespace UniDERP

/-- One row of the query: the stored rule of an open grant, or its default. -/
def qosRow (db : DB) (node nodeOwner actorID : String) (all : Bool) (k : Pair) (g : Grant) :
    Option TailnetQoS := do
  let (id, tailnet) := ofLex k
  guard (id = node ∧ g.state.live)
  let tn ← db.tailnets.get? tailnet
  guard (tn.ownerID = actorID ∨ all)
  some (grantRule db node tailnet nodeOwner tn.ownerID)

def nodeQoS (actor : Actor) (node : String) (db : DB) : Except Err QoSPolicy := do
  requireOwner actor actor.id
  let n ← orElse (db.nodes.get? node) .noRows
  let all := (requireOwner actor n.ownerID).isOk
  require (all ∨ db.grants.any fun k g => (ofLex k).1 = node ∧ g.state.live ∧
    (db.tailnets.get? (ofLex k).2).any fun tn => tn.ownerID = actor.id) .forbidden
  let row ← orElse (db.policies.get? node) .noRows
  pure {
    budgetBPS := row.budgetBPS
    ownerWeight := row.ownerWeight
    sharedWeight := row.sharedWeight
    sharedMaxBPS := row.sharedMaxBPS
    tailnets := (db.grants.filterMap (qosRow db node n.ownerID actor.id all)).values }

def DB.openRules (db : DB) (node nodeOwner : String) : List TailnetQoS :=
  (db.grants.filterMap (qosRow db node nodeOwner "" true)).values

def DB.qosOf (db : DB) (node nodeOwner : String) (row : PolicyRow) : QoSPolicy where
  budgetBPS := row.budgetBPS
  ownerWeight := row.ownerWeight
  sharedWeight := row.sharedWeight
  sharedMaxBPS := row.sharedMaxBPS
  tailnets := db.openRules node nodeOwner

section Read

variable {db db' : DB} {node : String} {n : Node} {actor : Actor} {row : PolicyRow}

theorem nodeQoS_of_permitted (hn : db.nodes.get? node = some n)
    (hrow : db.policies.get? node = some row) (hp : Permitted actor n.ownerID) :
    nodeQoS actor node db = .ok (db.qosOf node n.ownerID row) := by
  have hself : requireOwner actor actor.id = .ok () :=
    requireOwner_eq_ok.mpr ⟨hp.1, hp.2.1, .inr rfl⟩
  have hall : requireOwner actor n.ownerID = .ok () := requireOwner_eq_ok.mpr hp
  have hrows : qosRow db node n.ownerID actor.id true = qosRow db node n.ownerID "" true := by
    funext k g
    simp [qosRow]
  simp only [nodeQoS, hself, hn, hall, hrow, orElse, Except.isOk, Except.toBool, require, true_or,
    if_true, bind, Except.bind, pure, Except.pure, hrows]
  rfl

theorem qosRow_eq_some {nodeOwner : String} {k : Pair} {g : Grant} {rule : TailnetQoS} :
    qosRow db node nodeOwner "" true k g = some rule ↔
      (ofLex k).1 = node ∧ g.state.live ∧ ∃ tn, db.tailnets.get? (ofLex k).2 = some tn ∧
        rule = grantRule db node (ofLex k).2 nodeOwner tn.ownerID := by
  simp only [qosRow, Option.bind_eq_bind, Option.bind_eq_some_iff, Option.guard_eq_some',
    exists_const, Option.some.injEq, or_true, true_and, and_assoc, @eq_comm _ rule]

def DB.Open (db : DB) (node t : String) (tn : Tailnet) : Prop :=
  db.tailnets.get? t = some tn ∧ ∃ g, db.grants.get? (pair node t) = some g ∧ g.state.live

theorem mem_openRules {nodeOwner : String} {rule : TailnetQoS} :
    rule ∈ db.openRules node nodeOwner ↔ ∃ t tn, db.Open node t tn ∧
      rule = grantRule db node t nodeOwner tn.ownerID := by
  have hrow : rule ∈ db.openRules node nodeOwner ↔ ∃ k g, db.grants.get? k = some g ∧
      qosRow db node nodeOwner "" true k g = some rule := by
    simp only [DB.openRules, Table.values, List.mem_map, Prod.exists, exists_eq_right,
      ← Table.get?_eq_some_iff, Table.get?_filterMap, Option.bind_eq_some_iff]
  rw [hrow]
  constructor
  · rintro ⟨k, g, hg, hrule⟩
    obtain ⟨rfl, hlive, tn, htn, rfl⟩ := qosRow_eq_some.mp hrule
    exact ⟨(ofLex k).2, tn, ⟨htn, g, by rwa [pair_ofLex], hlive⟩, rfl⟩
  · rintro ⟨t, tn, ⟨htn, g, hg, hlive⟩, rfl⟩
    exact ⟨pair node t, g, hg, qosRow_eq_some.mpr ⟨rfl, hlive, tn, htn, rfl⟩⟩

theorem openRules_ordered {nodeOwner : String} :
    ((db.openRules node nodeOwner).map (·.tailnetID)).Pairwise (· < ·) := by
  have hkey : ∀ k rule, (k, rule) ∈ (db.grants.filterMap (qosRow db node nodeOwner "" true)).rows →
      k = pair node rule.tailnetID := by
    intro k rule hmem
    rw [← Table.get?_eq_some_iff, Table.get?_filterMap, Option.bind_eq_some_iff] at hmem
    obtain ⟨g, -, hrule⟩ := hmem
    obtain ⟨rfl, -, tn, -, rfl⟩ := qosRow_eq_some.mp hrule
    rw [grantRule_tailnetID]
    exact (pair_ofLex k).symm
  rw [DB.openRules, Table.values, List.map_map, List.pairwise_map]
  refine (db.grants.filterMap _).ordered.imp_of_mem ?_
  rintro ⟨k, rule⟩ ⟨k', rule'⟩ hk hk' hlt
  rw [hkey k rule hk, hkey k' rule' hk'] at hlt
  exact pair_lt_pair.mp hlt

theorem openRules_congr {nodeOwner : String} (hgrants : db'.grants = db.grants)
    (htailnets : db'.tailnets = db.tailnets) (hrule : ∀ t tn, db.Open node t tn →
      grantRule db' node t nodeOwner tn.ownerID = grantRule db node t nodeOwner tn.ownerID) :
    db'.openRules node nodeOwner = db.openRules node nodeOwner := by
  have htable : db'.grants.filterMap (qosRow db' node nodeOwner "" true) =
      db.grants.filterMap (qosRow db node nodeOwner "" true) := by
    ext k rule
    rw [Table.get?_filterMap, Table.get?_filterMap, hgrants, Option.bind_eq_some_iff,
      Option.bind_eq_some_iff]
    simp only [qosRow_eq_some, htailnets]
    refine exists_congr fun g => and_congr_right fun hg => and_congr_right fun hk =>
      and_congr_right fun hlive => exists_congr fun tn => and_congr_right fun htn => ?_
    rw [hrule (ofLex k).2 tn ⟨htn, g, by rw [← hk, pair_ofLex]; exact hg, hlive⟩]
  rw [DB.openRules, DB.openRules, htable]

end Read

def rulesAfter (node : String) (rules : List TailnetQoS) (base : Table Pair Rule) :
    Table Pair Rule :=
  rules.foldl (fun t rule =>
    t.insert (pair node rule.tailnetID) ⟨rule.group, rule.weight, rule.maxBPS⟩) base

def DB.withQoS (db : DB) (node : String) (q : QoSPolicy) : DB :=
  { db with
    policies := db.policies.modify node fun row =>
      { row with
        budgetBPS := q.budgetBPS, ownerWeight := q.ownerWeight, sharedWeight := q.sharedWeight
        sharedMaxBPS := q.sharedMaxBPS }
    rules := rulesAfter node q.tailnets (db.rules.delete fun k _ => (ofLex k).1 = node) }

/-- A rule is for an open grant, and in the owner's class only if the tailnet is theirs. -/
def DB.Accepts (db : DB) (node nodeOwner : String) (rule : TailnetQoS) : Prop :=
  ∃ tn, db.Open node rule.tailnetID tn ∧ (rule.group = .owner → tn.ownerID = nodeOwner)

section Write

variable {E : Env} {c : Clock} {db db' : DB} {node nodeOwner : String} {actor : Actor}
  {rules : List TailnetQoS} {base : Table Pair Rule} {rule : TailnetQoS} {q : QoSPolicy}

theorem rulesAfter_of_forall_ne {k : Pair} (h : ∀ rule ∈ rules, k ≠ pair node rule.tailnetID) :
    (rulesAfter node rules base).get? k = base.get? k := by
  induction rules generalizing base with
  | nil => rfl
  | cons rule rules ih =>
    rw [List.forall_mem_cons] at h
    exact (ih h.2).trans (Table.get?_insert_ne _ _ h.1)

theorem rulesAfter_of_mem (hnodup : (rules.map (·.tailnetID)).Nodup) (h : rule ∈ rules) :
    (rulesAfter node rules base).get? (pair node rule.tailnetID) =
      some ⟨rule.group, rule.weight, rule.maxBPS⟩ := by
  induction rules generalizing base with
  | nil => cases h
  | cons first rules ih =>
    rw [List.map_cons, List.nodup_cons] at hnodup
    rcases List.mem_cons.mp h with rfl | h
    · -- No later rule is for the same tailnet.
      have hlater : ∀ later ∈ rules, pair node rule.tailnetID ≠ pair node later.tailnetID := by
        intro later hlater he
        refine hnodup.1 ?_
        rw [(pair_inj.mp he).2]
        exact List.mem_map_of_mem hlater
      exact (rulesAfter_of_forall_ne hlater).trans (Table.get?_insert_self _ _ _)
    · exact ih hnodup.2 h

theorem insertRules_eq_ok : insertRules node nodeOwner rules db = .ok db' ↔
    (∀ rule ∈ rules, db.Accepts node nodeOwner rule) ∧ (rules.map (·.tailnetID)).Nodup ∧
      (∀ rule ∈ rules, db.rules.get? (pair node rule.tailnetID) = none) ∧
      db' = { db with rules := rulesAfter node rules db.rules } := by
  induction rules generalizing db with
  | nil =>
    simp only [insertRules, Except.ok.injEq, List.not_mem_nil, false_implies, implies_true,
      List.map_nil, List.nodup_nil, true_and, rulesAfter, List.foldl_nil]
    exact eq_comm
  | cons first rules ih =>
    simp only [insertRules, Except_bind_eq_ok, orElse_eq_ok, require_eq_ok, exists_const, ih,
      List.forall_mem_cons, List.map_cons, List.nodup_cons]
    -- A later rule finds no row exactly if it is for another tailnet and found none before.
    have hnone : ∀ rule : TailnetQoS, (db.rules.insert (pair node first.tailnetID)
        ⟨first.group, first.weight, first.maxBPS⟩).get? (pair node rule.tailnetID) = none ↔
        rule.tailnetID ≠ first.tailnetID ∧ db.rules.get? (pair node rule.tailnetID) = none := by
      intro rule
      rw [Table.get?_insert]
      by_cases hid : rule.tailnetID = first.tailnetID
      · simp [hid]
      · rw [if_neg fun h => hid (pair_inj.mp h).2]
        simp [hid]
    constructor
    · rintro ⟨g, hg, tn, htn, hlive, hgroup, hfirst, haccepts, hnodup, hrest, hdb⟩
      refine ⟨⟨⟨tn, ⟨htn, g, hg, hlive⟩, fun h => not_not.mp fun hne => hgroup ⟨h, hne⟩⟩,
        haccepts⟩, ⟨fun hmem => ?_, hnodup⟩, ⟨hfirst, fun rule hrule =>
          ((hnone rule).mp (hrest rule hrule)).2⟩, hdb⟩
      obtain ⟨rule, hrule, hid⟩ := List.mem_map.mp hmem
      exact ((hnone rule).mp (hrest rule hrule)).1 hid
    · rintro ⟨⟨⟨tn, ⟨htn, g, hg, hlive⟩, hgroup⟩, haccepts⟩, ⟨hnew, hnodup⟩, ⟨hfirst, hrest⟩, hdb⟩
      refine ⟨g, hg, tn, htn, hlive, fun h => h.2 (hgroup h.1), hfirst, haccepts, hnodup,
        fun rule hrule => (hnone rule).mpr ⟨fun hid => hnew ?_, hrest rule hrule⟩, hdb⟩
      rw [← hid]
      exact List.mem_map_of_mem hrule

theorem validateQoS_eq_ok {u : Unit} : validateQoS q = .ok u ↔
    (8 ≤ q.budgetBPS ∧ q.budgetBPS ≤ maxInt64 ∧ validCeiling q.sharedMaxBPS ∧
      validWeight q.ownerWeight ∧ validWeight q.sharedWeight) ∧ q.tailnets.length ≤ 4096 ∧
    (∀ rule ∈ q.tailnets, validRule rule) ∧ (q.tailnets.map (·.tailnetID)).Nodup := by
  simp only [validateQoS, Except_bind_eq_ok, require_eq_ok, exists_const, checkRules_eq_ok,
    List.not_mem_nil, not_false_eq_true, implies_true, and_true]

theorem setNodeQoS_eq_ok : setNodeQoS E c actor node q db = .ok db' ↔
    validateQoS q = .ok () ∧ ∃ n, (Active actor db ∧ db.nodes.get? node = some n ∧
      Permitted actor n.ownerID) ∧ (∀ rule ∈ q.tailnets, db.Accepts node n.ownerID rule) ∧
      ∃ p, buildPolicy E node (c.read 0) (db.withQoS node q) = .ok (db', p) := by
  have hnone : ∀ rule ∈ q.tailnets, (db.rules.delete fun k _ => (ofLex k).1 = node).get?
      (pair node rule.tailnetID) = none := by
    intro rule _
    simp
  simp only [setNodeQoS, Except_bind_eq_ok, mapError_eq_ok, ownedNode_eq_ok, insertRules_eq_ok,
    Except_pure_eq_ok, Prod.exists]
  constructor
  · rintro ⟨_, hvalid, n, hn, _, ⟨haccepts, -, -, rfl⟩, _, p, hbuild, rfl⟩
    exact ⟨hvalid, n, hn, haccepts, p, hbuild⟩
  · rintro ⟨hvalid, n, hn, haccepts, p, hbuild⟩
    exact ⟨(), hvalid, n, hn, _, ⟨haccepts, (validateQoS_eq_ok.mp hvalid).2.2.2, hnone, rfl⟩, db',
      p, hbuild, rfl⟩

theorem grantRule_withQoS_of_mem (hnodup : (q.tailnets.map (·.tailnetID)).Nodup)
    (h : rule ∈ q.tailnets) (tailnetOwner : String) :
    grantRule (db.withQoS node q) node rule.tailnetID nodeOwner tailnetOwner = rule := by
  simp only [grantRule, DB.withQoS, rulesAfter_of_mem hnodup h]

theorem grantRule_withQoS_of_not_mem {t : String} (h : t ∉ q.tailnets.map (·.tailnetID))
    (tailnetOwner : String) :
    grantRule (db.withQoS node q) node t nodeOwner tailnetOwner =
      ⟨t, if tailnetOwner = nodeOwner then .owner else .shared, 1, 0⟩ := by
  have hnone : (db.withQoS node q).rules.get? (pair node t) = none := by
    rw [DB.withQoS, rulesAfter_of_forall_ne]
    · simp
    · intro rule hrule he
      rw [(pair_inj.mp he).2] at h
      exact h (List.mem_map_of_mem hrule)
  simp only [grantRule, hnone]

end Write

/-- A stored rule is valid, and in the owner's class only if the tailnet is the node owner's. -/
structure SoundRule (db : DB) (k : Pair) (r : Rule) : Prop where
  valid : validRule ⟨(ofLex k).2, r.group, r.weight, r.maxBPS⟩
  owner : r.group = .owner → ∃ n tn, db.nodes.get? (ofLex k).1 = some n ∧
    db.tailnets.get? (ofLex k).2 = some tn ∧ tn.ownerID = n.ownerID

def SoundRules (db : DB) : Prop := ∀ k r, db.rules.get? k = some r → SoundRule db k r

section Sound

variable {E : Env} {c : Clock} {db mid db' : DB} {op : Op} {reply : Reply} {S : String → Prop}

/-- A node keeps its owner until it is deleted. -/
theorem Effect.node_stays (h : Effect E c db op reply mid S) {id : String} {n : Node}
    (hn : db.nodes.get? id = some n) :
    (∃ n', mid.nodes.get? id = some n' ∧ n'.ownerID = n.ownerID) ∨ mid = db.deleteNode id := by
  have hedited : ∀ {m m' : Node}, db.nodes.get? id = some m → mid.nodes.get? id = some m' →
      m'.ownerID = m.ownerID → (∃ n', mid.nodes.get? id = some n' ∧ n'.ownerID = n.ownerID) ∨
        mid = db.deleteNode id := by
    intro m m' hm hm' howner
    cases hn.symm.trans hm
    exact .inl ⟨m', hm', howner⟩
  cases h.node_edit id with
  | kept same => exact .inl ⟨n, same.trans hn, rfl⟩
  | created _ before => cases hn.symm.trans before
  | deleted _ _ gone => exact .inr gone
  | released _ before after _ => exact hedited before after rfl
  | enrolled _ _ before _ _ _ _ after => exact hedited before after rfl
  | renewed _ _ before _ _ _ _ _ after => exact hedited before after rfl
  | refused _ _ before _ _ _ _ after => exact hedited before after rfl
  | recovered _ before _ _ _ after => exact hedited before after rfl
  | moved _ before _ _ _ after => exact hedited before after rfl
  | ported before after => exact hedited before after rfl
  | switched before _ after => exact hedited before after rfl
  | heard before _ after => exact hedited before after rfl
  | acknowledged before _ _ after => exact hedited before after rfl

/-- Which stored rules a transaction may leave: those that were there, or what it writes. -/
theorem Effect.rule_owner (h : Effect E c db op reply mid S) (hs : SoundRules db) {k : Pair}
    {r : Rule} (hr : mid.rules.get? k = some r) (hgroup : r.group = .owner) :
    ∃ n tn, mid.nodes.get? (ofLex k).1 = some n ∧ mid.tailnets.get? (ofLex k).2 = some tn ∧
      tn.ownerID = n.ownerID := by
  -- The rule is an old one and its tailnet has the owner that it had.
  have hold : db.rules.get? k = some r → (∀ tn, db.tailnets.get? (ofLex k).2 = some tn →
      ∃ tn', mid.tailnets.get? (ofLex k).2 = some tn' ∧ tn'.ownerID = tn.ownerID) →
      ∃ n tn, mid.nodes.get? (ofLex k).1 = some n ∧ mid.tailnets.get? (ofLex k).2 = some tn ∧
        tn.ownerID = n.ownerID := by
    intro hr₀ htailnets
    obtain ⟨n, tn, hn, htn, howner⟩ := (hs k r hr₀).owner hgroup
    obtain ⟨tn', htn', howner'⟩ := htailnets tn htn
    rcases h.node_stays hn with ⟨n', hn', hsame⟩ | hgone
    · exact ⟨n', tn', hn', htn', by rw [howner', howner, hsame]⟩
    · rw [hgone] at hr
      simp [DB.deleteNode] at hr
  have hsame : ∀ tn, db.tailnets.get? (ofLex k).2 = some tn →
      ∃ tn', db.tailnets.get? (ofLex k).2 = some tn' ∧ tn'.ownerID = tn.ownerID := fun tn htn =>
    ⟨tn, htn, rfl⟩
  cases h
  case setNodeQoS node q rules hothers hown =>
    by_cases hk : (ofLex k).1 = node
    · have hr' : rules.get? (pair node (ofLex k).2) = some r := by
        rw [← hk, pair_ofLex]
        exact hr
      obtain ⟨n, tn, hn, htn, howner⟩ := hown _ _ hr'
      exact ⟨n, tn, hk ▸ hn, htn, howner hgroup⟩
    · exact hold ((hothers k hk).symm.trans hr) hsame
  case transferTailnet id newOwner _ =>
    rw [Table.get?_update, Option.map_eq_some_iff] at hr
    obtain ⟨r₀, hr₀, rfl⟩ := hr
    split_ifs at hgroup with hmoved
    obtain ⟨n, tn, hn, htn, howner⟩ := (hs k r₀ hr₀).owner hgroup
    by_cases hid : (ofLex k).2 = id
    · -- A rule that stays in the owner's class is of a node of the new owner.
      have hnew : n.ownerID = newOwner := by
        by_contra hne
        exact hmoved (by simp [hid, hgroup, hn, hne])
      refine ⟨n, { tn with ownerID := newOwner }, hn, ?_, hnew.symm⟩
      dsimp only
      rw [Table.get?_modify, if_pos hid, htn]
      rfl
    · exact ⟨n, tn, hn, (Table.get?_modify_ne _ _ hid).trans htn, howner⟩
  case deleteNode => exact hold (Table.get?_delete_eq_some.mp hr).1 hsame
  case deleteTailnet id =>
    obtain ⟨hr₀, hid⟩ := Table.get?_delete_eq_some.mp hr
    have hne : (ofLex k).2 ≠ id := by simpa using hid
    exact hold hr₀ fun tn htn => ⟨tn, (Table.get?_erase_ne _ hne).trans htn, rfl⟩
  case addTailnet token _ _ _ _ _ hfresh _ _ =>
    refine hold hr fun tn htn => ⟨tn, ?_, rfl⟩
    refine (Table.get?_insert_ne _ _ ?_).trans htn
    intro hid
    rw [hid] at htn
    cases hfresh.symm.trans htn
  case setTailnetEnabled id enabled =>
    refine hold hr fun tn htn => ?_
    dsimp only
    rw [Table.get?_modify, htn]
    split_ifs
    · exact ⟨_, rfl, rfl⟩
    · exact ⟨tn, rfl, rfl⟩
  all_goals exact hold hr hsame

theorem validRule_shared {t : String} {group : Group} {weight maxBPS : ℕ}
    (h : validRule ⟨t, group, weight, maxBPS⟩) : validRule ⟨t, .shared, weight, maxBPS⟩ := by
  simp only [validRule, Bool.and_eq_true] at h ⊢
  exact ⟨⟨⟨h.1.1.1, by simp⟩, h.1.2⟩, h.2⟩

theorem Step.rule_valid {a : Commit} (h : Step E db a db') (hs : SoundRules db) {k : Pair}
    {r : Rule} (hr : db'.rules.get? k = some r) :
    validRule ⟨(ofLex k).2, r.group, r.weight, r.maxBPS⟩ := by
  obtain ⟨op, c, reply⟩ := a
  have hexec : exec E c op db = .ok (db', reply) := h
  obtain ⟨mid, S, i, he, hrebuilt⟩ := exec_does hexec
  cases he
  case setNodeQoS node q _ _ _ =>
    obtain ⟨hvalid, n, -, -, p, hbuild⟩ := setNodeQoS_eq_ok.mp (quiet_eq_ok.mp hexec).1
    rw [(buildPolicy_rebuilt hbuild).frame, DB.withQoS] at hr
    obtain ⟨-, -, hrules, hnodup⟩ := validateQoS_eq_ok.mp hvalid
    by_cases hk : ∃ rule ∈ q.tailnets, k = pair node rule.tailnetID
    · obtain ⟨rule, hrule, rfl⟩ := hk
      dsimp only at hr
      rw [rulesAfter_of_mem hnodup hrule, Option.some.injEq] at hr
      subst hr
      exact hrules rule hrule
    · simp only [not_exists, not_and] at hk
      dsimp only at hr
      rw [rulesAfter_of_forall_ne hk] at hr
      exact (hs k r (Table.get?_delete_eq_some.mp hr).1).valid
  case transferTailnet =>
    rw [hrebuilt.frame] at hr
    dsimp only at hr
    rw [Table.get?_update, Option.map_eq_some_iff] at hr
    obtain ⟨r₀, hr₀, rfl⟩ := hr
    have hvalid := (hs k r₀ hr₀).valid
    split_ifs
    · exact validRule_shared hvalid
    · exact hvalid
  case deleteNode =>
    rw [hrebuilt.frame] at hr
    exact (hs k r (Table.get?_delete_eq_some.mp hr).1).valid
  case deleteTailnet =>
    rw [hrebuilt.frame] at hr
    exact (hs k r (Table.get?_delete_eq_some.mp hr).1).valid
  all_goals
    rw [hrebuilt.frame] at hr
    exact (hs k r hr).valid

theorem Store.Reachable.sound_rules (h : Store.Reachable E db) : SoundRules db := by
  refine Reachable.invariant h ?_ fun s a s' _ hs hstep => ?_
  · rintro s rfl k r hr
    simp [DB.empty] at hr
  · intro k r hr
    refine ⟨Step.rule_valid hstep hs hr, fun hgroup => ?_⟩
    obtain ⟨mid, S, i, he, hrebuilt⟩ := exec_does hstep
    rw [hrebuilt.frame] at hr ⊢
    exact he.rule_owner hs hr hgroup

theorem not_isSpace_of_isHex {c : Char} (h : isHex c = true) : isSpace c = false := by
  have hle : c ≤ 'f' := by
    simp only [isHex, Bool.or_eq_true, Bool.and_eq_true, decide_eq_true_eq] at h
    rcases h with (h | h) | h
    · exact h.2.trans (by decide)
    · exact h.2
    · exact h.2.trans (by decide)
  have hhigh : ¬ ('\u2000' ≤ c) := fun hc => absurd (hc.trans hle) (by decide)
  simp only [isSpace, hhigh, decide_false, Bool.false_and, Bool.or_false, decide_eq_false_iff_not,
    List.mem_cons, List.not_mem_nil, or_false]
  rintro (rfl | rfl | rfl | rfl | rfl | rfl | rfl | rfl | rfl | rfl | rfl | rfl | rfl | rfl) <;>
    exact absurd h (by decide)

theorem validID_of_validToken {s : String} (h : validToken s = true) : validID s = true := by
  simp only [validToken, Bool.and_eq_true, decide_eq_true_eq, List.all_eq_true] at h
  have hspace : ∀ c ∈ s.toList, isSpace c = false := fun c hc => not_isSpace_of_isHex (h.2 c hc)
  have hdrop : ∀ l : List Char, (∀ c ∈ l, isSpace c = false) → l.dropWhile isSpace = l := by
    intro l hl
    cases l with
    | nil => rfl
    | cons c l => rw [List.dropWhile_cons_of_neg (by simp [hl c List.mem_cons_self])]
  have htrim : trimSpace s = s := by
    rw [trimSpace, hdrop _ hspace, hdrop _ fun c hc => hspace c (List.mem_reverse.mp hc),
      List.reverse_reverse, String.ofList_toList]
  have hne : s ≠ "" := by
    rintro rfl
    simp at h
  simp [validID, htrim, hne, h.1]

theorem Op.valid_of_addsTailnet {t : String} (h : op.addsTailnet t) : validToken t = true := by
  cases op
  case addTailnet token _ _ =>
    simp only [Op.addsTailnet, decide_eq_true_eq] at h
    exact h ▸ token.valid
  all_goals cases h

theorem Store.Reachable.tailnet_valid (h : Store.Reachable E db) {t : String}
    (ht : t ∈ db.tailnets.keys) : validID t = true := by
  refine Reachable.invariant (I := fun db : DB => ∀ t ∈ db.tailnets.keys, validID t = true) h ?_
    (fun s a s' _ hs hstep => ?_) t ht
  · rintro s rfl t ht
    cases ht
  · intro t ht
    obtain ⟨mid, S, i, he, hrebuilt⟩ := exec_does hstep
    rw [hrebuilt.frame] at ht
    rcases he.tailnet_origin ht with hold | hadds
    · exact hs t hold
    · exact validID_of_validToken (Op.valid_of_addsTailnet hadds)

end Sound

def DB.openGrants (db : DB) (node : String) : ℕ :=
  db.grants.rows.countP fun x => (ofLex x.1).1 = node ∧ x.2.state.live

section RoundTrip

variable {E : Env} {c : Clock} {db : DB} {node : String} {n : Node} {row : PolicyRow}

theorem length_openRules_le {nodeOwner : String} :
    (db.openRules node nodeOwner).length ≤ db.openGrants node := by
  have hrows : (db.openRules node nodeOwner).length = (db.grants.rows.filterMap fun x =>
      (qosRow db node nodeOwner "" true x.1 x.2).map fun r => (x.1, r)).length :=
    List.length_map _
  rw [hrows, List.length_filterMap_eq_countP]
  refine List.countP_mono_left fun x _ hsome => ?_
  rw [Option.isSome_map, Option.isSome_iff_exists] at hsome
  obtain ⟨rule, hrule⟩ := hsome
  obtain ⟨hid, hlive, -⟩ := qosRow_eq_some.mp hrule
  simp [hid, hlive]

/-- What is read passes the checks of a write. -/
theorem Store.Reachable.openRules_pass (h : Store.Reachable E db)
    (hn : db.nodes.get? node = some n) {rule : TailnetQoS}
    (hrule : rule ∈ db.openRules node n.ownerID) :
    validRule rule ∧ db.Accepts node n.ownerID rule := by
  obtain ⟨t, tn, hopen, rfl⟩ := mem_openRules.mp hrule
  have haccepts : ((grantRule db node t n.ownerID tn.ownerID).group = .owner →
      tn.ownerID = n.ownerID) →
        db.Accepts node n.ownerID (grantRule db node t n.ownerID tn.ownerID) :=
    fun howner => ⟨tn, by rwa [grantRule_tailnetID], howner⟩
  unfold grantRule at haccepts ⊢
  cases hr : db.rules.get? (pair node t) with
  | some r =>
    rw [hr] at haccepts
    have hsound := h.sound_rules _ _ hr
    refine ⟨hsound.valid, haccepts fun hgroup => ?_⟩
    obtain ⟨n', tn', hn', htn', howner⟩ := hsound.owner hgroup
    rw [pair_fst, hn, Option.some.injEq] at hn'
    rw [pair_snd, hopen.1, Option.some.injEq] at htn'
    rw [hn', htn', howner]
  | none =>
    rw [hr] at haccepts
    have hid := h.tailnet_valid (Table.mem_keys.mpr ⟨tn, hopen.1⟩)
    refine ⟨?_, haccepts fun hgroup => ?_⟩
    · dsimp only
      split_ifs <;> simp [validRule, hid, validWeight, validCeiling]
    · dsimp only at hgroup
      split_ifs at hgroup with hsame
      exact hsame

theorem grantRule_written_back {t : String} {tn : Tailnet} (hopen : db.Open node t tn) :
    grantRule (db.withQoS node (db.qosOf node n.ownerID row)) node t n.ownerID tn.ownerID =
      grantRule db node t n.ownerID tn.ownerID := by
  have hmem : grantRule db node t n.ownerID tn.ownerID ∈
      (db.qosOf node n.ownerID row).tailnets := mem_openRules.mpr ⟨t, tn, hopen, rfl⟩
  have hnodup : ((db.qosOf node n.ownerID row).tailnets.map (·.tailnetID)).Nodup :=
    openRules_ordered.imp ne_of_lt
  conv_lhs => rw [← grantRule_tailnetID db node t n.ownerID tn.ownerID]
  exact grantRule_withQoS_of_mem hnodup hmem tn.ownerID

theorem policies_written_back (hrow : db.policies.get? node = some row) :
    (db.withQoS node (db.qosOf node n.ownerID row)).policies = db.policies := by
  rw [DB.withQoS]
  dsimp only
  rw [Table.modify_eq_insert _ hrow]
  exact Table.insert_eq_self hrow

theorem projectGrants_written_back :
    projectGrants (db.withQoS node (db.qosOf node n.ownerID row)) node n.ownerID =
      projectGrants db node n.ownerID := by
  have htable : db.grants.filterMap
      (grantEntry (db.withQoS node (db.qosOf node n.ownerID row)) node n.ownerID) =
      db.grants.filterMap (grantEntry db node n.ownerID) := by
    ext k entry
    rw [Table.get?_filterMap, Table.get?_filterMap, Option.bind_eq_some_iff,
      Option.bind_eq_some_iff]
    simp only [grantEntry_eq_some]
    refine exists_congr fun g => and_congr_right fun hg => and_congr_right fun hk =>
      and_congr_right fun hactive => and_congr_right fun _ => exists_congr fun tn =>
      exists_congr fun snap => and_congr_right fun htn => and_congr_right fun _ =>
      and_congr_right fun _ => and_congr_right fun _ => ?_
    have hopen : db.Open node (ofLex k).2 tn :=
      ⟨htn, g, by rw [← hk, pair_ofLex]; exact hg, by rw [hactive]; rfl⟩
    unfold entryOf
    rw [grantRule_written_back hopen]
    rfl
  exact congrArg (fun t => t.values.mapM fun e => e) htable

theorem Store.Reachable.built_same (h : Store.Reachable E db) (hn : db.nodes.get? node = some n)
    (hrow : db.policies.get? node = some row) (hrev : row.desiredRevision < maxInt64) :
    ∃ db' p, buildPolicy E node (c.read 0) (db.withQoS node (db.qosOf node n.ownerID row)) =
        .ok (db', p) ∧
      db' = db.withQoS node (db.qosOf node n.ownerID row) := by
  obtain ⟨entries, p, hproj, hbody, hrevision, hcontent, hstorable⟩ := h.fresh node row hrow
  obtain ⟨n', u, hn', hu, hentries⟩ := hproj.entries
  obtain rfl : n' = n := Option.some.inj (hn'.symm.trans hn)
  have hrow' : (db.withQoS node (db.qosOf node n'.ownerID row)).policies.get? node = some row := by
    rw [policies_written_back hrow]
    exact hrow
  have hproj' : Projected E (db.withQoS node (db.qosOf node n'.ownerID row)) node row entries := by
    refine ⟨hrow', hproj.retentions, n', u, hn, hu, ?_⟩
    rw [project, projectGrants_written_back]
    exact hentries
  refine ⟨_, p, buildPolicy_eq_ok.mpr ⟨row, entries, row, hproj', hrev,
    .same hbody hstorable hrevision hcontent, rfl⟩, ?_⟩
  rw [Table.insert_eq_self hrow']

/-- What is read after `q` was written: the limits of `q`, its rules, and the defaults of all other
open grants. -/
structure Reads (db : DB) (node nodeOwner : String) (q q' : QoSPolicy) : Prop where
  limits : q'.budgetBPS = q.budgetBPS ∧ q'.ownerWeight = q.ownerWeight ∧
    q'.sharedWeight = q.sharedWeight ∧ q'.sharedMaxBPS = q.sharedMaxBPS
  given : ∀ rule ∈ q.tailnets, rule ∈ q'.tailnets
  default : ∀ t tn, db.Open node t tn → t ∉ q.tailnets.map (·.tailnetID) →
    ⟨t, if tn.ownerID = nodeOwner then .owner else .shared, 1, 0⟩ ∈ q'.tailnets
  only : ∀ rule ∈ q'.tailnets, ∃ tn, db.Open node rule.tailnetID tn
  once : (q'.tailnets.map (·.tailnetID)).Nodup

theorem Built.limits {now : Int} {entries : List Entry} {row' : PolicyRow} {p : Policy}
    (h : Built E node now row entries row' p) : row'.budgetBPS = row.budgetBPS ∧
      row'.ownerWeight = row.ownerWeight ∧ row'.sharedWeight = row.sharedWeight ∧
      row'.sharedMaxBPS = row.sharedMaxBPS := by
  cases h <;> exact ⟨rfl, rfl, rfl, rfl⟩

theorem reads_of_set {db' : DB} {actor : Actor} {q : QoSPolicy}
    (hn : db.nodes.get? node = some n) (hperm : Permitted actor n.ownerID)
    (h : setNodeQoS E c actor node q db = .ok db') :
    ∃ q', nodeQoS actor node db' = .ok q' ∧ Reads db' node n.ownerID q q' := by
  obtain ⟨hvalid, n', ⟨-, hn', -⟩, haccepts, p, hbuild⟩ := setNodeQoS_eq_ok.mp h
  obtain rfl : n' = n := Option.some.inj (hn'.symm.trans hn)
  obtain ⟨-, -, -, hnodup⟩ := validateQoS_eq_ok.mp hvalid
  obtain ⟨row, entries, row', hproj, -, hbuilt, rfl⟩ := buildPolicy_eq_ok.mp hbuild
  obtain ⟨row₀, -, hrow₀⟩ := Table.get?_modify_eq_some.mp hproj.row
  have hlimits := hbuilt.limits
  rw [hrow₀, if_pos rfl] at hlimits
  refine ⟨_, nodeQoS_of_permitted hn' (Table.get?_insert_self _ _ _) hperm, hlimits, ?_, ?_, ?_,
    openRules_ordered.imp ne_of_lt⟩
  · intro rule hrule
    obtain ⟨tn, hopen, -⟩ := haccepts rule hrule
    refine mem_openRules.mpr ⟨rule.tailnetID, tn, hopen, ?_⟩
    exact (grantRule_withQoS_of_mem hnodup hrule tn.ownerID).symm
  · intro t tn hopen hother
    refine mem_openRules.mpr ⟨t, tn, hopen, ?_⟩
    exact (grantRule_withQoS_of_not_mem hother tn.ownerID).symm
  · intro rule hrule
    obtain ⟨t, tn, hopen, rfl⟩ := mem_openRules.mp hrule
    exact ⟨tn, by rwa [grantRule_tailnetID]⟩

/-- Reading and writing bandwidth rules are inverse: below the last revision, what the owner of a
node or an administrator reads can be written back and leaves the policy row as it is; and what is
read after a write is what was written. -/
theorem Store.Reachable.qos_inverse {actor : Actor} (h : Store.Reachable E db)
    (hn : db.nodes.get? node = some n) (hrow : db.policies.get? node = some row)
    (hactive : Active actor db) (hperm : Permitted actor n.ownerID) (c : Clock) :
    (db.openGrants node ≤ 4096 → row.desiredRevision < maxInt64 →
      ∃ q db', nodeQoS actor node db = .ok q ∧ setNodeQoS E c actor node q db = .ok db' ∧
        db'.policies.get? node = some row ∧ nodeQoS actor node db' = .ok q) ∧
    ∀ q db', setNodeQoS E c actor node q db = .ok db' →
      ∃ q', nodeQoS actor node db' = .ok q' ∧ Reads db' node n.ownerID q q' := by
  refine ⟨fun hcount hrev => ?_, fun q db' hset => reads_of_set hn hperm hset⟩
  obtain ⟨_, p, hbuild, rfl⟩ := h.built_same (c := c) hn hrow hrev
  have hrow' : (db.withQoS node (db.qosOf node n.ownerID row)).policies.get? node = some row := by
    rw [policies_written_back hrow]
    exact hrow
  have hread := nodeQoS_of_permitted hn hrow hperm
  refine ⟨_, _, hread, setNodeQoS_eq_ok.mpr ⟨?_, n, ⟨hactive, hn, hperm⟩, ?_, p, hbuild⟩, hrow', ?_⟩
  · obtain ⟨p, hp, -, hdescribes⟩ := h.decodes hrow
    obtain ⟨entries, p', -, hp', -, -, hstorable⟩ := h.fresh node row hrow
    obtain rfl : p' = p := Option.some.inj (hp'.symm.trans hp)
    have hwf := hstorable.wellFormed
    obtain ⟨hbudget, howner, hshared, hmax⟩ := hdescribes.limits
    refine validateQoS_eq_ok.mpr ⟨?_, length_openRules_le.trans hcount, fun rule hrule =>
      (h.openRules_pass hn hrule).1, openRules_ordered.imp ne_of_lt⟩
    have hbounds := hwf.budget
    have hceiling := hwf.ceiling
    have hweights := hwf.weights
    rw [hbudget] at hbounds
    rw [hmax] at hceiling
    rw [howner, hshared] at hweights
    exact ⟨hbounds.1, hbounds.2, hceiling, hweights.1, hweights.2⟩
  · exact fun rule hrule => (h.openRules_pass hn hrule).2
  · have hn' : (db.withQoS node (db.qosOf node n.ownerID row)).nodes.get? node = some n := hn
    have hrules : (db.withQoS node (db.qosOf node n.ownerID row)).openRules node n.ownerID =
        db.openRules node n.ownerID :=
      openRules_congr rfl rfl fun t tn hopen => grantRule_written_back hopen
    rw [nodeQoS_of_permitted hn' hrow' hperm]
    exact congrArg (fun rules => Except.ok { db.qosOf node n.ownerID row with tailnets := rules })
      hrules

theorem first_qos_written_back : ∃ db q db', Store.Reachable Env.plain db ∧
    nodeQoS First.admin First.node.text db = .ok q ∧
    setNodeQoS Env.plain First.clock First.admin First.node.text q db = .ok db' ∧
    db'.policies.get? First.node.text = db.policies.get? First.node.text ∧
    nodeQoS First.admin First.node.text db' = .ok q ∧ Reads db' First.node.text First.admin.id q q := by
  have hrun : (replay Env.plain First.clock (First.enrolling ++ First.granting) DB.empty).map
      (fun db => ((db.nodes.get? First.node.text).map (·.ownerID),
        (db.policies.get? First.node.text).map (·.desiredRevision), db.openGrants First.node.text,
        (db.users.get? First.admin.id).map fun u => (u.enabled, u.role))) =
      .ok (some First.admin.id, some 2, 1, some (true, .admin)) := by
    decide +kernel
  obtain ⟨db, hdb, hget⟩ := Except_map_eq_ok.mp hrun
  simp only [Prod.mk.injEq, Option.map_eq_some_iff] at hget
  obtain ⟨⟨n, hn, howner⟩, ⟨row, hrow, hrev⟩, hcount, u, hu, huser⟩ := hget
  have hreach : Store.Reachable Env.plain db := replay_reachable hdb (.start rfl)
  have hperm : Permitted First.admin n.ownerID := ⟨rfl, by decide +kernel, .inl rfl⟩
  obtain ⟨hback, hreads⟩ := hreach.qos_inverse hn hrow (.inr ⟨u, hu, huser⟩) hperm First.clock
  obtain ⟨q, db', hread, hset, hkept, hread'⟩ := hback (hcount ▸ by decide) (hrev ▸ by decide)
  obtain ⟨q', hq', hreads⟩ := hreads q db' hset
  obtain rfl : q = q' := Except.ok.inj (hread'.symm.trans hq')
  exact ⟨db, q, db', hreach, hread, hset, hkept.trans hrow.symm, hread', howner ▸ hreads⟩

end RoundTrip

namespace First

/-- The policy of the first node without grants, after some changes of its budget. -/
def bare (revision budgetBPS : ℕ) : Policy where
  clusterID := "cluster"
  nodeID := node.text
  revision := revision
  generatedAt := 1000 * second
  grants := []
  qos := { budgetBPS := budgetBPS, ownerWeight := 8, sharedWeight := 2, sharedMaxBPS := 0
           tailnets := [] }

theorem bare_size (revision budgetBPS : ℕ) :
    policySize (bare revision budgetBPS) + (numberSize 8 + numberSize 8) =
      policySize (bare 8 8) + (numberSize revision + numberSize budgetBPS) := by
  simp only [bare, policySize, qosSize, objectSize, List.map_cons, List.map_nil, List.sum_cons,
    List.sum_nil, List.length_cons, List.length_nil]
  omega

theorem bare_wellFormed {revision budgetBPS : ℕ} (hpos : revision ≠ 0)
    (hbudget : 8 ≤ budgetBPS ∧ budgetBPS ≤ maxInt64) :
    WellFormed Env.plain.unmarshalText (bare revision budgetBPS) Env.plain.clusterID node.text where
  cluster := ⟨show validID "cluster" = true by decide +kernel, rfl⟩
  node := ⟨show validID node.text = true by decide +kernel, rfl⟩
  revision := hpos
  generated := show (1000 * second : Int) ≠ zeroTime by decide
  budget := hbudget
  ceiling := show validCeiling 0 = true by decide
  weights := show validWeight 8 = true ∧ validWeight 2 = true by decide
  rules := by simp [bare]
  count := by simp [bare]
  grants := by simp [bare]
  tailnets_nodup := by simp [bare]
  grants_nodup := by simp [bare]
  keys := by simp [bare, publics]
  keys_nodup := by simp [bare, publics]
  keys_count := by simp [bare, publics]
  cover := by simp [bare]

theorem bare_marshals (revision budgetBPS : ℕ) : marshals (bare revision budgetBPS) = true := by
  change (validTime (.utc (1000 * second)) && [].all validTimes) = true
  decide +kernel

theorem bare_storable {revision budgetBPS : ℕ} (hpos : revision ≠ 0) (hle : revision ≤ maxInt64)
    (hbudget : 8 ≤ budgetBPS ∧ budgetBPS ≤ maxInt64) :
    Storable Env.plain node.text (bare revision budgetBPS) := by
  have hdigits : ∀ k, k ≤ maxInt64 → numberSize k ≤ 19 := by
    intro k hk
    have hlt : (Nat.digits 10 k).length ≤ 19 := by
      rw [Nat.digits_length_le_iff (by omega)]
      exact lt_of_le_of_lt hk (by decide)
    unfold numberSize
    omega
  refine ⟨bare_wellFormed hpos hbudget, bare_marshals _ _, ?_⟩
  have hsize := bare_size revision budgetBPS
  have hrevision := hdigits revision hle
  have hbps := hdigits budgetBPS hbudget.2
  have hfixed : policySize (bare 8 8) ≤ 1000 := by decide +kernel
  unfold maxPolicyBytes
  omega

def bareRow (revision budgetBPS : ℕ) : PolicyRow where
  desiredRevision := revision
  generatedAt := 1000
  policyJSON := some (bare revision budgetBPS)
  budgetBPS := budgetBPS

/-- The first node without grants, after some changes of its budget. -/
structure Bare (db : DB) (revision budgetBPS : ℕ) : Prop where
  reachable : Store.Reachable Env.plain db
  grants : db.grants.rows = []
  owner : ∃ n u, db.nodes.get? node.text = some n ∧ n.ownerID = admin.id ∧
    db.users.get? n.ownerID = some u ∧ u.enabled ∧ u.role = .admin
  policy : db.policies.get? node.text = some (bareRow revision budgetBPS)

theorem bare_first : ∃ db, Bare db 1 100000000 := by
  have hrun : (replay Env.plain clock enrolling DB.empty).map (fun db => (db.grants.rows.length,
      (db.nodes.get? node.text).bind fun n => (db.users.get? n.ownerID).map fun u =>
        (n.ownerID = admin.id ∧ u.enabled ∧ u.role = .admin : Bool),
      db.policies.get? node.text)) = .ok (0, some true, some (bareRow 1 100000000)) := by
    decide +kernel
  obtain ⟨db, hdb, hget⟩ := Except_map_eq_ok.mp hrun
  simp only [Prod.mk.injEq, List.length_eq_zero_iff, Option.bind_eq_some_iff,
    Option.map_eq_some_iff, decide_eq_true_eq] at hget
  obtain ⟨hgrants, ⟨n, hn, u, hu, howner⟩, hrow⟩ := hget
  exact ⟨db, replay_reachable hdb (.start rfl), hgrants, ⟨n, u, hn, howner.1, hu, howner.2⟩, hrow⟩

/-- Changing the budget makes the next revision. -/
theorem Bare.next {db : DB} {m b b' : ℕ} (h : Bare db m b) (hlt : m < maxInt64) (hne : b' ≠ b)
    (hbudget : 8 ≤ b' ∧ b' ≤ maxInt64) : ∃ db', Bare db' (m + 1) b' := by
  obtain ⟨n, u, hn, howner, hu, huser⟩ := h.owner
  have hvalid : validateQoS (bare m b').qos = .ok () := by
    refine validateQoS_eq_ok.mpr ⟨⟨hbudget.1, hbudget.2, ?_, ?_, ?_⟩, ?_⟩
    · show validCeiling 0 = true
      decide
    · show validWeight 8 = true
      decide
    · show validWeight 2 = true
      decide
    · simp [bare]
  have hrow : (db.withQoS node.text (bare m b').qos).policies.get? node.text =
      some { bareRow m b with budgetBPS := b' } := by
    rw [DB.withQoS]
    dsimp only
    rw [Table.get?_modify, if_pos rfl, h.policy]
    rfl
  have hproj : Projected Env.plain (db.withQoS node.text (bare m b').qos) node.text
      { bareRow m b with budgetBPS := b' } [] := by
    refine ⟨hrow, h.reachable.sound.retentions, n, u, hn, hu, ?_⟩
    unfold project
    split_ifs
    · change ((db.grants.rows.filterMap _).map Prod.snd).mapM (fun e => e) = _
      rw [h.grants]
      rfl
    · rfl
  obtain ⟨_, p, -, hbody, -, -, hstorable⟩ := h.reachable.fresh _ _ h.policy
  obtain rfl : bare m b = p := Option.some.inj hbody
  have hbuilt : Built Env.plain node.text (clock.read 0) { bareRow m b with budgetBPS := b' } []
      (bareRow (m + 1) b') (bare (m + 1) b') := by
    refine .next rfl (bare_storable (by omega) hlt hbudget) fun old hold => ?_
    obtain rfl : bare m b = old := Option.some.inj hold
    refine ⟨rfl, fun he => hne ?_, le_rfl, hstorable.wellFormed, hstorable.size, bare_marshals m b'⟩
    exact congrArg (fun p => p.qos.budgetBPS) he
  have hset : setNodeQoS Env.plain clock admin node.text (bare m b').qos db = .ok _ :=
    setNodeQoS_eq_ok.mpr ⟨hvalid, n, ⟨.inr ⟨u, howner ▸ hu, huser⟩, hn,
      ⟨rfl, by decide +kernel, .inl rfl⟩⟩, by simp [bare], _,
      buildPolicy_eq_ok.mpr ⟨_, [], _, hproj, hlt, hbuilt, rfl⟩⟩
  have hstep : Step Env.plain db ⟨.setNodeQoS admin node.text (bare m b').qos, clock, .done⟩ _ :=
    quiet_eq_ok.mpr ⟨hset, rfl⟩
  exact ⟨_, h.reachable.step hstep, h.grants, ⟨n, u, hn, howner, hu, huser⟩,
    Table.get?_insert_self _ _ _⟩

theorem bare_reaches (m : ℕ) (hpos : m ≠ 0) (hle : m ≤ maxInt64) :
    ∃ db, Bare db m (if m % 2 = 1 then 100000000 else 200000000) := by
  induction m with
  | zero => exact absurd rfl hpos
  | succ m ih =>
    by_cases hm : m = 0
    · subst hm
      exact bare_first
    · obtain ⟨db, hdb⟩ := ih hm (by omega)
      refine hdb.next (by omega) ?_ ?_
      · split_ifs <;> omega
      · unfold maxInt64
        split_ifs <;> omega

/-- At the last revision what was read cannot be written back. -/
theorem last_revision_refused : ∃ db n q, Store.Reachable Env.plain db ∧
    db.nodes.get? node.text = some n ∧
    db.policies.get? node.text = some (bareRow maxInt64 100000000) ∧
    (bare maxInt64 100000000).generatedAt ≤ clock.read 0 ∧ db.openGrants node.text ≤ 4096 ∧
    Active admin db ∧ Permitted admin n.ownerID ∧ nodeQoS admin node.text db = .ok q ∧
    ∀ db', setNodeQoS Env.plain clock admin node.text q db ≠ .ok db' := by
  obtain ⟨db, hdb⟩ := bare_reaches maxInt64 (by decide) le_rfl
  obtain ⟨n, u, hn, howner, hu, huser⟩ := hdb.owner
  have hperm : Permitted admin n.ownerID := ⟨rfl, by decide +kernel, .inl rfl⟩
  have hrow : db.policies.get? node.text = some (bareRow maxInt64 100000000) := hdb.policy
  refine ⟨db, n, _, hdb.reachable, hn, hrow, le_rfl, ?_, .inr ⟨u, howner ▸ hu, huser⟩, hperm,
    nodeQoS_of_permitted hn hrow hperm, fun db' hset => ?_⟩
  · rw [DB.openGrants, hdb.grants]
    exact Nat.zero_le _
  · obtain ⟨-, n', -, -, p, hbuild⟩ := setNodeQoS_eq_ok.mp hset
    obtain ⟨row, entries, row', hproj, hlt, -⟩ := buildPolicy_eq_ok.mp hbuild
    obtain ⟨row₀, hrow₀, rfl⟩ := Table.get?_modify_eq_some.mp hproj.row
    obtain rfl : bareRow maxInt64 100000000 = row₀ := Option.some.inj (hrow.symm.trans hrow₀)
    rw [if_pos rfl] at hlt
    exact absurd hlt (lt_irrefl _)

end First

end UniDERP
