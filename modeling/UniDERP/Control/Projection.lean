import UniDERP.Control.Freshness

namespace UniDERP

/-- A grant that the policy of a node shows, with the rows that make it so. -/
structure Admitted (db : DB) (id tailnet : String) (n : Node) (g : Grant) (tn : Tailnet)
    (snap : Snapshot) : Prop where
  nodeRow : db.nodes.get? id = some n
  nodeEnabled : n.enabled
  nodeOwner : db.userEnabled n.ownerID
  nodeState : n.state = .registered ∨ n.state = .ready ∨ n.state = .offline
  grantRow : db.grants.get? (pair id tailnet) = some g
  active : g.state = .active
  control : 0 < g.lastControlSuccess
  tailnetRow : db.tailnets.get? tailnet = some tn
  tailnetEnabled : tn.enabled
  tailnetOwner : db.userEnabled tn.ownerID
  snapshotRow : db.snapshots.get? tailnet = some snap

def Contested (db : DB) (tailnet key : String) : Prop :=
  ∃ other snap, other ≠ tailnet ∧ db.snapshots.get? other = some snap ∧
    key ∈ snap.keys.map (·.nodePublic)

open Classical in
noncomputable def ownKeys (db : DB) (tailnet : String) (snap : Snapshot) : List DeviceKey :=
  (snap.keys.filter fun k => ¬ Contested db tailnet k.nodePublic).map fun k =>
    ⟨k.nodePublic, k.notAfter⟩

noncomputable def shownGrant (db : DB) (tailnet : String) (g : Grant) (snap : Snapshot) :
    GrantPolicy where
  grantID := g.id
  grantRevision := g.revision
  tailnetID := tailnet
  lastIdentitySuccess := ofUnix snap.lastSuccess
  identityUntil := ofUnix snap.lastSuccess + db.retentions.identitySeconds * second
  controlUntil := ofUnix g.lastControlSuccess + db.retentions.controlSeconds * second
  explicitUntil := if g.explicitUntil = 0 then zeroTime else ofUnix g.explicitUntil
  keys := ownKeys db tailnet snap

theorem mem_conflictingKeys_iff {db : DB} {tailnet : String} {snap : Snapshot} {k : IdentityKey}
    (hs : db.snapshots.get? tailnet = some snap) (hk : k ∈ snap.keys) :
    k.nodePublic ∈ conflictingKeys db.snapshots.rows ↔ Contested db tailnet k.nodePublic := by
  have hself : (tailnet, snap) ∈ db.snapshots.rows := Table.get?_eq_some_iff.mp hs
  have hkey : k.nodePublic ∈ snap.keys.map (·.nodePublic) := List.mem_map_of_mem hk
  rw [mem_conflictingKeys]
  constructor
  · rintro ⟨a, ha, b, hb, hne, hka, hkb⟩
    -- One of the two tailnets that hold the key is not this one.
    by_cases hat : a.1 = tailnet
    · exact ⟨b.1, b.2, fun h => hne (hat.trans h.symm), Table.get?_eq_some_iff.mpr hb, hkb⟩
    · exact ⟨a.1, a.2, hat, Table.get?_eq_some_iff.mpr ha, hka⟩
  · rintro ⟨other, snap', hne, hs', hk'⟩
    exact ⟨(other, snap'), Table.get?_eq_some_iff.mp hs', (tailnet, snap), hself, hne, hk', hkey⟩

theorem grantPolicy_eq_shownGrant {db : DB} {tailnet : String} {snap : Snapshot} (g : Grant)
    (hs : db.snapshots.get? tailnet = some snap) :
    grantPolicy db tailnet g snap = shownGrant db tailnet g snap := by
  have hkeys : policyKeys (conflictingKeys db.snapshots.rows) snap = ownKeys db tailnet snap := by
    unfold policyKeys ownKeys
    congr 1
    refine List.filter_congr fun k hk => ?_
    rw [decide_eq_decide, mem_conflictingKeys_iff hs hk]
  simp only [grantPolicy, shownGrant, hkeys, ite_not]

theorem NodeState.serving_iff {s : NodeState} :
    s.serving ↔ s = .registered ∨ s = .ready ∨ s = .offline := by
  cases s <;> simp [NodeState.serving]

/-- The entries are in the order of their tailnets, are those of the rows selected, and no
selected row is refused. -/
theorem projectGrants_eq_ok {db : DB} {id owner : String} {entries : List Entry}
    (h : projectGrants db id owner = .ok entries) :
    entries.Pairwise (fun a b => a.1.tailnetID < b.1.tailnetID) ∧
      (∀ e, e ∈ entries ↔ ∃ t g, db.grants.get? (pair id t) = some g ∧
        grantEntry db id owner (pair id t) g = some (.ok e)) ∧
      ∀ k g r, db.grants.get? k = some g → grantEntry db id owner k g = some r →
        ∃ e, r = .ok e := by
  set selected := db.grants.filterMap (grantEntry db id owner)
  have hvalues : selected.rows.map Prod.snd = entries.map .ok := mapM_self_eq_ok.mp h
  have hrow : ∀ k r, (k, r) ∈ selected.rows ↔
      ∃ g, db.grants.get? k = some g ∧ grantEntry db id owner k g = some r := by
    intro k r
    rw [← Table.get?_eq_some_iff, Table.get?_filterMap, Option.bind_eq_some_iff]
  -- An entry names its tailnet, so that the order of the rows is the order of the entries.
  have hkey : ∀ k e, (k, Except.ok e) ∈ selected.rows → k = pair id e.1.tailnetID := by
    intro k e hk
    obtain ⟨g, -, hg⟩ := (hrow k _).mp hk
    obtain ⟨hid, -, -, tn, snap, -, -, -, -, he⟩ := grantEntry_eq_some.mp hg
    obtain ⟨-, rfl⟩ := entryOf_eq_ok.mp he
    rw [← hid]
    exact (pair_ofLex k).symm
  refine ⟨?_, ?_, fun k g r hg hr => ?_⟩
  · have hpairs : (selected.rows.map Prod.snd).Pairwise fun a b => ∀ x y, a = .ok x → b = .ok y →
        x.1.tailnetID < y.1.tailnetID := by
      rw [List.pairwise_map]
      refine selected.ordered.imp_of_mem ?_
      rintro ⟨k, r⟩ ⟨k', r'⟩ hk hk' hlt x y rfl rfl
      rw [hkey k x hk, hkey k' y hk'] at hlt
      exact pair_lt_pair.mp hlt
    rw [hvalues, List.pairwise_map] at hpairs
    exact hpairs.imp fun h => h _ _ rfl rfl
  · intro e
    have hmem : e ∈ entries ↔ ∃ k, (k, Except.ok e) ∈ selected.rows := by
      rw [← List.mem_map_of_injective (f := @Except.ok Err _) fun _ _ => Except.ok.inj,
        ← hvalues]
      simp
    rw [hmem]
    constructor
    · rintro ⟨k, hk⟩
      obtain rfl := hkey k e hk
      exact ⟨e.1.tailnetID, (hrow _ _).mp hk⟩
    · rintro ⟨t, g, hg, he⟩
      exact ⟨pair id t, (hrow _ _).mpr ⟨g, hg, he⟩⟩
  · have hr : r ∈ entries.map .ok :=
      hvalues ▸ List.mem_map_of_mem (f := Prod.snd) ((hrow k r).mpr ⟨g, hg, hr⟩)
    obtain ⟨e, -, rfl⟩ := List.mem_map.mp hr
    exact ⟨e, rfl⟩

theorem project_eq_ok {db : DB} {id : String} {n : Node} {u : User} {entries : List Entry}
    (hn : db.nodes.get? id = some n) (hu : db.users.get? n.ownerID = some u)
    (h : project db id n u = .ok entries) :
    entries.Pairwise (fun a b => a.1.tailnetID < b.1.tailnetID) ∧
      ∀ e, e ∈ entries ↔ ∃ t g tn snap, Admitted db id t n g tn snap ∧
        e = (shownGrant db t g snap, grantRule db id t n.ownerID tn.ownerID) := by
  have huser : db.userEnabled n.ownerID ↔ u.enabled := by simp [DB.userEnabled, hu]
  unfold project at h
  split_ifs at h with hserves
  · obtain ⟨hsorted, hmem, hnone⟩ := projectGrants_eq_ok h
    refine ⟨hsorted, fun e => ?_⟩
    simp only [hmem, grantEntry_eq_some, entryOf_eq_ok, pair_fst, pair_snd, true_and]
    constructor
    · rintro ⟨t, g, hg, ha, hc, tn, snap, htn, he, hto, hs, -, rfl⟩
      refine ⟨t, g, tn, snap, ⟨hn, hserves.1, huser.mpr hserves.2.1,
        NodeState.serving_iff.mp hserves.2.2, hg, ha, hc, htn, he, hto, hs⟩, ?_⟩
      rw [grantPolicy_eq_shownGrant g hs]
    · rintro ⟨t, g, tn, snap, hadm, rfl⟩
      have hentry : grantEntry db id n.ownerID (pair id t) g =
          some (entryOf db id n.ownerID t g tn snap) :=
        grantEntry_eq_some.mpr ⟨rfl, hadm.active, hadm.control, tn, snap, hadm.tailnetRow,
          hadm.tailnetEnabled, hadm.tailnetOwner, hadm.snapshotRow, rfl⟩
      obtain ⟨e, he⟩ := hnone _ _ _ hadm.grantRow hentry
      refine ⟨t, g, hadm.grantRow, hadm.active, hadm.control, tn, snap, hadm.tailnetRow,
        hadm.tailnetEnabled, hadm.tailnetOwner, hadm.snapshotRow, (entryOf_eq_ok.mp he).1, ?_⟩
      rw [grantPolicy_eq_shownGrant g hadm.snapshotRow]
  -- A node that does not serve has no entries, and no grant of it is admitted.
  · obtain rfl := Except.ok.inj h
    refine ⟨.nil, fun e => ⟨fun he => absurd he (List.not_mem_nil), ?_⟩⟩
    rintro ⟨t, g, tn, snap, hadm, -⟩
    exact absurd ⟨hadm.nodeEnabled, huser.mp hadm.nodeOwner,
      NodeState.serving_iff.mpr hadm.nodeState⟩ hserves

/-- The policy of a node, as the tables determine it: one grant for each admitted tailnet, with
the rule of that tailnet beside it, under the node's own limits. -/
structure Describes (db : DB) (id : String) (row : PolicyRow) (p : Policy) : Prop where
  ordered : (p.grants.map (·.tailnetID)).Pairwise (· < ·)
  grants : ∀ gp, gp ∈ p.grants ↔ ∃ t n g tn snap, Admitted db id t n g tn snap ∧
    gp = shownGrant db t g snap
  rules : p.qos.tailnets.map (·.tailnetID) = p.grants.map (·.tailnetID)
  rule : ∀ rule, rule ∈ p.qos.tailnets ↔ ∃ t n g tn snap, Admitted db id t n g tn snap ∧
    rule = grantRule db id t n.ownerID tn.ownerID
  limits : p.qos.budgetBPS = row.budgetBPS ∧ p.qos.ownerWeight = row.ownerWeight ∧
    p.qos.sharedWeight = row.sharedWeight ∧ p.qos.sharedMaxBPS = row.sharedMaxBPS

theorem grantRule_tailnetID (db : DB) (id t nodeOwner tailnetOwner : String) :
    (grantRule db id t nodeOwner tailnetOwner).tailnetID = t := by
  unfold grantRule
  split <;> rfl

theorem Projected.describes {E : Env} {db : DB} {id : String} {row : PolicyRow}
    {entries : List Entry} (h : Projected E db id row entries) (revision : ℕ) (generatedAt : Int) :
    Describes db id row (policyOf E id row entries revision generatedAt) := by
  obtain ⟨n, u, hn, hu, he⟩ := h.entries
  obtain ⟨hsorted, hmem⟩ := project_eq_ok hn hu he
  have hnode : ∀ {t n' g tn snap}, Admitted db id t n' g tn snap → n' = n := fun hadm =>
    Option.some.inj (hadm.nodeRow.symm.trans hn)
  constructor
  · simp only [policyOf, List.map_map, List.pairwise_map]
    exact hsorted
  · intro gp
    simp only [policyOf, List.mem_map, hmem]
    constructor
    · rintro ⟨_, ⟨t, g, tn, snap, hadm, rfl⟩, rfl⟩
      exact ⟨t, n, g, tn, snap, hadm, rfl⟩
    · rintro ⟨t, n', g, tn, snap, hadm, rfl⟩
      obtain rfl := hnode hadm
      exact ⟨_, ⟨t, g, tn, snap, hadm, rfl⟩, rfl⟩
  · simp only [policyOf, List.map_map]
    refine List.map_congr_left fun e he => ?_
    obtain ⟨t, g, tn, snap, -, rfl⟩ := (hmem e).mp he
    exact grantRule_tailnetID _ _ _ _ _
  · intro rule
    simp only [policyOf, List.mem_map, hmem]
    constructor
    · rintro ⟨_, ⟨t, g, tn, snap, hadm, rfl⟩, rfl⟩
      exact ⟨t, n, g, tn, snap, hadm, rfl⟩
    · rintro ⟨t, n', g, tn, snap, hadm, rfl⟩
      obtain rfl := hnode hadm
      exact ⟨_, ⟨t, g, tn, snap, hadm, rfl⟩, rfl⟩
  · exact ⟨rfl, rfl, rfl, rfl⟩

section Stored

variable {E : Env} {db : DB} {id : String} {row : PolicyRow}

theorem Store.Reachable.decodes (h : Store.Reachable E db)
    (hrow : db.policies.get? id = some row) :
    ∃ p, row.policyJSON = some p ∧ decodePolicy E p id = .ok p ∧ Describes db id row p := by
  obtain ⟨entries, p, hproj, hp, -, hcontent, hstorable⟩ := h.fresh id row hrow
  exact ⟨p, hp, decodePolicy_eq_ok.mpr ⟨hstorable.size, hstorable.wellFormed, rfl⟩,
    hcontent ▸ hproj.describes _ _⟩

theorem Store.Reachable.shown (h : Store.Reachable E db) {p : Policy} {gp : GrantPolicy}
    (hrow : db.policies.get? id = some row) (hp : row.policyJSON = some p) (hgp : gp ∈ p.grants) :
    ∃ n g tn snap, Admitted db id gp.tailnetID n g tn snap ∧
      gp = shownGrant db gp.tailnetID g snap := by
  obtain ⟨q, hq, -, hdescribes⟩ := h.decodes hrow
  cases hp.symm.trans hq
  obtain ⟨t, n, g, tn, snap, hadmitted, rfl⟩ := (hdescribes.grants gp).mp hgp
  exact ⟨n, g, tn, snap, hadmitted, rfl⟩

end Stored

/-- In every reachable database the stored policy of every node is the one the tables determine,
and building it again changes nothing. -/
theorem Store.Reachable.stored_policy_describes {E : Env} {db : DB} (h : Store.Reachable E db)
    {id : String} {row : PolicyRow} (hrow : db.policies.get? id = some row) :
    ∃ p, row.policyJSON = some p ∧ Describes db id row p ∧
      (row.desiredRevision < maxInt64 → ∀ now, buildPolicy E id now db = .ok (db, p)) := by
  obtain ⟨entries, p, hproj, hbody, hrev, hcontent, hstorable⟩ := h.fresh id row hrow
  refine ⟨p, hbody, hcontent ▸ hproj.describes _ _, fun hlt now => ?_⟩
  refine buildPolicy_eq_ok.mpr ⟨row, entries, row, hproj, hlt, .same hbody hstorable hrev hcontent,
    ?_⟩
  rw [Table.insert_eq_self hrow]

theorem first_policy_describes : ∃ db row p, Store.Reachable Env.plain db ∧
    db.policies.get? First.node.text = some row ∧ row.policyJSON = some p ∧
    p.grants.map (·.tailnetID) = [First.tailnet.text] ∧ Describes db First.node.text row p := by
  have hrun : (replay Env.plain First.clock (First.enrolling ++ First.granting) DB.empty).map
      (fun db => (db.policies.get? First.node.text).bind fun row =>
        row.policyJSON.map fun p => p.grants.map (·.tailnetID)) =
      .ok (some [First.tailnet.text]) := by
    decide +kernel
  obtain ⟨db, hdb, hget⟩ := Except_map_eq_ok.mp hrun
  obtain ⟨row, hrow, hbody⟩ := Option.bind_eq_some_iff.mp hget
  obtain ⟨p, hp, hgrants⟩ := Option.map_eq_some_iff.mp hbody
  have hreach : Store.Reachable Env.plain db := replay_reachable hdb (.start rfl)
  obtain ⟨q, hq, hdescribes, -⟩ := hreach.stored_policy_describes hrow
  obtain rfl : p = q := Option.some.inj (hp.symm.trans hq)
  exact ⟨db, row, p, hreach, hrow, hp, hgrants, hdescribes⟩

end UniDERP
