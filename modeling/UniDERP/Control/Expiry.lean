import UniDERP.Control.Consent
import UniDERP.Control.Domains
import UniDERP.Control.ExpiryEvents
import UniDERP.Control.Isolation
import UniDERP.Control.Projection
import UniDERP.Control.Revocation

namespace UniDERP

def validKeys (now : Int) (g : GrantPolicy) : ℕ := g.keys.countP fun k => now < effectiveUntil g k

def DB.storedPolicy (db : DB) (id : String) : Option Policy :=
  (db.policies.get? id).bind (·.policyJSON)

section Keys

variable {now : Int} {g : GrantPolicy} {k : DeviceKey}

theorem lt_effectiveUntil : now < effectiveUntil g k ↔ now < g.identityUntil ∧
    (g.controlUntil = zeroTime ∨ now < g.controlUntil) ∧
    (g.explicitUntil = zeroTime ∨ now < g.explicitUntil) ∧
    (k.notAfter.time = zeroTime ∨ now < k.notAfter.time) := by
  simp only [effectiveUntil, List.foldl_cons, List.foldl_nil]
  split_ifs <;> omega

theorem validKeys_pos : 0 < validKeys now g ↔ ∃ k ∈ g.keys, now < effectiveUntil g k := by
  simp [validKeys, List.countP_pos_iff]

theorem validKeys_eq_zero : validKeys now g = 0 ↔ ∀ k ∈ g.keys, effectiveUntil g k ≤ now := by
  simp [validKeys, List.countP_eq_zero]

theorem grantEnded_iff (hcontrol : g.controlUntil ≠ zeroTime) (hkeys : g.keys ≠ []) :
    grantEnded now g ↔ validKeys now g = 0 := by
  simp only [grantEnded, Bool.or_eq_true, decide_eq_true_eq, Bool.and_eq_true, Bool.not_eq_true',
    List.isEmpty_eq_false_iff, ne_eq, hkeys, not_false_eq_true, true_and, List.all_eq_true,
    validKeys_eq_zero]
  constructor
  · rintro (hdeadline | hall)
    · intro k _
      rw [← not_lt, lt_effectiveUntil]
      omega
    · exact hall
  · exact .inr

theorem hasLiveKey_still {p : Policy} :
    hasLiveKey (fun _ => now) p ↔ ∃ g ∈ p.grants, 0 < validKeys now g := by
  simp only [hasLiveKey, List.any_eq_true, decide_eq_true_eq, validKeys_pos]
  constructor
  · rintro ⟨⟨⟨g, k⟩, i⟩, hx, hlive⟩
    have hmem := List.mem_of_getElem? (List.mem_zipIdx_iff_getElem?.mp hx)
    simp only [List.mem_flatMap, List.mem_map, Prod.mk.injEq] at hmem
    obtain ⟨g', hg', k', hk', rfl, rfl⟩ := hmem
    exact ⟨_, hg', _, hk', hlive⟩
  · rintro ⟨g, hg, k, hk, hlive⟩
    have hmem : (g, k) ∈ p.grants.flatMap fun g => g.keys.map fun k => (g, k) :=
      List.mem_flatMap.mpr ⟨g, hg, List.mem_map_of_mem hk⟩
    obtain ⟨i, hi, heq⟩ := List.mem_iff_getElem.mp hmem
    exact ⟨((g, k), i), List.mem_zipIdx_iff_getElem?.mpr (List.getElem?_eq_some_iff.mpr ⟨hi, heq⟩),
      hlive⟩

theorem grantStatuses_still {gs : List GrantPolicy} : grantStatuses (fun _ => now) gs =
    gs.map fun g => ⟨g.grantID, g.tailnetID, g.lastIdentitySuccess, g.identityUntil,
      g.controlUntil, g.explicitUntil, validKeys now g⟩ := by
  have hcount : ∀ g : GrantPolicy, (g.keys.zipIdx.countP fun x => now < effectiveUntil g x.1) =
      validKeys now g := by
    intro g
    rw [validKeys]
    conv_rhs => rw [← List.zipIdx_map_fst 0 g.keys, List.countP_map]
    rfl
  induction gs with
  | nil => rfl
  | cons g gs ih => rw [grantStatuses, List.map_cons, ih, hcount]

end Keys

section Stored

variable {E : Env} {db : DB} {now : Int} {id : String} {p : Policy} {gp : GrantPolicy}

theorem endedGrants_ok {rows : List (String × PolicyRow)} (expired : Table String Bool)
    (hrows : ∀ x ∈ rows, ∃ p, x.2.policyJSON = some p ∧ decodePolicy E p x.1 = .ok p) :
    ∃ ended, endedGrants E now rows expired = .ok ended ∧
      (∀ gid b, ended.get? gid = some b → expired.get? gid = some b ∨ ∃ x ∈ rows, ∃ p,
        x.2.policyJSON = some p ∧ ∃ g ∈ p.grants, g.grantID = gid ∧ grantEnded now g = b) ∧
      ∀ gid, ((expired.get? gid).isSome ∨ ∃ x ∈ rows, ∃ p, x.2.policyJSON = some p ∧
        ∃ g ∈ p.grants, g.grantID = gid) → (ended.get? gid).isSome := by
  induction rows generalizing expired with
  | nil => exact ⟨expired, rfl, fun _ _ h => .inl h, fun _ h => by simpa using h⟩
  | cons x rows ih =>
    obtain ⟨id, row⟩ := x
    obtain ⟨p, hp, hdecode⟩ := hrows (id, row) List.mem_cons_self
    -- The map goes through the policies, and a later grant of the same id overwrites an earlier
    -- one.
    obtain ⟨ended, hended, hfound, hkept⟩ := ih
      (p.grants.foldl (fun expired g => expired.insert g.grantID (grantEnded now g)) expired)
      fun y hy => hrows y (List.mem_cons_of_mem _ hy)
    refine ⟨ended, ?_, fun gid b hb => ?_, fun gid hgid => hkept gid ?_⟩
    · rw [endedGrants, show row.policyJSON = some p from hp]
      simp only [hdecode, ok_bind, hended]
    · rcases hfound gid b hb with hwritten | ⟨y, hy, hlisted⟩
      · exact (Table.get?_foldl_insert hwritten).imp_right fun hlisted =>
          ⟨_, List.mem_cons_self, p, hp, hlisted⟩
      · exact .inr ⟨y, List.mem_cons_of_mem _ hy, hlisted⟩
    · rw [List.exists_mem_cons_iff] at hgid
      rcases hgid with hold | ⟨q, hq, hlisted⟩ | hrest
      · exact .inl (Table.isSome_get?_foldl_insert (.inl hold))
      · cases hp.symm.trans hq
        exact .inl (Table.isSome_get?_foldl_insert (.inr hlisted))
      · exact .inr hrest

theorem Store.Reachable.admitted (h : Store.Reachable E db) (hp : db.storedPolicy id = some p)
    (hgp : gp ∈ p.grants) : ∃ n g tn snap, Admitted db id gp.tailnetID n g tn snap ∧
      gp = shownGrant db gp.tailnetID g snap := by
  obtain ⟨row, hrow, hbody⟩ := Option.bind_eq_some_iff.mp hp
  exact h.shown hrow hbody hgp

/-- A deadline is in the future when it is asked for. -/
theorem Step.explicit_nonneg {db' : DB} {a : Commit} (h : Step E db a db')
    (hpos : ∀ k g, db.grants.get? k = some g → 0 ≤ g.explicitUntil) (k : Pair) (g : Grant)
    (hg : db'.grants.get? k = some g) : 0 ≤ g.explicitUntil := by
  have hchange := Step.grant_change h k
  rw [hg] at hchange
  generalize hold : db.grants.get? k = old at hchange
  cases hchange with
  | kept => exact hpos k g hold
  | @seen g => exact hpos k g hold
  | @released g => exact hpos k g hold
  | @acted g => exact hpos k g hold
  | requested request =>
    obtain ⟨actor, expected, until_, id, ps, hop, -, -, -, -, -, huntil⟩ := request.call
    obtain ⟨op, c, reply⟩ := a
    subst hop
    simp only [Step, exec, answer_eq_ok, requestGrant, Except_bind_eq_ok, require_eq_ok,
      exists_const] at h
    obtain ⟨_, ⟨⟨-, hfuture⟩, -⟩, -⟩ := h
    rw [huntil, untilUnix]
    split_ifs with hzero
    · exact le_rfl
    · have hlt := hfuture hzero
      have hpast := c.past 0
      simp only [truncate, ofUnix, second] at hlt hpast
      omega

theorem Store.Reachable.explicit_nonneg (h : Store.Reachable E db) :
    ∀ k g, db.grants.get? k = some g → 0 ≤ g.explicitUntil := by
  refine Reachable.invariant h ?_ fun s a s' _ hs hstep => Step.explicit_nonneg hstep hs
  rintro s rfl k g hg
  simp [DB.empty] at hg

/-- The sweep can read every policy, and finds a grant expired when none of its keys is valid. -/
theorem Store.Reachable.expired_iff (h : Store.Reachable E db) (now : Int) :
    ∃ ended, endedGrants E now db.policies.rows ∅ = .ok ended ∧
      ∀ id p gp g, db.storedPolicy id = some p → gp ∈ p.grants → gp.keys ≠ [] →
        db.grants.get? (pair id gp.tailnetID) = some g →
        (Expired ended now g ↔ validKeys now gp = 0) := by
  have hrows : ∀ x ∈ db.policies.rows, ∃ p, x.2.policyJSON = some p ∧
      decodePolicy E p x.1 = .ok p := by
    intro x hx
    obtain ⟨p, hp, hdecode, -⟩ := h.decodes (Table.get?_eq_some_iff.mpr hx)
    exact ⟨p, hp, hdecode⟩
  obtain ⟨ended, hended, hfound, hkept⟩ := endedGrants_ok ∅ hrows
  refine ⟨ended, hended, fun id p gp g hp hgp hkeys hg => ?_⟩
  obtain ⟨n, g', tn, snap, hadm, hshown⟩ := h.admitted hp hgp
  obtain rfl : g' = g := Option.some.inj (hadm.grantRow.symm.trans hg)
  have hcontrol : gp.controlUntil ≠ zeroTime := by
    have hpos := hadm.control
    rw [hshown]
    simp only [shownGrant, ofUnix, zeroTime, second]
    omega
  -- The grant is in no other policy, since its id is in no other row.
  have hvalue : ∀ b, ended.get? g'.id = some b → b = grantEnded now gp := by
    intro b hb
    rcases hfound _ b hb with hnone | ⟨⟨id', row⟩, hx, q, hq, gq, hgq, hid, rfl⟩
    · simp at hnone
    have hstored : db.storedPolicy id' = some q := by
      rw [DB.storedPolicy, Table.get?_eq_some_iff.mpr hx]
      exact hq
    obtain ⟨n', g₁, tn', snap', hadm', hshown'⟩ := h.admitted hstored hgq
    have hpair := h.unique_grants _ _ _ _ hadm'.grantRow hadm.grantRow
      (by rw [← hid, hshown']; rfl)
    obtain ⟨rfl, htailnet⟩ := pair_inj.mp hpair
    obtain rfl : q = p := Option.some.inj (hstored.symm.trans hp)
    rw [htailnet] at hadm' hshown'
    obtain rfl := Option.some.inj (hadm'.grantRow.symm.trans hadm.grantRow)
    obtain rfl := Option.some.inj (hadm'.snapshotRow.symm.trans hadm.snapshotRow)
    rw [hshown, ← hshown']
  have hlisted : ended.get? g'.id = some true ↔ grantEnded now gp := by
    obtain ⟨row, hrow, hbody⟩ := Option.bind_eq_some_iff.mp hp
    obtain ⟨b, hb⟩ := Option.isSome_iff_exists.mp (hkept g'.id (.inr ⟨(id, row),
      Table.get?_eq_some_iff.mp hrow, p, hbody, gp, hgp, by rw [hshown]; rfl⟩))
    rw [hb, hvalue b hb, Option.some.injEq]
  rw [Expired, hlisted, grantEnded_iff hcontrol hkeys]
  constructor
  · rintro ⟨-, ⟨hset, hpast⟩ | ⟨-, hnone⟩⟩
    · -- The deadline of the row is one of the policy's.
      rw [validKeys_eq_zero]
      intro k _
      have hexplicit : gp.explicitUntil = ofUnix g'.explicitUntil := by
        rw [hshown]
        exact if_neg hset
      have hnonneg := h.explicit_nonneg _ _ hg
      rw [← not_lt, lt_effectiveUntil, hexplicit]
      simp only [ofUnix, zeroTime, second] at hpast ⊢
      omega
    · exact hnone
  · intro hnone
    exact ⟨by simp [hadm.active, GrantState.live], .inr ⟨hadm.active, hnone⟩⟩

theorem Store.Reachable.openExpiries_le (h : Store.Reachable E db) :
    ∀ owner grant, db.openExpiries owner grant ≤ 1 := by
  refine Reachable.invariant (I := fun db => ∀ owner grant, db.openExpiries owner grant ≤ 1) h ?_
    fun s a s' _ hs hstep => ?_
  · rintro s rfl owner grant
    exact Nat.zero_le 1
  · intro owner grant
    by_cases hop : a.op = .refreshExpiryEvents
    · obtain ⟨op, c, reply⟩ := a
      subst hop
      simp only [Step, exec, quiet_eq_ok, refreshExpiryEvents, Except_bind_eq_ok,
        Except_pure_eq_ok] at hstep
      obtain ⟨⟨ended, -, rfl⟩, -⟩ := hstep
      exact sweep_le (c.unix_pos 0).ne' hs
    · rw [Step.openExpiries hstep hop]
      exact hs owner grant

end Stored

section Map

variable {E : Env} {db : DB} {now : Int} {tailnet : String}

def Offers (now : Int) (tailnet : String) (p : Policy) : Prop :=
  ∃ g ∈ p.grants, g.tailnetID = tailnet ∧ 0 < validKeys now g

theorem hasLiveKey_about {p : Policy} :
    hasLiveKey (fun _ => now) (p.about tailnet) ↔ Offers now tailnet p := by
  simp [hasLiveKey_still, Policy.about, Offers, and_assoc]

/-- Rows of different regions that can be read are all exported that offer something. -/
theorem exportRegions_ok {rows : List (String × Node × PolicyRow)} {m : Table ℕ DERPRegion}
    (hrows : ∀ x ∈ rows, (900 ≤ x.2.1.regionID ∧ x.2.1.regionID ≤ 999) ∧
      ∃ p, x.2.2.policyJSON = some p ∧ decodePolicy E p x.1 = .ok p)
    (hapart : rows.Pairwise fun x y => x.2.1.regionID ≠ y.2.1.regionID)
    (hfree : ∀ x ∈ rows, m.get? x.2.1.regionID = none) :
    ∃ m', exportRegions E tailnet (fun _ => now) rows m = .ok m' ∧
      ∀ r region, m'.get? r = some region ↔ m.get? r = some region ∨
        ∃ x ∈ rows, x.2.1.regionID = r ∧ derpRegion x.2.1 = region ∧
          ∃ p, x.2.2.policyJSON = some p ∧ Offers now tailnet p := by
  induction rows generalizing m with
  | nil => exact ⟨m, rfl, by simp⟩
  | cons x rows ih =>
    obtain ⟨id, n, row⟩ := x
    obtain ⟨hrange, p, hp, hdecode⟩ := hrows _ List.mem_cons_self
    dsimp only at hrange hp hdecode
    obtain ⟨hne, hapart⟩ := List.pairwise_cons.mp hapart
    have hrows' : ∀ x ∈ rows, (900 ≤ x.2.1.regionID ∧ x.2.1.regionID ≤ 999) ∧
        ∃ p, x.2.2.policyJSON = some p ∧ decodePolicy E p x.1 = .ok p :=
      fun y hy => hrows y (List.mem_cons_of_mem _ hy)
    simp only [exportRegions, hp, orElse, hdecode, ok_bind, List.exists_mem_cons_iff]
    -- A node whose policy offers no live key is passed over; another one takes its region, which is
    -- free.
    by_cases hlive : hasLiveKey (fun _ => now) (p.about tailnet) = true
    · have hoffers := hasLiveKey_about.mp hlive
      obtain ⟨m', hm', hmem⟩ := ih (m := m.insert n.regionID (derpRegion n)) hrows' hapart
        fun y hy => by
          rw [Table.get?_insert_ne _ _ (hne y hy).symm]
          exact hfree y (List.mem_cons_of_mem _ hy)
      have hnone : m.get? n.regionID = none := hfree _ List.mem_cons_self
      refine ⟨m', ?_, fun r region => ?_⟩
      · rw [if_pos hlive, require, if_pos ⟨hrange.1, hrange.2, hnone⟩, ok_bind]
        exact hm'
      · rw [hmem, Table.get?_insert_eq_some]
        constructor
        · rintro ((⟨rfl, rfl⟩ | ⟨-, hold⟩) | hrest)
          · exact .inr (.inl ⟨rfl, rfl, p, rfl, hoffers⟩)
          · exact .inl hold
          · exact .inr (.inr hrest)
        · rintro (hold | ⟨rfl, rfl, -⟩ | hrest)
          · refine .inl (.inr ⟨fun hr => ?_, hold⟩)
            rw [hr, hnone] at hold
            cases hold
          · exact .inl (.inl ⟨rfl, rfl⟩)
          · exact .inr hrest
    · have hoffers : ¬ Offers now tailnet p := fun h => hlive (hasLiveKey_about.mpr h)
      obtain ⟨m', hm', hmem⟩ := ih hrows' hapart fun y hy => hfree y (List.mem_cons_of_mem _ hy)
      refine ⟨m', ?_, fun r region => ?_⟩
      · rw [if_neg hlive]
        exact hm'
      · simp [hmem, hoffers]

theorem mapRow_eq_some {k : Pair} {g : Grant} {x : String × Node × PolicyRow} :
    mapRow db tailnet k g = some x ↔ k = pair x.1 tailnet ∧ g.state = .active ∧
      db.nodes.get? x.1 = some x.2.1 ∧ db.policies.get? x.1 = some x.2.2 ∧
      ∃ tn, db.tailnets.get? tailnet = some tn ∧ x.2.1.enabled ∧ x.2.1.state.serving ∧
        db.userEnabled x.2.1.ownerID ∧ tn.enabled ∧ db.userEnabled tn.ownerID := by
  obtain ⟨id, n, row⟩ := x
  simp only [mapRow, Option.bind_eq_bind, Option.bind_eq_some_iff, Option.guard_eq_some',
    Option.pure_def, Option.some.injEq, Prod.mk.injEq, exists_const]
  constructor
  · rintro ⟨⟨rfl, hactive⟩, n', hn, tn, htn, row', hrow, henabled, rfl, rfl, rfl⟩
    exact ⟨(pair_ofLex k).symm, hactive, hn, hrow, tn, htn, henabled⟩
  · rintro ⟨rfl, hactive, hn, hrow, tn, htn, henabled⟩
    exact ⟨⟨rfl, hactive⟩, n, hn, tn, htn, row, hrow, henabled, rfl, rfl, rfl⟩

theorem mem_mapRows {x : String × Node × PolicyRow} : x ∈ mapRows db tailnet ↔
    ∃ g, db.grants.get? (pair x.1 tailnet) = some g ∧
      mapRow db tailnet (pair x.1 tailnet) g = some x := by
  simp only [mapRows, List.mem_mergeSort, Table.values, List.mem_map, Prod.exists, exists_eq_right,
    ← Table.get?_eq_some_iff, Table.get?_filterMap, Option.bind_eq_some_iff]
  constructor
  · rintro ⟨k, g, hg, hx⟩
    obtain rfl := (mapRow_eq_some.mp hx).1
    exact ⟨g, hg, hx⟩
  · rintro ⟨g, hg, hx⟩
    exact ⟨_, g, hg, hx⟩

theorem mapRows_apart (h : Apart db) :
    (mapRows db tailnet).Pairwise fun x y => x.2.1.regionID ≠ y.2.1.regionID := by
  rw [mapRows, (List.mergeSort_perm _ _).pairwise_iff Ne.symm, Table.values, List.pairwise_map]
  refine (db.grants.filterMap (mapRow db tailnet)).ordered.imp_of_mem ?_
  rintro ⟨k, x⟩ ⟨k', x'⟩ hx hx' hlt hsame
  rw [← Table.get?_eq_some_iff, Table.get?_filterMap, Option.bind_eq_some_iff] at hx hx'
  obtain ⟨g, -, hx⟩ := hx
  obtain ⟨g', -, hx'⟩ := hx'
  obtain ⟨rfl, -, hn, -⟩ := mapRow_eq_some.mp hx
  obtain ⟨rfl, -, hn', -⟩ := mapRow_eq_some.mp hx'
  rw [h.regions _ _ _ _ hn hn' hsame] at hlt
  exact lt_irrefl _ hlt

theorem tailnetOwner_ne_conflict {actor : Actor} :
    tailnetOwner actor tailnet db ≠ .error .conflict := by
  unfold tailnetOwner activeActor requireOwner
  cases db.users.get? actor.id <;> cases db.tailnets.get? tailnet <;>
    simp only [orElse, require, bind, Except.bind, pure, Except.pure] <;> split_ifs <;> simp

/-- The owner of a tailnet gets the regions of the nodes whose policies offer it something. -/
theorem Store.Reachable.exported (h : Store.Reachable E db) (now : Int) (tailnet : String) : ∃ m,
    exportRegions E tailnet (fun _ => now) (mapRows db tailnet) ∅ = .ok m ∧
      ∀ r region, m.get? r = some region ↔ ∃ id n p, db.nodes.get? id = some n ∧
        n.regionID = r ∧ derpRegion n = region ∧ db.storedPolicy id = some p ∧
        Offers now tailnet p := by
  have hrow : ∀ x ∈ mapRows db tailnet, db.nodes.get? x.1 = some x.2.1 ∧
      db.policies.get? x.1 = some x.2.2 := by
    intro x hx
    obtain ⟨g, -, hx⟩ := mem_mapRows.mp hx
    obtain ⟨-, -, hn, hrow, -⟩ := mapRow_eq_some.mp hx
    exact ⟨hn, hrow⟩
  have hreadable : ∀ x ∈ mapRows db tailnet,
      (900 ≤ x.2.1.regionID ∧ x.2.1.regionID ≤ 999) ∧
        ∃ p, x.2.2.policyJSON = some p ∧ decodePolicy E p x.1 = .ok p := by
    intro x hx
    obtain ⟨p, hp, hdecode, -⟩ := h.decodes (hrow x hx).2
    exact ⟨h.apart.range _ _ (hrow x hx).1, p, hp, hdecode⟩
  obtain ⟨m, hm, hmem⟩ := exportRegions_ok hreadable (mapRows_apart h.apart)
    fun x _ => Table.get?_empty _
  refine ⟨m, hm, fun r region => ?_⟩
  rw [hmem, Table.get?_empty]
  constructor
  · rintro (hnone | ⟨x, hx, hr, hregion, p, hp, hoffers⟩)
    · cases hnone
    · refine ⟨x.1, x.2.1, p, (hrow x hx).1, hr, hregion, ?_, hoffers⟩
      rw [DB.storedPolicy, (hrow x hx).2]
      exact hp
  -- What the policy offers was admitted, and this is what the query of the map asks of the rows.
  · rintro ⟨id, n, p, hn, hr, hregion, hp, hoffers⟩
    obtain ⟨row, hpolicy, hbody⟩ := Option.bind_eq_some_iff.mp hp
    obtain ⟨gp, hgp, rfl, hlive⟩ := hoffers
    obtain ⟨n', g, tn, snap, hadm, -⟩ := h.admitted hp hgp
    obtain rfl : n' = n := Option.some.inj (hadm.nodeRow.symm.trans hn)
    refine .inr ⟨(id, n', row), mem_mapRows.mpr ⟨g, hadm.grantRow, ?_⟩, hr, hregion, p, hbody,
      gp, hgp, rfl, hlive⟩
    exact mapRow_eq_some.mpr ⟨rfl, hadm.active, hn, hpolicy, tn, hadm.tailnetRow,
      hadm.nodeEnabled, NodeState.serving_iff.mpr hadm.nodeState, hadm.nodeOwner,
      hadm.tailnetEnabled, hadm.tailnetOwner⟩

end Map

section Agreement

variable {E : Env} {db : DB} {now : Int}

/-- What a tailnet's owner is shown of a grant. -/
theorem Store.Reachable.status_shows (h : Store.Reachable E db) {c : Clock} {actor : Actor}
    {id : String} {streamOpen : Bool} {p : Policy} {gp : GrantPolicy} {tn : Tailnet}
    (hp : db.storedPolicy id = some p) (hgp : gp ∈ p.grants)
    (htn : db.tailnets.get? gp.tailnetID = some tn) (hactor : Permitted actor tn.ownerID)
    (hnow : ∀ i, c.read i = now) :
    ∃ status, nodeStatus E c actor id streamOpen db = .ok status ∧
      ∃ s ∈ status.grants, s.grantID = gp.grantID ∧ s.tailnetID = gp.tailnetID ∧
        s.validKeys = validKeys now gp := by
  obtain ⟨n, g, tn', snap, hadm, hshown⟩ := h.admitted hp hgp
  have hself : requireOwner actor actor.id = .ok () :=
    requireOwner_eq_ok.mpr ⟨hactor.1, hactor.2.1, .inr rfl⟩
  set owner := (requireOwner actor n.ownerID).isOk with howner
  -- An administrator sees every node, and the owner of the tailnet takes part.
  have hrole : owner = true ∨ db.ownsTailnet actor gp.tailnetID = true := by
    rcases hactor.2.2 with hadmin | hid
    · have hok : requireOwner actor n.ownerID = .ok () :=
        requireOwner_eq_ok.mpr ⟨hactor.1, hactor.2.1, .inl hadmin⟩
      exact .inl (by rw [howner, hok]; rfl)
    · exact .inr (by simp [DB.ownsTailnet, htn, hid])
  have hallowed : owner = true ∨ db.participates actor id = true := by
    refine hrole.imp_right fun howns => Table.any_eq_true.mpr ⟨_, g, hadm.grantRow, ?_⟩
    simp [hadm.active, GrantState.live, howns]
  have hgrants := h.visibleGrants id fun t =>
    db.ownsTailnet actor t || (owner && (db.tailnets.get? t).isSome)
  simp only [nodeStatus, hself, hadm.nodeRow, orElse, ok_bind, ← howner]
  rw [require, if_pos hallowed, hgrants]
  refine ⟨_, rfl, ?_⟩
  have hread : (fun i => c.read (i + 1)) = fun _ => now := funext fun i => hnow (i + 1)
  have hbody : (db.policies.get? id).bind (·.policyJSON) = some p := hp
  simp only [statusOf, hbody, Option.map_some, Option.getD_some, hread, grantStatuses_still]
  refine ⟨_, List.mem_map_of_mem (List.mem_filter.mpr ⟨hgp, ?_⟩), rfl, rfl, rfl⟩
  rcases hrole with hrole | howns
  · simp [hrole, htn]
  · simp [howns]

/-- A sweep tells the owners of the grants without valid keys, once each, and nobody else. -/
theorem Store.Reachable.swept (h : Store.Reachable E db) (c : Clock) :
    ∃ db', refreshExpiryEvents E c db = .ok db' ∧ refreshExpiryEvents E c db' = .ok db' ∧
      ∀ id p gp n tn, db.storedPolicy id = some p → gp ∈ p.grants → gp.keys ≠ [] →
        db.nodes.get? id = some n → db.tailnets.get? gp.tailnetID = some tn →
        (validKeys (c.read 0) gp = 0 → db'.openExpiries n.ownerID gp.grantID = 1 ∧
          db'.openExpiries tn.ownerID gp.grantID = 1) ∧
        (0 < validKeys (c.read 0) gp → ∀ owner, db'.openExpiries owner gp.grantID = 0) := by
  obtain ⟨ended, hended, hexpired⟩ := h.expired_iff (c.read 0)
  have hnow : unix (c.read 0) ≠ 0 := (c.unix_pos 0).ne'
  set db' := db.grants.rows.foldl (updateExpiry ended (c.read 0)) db with hdb'
  -- The sweep goes through the grants one by one, and no two of them write the same event.
  have hids : db.grants.rows.Pairwise fun x y => x.2.id ≠ y.2.id := by
    refine db.grants.ordered.imp_of_mem fun hx hy hlt hid => ?_
    have hkey := h.unique_grants _ _ _ _ (Table.get?_eq_some_iff.mpr hx)
      (Table.get?_eq_some_iff.mpr hy) hid
    exact lt_irrefl _ (hkey ▸ hlt)
  have htold : ∀ x ∈ db.grants.rows, Told ended (c.read 0) db' x := fun x hx =>
    sweep_told hnow hids hx
  have hone : ∀ owner grant, db'.openExpiries owner grant ≤ 1 := fun owner grant =>
    sweep_le hnow h.openExpiries_le
  obtain ⟨events, hframe⟩ := sweep_frame ended (c.read 0) db.grants.rows db
  rw [← hdb'] at hframe
  refine ⟨db', ?_, ?_, fun id p gp n tn hp hgp hkeys hn htn => ?_⟩
  · rw [refreshExpiryEvents, hended, ok_bind]
    rfl
  -- A second sweep finds every grant told already.
  · have hpolicies : db'.policies = db.policies := by rw [hframe]
    have hgrants : db'.grants = db.grants := by rw [hframe]
    rw [refreshExpiryEvents, hpolicies, hended, ok_bind, hgrants, sweep_eq_self htold]
    rfl
  · obtain ⟨n', g, tn', snap, hadm, hshown⟩ := h.admitted hp hgp
    have hid : gp.grantID = g.id := by
      rw [hshown]
      rfl
    have hn' : db'.nodes.get? id = some n := by
      rw [hframe]
      exact hn
    have htn' : db'.tailnets.get? gp.tailnetID = some tn := by
      rw [hframe]
      exact htn
    obtain ⟨htold, hclosed⟩ := htold _ (Table.get?_eq_some_iff.mp hadm.grantRow) n tn hn' htn'
    have hiff := hexpired id p gp g hp hgp hkeys hadm.grantRow
    rw [hid]
    constructor
    · intro hzero
      obtain ⟨hnode, htailnet⟩ := htold (hiff.mpr hzero)
      exact ⟨le_antisymm (hone _ _) hnode, le_antisymm (hone _ _) htailnet⟩
    · intro hpos
      exact hclosed fun hexp => hpos.ne' (hiff.mp hexp)

/-- In every reachable database and at every time, the exported map of a tailnet is built without
a conflict and lists the nodes whose stored policies have a valid key of the tailnet; the tailnet's
owner is shown as many valid keys of each grant as it has; and after a sweep the owners of a grant
with keys have one open expiry event each if none of them is valid, and nobody has one otherwise.
A second sweep changes nothing. -/
theorem Store.Reachable.expiry_agrees (h : Store.Reachable E db) (now : Int)
    (past : second ≤ now) (bounded : now < 2 ^ 63) :
    (∀ actor tailnet,
      buildDERPMap E (.still now past bounded) actor tailnet db ≠ .error .conflict) ∧
    (∀ actor tailnet tn, tailnetOwner actor tailnet db = .ok tn → ∃ m,
      buildDERPMap E (.still now past bounded) actor tailnet db = .ok m ∧
      (∀ r region, m.get? r = some region → ∃ id n, db.nodes.get? id = some n ∧
        r = n.regionID ∧ region = derpRegion n) ∧
      ∀ id n, db.nodes.get? id = some n → (m.get? n.regionID = some (derpRegion n) ↔
        ∃ p, db.storedPolicy id = some p ∧
          ∃ g ∈ p.grants, g.tailnetID = tailnet ∧ 0 < validKeys now g)) ∧
    (∀ id p gp tn actor streamOpen, db.storedPolicy id = some p → gp ∈ p.grants →
      db.tailnets.get? gp.tailnetID = some tn → Permitted actor tn.ownerID →
      ∃ status, nodeStatus E (.still now past bounded) actor id streamOpen db = .ok status ∧
        ∃ s ∈ status.grants, s.grantID = gp.grantID ∧ s.tailnetID = gp.tailnetID ∧
          s.validKeys = validKeys now gp) ∧
    ∃ db', refreshExpiryEvents E (.still now past bounded) db = .ok db' ∧
      refreshExpiryEvents E (.still now past bounded) db' = .ok db' ∧
      ∀ id p gp n tn, db.storedPolicy id = some p → gp ∈ p.grants → gp.keys ≠ [] →
        db.nodes.get? id = some n → db.tailnets.get? gp.tailnetID = some tn →
        (validKeys now gp = 0 → db'.openExpiries n.ownerID gp.grantID = 1 ∧
          db'.openExpiries tn.ownerID gp.grantID = 1) ∧
        (0 < validKeys now gp → ∀ owner, db'.openExpiries owner gp.grantID = 0) := by
  have hbuild : ∀ actor tailnet, buildDERPMap E (.still now past bounded) actor tailnet db = (do
      let _ ← tailnetOwner actor tailnet db
      exportRegions E tailnet (fun _ => now) (mapRows db tailnet) ∅) := fun _ _ => rfl
  -- The map, the status and the events are three readings of one stored policy.
  refine ⟨fun actor tailnet => ?_, fun actor tailnet tn htn => ?_,
    fun id p gp tn actor streamOpen hp hgp htn hactor =>
      h.status_shows hp hgp htn hactor fun _ => rfl, h.swept _⟩
  · obtain ⟨m, hm, -⟩ := h.exported now tailnet
    rw [hbuild, hm]
    cases htn : tailnetOwner actor tailnet db with
    | error e =>
      rintro ⟨⟩
      exact tailnetOwner_ne_conflict htn
    | ok tn => simp [ok_bind]
  · obtain ⟨m, hm, hmem⟩ := h.exported now tailnet
    refine ⟨m, by rw [hbuild, htn, ok_bind, hm], fun r region hr => ?_, fun id n hn => ?_⟩
    · obtain ⟨id, n, p, hn, hr, hregion, -⟩ := (hmem r region).mp hr
      exact ⟨id, n, hn, hr.symm, hregion.symm⟩
    · rw [hmem]
      constructor
      · rintro ⟨id', n', p, hn', hr, -, hp, hoffers⟩
        obtain rfl := h.apart.regions id' id n' n hn' hn hr
        exact ⟨p, hp, hoffers⟩
      · rintro ⟨p, hp, hoffers⟩
        exact ⟨id, n, p, hn, rfl, rfl, hp, hoffers⟩

end Agreement

/-- What a database says of its first node: an entry of its policy with the valid keys at two
times, and the owners. -/
def First.entry (db : DB) : Option (GrantPolicy × ℕ × ℕ × String × String) := do
  let p ← db.storedPolicy node.text
  let gp ← p.grants.head?
  let n ← db.nodes.get? node.text
  let tn ← db.tailnets.get? gp.tailnetID
  pure (gp, validKeys (1000 * second) gp, validKeys (6000 * second) gp, n.ownerID, tn.ownerID)

theorem first_expiry_agrees : ∃ db gp db', Store.Reachable Env.plain db ∧
    validKeys (1000 * second) gp = 1 ∧ validKeys (6000 * second) gp = 0 ∧
    (∃ status, nodeStatus Env.plain First.clock First.admin First.node.text true db = .ok status ∧
      ∃ s ∈ status.grants, s.grantID = gp.grantID ∧ s.validKeys = 1) ∧
    refreshExpiryEvents Env.plain (.still (6000 * second) (by decide) (by decide)) db = .ok db' ∧
    db'.openExpiries First.owner.text gp.grantID = 1 := by
  have hrun : ((replay Env.plain First.clock (First.enrolling ++ First.granting) DB.empty).map
      fun db => (First.entry db).map fun x => (x.1.keys.length, x.2)) =
      .ok (some (1, 1, 0, First.owner.text, First.owner.text)) := by
    decide +kernel
  obtain ⟨db, hdb, hget⟩ := Except_map_eq_ok.mp hrun
  obtain ⟨⟨gp, valid, valid', owner, owner'⟩, hentry, heq⟩ := Option.map_eq_some_iff.mp hget
  simp only [Prod.mk.injEq] at heq
  obtain ⟨hlength, rfl, rfl, rfl, rfl⟩ := heq
  simp only [First.entry, Option.bind_eq_bind, Option.bind_eq_some_iff, Option.pure_def,
    Option.some.injEq, Prod.mk.injEq] at hentry
  obtain ⟨p, hp, gp, hgp, n, hn, tn, htn, rfl, hvalid, hnone, hnode, htailnet⟩ := hentry
  have hmem : gp ∈ p.grants := List.mem_of_head? hgp
  have hkeys : gp.keys ≠ [] := by
    intro hempty
    rw [hempty] at hlength
    cases hlength
  -- The status is asked before the key expires and the sweep is made after it.
  have hreach : Store.Reachable Env.plain db := replay_reachable hdb (.start rfl)
  obtain ⟨-, -, hshown, -⟩ := hreach.expiry_agrees (1000 * second) (by decide) (by decide)
  obtain ⟨-, -, -, db', hswept, -, htold⟩ :=
    hreach.expiry_agrees (6000 * second) (by decide) (by decide)
  obtain ⟨status, hstatus, s, hs, hid, -, hcount⟩ := hshown First.node.text p gp tn First.admin true
    hp hmem htn ⟨rfl, by decide, .inl rfl⟩
  refine ⟨db, gp, db', hreach, hvalid, hnone, ⟨status, hstatus, s, hs, hid, hcount.trans hvalid⟩,
    hswept, ?_⟩
  rw [← hnode]
  exact ((htold First.node.text p gp n tn hp hmem hkeys hn htn).1 hnone).1

end UniDERP
