import UniDERP.Control.Projection
import UniDERP.Control.Consent
import UniDERP.Control.Revisions

namespace UniDERP

section Narrow

variable {E : Env} {db mid : DB} {id : String} {row : PolicyRow} {entries entries' : List Entry}

theorem Projected.rules_cover (h : Projected E db id row entries) :
    ∀ e ∈ entries, e.2.tailnetID = e.1.tailnetID := by
  obtain ⟨n, u, hn, hu, hproject⟩ := h.entries
  intro e he
  unfold project at hproject
  split_ifs at hproject
  · obtain ⟨t, g, -, hentry⟩ := ((projectGrants_eq_ok hproject).2.1 e).mp he
    obtain ⟨-, -, -, tn, snap, -, -, -, -, hok⟩ := grantEntry_eq_some.mp hentry
    obtain ⟨-, rfl⟩ := entryOf_eq_ok.mp hok
    exact grantRule_tailnetID _ _ _ _ _
  · obtain rfl := Except.ok.inj hproject
    simp at he

theorem Projected.unique (h : Projected E db id row entries) (h' : Projected E db id row entries') :
    entries = entries' := by
  obtain ⟨n, u, hn, hu, hproject⟩ := h.entries
  obtain ⟨n', u', hn', hu', hproject'⟩ := h'.entries
  cases hn.symm.trans hn'
  cases hu.symm.trans hu'
  exact Except.ok.inj (hproject.symm.trans hproject')

/-- Some of the entries of a stored policy can be stored. -/
theorem Storable.narrow {p : Policy} {c : Clock} {i : ℕ} (h : Storable E id p)
    (hp : policyOf E id row entries p.revision p.generatedAt = p)
    (hcover : ∀ e ∈ entries', e.2.tailnetID = e.1.tailnetID) (hsub : entries'.Sublist entries)
    (hfewer : entries'.length < entries.length) :
    Storable E id (policyOf E id row entries' (p.revision + 1) (c.read i)) := by
  have hgrants : (entries'.map (·.1)).Sublist p.grants := by
    rw [← hp]
    exact hsub.map _
  have htailnets : (entries'.map (·.2)).Sublist p.qos.tailnets := by
    rw [← hp]
    exact hsub.map _
  have hqos : (policyOf E id row entries' (p.revision + 1) (c.read i)).qos =
      { p.qos with tailnets := entries'.map (·.2) } := by
    rw [← hp]
    rfl
  have hcluster : E.clusterID = p.clusterID := by rw [← hp]; rfl
  have hnode : id = p.nodeID := by rw [← hp]; rfl
  have hmarshals := h.marshals
  simp only [UniDERP.marshals, Bool.and_eq_true, List.all_eq_true] at hmarshals
  refine ⟨h.wellFormed.narrow hcluster hnode (Nat.succ_ne_zero _) (c.ne_zeroTime i) hgrants hqos
    htailnets ?_, ?_, (policySize_narrow hcluster hnode rfl hgrants ?_ hqos htailnets).trans h.size⟩
  · simp only [policyOf, List.map_map]
    exact List.map_congr_left hcover
  · simp only [UniDERP.marshals, Bool.and_eq_true, List.all_eq_true]
    refine ⟨?_, fun g hg => hmarshals.2 g (hgrants.subset hg)⟩
    have hpast := c.past i
    have hbounded := c.bounded i
    refine decide_eq_true ?_
    simp only [policyOf, Stamp.utc]
    unfold unix second at *
    omega
  · rw [← hp]
    simpa [policyOf] using hfewer

structure StoredBody (E : Env) (id : String) (row : PolicyRow) (entries : List Entry)
    (p : Policy) : Prop where
  body : row.policyJSON = some p
  revision : p.revision = row.desiredRevision
  content : policyOf E id row entries p.revision p.generatedAt = p
  storable : Storable E id p

/-- A node whose projection lost entries can be built. -/
theorem StoredBody.builds {p : Policy} {c : Clock} {i : ℕ}
    (h : StoredBody E id row entries p) (hproj : Projected E mid id row entries')
    (hsub : entries'.Sublist entries) (hnow : p.generatedAt ≤ c.read i) :
    ∃ row' p', Built E id (c.read i) row entries' row' p' := by
  by_cases hsame : entries' = entries
  · exact ⟨row, p, .same h.body h.storable h.revision (hsame ▸ h.content)⟩
  have hfewer : entries'.length < entries.length := by
    refine lt_of_le_of_ne hsub.length_le fun hlen => hsame (hsub.eq_of_length hlen)
  have hstorable := h.storable.narrow (c := c) (i := i) h.content hproj.rules_cover hsub hfewer
  rw [h.revision] at hstorable
  refine ⟨_, _, .next rfl hstorable fun q hq => ?_⟩
  obtain rfl : p = q := Option.some.inj (h.body.symm.trans hq)
  refine ⟨h.revision, fun heq => ?_, hnow, h.storable.wellFormed, h.storable.size, ?_⟩
  · have hlen : (policyOf E id row entries' p.revision p.generatedAt).grants.length =
        (policyOf E id row entries p.revision p.generatedAt).grants.length := by
      rw [heq, h.content]
    simp only [policyOf, List.length_map] at hlen
    omega
  · have hmarshals := h.storable.marshals
    rw [← h.content] at hmarshals
    simp only [UniDERP.marshals, policyOf, Bool.and_eq_true, List.all_eq_true] at hmarshals ⊢
    exact ⟨hmarshals.1, fun g hg => hmarshals.2 g ((hsub.map _).subset hg)⟩

theorem Built.narrows {now : Int} {p p' : Policy} {row' : PolicyRow}
    (hb : Built E id now row entries' row' p') (h : StoredBody E id row entries p)
    (hsub : entries'.Sublist entries) :
    row'.policyJSON = some p' ∧ p'.grants.Sublist p.grants := by
  cases hb with
  | same body =>
    obtain rfl : p = p' := Option.some.inj (h.body.symm.trans body)
    exact ⟨body, List.Sublist.refl _⟩
  | next content =>
    refine ⟨rfl, ?_⟩
    rw [content, ← h.content]
    exact hsub.map _

end Narrow

section Rebuild

variable {E : Env} {c : Clock} {db mid : DB} {id : String}

def Buildable (E : Env) (now : Int) (db : DB) (id : String) : Prop :=
  ∃ row entries row' p, Projected E db id row entries ∧ row.desiredRevision < maxInt64 ∧
    Built E id now row entries row' p

theorem buildEach_ok {now : Int} {ids : List String} (hnd : ids.Nodup)
    (h : ∀ id ∈ ids, Buildable E now db id) : ∃ db', buildEach E now ids db = .ok db' := by
  induction ids generalizing db with
  | nil => exact ⟨db, rfl⟩
  | cons id ids ih =>
    obtain ⟨hfresh, hnd⟩ := List.nodup_cons.mp hnd
    obtain ⟨row, entries, row', p, hproj, hlt, hb⟩ := h id List.mem_cons_self
    have hbuild := buildPolicy_eq_ok.mpr ⟨row, entries, row', hproj, hlt, hb, rfl⟩
    obtain ⟨db', hrest⟩ := @ih { db with policies := db.policies.insert id row' } hnd (by
      intro k hk
      obtain ⟨row₁, entries₁, row₁', p₁, hproj₁, hlt₁, hb₁⟩ := h k (List.mem_cons_of_mem _ hk)
      have hne : k ≠ id := fun he => hfresh (he ▸ hk)
      exact ⟨row₁, entries₁, row₁', p₁,
        hproj₁.of_row ((Table.get?_insert_ne _ _ hne).trans hproj₁.row), hlt₁, hb₁⟩)
    refine ⟨db', ?_⟩
    rw [buildEach, hbuild]
    exact hrest

/-- What a revocation needs beside its permission: the clock is not before a stored policy, and no
counter is at its limit. -/
structure Unhindered (c : Clock) (db : DB) : Prop where
  clock : ∀ i id row p, db.policies.get? id = some row → row.policyJSON = some p →
    p.generatedAt ≤ c.read i
  policies : ∀ id row, db.policies.get? id = some row → row.desiredRevision < maxInt64
  grants : ∀ k g, db.grants.get? k = some g → g.revision < maxInt64

def Takes (E : Env) (db mid : DB) (id : String) : Prop :=
  ∀ row entries, Projected E db id row entries →
    ∃ entries', Projected E mid id row entries' ∧ entries'.Sublist entries

/-- Every stored policy has a successor that grants a part of what it grants. -/
def Narrows (db db' : DB) : Prop :=
  ∀ id row p, db.policies.get? id = some row → row.policyJSON = some p →
    ∃ row' p', db'.policies.get? id = some row' ∧ row'.policyJSON = some p' ∧
      p'.grants.Sublist p.grants

theorem Takes.buildable (h : Takes E db mid id) (hf : Fresh E db) (hu : Unhindered c db) {i : ℕ}
    {row : PolicyRow} (hrow : db.policies.get? id = some row) :
    Buildable E (c.read i) mid id := by
  obtain ⟨entries, p, hproj, hbody, hrevision, hcontent, hstorable⟩ := hf id row hrow
  obtain ⟨entries', hproj', hsub⟩ := h row entries hproj
  obtain ⟨row', p', hb⟩ := StoredBody.builds ⟨hbody, hrevision, hcontent, hstorable⟩ hproj' hsub
    (hu.clock i id row p hrow hbody)
  exact ⟨row, entries', row', p', hproj', hu.policies id row hrow, hb⟩

theorem Rebuilt.narrows {now : Int} {S : String → Prop} {db' : DB} (h : Rebuilt E now S mid db')
    (hpolicies : mid.policies = db.policies) (htakes : ∀ id, S id → Takes E db mid id)
    (hf : Fresh E db) : Narrows db db' := by
  intro id row p hrow hbody
  by_cases hS : S id
  · obtain ⟨entries, q, hproj, hq, hrevision, hcontent, hstorable⟩ := hf id row hrow
    obtain rfl : p = q := Option.some.inj (hbody.symm.trans hq)
    obtain ⟨entries', hproj', hsub⟩ := htakes id hS row entries hproj
    obtain ⟨entries'', row', p', hproj'', -, hb, hrow'⟩ := h.built id row hS (hpolicies ▸ hrow)
    obtain rfl := hproj''.unique hproj'
    obtain ⟨hbody', hgrants⟩ := hb.narrows ⟨hbody, hrevision, hcontent, hstorable⟩ hsub
    exact ⟨row', p', hrow', hbody', hgrants⟩
  · refine ⟨row, p, ?_, hbody, List.Sublist.refl _⟩
    rw [h.kept id hS, hpolicies, hrow]

end Rebuild

section Takes

variable {E : Env} {db mid : DB} {id : String}

theorem projectGrants_sublist {owner : String} {entries : List Entry}
    (h : projectGrants db id owner = .ok entries)
    (hrows : ∀ k g r, mid.grants.get? k = some g → grantEntry mid id owner k g = some r →
      ∃ g₀, db.grants.get? k = some g₀ ∧ grantEntry db id owner k g₀ = some r) :
    ∃ entries', projectGrants mid id owner = .ok entries' ∧ entries'.Sublist entries := by
  have hvalues : (db.grants.filterMap (grantEntry db id owner)).values = entries.map .ok :=
    mapM_self_eq_ok.mp h
  have hsub : (mid.grants.filterMap (grantEntry mid id owner)).values.Sublist
      (db.grants.filterMap (grantEntry db id owner)).values := by
    refine Table.values_sublist fun k r hr => ?_
    rw [Table.get?_filterMap, Option.bind_eq_some_iff] at hr ⊢
    obtain ⟨g, hg, hentry⟩ := hr
    exact hrows k g r hg hentry
  rw [hvalues, List.sublist_map_iff] at hsub
  obtain ⟨entries', hsub, hvalues'⟩ := hsub
  exact ⟨entries', mapM_self_eq_ok.mpr hvalues', hsub⟩

/-- The node is not opened, and every row that is selected was. -/
theorem Takes.of_rows (hpolicies : mid.policies = db.policies)
    (hretentions : mid.retentions = db.retentions)
    (hnode : ∀ n u, db.nodes.get? id = some n → db.users.get? n.ownerID = some u →
      ∃ n' u', mid.nodes.get? id = some n' ∧ mid.users.get? n'.ownerID = some u' ∧
        n'.ownerID = n.ownerID ∧ (n'.enabled ∧ u'.enabled ∧ n'.state.serving →
          n.enabled ∧ u.enabled ∧ n.state.serving))
    (hrows : ∀ owner k g r, mid.grants.get? k = some g → grantEntry mid id owner k g = some r →
      ∃ g₀, db.grants.get? k = some g₀ ∧ grantEntry db id owner k g₀ = some r) :
    Takes E db mid id := by
  rintro row entries ⟨hrow, hvalid, n, u, hn, hu, hproject⟩
  obtain ⟨n', u', hn', hu', howner, hopen⟩ := hnode n u hn hu
  suffices hsub : ∃ entries', project mid id n' u' = .ok entries' ∧ entries'.Sublist entries by
    obtain ⟨entries', hproject', hsub⟩ := hsub
    exact ⟨entries', ⟨hpolicies ▸ hrow, hretentions ▸ hvalid, n', u', hn', hu', hproject'⟩, hsub⟩
  unfold project at hproject ⊢
  by_cases hgate : n'.enabled ∧ u'.enabled ∧ n'.state.serving
  · rw [if_pos (hopen hgate)] at hproject
    rw [if_pos hgate, howner]
    exact projectGrants_sublist hproject (hrows n.ownerID)
  · rw [if_neg hgate]
    exact ⟨[], rfl, List.nil_sublist _⟩

theorem Takes.disableUser (userID : String) :
    Takes E db (db.changeUser userID fun u => { u with enabled := false }) id := by
  refine .of_rows rfl rfl (fun n u hn hu => ?_) fun owner k g r hg hr => ⟨g, hg, ?_⟩
  · by_cases hk : n.ownerID = userID
    · have hu' : (db.changeUser userID fun u => { u with enabled := false }).users.get? n.ownerID =
          some { u with enabled := false, sessionVersion := u.sessionVersion + 1 } := by
        rw [DB.changeUser, Table.get?_modify, if_pos hk, hu]
        rfl
      exact ⟨n, _, hn, hu', rfl, by simp⟩
    · refine ⟨n, u, hn, ?_, rfl, fun h => h⟩
      rw [DB.changeUser, Table.get?_modify, if_neg hk, hu]
  · obtain ⟨hid, hactive, hseen, tn, snap, htn, htnEnabled, hu, hsnap, hentry⟩ :=
      grantEntry_eq_some.mp hr
    refine grantEntry_eq_some.mpr ⟨hid, hactive, hseen, tn, snap, htn, htnEnabled, ?_, hsnap, hentry⟩
    obtain ⟨u, hget, henabled⟩ := userEnabled_eq_true.mp hu
    obtain ⟨u₀, hget₀, rfl⟩ := Table.get?_modify_eq_some.mp hget
    refine userEnabled_eq_true.mpr ⟨u₀, hget₀, ?_⟩
    split_ifs at henabled
    exact henabled

theorem Takes.disableTailnet (t : String) :
    Takes E db { db with
      tailnets := db.tailnets.modify t fun tn => { tn with enabled := false } } id := by
  refine .of_rows rfl rfl (fun n u hn hu => ⟨n, u, hn, hu, rfl, fun h => h⟩)
    fun owner k g r hg hr => ⟨g, hg, ?_⟩
  obtain ⟨hid, hactive, hseen, tn, snap, htn, htnEnabled, hu, hsnap, hentry⟩ :=
    grantEntry_eq_some.mp hr
  obtain ⟨tn₀, htn₀, rfl⟩ := Table.get?_modify_eq_some.mp htn
  by_cases hk : (ofLex k).2 = t
  · rw [if_pos hk] at htnEnabled
    cases htnEnabled
  · simp only [if_neg hk] at htnEnabled hu hentry
    exact grantEntry_eq_some.mpr ⟨hid, hactive, hseen, tn₀, snap, htn₀, htnEnabled, hu, hsnap, hentry⟩

theorem Takes.disableNode {n : Node} (hn : db.nodes.get? id = some n) :
    Takes E db { db with nodes := db.nodes.insert id { n with enabled := false } } id := by
  refine .of_rows rfl rfl (fun m u hm hu => ?_) fun owner k g r hg hr => ⟨g, hg, ?_⟩
  · cases hn.symm.trans hm
    exact ⟨_, u, Table.get?_insert_self _ _ _, hu, rfl, by simp⟩
  · exact grantEntry_eq_some.mpr (grantEntry_eq_some.mp hr)

theorem Takes.endGrant {k : Pair} {g : Grant} (hg : g.state ≠ .active) :
    Takes E db { db with grants := db.grants.insert k g } id := by
  refine .of_rows rfl rfl (fun n u hn hu => ⟨n, u, hn, hu, rfl, fun h => h⟩)
    fun owner k' g' r hg' hr => ?_
  have hentry := grantEntry_eq_some.mp hr
  rcases Table.get?_insert_eq_some.mp hg' with ⟨-, rfl⟩ | ⟨-, hold⟩
  · exact absurd hentry.2.1 hg
  · exact ⟨g', hold, grantEntry_eq_some.mpr hentry⟩

end Takes

section Registered

variable {E : Env} {c : Clock} {db mid db' : DB} {op : Op} {reply : Reply} {S : String → Prop}

def Registered (db : DB) : Prop :=
  ∀ id n, db.nodes.get? id = some n → n.state ≠ .pending → ∃ row, db.policies.get? id = some row

theorem Effect.row_stays (h : Effect E c db op reply mid S) {id : String} {n : Node}
    (hrow : ∃ row, db.policies.get? id = some row) (hn : mid.nodes.get? id = some n) :
    ∃ row, mid.policies.get? id = some row := by
  have hedit := h.row_edit id
  generalize db.policies.get? id = old at hrow hedit
  generalize mid.policies.get? id = new at hedit ⊢
  cases hedit with
  | kept => exact hrow
  | deleted _ gone => cases hn.symm.trans gone
  | created => exact ⟨_, rfl⟩
  | released => exact ⟨_, rfl⟩
  | configured => exact ⟨_, rfl⟩
  | received => exact ⟨_, rfl⟩
  | applied => exact ⟨_, rfl⟩

theorem Effect.row_enrolled {req : EnrollmentRequest} {token : Token} {box : Bytes}
    (h : Effect E c db (.enrollCommit req token box) reply mid S) :
    mid = db ∨ ∃ row, mid.policies.get? req.challenge.nodeID = some row := by
  cases h with
  | idle repeatable => cases repeatable
  | sessions login => cases login
  | ports portChange => cases portChange
  | receipt => exact .inl rfl
  | enroll =>
    right
    dsimp only
    cases hrow : db.policies.get? req.challenge.nodeID with
    | some row => exact ⟨row, hrow⟩
    | none => exact ⟨_, Table.get?_insert_self _ _ _⟩

theorem Effect.registered (h : Effect E c db op reply mid S) (hr : Registered db) :
    Registered mid := by
  intro id n' hn' hs
  have hbefore : ∀ {m : Node}, db.nodes.get? id = some m → m.state ≠ .pending →
      ∃ row, mid.policies.get? id = some row := fun hm hne => h.row_stays (hr id _ hm hne) hn'
  have hserving : ∀ {m : Node}, m.state.serving → m.state ≠ .pending := by
    intro m hm hp
    simp [hp, NodeState.serving] at hm
  have hrenewable : ∀ {purpose : Purpose} {m : Node}, renewable purpose m.state →
      m.state ≠ .pending := by
    intro purpose m hm hp
    simp [renewable, hp, NodeState.serving] at hm
  -- A node that is registered now was so before, or is enrolled by this transaction.
  cases h.node_edit id with
  | kept same => exact hbefore (same.symm.trans hn') hs
  | created _ _ after pending =>
    cases hn'.symm.trans after
    exact absurd pending hs
  | deleted _ _ gone =>
    rw [gone, DB.deleteNode, Table.get?_erase_self] at hn'
    cases hn'
  | released _ _ after =>
    cases hn'.symm.trans after
    exact absurd rfl hs
  | enrolled call nodeID before _ pending _ _ after =>
    subst call nodeID
    rcases h.row_enrolled with rfl | hrow
    · have hsame := Option.some.inj (before.symm.trans after)
      rw [hsame] at pending
      cases pending
    · exact hrow
  | renewed _ _ before _ state => exact hbefore before (hrenewable state)
  | refused _ _ before _ state => exact hbefore before (hrenewable state)
  | recovered _ before _ _ conflict => exact hbefore before (by simp [conflict])
  | moved _ before _ state =>
    refine hbefore before fun hp => ?_
    simp [hp, NodeState.serving] at state
  | ported before after =>
    cases hn'.symm.trans after
    exact hbefore before hs
  | switched before _ after =>
    cases hn'.symm.trans after
    exact hbefore before hs
  | heard before serving => exact hbefore before (hserving serving)
  | acknowledged before serving => exact hbefore before (hserving serving)

theorem Store.Reachable.registered (h : Store.Reachable E db) : Registered db := by
  refine Reachable.invariant h ?_ fun s a s' _ hs hstep => ?_
  · rintro s rfl id n hn
    simp [DB.empty] at hn
  · obtain ⟨mid, S, i, he, hr⟩ := exec_does hstep
    intro id n hn hstate
    rw [hr.frame] at hn
    obtain ⟨row, hrow⟩ := he.registered hs id n hn hstate
    exact hr.row_exists.mpr ⟨row, hrow⟩

def Tied (db : DB) : Prop := ∀ k g, db.grants.get? k = some g →
  g.revision ≠ 0 ∧ ∃ tn, db.tailnets.get? (ofLex k).2 = some tn

/-- Only deleting a tailnet removes it, and then its grants. -/
theorem Effect.tailnet_kept (h : Effect E c db op reply mid S) {t : String} {tn : Tailnet}
    (htn : db.tailnets.get? t = some tn) :
    (∃ tn', mid.tailnets.get? t = some tn') ∨ ∀ n, mid.grants.get? (pair n t) = none := by
  have hmodify : ∀ k f, ∃ tn', (db.tailnets.modify k f).get? t = some tn' := by
    intro k f
    rw [Table.get?_modify, htn]
    split_ifs <;> simp
  cases h
  case setTailnetEnabled => exact .inl (hmodify _ _)
  case transferTailnet => exact .inl (hmodify _ _)
  case addTailnet tn' _ _ _ _ _ =>
    refine .inl ?_
    rw [Table.get?_insert]
    split_ifs
    · exact ⟨tn', rfl⟩
    · exact ⟨tn, htn⟩
  case deleteTailnet k =>
    by_cases hk : t = k
    · exact .inr fun n => by simp [DB.deleteTailnet, hk]
    · exact .inl ⟨tn, (Table.get?_erase_ne _ hk).trans htn⟩
  all_goals exact .inl ⟨tn, htn⟩

theorem Effect.tied (h : Effect E c db op reply mid S) (ht : Tied db) : Tied mid := by
  -- The new grants of a request and of an action have a revision above another.
  suffices hrow : ∀ k g, mid.grants.get? k = some g →
      g.revision ≠ 0 ∧ ∃ tn, db.tailnets.get? (ofLex k).2 = some tn by
    intro k g hg
    obtain ⟨hrevision, tn, htn⟩ := hrow k g hg
    rcases h.tailnet_kept htn with hkept | hgone
    · exact ⟨hrevision, hkept⟩
    · have hnone := hgone (ofLex k).1
      rw [pair_ofLex, hg] at hnone
      cases hnone
  have hupdate : ∀ {p : Pair → Grant → Bool} {f : Grant → Grant}, (∀ g, g.revision ≤ (f g).revision) →
      ∀ k g, (db.grants.update p f).get? k = some g →
        g.revision ≠ 0 ∧ ∃ tn, db.tailnets.get? (ofLex k).2 = some tn := by
    intro p f hf k g hg
    rw [Table.get?_update, Option.map_eq_some_iff] at hg
    obtain ⟨g₀, hg₀, rfl⟩ := hg
    obtain ⟨hrevision, htn⟩ := ht k g₀ hg₀
    refine ⟨?_, htn⟩
    have hle := hf g₀
    split_ifs <;> omega
  have hdelete : ∀ {p : Pair → Grant → Bool} k g, (db.grants.delete p).get? k = some g →
      g.revision ≠ 0 ∧ ∃ tn, db.tailnets.get? (ofLex k).2 = some tn := fun k g hg =>
    ht k g (Table.get?_delete_eq_some.mp hg).1
  cases h
  case reissueEnrollment => exact hupdate fun _ => Nat.le_succ _
  case leaveNode => exact hupdate fun _ => Nat.le_succ _
  case deleteNode => exact hdelete
  case deleteTailnet => exact hdelete
  case requestGrant hps _ _ _ _ =>
    intro k g hg
    rcases Table.get?_insert_eq_some.mp hg with ⟨rfl, rfl⟩ | ⟨-, hg⟩
    · exact ⟨Nat.succ_ne_zero _, _, (parties_eq_ok.mp hps).2.1⟩
    · exact ht k g hg
  case applyGrantAction hps _ _ _ _ =>
    intro k g hg
    rcases Table.get?_insert_eq_some.mp hg with ⟨rfl, rfl⟩ | ⟨-, hg⟩
    · exact ⟨Nat.succ_ne_zero _, _, (parties_eq_ok.mp hps).2.1⟩
    · exact ht k g hg
  case nodeHeartbeat => exact hupdate fun _ => le_rfl
  all_goals exact ht

theorem Store.Reachable.tied (h : Store.Reachable E db) : Tied db := by
  refine Reachable.invariant h ?_ fun s a s' _ hs hstep => ?_
  · rintro s rfl k g hg
    simp [DB.empty] at hg
  · obtain ⟨mid, S, i, he, hr⟩ := exec_does hstep
    rw [hr.frame]
    exact he.tied hs

def UniqueGrants (db : DB) : Prop := ∀ k k' g g', db.grants.get? k = some g →
  db.grants.get? k' = some g' → g.id = g'.id → k = k'

theorem requestBase_id {now : Int} {node tailnet : String} {expected : ℕ} {id : Token} {g : Grant}
    (h : requestBase now node tailnet expected id db = .ok g) :
    (∃ g₀, db.grants.get? (pair node tailnet) = some g₀ ∧ g₀.id = g.id) ∨
      ∀ k g₀, db.grants.get? k = some g₀ → g₀.id ≠ g.id := by
  unfold requestBase at h
  cases hg : db.grants.get? (pair node tailnet) with
  | none =>
    simp only [hg, Except_bind_eq_ok, require_eq_ok, exists_const, Except_pure_eq_ok,
      Table.any_eq_false, decide_eq_false_iff_not] at h
    obtain ⟨-, hunused, rfl⟩ := h
    exact .inr hunused
  | some g₀ =>
    simp only [hg, Except_bind_eq_ok, require_eq_ok, exists_const, Except_pure_eq_ok] at h
    obtain ⟨-, rfl⟩ := h
    exact .inl ⟨g₀, rfl, rfl⟩

/-- A grant keeps its id, and a new one has an unused id. -/
theorem Effect.grant_origin (h : Effect E c db op reply mid S) {k : Pair} {g : Grant}
    (hg : mid.grants.get? k = some g) : (∃ g₀, db.grants.get? k = some g₀ ∧ g₀.id = g.id) ∨
      (∃ actor expected until_ id,
        op = .requestGrant actor (ofLex k).1 (ofLex k).2 expected until_ id) ∧
        ∀ k₀ g₀, db.grants.get? k₀ = some g₀ → g₀.id ≠ g.id := by
  have hupdate : ∀ {p : Pair → Grant → Bool} {f : Grant → Grant}, mid.grants = db.grants.update p f →
      (∀ g, (f g).id = g.id) → ∃ g₀, db.grants.get? k = some g₀ ∧ g₀.id = g.id := by
    intro p f hmid hf
    rw [hmid, Table.get?_update, Option.map_eq_some_iff] at hg
    obtain ⟨g₀, hg₀, rfl⟩ := hg
    refine ⟨g₀, hg₀, ?_⟩
    split_ifs
    · exact (hf g₀).symm
    · rfl
  cases h
  case reissueEnrollment id _ _ _ _ _ _ _ _ =>
    exact .inl (hupdate (p := fun k g => (ofLex k).1 = id ∧ g.state ≠ .revoked)
      (f := Grant.released) rfl fun _ => rfl)
  case leaveNode s _ _ =>
    exact .inl (hupdate (p := fun k g => (ofLex k).1 = s.nodeID ∧ g.state ≠ .revoked)
      (f := Grant.released) rfl fun _ => rfl)
  case deleteNode => exact .inl ⟨g, (Table.get?_delete_eq_some.mp hg).1, rfl⟩
  case deleteTailnet => exact .inl ⟨g, (Table.get?_delete_eq_some.mp hg).1, rfl⟩
  case requestGrant hbase =>
    rcases Table.get?_insert_eq_some.mp hg with ⟨rfl, rfl⟩ | ⟨-, hg⟩
    · exact (requestBase_id hbase).imp_right fun hunused => ⟨⟨_, _, _, _, rfl⟩, hunused⟩
    · exact .inl ⟨g, hg, rfl⟩
  case applyGrantAction hg₀ _ _ _ _ _ _ =>
    rcases Table.get?_insert_eq_some.mp hg with ⟨rfl, rfl⟩ | ⟨-, hg⟩
    · exact .inl ⟨_, hg₀, rfl⟩
    · exact .inl ⟨g, hg, rfl⟩
  case nodeHeartbeat s _ _ _ =>
    exact .inl (hupdate (p := fun k g => (ofLex k).1 = s.nodeID ∧ g.state = .active)
      (f := fun g => { g with lastControlSuccess := unix (c.read 1) }) rfl fun _ => rfl)
  all_goals exact .inl ⟨g, hg, rfl⟩

theorem Effect.unique_grants (h : Effect E c db op reply mid S) (hu : UniqueGrants db) :
    UniqueGrants mid := by
  intro k k' g g' hg hg' hid
  rcases h.grant_origin hg with ⟨g₀, hg₀, hid₀⟩ | ⟨⟨_, _, _, _, hop⟩, hunused⟩
  · rcases h.grant_origin hg' with ⟨g₁, hg₁, hid₁⟩ | ⟨-, hunused'⟩
    · exact hu k k' g₀ g₁ hg₀ hg₁ (hid₀.trans (hid.trans hid₁.symm))
    · exact absurd (hid₀.trans hid) (hunused' k g₀ hg₀)
  · rcases h.grant_origin hg' with ⟨g₁, hg₁, hid₁⟩ | ⟨⟨_, _, _, _, hop'⟩, -⟩
    · exact absurd (hid₁.trans hid.symm) (hunused k' g₁ hg₁)
    · -- A transaction makes one grant at most.
      rw [hop, Op.requestGrant.injEq] at hop'
      rw [← pair_ofLex k, ← pair_ofLex k', hop'.2.1, hop'.2.2.1]

theorem Store.Reachable.unique_grants (h : Store.Reachable E db) : UniqueGrants db := by
  refine Reachable.invariant h ?_ fun s a s' _ hs hstep => ?_
  · rintro s rfl k k' g g' hg
    simp [DB.empty] at hg
  · obtain ⟨mid, S, i, he, hr⟩ := exec_does hstep
    rw [hr.frame]
    exact he.unique_grants hs

end Registered

section Revoke

variable {E : Env} {c : Clock} {db : DB} {i : ℕ}

theorem rebuildPolicies_takes {mid : DB} (hf : Fresh E db) (hu : Unhindered c db)
    (htakes : ∀ id, Takes E db mid id) (hpolicies : mid.policies = db.policies) :
    ∃ db', rebuildPolicies E (c.read i) mid = .ok db' ∧ db' = { mid with policies := db'.policies } ∧
      Narrows db db' := by
  have hbuildable : ∀ id ∈ mid.policies.keys, Buildable E (c.read i) mid id := by
    intro id hid
    obtain ⟨row, hrow⟩ := Table.mem_keys.mp hid
    exact (htakes id).buildable hf hu (hpolicies ▸ hrow)
  obtain ⟨db', hdb'⟩ := buildEach_ok mid.policies.keys_nodup hbuildable
  have hrebuilt := rebuildPolicies_rebuilt hdb'
  exact ⟨db', hdb', hrebuilt.frame, hrebuilt.narrows hpolicies (fun id _ => htakes id) hf⟩

theorem buildPolicy_takes {mid : DB} {id : String} {row : PolicyRow} (hf : Fresh E db)
    (hu : Unhindered c db) (htakes : Takes E db mid id) (hrow : db.policies.get? id = some row)
    (hpolicies : mid.policies = db.policies) :
    ∃ db' p, buildPolicy E id (c.read i) mid = .ok (db', p) ∧
      db' = { mid with policies := db'.policies } ∧ Narrows db db' := by
  obtain ⟨row, entries, row', p, hproj, hlt, hb⟩ := htakes.buildable (i := i) hf hu hrow
  have hbuild := buildPolicy_eq_ok.mpr ⟨row, entries, row', hproj, hlt, hb, rfl⟩
  have hrebuilt := buildPolicy_rebuilt hbuild
  refine ⟨_, p, hbuild, hrebuilt.frame, hrebuilt.narrows hpolicies ?_ hf⟩
  rintro _ rfl
  exact htakes

theorem Narrows.of_same {db' : DB} (h : db'.policies = db.policies) : Narrows db db' :=
  fun _ row p hrow hbody => ⟨row, p, h ▸ hrow, hbody, List.Sublist.refl _⟩

theorem setUserEnabled_succeeds {actor : Actor} {userID : String} {u : User}
    (hr : Store.Reachable E db) (hu : Unhindered c db) (hadmin : actor.enabled ∧ actor.role = .admin)
    (hactive : Active actor db) (huser : db.users.get? userID = some u) :
    ∃ db', Step E db ⟨.setUserEnabled actor userID false, c, .done⟩ db' ∧ Narrows db db' ∧
      ∃ u', db'.users.get? userID = some u' ∧ u'.enabled = false := by
  obtain ⟨db', hdb', hframe, hnarrows⟩ := rebuildPolicies_takes (i := 0) hr.fresh hu
    (fun _ => Takes.disableUser userID) rfl
  have hafter : db'.users.get? userID =
      some { u with enabled := false, sessionVersion := u.sessionVersion + 1 } := by
    rw [hframe]
    simp [DB.changeUser, huser]
  refine ⟨db', ?_, hnarrows, _, hafter, rfl⟩
  have hcall : setUserEnabled E c actor userID false db = .ok db' := by
    simp only [setUserEnabled, Except_bind_eq_ok, requireAdmin, require_eq_ok, activeActor_eq_ok,
      exists_const]
    exact ⟨hadmin, hactive, by simp [huser], hdb'⟩
  simp [Step, exec, quiet, hcall, Except.map]

theorem setTailnetEnabled_succeeds {actor : Actor} {t : String} {tn : Tailnet}
    (hr : Store.Reachable E db) (hu : Unhindered c db) (hactive : Active actor db)
    (htn : db.tailnets.get? t = some tn) (hpermitted : Permitted actor tn.ownerID) :
    ∃ db', Step E db ⟨.setTailnetEnabled actor t false, c, .done⟩ db' ∧ Narrows db db' ∧
      db'.tailnets.get? t = some { tn with enabled := false } := by
  obtain ⟨db', hdb', hframe, hnarrows⟩ := rebuildPolicies_takes (i := 0) hr.fresh hu
    (fun _ => Takes.disableTailnet t) rfl
  have hafter : db'.tailnets.get? t = some { tn with enabled := false } := by
    rw [hframe]
    simp [htn]
  refine ⟨db', ?_, hnarrows, hafter⟩
  have hcall : setTailnetEnabled E c actor t false db = .ok db' := by
    simp only [setTailnetEnabled, Except_bind_eq_ok, tailnetOwner_eq_ok]
    exact ⟨tn, ⟨hactive, htn, hpermitted⟩, hdb'⟩
  simp [Step, exec, quiet, hcall, Except.map]

theorem setNodeEnabled_succeeds {actor : Actor} {id : String} {n : Node}
    (hr : Store.Reachable E db) (hu : Unhindered c db) (hactive : Active actor db)
    (hn : db.nodes.get? id = some n) (hpermitted : Permitted actor n.ownerID) :
    ∃ db', Step E db ⟨.setNodeEnabled actor id false, c, .done⟩ db' ∧ Narrows db db' ∧
      db'.nodes.get? id = some { n with enabled := false } := by
  suffices hcall : ∃ db', setNodeEnabled E c actor id false db = .ok db' ∧ Narrows db db' ∧
      db'.nodes.get? id = some { n with enabled := false } by
    obtain ⟨db', hcall, hafter⟩ := hcall
    exact ⟨db', by simp [Step, exec, quiet, hcall, Except.map], hafter⟩
  have howned := ownedNode_eq_ok.mpr ⟨hactive, hn, hpermitted⟩
  by_cases hstate : n.state = .pending
  · refine ⟨{ db with nodes := db.nodes.insert id { n with enabled := false } }, ?_, .of_same rfl,
      Table.get?_insert_self _ _ _⟩
    simp [setNodeEnabled, howned, hstate]
  · obtain ⟨row, hrow⟩ := hr.registered id n hn hstate
    obtain ⟨db', p, hbuild, hframe, hnarrows⟩ := buildPolicy_takes (i := 0) hr.fresh hu
      (Takes.disableNode hn) hrow rfl
    refine ⟨db', ?_, hnarrows, ?_⟩
    · simp [setNodeEnabled, howned, hstate, hbuild]
    · rw [hframe]
      exact Table.get?_insert_self _ _ _

def GrantAction.ends : GrantAction → Bool
  | .reject | .cancel | .revoke | .leave => true
  | .approve | .confirm => false

theorem actionNext_not_live {action : GrantAction} (h : action.ends) :
    (actionNext action).live = false := by
  cases action <;> simp_all [GrantAction.ends, actionNext, GrantState.live]

theorem actionNext_ne_active {action : GrantAction} (h : action.ends) :
    actionNext action ≠ .active := by
  cases action <;> simp_all [GrantAction.ends, actionNext]

theorem actionNext_ne_of_allowed {action : GrantAction} {s : GrantState}
    (h : actionAllowed action s) : s ≠ actionNext action := by
  rintro rfl
  cases action <;> simp [actionAllowed, actionNext] at h

theorem live_of_allowed {action : GrantAction} {g : Grant} {now : Int}
    (h : actionAllowed action (g.stateAt now)) : g.state ≠ .revoked := by
  intro hs
  have hread : g.stateAt now = .revoked := by simp [Grant.stateAt, hs, GrantState.live]
  rw [hread] at h
  cases action <;> simp [actionAllowed] at h

theorem Store.Reachable.grant_parties (hr : Store.Reachable E db) {k : Pair} {g : Grant}
    (hg : db.grants.get? k = some g) :
    ∃ ps, parties (ofLex k).1 (ofLex k).2 db = .ok ps := by
  obtain ⟨n, hn, -⟩ := hr.housed k g hg
  obtain ⟨-, tn, htn⟩ := hr.tied k g hg
  obtain ⟨u, hu⟩ := hr.sound.tailnets _ tn htn
  exact ⟨⟨n, tn, u.username⟩, parties_eq_ok.mpr ⟨hn, htn, u, hu, rfl⟩⟩

theorem applyGrantAction_succeeds {actor : Actor} {action : GrantAction} {k : Pair} {g : Grant}
    {ps : Parties} (hr : Store.Reachable E db) (hu : Unhindered c db) (hactive : Active actor db)
    (hg : db.grants.get? k = some g) (hparties : parties (ofLex k).1 (ofLex k).2 db = .ok ps)
    (hends : action.ends) (hpermitted : Permitted actor (actionOwner ps action))
    (hallowed : actionAllowed action (g.stateAt (c.read 0))) :
    ∃ db' reply, Step E db ⟨.applyGrantAction actor g.id g.revision action, c, .grant reply⟩ db' ∧
      Narrows db db' ∧ ∃ g', db'.grants.get? k = some g' ∧ g'.state.live = false := by
  have hn := (parties_eq_ok.mp hparties).1
  have hfind : db.grants.find? (fun _ g' => g'.id = g.id) = some (k, g) :=
    Table.find?_of_unique hg (by simp) fun k' g' hg' hid =>
      hr.unique_grants k' k g' g hg' hg (by simpa using hid)
  have hbyID : grantByID g.id db = .ok (k, g, ps) := by
    simp [grantByID, hfind, hparties, orElse]
  -- An open grant's node was enrolled, so that there is a policy to build.
  have hstate : ps.node.state ≠ .pending := by
    intro hpending
    obtain ⟨n', hn', hrevoked⟩ := hr.housed k g hg
    cases hn.symm.trans hn'
    exact live_of_allowed hallowed (hrevoked hpending)
  obtain ⟨row, hrow⟩ := hr.registered _ ps.node hn hstate
  set g' : Grant := { g with
    state := actionNext action, revision := g.revision + 1
    lastControlSuccess := if actionNext action = .active then unix (c.read 1) else 0 }
  obtain ⟨db', p, hbuild, hframe, hnarrows⟩ := buildPolicy_takes (i := 2) hr.fresh hu
    (Takes.endGrant (k := k) (g := g') (actionNext_ne_active hends)) hrow rfl
  have hafter : db'.grants.get? k = some g' := by
    rw [hframe]
    exact Table.get?_insert_self _ _ _
  refine ⟨db', { scanGrant (c.read 0) (ofLex k).1 (ofLex k).2 g ps with
    state := actionNext action, revision := g.revision + 1 }, ?_, hnarrows, g', hafter,
    actionNext_not_live hends⟩
  have hcheck : ¬ (action = .approve ∨ action = .confirm) := by
    rintro (rfl | rfl) <;> simp [GrantAction.ends] at hends
  have hfresh : ¬ ((scanGrant (c.read 0) (ofLex k).1 (ofLex k).2 g ps).state = actionNext action ∧
      (g.revision = g.revision ∨ g.revision = g.revision + 1)) := fun h =>
    actionNext_ne_of_allowed hallowed h.1
  have hcall : applyGrantAction E c actor g.id g.revision action db = .ok (db',
      { scanGrant (c.read 0) (ofLex k).1 (ofLex k).2 g ps with
        state := actionNext action, revision := g.revision + 1 }) := by
    simp only [applyGrantAction, Except_bind_eq_ok, require_eq_ok, activeActor_eq_ok,
      requireOwner_eq_ok, exists_const, Prod.exists]
    refine ⟨⟨(hr.tied k g hg).1, hu.grants k g hg⟩, hactive, k, g, ps, hbyID, hpermitted, ?_⟩
    rw [if_neg hfresh, if_neg hcheck]
    simp only [Except_bind_eq_ok, require_eq_ok, exists_const, Except_pure_eq_ok, Prod.exists]
    exact ⟨⟨trivial, hallowed⟩, true, rfl, rfl, db', p, hbuild, rfl⟩
  simp [Step, exec, hcall]

/-- In every reachable database an actor who may revoke can: no policy that has to be built stands
in the way, the account, tailnet or node is disabled or the grant has ended, and every policy
afterwards grants a part of what it granted. -/
theorem Store.Reachable.revocation_succeeds (hr : Store.Reachable E db) (hu : Unhindered c db)
    {actor : Actor} (hactive : Active actor db) :
    (∀ userID u, actor.enabled → actor.role = .admin → db.users.get? userID = some u →
      ∃ db', Step E db ⟨.setUserEnabled actor userID false, c, .done⟩ db' ∧ Narrows db db' ∧
        ∃ u', db'.users.get? userID = some u' ∧ u'.enabled = false) ∧
    (∀ id tn, db.tailnets.get? id = some tn → Permitted actor tn.ownerID →
      ∃ db', Step E db ⟨.setTailnetEnabled actor id false, c, .done⟩ db' ∧ Narrows db db' ∧
        db'.tailnets.get? id = some { tn with enabled := false }) ∧
    (∀ id n, db.nodes.get? id = some n → Permitted actor n.ownerID →
      ∃ db', Step E db ⟨.setNodeEnabled actor id false, c, .done⟩ db' ∧ Narrows db db' ∧
        db'.nodes.get? id = some { n with enabled := false }) ∧
    ∀ k g, db.grants.get? k = some g → ∃ ps, parties (ofLex k).1 (ofLex k).2 db = .ok ps ∧
      ∀ action ∈ [GrantAction.reject, .cancel, .revoke, .leave],
        Permitted actor (actionOwner ps action) → actionAllowed action (g.stateAt (c.read 0)) →
        ∃ db' reply, Step E db
          ⟨.applyGrantAction actor g.id g.revision action, c, .grant reply⟩ db' ∧
          Narrows db db' ∧ ∃ g', db'.grants.get? k = some g' ∧ g'.state.live = false := by
  refine ⟨fun userID u henabled hadmin huser => ?_, fun id tn htn hp => ?_,
    fun id n hn hp => ?_, fun k g hg => ?_⟩
  · exact setUserEnabled_succeeds hr hu ⟨henabled, hadmin⟩ hactive huser
  · exact setTailnetEnabled_succeeds hr hu hactive htn hp
  · exact setNodeEnabled_succeeds hr hu hactive hn hp
  · obtain ⟨ps, hps⟩ := hr.grant_parties hg
    refine ⟨ps, hps, fun action haction hp hallowed => ?_⟩
    have hends : action.ends := by
      simp only [List.mem_cons, List.not_mem_nil, or_false] at haction
      rcases haction with rfl | rfl | rfl | rfl <;> rfl
    exact applyGrantAction_succeeds hr hu hactive hg hps hends hp hallowed

/-- The owner of the first node takes it back from the guest. -/
theorem first_guest_revoked : ∃ db db' g reply, Store.Reachable Env.plain db ∧
    db.grants.get? (pair First.node.text First.guestTailnet.text) = some g ∧ g.state = .active ∧
    Step Env.plain db
      ⟨.applyGrantAction First.admin g.id g.revision .revoke, First.clock, .grant reply⟩ db' ∧
    Narrows db db' ∧ ∃ g', db'.grants.get? (pair First.node.text First.guestTailnet.text) = some g' ∧
      g'.state.live = false := by
  set k := pair First.node.text First.guestTailnet.text
  have hrun : (replay Env.plain First.clock (First.enrolling ++ First.sharing) DB.empty).map
      (fun db => ((db.grants.get? k).map fun g => (g.state, g.stateAt (First.clock.read 0)),
        (db.users.get? First.admin.id).map fun u => (u.enabled, u.role),
        db.policies.any fun _ row => ¬ row.desiredRevision < maxInt64 ∨
          row.policyJSON.any fun p => First.clock.read 0 < p.generatedAt,
        db.grants.any fun _ g => ¬ g.revision < maxInt64)) =
      .ok (some (.active, .active), some (true, .admin), false, false) := by
    decide +kernel
  obtain ⟨db, hdb, hfacts⟩ := Except_map_eq_ok.mp hrun
  simp only [Prod.mk.injEq, Option.map_eq_some_iff] at hfacts
  obtain ⟨⟨g, hg, hactive, hread⟩, ⟨u, hu, hadmin⟩, hpolicies, hgrants⟩ := hfacts
  have hreach : Store.Reachable Env.plain db := replay_reachable hdb (.start rfl)
  have hunhindered : Unhindered First.clock db := by
    refine ⟨fun i id row p hrow hp => ?_, fun id row hrow => ?_, fun k g hg => ?_⟩
    · have hnot := Table.any_eq_false.mp hpolicies id row hrow
      simp only [hp, decide_eq_false_iff_not, not_or, Option.any_some, decide_eq_true_eq,
        not_lt] at hnot
      exact hnot.2
    · have hnot := Table.any_eq_false.mp hpolicies id row hrow
      simp only [decide_eq_false_iff_not, not_or, not_not] at hnot
      exact hnot.1
    · simpa using Table.any_eq_false.mp hgrants k g hg
  have hactor : Active First.admin db := .inr ⟨u, hu, hadmin.1, hadmin.2⟩
  have hrevoke := hreach.revocation_succeeds hunhindered hactor
  obtain ⟨ps, -, haction⟩ := hrevoke.2.2.2 k g hg
  obtain ⟨db', reply, hstep, hnarrows⟩ := haction .revoke (by simp)
    ⟨rfl, by decide +kernel, .inl rfl⟩ (by rw [hread]; rfl)
  exact ⟨db, db', g, reply, hreach, hg, hactive, hstep, hnarrows⟩

end Revoke
end UniDERP
