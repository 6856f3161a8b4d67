import UniDERP.Control.RowEdits

namespace UniDERP

def nodeGate (db : DB) (id : String) : Option (String × Bool) := do
  let n ← db.nodes.get? id
  let u ← db.users.get? n.ownerID
  pure (n.ownerID, n.enabled && u.enabled && n.state.serving)

structure SameView (db db' : DB) (id : String) : Prop where
  gate : nodeGate db' id = nodeGate db id
  grants : ∀ t, (db'.grants.get? (pair id t)).filter (·.state = .active) =
    (db.grants.get? (pair id t)).filter (·.state = .active)
  rules : ∀ t, db'.rules.get? (pair id t) = db.rules.get? (pair id t)
  tailnets : db'.tailnets = db.tailnets
  owners : ∀ t tn, db.tailnets.get? t = some tn →
    db'.userEnabled tn.ownerID = db.userEnabled tn.ownerID
  snapshots : db'.snapshots = db.snapshots
  retentions : db'.retentions = db.retentions

theorem SameView.refl (db : DB) (id : String) : SameView db db id :=
  ⟨rfl, fun _ => rfl, fun _ => rfl, rfl, fun _ _ _ => rfl, rfl, rfl⟩

theorem SameView.entryOf {db db' : DB} {id : String} (h : SameView db db' id) (owner t : String)
    (g : Grant) (tn : Tailnet) (snap : Snapshot) :
    entryOf db' id owner t g tn snap = entryOf db id owner t g tn snap := by
  have hpolicy : grantPolicy db' t g snap = grantPolicy db t g snap := by
    simp only [grantPolicy, h.snapshots, h.retentions]
  have hrule : grantRule db' id t owner tn.ownerID = grantRule db id t owner tn.ownerID := by
    simp only [grantRule, h.rules]
  simp only [UniDERP.entryOf, hpolicy, hrule]

/-- The rows that the query selects are the same. -/
theorem SameView.row {db db' : DB} {id : String} (h : SameView db db' id) (owner : String)
    (k : Pair) : (db'.grants.get? k).bind (grantEntry db' id owner k) =
      (db.grants.get? k).bind (grantEntry db id owner k) := by
  ext r
  simp only [Option.bind_eq_some_iff, grantEntry_eq_some]
  by_cases hk : (ofLex k).1 = id
  · obtain ⟨t, rfl⟩ : ∃ t, k = pair id t := ⟨(ofLex k).2, by rw [← hk, pair_ofLex]⟩
    have hactive : ∀ g, (db'.grants.get? (pair id t) = some g ∧ g.state = .active) ↔
        (db.grants.get? (pair id t) = some g ∧ g.state = .active) := by
      intro g
      have := congrArg (· = some g) (h.grants t)
      simpa only [Option.filter_eq_some_iff, decide_eq_true_eq, eq_iff_iff] using this
    simp only [pair_fst, pair_snd, true_and, h.tailnets, h.snapshots, h.entryOf]
    constructor
    · rintro ⟨g, hg, ha, hc, tn, snap, htn, he, hu, hs, rfl⟩
      obtain ⟨hg, ha⟩ := (hactive g).mp ⟨hg, ha⟩
      exact ⟨g, hg, ha, hc, tn, snap, htn, he, h.owners t tn htn ▸ hu, hs, rfl⟩
    · rintro ⟨g, hg, ha, hc, tn, snap, htn, he, hu, hs, rfl⟩
      obtain ⟨hg, ha⟩ := (hactive g).mpr ⟨hg, ha⟩
      exact ⟨g, hg, ha, hc, tn, snap, htn, he, (h.owners t tn htn).symm ▸ hu, hs, rfl⟩
  · simp [hk]

theorem SameView.projectGrants {db db' : DB} {id : String} (h : SameView db db' id)
    (owner : String) : projectGrants db' id owner = projectGrants db id owner := by
  have htable : db'.grants.filterMap (grantEntry db' id owner) =
      db.grants.filterMap (grantEntry db id owner) := by
    ext1 k
    rw [Table.get?_filterMap, Table.get?_filterMap, h.row owner k]
  rw [UniDERP.projectGrants, UniDERP.projectGrants, htable]

def FreshRow (E : Env) (db : DB) (id : String) (row : PolicyRow) : Prop :=
  ∃ entries p, Projected E db id row entries ∧ row.policyJSON = some p ∧
    p.revision = row.desiredRevision ∧ policyOf E id row entries p.revision p.generatedAt = p ∧
    Storable E id p

def Fresh (E : Env) (db : DB) : Prop := ∀ id row, db.policies.get? id = some row →
  FreshRow E db id row

structure SameRow (row row' : PolicyRow) : Prop where
  body : row'.policyJSON = row.policyJSON
  revision : row'.desiredRevision = row.desiredRevision
  settings : row'.budgetBPS = row.budgetBPS ∧ row'.ownerWeight = row.ownerWeight ∧
    row'.sharedWeight = row.sharedWeight ∧ row'.sharedMaxBPS = row.sharedMaxBPS

theorem SameRow.refl (row : PolicyRow) : SameRow row row := ⟨rfl, rfl, rfl, rfl, rfl, rfl⟩

theorem SameRow.policyOf {row row' : PolicyRow} (h : SameRow row row') (E : Env) (id : String)
    (entries : List Entry) (revision : ℕ) (generatedAt : Int) :
    policyOf E id row' entries revision generatedAt =
      policyOf E id row entries revision generatedAt := by
  simp only [UniDERP.policyOf, h.settings]

theorem SameView.projected {E : Env} {db db' : DB} {id : String} {row row' : PolicyRow}
    {entries : List Entry} (h : SameView db db' id) (hp : Projected E db id row entries)
    (hrow : db'.policies.get? id = some row') : Projected E db' id row' entries := by
  obtain ⟨n, u, hn, hu, he⟩ := hp.entries
  have hgate := h.gate
  simp only [nodeGate, hn, hu, Option.bind_eq_bind, Option.bind_some, Option.pure_def] at hgate
  simp only [Option.bind_eq_some_iff, Option.some.injEq, Prod.mk.injEq] at hgate
  obtain ⟨n', hn', u', hu', howner, hserves⟩ := hgate
  refine ⟨hrow, h.retentions ▸ hp.retentions, n', u', hn', hu', ?_⟩
  have hserves' : (n'.enabled ∧ u'.enabled ∧ n'.state.serving) ↔
      (n.enabled ∧ u.enabled ∧ n.state.serving) := by
    rw [← and_assoc, ← and_assoc, ← Bool.and_eq_true, ← Bool.and_eq_true, ← Bool.and_eq_true,
      ← Bool.and_eq_true, hserves]
  rw [project, howner, h.projectGrants, ← he, project]
  simp only [hserves']

theorem FreshRow.congr {E : Env} {db db' : DB} {id : String} {row row' : PolicyRow}
    (h : FreshRow E db id row) (hview : SameView db db' id) (hsame : SameRow row row')
    (hrow : db'.policies.get? id = some row') : FreshRow E db' id row' := by
  obtain ⟨entries, p, hp, hb, hrev, hc, hs⟩ := h
  exact ⟨entries, p, hview.projected hp hrow, hsame.body.trans hb, hrev.trans hsame.revision.symm,
    (hsame.policyOf E id entries _ _).trans hc, hs⟩

theorem Built.freshRow {E : Env} {now : Int} {db : DB} {id : String} {row row' : PolicyRow}
    {entries : List Entry} {p : Policy} (hp : Projected E db id row entries)
    (hb : Built E id now row entries row' p) {policies : Table String PolicyRow}
    (hrow : policies.get? id = some row') : FreshRow E { db with policies := policies } id row' := by
  cases hb with
  | same body storable revision content =>
    exact ⟨entries, p, hp.of_row hrow, body, revision, content, storable⟩
  | next content storable =>
    exact ⟨entries, p, hp.of_row hrow, rfl, rfl, content.symm ▸ rfl, storable⟩

theorem Rebuilt.fresh {E : Env} {now : Int} {S : String → Prop} {db db' : DB}
    (h : Rebuilt E now S db db')
    (hothers : ∀ id row, ¬ S id → db.policies.get? id = some row → FreshRow E db id row) :
    Fresh E db' := by
  intro id row' hrow'
  rw [h.frame]
  by_cases hS : S id
  · obtain ⟨row, hrow⟩ := h.row_exists.mp ⟨row', hrow'⟩
    obtain ⟨entries, row'', p, hp, -, hb, hrow''⟩ := h.built id row hS hrow
    obtain rfl : row'' = row' := Option.some.inj (hrow''.symm.trans hrow')
    exact hb.freshRow hp hrow'
  · have hrow := (h.kept id hS).symm.trans hrow'
    obtain ⟨entries, p, hp, hrest⟩ := hothers id row' hS hrow
    exact ⟨entries, p, hp.of_row hrow', hrest⟩

/-- A node has an owner, and serves nobody while its domain is not verified. -/
structure SoundNode (db : DB) (n : Node) : Prop where
  owner : ∃ u, db.users.get? n.ownerID = some u
  domain : n.state = .domainPending → n.enabled = false

/-- What the transactions keep of the tables that a projection reads. -/
structure Sound (db : DB) : Prop where
  nodes : ∀ id n, db.nodes.get? id = some n → SoundNode db n
  tailnets : ∀ t tn, db.tailnets.get? t = some tn → ∃ u, db.users.get? tn.ownerID = some u
  retentions : validRetentions db.retentions

section Sound

variable {E : Env} {c : Clock} {db mid : DB} {op : Op} {reply : Reply} {S : String → Prop}

/-- Accounts are never deleted. -/
theorem Effect.users (h : Effect E c db op reply mid S) {id : String}
    (hu : ∃ u, db.users.get? id = some u) : ∃ u, mid.users.get? id = some u := by
  obtain ⟨u, hu⟩ := hu
  have hinsert : ∀ k v, ∃ u', (db.users.insert k v).get? id = some u' := by
    intro k v
    rw [Table.get?_insert]
    split_ifs
    · exact ⟨v, rfl⟩
    · exact ⟨u, hu⟩
  have hchange : ∀ k f, ∃ u', (db.changeUser k f).users.get? id = some u' := by
    intro k f
    simp only [DB.changeUser, Table.get?_modify, hu]
    split_ifs <;> simp
  cases h
  case initializeAdmin => exact hinsert _ _
  case createAccount => exact hinsert _ _
  case setUserRole => exact hchange _ _
  case changePassword => exact hchange _ _
  case setUserEnabled => exact hchange _ _
  all_goals exact ⟨u, hu⟩

theorem Effect.nodes (h : Effect E c db op reply mid S) (hs : Sound db) {id : String} {n : Node}
    (hn : mid.nodes.get? id = some n) : SoundNode db n := by
  -- An edited row has the owner that it had, so only its domain is left to check.
  have hedited : ∀ {m m' : Node}, db.nodes.get? id = some m → mid.nodes.get? id = some m' →
      m'.ownerID = m.ownerID →
      ((m.state = .domainPending → m.enabled = false) → m'.state = .domainPending →
        m'.enabled = false) → SoundNode db n := by
    intro m m' hm hm' howner hdomain
    cases hn.symm.trans hm'
    have hsound := hs.nodes id m hm
    exact ⟨howner ▸ hsound.owner, hdomain hsound.domain⟩
  cases h.node_edit id with
  | kept same => exact hs.nodes id n (same.symm.trans hn)
  | created _ _ after pending _ owner =>
    cases hn.symm.trans after
    exact ⟨owner, by simp [pending]⟩
  | deleted _ _ gone =>
    rw [gone, DB.deleteNode, Table.get?_erase_self] at hn
    cases hn
  | released _ before after => exact hedited before after rfl fun _ => by simp [Node.released]
  | enrolled _ _ before _ _ _ _ after => exact hedited before after rfl fun _ => by simp
  | renewed _ _ before _ _ _ _ _ after =>
    refine hedited before after rfl fun _ => ?_
    dsimp only
    split_ifs with hd
    · simp
    · exact fun h => absurd h hd
  | refused _ _ before _ _ _ _ after => exact hedited before after rfl fun _ => by simp
  | recovered _ before _ _ _ after => exact hedited before after rfl fun _ => by simp
  | moved _ before disabled _ _ after => exact hedited before after rfl fun _ _ => disabled
  | ported before after => exact hedited before after rfl fun h => h
  | switched before state after =>
    refine hedited before after rfl fun _ hd => ?_
    exact Bool.eq_false_iff.mpr fun he => state ⟨he, hd⟩
  | heard before _ after => exact hedited before after rfl fun h => h
  | acknowledged before _ next after =>
    refine hedited before after rfl fun _ hd => ?_
    rcases next with rfl | rfl <;> cases hd

theorem Effect.tailnets (h : Effect E c db op reply mid S) (hs : Sound db) {t : String}
    {tn : Tailnet} (htn : mid.tailnets.get? t = some tn) :
    ∃ u, db.users.get? tn.ownerID = some u := by
  have hmodify : ∀ k (f : Tailnet → Tailnet), (db.tailnets.modify k f).get? t = some tn →
      (∀ tn, (∃ u, db.users.get? tn.ownerID = some u) →
        ∃ u, db.users.get? (f tn).ownerID = some u) → ∃ u, db.users.get? tn.ownerID = some u := by
    intro k f hget hf
    obtain ⟨tn', htn', rfl⟩ := Table.get?_modify_eq_some.mp hget
    split_ifs
    · exact hf tn' (hs.tailnets t tn' htn')
    · exact hs.tailnets t tn' htn'
  cases h
  case setTailnetEnabled => exact hmodify _ _ htn fun _ hu => hu
  case deleteTailnet =>
    rw [DB.deleteTailnet, Table.get?_erase] at htn
    split_ifs at htn
    exact hs.tailnets _ _ htn
  case transferTailnet howner =>
    refine hmodify _ _ htn fun _ _ => ?_
    obtain ⟨u, hu, -⟩ := userEnabled_eq_true.mp howner
    exact ⟨u, hu⟩
  case addTailnet tn' events last fresh freshCredential howner =>
    rcases Table.get?_insert_eq_some.mp htn with ⟨-, rfl⟩ | ⟨-, htn⟩
    · exact howner
    · exact hs.tailnets t tn htn
  all_goals exact hs.tailnets _ _ htn

theorem Effect.sound (h : Effect E c db op reply mid S) (hs : Sound db) : Sound mid where
  nodes _ _ hn := ⟨h.users (h.nodes hs hn).owner, (h.nodes hs hn).domain⟩
  tailnets _ _ htn := h.users (h.tailnets hs htn)
  retentions := by
    cases h
    case setRetentions hr => exact hr
    all_goals exact hs.retentions

end Sound

section View

variable {E : Env} {c : Clock} {db mid : DB} {op : Op} {reply : Reply} {S : String → Prop}
  {id : String}

theorem nodeGate_congr (hn : mid.nodes.get? id = db.nodes.get? id) (hu : mid.users = db.users) :
    nodeGate mid id = nodeGate db id := by
  simp only [nodeGate, hn, hu]

theorem nodeGate_insert {k : String} {n m : Node} (hn : db.nodes.get? k = some n)
    (hnodes : mid.nodes = db.nodes.insert k m) (hu : mid.users = db.users)
    (howner : m.ownerID = n.ownerID)
    (hserves : (m.enabled && m.state.serving) = (n.enabled && n.state.serving)) :
    nodeGate mid id = nodeGate db id := by
  by_cases hk : id = k
  · subst hk
    have hgate : ∀ u : User, (m.enabled && u.enabled && m.state.serving) =
        (n.enabled && u.enabled && n.state.serving) := by
      intro u
      rw [Bool.and_right_comm, hserves, Bool.and_right_comm]
    simp only [nodeGate, hnodes, hu, Table.get?_insert_self, hn, Option.bind_eq_bind,
      Option.bind_some, howner, hgate]
  · refine nodeGate_congr ?_ hu
    rw [hnodes, Table.get?_insert_ne _ _ hk]

theorem SameView.of_gate (hgate : nodeGate mid id = nodeGate db id) (hg : mid.grants = db.grants)
    (hr : mid.rules = db.rules) (ht : mid.tailnets = db.tailnets) (hu : mid.users = db.users)
    (hs : mid.snapshots = db.snapshots) (hret : mid.retentions = db.retentions) :
    SameView db mid id :=
  ⟨hgate, fun _ => by rw [hg], fun _ => by rw [hr], ht, fun _ _ _ => by simp only [DB.userEnabled, hu],
    hs, hret⟩

theorem SameView.of_users (hs : Sound db) (hn : ∃ n, db.nodes.get? id = some n)
    (h : ∀ k u, db.users.get? k = some u →
      ∃ u', mid.users.get? k = some u' ∧ u'.enabled = u.enabled)
    (hnodes : mid.nodes = db.nodes) (hg : mid.grants = db.grants)
    (hr : mid.rules = db.rules) (ht : mid.tailnets = db.tailnets)
    (hsnap : mid.snapshots = db.snapshots) (hret : mid.retentions = db.retentions) :
    SameView db mid id := by
  refine ⟨?_, fun _ => by rw [hg], fun _ => by rw [hr], ht, ?_, hsnap, hret⟩
  · obtain ⟨n, hn⟩ := hn
    obtain ⟨u, hu⟩ := (hs.nodes id n hn).owner
    obtain ⟨u', hu', he⟩ := h _ u hu
    simp [nodeGate, hnodes, hn, hu, hu', he]
  · intro t tn htn
    obtain ⟨u, hu⟩ := hs.tailnets t tn htn
    obtain ⟨u', hu', he⟩ := h _ u hu
    simp [DB.userEnabled, hu, hu', he]

/-- The row was there, and the node's projection reads what it read. -/
structure Kept (db mid : DB) (id : String) (row : PolicyRow) : Prop where
  view : SameView db mid id
  row : ∃ row₀, db.policies.get? id = some row₀ ∧ SameRow row₀ row

theorem Kept.of_view {row : PolicyRow} (h : SameView db mid id)
    (hrow : db.policies.get? id = some row) : Kept db mid id row :=
  ⟨h, row, hrow, SameRow.refl row⟩

theorem users_insert {k : String} (v : User) (hfresh : db.users.get? k = none) (k' : String)
    (u : User) (hu : db.users.get? k' = some u) :
    ∃ u', (db.users.insert k v).get? k' = some u' ∧ u'.enabled = u.enabled := by
  have hne : k' ≠ k := by
    rintro rfl
    simp [hfresh] at hu
  exact ⟨u, (Table.get?_insert_ne _ _ hne).trans hu, rfl⟩

theorem changeUser_enabled (k : String) {f : User → User} (hf : ∀ u, (f u).enabled = u.enabled)
    (k' : String) (u : User) (hu : db.users.get? k' = some u) :
    ∃ u', (db.changeUser k f).users.get? k' = some u' ∧ u'.enabled = u.enabled := by
  simp only [DB.changeUser, Table.get?_modify, hu]
  split_ifs
  · exact ⟨_, rfl, hf u⟩
  · exact ⟨u, rfl, rfl⟩

theorem Kept.of_other {k : String} {row : PolicyRow} (hrow : mid.policies.get? id = some row)
    (hk : id ≠ k) (hn : ∀ k', k' ≠ k → mid.nodes.get? k' = db.nodes.get? k')
    (hp : ∀ k', k' ≠ k → mid.policies.get? k' = db.policies.get? k')
    (hg : ∀ x, (ofLex x).1 ≠ k → mid.grants.get? x = db.grants.get? x)
    (hr : ∀ x, (ofLex x).1 ≠ k → mid.rules.get? x = db.rules.get? x) (hu : mid.users = db.users)
    (ht : mid.tailnets = db.tailnets) (hs : mid.snapshots = db.snapshots)
    (hret : mid.retentions = db.retentions) : Kept db mid id row := by
  have hview : SameView db mid id := by
    refine ⟨nodeGate_congr (hn id hk) hu, fun t => ?_, fun t => ?_, ht, fun t tn _ => ?_, hs, hret⟩
    · rw [hg (pair id t) hk]
    · exact hr (pair id t) hk
    · simp only [DB.userEnabled, hu]
  exact .of_view hview ((hp id hk).symm.trans hrow)

theorem Kept.of_insert {k : String} {row r r' : PolicyRow} (hrow : mid.policies.get? id = some row)
    (hr : db.policies.get? k = some r) (hv : SameView db mid id)
    (hp : mid.policies = db.policies.insert k r') (hsame : SameRow r r') : Kept db mid id row := by
  rw [hp] at hrow
  rcases Table.get?_insert_eq_some.mp hrow with ⟨rfl, rfl⟩ | ⟨-, hrow⟩
  · exact ⟨hv, r, hr, hsame⟩
  · exact .of_view hv hrow

theorem Effect.kept (h : Effect E c db op reply mid S) (hs : Sound db) (hf : Fresh E db)
    {row : PolicyRow} (hS : ¬ S id) (hrow : mid.policies.get? id = some row) :
    Kept db mid id row := by
  have hquiet : mid.policies = db.policies → SameView db mid id → Kept db mid id row :=
    fun hp hv => .of_view hv (hp ▸ hrow)
  have hnode : mid.policies = db.policies → ∃ n, db.nodes.get? id = some n := by
    intro hp
    obtain ⟨_, _, hproj, -⟩ := hf id row (hp ▸ hrow)
    obtain ⟨n, -, hn, -⟩ := hproj.entries
    exact ⟨n, hn⟩
  have hside : mid.nodes = db.nodes → mid.users = db.users → mid.grants = db.grants →
      mid.rules = db.rules → mid.tailnets = db.tailnets → mid.snapshots = db.snapshots →
      mid.retentions = db.retentions → SameView db mid id := fun hn hu hg hr ht hsn hret =>
    .of_gate (nodeGate_congr (by rw [hn]) hu) hg hr ht hu hsn hret
  -- The calls that rebuild all policies come with every id in `S`; the others leave the view of a
  -- node that they do not rebuild.
  cases h
  case initializeAdmin hfresh =>
    exact hquiet rfl (.of_users hs (hnode rfl) (users_insert _ hfresh) rfl rfl rfl rfl rfl rfl)
  case createAccount hfresh =>
    exact hquiet rfl (.of_users hs (hnode rfl) (users_insert _ hfresh) rfl rfl rfl rfl rfl rfl)
  case setUserRole =>
    exact hquiet rfl (.of_users hs (hnode rfl) (changeUser_enabled _ (by simp)) rfl rfl rfl rfl rfl rfl)
  case changePassword =>
    exact hquiet rfl (.of_users hs (hnode rfl) (changeUser_enabled _ (by simp)) rfl rfl rfl rfl rfl rfl)
  case setUserEnabled => exact absurd trivial hS
  case setRetentions => exact absurd trivial hS
  case setTailnetEnabled => exact absurd trivial hS
  case deleteTailnet => exact absurd trivial hS
  case transferTailnet => exact absurd trivial hS
  case addTailnet => exact absurd trivial hS
  case replaceCommit => exact absurd trivial hS
  case deleteCredential => exact absurd trivial hS
  case refreshCommit => exact absurd trivial hS
  case createNode m fresh _ _ _ _ =>
    obtain ⟨n, hn⟩ := hnode rfl
    refine hquiet rfl (.of_gate (nodeGate_congr ?_ rfl) rfl rfl rfl rfl rfl rfl)
    exact Table.get?_insert_ne _ _ fun he => by simp [he, fresh] at hn
  case reissueEnrollment =>
    exact Kept.of_other hrow hS (fun _ hk => Table.get?_modify_ne _ _ hk)
      (fun _ hk => Table.get?_modify_ne _ _ hk) (fun x hx => Table.get?_update_of_forall (by simp [hx]))
      (fun _ _ => rfl) rfl rfl rfl rfl
  case leaveNode =>
    exact Kept.of_other hrow hS (fun _ hk => Table.get?_modify_ne _ _ hk)
      (fun _ hk => Table.get?_modify_ne _ _ hk) (fun x hx => Table.get?_update_of_forall (by simp [hx]))
      (fun _ _ => rfl) rfl rfl rfl rfl
  case enroll =>
    refine Kept.of_other hrow hS (fun _ hk => Table.get?_insert_ne _ _ hk) (fun k hk => ?_)
      (fun _ _ => rfl) (fun _ _ => rfl) rfl rfl rfl rfl
    dsimp only
    split
    · rfl
    · exact Table.get?_insert_ne _ _ hk
  case renew n hm hd hstate _ _ _ _ _ _ =>
    refine hquiet rfl (.of_gate (nodeGate_insert hm rfl rfl rfl ?_) rfl rfl rfl rfl rfl rfl)
    -- A node between two domains is disabled and was not served before either.
    by_cases hp : n.state = .domainPending
    · simp [hp, NodeState.serving, (hs.nodes _ _ hm).domain hp]
    · simp [hp]
  case refuse =>
    exact Kept.of_other hrow hS (fun _ hk => Table.get?_insert_ne _ _ hk) (fun _ _ => rfl)
      (fun _ _ => rfl) (fun _ _ => rfl) rfl rfl rfl rfl
  case recover =>
    exact Kept.of_other hrow hS (fun _ hk => Table.get?_insert_ne _ _ hk) (fun _ _ => rfl)
      (fun _ _ => rfl) (fun _ _ => rfl) rfl rfl rfl rfl
  case ports hm _ =>
    exact hquiet rfl (.of_gate (nodeGate_insert hm rfl rfl rfl rfl) rfl rfl rfl rfl rfl rfl)
  case setNodeEnabled enabled n hm _ _ _ =>
    by_cases hp : n.state = .pending
    · refine hquiet rfl (.of_gate (nodeGate_insert hm rfl rfl rfl ?_) rfl rfl rfl rfl rfl rfl)
      simp [hp, NodeState.serving]
    · exact Kept.of_other hrow (fun he => hS ⟨he, hp⟩) (fun _ hk => Table.get?_insert_ne _ _ hk)
        (fun _ _ => rfl) (fun _ _ => rfl) (fun _ _ => rfl) rfl rfl rfl rfl
  case deleteNode k _ _ _ =>
    have hk : id ≠ k := by
      rintro rfl
      simp [DB.deleteNode] at hrow
    exact Kept.of_other hrow hk (fun _ hk => Table.get?_erase_ne _ hk)
      (fun _ hk => Table.get?_erase_ne _ hk) (fun x hx => Table.get?_delete_of_forall (by simp [hx]))
      (fun x hx => Table.get?_delete_of_forall (by simp [hx])) rfl rfl rfl rfl
  case changeNodeDomain hm hdisabled _ _ _ _ =>
    refine hquiet rfl (.of_gate (nodeGate_insert hm rfl rfl rfl ?_) rfl rfl rfl rfl rfl rfl)
    simp [hdisabled]
  case setNodeQoS rules hrules _ =>
    exact Kept.of_other hrow hS (fun _ _ => rfl) (fun _ hk => Table.get?_modify_ne _ _ hk)
      (fun _ _ => rfl) hrules rfl rfl rfl rfl
  case requestGrant =>
    refine Kept.of_other hrow hS (fun _ _ => rfl) (fun _ _ => rfl) (fun x hx => ?_) (fun _ _ => rfl)
      rfl rfl rfl rfl
    exact Table.get?_insert_ne _ _ fun he => hx (by rw [he, pair_fst])
  case applyGrantAction =>
    refine Kept.of_other hrow hS (fun _ _ => rfl) (fun _ _ => rfl) (fun x hx => ?_) (fun _ _ => rfl)
      rfl rfl rfl rfl
    exact Table.get?_insert_ne _ _ fun he => hx (by rw [he])
  case nodeHeartbeat =>
    refine Kept.of_other hrow hS (fun _ hk => Table.get?_modify_ne _ _ hk) (fun _ _ => rfl)
      (fun x hx => ?_) (fun _ _ => rfl) rfl rfl rfl rfl
    exact Table.get?_update_of_forall (by simp [hx])
  case ackReceived hstored _ =>
    exact Kept.of_insert hrow hstored (hside rfl rfl rfl rfl rfl rfl rfl) rfl
      ⟨rfl, rfl, rfl, rfl, rfl, rfl⟩
  case ackApplied usable _ hsession _ hstored _ =>
    obtain ⟨-, hm, -, -, hserving, -⟩ := liveSession_eq_some.mp hsession
    refine Kept.of_insert hrow hstored
      (.of_gate (nodeGate_insert hm rfl rfl rfl ?_) rfl rfl rfl rfl rfl rfl) rfl ⟨rfl, rfl, rfl, rfl, rfl, rfl⟩
    rw [hserving]
    cases usable <;> rfl
  case ackNack hsession _ =>
    obtain ⟨-, hm, -, -, hserving, -⟩ := liveSession_eq_some.mp hsession
    refine hquiet rfl (.of_gate (nodeGate_insert hm rfl rfl rfl ?_) rfl rfl rfl rfl rfl rfl)
    rw [hserving]
    rfl
  all_goals exact hquiet rfl (hside rfl rfl rfl rfl rfl rfl rfl)

end View

section Reachable

variable {E : Env} {db db' : DB}

theorem Rebuilt.sound {now : Int} {S : String → Prop} (h : Rebuilt E now S db db')
    (hs : Sound db) : Sound db' := by
  rw [h.frame]
  exact ⟨fun id n hn => ⟨(hs.nodes id n hn).owner, (hs.nodes id n hn).domain⟩, hs.tailnets,
    hs.retentions⟩

theorem Step.sound {a : Commit} (h : Step E db a db') (hs : Sound db) : Sound db' := by
  obtain ⟨mid, S, i, he, hr⟩ := exec_does h
  exact hr.sound (he.sound hs)

theorem Step.fresh {a : Commit} (h : Step E db a db') (hs : Sound db) (hf : Fresh E db) :
    Fresh E db' := by
  obtain ⟨mid, S, i, he, hr⟩ := exec_does h
  refine hr.fresh fun id row hS hrow => ?_
  obtain ⟨hview, row₀, hrow₀, hsame⟩ := he.kept hs hf hS hrow
  exact (hf id row₀ hrow₀).congr hview hsame hrow

theorem Store.Reachable.sound (h : Store.Reachable E db) : Sound db := by
  refine Reachable.invariant h ?_ fun s a s' _ hs hstep => Step.sound hstep hs
  rintro s rfl
  exact ⟨by simp [DB.empty], by simp [DB.empty], by decide⟩

theorem Store.Reachable.fresh (h : Store.Reachable E db) : Fresh E db := by
  refine Reachable.invariant h ?_ fun s a s' hs hf hstep => ?_
  · rintro s rfl id row hrow
    simp [DB.empty] at hrow
  · exact Step.fresh hstep (Store.Reachable.sound hs) hf

end Reachable

end UniDERP
