import UniDERP.Control.Store

namespace UniDERP

/-- The owners found so far, and the keys found under two of them. -/
structure KeyOwners where
  owners : List (String × String) := []
  conflicts : List String := []

def noteKey (id : String) (acc : KeyOwners) (k : IdentityKey) : KeyOwners :=
  match acc.owners.lookup k.nodePublic with
  | some owner =>
    if owner ≠ id then { acc with conflicts := k.nodePublic :: acc.conflicts }
    else { acc with owners := (k.nodePublic, id) :: acc.owners }
  | none => { acc with owners := (k.nodePublic, id) :: acc.owners }

/-- The loop over the snapshots, in the order in which the map is iterated. -/
def conflictingKeys (all : List (String × Snapshot)) : List String :=
  let found := all.foldl (fun acc x => x.2.keys.foldl (noteKey x.1) acc) ({} : KeyOwners)
  found.conflicts

abbrev Entry := GrantPolicy × TailnetQoS

def policyKeys (conflicts : List String) (snap : Snapshot) : List DeviceKey :=
  (snap.keys.filter fun k => k.nodePublic ∉ conflicts).map fun k => ⟨k.nodePublic, k.notAfter⟩

def grantPolicy (db : DB) (tailnet : String) (g : Grant) (snap : Snapshot) : GrantPolicy where
  grantID := g.id
  grantRevision := g.revision
  tailnetID := tailnet
  lastIdentitySuccess := ofUnix snap.lastSuccess
  identityUntil := ofUnix snap.lastSuccess + db.retentions.identitySeconds * second
  controlUntil := ofUnix g.lastControlSuccess + db.retentions.controlSeconds * second
  explicitUntil := if g.explicitUntil ≠ 0 then ofUnix g.explicitUntil else zeroTime
  keys := policyKeys (conflictingKeys db.snapshots.rows) snap

/-- The rule of a grant: the stored one, or the default of its owner's class. -/
def grantRule (db : DB) (node tailnet nodeOwner tailnetOwner : String) : TailnetQoS :=
  match db.rules.get? (pair node tailnet) with
  | some r => ⟨tailnet, r.group, r.weight, r.maxBPS⟩
  | none => ⟨tailnet, if tailnetOwner = nodeOwner then .owner else .shared, 1, 0⟩

/-- The entry of a grant; only the owner's own tailnets are in the owner's class. -/
def entryOf (db : DB) (id nodeOwner tailnet : String) (g : Grant) (tn : Tailnet) (snap : Snapshot) :
    Except Err Entry :=
  let rule := grantRule db id tailnet nodeOwner tn.ownerID
  if rule.group = .owner ∧ tn.ownerID ≠ nodeOwner then .error .invalid
  else .ok (grantPolicy db tailnet g snap, rule)

/-- One row of the query over a node's grants: skipped, refused, or an entry. -/
def grantEntry (db : DB) (id nodeOwner : String) (k : Pair) (g : Grant) :
    Option (Except Err Entry) := do
  let (node, tailnet) := ofLex k
  guard (node = id ∧ g.state = .active)
  let tn ← db.tailnets.get? tailnet
  guard (tn.enabled ∧ db.userEnabled tn.ownerID)
  let snap ← db.snapshots.get? tailnet
  guard (0 < g.lastControlSuccess)
  some (entryOf db id nodeOwner tailnet g tn snap)

/-- The loop over the node's grants in the order of their tailnets, up to the first refusal. -/
def projectGrants (db : DB) (id nodeOwner : String) : Except Err (List Entry) :=
  (db.grants.filterMap (grantEntry db id nodeOwner)).values.mapM fun e => e

/-- The entries of a node: none unless it and its owner are enabled and it is registered. -/
def project (db : DB) (id : String) (n : Node) (u : User) : Except Err (List Entry) :=
  if n.enabled ∧ u.enabled ∧ n.state.serving then projectGrants db id n.ownerID else .ok []

def policyOf (E : Env) (id : String) (row : PolicyRow) (entries : List Entry) (revision : ℕ)
    (generatedAt : Int) : Policy where
  clusterID := E.clusterID
  nodeID := id
  revision := revision
  generatedAt := generatedAt
  grants := entries.map (·.1)
  qos := {
    budgetBPS := row.budgetBPS
    ownerWeight := row.ownerWeight
    sharedWeight := row.sharedWeight
    sharedMaxBPS := row.sharedMaxBPS
    tailnets := entries.map (·.2) }

def validRetentions (r : Retentions) : Bool :=
  0 < r.identitySeconds && 0 < r.controlSeconds &&
    r.identitySeconds ≤ maxInt64 / 1000000000 && r.controlSeconds ≤ maxInt64 / 1000000000

def readRetentions (db : DB) : Except Err Retentions := do
  require (validRetentions db.retentions) .invalid
  pure db.retentions

/-- `cluster.DecodePolicy` of a stored body. -/
def decodePolicy (E : Env) (p : Policy) (id : String) : Except Err Policy := do
  require (policySize p ≤ maxPolicyBytes) (.policy "policy unreadable or too large")
  (validatePolicy E.unmarshalText p E.clusterID id).mapError .policy
  pure p

def PolicyRow.store (p : Policy) (row : PolicyRow) : PolicyRow :=
  { row with
    desiredRevision := p.revision
    generatedAt := unix p.generatedAt
    policyJSON := some p }

def storePolicy (E : Env) (id : String) (p : Policy) (db : DB) : Except Err (DB × Policy) := do
  (validatePolicy E.unmarshalText p E.clusterID id).mapError .policy
  require (marshals p ∧ policySize p ≤ maxPolicyBytes) .invalid
  pure ({ db with policies := db.policies.modify id (PolicyRow.store p) }, p)

def buildPolicy (E : Env) (id : String) (now : Int) (db : DB) : Except Err (DB × Policy) := do
  let n ← orElse (db.nodes.get? id) .noRows
  let u ← orElse (db.users.get? n.ownerID) .noRows
  let row ← orElse (db.policies.get? id) .noRows
  let _ ← readRetentions db
  let entries ← project db id n u
  require (row.desiredRevision < maxInt64) .conflict
  match row.policyJSON with
  | some previous =>
    let old ← (decodePolicy E previous id).mapError fun _ => .invalid
    require (old.revision = row.desiredRevision) .invalid
    let candidate := policyOf E id row entries old.revision old.generatedAt
    require (marshals candidate) .marshal
    if candidate = previous then pure (db, old)
    else do
      require (old.generatedAt ≤ now) .conflict
      storePolicy E id (policyOf E id row entries (row.desiredRevision + 1) now) db
  | none => storePolicy E id (policyOf E id row entries (row.desiredRevision + 1) now) db

/-- The loop of `rebuildPolicies` over the nodes that have a policy row. -/
def buildEach (E : Env) (now : Int) : List String → DB → Except Err DB
  | [], db => .ok db
  | id :: ids, db => do
    let (db, _) ← buildPolicy E id now db
    buildEach E now ids db

def rebuildPolicies (E : Env) (now : Int) (db : DB) : Except Err DB :=
  buildEach E now db.policies.keys db

/-- The owners and conflicts found in a list of claims of keys by tailnets. -/
structure KeyOwners.Tracks (acc : KeyOwners) (seen : List (String × String)) : Prop where
  unowned : ∀ k, acc.owners.lookup k = none → ∀ id, (id, k) ∉ seen
  owned : ∀ k o, acc.owners.lookup k = some o → (o, k) ∈ seen
  conflicts : ∀ k, k ∈ acc.conflicts ↔ ∃ a b, a ≠ b ∧ (a, k) ∈ seen ∧ (b, k) ∈ seen

theorem KeyOwners.Tracks.noteKey {acc : KeyOwners} {seen : List (String × String)}
    (h : acc.Tracks seen) (id : String) (k : IdentityKey) :
    (noteKey id acc k).Tracks ((id, k.nodePublic) :: seen) := by
  have hother : ∀ k', k' ≠ k.nodePublic → ∀ a,
      (a, k') ∈ (id, k.nodePublic) :: seen ↔ (a, k') ∈ seen := by
    intro k' hk a
    simp [hk]
  unfold UniDERP.noteKey
  cases hl : acc.owners.lookup k.nodePublic with
  | none =>
    -- The first claim of the key.
    have hfirst : ∀ a, (a, k.nodePublic) ∈ (id, k.nodePublic) :: seen ↔ a = id := by
      intro a
      simp [h.unowned _ hl a]
    refine ⟨fun k' hk' a => ?_, fun k' o hk' => ?_, fun k' => ?_⟩
    · rw [List.lookup_cons] at hk'
      split at hk'
      · simp at hk'
      · next hne =>
        rw [hother k' (by simpa using hne)]
        exact h.unowned k' hk' a
    · rw [List.lookup_cons] at hk'
      split at hk'
      · next heq =>
        obtain rfl := Option.some.inj hk'
        simp [beq_iff_eq.mp heq]
      · exact List.mem_cons_of_mem _ (h.owned k' o hk')
    · by_cases hk : k' = k.nodePublic
      · subst hk
        rw [h.conflicts]
        constructor
        · rintro ⟨a, b, hab, ha, hb⟩
          exact absurd ha (h.unowned _ hl a)
        · rintro ⟨a, b, hab, ha, hb⟩
          exact absurd (((hfirst a).mp ha).trans ((hfirst b).mp hb).symm) hab
      · simp only [h.conflicts, hother k' hk]
  | some o =>
    have ho := h.owned _ _ hl
    dsimp only
    split_ifs with hne
    · refine ⟨fun k' hk' a => ?_, fun k' o' hk' => List.mem_cons_of_mem _ (h.owned k' o' hk'),
        fun k' => ?_⟩
      · have hk : k' ≠ k.nodePublic := by
          rintro rfl
          simp [hl] at hk'
        rw [hother k' hk]
        exact h.unowned k' hk' a
      · by_cases hk : k' = k.nodePublic
        · subst hk
          simp only [List.mem_cons, true_or, true_iff]
          exact ⟨o, id, hne, Or.inr ho, Or.inl rfl⟩
        · simp [hk, h.conflicts]
    · -- A repeat inside one tailnet adds nothing.
      obtain rfl := not_not.mp hne
      have hlookup : ∀ k', ((k.nodePublic, o) :: acc.owners).lookup k' = acc.owners.lookup k' := by
        intro k'
        rw [List.lookup_cons]
        split
        · next heq => rw [beq_iff_eq.mp heq, hl]
        · rfl
      have hsame : ∀ x, x ∈ (o, k.nodePublic) :: seen ↔ x ∈ seen := by
        intro x
        rw [List.mem_cons]
        exact ⟨fun hx => hx.elim (fun hx => hx ▸ ho) fun hx => hx, Or.inr⟩
      simp only [hsame] at hother ⊢
      exact ⟨fun k' hk' a => (hsame _).not.mpr (h.unowned k' (hlookup k' ▸ hk') a),
        fun k' o' hk' => (hsame _).mpr (h.owned k' o' (hlookup k' ▸ hk')),
        fun k' => by simp only [hsame, h.conflicts]⟩

theorem KeyOwners.Tracks.keys {acc : KeyOwners} {seen : List (String × String)}
    (h : acc.Tracks seen) (id : String) (keys : List IdentityKey) :
    ∃ seen', (keys.foldl (UniDERP.noteKey id) acc).Tracks seen' ∧
      ∀ x, x ∈ seen' ↔ x ∈ seen ∨ x.1 = id ∧ x.2 ∈ keys.map (·.nodePublic) := by
  induction keys generalizing acc seen with
  | nil => exact ⟨seen, h, by simp⟩
  | cons k keys ih =>
    obtain ⟨seen', h', hmem⟩ := ih (h.noteKey id k)
    refine ⟨seen', h', fun x => ?_⟩
    rw [hmem, List.mem_cons, List.map_cons, List.mem_cons, Prod.ext_iff]
    tauto

theorem KeyOwners.Tracks.snapshots {acc : KeyOwners} {seen : List (String × String)}
    (h : acc.Tracks seen) (all : List (String × Snapshot)) :
    ∃ seen', (all.foldl (fun acc x => x.2.keys.foldl (UniDERP.noteKey x.1) acc) acc).Tracks seen' ∧
      ∀ x, x ∈ seen' ↔ x ∈ seen ∨ ∃ a ∈ all, x.1 = a.1 ∧ x.2 ∈ a.2.keys.map (·.nodePublic) := by
  induction all generalizing acc seen with
  | nil => exact ⟨seen, h, by simp⟩
  | cons a all ih =>
    obtain ⟨mid, hmid, hmem⟩ := h.keys a.1 a.2.keys
    obtain ⟨seen', h', hmem'⟩ := ih hmid
    refine ⟨seen', h', fun x => ?_⟩
    simp only [hmem', hmem, List.mem_cons, exists_eq_or_imp, or_assoc]

theorem mem_conflictingKeys {all : List (String × Snapshot)} {k : String} :
    k ∈ conflictingKeys all ↔ ∃ a ∈ all, ∃ b ∈ all, a.1 ≠ b.1 ∧
      k ∈ a.2.keys.map (·.nodePublic) ∧ k ∈ b.2.keys.map (·.nodePublic) := by
  have hstart : KeyOwners.Tracks {} [] := ⟨by simp, by simp, by simp⟩
  obtain ⟨seen, h, hmem⟩ := hstart.snapshots all
  rw [conflictingKeys, h.conflicts]
  simp only [hmem, List.not_mem_nil, false_or]
  constructor
  · rintro ⟨_, _, hne, ⟨a, ha, rfl, hka⟩, b, hb, rfl, hkb⟩
    exact ⟨a, ha, b, hb, hne, hka, hkb⟩
  · rintro ⟨a, ha, b, hb, hne, hka, hkb⟩
    exact ⟨a.1, b.1, hne, ⟨a, ha, rfl, hka⟩, b, hb, rfl, hkb⟩

theorem grantEntry_eq_some {db : DB} {id nodeOwner : String} {k : Pair} {g : Grant}
    {r : Except Err Entry} : grantEntry db id nodeOwner k g = some r ↔
      (ofLex k).1 = id ∧ g.state = .active ∧ 0 < g.lastControlSuccess ∧
      ∃ tn snap, db.tailnets.get? (ofLex k).2 = some tn ∧ tn.enabled ∧
        db.userEnabled tn.ownerID ∧ db.snapshots.get? (ofLex k).2 = some snap ∧
        entryOf db id nodeOwner (ofLex k).2 g tn snap = r := by
  simp only [grantEntry, Option.bind_eq_bind, Option.bind_eq_some_iff, Option.guard_eq_some',
    exists_const, Option.some.injEq]
  constructor
  · rintro ⟨⟨hid, ha⟩, tn, htn, ⟨he, hu⟩, snap, hs, hc, rfl⟩
    exact ⟨hid, ha, hc, tn, snap, htn, he, hu, hs, rfl⟩
  · rintro ⟨hid, ha, hc, tn, snap, htn, he, hu, hs, rfl⟩
    exact ⟨⟨hid, ha⟩, tn, htn, ⟨he, hu⟩, snap, hs, hc, rfl⟩

theorem entryOf_eq_ok {db : DB} {id nodeOwner tailnet : String} {g : Grant} {tn : Tailnet}
    {snap : Snapshot} {e : Entry} : entryOf db id nodeOwner tailnet g tn snap = .ok e ↔
      ((grantRule db id tailnet nodeOwner tn.ownerID).group = .owner → tn.ownerID = nodeOwner) ∧
      e = (grantPolicy db tailnet g snap, grantRule db id tailnet nodeOwner tn.ownerID) := by
  simp only [entryOf]
  split_ifs with h
  · simp [h]
  · simp only [not_and, not_not] at h
    rw [Except.ok.injEq, and_iff_right h, eq_comm]

structure Storable (E : Env) (id : String) (p : Policy) : Prop where
  wellFormed : WellFormed E.unmarshalText p E.clusterID id
  marshals : marshals p
  size : policySize p ≤ maxPolicyBytes

/-- What a build reads: the node, its owner, its policy row and the projected entries. -/
structure Projected (E : Env) (db : DB) (id : String) (row : PolicyRow) (entries : List Entry) :
    Prop where
  intro ::
  row : db.policies.get? id = some row
  retentions : validRetentions db.retentions
  entries : ∃ n u, db.nodes.get? id = some n ∧ db.users.get? n.ownerID = some u ∧
    project db id n u = .ok entries

/-- A build either finds the stored body unchanged or stores the next one. -/
inductive Built (E : Env) (id : String) (now : Int) (row : PolicyRow) (entries : List Entry) :
    PolicyRow → Policy → Prop
  | same {p : Policy} (body : row.policyJSON = some p) (storable : Storable E id p)
      (revision : p.revision = row.desiredRevision)
      (content : policyOf E id row entries p.revision p.generatedAt = p) :
      Built E id now row entries row p
  | next {p : Policy} (content : p = policyOf E id row entries (row.desiredRevision + 1) now)
      (storable : Storable E id p)
      (old : ∀ q, row.policyJSON = some q → q.revision = row.desiredRevision ∧
        policyOf E id row entries q.revision q.generatedAt ≠ q ∧ q.generatedAt ≤ now ∧
        WellFormed E.unmarshalText q E.clusterID id ∧ policySize q ≤ maxPolicyBytes ∧
        UniDERP.marshals (policyOf E id row entries q.revision q.generatedAt)) :
      Built E id now row entries (row.store p) p

@[simp] theorem decodePolicy_eq_ok {E : Env} {id : String} {p q : Policy} :
    decodePolicy E p id = .ok q ↔ policySize p ≤ maxPolicyBytes ∧
      WellFormed E.unmarshalText p E.clusterID id ∧ p = q := by
  simp [decodePolicy]

theorem storePolicy_eq_ok {E : Env} {id : String} {p q : Policy} {db db' : DB} :
    storePolicy E id p db = .ok (db', q) ↔ Storable E id p ∧ q = p ∧
      db' = { db with policies := db.policies.modify id (PolicyRow.store p) } := by
  simp only [storePolicy, Except_bind_eq_ok, mapError_eq_ok, validatePolicy_eq_ok, require_eq_ok,
    exists_const, Except_pure_eq_ok, Prod.mk.injEq]
  constructor
  · rintro ⟨hw, ⟨hm, hs⟩, rfl, rfl⟩
    exact ⟨⟨hw, hm, hs⟩, rfl, rfl⟩
  · rintro ⟨h, rfl, rfl⟩
    exact ⟨h.wellFormed, ⟨h.marshals, h.size⟩, rfl, rfl⟩

theorem buildPolicy_eq_ok {E : Env} {id : String} {now : Int} {db db' : DB} {p : Policy} :
    buildPolicy E id now db = .ok (db', p) ↔ ∃ row entries row', Projected E db id row entries ∧
      row.desiredRevision < maxInt64 ∧ Built E id now row entries row' p ∧
      db' = { db with policies := db.policies.insert id row' } := by
  simp only [buildPolicy, Except_bind_eq_ok, orElse_eq_ok, readRetentions, require_eq_ok,
    exists_const, Except_pure_eq_ok]
  constructor
  · rintro ⟨n, hn, u, hu, row, hrow, _, ⟨hret, rfl⟩, entries, he, hlt, h⟩
    have hproj : Projected E db id row entries := ⟨hrow, hret, n, u, hn, hu, he⟩
    have hstore (q : Policy) : { db with policies := db.policies.modify id (PolicyRow.store q) } =
        { db with policies := db.policies.insert id (row.store q) } := by
      rw [Table.modify_eq_insert _ hrow]
    -- Without a stored body the next revision is stored; with one, it is decoded and compared
    -- first.
    cases hb : row.policyJSON with
    | none =>
      simp only [hb, storePolicy_eq_ok] at h
      obtain ⟨hs, rfl, rfl⟩ := h
      exact ⟨row, entries, _, hproj, hlt, .next rfl hs (by simp [hb]), hstore _⟩
    | some old =>
      simp only [hb, Except_bind_eq_ok, mapError_eq_ok, decodePolicy_eq_ok, require_eq_ok,
        exists_const] at h
      obtain ⟨_, ⟨hsize, hw, rfl⟩, hrev, hm, h⟩ := h
      split_ifs at h with hc
      · simp only [Except_pure_eq_ok, Prod.mk.injEq] at h
        obtain ⟨rfl, rfl⟩ := h
        refine ⟨row, entries, row, hproj, hlt, .same hb ⟨hw, hc ▸ hm, hsize⟩ hrev hc, ?_⟩
        rw [Table.insert_eq_self hrow]
      · simp only [Except_bind_eq_ok, require_eq_ok, exists_const, storePolicy_eq_ok] at h
        obtain ⟨hle, hs, rfl, rfl⟩ := h
        refine ⟨row, entries, _, hproj, hlt, .next rfl hs fun q hq => ?_, hstore _⟩
        obtain rfl : old = q := Option.some.inj (hb.symm.trans hq)
        exact ⟨hrev, hc, hle, hw, hsize, hm⟩
  · rintro ⟨row, entries, row', ⟨hrow, hret, n, u, hn, hu, he⟩, hlt, h, rfl⟩
    refine ⟨n, hn, u, hu, row, hrow, _, ⟨hret, rfl⟩, entries, he, hlt, ?_⟩
    cases h with
    -- The body that is marshalled for the comparison is the stored one.
    | same hb hs hrev hc =>
      have hm := hs.marshals
      rw [← hc] at hm
      simp only [hb, Except_bind_eq_ok, mapError_eq_ok, decodePolicy_eq_ok, require_eq_ok,
        exists_const]
      refine ⟨p, ⟨hs.size, hs.wellFormed, rfl⟩, hrev, hm, ?_⟩
      rw [if_pos hc, Table.insert_eq_self hrow]
      rfl
    | next hp hs hold =>
      have hstore : storePolicy E id (policyOf E id row entries (row.desiredRevision + 1) now) db =
          .ok ({ db with policies := db.policies.insert id (row.store p) }, p) := by
        rw [storePolicy_eq_ok, ← hp, Table.modify_eq_insert _ hrow]
        exact ⟨hs, rfl, rfl⟩
      cases hb : row.policyJSON with
      | none => exact hstore
      | some old =>
        obtain ⟨hrev, hne, hle, hw, hsize, hm⟩ := hold old hb
        simp only [Except_bind_eq_ok, mapError_eq_ok, decodePolicy_eq_ok, require_eq_ok,
          exists_const]
        refine ⟨old, ⟨hsize, hw, rfl⟩, hrev, hm, ?_⟩
        rw [if_neg hne]
        simp only [Except_bind_eq_ok, require_eq_ok, exists_const]
        exact ⟨hle, hstore⟩

/-- The policy rows of the nodes in `S` were built, and nothing else changed. -/
structure Rebuilt (E : Env) (now : Int) (S : String → Prop) (db db' : DB) : Prop where
  frame : db' = { db with policies := db'.policies }
  keys : db'.policies.keys = db.policies.keys
  built : ∀ id row, S id → db.policies.get? id = some row →
    ∃ entries row' p, Projected E db id row entries ∧ row.desiredRevision < maxInt64 ∧
      Built E id now row entries row' p ∧ db'.policies.get? id = some row'
  kept : ∀ id, ¬ S id → db'.policies.get? id = db.policies.get? id

theorem Rebuilt.refl (E : Env) (now : Int) (db : DB) : Rebuilt E now (fun _ => False) db db :=
  ⟨rfl, rfl, fun _ _ h => h.elim, fun _ _ => rfl⟩

theorem Rebuilt.row_exists {E : Env} {now : Int} {S : String → Prop} {db db' : DB} {id : String}
    (h : Rebuilt E now S db db') :
    (∃ row, db'.policies.get? id = some row) ↔ ∃ row, db.policies.get? id = some row := by
  rw [← Table.mem_keys, h.keys, Table.mem_keys]

theorem Rebuilt.row_none {E : Env} {now : Int} {S : String → Prop} {db db' : DB} {id : String}
    (h : Rebuilt E now S db db') :
    db'.policies.get? id = none ↔ db.policies.get? id = none := by
  rw [← not_iff_not, ← Ne, ← Ne, Option.ne_none_iff_exists', Option.ne_none_iff_exists']
  exact h.row_exists

theorem Projected.of_row {E : Env} {db : DB} {policies : Table String PolicyRow} {id : String}
    {row row' : PolicyRow} {entries : List Entry} (h : Projected E db id row entries)
    (hrow : policies.get? id = some row') :
    Projected E { db with policies := policies } id row' entries :=
  ⟨hrow, h.retentions, h.entries⟩

theorem buildPolicy_rebuilt {E : Env} {id : String} {now : Int} {db db' : DB} {p : Policy}
    (h : buildPolicy E id now db = .ok (db', p)) : Rebuilt E now (· = id) db db' := by
  obtain ⟨row, entries, row', hproj, hlt, hb, rfl⟩ := buildPolicy_eq_ok.mp h
  refine ⟨rfl, Table.keys_insert_of_get? _ hproj.row, ?_, ?_⟩
  · rintro _ row₀ rfl hrow₀
    obtain rfl : row = row₀ := Option.some.inj (hproj.row.symm.trans hrow₀)
    exact ⟨entries, row', p, hproj, hlt, hb, Table.get?_insert_self _ _ _⟩
  · intro id' hne
    exact Table.get?_insert_ne _ _ hne

theorem buildEach_rebuilt {E : Env} {now : Int} {ids : List String} {db db' : DB}
    (hnd : ids.Nodup) (h : buildEach E now ids db = .ok db') : Rebuilt E now (· ∈ ids) db db' := by
  induction ids generalizing db with
  | nil =>
    obtain rfl : db = db' := by simpa [buildEach] using h
    exact ⟨rfl, rfl, by simp, by simp⟩
  | cons id ids ih =>
    obtain ⟨⟨db₁, p⟩, hb, hrest⟩ := Except_bind_eq_ok.mp h
    obtain ⟨hfresh, hnd⟩ := List.nodup_cons.mp hnd
    have h₁ := buildPolicy_rebuilt hb
    have h₂ := ih hnd hrest
    refine ⟨?_, h₂.keys.trans h₁.keys, ?_, ?_⟩
    · rw [h₂.frame, h₁.frame]
    · intro id' row hmem hrow
      rcases List.mem_cons.mp hmem with rfl | hmem
      · obtain ⟨entries, row', q, hproj, hlt, hbuilt, hrow'⟩ := h₁.built _ row rfl hrow
        exact ⟨entries, row', q, hproj, hlt, hbuilt, (h₂.kept _ hfresh).trans hrow'⟩
      · have hne : id' ≠ id := fun he => hfresh (he ▸ hmem)
        obtain ⟨entries, row', q, hproj, hlt, hbuilt, hrow'⟩ :=
          h₂.built id' row hmem ((h₁.kept id' hne).trans hrow)
        refine ⟨entries, row', q, ?_, hlt, hbuilt, hrow'⟩
        rw [h₁.frame] at hproj
        exact hproj.of_row hrow
    · intro id' hmem
      rw [List.mem_cons, not_or] at hmem
      rw [h₂.kept id' hmem.2, h₁.kept id' hmem.1]

theorem rebuildPolicies_rebuilt {E : Env} {now : Int} {db db' : DB}
    (h : rebuildPolicies E now db = .ok db') : Rebuilt E now (fun _ => True) db db' := by
  have hr := buildEach_rebuilt db.policies.keys_nodup h
  refine ⟨hr.frame, hr.keys, fun id row _ hrow => ?_, fun id hn => absurd trivial hn⟩
  exact hr.built id row (Table.mem_keys.mpr ⟨row, hrow⟩) hrow

theorem Rebuilt.side {E : Env} {now : Int} {S : String → Prop} {db db' : DB}
    (h : Rebuilt E now S db db') (enrollments : Table String Enrollment)
    (challenges : Table String Challenge) (nodeSessions : Table String NodeSessionRow)
    (observations : Table String Observation) :
    Rebuilt E now S
      { db with
        enrollments := enrollments, challenges := challenges, nodeSessions := nodeSessions
        observations := observations }
      { db' with
        enrollments := enrollments, challenges := challenges, nodeSessions := nodeSessions
        observations := observations } := by
  refine ⟨?_, h.keys, ?_, h.kept⟩
  · have hframe := h.frame
    rw [hframe]
  · intro id row hS hrow
    obtain ⟨entries, row', p, hproj, hlt, hb, hrow'⟩ := h.built id row hS hrow
    exact ⟨entries, row', p, ⟨hproj.row, hproj.retentions, hproj.entries⟩, hlt, hb, hrow'⟩

end UniDERP
