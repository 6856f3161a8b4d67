import UniDERP.Control.Projection
import UniDERP.Control.Revocation

namespace UniDERP

/-- A complete device list of the tailnet was fetched and is published. -/
def Op.publishes (t : String) : Op → Bool
  | .addTailnet _ _ _ id _ _ => id.text = t
  | .replaceCommit _ id _ _ _ => id = t
  | .refreshCommit id _ (some _) => id = t
  | _ => false

def Op.setsRetentions : Op → Bool
  | .setRetentions .. => true
  | _ => false

def Hears (E : Env) (db : DB) (a : Commit) (id : String) : Prop :=
  ∃ token report s n, a.op = .nodeHeartbeat token report ∧
    db.liveSession E (a.clock.read 0) token = some (s, n) ∧ s.nodeID = id

/-- The grant becomes active: its owner asks for their own node, or confirms. -/
def Activates (db : DB) (a : Commit) (k : Pair) : Prop :=
  (∃ actor expected until_ id ps,
    a.op = .requestGrant actor (ofLex k).1 (ofLex k).2 expected until_ id ∧
    parties (ofLex k).1 (ofLex k).2 db = .ok ps ∧ requestedState ps = .active ∧
    ∀ g, db.grants.get? k = some g → ¬ (g.stateAt (a.clock.read 1)).live) ∨
  ∃ g actor expected, db.grants.get? k = some g ∧
    a.op = .applyGrantAction actor g.id expected .confirm ∧
    g.stateAt (a.clock.read 0) = .ownerApproved

def Renews (E : Env) (db : DB) (a : Commit) (id t : String) : Prop :=
  a.op.publishes t ∨ Hears E db a id ∨ Activates db a (pair id t) ∨ a.op.setsRetentions

/-- Transfers, bandwidth rules, failed refreshes, deleted credentials, recoveries and renewed
sessions. -/
def Op.neutral : Op → Bool
  | .transferTailnet .. | .setNodeQoS .. | .refreshCommit _ _ none | .deleteCredential ..
  | .recoverNodeInstance .. | .renewNodeSession .. => true
  | _ => false

theorem not_renews_of_neutral {E : Env} {db : DB} {a : Commit} {id t : String} (h : a.op.neutral) :
    ¬ Renews E db a id t := by
  obtain ⟨op, c, reply⟩ := a
  rintro (hpublishes | ⟨_, _, _, _, rfl, -⟩ | hactivates | hret)
  · dsimp only at h hpublishes
    unfold Op.publishes at hpublishes
    split at hpublishes <;> first | cases h | cases hpublishes
  · cases h
  · rcases hactivates with ⟨_, _, _, _, _, rfl, -⟩ | ⟨_, _, _, -, rfl, -⟩ <;> cases h
  · dsimp only at h hret
    unfold Op.setsRetentions at hret
    split at hret <;> first | cases h | cases hret

section Step

variable {E : Env} {c : Clock} {db mid db' : DB} {op : Op} {reply : Reply} {S : String → Prop}
  {a : Commit} {k : Pair} {t : String}

/-- An active grant was active with the same deadline, and heard of at the same time unless the
node is heard now; or it becomes active now. -/
theorem Effect.grant_heard (h : Effect E c db op reply mid S) {g' : Grant}
    (hg' : mid.grants.get? k = some g') (hactive : g'.state = .active) :
    Activates db ⟨op, c, reply⟩ k ∨ ∃ g, db.grants.get? k = some g ∧ g.state = .active ∧
      g.explicitUntil = g'.explicitUntil ∧
      (g.lastControlSuccess = g'.lastControlSuccess ∨ Hears E db ⟨op, c, reply⟩ (ofLex k).1) := by
  have hkept : db.grants.get? k = some g' → ∃ g, db.grants.get? k = some g ∧ g.state = .active ∧
      g.explicitUntil = g'.explicitUntil ∧
      (g.lastControlSuccess = g'.lastControlSuccess ∨ Hears E db ⟨op, c, reply⟩ (ofLex k).1) :=
    fun hg => ⟨g', hg, hactive, rfl, .inl rfl⟩
  -- A release revokes, so a grant that is active after it was not touched.
  have hrelease : ∀ {id : String}, mid.grants = (db.release id).grants →
      db.grants.get? k = some g' := by
    intro id hmid
    rw [hmid, get?_release_grants, Option.map_eq_some_iff] at hg'
    obtain ⟨g, hg, hsame⟩ := hg'
    split_ifs at hsame with hk
    · rw [← hsame] at hactive
      cases hactive
    · rw [hg, hsame]
  cases h
  case reissueEnrollment => exact .inr (hkept (hrelease rfl))
  case leaveNode => exact .inr (hkept (hrelease rfl))
  case deleteNode => exact .inr (hkept (Table.get?_delete_eq_some.mp hg').1)
  case deleteTailnet => exact .inr (hkept (Table.get?_delete_eq_some.mp hg').1)
  case requestGrant ps g hps _ _ _ hbase =>
    rcases Table.get?_insert_eq_some.mp hg' with ⟨rfl, rfl⟩ | ⟨-, hg⟩
    · refine .inl (.inl ⟨_, _, _, _, ps, rfl, hps, hactive, fun g₀ hg₀ => ?_⟩)
      exact (requestBase_eq_ok hbase g₀ hg₀).1
    · exact .inr (hkept hg)
  case applyGrantAction action _ _ g ps hg hid _ _ _ _ hallowed =>
    rcases Table.get?_insert_eq_some.mp hg' with ⟨rfl, rfl⟩ | ⟨-, hg⟩
    · subst hid
      -- Only a confirmation makes a grant active.
      cases action <;> simp only [actionNext, reduceCtorEq] at hactive
      exact .inl (.inr ⟨g, _, _, hg, rfl, by simpa [actionAllowed] using hallowed⟩)
    · exact .inr (hkept hg)
  case nodeHeartbeat s n _ hs =>
    rw [DB.heartbeat, Table.get?_update, Option.map_eq_some_iff] at hg'
    obtain ⟨g, hg, hsame⟩ := hg'
    split_ifs at hsame with hk
    · simp only [decide_eq_true_eq] at hk
      subst hsame
      exact .inr ⟨g, hg, hk.2, rfl, .inr ⟨_, _, s, n, rfl, hs, hk.1.symm⟩⟩
    · exact .inr (hkept (hsame ▸ hg))
  all_goals exact .inr (hkept hg')

/-- A device list is as old as it was, unless one is published now. -/
theorem Effect.snapshot_dated (h : Effect E c db op reply mid S) {snap' : Snapshot}
    (hs : mid.snapshots.get? t = some snap') : op.publishes t ∨
      ∃ snap, db.snapshots.get? t = some snap ∧ snap.lastSuccess = snap'.lastSuccess := by
  have hinsert : ∀ {k : String} {s : Snapshot}, mid.snapshots = db.snapshots.insert k s → t = k ∨
      ∃ snap, db.snapshots.get? t = some snap ∧ snap.lastSuccess = snap'.lastSuccess := by
    intro k s hmid
    rw [hmid] at hs
    rcases Table.get?_insert_eq_some.mp hs with ⟨rfl, -⟩ | ⟨-, hs⟩
    · exact .inl rfl
    · exact .inr ⟨snap', hs, rfl⟩
  cases h
  case addTailnet => exact (hinsert rfl).imp_left fun h => by simp [Op.publishes, h]
  case replaceCommit => exact (hinsert rfl).imp_left fun h => by simp [Op.publishes, h]
  case refreshCommit => exact (hinsert rfl).imp_left fun h => by simp [Op.publishes, h]
  case deleteCredential =>
    obtain ⟨snap, hsnap, rfl⟩ := Table.get?_modify_eq_some.mp hs
    refine .inr ⟨snap, hsnap, ?_⟩
    split_ifs <;> rfl
  case deleteTailnet => exact .inr ⟨snap', (Table.get?_delete_eq_some.mp hs).1, rfl⟩
  all_goals exact .inr ⟨snap', hs, rfl⟩

theorem Effect.retentions_kept (h : Effect E c db op reply mid S) :
    op.setsRetentions ∨ mid.retentions = db.retentions := by
  cases h
  case setRetentions => exact .inl rfl
  all_goals exact .inr rfl

end Step

namespace Store.Run

variable {E : Env} {r : Store.Run E} {i j : ℕ} {id t : String}

theorem retentions_kept (hij : i ≤ j) (hj : j ≤ r.len)
    (hno : ∀ k, i ≤ k → k < j → (r.label k).op.setsRetentions = false) :
    (r.state j).retentions = (r.state i).retentions := by
  refine r.preserved (P := fun db => db.retentions = (r.state i).retentions) hij rfl
    fun k hik hkj hk => ?_
  obtain ⟨mid, S, _, he, hr⟩ := exec_does (r.next k (by omega))
  rw [hr.frame]
  rcases he.retentions_kept with hset | hsame
  · simp [hno k hik hkj] at hset
  · exact hsame.trans hk

theorem snapshot_kept (hij : i ≤ j) (hj : j ≤ r.len) {snap snap' : Snapshot}
    (hs : (r.state i).snapshots.get? t = some snap)
    (hs' : (r.state j).snapshots.get? t = some snap')
    (hno : ∀ k, i ≤ k → k < j → (r.label k).op.publishes t = false) :
    snap'.lastSuccess = snap.lastSuccess := by
  -- Backwards, since the list at `i` may have been deleted since.
  have hback := r.carried_back (P := fun db => ∃ s, db.snapshots.get? t = some s ∧
    s.lastSuccess = snap'.lastSuccess) hij ⟨snap', hs', rfl⟩ fun k hik hkj ⟨x, hx, hdate⟩ => ?_
  · obtain ⟨x, hx, hdate⟩ := hback
    cases hs.symm.trans hx
    exact hdate.symm
  · obtain ⟨mid, S, _, he, hr⟩ := exec_does (r.next k (by omega))
    rw [hr.frame] at hx
    rcases he.snapshot_dated hx with hp | ⟨y, hy, hsame⟩
    · simp [hno k hik hkj] at hp
    · exact ⟨y, hy, hsame.trans hdate⟩

theorem grant_kept (hij : i ≤ j) (hj : j ≤ r.len) {k : Pair} {g g' : Grant}
    (hg : (r.state i).grants.get? k = some g) (hg' : (r.state j).grants.get? k = some g')
    (hactive : g'.state = .active)
    (hno : ∀ m, i ≤ m → m < j → ¬ Activates (r.state m) (r.label m) k) :
    g'.explicitUntil = g.explicitUntil ∧
      ((∀ m, i ≤ m → m < j → ¬ Hears E (r.state m) (r.label m) (ofLex k).1) →
        g'.lastControlSuccess = g.lastControlSuccess) := by
  obtain ⟨x, hx, -, hxe, hxc⟩ := r.carried_back (P := fun db => ∃ x, db.grants.get? k = some x ∧
    x.state = .active ∧ x.explicitUntil = g'.explicitUntil ∧
      ((∀ m, i ≤ m → m < j → ¬ Hears E (r.state m) (r.label m) (ofLex k).1) →
        x.lastControlSuccess = g'.lastControlSuccess)) hij
    ⟨g', hg', hactive, rfl, fun _ => rfl⟩ fun m him hmj ⟨x, hx, hxa, hxe, hxc⟩ => by
      obtain ⟨mid, S, _, he, hr⟩ := exec_does (r.next m (by omega))
      rw [hr.frame] at hx
      obtain ⟨z, hz, hza, hze, hzc⟩ := (he.grant_heard hx hxa).resolve_left (hno m him hmj)
      exact ⟨z, hz, hza, hze.trans hxe, fun hunheard =>
        (hzc.resolve_right (hunheard m him hmj)).trans (hxc hunheard)⟩
  cases hg.symm.trans hx
  exact ⟨hxe.symm, fun hunheard => (hxc hunheard).symm⟩

variable {g g' : GrantPolicy}

/-- What the policies at `i` and `j` show for the grant of one tailnet. -/
structure Shows (r : Store.Run E) (id : String) (i j : ℕ) (g g' : GrantPolicy) : Prop where
  order : i ≤ j ∧ j ≤ r.len
  before : ∃ row p, (r.state i).policies.get? id = some row ∧ row.policyJSON = some p ∧ g ∈ p.grants
  after : ∃ row p, (r.state j).policies.get? id = some row ∧ row.policyJSON = some p ∧
    g' ∈ p.grants

theorem Shows.admitted (h : r.Shows id i j g g') :
    (∃ n gr tn snap, Admitted (r.state i) id g.tailnetID n gr tn snap ∧
      g = shownGrant (r.state i) g.tailnetID gr snap) ∧
    ∃ n gr tn snap, Admitted (r.state j) id g'.tailnetID n gr tn snap ∧
      g' = shownGrant (r.state j) g'.tailnetID gr snap := by
  obtain ⟨row, p, hrow, hp, hg⟩ := h.before
  obtain ⟨row', p', hrow', hp', hg'⟩ := h.after
  obtain ⟨hij, hj⟩ := h.order
  exact ⟨Store.Reachable.shown (r.reachable (hij.trans hj)) hrow hp hg,
    Store.Reachable.shown (r.reachable hj) hrow' hp' hg'⟩

theorem Shows.identity (h : r.Shows id i j g g') (ht : g'.tailnetID = g.tailnetID)
    (hpublishes : ∀ k, i ≤ k → k < j → (r.label k).op.publishes g.tailnetID = false)
    (hret : ∀ k, i ≤ k → k < j → (r.label k).op.setsRetentions = false) :
    g'.identityUntil = g.identityUntil := by
  obtain ⟨hij, hj⟩ := h.order
  obtain ⟨⟨n, gr, tn, snap, hadm, hshown⟩, n', gr', tn', snap', hadm', hshown'⟩ := h.admitted
  rw [ht] at hadm' hshown'
  rw [hshown, hshown']
  simp only [shownGrant, retentions_kept hij hj hret,
    snapshot_kept hij hj hadm.snapshotRow hadm'.snapshotRow hpublishes]

theorem Shows.control (h : r.Shows id i j g g') (ht : g'.tailnetID = g.tailnetID)
    (hactivates : ∀ k, i ≤ k → k < j →
      ¬ Activates (r.state k) (r.label k) (pair id g.tailnetID)) :
    g'.explicitUntil = g.explicitUntil ∧
      ((∀ k, i ≤ k → k < j → ¬ Hears E (r.state k) (r.label k) id) →
        (∀ k, i ≤ k → k < j → (r.label k).op.setsRetentions = false) →
        g'.controlUntil = g.controlUntil) := by
  obtain ⟨hij, hj⟩ := h.order
  obtain ⟨⟨n, gr, tn, snap, hadm, hshown⟩, n', gr', tn', snap', hadm', hshown'⟩ := h.admitted
  rw [ht] at hadm' hshown'
  obtain ⟨hexplicit, hcontrol⟩ :=
    grant_kept hij hj hadm.grantRow hadm'.grantRow hadm'.active hactivates
  rw [hshown, hshown']
  refine ⟨?_, fun hhears hret => ?_⟩
  · simp only [shownGrant, hexplicit]
  · simp only [shownGrant, retentions_kept hij hj hret, hcontrol hhears]

theorem Shows.tailnet (h : r.Shows id i (i + 1) g g') (hid : g'.grantID = g.grantID) :
    g'.tailnetID = g.tailnetID := by
  obtain ⟨-, hi⟩ := h.order
  have hreachable := r.reachable (i := i) (by omega)
  obtain ⟨⟨n, gr, tn, snap, hadm, hshown⟩, n', gr', tn', snap', hadm', hshown'⟩ := h.admitted
  have hsame : gr'.id = gr.id := by
    rw [hshown, hshown'] at hid
    exact hid
  obtain ⟨mid, S, _, he, hr⟩ := exec_does (r.next i hi)
  have hrow₁ := hadm'.grantRow
  rw [hr.frame] at hrow₁
  rcases he.grant_origin hrow₁ with ⟨g₀, hg₀, hid₀⟩ | ⟨-, hunused⟩
  · have hkey := Store.Reachable.unique_grants hreachable _ _ _ _ hg₀ hadm.grantRow
      (hid₀.trans hsame)
    exact (pair_inj.mp hkey).2
  · exact absurd hsame.symm (hunused _ gr hadm.grantRow)

/-- In every run and for every node: from one stored policy to the next the identity deadline of a
grant changes only when a device list of its tailnet is published or the retentions are set, and its
control deadline only at a heartbeat of the node, when the grant becomes active or when the
retentions are set; transfers, rules, failed refreshes, deleted credentials, recoveries and renewals
change no deadline; and a grant that leaves the policies and returns without such a transaction
returns with the deadlines it had. -/
theorem deadlines_need_evidence (r : Store.Run E) (id : String) :
    (∀ i g g', r.Shows id i (i + 1) g g' → g'.grantID = g.grantID →
      (g'.identityUntil ≠ g.identityUntil →
        (r.label i).op.publishes g.tailnetID ∨ (r.label i).op.setsRetentions) ∧
      (g'.controlUntil ≠ g.controlUntil → Hears E (r.state i) (r.label i) id ∨
        Activates (r.state i) (r.label i) (pair id g.tailnetID) ∨
        (r.label i).op.setsRetentions) ∧
      ((r.label i).op.neutral → g'.identityUntil = g.identityUntil ∧
        g'.controlUntil = g.controlUntil ∧ g'.explicitUntil = g.explicitUntil)) ∧
    ∀ i j g g', r.Shows id i j g g' → g'.tailnetID = g.tailnetID →
      (∀ k, i ≤ k → k < j → ¬ Renews E (r.state k) (r.label k) id g.tailnetID) →
      g'.identityUntil = g.identityUntil ∧ g'.controlUntil = g.controlUntil ∧
        g'.explicitUntil = g.explicitUntil := by
  have hrun : ∀ i j g g', r.Shows id i j g g' → g'.tailnetID = g.tailnetID →
      (∀ k, i ≤ k → k < j → ¬ Renews E (r.state k) (r.label k) id g.tailnetID) →
      g'.identityUntil = g.identityUntil ∧ g'.controlUntil = g.controlUntil ∧
        g'.explicitUntil = g.explicitUntil := by
    intro i j g g' h ht hno
    simp only [Renews, not_or, Bool.not_eq_true] at hno
    have hret := fun k hik hkj => (hno k hik hkj).2.2.2
    obtain ⟨hexplicit, hcontrol⟩ := h.control ht fun k hik hkj => (hno k hik hkj).2.2.1
    exact ⟨h.identity ht (fun k hik hkj => (hno k hik hkj).1) hret,
      hcontrol (fun k hik hkj => (hno k hik hkj).2.1) hret, hexplicit⟩
  refine ⟨fun i g g' h hid => ?_, hrun⟩
  have ht := h.tailnet hid
  -- The only step between the two policies is step `i`.
  have honly : ∀ {P : ℕ → Prop}, P i → ∀ k, i ≤ k → k < i + 1 → P k := by
    intro P hP k hik hki
    rwa [show k = i by omega]
  refine ⟨fun hne => ?_, fun hne => ?_, fun hneutral => ?_⟩
  · by_contra hno
    simp only [not_or, Bool.not_eq_true] at hno
    exact hne (h.identity ht (honly hno.1) (honly hno.2))
  · by_contra hno
    simp only [not_or, Bool.not_eq_true] at hno
    exact hne ((h.control ht (honly hno.2.1)).2 (honly hno.1) (honly hno.2.2))
  · exact hrun i (i + 1) g g' h ht (honly (not_renews_of_neutral hneutral))

end Store.Run

end UniDERP
