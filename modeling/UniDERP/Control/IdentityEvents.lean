import UniDERP.Control.EventEdits
import UniDERP.Control.Fencing
import UniDERP.Control.KeyConflicts
import UniDERP.Control.Revisions

namespace UniDERP

def Event.opensFor (t : String) (kind : EventKind) (e : Event) : Bool :=
  e.resource = .tailnet ∧ e.resourceID = t ∧ e.kind = kind ∧ e.resolvedAt = 0

def DB.openConflicts (db : DB) (t : String) : ℕ :=
  db.events.countP (Event.opensFor t .identityConflict)

/-- The device list of a tailnet has a key that another tailnet's has. -/
def Shares (db : DB) (t : String) : Prop :=
  ∃ other, other ≠ t ∧ (∃ tn, db.tailnets.get? other = some tn) ∧
    ∃ k, Holds db.snapshots t k ∧ Holds db.snapshots other k

def Orphans (db : DB) (op : Op) : Prop :=
  ∃ actor id t tn, op = .deleteTailnet actor id ∧ t ≠ id ∧ db.tailnets.get? t = some tn ∧
    Shares db t ∧ ¬ Shares (db.deleteTailnet id) t

section Evaluate

variable {db : DB} {t : String} {now : Int} {kind : EventKind}

def DB.openEvents (db : DB) (id : String) (kind : EventKind) : ℕ :=
  db.events.countP fun e => e.resourceID = id ∧ e.kind = kind ∧ e.resolvedAt = 0

theorem openEvents_addEvent {e : Event} : (db.addEvent e).openEvents t kind =
    db.openEvents t kind +
      if e.resourceID = t ∧ e.kind = kind ∧ e.resolvedAt = 0 then 1 else 0 := by
  simp [DB.openEvents, DB.addEvent, List.countP_append, List.countP_cons]

theorem openEvents_identityEvent {id message : String} {kind' : EventKind} {tn : Tailnet}
    (htn : db.tailnets.get? id = some tn) :
    (identityEvent now id kind' message db).openEvents t kind =
      if t = id ∧ kind = kind' then max 1 (db.openEvents t kind) else db.openEvents t kind := by
  have hany : (db.events.any fun e => e.resourceID = id ∧ e.kind = kind' ∧ e.resolvedAt = 0) =
      true ↔ 0 < db.openEvents id kind' := by
    simp [DB.openEvents, List.countP_pos_iff]
  simp only [identityEvent, htn]
  by_cases hopen : 0 < db.openEvents id kind'
  · rw [if_pos (hany.mpr hopen)]
    split_ifs with hsame
    · rw [hsame.1, hsame.2]
      omega
    · rfl
  · rw [if_neg fun h => hopen (hany.mp h), openEvents_addEvent]
    by_cases hsame : t = id ∧ kind = kind'
    · rw [if_pos hsame, hsame.1, hsame.2, if_pos ⟨rfl, rfl, rfl⟩]
      omega
    · rw [if_neg hsame, if_neg, Nat.add_zero]
      rintro ⟨rfl, rfl, -⟩
      exact hsame ⟨rfl, rfl⟩

theorem openEvents_resolveEvents {id : String} {kind' : EventKind} {at_ : Int} (hat : at_ ≠ 0) :
    (db.resolveEvents at_ fun e => e.resourceID = id ∧ e.kind = kind').openEvents t kind =
      if t = id ∧ kind = kind' then 0 else db.openEvents t kind := by
  rw [DB.openEvents, DB.resolveEvents, List.countP_map]
  split_ifs with hsame
  · obtain ⟨rfl, rfl⟩ := hsame
    refine List.countP_eq_zero.mpr fun e _ => ?_
    simp only [Function.comp, decide_eq_true_eq]
    split_ifs with he
    · simp [hat]
    · rintro ⟨hid, hkind, hopen⟩
      exact he ⟨⟨hid, hkind⟩, hopen⟩
  · refine List.countP_congr fun e _ => ?_
    simp only [Function.comp, decide_eq_true_eq]
    split_ifs with he
    · obtain ⟨⟨rfl, rfl⟩, hopen⟩ := he
      constructor
      · rintro ⟨-, -, h⟩
        exact absurd h hat
      · rintro ⟨rfl, rfl, -⟩
        exact absurd ⟨rfl, rfl⟩ hsame
    · rfl

theorem openEvents_updateConflict {conflicts : List String} {id : String} {snap : Snapshot}
    {tn : Tailnet} (htn : db.tailnets.get? id = some tn) (hnow : unix now ≠ 0) :
    (updateConflict conflicts now id snap db).openEvents t .identityConflict =
      if t = id then
        if snap.keys.any fun k => k.nodePublic ∈ conflicts then
          max 1 (db.openEvents t .identityConflict)
        else 0
      else db.openEvents t .identityConflict := by
  unfold updateConflict
  by_cases hconflict : (snap.keys.any fun k => decide (k.nodePublic ∈ conflicts)) = true
  · simp only [hconflict, if_true, openEvents_identityEvent htn, and_true]
  · simp only [hconflict, Bool.false_eq_true, if_false, openEvents_resolveEvents hnow, and_true]

theorem openEvents_turns_ne {conflicts : List String} {now : ℕ → Int}
    (hnow : ∀ j, unix (now j) ≠ 0) {xs : List ((String × Snapshot) × ℕ)}
    (hrows : ∀ x ∈ xs, ∃ tn, db.tailnets.get? x.1.1 = some tn) (hne : ∀ x ∈ xs, x.1.1 ≠ t) :
    (xs.foldl (fun acc x => updateConflict conflicts (now x.2) x.1.1 x.1.2 acc) db).openEvents t
      .identityConflict = db.openEvents t .identityConflict := by
  induction xs generalizing db with
  | nil => rfl
  | cons x xs ih =>
    obtain ⟨tn, htn⟩ := hrows x List.mem_cons_self
    rw [List.foldl_cons, ih, openEvents_updateConflict htn (hnow _),
      if_neg fun h => hne x List.mem_cons_self h.symm]
    · intro y hy
      rw [updateConflict_frame]
      exact hrows y (List.mem_cons_of_mem x hy)
    · exact fun y hy => hne y (List.mem_cons_of_mem x hy)

theorem openEvents_turns {conflicts : List String} {now : ℕ → Int}
    (hnow : ∀ j, unix (now j) ≠ 0) {xs : List ((String × Snapshot) × ℕ)}
    (hrows : ∀ x ∈ xs, ∃ tn, db.tailnets.get? x.1.1 = some tn)
    (hnodup : (xs.map fun x => x.1.1).Nodup) {snap : Snapshot} {j : ℕ} (hx : ((t, snap), j) ∈ xs) :
    (xs.foldl (fun acc x => updateConflict conflicts (now x.2) x.1.1 x.1.2 acc) db).openEvents t
      .identityConflict =
      if snap.keys.any fun k => k.nodePublic ∈ conflicts then
        max 1 (db.openEvents t .identityConflict)
      else 0 := by
  induction xs generalizing db with
  | nil => cases hx
  | cons x xs ih =>
    rw [List.map_cons, List.nodup_cons] at hnodup
    obtain ⟨tn, htn⟩ := hrows x List.mem_cons_self
    have hrest : ∀ y ∈ xs, ∃ tn, (updateConflict conflicts (now x.2) x.1.1 x.1.2 db).tailnets.get?
        y.1.1 = some tn := by
      intro y hy
      rw [updateConflict_frame]
      exact hrows y (List.mem_cons_of_mem x hy)
    rw [List.foldl_cons]
    rcases List.mem_cons.mp hx with rfl | hx
    · -- Its own turn is now, and no later turn is its own.
      rw [openEvents_turns_ne hnow hrest, openEvents_updateConflict htn (hnow _), if_pos rfl]
      rintro y hy rfl
      exact hnodup.1 (List.mem_map_of_mem (f := fun x => x.1.1) hy)
    · have hne : t ≠ x.1.1 := by
        rintro rfl
        exact hnodup.1 (List.mem_map_of_mem (f := fun x => x.1.1) hx)
      rw [ih hrest hnodup.2 hx, openEvents_updateConflict htn (hnow _), if_neg hne]

/-- After the evaluation a tailnet has an open event if some key of its list conflicts. -/
theorem openEvents_updateIdentityConflicts {now : ℕ → Int} (hnow : ∀ j, unix (now j) ≠ 0)
    (hrows : ∀ t, t ∈ db.snapshots.keys → t ∈ db.tailnets.keys) :
    (updateIdentityConflicts now db).openEvents t .identityConflict =
      (db.snapshots.get? t).elim (db.openEvents t .identityConflict) fun snap =>
        if snap.keys.any fun k => k.nodePublic ∈ conflictingKeys db.snapshots.rows then
          max 1 (db.openEvents t .identityConflict)
        else 0 := by
  have hfst : (db.snapshots.rows.zipIdx.map fun x => x.1.1) = db.snapshots.keys := by
    rw [show (fun x : (String × Snapshot) × ℕ => x.1.1) = Prod.fst ∘ Prod.fst from rfl,
      ← List.map_map, List.zipIdx_map_fst, Table.keys]
  have hknown : ∀ x ∈ db.snapshots.rows.zipIdx, ∃ tn, db.tailnets.get? x.1.1 = some tn := by
    intro x hx
    have hmem := List.mem_map_of_mem (f := fun x => x.1.1) hx
    rw [hfst] at hmem
    exact Table.mem_keys.mp (hrows _ hmem)
  cases hs : db.snapshots.get? t with
  | none =>
    refine openEvents_turns_ne hnow hknown fun x hx hxt => ?_
    have hmem := List.mem_map_of_mem (f := fun x => x.1.1) hx
    rw [hfst, hxt, Table.mem_keys, hs] at hmem
    simp at hmem
  | some snap =>
    obtain ⟨j, hj⟩ := List.mem_iff_getElem?.mp (Table.get?_eq_some_iff.mp hs)
    exact openEvents_turns hnow hknown (hfst ▸ db.snapshots.keys_nodup)
      (List.mk_mem_zipIdx_iff_getElem?.mpr hj)

end Evaluate

/-- Exactly the tailnets have a device list, and only tailnets a credential. -/
structure Paired (db : DB) : Prop where
  list : ∀ t, t ∈ db.snapshots.keys ↔ t ∈ db.tailnets.keys
  credential : ∀ t, t ∈ db.credentials.keys → t ∈ db.tailnets.keys

section Step

variable {E : Env} {c : Clock} {db mid db' : DB} {op : Op} {reply : Reply} {S : String → Prop}
  {a : Commit} {t : String}

theorem Paired.publish (h : Paired db) {id : String} {cr : Credential} {s : Snapshot}
    (hid : id ∈ db.tailnets.keys) (ht : mid.tailnets = db.tailnets)
    (hc : mid.credentials = db.credentials.insert id cr)
    (hs : mid.snapshots = db.snapshots.insert id s) : Paired mid := by
  constructor
  · intro t
    rw [hs, ht, Table.mem_keys_insert, h.list]
    constructor
    · rintro (rfl | h)
      exacts [hid, h]
    · exact .inr
  · intro t hmem
    rw [hc, Table.mem_keys_insert] at hmem
    rw [ht]
    rcases hmem with rfl | hmem
    exacts [hid, h.credential t hmem]

theorem Paired.credit (h : Paired db) {id : String} {cr cr' : Credential}
    (hcr : db.credentials.get? id = some cr) (ht : mid.tailnets = db.tailnets)
    (hc : mid.credentials = db.credentials.insert id cr') (hs : mid.snapshots = db.snapshots) :
    Paired mid := by
  constructor
  · rw [hs, ht]
    exact h.list
  · rw [hc, ht, Table.keys_insert_of_get? cr' hcr]
    exact h.credential

theorem Effect.paired (h : Effect E c db op reply mid S) (hp : Paired db) : Paired mid := by
  cases h
  case setTailnetEnabled => exact ⟨by simpa using hp.list, by simpa using hp.credential⟩
  case transferTailnet => exact ⟨by simpa using hp.list, by simpa using hp.credential⟩
  case deleteTailnet id =>
    constructor
    · intro t
      rw [DB.deleteTailnet, Table.mem_keys_erase, Table.mem_keys_erase, hp.list]
    · intro t hmem
      rw [DB.deleteTailnet, Table.mem_keys_erase] at hmem ⊢
      exact ⟨hmem.1, hp.credential t hmem.2⟩
  case addTailnet =>
    constructor
    · intro t
      rw [Table.mem_keys_insert, Table.mem_keys_insert, hp.list]
    · intro t hmem
      rw [Table.mem_keys_insert] at hmem ⊢
      exact hmem.imp_right (hp.credential t)
  case replaceCommit htn _ => exact hp.publish (Table.mem_keys.mpr ⟨_, htn⟩) rfl rfl rfl
  case refreshCommit hcr _ =>
    exact hp.publish (hp.credential _ (Table.mem_keys.mpr ⟨_, hcr⟩)) rfl rfl rfl
  case refreshBegin hcr _ _ => exact hp.credit hcr rfl rfl rfl
  case refreshFailed hcr _ => exact hp.credit hcr rfl rfl rfl
  case deleteCredential => exact ⟨by simpa using hp.list, by simpa using hp.credential⟩
  all_goals exact ⟨hp.list, hp.credential⟩

theorem Store.Reachable.paired (h : Store.Reachable E db) : Paired db := by
  refine Reachable.invariant h ?_ fun s a s' _ hs hstep => ?_
  · rintro s rfl
    exact ⟨fun t => by rfl, fun t ht => by cases ht⟩
  · obtain ⟨mid, S, i, he, hr⟩ := exec_does hstep
    rw [hr.frame]
    exact ⟨(he.paired hs).list, (he.paired hs).credential⟩

/-- A tailnet has one more open event, or none, or as many as before if there is no such tailnet. -/
def Evaluated (db db' : DB) (t : String) : Prop :=
  db'.openEvents t .identityConflict =
    (db'.snapshots.get? t).elim (db.openEvents t .identityConflict) fun snap =>
      if snap.keys.any fun k => k.nodePublic ∈ conflictingKeys db'.snapshots.rows then
        max 1 (db.openEvents t .identityConflict)
      else 0

theorem evaluated_of_rebuild {now : Int} {nowAt : ℕ → Int} (hp : Paired db')
    (h : rebuildPolicies E now (updateIdentityConflicts nowAt mid) = .ok db')
    (hnow : ∀ j, unix (nowAt j) ≠ 0)
    (hopen : mid.openEvents t .identityConflict = db.openEvents t .identityConflict) :
    Evaluated db db' t := by
  have hframe := (rebuildPolicies_rebuilt h).frame
  obtain ⟨events, he⟩ := updateIdentityConflicts_frame nowAt mid
  have hsnapshots : db'.snapshots = mid.snapshots := by rw [hframe, he]
  have htailnets : db'.tailnets = mid.tailnets := by rw [hframe, he]
  have hevents : db'.events = (updateIdentityConflicts nowAt mid).events := by rw [hframe]
  have hrows : ∀ t, t ∈ mid.snapshots.keys → t ∈ mid.tailnets.keys := by
    rw [← hsnapshots, ← htailnets]
    exact fun t => (hp.list t).mp
  rw [Evaluated, DB.openEvents, hevents, hsnapshots, ← hopen]
  exact openEvents_updateIdentityConflicts hnow hrows

theorem evaluated_of_publish {i : ℕ} {id : String} {keys : List IdentityKey}
    (hp : Paired db') (h : publishIdentity E c i id keys mid = .ok db')
    (hevents : mid.events = db.events) : Evaluated db db' t := by
  simp only [publishIdentity, Except_bind_eq_ok, require_eq_ok, exists_const] at h
  obtain ⟨-, -, h⟩ := h
  refine evaluated_of_rebuild hp h (fun j => (c.unix_pos _).ne') ?_
  rw [openEvents_resolveEvents (c.unix_pos _).ne', if_neg (by simp), DB.openEvents, DB.openEvents,
    hevents]

/-- A call that evaluates leaves a tailnet an open event if and only if its list conflicts. -/
theorem Step.evaluated (h : Step E db a db') (hp : Paired db') (hop : a.op.evaluates) :
    Evaluated db db' t := by
  obtain ⟨op, c, reply⟩ := a
  have hexec : exec E c op db = .ok (db', reply) := h
  -- Four calls evaluate the conflicts: three of them publish a list, the fourth drops one.
  cases op
  case addTailnet =>
    simp only [exec, quiet_eq_ok, addTailnet, Except_bind_eq_ok, requireOwner_eq_ok, orElse_eq_ok,
      require_eq_ok, activeActor_eq_ok, exists_const] at hexec
    obtain ⟨⟨-, _, -, -, -, -, -, hexec⟩, -⟩ := hexec
    exact evaluated_of_publish hp hexec rfl
  case replaceCommit =>
    simp only [exec, quiet_eq_ok, replaceCommit, Except_bind_eq_ok, require_eq_ok,
      exists_const] at hexec
    obtain ⟨⟨_, -, -, hexec⟩, -⟩ := hexec
    exact evaluated_of_publish hp hexec rfl
  case deleteCredential =>
    simp only [exec, quiet_eq_ok, deleteCredential, Except_bind_eq_ok] at hexec
    obtain ⟨⟨_, -, hexec⟩, -⟩ := hexec
    exact evaluated_of_rebuild hp hexec (fun j => (c.unix_pos _).ne') rfl
  case refreshCommit id ticket fetched =>
    cases fetched with
    | none => exact absurd hop (by simp [Op.evaluates])
    | some keys =>
      simp only [exec, quiet_eq_ok, refreshCommit, Except_bind_eq_ok, orElse_eq_ok, require_eq_ok,
        exists_const] at hexec
      obtain ⟨⟨_, -, -, hexec⟩, -⟩ := hexec
      exact evaluated_of_publish hp hexec rfl
  all_goals exact absurd hop (by simp [Op.evaluates])

theorem Step.openConflicts_of_not_evaluates (h : Step E db a db') (hop : ¬ a.op.evaluates) :
    db'.openConflicts t = db.openConflicts t := by
  refine h.edits.countP_eq ?_ ?_ ?_
  · intro e he
    simp only [Event.opensFor, decide_eq_true_eq] at he
    exact he.2.2.2
  · intro e hopened he
    simp only [Event.opensFor, decide_eq_true_eq] at he
    cases hopened with
    | tailnet _ _ _ _ hkind => exact hkind.elim (fun h => hop h.2) fun h => by simp [h] at he
    | node hresource _ => simp [hresource] at he
    | grant _ hresource _ => simp [hresource] at he
  · intro e hresolved he
    simp only [Event.opensFor, decide_eq_true_eq] at he
    cases hresolved with
    | tailnet hevaluates _ => exact hop hevaluates
    | node hresource => simp [hresource] at he
    | grant _ hkind => simp [hkind] at he

theorem Effect.lists_kept (h : Effect E c db op reply mid S) (hop : ¬ op.evaluates)
    (hdelete : ∀ actor id, op ≠ .deleteTailnet actor id) :
    mid.snapshots = db.snapshots ∧ mid.tailnets.keys = db.tailnets.keys := by
  cases h
  case addTailnet => exact absurd rfl hop
  case replaceCommit => exact absurd rfl hop
  case deleteCredential => exact absurd rfl hop
  case refreshCommit => exact absurd rfl hop
  case deleteTailnet actor id => exact absurd rfl (hdelete actor id)
  case setTailnetEnabled => exact ⟨rfl, Table.keys_modify _ _ _⟩
  case transferTailnet => exact ⟨rfl, Table.keys_modify _ _ _⟩
  all_goals exact ⟨rfl, rfl⟩

theorem Effect.deleted {actor : Actor} {id : String}
    (h : Effect E c db (.deleteTailnet actor id) reply mid S) : mid = db.deleteTailnet id := by
  cases h
  case deleteTailnet => rfl
  case idle repeatable _ => cases repeatable
  case sessions login => cases login
  case ports portChange => cases portChange

end Step

theorem shares_congr {db db' : DB} (hs : db'.snapshots = db.snapshots)
    (ht : db'.tailnets.keys = db.tailnets.keys) (t : String) : Shares db' t ↔ Shares db t := by
  simp only [Shares, ← Table.mem_keys, hs, ht]

theorem Paired.shares_iff {db : DB} (hp : Paired db) {t : String} {snap : Snapshot}
    (hs : db.snapshots.get? t = some snap) :
    (snap.keys.any fun k => k.nodePublic ∈ conflictingKeys db.snapshots.rows) = true ↔
      Shares db t := by
  rw [List.any_eq_true]
  constructor
  · rintro ⟨k, hk, hconflict⟩
    rw [decide_eq_true_eq, mem_conflictingKeys_iff hs hk] at hconflict
    obtain ⟨other, snap', hne, hs', hk'⟩ := hconflict
    have hknown := (hp.list other).mp (Table.mem_keys.mpr ⟨snap', hs'⟩)
    exact ⟨other, hne, Table.mem_keys.mp hknown, k.nodePublic,
      ⟨snap, hs, List.mem_map_of_mem hk⟩, snap', hs', hk'⟩
  · rintro ⟨other, hne, -, k, ⟨snap₀, hs₀, hk⟩, snap', hs', hk'⟩
    obtain rfl : snap₀ = snap := Option.some.inj (hs₀.symm.trans hs)
    obtain ⟨ik, hik, rfl⟩ := List.mem_map.mp hk
    refine ⟨ik, hik, ?_⟩
    rw [decide_eq_true_eq, mem_conflictingKeys_iff hs hik]
    exact ⟨other, snap', hne, hs', hk'⟩

theorem Shares.of_deleteTailnet {db : DB} {id t : String} (h : Shares (db.deleteTailnet id) t) :
    Shares db t := by
  have hget : ∀ {ρ : Type} {table : Table String ρ} {k : String} {r : ρ},
      (table.erase id).get? k = some r → table.get? k = some r := fun h =>
    (Table.get?_delete_eq_some.mp h).1
  obtain ⟨other, hne, ⟨tn, htn⟩, k, ⟨snap, hs, hk⟩, snap', hs', hk'⟩ := h
  exact ⟨other, hne, ⟨tn, hget htn⟩, k, ⟨snap, hget hs, hk⟩, snap', hget hs', hk'⟩

/-- Every tailnet has one open event of conflicting keys if it shares a key, and none if not. -/
def Accurate (db : DB) : Prop :=
  ∀ t tn, db.tailnets.get? t = some tn →
    (Shares db t → db.openConflicts t = 1) ∧ (¬ Shares db t → db.openConflicts t = 0)

theorem Effect.tailnet_origin {E : Env} {c : Clock} {db mid : DB} {op : Op} {reply : Reply}
    {S : String → Prop} (h : Effect E c db op reply mid S) {t : String}
    (ht : t ∈ mid.tailnets.keys) : t ∈ db.tailnets.keys ∨ op.addsTailnet t := by
  cases h
  case setTailnetEnabled => exact .inl (by simpa using ht)
  case transferTailnet => exact .inl (by simpa using ht)
  case deleteTailnet => exact .inl (Table.mem_keys_erase.mp ht).2
  case addTailnet =>
    rcases Table.mem_keys_insert.mp ht with rfl | ht
    · exact .inr (by simp [Op.addsTailnet])
    · exact .inl ht
  all_goals exact .inl ht

namespace Store.Run

variable {E : Env} {r : Store.Run E} {i : ℕ} {t : String}

def Separate (r : Store.Run E) : Prop :=
  ∀ j < r.len, ∀ k < r.len, ∀ id, (r.label j).op.creates id → ¬ (r.label k).op.addsTailnet id

theorem node_drawn (hi : i ≤ r.len) {id : String} {n : Node}
    (hn : (r.state i).nodes.get? id = some n) : ∃ j < i, (r.label j).op.creates id := by
  induction i generalizing n with
  | zero =>
    have hstart : r.state 0 = DB.empty := r.start
    rw [hstart] at hn
    simp [DB.empty] at hn
  | succ i ih =>
    rcases Step.origin (r.next i hi) hn with hcreates | ⟨n₀, hn₀, -⟩
    · exact ⟨i, by omega, hcreates⟩
    · obtain ⟨j, hj, hcreates⟩ := ih (by omega) hn₀
      exact ⟨j, by omega, hcreates⟩

theorem tailnet_drawn (hi : i ≤ r.len) (ht : t ∈ (r.state i).tailnets.keys) :
    ∃ j < i, (r.label j).op.addsTailnet t := by
  induction i with
  | zero =>
    have hstart : r.state 0 = DB.empty := r.start
    rw [hstart] at ht
    cases ht
  | succ i ih =>
    obtain ⟨mid, S, _, he, hr⟩ := exec_does (r.next i hi)
    rw [hr.frame] at ht
    rcases he.tailnet_origin ht with ht | hadds
    · obtain ⟨j, hj, hadds⟩ := ih (by omega) ht
      exact ⟨j, by omega, hadds⟩
    · exact ⟨i, by omega, hadds⟩

/-- An event of a conflict is a tailnet's or a node's. -/
theorem conflict_resource (hi : i ≤ r.len) {e : Event} (he : e ∈ (r.state i).events)
    (hkind : e.kind = .identityConflict) :
    e.resource = .tailnet ∨ ∃ j < i, (r.label j).op.creates e.resourceID := by
  induction i generalizing e with
  | zero =>
    have hstart : r.state 0 = DB.empty := r.start
    rw [hstart] at he
    cases he
  | succ i ih =>
    obtain ⟨e₀, hbefore, hresource, hid, hkind₀⟩ :=
      (Step.edits (r.next i hi)).mem_about he
    rw [hresource, hid]
    rw [hkind₀] at hkind
    rcases hbefore with hold | hnew
    · exact (ih (by omega) hold hkind).imp_right fun ⟨j, hj, h⟩ => ⟨j, by omega, h⟩
    · cases hnew with
      | tailnet hresource _ _ _ _ => exact .inl hresource
      | node _ hrow =>
        obtain ⟨j, hj, hcreates⟩ := node_drawn (by omega) hrow
        exact .inr ⟨j, by omega, hcreates⟩
      | grant _ _ hexpired => simp [hexpired] at hkind

theorem openEvents_eq (hr : r.Separate) (ht : ∃ k < r.len, (r.label k).op.addsTailnet t)
    (hi : i ≤ r.len) : (r.state i).openEvents t .identityConflict = (r.state i).openConflicts t := by
  obtain ⟨k, hk, hadds⟩ := ht
  refine List.countP_congr fun e he => ?_
  simp only [Event.opensFor, decide_eq_true_eq]
  constructor
  · rintro ⟨rfl, hkind, hopen⟩
    rcases conflict_resource hi he hkind with hresource | ⟨j, hj, hcreates⟩
    · exact ⟨hresource, rfl, hkind, hopen⟩
    · exact absurd hadds (hr j (by omega) k hk _ hcreates)
  · exact And.right

theorem evaluated (hr : r.Separate) (ht : ∃ k < r.len, (r.label k).op.addsTailnet t)
    (hi : i < r.len) (hop : (r.label i).op.evaluates) :
    (r.state (i + 1)).openConflicts t =
      ((r.state (i + 1)).snapshots.get? t).elim ((r.state i).openConflicts t) fun snap =>
        if snap.keys.any fun k =>
            k.nodePublic ∈ conflictingKeys (r.state (i + 1)).snapshots.rows then
          max 1 ((r.state i).openConflicts t)
        else 0 := by
  have hpaired := Store.Reachable.paired (r.reachable hi)
  have heval : Evaluated (r.state i) (r.state (i + 1)) t := Step.evaluated (r.next i hi) hpaired hop
  rw [← openEvents_eq hr ht hi, ← openEvents_eq hr ht hi.le]
  exact heval

theorem openConflicts_le_one (hr : r.Separate) (ht : ∃ k < r.len, (r.label k).op.addsTailnet t)
    (hi : i ≤ r.len) : (r.state i).openConflicts t ≤ 1 := by
  induction i with
  | zero =>
    have hstart : r.state 0 = DB.empty := r.start
    rw [hstart]
    exact Nat.zero_le 1
  | succ i ih =>
    have hle := ih (by omega)
    by_cases hop : (r.label i).op.evaluates
    · rw [evaluated hr ht hi hop]
      cases (r.state (i + 1)).snapshots.get? t with
      | none => exact hle
      | some snap =>
        dsimp only [Option.elim]
        split_ifs <;> omega
    · rw [Step.openConflicts_of_not_evaluates (r.next i hi) hop]
      exact hle

/-- One step keeps the events accurate, unless it deletes the only tailnet that another shares a
key with. -/
theorem accurate_next (hr : r.Separate) (hi : i < r.len) (h : Accurate (r.state i))
    (horphans : ¬ Orphans (r.state i) (r.label i).op) : Accurate (r.state (i + 1)) := by
  intro t tn htn
  have hstep := r.next i hi
  have hpaired := Store.Reachable.paired (r.reachable hi)
  have hkey : t ∈ (r.state (i + 1)).tailnets.keys := Table.mem_keys.mpr ⟨tn, htn⟩
  obtain ⟨k, hk, hadds⟩ := tailnet_drawn hi hkey
  -- A call that evaluates sets every tailnet right; another one must not change who shares a key.
  by_cases hop : (r.label i).op.evaluates
  · have hle := openConflicts_le_one hr ⟨k, by omega, hadds⟩ hi.le
    have heval := evaluated hr ⟨k, by omega, hadds⟩ hi hop
    obtain ⟨snap, hs⟩ := Table.mem_keys.mp ((hpaired.list t).mpr hkey)
    rw [hs, Option.elim_some] at heval
    rw [heval]
    constructor
    · intro hshares
      rw [if_pos ((hpaired.shares_iff hs).mpr hshares)]
      omega
    · intro hnot
      rw [if_neg fun h => hnot ((hpaired.shares_iff hs).mp h)]
  · rw [Step.openConflicts_of_not_evaluates hstep hop]
    obtain ⟨mid, S, _, he, hrebuilt⟩ := exec_does hstep
    have hframe : Shares (r.state (i + 1)) t ↔ Shares mid t := by
      rw [hrebuilt.frame]
      exact shares_congr rfl rfl t
    rw [hframe]
    -- A deleted tailnet can leave its partner without a conflict, which is the excluded case.
    by_cases hdelete : ∃ actor id, (r.label i).op = .deleteTailnet actor id
    · obtain ⟨actor, id, hdelete⟩ := hdelete
      rw [hdelete] at he
      rw [he.deleted] at hrebuilt ⊢
      rw [hrebuilt.frame] at hkey
      obtain ⟨hne, hbefore⟩ := Table.mem_keys_erase.mp hkey
      obtain ⟨tn₀, htn₀⟩ := Table.mem_keys.mp hbefore
      have hsame : Shares ((r.state i).deleteTailnet id) t ↔ Shares (r.state i) t := by
        refine ⟨Shares.of_deleteTailnet, fun hshares => ?_⟩
        by_contra hnot
        exact horphans ⟨actor, id, t, tn₀, hdelete, hne, htn₀, hshares, hnot⟩
      rw [hsame]
      exact h t tn₀ htn₀
    · simp only [not_exists] at hdelete
      obtain ⟨hs, hkeys⟩ := he.lists_kept hop hdelete
      have hbefore : t ∈ (r.state i).tailnets.keys := by
        rw [hrebuilt.frame] at hkey
        exact hkeys ▸ hkey
      obtain ⟨tn₀, htn₀⟩ := Table.mem_keys.mp hbefore
      rw [shares_congr hs hkeys]
      exact h t tn₀ htn₀

theorem accurate_start : Accurate (r.state 0) := by
  have hstart : r.state 0 = DB.empty := r.start
  rw [hstart]
  intro t tn htn
  simp [DB.empty] at htn

/-- The events of conflicting keys are accurate throughout a run, if and only if no deletion of a
tailnet ends the only conflict of another. -/
theorem conflict_events_accurate (r : Store.Run E) (hr : r.Separate) :
    (∀ i ≤ r.len, Accurate (r.state i)) ↔
      ∀ k < r.len, ¬ Orphans (r.state k) (r.label k).op := by
  constructor
  · rintro h k hk ⟨actor, id, t, tn, hop, hne, htn, hshares, hnot⟩
    have hstep := r.next k hk
    obtain ⟨mid, S, _, he, hrebuilt⟩ := exec_does hstep
    rw [hop] at he
    rw [he.deleted] at hrebuilt
    have htn' : (r.state (k + 1)).tailnets.get? t = some tn := by
      rw [hrebuilt.frame]
      exact (Table.get?_erase_ne _ hne).trans htn
    have hnot' : ¬ Shares (r.state (k + 1)) t := by
      rw [hrebuilt.frame]
      exact fun h => hnot ((shares_congr rfl rfl t).mp h)
    -- The deletion leaves the event open.
    have hopen := Step.openConflicts_of_not_evaluates (t := t) hstep (by simp [hop, Op.evaluates])
    rw [(h k hk.le t tn htn).1 hshares, (h (k + 1) hk t tn htn').2 hnot'] at hopen
    exact absurd hopen (by decide)
  · intro h i hi
    induction i with
    | zero => exact accurate_start
    | succ i ih => exact accurate_next hr hi (ih (by omega)) (h i hi)

def disputed : List Op := [
  .initializeAdmin "admin" "a long password" First.owner "hash",
  .createAccount First.admin "guest" "another password" .member First.guestID "hash",
  .addTailnet First.admin "home" "Thome" First.tailnet [] [⟨First.homeKey, .utc (5000 * second)⟩],
  .addTailnet First.guest "away" "Taway" First.guestTailnet []
    [⟨First.homeKey, .utc (5000 * second)⟩]]

theorem separate_of_ops {ops : List Op} (hlen : r.len = ops.length)
    (hlabel : ∀ i op, ops[i]? = some op → (r.label i).op = op ∧ (r.label i).clock = First.clock)
    (hops : ∀ op ∈ ops, ∀ id, op.creates id = false) : r.Separate := by
  intro j hj k _ id hcreates
  have hop := List.getElem?_eq_getElem (hlen ▸ hj)
  rw [(hlabel j _ hop).1, hops _ (List.mem_of_getElem? hop) id] at hcreates
  simp at hcreates

theorem disputed_accurate : ∃ r : Store.Run Env.plain, r.Separate ∧ r.len = 4 ∧
    (∀ k < 4, ¬ Orphans (r.state k) (r.label k).op) ∧ ∀ i ≤ 4, Accurate (r.state i) := by
  have hrun : (replay Env.plain First.clock disputed DB.empty).toOption.isSome := by
    decide +kernel
  obtain ⟨db, hdb⟩ := Option.isSome_iff_exists.mp hrun
  obtain ⟨r, hlen, -, hlabel⟩ := replay_run (toOption_eq_some.mp hdb)
  have hsep : r.Separate := by
    refine separate_of_ops hlen hlabel fun op hop id => ?_
    simp only [disputed, List.mem_cons, List.not_mem_nil, or_false] at hop
    rcases hop with rfl | rfl | rfl | rfl <;> rfl
  have horphans : ∀ k < 4, ¬ Orphans (r.state k) (r.label k).op := by
    rintro k hk ⟨actor, id, t, tn, hop, -⟩
    have hlk := hlabel k _ (List.getElem?_eq_getElem (show k < disputed.length from hk))
    rw [hlk.1] at hop
    interval_cases k <;> simp [disputed] at hop
  refine ⟨r, hsep, hlen, horphans, ?_⟩
  have h := (conflict_events_accurate r hsep).mpr
  rw [hlen] at h
  exact h horphans

/-- One of the tailnets is deleted, and the other still has its event. -/
theorem deletion_leaves_event : ∃ r : Store.Run Env.plain, r.Separate ∧ r.len = 5 ∧
    ¬ Shares (r.state 5) First.guestTailnet.text ∧
    (r.state 5).openConflicts First.guestTailnet.text = 1 ∧ ¬ Accurate (r.state 5) := by
  have hrun : (replay Env.plain First.clock
      (disputed ++ [.deleteTailnet First.admin First.tailnet.text]) DB.empty).map (fun db =>
        (db.tailnets.keys, db.openConflicts First.guestTailnet.text)) =
      .ok ([First.guestTailnet.text], 1) := by
    decide +kernel
  obtain ⟨db, hdb, hget⟩ := Except_map_eq_ok.mp hrun
  obtain ⟨hkeys, hopen⟩ := Prod.mk.inj hget
  obtain ⟨r, hlen, hstate, hlabel⟩ := replay_run hdb
  have h5 : r.state 5 = db := (Except.ok.inj (hdb.symm.trans (hstate 5 (by decide)))).symm
  have hnot : ¬ Shares db First.guestTailnet.text := by
    rintro ⟨other, hne, hother, -⟩
    rw [← Table.mem_keys, hkeys, List.mem_singleton] at hother
    exact hne hother
  rw [← h5] at hkeys hopen hnot
  refine ⟨r, ?_, hlen, hnot, hopen, fun h => ?_⟩
  · refine separate_of_ops hlen hlabel fun op hop id => ?_
    simp only [disputed, List.cons_append, List.nil_append, List.mem_cons, List.not_mem_nil,
      or_false] at hop
    rcases hop with rfl | rfl | rfl | rfl | rfl <;> rfl
  · have hmem : First.guestTailnet.text ∈ (r.state 5).tailnets.keys := by simp [hkeys]
    obtain ⟨tn, htn⟩ := Table.mem_keys.mp hmem
    have hnone := (h _ tn htn).2 hnot
    rw [hopen] at hnone
    exact absurd hnone (by decide)

end Store.Run

end UniDERP
