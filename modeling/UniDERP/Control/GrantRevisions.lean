import UniDERP.Control.Consent
import UniDERP.Control.Revocation

namespace UniDERP

/-- A call on the grant `k`, with the revision it expects and the state it asks for. -/
inductive GrantCall (db : DB) (k : Pair) : Op → ℕ → GrantState → Prop
  | request {actor : Actor} {expected : ℕ} {until_ : Int} {id : Token} {ps : Parties}
      (parties : parties (ofLex k).1 (ofLex k).2 db = .ok ps) :
      GrantCall db k (.requestGrant actor (ofLex k).1 (ofLex k).2 expected until_ id) expected
        (requestedState ps)
  | action {actor : Actor} {expected : ℕ} {action : GrantAction} {g : Grant}
      (grant : db.grants.get? k = some g) :
      GrantCall db k (.applyGrantAction actor g.id expected action) expected (actionNext action)

/-- The retry shortcut: the grant already is what the call asks for. -/
inductive Shortcut (c : Clock) (db : DB) (k : Pair) : Op → Prop
  | request {actor : Actor} {expected : ℕ} {until_ : Int} {id : Token} {ps : Parties} {g : Grant}
      (grant : db.grants.get? k = some g) (parties : parties (ofLex k).1 (ofLex k).2 db = .ok ps)
      (repeats : g.repeats (c.read 1) expected until_ (requestedState ps)) :
      Shortcut c db k (.requestGrant actor (ofLex k).1 (ofLex k).2 expected until_ id)
  | action {actor : Actor} {expected : ℕ} {action : GrantAction} {g : Grant}
      (grant : db.grants.get? k = some g) (state : g.stateAt (c.read 0) = actionNext action)
      (revision : g.revision = expected ∨ g.revision = expected + 1) :
      Shortcut c db k (.applyGrantAction actor g.id expected action)

/-- The grant was at the expected revision, 0 if there was none, and is at the next one. -/
structure Raises (db db' : DB) (k : Pair) (expected : ℕ) (s : GrantState) : Prop where
  before : (db.grants.get? k).elim 0 (·.revision) = expected
  after : ∃ g, db'.grants.get? k = some g ∧ g.state = s ∧ g.revision = expected + 1

section Call

variable {E : Env} {c : Clock} {db db' : DB} {actor : Actor} {expected : ℕ} {v : GrantView}

theorem stateAt_eq {g : Grant} {now : Int} {s : GrantState} (h : g.stateAt now = s)
    (hs : s ≠ .expired) : g.state = s := by
  unfold Grant.stateAt at h
  split_ifs at h
  · exact absurd h.symm hs
  · exact h

theorem requestedState_ne_expired (ps : Parties) : requestedState ps ≠ .expired := by
  unfold requestedState
  split_ifs <;> simp

theorem actionNext_ne_expired (action : GrantAction) : actionNext action ≠ .expired := by
  cases action <;> simp [actionNext]

theorem buildPolicy_grants {id : String} {now : Int} {p : Policy}
    (h : buildPolicy E id now db = .ok (db', p)) : db'.grants = db.grants := by
  obtain ⟨row, entries, row', -, -, -, rfl⟩ := buildPolicy_eq_ok.mp h
  rfl

theorem requestGrant_result {node tailnet : String} {until_ : Int} {id : Token}
    (h : requestGrant E c actor node tailnet expected until_ id db = .ok (db', v)) :
    ∃ ps, parties node tailnet db = .ok ps ∧
      ((∃ g, db.grants.get? (pair node tailnet) = some g ∧
          g.repeats (c.read 1) expected until_ (requestedState ps) ∧ db' = db ∧
          v.revision = g.revision) ∨
        (∀ g, db.grants.get? (pair node tailnet) = some g →
          g.repeats (c.read 1) expected until_ (requestedState ps) = false) ∧
        Raises db db' (pair node tailnet) expected (requestedState ps) ∧
        v.revision = expected + 1) := by
  simp only [requestGrant, Except_bind_eq_ok, require_eq_ok, activeActor_eq_ok, requireOwner_eq_ok,
    exists_const] at h
  obtain ⟨-, -, ps, hps, -, enabled, -, -, h⟩ := h
  refine ⟨ps, hps, ?_⟩
  -- The first case is the repeated call, which changes nothing and answers with the stored
  -- revision.
  split at h
  case h_1 g hfound =>
    obtain ⟨hg, hrepeats⟩ := Option.filter_eq_some_iff.mp hfound
    obtain ⟨rfl, rfl⟩ := Prod.mk.inj (Except_pure_eq_ok.mp h)
    exact .inl ⟨g, hg, hrepeats, rfl, rfl⟩
  case h_2 hnone =>
    simp only [Except_bind_eq_ok, Except_pure_eq_ok, Prod.exists, Prod.mk.injEq] at h
    obtain ⟨g, hbase, _, p, hbuild, rfl, rfl⟩ := h
    have hrevision : (db.grants.get? (pair node tailnet)).elim 0 (·.revision) = expected ∧
        g.revision = expected := by
      unfold requestBase at hbase
      cases hg : db.grants.get? (pair node tailnet) with
      | none =>
        simp only [hg, Except_bind_eq_ok, require_eq_ok, exists_const, Except_pure_eq_ok] at hbase
        obtain ⟨rfl, -, rfl⟩ := hbase
        exact ⟨rfl, rfl⟩
      | some g₀ =>
        simp only [hg, Except_bind_eq_ok, require_eq_ok, exists_const, Except_pure_eq_ok] at hbase
        obtain ⟨⟨rfl, -⟩, rfl⟩ := hbase
        exact ⟨rfl, rfl⟩
    obtain ⟨hbefore, hg⟩ := hrevision
    refine .inr ⟨fun g hg => ?_, ⟨hbefore, ?_⟩, by rw [hg]⟩
    · simpa [hg] using hnone
    · rw [buildPolicy_grants hbuild]
      exact ⟨_, Table.get?_insert_self _ _ _, rfl, by rw [hg]⟩

theorem applyGrantAction_result {gid : String} {action : GrantAction}
    (h : applyGrantAction E c actor gid expected action db = .ok (db', v)) :
    ∃ k g, db.grants.get? k = some g ∧ g.id = gid ∧ v.nodeID = (ofLex k).1 ∧
      v.tailnetID = (ofLex k).2 ∧
      (g.stateAt (c.read 0) = actionNext action ∧
          (g.revision = expected ∨ g.revision = expected + 1) ∧ db' = db ∧
          v.revision = g.revision ∨
        ¬ (g.stateAt (c.read 0) = actionNext action ∧
          (g.revision = expected ∨ g.revision = expected + 1)) ∧
        Raises db db' k expected (actionNext action) ∧ v.revision = expected + 1) := by
  simp only [applyGrantAction, Except_bind_eq_ok, require_eq_ok, activeActor_eq_ok,
    requireOwner_eq_ok, exists_const, Prod.exists] at h
  obtain ⟨-, -, k, g, ps, hfound, -, h⟩ := h
  obtain ⟨hg, hid, -⟩ := grantByID_eq_ok hfound
  refine ⟨k, g, hg, hid, ?_⟩
  -- The action was taken already under this revision or the one before.
  by_cases hrepeat : g.stateAt (c.read 0) = actionNext action ∧
      (g.revision = expected ∨ g.revision = expected + 1)
  · rw [if_pos (by exact hrepeat)] at h
    obtain ⟨rfl, rfl⟩ := Prod.mk.inj (Except_pure_eq_ok.mp h)
    exact ⟨rfl, rfl, .inl ⟨hrepeat.1, hrepeat.2, rfl, rfl⟩⟩
  · rw [if_neg (by exact hrepeat)] at h
    rw [Except_bind_eq_ok] at h
    obtain ⟨_, hcurrent, h⟩ := h
    replace hcurrent := (require_eq_ok.mp hcurrent).1
    split_ifs at h
    all_goals
      simp only [Except_bind_eq_ok, require_eq_ok, exists_const, Except_pure_eq_ok, Prod.exists,
        Prod.mk.injEq] at h
      obtain ⟨_, -, -, _, p, hbuild, rfl, rfl⟩ := h
      refine ⟨rfl, rfl, .inr ⟨hrepeat, ⟨by simp [hg, hcurrent], ?_⟩, by rw [hcurrent]⟩⟩
      rw [buildPolicy_grants hbuild]
      exact ⟨_, Table.get?_insert_self _ _ _, rfl, by rw [hcurrent]⟩

/-- A call that succeeds found the shortcut, or raised the revision. -/
theorem GrantCall.result {a : Commit} {k : Pair} {s : GrantState}
    (hcall : GrantCall db k a.op expected s) (hunique : UniqueGrants db) (h : Step E db a db') :
    (Shortcut a.clock db k a.op ∧ db' = db ∧ ∃ g, db.grants.get? k = some g ∧ g.state = s ∧
      (g.revision = expected ∨ g.revision = expected + 1)) ∨
    ¬ Shortcut a.clock db k a.op ∧ Raises db db' k expected s := by
  obtain ⟨op, c, reply⟩ := a
  cases hcall with
  | request hps =>
    simp only [Step, exec, answer_eq_ok] at h
    obtain ⟨v, h, -⟩ := h
    obtain ⟨ps, hps', hresult⟩ := requestGrant_result h
    cases hps.symm.trans hps'
    rw [pair_ofLex] at hresult
    rcases hresult with ⟨g, hg, hrepeats, rfl, -⟩ | ⟨hnot, hraises, -⟩
    · refine .inl ⟨.request hg hps hrepeats, rfl, g, hg, ?_⟩
      simp only [Grant.repeats, Bool.and_eq_true, decide_eq_true_eq, Bool.or_eq_true] at hrepeats
      exact ⟨stateAt_eq hrepeats.1.1 (requestedState_ne_expired _), hrepeats.2.imp Eq.symm Eq.symm⟩
    · refine .inr ⟨fun hshortcut => ?_, hraises⟩
      cases hshortcut with
      | request hg hps' hrepeats =>
        cases hps.symm.trans hps'
        simp [hnot _ hg] at hrepeats
  | action hg =>
    simp only [Step, exec, answer_eq_ok] at h
    obtain ⟨v, h, -⟩ := h
    obtain ⟨k', g', hg', hid, -, -, hresult⟩ := applyGrantAction_result h
    -- The action names the grant by its id, which one pair has.
    obtain rfl := hunique _ _ _ _ hg' hg hid
    cases hg'.symm.trans hg
    rcases hresult with ⟨hstate, hrevision, rfl, -⟩ | ⟨hnot, hraises, -⟩
    · exact .inl ⟨.action hg hstate hrevision, rfl, _, hg,
        stateAt_eq hstate (actionNext_ne_expired _), hrevision⟩
    · refine .inr ⟨fun hshortcut => ?_, hraises⟩
      generalize hop : Op.applyGrantAction _ _ _ _ = op at hshortcut
      cases hshortcut with
      | request => cases hop
      | action hg₁ hstate hrevision =>
        cases hg.symm.trans hg₁
        cases hop
        exact hnot ⟨hstate, hrevision⟩

end Call

section Runs

variable {E : Env} {db db' : DB} {a : Commit} {k : Pair}

/-- A step keeps a grant's state and revision, or raises the revision by one. -/
theorem Step.grant_raised (h : Step E db a db') {g g' : Grant} (hg : db.grants.get? k = some g)
    (hg' : db'.grants.get? k = some g') :
    g'.revision = g.revision + 1 ∨ g'.state = g.state ∧ g'.revision = g.revision := by
  have hchange := h.grant_change k
  rw [hg, hg'] at hchange
  generalize hold : some g = old at hchange
  generalize hnew : some g' = new at hchange
  cases hchange with
  | kept =>
    cases hold.trans hnew.symm
    exact .inr ⟨rfl, rfl⟩
  | deleted => cases hnew
  | seen =>
    cases hold
    cases hnew
    exact .inr ⟨rfl, rfl⟩
  | released =>
    cases hold
    cases hnew
    exact .inl rfl
  | requested request =>
    cases hnew
    exact .inl (request.closed g hold.symm).2
  | acted =>
    cases hold
    cases hnew
    exact .inl rfl

/-- A new grant is at revision 1. -/
theorem Step.grant_created (h : Step E db a db') (hunique : UniqueGrants db) {g' : Grant}
    (hg : db.grants.get? k = none) (hg' : db'.grants.get? k = some g') : g'.revision = 1 := by
  have hchange := h.grant_change k
  rw [hg, hg'] at hchange
  generalize hold : none = old at hchange
  generalize hnew : some g' = new at hchange
  cases hchange with
  | kept => cases hold.trans hnew.symm
  | deleted => cases hnew
  | seen => cases hold
  | released => cases hold
  | acted => cases hold
  | requested request =>
    obtain ⟨actor, expected, until_, id, ps, hop, hps, -⟩ := request.call
    have hcall : GrantCall db k a.op expected (requestedState ps) := hop ▸ .request hps
    rcases hcall.result hunique h with ⟨-, -, g, hsome, -⟩ | ⟨-, hraises⟩
    · cases hg.symm.trans hsome
    · obtain ⟨g₁, hg₁, -, hrevision⟩ := hraises.after
      cases hg'.symm.trans hg₁
      rw [hrevision, ← hraises.before, hg]
      rfl

/-- A step that opens a grant which was not open is a request for it. -/
theorem Step.grant_opened (h : Step E db a db')
    (hclosed : ¬ ∃ g, db.grants.get? k = some g ∧ g.state.live) {g' : Grant}
    (hg' : db'.grants.get? k = some g') (hlive : g'.state.live) :
    ∃ actor expected until_ id,
      a.op = .requestGrant actor (ofLex k).1 (ofLex k).2 expected until_ id := by
  have hchange := h.grant_change k
  rw [hg'] at hchange
  generalize hold : db.grants.get? k = old at hchange
  generalize hnew : some g' = new at hchange
  cases hchange with
  | kept => exact absurd ⟨g', hold.trans hnew.symm, hlive⟩ hclosed
  | deleted => cases hnew
  | seen =>
    cases hnew
    exact absurd ⟨_, hold, hlive⟩ hclosed
  | released =>
    cases hnew
    cases hlive
  | requested request =>
    obtain ⟨actor, expected, until_, id, ps, hop, -⟩ := request.call
    exact ⟨actor, expected, until_, id, hop⟩
  | acted acts => exact absurd ⟨_, hold, acts.live⟩ hclosed

theorem Store.Run.grant_revision_le (r : Store.Run E) {i j : ℕ} (hij : i ≤ j) (hj : j ≤ r.len)
    (hstays : ∀ m, i ≤ m → m ≤ j → (r.state m).grants.get? k ≠ none) {g g' : Grant}
    (hg : (r.state i).grants.get? k = some g) (hg' : (r.state j).grants.get? k = some g') :
    g.revision ≤ g'.revision := by
  induction j, hij using Nat.le_induction generalizing g' with
  | base =>
    cases hg.symm.trans hg'
    rfl
  | succ j hij ih =>
    obtain ⟨g₁, hg₁⟩ := Option.ne_none_iff_exists'.mp (hstays j hij (Nat.le_succ j))
    have hle := ih (by omega) (fun m hm hm' => hstays m hm (by omega)) hg₁
    rcases (r.next j hj).grant_raised hg₁ hg' with hraised | ⟨-, hsame⟩ <;> omega

/-- In every run: a change of a grant's state raises its revision by one; while the grant stays, of
two calls that expect one revision only one changes it; a call that succeeds leaves the grant in the
state it asked for, at the revision it expected or the next; the retry shortcut changes nothing; and
a grant that was revoked, rejected or cancelled is open again only after a request changed it. -/
theorem Store.Run.grant_concurrency (r : Store.Run E) (k : Pair) :
    (∀ i < r.len, ∀ g', (r.state (i + 1)).grants.get? k = some g' →
      ((r.state i).grants.get? k).map (·.state) ≠ some g'.state →
      g'.revision = ((r.state i).grants.get? k).elim 0 (·.revision) + 1) ∧
    (∀ i j expected s s', i < j → j < r.len →
      GrantCall (r.state i) k (r.label i).op expected s →
      GrantCall (r.state j) k (r.label j).op expected s' →
      (∀ m, i < m → m ≤ j → (r.state m).grants.get? k ≠ none) →
      (r.state (i + 1)).grants.get? k ≠ (r.state i).grants.get? k →
      (r.state (j + 1)).grants.get? k = (r.state j).grants.get? k) ∧
    (∀ i < r.len, ∀ expected s, GrantCall (r.state i) k (r.label i).op expected s →
      ∃ g', (r.state (i + 1)).grants.get? k = some g' ∧ g'.state = s ∧
        (g'.revision = expected ∨ g'.revision = expected + 1)) ∧
    (∀ i < r.len, Shortcut (r.label i).clock (r.state i) k (r.label i).op →
      r.state (i + 1) = r.state i) ∧
    ∀ i j g g', i < j → j ≤ r.len → (r.state i).grants.get? k = some g →
      (r.state j).grants.get? k = some g' → g.state ∈ [.revoked, .rejected, .cancelled] →
      g'.state ∈ [.requested, .ownerApproved, .active] →
      ∃ m actor expected until_ id, i ≤ m ∧ m < j ∧
        (r.label m).op = .requestGrant actor (ofLex k).1 (ofLex k).2 expected until_ id ∧
        (r.state (m + 1)).grants.get? k ≠ (r.state m).grants.get? k := by
  have hunique : ∀ i ≤ r.len, UniqueGrants (r.state i) := fun i hi =>
    Store.Reachable.unique_grants (r.reachable hi)
  refine ⟨fun i hi g' hg' hstate => ?_, fun i j expected s s' hij hj hcall hcall' hstays hchanges => ?_,
    fun i hi expected s hcall => ?_, fun i hi hshortcut => ?_,
    fun i j g g' hij hj hg hg' hclosed hopen => ?_⟩
  · cases hg : (r.state i).grants.get? k with
    | none => exact (r.next i hi).grant_created (hunique i hi.le) hg hg'
    | some g =>
      rcases (r.next i hi).grant_raised hg hg' with hraised | ⟨hsame, -⟩
      · exact hraised
      · simp [hg, hsame] at hstate
  · rcases hcall.result (hunique i (by omega)) (r.next i (by omega)) with ⟨-, hidle, -⟩ | ⟨-, hraises⟩
    · exact absurd (by rw [hidle]) hchanges
    rcases hcall'.result (hunique j hj.le) (r.next j hj) with ⟨-, hidle, -⟩ | ⟨-, hraises'⟩
    · rw [hidle]
    -- Both raised the revision they expected, but the first left a later one.
    exfalso
    obtain ⟨g, hg, -, hrevision⟩ := hraises.after
    obtain ⟨g', hg'⟩ := Option.ne_none_iff_exists'.mp (hstays j hij le_rfl)
    have hle := r.grant_revision_le (Nat.succ_le_of_lt hij) hj.le (fun m hm => hstays m hm) hg hg'
    have hbefore := hraises'.before
    rw [hg', Option.elim_some] at hbefore
    omega
  · rcases hcall.result (hunique i hi.le) (r.next i hi) with ⟨-, hidle, hfound⟩ | ⟨-, hraises⟩
    · rw [hidle]
      exact hfound
    · obtain ⟨g', hg', hstate, hrevision⟩ := hraises.after
      exact ⟨g', hg', hstate, .inr hrevision⟩
  · have hcall : ∃ expected s, GrantCall (r.state i) k (r.label i).op expected s := by
      generalize (r.label i).op = op at hshortcut
      cases hshortcut with
      | request _ hps => exact ⟨_, _, .request hps⟩
      | action hg => exact ⟨_, _, .action hg⟩
    obtain ⟨expected, s, hcall⟩ := hcall
    rcases hcall.result (hunique i hi.le) (r.next i hi) with ⟨-, hidle, -⟩ | ⟨hnot, -⟩
    · exact hidle
    · exact absurd hshortcut hnot
  · let P : DB → Prop := fun db => ∃ g, db.grants.get? k = some g ∧ g.state.live
    have hstart : ¬ P (r.state i) := by
      rintro ⟨g₁, hg₁, hlive⟩
      cases hg.symm.trans hg₁
      simp only [List.mem_cons, List.not_mem_nil, or_false] at hclosed
      rcases hclosed with h | h | h <;> simp [h, GrantState.live] at hlive
    have hend : P (r.state j) := by
      refine ⟨g', hg', ?_⟩
      simp only [List.mem_cons, List.not_mem_nil, or_false] at hopen
      rcases hopen with h | h | h <;> simp [h, GrantState.live]
    obtain ⟨m, him, hmj, hnot, hsince⟩ := r.established hij.le hstart hend
    obtain ⟨g₁, hg₁, hlive⟩ := hsince (m + 1) (Nat.lt_succ_self m) hmj
    obtain ⟨actor, expected, until_, id, hop⟩ := (r.next m (by omega)).grant_opened hnot hg₁ hlive
    refine ⟨m, actor, expected, until_, id, him, hmj, hop, fun hsame => hnot ?_⟩
    exact ⟨g₁, hsame ▸ hg₁, hlive⟩

end Runs

end UniDERP
