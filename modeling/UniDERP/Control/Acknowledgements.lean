import UniDERP.Control.Revisions
import UniDERP.Control.Revocation

namespace UniDERP

/-- A transaction as its caller sees it: it commits, or it is rolled back. -/
def attempt (E : Env) (c : Clock) (op : Op) (db : DB) : DB × Except Err Reply :=
  match exec E c op db with
  | .ok (db', reply) => (db', .ok reply)
  | .error e => (db, .error e)

/-- What is applied was received, and what was received was stored. -/
structure PolicyRow.Ordered (row : PolicyRow) : Prop where
  applied : row.appliedRevision ≤ row.receivedRevision
  received : row.receivedRevision ≤ row.desiredRevision

structure PolicyRow.Advances (row row' : PolicyRow) : Prop where
  received : row.receivedRevision ≤ row'.receivedRevision
  applied : row.appliedRevision ≤ row'.appliedRevision
  ordered : row.Ordered → row'.Ordered

theorem PolicyRow.Advances.refl (row : PolicyRow) : row.Advances row :=
  ⟨le_rfl, le_rfl, fun h => h⟩

theorem PolicyRow.Advances.trans {a b c : PolicyRow} (h : a.Advances b) (h' : b.Advances c) :
    a.Advances c :=
  ⟨h.received.trans h'.received, h.applied.trans h'.applied, fun ho => h'.ordered (h.ordered ho)⟩

section Step

variable {E : Env} {c : Clock} {db mid db' : DB} {op : Op} {reply : Reply} {S : String → Prop}
  {a : Commit} {id : String} {row row' : PolicyRow}

/-- A row is cleared by a release, and otherwise only moves on. -/
theorem Effect.row_advances (h : Effect E c db op reply mid S)
    (hrow : db.policies.get? id = some row) (hrow' : mid.policies.get? id = some row') :
    row.Advances row' ∨ Reissues E c db op id ∧ row' = row.cleared := by
  have hkept : mid.policies = db.policies → row.Advances row' := by
    intro hp
    rw [hp, hrow, Option.some.injEq] at hrow'
    exact hrow' ▸ .refl row
  -- A release is the only edit that takes revisions back, and only for the node it is about.
  have hrelease : ∀ {k : String}, mid.policies = (db.release k).policies →
      Reissues E c db op k → row.Advances row' ∨ Reissues E c db op id ∧ row' = row.cleared := by
    intro k hp hreissues
    rw [hp, DB.release, Table.get?_modify, hrow] at hrow'
    split_ifs at hrow' with hk
    · subst hk
      exact .inr ⟨hreissues, (Option.some.inj hrow').symm⟩
    · exact .inl (Option.some.inj hrow' ▸ .refl row)
  have hinsert : ∀ {k : String} {x x' : PolicyRow}, mid.policies = db.policies.insert k x' →
      db.policies.get? k = some x → x.Advances x' → row.Advances row' := by
    intro k x x' hp hx hadvances
    rw [hp] at hrow'
    rcases Table.get?_insert_eq_some.mp hrow' with ⟨rfl, rfl⟩ | ⟨-, hrow'⟩
    · rw [hrow, Option.some.injEq] at hx
      exact hx ▸ hadvances
    · rw [hrow, Option.some.injEq] at hrow'
      exact hrow' ▸ .refl row
  cases h
  case reissueEnrollment => exact hrelease rfl (.inl ⟨_, _, rfl⟩)
  case leaveNode hs => exact hrelease rfl (.inr ⟨_, _, _, rfl, hs, rfl⟩)
  case enroll req _ _ _ _ _ _ _ _ _ _ _ _ _ _ _ _ _ _ =>
    left
    -- The row is created only if there was none, so an existing one stays.
    cases hk : db.policies.get? req.challenge.nodeID with
    | some x =>
      apply hkept
      dsimp only
      rw [hk]
    | none =>
      rw [hk] at hrow'
      rcases Table.get?_insert_eq_some.mp hrow' with ⟨rfl, -⟩ | ⟨-, hrow'⟩
      · simp [hk] at hrow
      · rw [hrow, Option.some.injEq] at hrow'
        exact hrow' ▸ .refl row
  case deleteNode =>
    rw [DB.deleteNode, Table.get?_erase] at hrow'
    split_ifs at hrow'
    rw [hrow, Option.some.injEq] at hrow'
    exact .inl (hrow' ▸ .refl row)
  case setNodeQoS =>
    rw [Table.get?_modify, hrow] at hrow'
    left
    split_ifs at hrow'
    · exact Option.some.inj hrow' ▸ ⟨le_rfl, le_rfl, fun h => ⟨h.applied, h.received⟩⟩
    · exact Option.some.inj hrow' ▸ .refl row
  case ackReceived hx horder =>
    exact .inl (hinsert rfl hx
      ⟨horder.1, le_rfl, fun h => ⟨h.applied.trans horder.1, horder.2⟩⟩)
  case ackApplied hx horder =>
    exact .inl (hinsert rfl hx ⟨le_rfl, horder.1, fun h => ⟨horder.2.1, h.received⟩⟩)
  all_goals exact .inl (hkept rfl)

theorem RowBuild.advances {now : Int} {o o' : Option PolicyRow} (h : RowBuild E id now o o')
    (ho' : o' = some row') : ∃ row, o = some row ∧ row.Advances row' ∧
      row'.receivedRevision = row.receivedRevision ∧ row'.appliedRevision = row.appliedRevision := by
  cases h with
  | kept => exact ⟨row', ho', .refl row', rfl, rfl⟩
  | built hb =>
    cases ho'
    refine ⟨_, rfl, ?_⟩
    cases hb with
    | same => exact ⟨.refl _, rfl, rfl⟩
    | next content =>
      refine ⟨⟨le_rfl, le_rfl, fun h => ⟨h.applied, h.received.trans ?_⟩⟩, rfl, rfl⟩
      subst content
      exact Nat.le_succ _

theorem Step.row_advances (h : Step E db a db') (hrow : db.policies.get? id = some row)
    (hrow' : db'.policies.get? id = some row') :
    row.Advances row' ∨ Reissues E a.clock db a.op id ∧ row'.Ordered ∧ row'.appliedRevision = 0 := by
  obtain ⟨mid, S, i, he, hr⟩ := exec_does h
  obtain ⟨x, hx, hadvances, -, happlied⟩ := (hr.row_build id).advances hrow'
  rcases he.row_advances hrow hx with hx | ⟨hreissues, rfl⟩
  · exact .inl (hx.trans hadvances)
  · exact .inr ⟨hreissues, hadvances.ordered ⟨le_rfl, Nat.zero_le _⟩, happlied⟩

theorem Step.row_new (h : Step E db a db') (hrow : db.policies.get? id = none)
    (hrow' : db'.policies.get? id = some row') : row'.Ordered ∧ row'.appliedRevision = 0 := by
  obtain ⟨mid, S, i, he, hr⟩ := exec_does h
  obtain ⟨x, hx, hadvances, -, happlied⟩ := (hr.row_build id).advances hrow'
  have hedit := he.row_edit id
  rw [hrow, hx] at hedit
  generalize ho : none = o at hedit
  generalize ho' : some x = o' at hedit
  cases hedit with
  | kept =>
    subst ho
    cases ho'
  | created =>
    cases ho'
    exact ⟨hadvances.ordered ⟨le_rfl, le_rfl⟩, happlied⟩
  | deleted => cases ho'
  | _ => cases ho

theorem Rebuilt.eq_of_nobody {now : Int} (h : Rebuilt E now nobody mid db') : db' = mid := by
  have hpolicies : db'.policies = mid.policies := by
    ext1 k
    exact h.kept k fun hk => hk
  rw [h.frame, hpolicies]

theorem Effect.acknowledgement_builds {token : String} {ack : PolicyACK}
    (h : Effect E c db (.acknowledgePolicy token ack) reply mid S) : S = nobody := by
  cases h <;> rfl

/-- The applied revision rises only when the node acknowledges it. -/
theorem Step.row_applied (h : Step E db a db') (hrow : db.policies.get? id = some row)
    (hrow' : db'.policies.get? id = some row') (hne : row'.appliedRevision ≠ row.appliedRevision)
    (hpos : row'.appliedRevision ≠ 0) :
    ∃ token ack s n, a.op = .acknowledgePolicy token ack ∧ ack.state = .applied ∧
      ack.revision = row'.appliedRevision ∧ row'.policyJSON = row.policyJSON ∧
      db.liveSession E (a.clock.read 0) token = some (s, n) ∧ s.nodeID = id := by
  obtain ⟨mid, S, i, he, hr⟩ := exec_does h
  obtain ⟨x, hx, -, -, happlied⟩ := (hr.row_build id).advances hrow'
  rw [happlied] at hne hpos ⊢
  have hedit := he.row_edit id
  rw [hrow, hx] at hedit
  generalize ho : some row = o at hedit
  generalize ho' : some x = o' at hedit
  cases hedit with
  | kept =>
    subst ho
    cases ho'
    exact absurd rfl hne
  | created => cases ho
  | deleted => cases ho'
  | released =>
    cases ho'
    exact absurd rfl hpos
  | configured =>
    cases ho
    cases ho'
    exact absurd rfl hne
  | received =>
    cases ho
    cases ho'
    exact absurd rfl hne
  | applied call state session node usable =>
    cases ho
    cases ho'
    -- An acknowledgement rebuilds no policy, so the row is stored as it was edited.
    rw [call] at he
    obtain rfl := he.acknowledgement_builds
    rw [hr.eq_of_nobody, hx, Option.some.injEq] at hrow'
    exact ⟨_, _, _, _, call, state, rfl, hrow' ▸ rfl, session, node⟩

/-- What a deletion or a change of domain found, if the stream of the node was open. -/
theorem Step.settled {actor : Actor} {n : Node} (h : Step E db a db')
    (hop : a.op = .deleteNode actor id true ∨ ∃ domain, a.op = .changeNodeDomain actor id domain true)
    (hchange : db' ≠ db) (hn : db.nodes.get? id = some n) (hstate : n.state ≠ .pending)
    (hrow : db.policies.get? id = some row) :
    n.enabled = false ∧ row.appliedRevision = row.desiredRevision := by
  obtain ⟨op, c, reply⟩ := a
  have hsettled : UniDERP.settled true row → row.appliedRevision = row.desiredRevision := by
    simp [UniDERP.settled]
  rcases hop with rfl | ⟨domain, rfl⟩
  · have hdelete := (quiet_eq_ok.mp h).1
    simp only [deleteNode, Except_bind_eq_ok, ownedNode_eq_ok, require_eq_ok,
      exists_const] at hdelete
    obtain ⟨m, ⟨-, hm, -⟩, hguard, -⟩ := hdelete
    rw [hn, Option.some.injEq] at hm
    subst hm
    obtain ⟨henabled, hequal⟩ := hguard hstate
    rw [hrow, Option.getD_some] at hequal
    exact ⟨henabled, hsettled hequal⟩
  -- A change to the domain the node has already does nothing, which the hypothesis excludes.
  · obtain ⟨mid, S, i, he, hr⟩ := exec_does h
    cases he with
    | idle => exact absurd hr.eq_of_nobody hchange
    | sessions login => cases login
    | ports portChange => cases portChange
    | changeNodeDomain normalized node disabled state unique stored settled =>
      rw [hn, Option.some.injEq] at node
      rw [hrow, Option.some.injEq] at stored
      subst node stored
      exact ⟨disabled, hsettled settled⟩

end Step

section Run

variable {E : Env}

theorem Store.Reachable.ordered {db : DB} (h : Store.Reachable E db) {id : String} {row : PolicyRow}
    (hrow : db.policies.get? id = some row) : row.Ordered := by
  revert id row
  refine Reachable.invariant h (I := fun db => ∀ {id row}, db.policies.get? id = some row →
    row.Ordered) ?_ fun db a db' _ ih hstep => ?_
  · rintro s rfl id row hrow
    simp [DB.empty] at hrow
  · intro id row' hrow'
    cases hrow : db.policies.get? id with
    | none => exact (Step.row_new hstep hrow hrow').1
    | some row =>
      rcases Step.row_advances hstep hrow hrow' with hadvances | ⟨-, hordered, -⟩
      · exact hadvances.ordered (ih hrow)
      · exact hordered

theorem Store.Reachable.disabled_policy {db : DB} (h : Store.Reachable E db) {id : String} {n : Node}
    {row : PolicyRow} (hn : db.nodes.get? id = some n) (hrow : db.policies.get? id = some row)
    (hdisabled : n.enabled = false) :
    ∃ p, row.policyJSON = some p ∧ p.revision = row.desiredRevision ∧ p.revision ≠ 0 ∧
      p.grants = [] := by
  obtain ⟨entries, p, hproj, hp, hrevision, hcontent, hstorable⟩ := h.fresh id row hrow
  refine ⟨p, hp, hrevision, hstorable.wellFormed.revision, ?_⟩
  obtain ⟨m, u, hm, -, hentries⟩ := hproj.entries
  rw [hn, Option.some.injEq] at hm
  subst hm
  simp only [project, hdisabled, Bool.false_eq_true, false_and, if_false, Except.ok.injEq] at hentries
  rw [← hcontent, ← hentries]
  rfl

/-- An applied revision that is the desired one was acknowledged when the stored body was what it
is now, and has been since. -/
theorem Store.Run.acknowledged (r : Store.Run E) {id : String} {i : ℕ} (hi : i ≤ r.len)
    {row : PolicyRow} {p : Policy} (hrow : (r.state i).policies.get? id = some row)
    (hp : row.policyJSON = some p) (hrevision : p.revision = row.desiredRevision)
    (hsettled : row.appliedRevision = row.desiredRevision) (hpos : row.appliedRevision ≠ 0) :
    ∃ j < i, (∃ token ack s n, (r.label j).op = .acknowledgePolicy token ack ∧
        ack.state = .applied ∧ ack.revision = p.revision ∧
        (r.state j).liveSession E ((r.label j).clock.read 0) token = some (s, n) ∧ s.nodeID = id) ∧
      ∀ k, j ≤ k → k ≤ i → ∃ x, (r.state k).policies.get? id = some x ∧ x.policyJSON = some p := by
  let P : DB → Prop := fun db => ∃ x, db.policies.get? id = some x ∧
    x.appliedRevision = row.appliedRevision
  have hstart : ¬ P (r.state 0) := by
    rintro ⟨x, hx, -⟩
    rw [r.start] at hx
    simp [DB.empty] at hx
  obtain ⟨j, -, hj, hnot, hsince⟩ := r.established (P := P) (Nat.zero_le i) hstart ⟨row, hrow, rfl⟩
  obtain ⟨x', hx', happlied'⟩ := hsince (j + 1) (by omega) hj
  have hstep := r.next j (by omega)
  cases hx : (r.state j).policies.get? id with
  | none =>
    have hzero := (Step.row_new hstep hx hx').2
    exact absurd (happlied'.symm.trans hzero) hpos
  | some x =>
    have hne : x'.appliedRevision ≠ x.appliedRevision := fun he =>
      hnot ⟨x, hx, he.symm.trans happlied'⟩
    obtain ⟨token, ack, s, n, hop, hstate, hack, hsame, hsession⟩ :=
      Step.row_applied hstep hx hx' hne (by omega)
    -- From the acknowledgement on the desired revision is at least the applied one, and it never
    -- falls, so it has been the same and so has the body.
    have hbefore : ∀ k, j < k → k ≤ i → ∃ y, (r.state k).policies.get? id = some y ∧
        y.Before row := by
      intro k hjk hki
      apply r.carried_back (P := fun db => ∃ y, db.policies.get? id = some y ∧ y.Before row) hki
      · exact ⟨row, hrow, .refl row⟩
      · rintro m hkm hmi ⟨y', hy', hb'⟩
        obtain ⟨y, hy, -⟩ := hsince m (by omega) hmi.le
        exact ⟨y, hy, (Step.body_change (r.next m (by omega)) hy hy').before.trans hb'⟩
    have hbody : ∀ k, j < k → k ≤ i → ∃ y, (r.state k).policies.get? id = some y ∧
        y.policyJSON = some p := by
      intro k hjk hki
      obtain ⟨y, hy, hb⟩ := hbefore k hjk hki
      obtain ⟨z, hz, happlied⟩ := hsince k hjk hki
      cases hy.symm.trans hz
      have hordered := Store.Reachable.ordered (r.reachable (hki.trans hi)) hy
      have h1 := hordered.applied
      have h2 := hordered.received
      have h3 := hb.revision
      exact ⟨y, hy, (hb.body (by omega)).trans hp⟩
    refine ⟨j, hj, ⟨token, ack, s, n, hop, hstate, by omega, hsession⟩, fun k hjk hki => ?_⟩
    rcases Nat.lt_or_eq_of_le hjk with hlt | rfl
    · exact hbody k hlt hki
    · obtain ⟨y, hy, hp'⟩ := hbody (j + 1) (by omega) hj
      cases hx'.symm.trans hy
      exact ⟨x, hx, hsame.symm.trans hp'⟩

/-- In every run and for every node: what is applied was received and what was received is stored;
within one enrollment neither falls; a rejected acknowledgement changes nothing; and a deletion or a
change of domain of a node with an open stream finds the relay running the stored policy, which the
node has acknowledged and which has no grants. -/
theorem Store.Run.relay_settles (r : Store.Run E) (id : String) :
    (∀ i ≤ r.len, ∀ row, (r.state i).policies.get? id = some row →
      0 ≤ row.appliedRevision ∧ row.appliedRevision ≤ row.receivedRevision ∧
        row.receivedRevision ≤ row.desiredRevision) ∧
    (∀ i j, i ≤ j → j ≤ r.len →
      (∀ k, i ≤ k → k < j → ¬ Reissues E (r.label k).clock (r.state k) (r.label k).op id ∧
        (r.label k).op.creates id = false) →
      ∀ row row', (r.state i).policies.get? id = some row →
        (r.state j).policies.get? id = some row' →
        row.receivedRevision ≤ row'.receivedRevision ∧
          row.appliedRevision ≤ row'.appliedRevision) ∧
    (∀ i ≤ r.len, ∀ c token ack e,
      (attempt E c (.acknowledgePolicy token ack) (r.state i)).2 = .error e →
      (attempt E c (.acknowledgePolicy token ack) (r.state i)).1 = r.state i) ∧
    ∀ i < r.len, ∀ actor n, ((r.label i).op = .deleteNode actor id true ∨
        ∃ domain, (r.label i).op = .changeNodeDomain actor id domain true) →
      r.state (i + 1) ≠ r.state i → (r.state i).nodes.get? id = some n → n.state ≠ .pending →
      ∃ row p, (r.state i).policies.get? id = some row ∧ row.policyJSON = some p ∧
        p.revision = row.desiredRevision ∧ p.grants = [] ∧
        ∃ j < i, (∃ token ack s m, (r.label j).op = .acknowledgePolicy token ack ∧
            ack.state = .applied ∧ ack.revision = p.revision ∧
            (r.state j).liveSession E ((r.label j).clock.read 0) token = some (s, m) ∧
            s.nodeID = id) ∧
          ∀ k, j ≤ k → k ≤ i →
            ∃ x, (r.state k).policies.get? id = some x ∧ x.policyJSON = some p := by
  refine ⟨fun i hi row hrow => ?_, fun i j hij hj hepoch row row' hrow hrow' => ?_,
    fun i _ c token ack e he => ?_, fun i hi actor n hop hchange hn hstate => ?_⟩
  · have hordered := Store.Reachable.ordered (r.reachable hi) hrow
    exact ⟨Nat.zero_le _, hordered.applied, hordered.received⟩
  · have hadvances := r.rows_related id PolicyRow.Advances.refl (fun _ _ _ => .trans) hij hj
      (fun k hik hkj => (hepoch k hik hkj).2) (fun k x x' hik hkj hx hx' =>
        (Step.row_advances (r.next k (hkj.trans_le hj)) hx hx').resolve_right fun h =>
          (hepoch k hik hkj).1 h.1) hrow hrow'
    exact ⟨hadvances.received, hadvances.applied⟩
  · unfold attempt at he ⊢
    split at he <;> simp_all
  -- The guard of the call gives equal revisions, and the acknowledgement that made them equal is
  -- found backwards in the run.
  · have hreachable := r.reachable hi.le
    obtain ⟨row, hrow⟩ := Store.Reachable.registered hreachable id n hn hstate
    obtain ⟨hdisabled, hsettled⟩ := Step.settled (r.next i hi) hop hchange hn hstate hrow
    obtain ⟨p, hp, hrevision, hpos, hgrants⟩ :=
      Store.Reachable.disabled_policy hreachable hn hrow hdisabled
    exact ⟨row, p, hrow, hp, hrevision, hgrants,
      r.acknowledged hi.le hrow hp hrevision hsettled (by omega)⟩

end Run

end UniDERP
