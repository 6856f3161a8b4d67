import UniDERP.Control.Freshness

namespace UniDERP

def PolicyRow.cleared (row : PolicyRow) : PolicyRow :=
  { row with receivedRevision := 0, appliedRevision := 0, derperUsable := false, policyJSON := none }

def PolicyRow.configured (row : PolicyRow) (q : QoSPolicy) : PolicyRow :=
  { row with
    budgetBPS := q.budgetBPS, ownerWeight := q.ownerWeight
    sharedWeight := q.sharedWeight, sharedMaxBPS := q.sharedMaxBPS }

inductive RowEdit (E : Env) (c : Clock) (db mid : DB) (op : Op) (S : String → Prop) (id : String) :
    Option PolicyRow → Option PolicyRow → Prop
  | kept (row : Option PolicyRow) : RowEdit E c db mid op S id row row
  | created (built : S id) (node : ∃ n, db.nodes.get? id = some n) :
      RowEdit E c db mid op S id none (some {})
  | deleted (row : Option PolicyRow) (node : mid.nodes.get? id = none) :
      RowEdit E c db mid op S id row none
  | released {row : PolicyRow} (built : S id) (node : Reissues E c db op id) :
      RowEdit E c db mid op S id (some row) (some row.cleared)
  | configured {row : PolicyRow} (built : S id) (q : QoSPolicy) :
      RowEdit E c db mid op S id (some row) (some (row.configured q))
  | received {row : PolicyRow} (revision : ℕ) :
      RowEdit E c db mid op S id (some row) (some { row with receivedRevision := revision })
  | applied {row : PolicyRow} {token : String} {ack : PolicyACK} {s : NodeSessionRow} {n : Node}
      (call : op = .acknowledgePolicy token ack) (state : ack.state = .applied)
      (session : db.liveSession E (c.read 0) token = some (s, n)) (node : s.nodeID = id)
      (usable : Bool) :
      RowEdit E c db mid op S id (some row)
        (some { row with appliedRevision := ack.revision, derperUsable := usable })

inductive RowBuild (E : Env) (id : String) (now : Int) : Option PolicyRow → Option PolicyRow → Prop
  | kept (row : Option PolicyRow) : RowBuild E id now row row
  | built {row row' : PolicyRow} {entries : List Entry} {p : Policy}
      (built : Built E id now row entries row' p) : RowBuild E id now (some row) (some row')

section Row

variable {E : Env} {c : Clock} {db mid db' : DB} {op : Op} {reply : Reply} {S : String → Prop}

theorem RowEdit.of_release {k : String} (h : Reissues E c db op k) (id : String) :
    RowEdit E c db mid op (· = k) id (db.policies.get? id) ((db.release k).policies.get? id) := by
  simp only [DB.release, Table.get?_modify]
  split_ifs with hk
  · subst hk
    cases db.policies.get? id with
    | none => exact .kept none
    | some row => exact .released rfl h
  · exact .kept _

theorem RowEdit.of_insert {k : String} {row row' : PolicyRow} (hrow : db.policies.get? k = some row)
    (h : RowEdit E c db mid op S k (some row) (some row')) (id : String) :
    RowEdit E c db mid op S id (db.policies.get? id) ((db.policies.insert k row').get? id) := by
  by_cases hk : id = k
  · subst hk
    rw [hrow, Table.get?_insert_self]
    exact h
  · rw [Table.get?_insert_ne _ _ hk]
    exact .kept _

theorem Effect.row_edit (h : Effect E c db op reply mid S) (id : String) :
    RowEdit E c db mid op S id (db.policies.get? id) (mid.policies.get? id) := by
  cases h
  case reissueEnrollment => exact .of_release (.inl ⟨_, _, rfl⟩) id
  case leaveNode hs => exact .of_release (.inr ⟨_, _, _, rfl, hs, rfl⟩) id
  case enroll req _ _ _ n _ hn _ _ _ _ _ _ _ _ _ _ _ _ =>
    cases hrow : db.policies.get? req.challenge.nodeID with
    | some row => exact .kept _
    | none =>
      dsimp only
      by_cases hk : id = req.challenge.nodeID
      · subst hk
        rw [hrow, Table.get?_insert_self]
        exact .created rfl ⟨n, hn⟩
      · rw [Table.get?_insert_ne _ _ hk]
        exact .kept _
  case deleteNode =>
    simp only [DB.deleteNode, Table.get?_erase]
    split_ifs with hk
    · exact .deleted _ (by simp [hk])
    · exact .kept _
  case setNodeQoS node q rules _ _ =>
    simp only [Table.get?_modify]
    split_ifs with hk
    · subst hk
      cases db.policies.get? id with
      | none => exact .kept none
      | some row => exact .configured (by rfl) q
    · exact .kept _
  case ackReceived hrow _ => exact .of_insert hrow (.received _) id
  case ackApplied usable _ hs hstate hrow _ =>
    exact .of_insert hrow (.applied rfl hstate hs rfl usable) id
  all_goals exact .kept _

theorem Rebuilt.row_build {now : Int} (h : Rebuilt E now S mid db') (id : String) :
    RowBuild E id now (mid.policies.get? id) (db'.policies.get? id) := by
  by_cases hS : S id
  · cases hrow : mid.policies.get? id with
    | none =>
      rw [h.row_none.mpr hrow]
      exact .kept none
    | some row =>
      obtain ⟨entries, row', p, -, -, hb, hrow'⟩ := h.built id row hS hrow
      rw [hrow']
      exact .built hb
  · rw [h.kept id hS]
    exact .kept _

end Row

section Body

variable {E : Env} {db db' : DB} {a : Commit} {id : String} {row row' : PolicyRow}

inductive BodyChange (E : Env) (db : DB) (a : Commit) (id : String) (row row' : PolicyRow) : Prop
  | same (body : row'.policyJSON = row.policyJSON)
      (revision : row'.desiredRevision = row.desiredRevision)
      (generated : row'.generatedAt = row.generatedAt)
  | next {p : Policy} (body : row'.policyJSON = some p)
      (revision : row'.desiredRevision = row.desiredRevision + 1)
      (generated : row'.generatedAt = unix p.generatedAt)
      (old : Reissues E a.clock db a.op id ∨ ∀ q, row.policyJSON = some q →
        ¬ (p.grants = q.grants ∧ p.qos = q.qos) ∧ q.generatedAt ≤ p.generatedAt)

theorem policyOf_eq {entries : List Entry} {now : Int} {revision : ℕ} {q : Policy}
    (hw : WellFormed E.unmarshalText q E.clusterID id)
    (hgrants : (policyOf E id row entries revision now).grants = q.grants)
    (hqos : (policyOf E id row entries revision now).qos = q.qos) :
    policyOf E id row entries q.revision q.generatedAt = q := by
  obtain ⟨clusterID, nodeID, revision', generatedAt, grants, qos⟩ := q
  obtain rfl : clusterID = E.clusterID := hw.cluster.2
  obtain rfl : nodeID = id := hw.node.2
  obtain rfl : _ = grants := hgrants
  obtain rfl : _ = qos := hqos
  rfl

theorem Built.body_change {mid : PolicyRow} {now : Int} {entries : List Entry} {p : Policy}
    (h : Built E id now mid entries row' p) (hbody : mid.policyJSON = row.policyJSON)
    (hrevision : mid.desiredRevision = row.desiredRevision)
    (hgenerated : mid.generatedAt = row.generatedAt) : BodyChange E db a id row row' := by
  cases h with
  | same body storable revision content => exact .same hbody hrevision hgenerated
  | next content storable old =>
    subst content
    refine .next rfl (congrArg (· + 1) hrevision) rfl (.inr fun q hq => ?_)
    obtain ⟨-, hne, hle, hw, -, -⟩ := old q (hbody.trans hq)
    exact ⟨fun ⟨hgrants, hqos⟩ => hne (policyOf_eq hw hgrants hqos), hle⟩

theorem Step.body_change (h : Step E db a db') (hrow : db.policies.get? id = some row)
    (hrow' : db'.policies.get? id = some row') : BodyChange E db a id row row' := by
  obtain ⟨mid, S, i, he, hr⟩ := exec_does h
  have hedit := he.row_edit id
  have hbuild := hr.row_build id
  rw [hrow] at hedit
  rw [hrow'] at hbuild
  generalize hmid : mid.policies.get? id = m at hedit hbuild
  -- The edits other than a release keep body, revision and time, and a build starts from those.
  have hkept : ∀ {x : PolicyRow}, m = some x → x.policyJSON = row.policyJSON →
      x.desiredRevision = row.desiredRevision → x.generatedAt = row.generatedAt →
      BodyChange E db a id row row' := by
    rintro x rfl hbody hrevision hgenerated
    generalize hs : some row' = o at hbuild
    cases hbuild with
    | kept =>
      cases hs
      exact .same hbody hrevision hgenerated
    | built hb =>
      cases hs
      exact hb.body_change hbody hrevision hgenerated
  generalize hs : some row = o at hedit
  cases hedit with
  | kept =>
    subst hs
    exact hkept rfl rfl rfl rfl
  | created => cases hs
  | deleted =>
    generalize hs' : some row' = o' at hbuild
    cases hbuild
    cases hs'
  | released built node =>
    cases hs
    obtain ⟨entries, x, p, -, -, hb, hx⟩ := hr.built id _ built hmid
    cases hx.symm.trans hrow'
    cases hb with
    | same body storable revision content => cases body
    | next content storable old =>
      subst content
      exact .next rfl rfl rfl (.inl node)
  | configured built q =>
    cases hs
    exact hkept rfl rfl rfl rfl
  | received revision =>
    cases hs
    exact hkept rfl rfl rfl rfl
  | applied call state session node usable =>
    cases hs
    exact hkept rfl rfl rfl rfl

/-- The first body of a new row, whose node was there. -/
theorem Step.row_created (h : Step E db a db') (hrow : db.policies.get? id = none)
    (hrow' : db'.policies.get? id = some row') :
    (∃ n, db.nodes.get? id = some n) ∧ ∃ p, row'.policyJSON = some p ∧ row'.desiredRevision = 1 ∧
      row'.generatedAt = unix p.generatedAt := by
  obtain ⟨mid, S, i, he, hr⟩ := exec_does h
  have hedit := he.row_edit id
  have hbuild := hr.row_build id
  rw [hrow] at hedit
  rw [hrow'] at hbuild
  have habsent : mid.policies.get? id ≠ none := by
    intro hmid
    rw [hmid] at hbuild
    generalize hs : some row' = o at hbuild
    cases hbuild
    cases hs
  generalize hmid : mid.policies.get? id = m at hedit habsent
  generalize hs : none = o at hedit
  cases hedit with
  | kept => exact absurd hs.symm habsent
  | deleted => exact absurd rfl habsent
  | created built node =>
    obtain ⟨entries, x, p, -, -, hb, hx⟩ := hr.built id _ built hmid
    cases hx.symm.trans hrow'
    refine ⟨node, ?_⟩
    cases hb with
    | same body storable revision content => cases body
    | next content storable old =>
      subst content
      exact ⟨_, rfl, rfl, rfl⟩
  | _ => cases hs

/-- A row goes only with its node. -/
theorem Step.row_deleted (h : Step E db a db') (hrow : db.policies.get? id = some row)
    (hrow' : db'.policies.get? id = none) : db'.nodes.get? id = none := by
  obtain ⟨mid, S, i, he, hr⟩ := exec_does h
  have hedit := he.row_edit id
  have hbuild := hr.row_build id
  rw [hrow'] at hbuild
  have hmid : mid.policies.get? id = none := by
    generalize mid.policies.get? id = m at hbuild ⊢
    generalize hs : none = o at hbuild
    cases hbuild with
    | kept => rfl
    | built => cases hs
  rw [hrow, hmid] at hedit
  rw [hr.frame]
  generalize hs : some row = o at hedit
  generalize hs' : none = o' at hedit
  cases hedit with
  | kept =>
    subst hs
    cases hs'
  | deleted _ node => exact node
  | _ => cases hs'

end Body

/-- A later row of the same log: the revision does not fall, and a revision keeps its body. -/
structure PolicyRow.Before (row row' : PolicyRow) : Prop where
  revision : row.desiredRevision ≤ row'.desiredRevision
  body : row.desiredRevision = row'.desiredRevision → row.policyJSON = row'.policyJSON

theorem PolicyRow.Before.refl (row : PolicyRow) : row.Before row := ⟨le_rfl, fun _ => rfl⟩

theorem PolicyRow.Before.trans {a b c : PolicyRow} (h : a.Before b) (h' : b.Before c) :
    a.Before c := by
  have hab := h.revision
  have hbc := h'.revision
  exact ⟨hab.trans hbc, fun he => (h.body (by omega)).trans (h'.body (by omega))⟩

theorem BodyChange.before {E : Env} {db : DB} {a : Commit} {id : String} {row row' : PolicyRow}
    (h : BodyChange E db a id row row') : row.Before row' := by
  cases h with
  | same body revision generated => exact ⟨revision.symm.le, fun _ => body.symm⟩
  | next body revision generated old => exact ⟨by omega, fun he => by omega⟩

section Log

variable {E : Env}

/-- The row of a stored body has the body's time, in seconds. -/
theorem Store.Reachable.dated {db : DB} (h : Store.Reachable E db) {id : String} {row : PolicyRow}
    {p : Policy} (hrow : db.policies.get? id = some row) (hp : row.policyJSON = some p) :
    row.generatedAt = unix p.generatedAt := by
  revert id row p
  refine Reachable.invariant h (I := fun db => ∀ {id row p}, db.policies.get? id = some row →
    row.policyJSON = some p → row.generatedAt = unix p.generatedAt) ?_ fun db a db' _ ih hstep => ?_
  · rintro s rfl id row p hrow
    simp [DB.empty] at hrow
  · intro id row' p hrow' hp
    cases hrow : db.policies.get? id with
    | none =>
      obtain ⟨-, q, hq, -, hdate⟩ := Step.row_created hstep hrow hrow'
      cases hp.symm.trans hq
      exact hdate
    | some row =>
      cases Step.body_change hstep hrow hrow' with
      | same body revision generated => exact generated.trans (ih hrow (body.symm.trans hp))
      | next body revision generated old =>
        cases hp.symm.trans body
        exact generated

theorem Fresh.body {db : DB} (h : Fresh E db) {id : String} {row : PolicyRow}
    (hrow : db.policies.get? id = some row) :
    ∃ p, row.policyJSON = some p ∧ p.revision = row.desiredRevision := by
  obtain ⟨-, p, -, hp, hrevision, -⟩ := h id row hrow
  exact ⟨p, hp, hrevision⟩

theorem Fresh.node {db : DB} (h : Fresh E db) {id : String} {row : PolicyRow}
    (hrow : db.policies.get? id = some row) : ∃ n, db.nodes.get? id = some n := by
  obtain ⟨_, _, hproj, -⟩ := h id row hrow
  obtain ⟨n, -, hn, -⟩ := hproj.entries
  exact ⟨n, hn⟩

/-- As long as the id is not taken by another new node, a relation that every step keeps between
the row of a node and its later row relates any two rows of the run in order. -/
theorem Store.Run.rows_related (r : Store.Run E) (id : String) {R : PolicyRow → PolicyRow → Prop}
    (hrefl : ∀ row, R row row) (htrans : ∀ a b c, R a b → R b c → R a c) {i j : ℕ} (hij : i ≤ j)
    (hj : j ≤ r.len) (hfresh : ∀ k, i ≤ k → k < j → (r.label k).op.creates id = false)
    (hstep : ∀ k row row', i ≤ k → k < j → (r.state k).policies.get? id = some row →
      (r.state (k + 1)).policies.get? id = some row' → R row row')
    {row row' : PolicyRow} (hrow : (r.state i).policies.get? id = some row)
    (hrow' : (r.state j).policies.get? id = some row') : R row row' := by
  -- The node stays, or is gone for good.
  have hstays := r.preserved (P := fun db => (∃ x, db.policies.get? id = some x ∧ R row x) ∨
      db.nodes.get? id = none) hij (.inl ⟨row, hrow, hrefl row⟩) fun k hik hkj hk => ?_
  · rcases hstays with ⟨x, hx, hR⟩ | hgone
    · cases hrow'.symm.trans hx
      exact hR
    · obtain ⟨n, hn⟩ := (Store.Reachable.fresh (r.reachable hj)).node hrow'
      simp [hgone] at hn
  · have hk' := r.next k (hkj.trans_le hj)
    rcases hk with ⟨x, hx, hR⟩ | hgone
    · cases hx' : (r.state (k + 1)).policies.get? id with
      | none => exact .inr (Step.row_deleted hk' hx hx')
      | some x' => exact .inl ⟨x', rfl, htrans _ _ _ hR (hstep k x x' hik hkj hx hx')⟩
    · refine .inr (Option.eq_none_iff_forall_ne_some.mpr fun n hn => ?_)
      rcases Step.origin hk' hn with hcreates | ⟨n₀, hn₀, -⟩
      · simp [hfresh k hik hkj] at hcreates
      · simp [hgone] at hn₀

/-- In every run and for every node: the stored body has the desired revision and its time; the
revision never falls and never gets a second body, unless the node is deleted and its id is drawn
again; a step keeps the body or stores the next revision, and one that stores the same grants and
settings, other than a release, keeps the body; and within one enrollment no body is dated before
an older one. -/
theorem Store.Run.revision_log (r : Store.Run E) (id : String) :
    (∀ i ≤ r.len, ∀ row, (r.state i).policies.get? id = some row →
      ∃ p, row.policyJSON = some p ∧ p.revision = row.desiredRevision ∧
        row.generatedAt = unix p.generatedAt) ∧
    (∀ i j, i ≤ j → j ≤ r.len → ∀ row row', (r.state i).policies.get? id = some row →
      (r.state j).policies.get? id = some row' →
      (∃ k, i ≤ k ∧ k < j ∧ (r.label k).op.creates id) ∨
        row.desiredRevision ≤ row'.desiredRevision ∧
        (row.desiredRevision = row'.desiredRevision → row.policyJSON = row'.policyJSON)) ∧
    (∀ i < r.len, ∀ row', (r.state (i + 1)).policies.get? id = some row' →
      ((r.state i).policies.get? id = none → row'.desiredRevision = 1) ∧
      ∀ row, (r.state i).policies.get? id = some row →
        (row'.policyJSON = row.policyJSON ∧ row'.desiredRevision = row.desiredRevision ∨
          row'.policyJSON ≠ row.policyJSON ∧ row'.desiredRevision = row.desiredRevision + 1) ∧
        ∀ q p, row.policyJSON = some q → row'.policyJSON = some p → p.grants = q.grants →
          p.qos = q.qos → ¬ Reissues E (r.label i).clock (r.state i) (r.label i).op id →
          p = q ∧ row'.desiredRevision = row.desiredRevision) ∧
    ∀ i j, i ≤ j → j ≤ r.len →
      (∀ k, i ≤ k → k < j → ¬ Reissues E (r.label k).clock (r.state k) (r.label k).op id ∧
        (r.label k).op.creates id = false) →
      ∀ row row' q p, (r.state i).policies.get? id = some row →
        (r.state j).policies.get? id = some row' → row.policyJSON = some q →
        row'.policyJSON = some p → q.generatedAt ≤ p.generatedAt := by
  refine ⟨fun i hi row hrow => ?_, fun i j hij hj row row' hrow hrow' => ?_,
    fun i hi row' hrow' => ⟨fun hnone => ?_, fun row hrow => ⟨?_, ?_⟩⟩,
    fun i j hij hj hepoch row row' q p hrow hrow' hq hp => ?_⟩
  · obtain ⟨p, hp, hrevision⟩ := (Store.Reachable.fresh (r.reachable hi)).body hrow
    exact ⟨p, hp, hrevision, Store.Reachable.dated (r.reachable hi) hrow hp⟩
  · by_cases hcreated : ∃ k, i ≤ k ∧ k < j ∧ (r.label k).op.creates id
    · exact .inl hcreated
    · have hbefore := r.rows_related id PolicyRow.Before.refl (fun _ _ _ => .trans) hij hj
        (fun k hik hkj => Bool.eq_false_iff.mpr fun hk => hcreated ⟨k, hik, hkj, hk⟩)
        (fun k x x' _ hkj hx hx' => (Step.body_change (r.next k (hkj.trans_le hj)) hx hx').before)
        hrow hrow'
      exact .inr ⟨hbefore.revision, hbefore.body⟩
  · obtain ⟨-, p, -, hone, -⟩ := Step.row_created (r.next i hi) hnone hrow'
    exact hone
  · cases Step.body_change (r.next i hi) hrow hrow' with
    | same body revision generated => exact .inl ⟨body, revision⟩
    | next body revision generated old =>
      refine .inr ⟨fun hsame => ?_, revision⟩
      obtain ⟨q, hq, hq'⟩ := (Store.Reachable.fresh (r.reachable hi.le)).body hrow
      obtain ⟨p, hp, hp'⟩ := (Store.Reachable.fresh (r.reachable hi)).body hrow'
      rw [hp, hq, Option.some.injEq] at hsame
      subst hsame
      omega
  · intro q p hq hp hgrants hqos hreleased
    cases Step.body_change (r.next i hi) hrow hrow' with
    | same body revision generated =>
      rw [hp, hq, Option.some.injEq] at body
      exact ⟨body, revision⟩
    | next body revision generated old =>
      cases hp.symm.trans body
      exact absurd ⟨hgrants, hqos⟩ ((old.resolve_left hreleased) q hq).1
  · have hlater := r.rows_related id (R := fun row row' => ∀ q, row.policyJSON = some q →
        ∃ p, row'.policyJSON = some p ∧ q.generatedAt ≤ p.generatedAt)
      (fun row q hq => ⟨q, hq, le_rfl⟩)
      (fun a b c hab hbc q hq => by
        obtain ⟨q', hq', hle⟩ := hab q hq
        obtain ⟨p', hp', hle'⟩ := hbc q' hq'
        exact ⟨p', hp', hle.trans hle'⟩) hij hj
      (fun k hik hkj => (hepoch k hik hkj).2) (fun k x x' hik hkj hx hx' q hq => ?_) hrow hrow'
    · obtain ⟨p', hp', hle⟩ := hlater q hq
      cases hp.symm.trans hp'
      exact hle
    · cases Step.body_change (r.next k (hkj.trans_le hj)) hx hx' with
      | same body revision generated => exact ⟨q, body.trans hq, le_rfl⟩
      | next body revision generated old =>
        exact ⟨_, body, ((old.resolve_left (hepoch k hik hkj).1) q hq).2⟩

end Log

end UniDERP
