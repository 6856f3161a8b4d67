import UniDERP.Control.GrantRevisions
import UniDERP.Control.Revisions
import UniDERP.Control.Streams

namespace UniDERP

section Commit

variable {E : Env} {c : Clock} {db mid db' : DB} {op : Op} {reply : Reply} {S : String → Prop}
  {id : String}

theorem Raises.other {k : Pair} {expected revision : ℕ} {s : GrantState}
    (h : Raises db db' k expected s) (hrevision : revision = expected + 1) :
    ((db.grants.get? k).any fun old => old.revision = revision) = false := by
  have hbefore := h.before
  cases hg : db.grants.get? k with
  | none => rfl
  | some g =>
    rw [hg, Option.elim_some] at hbefore
    simp only [Option.any_some, decide_eq_false_iff_not]
    omega

theorem requestGrant_repeated {actor : Actor} {node tailnet : String} {expected : ℕ} {until_ : Int}
    {token : Token} {v : GrantView}
    (h : requestGrant E c actor node tailnet expected until_ token db = .ok (db', v))
    (hsame : (db.grants.get? (pair node tailnet)).any fun old => old.revision = v.revision) :
    db' = db := by
  obtain ⟨ps, -, ⟨g, -, -, hidle, -⟩ | ⟨-, hraises, hrevision⟩⟩ := requestGrant_result h
  · exact hidle
  · simp [hraises.other hrevision] at hsame

theorem applyGrantAction_repeated {actor : Actor} {gid : String} {expected : ℕ}
    {action : GrantAction} {v : GrantView}
    (h : applyGrantAction E c actor gid expected action db = .ok (db', v))
    (hsame : (db.grants.get? (pair v.nodeID v.tailnetID)).any fun old => old.revision = v.revision) :
    db' = db := by
  obtain ⟨k, g, -, -, hnode, htailnet, ⟨-, -, hidle, -⟩ | ⟨-, hraises, hrevision⟩⟩ :=
    applyGrantAction_result h
  · exact hidle
  · rw [hnode, htailnet, pair_ofLex] at hsame
    simp [hraises.other hrevision] at hsame

theorem nodeHeartbeat_nodeID {token : String} {report : Option NodeReport} {r : HeartbeatReply}
    {s : NodeSessionRow} {n : Node} (h : nodeHeartbeat E c token report db = .ok (db', r))
    (hs : db.liveSession E (c.read 0) token = some (s, n)) : r.nodeID = s.nodeID := by
  simp only [nodeHeartbeat, Except_bind_eq_ok, nodeSession_eq_ok, Prod.exists] at h
  obtain ⟨_, ⟨-, s', n', hs', rfl⟩, mid, p, -, h⟩ := h
  cases hs.symm.trans hs'
  cases report <;> simp only [Except_bind_eq_ok, Except_pure_eq_ok, Prod.mk.injEq] at h <;>
    obtain ⟨_, -, _, -, -, rfl⟩ := h <;> rfl

/-- A transaction that builds a node's policy signals its stream, or leaves the node no session but
the one it mints. -/
theorem Step.noticed {a : Commit} (h : Step E db a db') (hunique : UniqueGrants db) {row' : PolicyRow}
    (hrow' : db'.policies.get? id = some row') :
    (∃ row, db.policies.get? id = some row ∧ row.desiredRevision = row'.desiredRevision) ∨
      (∃ n, a.op.notice E a.clock db a.reply = some n ∧ n.covers id) ∨
      ∀ k s, db'.nodeSessions.get? k = some s → s.nodeID = id →
        ∃ t ∈ a.op.randomTokens, k = E.tokenHash t := by
  by_cases hidle : db' = db
  · exact .inl ⟨row', hidle ▸ hrow', rfl⟩
  obtain ⟨op, c, reply⟩ := a
  obtain ⟨mid, S, i, he, hr⟩ := exec_does h
  by_cases hS : S id
  · have hsessions : db'.nodeSessions = mid.nodeSessions := by rw [hr.frame]
    rw [hsessions]
    have hvacant : ∀ {k : String} {s : NodeSessionRow} {node : String},
        (db.nodeSessions.delete fun _ r => r.nodeID = node).get? k = some s → s.nodeID ≠ node := by
      intro k s node hs
      simpa using (Table.get?_delete_eq_some.mp hs).2
    have hminted : ∀ {s : NodeSession} {t : Token}, s.nodeID = id → s.token = t.text →
        ∀ k r, (db.withSession E s).get? k = some r → r.nodeID = id → k = E.tokenHash t.text := by
      intro s t hnode htoken k r hget hr
      rcases Table.get?_insert_eq_some.mp hget with ⟨rfl, -⟩ | ⟨-, hold⟩
      · rw [htoken]
      · exact absurd (hr.trans hnode.symm) (hvacant hold)
    cases he
    case reissueEnrollment =>
      refine .inr (.inr fun k s hs hnode => ?_)
      exact absurd (hnode.trans hS) (hvacant hs)
    case leaveNode =>
      refine .inr (.inr fun k s hs hnode => ?_)
      exact absurd (hnode.trans hS) (hvacant hs)
    case enroll req token _ _ _ _ _ _ _ _ _ _ _ _ _ _ _ _ hmint =>
      refine .inr (.inr fun k s hs hnode => ⟨token.text, by simp [Op.randomTokens], ?_⟩)
      exact hminted (by rw [hmint]; exact hS.symm) (by rw [hmint]) k s hs hnode
    case requestGrant =>
      simp only [Step, exec, answer_eq_ok] at h
      obtain ⟨v, h, hv⟩ := h
      obtain rfl := Reply.grant.inj hv
      refine .inr (.inl ⟨.policy id, ?_, by simp [Notice.covers]⟩)
      rw [Op.notice, if_neg fun hsame => hidle (requestGrant_repeated h hsame), hS]
    case applyGrantAction k g ps hg hid _ _ _ _ _ =>
      simp only [Step, exec, answer_eq_ok] at h
      obtain ⟨v, h, hv⟩ := h
      obtain rfl := Reply.grant.inj hv
      obtain ⟨k', g', hg', hid', hnode, -⟩ := applyGrantAction_result h
      obtain rfl := hunique k k' g g' hg hg' (hid.trans hid'.symm)
      refine .inr (.inl ⟨.policy id, ?_, by simp [Notice.covers]⟩)
      rw [Op.notice, if_neg fun hsame => hidle (applyGrantAction_repeated h hsame), hS, hnode]
    case nodeHeartbeat hs =>
      simp only [Step, exec, answer_eq_ok] at h
      obtain ⟨v, h, hv⟩ := h
      obtain rfl := Reply.heartbeat.inj hv
      exact .inr (.inl ⟨_, rfl, by simp [Notice.covers, nodeHeartbeat_nodeID h hs, hS]⟩)
    all_goals first
      | exact hS.elim
      | exact .inr (.inl ⟨_, rfl, by simp [Notice.covers, hS]⟩)
  · refine .inl ?_
    have hkept := hr.kept id hS
    have hedit := he.row_edit id
    rw [← hkept, hrow'] at hedit
    generalize hs' : some row' = o' at hedit
    generalize hs : db.policies.get? id = o at hedit
    cases hedit with
    | kept => exact ⟨row', hs'.symm, rfl⟩
    | created built => exact absurd built hS
    | deleted => cases hs'
    | released built => exact absurd built hS
    | configured built => exact absurd built hS
    | received =>
      cases hs'
      exact ⟨_, rfl, rfl⟩
    | applied =>
      cases hs'
      exact ⟨_, rfl, rfl⟩

/-- Sessions of nodes come only from tokens that are drawn. -/
theorem Effect.session_origin (h : Effect E c db op reply mid S) {k : String} {s : NodeSessionRow}
    (hs : mid.nodeSessions.get? k = some s) :
    db.nodeSessions.get? k = some s ∨ ∃ t ∈ op.randomTokens, k = E.tokenHash t := by
  have hdelete : ∀ {node : String},
      (db.nodeSessions.delete fun _ r => r.nodeID = node).get? k = some s →
      db.nodeSessions.get? k = some s := fun h => (Table.get?_delete_eq_some.mp h).1
  have hmint : ∀ {session : NodeSession}, (db.withSession E session).get? k = some s →
      db.nodeSessions.get? k = some s ∨ k = E.tokenHash session.token := by
    intro session h
    rcases Table.get?_insert_eq_some.mp h with ⟨rfl, -⟩ | ⟨-, h⟩
    · exact .inr rfl
    · exact .inl (hdelete h)
  cases h
  case reissueEnrollment => exact .inl (hdelete hs)
  case leaveNode => exact .inl (hdelete hs)
  case enroll token _ _ _ _ _ _ _ _ _ _ _ _ _ _ hminted _ _ =>
    refine (hmint hs).imp_right fun hk => ⟨token.text, by simp [Op.randomTokens], ?_⟩
    rw [hk, hminted]
  case renew token _ _ _ _ _ _ _ _ _ hminted _ =>
    refine (hmint hs).imp_right fun hk => ⟨token.text, by simp [Op.randomTokens], ?_⟩
    rw [hk, hminted]
  case refuse => exact .inl (hdelete hs)
  case recover => exact .inl (hdelete hs)
  case deleteNode => exact .inl (hdelete hs)
  case changeNodeDomain => exact .inl (hdelete hs)
  all_goals exact .inl hs

theorem Step.session_origin {a : Commit} (h : Step E db a db') {k : String} {s : NodeSessionRow}
    (hs : db'.nodeSessions.get? k = some s) :
    db.nodeSessions.get? k = some s ∨ ∃ t ∈ a.op.randomTokens, k = E.tokenHash t := by
  obtain ⟨mid, S, i, he, hr⟩ := exec_does h
  rw [hr.frame] at hs
  exact he.session_origin hs

theorem Op.creates_drawn (h : op.creates id) : id ∈ op.randomTokens := by
  cases op <;> simp_all [Op.creates, Op.randomTokens]

end Commit

def StreamPhase.policy : StreamPhase → Option Policy
  | .first p | .greet p | .read p | .update p | .farewell p => some p
  | _ => none

def StreamPhase.greeted : StreamPhase → Bool
  | .waiting | .signalled | .read _ | .update _ | .farewell _ => true
  | _ => false

namespace ControlStream

/-- The revisions that a handler holds or has written, the latest first. -/
def revisions (s : ControlStream) : List ℕ :=
  (s.phase.policy.toList ++ s.written).map (·.revision)

/-- The revision that the node has, or will have unless the session ends. -/
def seen (s : ControlStream) : Option ℕ :=
  match s.phase with
  | .first p | .greet p | .read p | .update p => some p.revision
  | .waiting => some s.last
  | _ => none

structure Tracks (E : Env) (drawn : List String) (db : DB) (s : ControlStream) : Prop where
  node : s.nodeID ∈ drawn
  token : s.token ∈ drawn
  session : ∀ row, db.nodeSessions.get? (E.tokenHash s.token) = some row → row.nodeID = s.nodeID
  home : (∃ row, db.policies.get? s.nodeID = some row) ∨ db.nodes.get? s.nodeID = none
  sorted : s.revisions.Pairwise (· ≥ ·)
  bound : ∀ row, db.policies.get? s.nodeID = some row →
    ∀ v ∈ s.revisions, v ≤ row.desiredRevision
  last : s.phase.greeted → ∃ p ps, s.written = p :: ps ∧ p.revision = s.last

/-- A signal is there or due unless the handler has the stored revision. -/
def Informed (E : Env) (h : Hub) (s : ControlStream) : Prop :=
  ∀ v row, s.seen = some v → h.db.policies.get? s.nodeID = some row →
    h.db.nodeSessions.get? (E.tokenHash s.token) ≠ none →
    v = row.desiredRevision ∨ s.changed ∨ ∃ n ∈ h.due, n.covers s.nodeID

end ControlStream

structure AllDrawn (E : Env) (drawn : List String) (db : DB) : Prop where
  nodes : ∀ id n, db.nodes.get? id = some n → id ∈ drawn
  sessions : ∀ k s, db.nodeSessions.get? k = some s → ∃ t ∈ drawn, k = E.tokenHash t

namespace Hub

structure Inv (E : Env) (h : Hub) : Prop where
  reachable : Store.Reachable E h.db
  drawn : AllDrawn E h.drawn h.db
  tracks : ∀ x s, h.streams.get? x = some s → s.Tracks E h.drawn h.db
  informed : ∀ x s, h.streams.get? x = some s → h.policyStreams.get? s.nodeID = some x →
    s.Informed E h

end Hub

section Preserve

variable {E : Env} {h h' : Hub} {db db' : DB} {drawn : List String} {a : Commit} {s : ControlStream}

theorem AllDrawn.commit (hd : AllDrawn E drawn db) (hstep : Step E db a db') :
    AllDrawn E (a.op.randomTokens ++ drawn) db' where
  nodes id n hn := by
    rcases hstep.origin hn with hcreates | ⟨n₀, hn₀, -⟩
    · exact List.mem_append_left _ (Op.creates_drawn hcreates)
    · exact List.mem_append_right _ (hd.nodes id n₀ hn₀)
  sessions k r hr := by
    rcases hstep.session_origin hr with hold | ⟨t, ht, hk⟩
    · obtain ⟨t, ht, hk⟩ := hd.sessions k r hold
      exact ⟨t, List.mem_append_right _ ht, hk⟩
    · exact ⟨t, List.mem_append_left _ ht, hk⟩

theorem ControlStream.Tracks.session_kept (ht : s.Tracks E drawn db) (hstep : Step E db a db')
    (hfresh : ∀ t ∈ a.op.randomTokens, t ∉ drawn) {row : NodeSessionRow}
    (hrow : db'.nodeSessions.get? (E.tokenHash s.token) = some row) :
    db.nodeSessions.get? (E.tokenHash s.token) = some row := by
  rcases hstep.session_origin hrow with hold | ⟨t, ht', hk⟩
  · exact hold
  · rw [← E.tokenHash_injective hk] at ht'
    exact absurd ht.token (hfresh _ ht')

theorem ControlStream.Tracks.row_kept (ht : s.Tracks E drawn db) (hstep : Step E db a db')
    {row' : PolicyRow} (hrow' : db'.policies.get? s.nodeID = some row') :
    ∃ row, db.policies.get? s.nodeID = some row ∧ row.desiredRevision ≤ row'.desiredRevision := by
  cases hrow : db.policies.get? s.nodeID with
  | some row => exact ⟨row, rfl, (hstep.body_change hrow hrow').before.revision⟩
  | none =>
    obtain ⟨⟨n, hn⟩, -⟩ := hstep.row_created hrow hrow'
    rcases ht.home with ⟨row, hsome⟩ | hnone
    · cases hrow.symm.trans hsome
    · cases hn.symm.trans hnone

theorem ControlStream.Tracks.commit (ht : s.Tracks E drawn db) (hstep : Step E db a db')
    (hfresh : ∀ t ∈ a.op.randomTokens, t ∉ drawn) :
    s.Tracks E (a.op.randomTokens ++ drawn) db' where
  node := List.mem_append_right _ ht.node
  token := List.mem_append_right _ ht.token
  session row hrow := ht.session row (ht.session_kept hstep hfresh hrow)
  home := by
    cases hrow' : db'.policies.get? s.nodeID with
    | some row' => exact .inl ⟨row', rfl⟩
    | none =>
      refine .inr ?_
      rcases ht.home with ⟨row, hrow⟩ | hnone
      · exact hstep.row_deleted hrow hrow'
      · refine Option.eq_none_iff_forall_ne_some.mpr fun n hn => ?_
        rcases hstep.origin hn with hcreates | ⟨n₀, hn₀, -⟩
        · exact hfresh _ (Op.creates_drawn hcreates) ht.node
        · cases hn₀.symm.trans hnone
  sorted := ht.sorted
  bound row' hrow' v hv := by
    obtain ⟨row, hrow, hle⟩ := ht.row_kept hstep hrow'
    exact (ht.bound row hrow v hv).trans hle
  last := ht.last

theorem ControlStream.Informed.commit (hi : s.Informed E h) (ht : s.Tracks E h.drawn h.db)
    (hr : Store.Reachable E h.db) (hstep : Step E h.db a h'.db)
    (hfresh : ∀ t ∈ a.op.randomTokens, t ∉ h.drawn)
    (hdue : h'.due = (a.op.notice E a.clock h.db a.reply).toList ++ h.due) : s.Informed E h' := by
  intro v row' hv hrow' hsession
  obtain ⟨r, hr'⟩ := Option.ne_none_iff_exists'.mp hsession
  have hkept := ht.session_kept hstep hfresh hr'
  rcases hstep.noticed hr.unique_grants hrow' with ⟨row, hrow, hsame⟩ | ⟨n, hn, hcovers⟩ | hminted
  · rcases hi v row hv hrow (by simp [hkept]) with heq | hchanged | ⟨n, hn, hcovers⟩
    · exact .inl (heq.trans hsame)
    · exact .inr (.inl hchanged)
    · exact .inr (.inr ⟨n, hdue ▸ List.mem_append_right _ hn, hcovers⟩)
  · exact .inr (.inr ⟨n, by simp [hdue, hn], hcovers⟩)
  · obtain ⟨t, ht', hk⟩ := hminted _ r hr' (ht.session r hkept)
    rw [← E.tokenHash_injective hk] at ht'
    exact absurd ht.token (hfresh _ ht')

theorem ControlStream.Tracks.flags (ht : s.Tracks E drawn db) (changed done : Bool) :
    ControlStream.Tracks E drawn db { s with changed := changed, done := done } :=
  ⟨ht.node, ht.token, ht.session, ht.home, ht.sorted, ht.bound, ht.last⟩

theorem ControlStream.Tracks.phase (ht : s.Tracks E drawn db) {next : StreamPhase}
    (hpolicy : next.policy = none ∨ next.policy = s.phase.policy)
    (hgreeted : next.greeted → s.phase.greeted) :
    ControlStream.Tracks E drawn db { s with phase := next } := by
  have hsub : (next.policy.toList ++ s.written).Sublist (s.phase.policy.toList ++ s.written) := by
    rcases hpolicy with hnone | hsame
    · rw [hnone]
      exact List.sublist_append_right _ _
    · rw [hsame]
  exact ⟨ht.node, ht.token, ht.session, ht.home, ht.sorted.sublist (hsub.map _),
    fun row hrow v hv => ht.bound row hrow v ((hsub.map _).subset hv),
    fun h => ht.last (hgreeted h)⟩

theorem currentPolicy_revision {id : String} {p : Policy} (hf : Fresh E db)
    (hp : currentPolicy E id db = .ok p) :
    ∃ row, db.policies.get? id = some row ∧ row.policyJSON = some p ∧
      p.revision = row.desiredRevision := by
  simp only [currentPolicy, Except_bind_eq_ok, orElse_eq_ok, decodePolicy_eq_ok] at hp
  obtain ⟨row, hrow, body, hbody, -, -, rfl⟩ := hp
  obtain ⟨entries, q, -, hq, hrevision, -, -⟩ := hf id row hrow
  obtain rfl := Option.some.inj (hbody.symm.trans hq)
  exact ⟨row, hrow, hbody, hrevision⟩

/-- A handler that has just read the policy. -/
theorem ControlStream.Tracks.reads (ht : s.Tracks E drawn db) (hf : Fresh E db) {p : Policy}
    (hp : currentPolicy E s.nodeID db = .ok p) {next : StreamPhase} (hnext : next.policy = some p)
    (hphase : s.phase.policy = none) (hgreeted : next.greeted → s.phase.greeted) :
    ControlStream.Tracks E drawn db { s with phase := next } := by
  obtain ⟨row, hrow, -, hrevision⟩ := currentPolicy_revision hf hp
  have hwritten : ∀ v ∈ s.written.map (·.revision), v ≤ row.desiredRevision := by
    intro v hv
    refine ht.bound row hrow v ?_
    rw [revisions, hphase]
    exact hv
  have hrevisions : ControlStream.revisions { s with phase := next } =
      p.revision :: s.written.map (·.revision) := by
    simp [revisions, hnext]
  refine ⟨ht.node, ht.token, ht.session, ht.home, ?_, fun row' hrow' v hv => ?_,
    fun h => ht.last (hgreeted h)⟩
  · rw [hrevisions, List.pairwise_cons]
    refine ⟨fun v hv => hrevision ▸ hwritten v hv, ?_⟩
    have hsorted := ht.sorted
    rw [revisions, hphase] at hsorted
    exact hsorted
  · cases hrow.symm.trans hrow'
    rw [hrevisions, List.mem_cons] at hv
    rcases hv with rfl | hv
    · exact hrevision.le
    · exact hwritten v hv

theorem ControlStream.Tracks.writes (ht : s.Tracks E drawn db) {p : Policy}
    (hphase : s.phase.policy = some p) {next : StreamPhase} (hnext : next.policy = none) :
    ControlStream.Tracks E drawn db
      { s with phase := next, last := p.revision, written := p :: s.written } := by
  have hrevisions : ControlStream.revisions
      { s with phase := next, last := p.revision, written := p :: s.written } = s.revisions := by
    simp [revisions, hnext, hphase]
  exact ⟨ht.node, ht.token, ht.session, ht.home, hrevisions ▸ ht.sorted,
    fun row hrow v hv => ht.bound row hrow v (hrevisions ▸ hv), fun _ => ⟨p, _, rfl, rfl⟩⟩

theorem ControlStream.Tracks.moves (ht : s.Tracks E drawn db) (hf : Fresh E db) {step : StreamStep}
    {s' : ControlStream} (hm : s.Moves E db step s') : s'.Tracks E drawn db := by
  cases hm with
  | ends => exact ht.phase (.inl rfl) (by simp [StreamPhase.greeted])
  | first hphase hp =>
    exact ht.reads hf hp rfl (by simp [hphase, StreamPhase.policy]) (by simp [StreamPhase.greeted])
  | read hphase hp =>
    exact ht.reads hf hp rfl (by simp [hphase, StreamPhase.policy])
      (by simp [hphase, StreamPhase.greeted])
  | greet hphase =>
    exact ht.phase (.inr (by simp [hphase, StreamPhase.policy])) (by simp [StreamPhase.greeted])
  | update hphase =>
    exact ht.phase (.inr (by simp [hphase, StreamPhase.policy]))
      (by simp [hphase, StreamPhase.greeted])
  | settle hphase => exact ht.phase (.inl rfl) (by simp [hphase, StreamPhase.greeted])
  | farewell hphase =>
    exact ht.phase (.inr (by simp [hphase, StreamPhase.policy]))
      (by simp [hphase, StreamPhase.greeted])
  | write hphase =>
    rcases hphase with hphase | hphase <;>
      exact ht.writes (by simp [hphase, StreamPhase.policy]) rfl
  | lastWrite hphase => exact ht.writes (by simp [hphase, StreamPhase.policy]) rfl
  | take hphase =>
    have hsignalled : ControlStream.Tracks E _ _ { s with phase := .signalled } :=
      ht.phase (.inl rfl) (by simp [hphase, StreamPhase.greeted])
    exact hsignalled.flags false s.done
  | ping => exact ht

theorem ControlStream.Informed.moves (hi : s.Informed E h) (hf : Fresh E h.db) {step : StreamStep}
    {s' : ControlStream} (hm : s.Moves E h.db step s') : s'.Informed E h := by
  -- A handler that goes on with the same revision, or that has none.
  have hsame : ∀ {next : StreamPhase}, ControlStream.seen { s with phase := next } = s.seen →
      ControlStream.Informed E h { s with phase := next } := fun heq v row hv =>
    hi v row (heq ▸ hv)
  have hread : ∀ {next : StreamPhase} {p : Policy}, currentPolicy E s.nodeID h.db = .ok p →
      ControlStream.seen { s with phase := next } = some p.revision →
      ControlStream.Informed E h { s with phase := next } := by
    intro next p hp hseen v row hv hrow hsession
    obtain ⟨row', hrow', -, hrevision⟩ := currentPolicy_revision hf hp
    cases hrow'.symm.trans hrow
    exact .inl (Option.some.inj (hv.symm.trans hseen) ▸ hrevision)
  cases hm with
  | ends => exact fun v row hv => by cases hv
  | first hphase hp => exact hread hp rfl
  | read hphase hp => exact hread hp rfl
  | greet hphase => exact hsame (by simp [seen, hphase])
  | update hphase => exact hsame (by simp [seen, hphase])
  | settle hphase _ heq => exact hsame (by simp [seen, hphase, heq])
  | farewell => exact fun v row hv => by cases hv
  | write hphase =>
    intro v row hv
    refine hi v row ?_
    rcases hphase with hphase | hphase <;> simpa [seen, hphase] using hv
  | lastWrite => exact fun v row hv => by cases hv
  | take => exact fun v row hv => by cases hv
  | ping => exact hi

end Preserve

namespace Hub

variable {E : Env} {h h' : Hub} {x : ℕ}

def Tells (h h' : Hub) : Prop := ∀ x s', h'.streams.get? x = some s' →
  ∃ s changed done, h.streams.get? x = some s ∧ s' = { s with changed := changed, done := done } ∧
    (s.changed → changed)

theorem Tells.refl (h : Hub) : h.Tells h := fun _ s hs => ⟨s, s.changed, s.done, hs, rfl, fun h => h⟩

theorem stop_tells (h : Hub) (y : ℕ) : h.Tells (h.stop y) := by
  intro x s' hs'
  obtain ⟨s, hs, rfl⟩ := Table.get?_modify_eq_some.mp hs'
  split_ifs
  · exact ⟨s, s.changed, true, hs, rfl, fun h => h⟩
  · exact ⟨s, s.changed, s.done, hs, rfl, fun h => h⟩

structure Notified (n : Notice) (h h' : Hub) : Prop where
  frame : h'.db = h.db ∧ h'.drawn = h.drawn ∧ h'.due = h.due
  tells : h.Tells h'
  registered : ∀ id x, h'.policyStreams.get? id = some x → h.policyStreams.get? id = some x
  signals : ∀ id x s, n.covers id → h.policyStreams.get? id = some x →
    h'.streams.get? x = some s → s.changed

theorem notify_notified (h : Hub) (n : Notice) : Notified n h (h.notify n) := by
  cases n with
  | policy id =>
    cases hx : h.policyStreams.get? id with
    | none =>
      simp only [notify, hx]
      refine ⟨⟨rfl, rfl, rfl⟩, .refl h, fun _ _ h => h, fun k x s hk hreg _ => ?_⟩
      obtain rfl : id = k := by simpa [Notice.covers] using hk
      cases hx.symm.trans hreg
    | some y =>
      simp only [notify, hx]
      refine ⟨⟨rfl, rfl, rfl⟩, fun x s' hs' => ?_, fun _ _ h => h, fun k x s hk hreg hs => ?_⟩
      · obtain ⟨s, hs, rfl⟩ := Table.get?_modify_eq_some.mp hs'
        split_ifs
        · exact ⟨s, true, s.done, hs, rfl, fun _ => rfl⟩
        · exact ⟨s, s.changed, s.done, hs, rfl, fun h => h⟩
      · obtain rfl : id = k := by simpa [Notice.covers] using hk
        cases hx.symm.trans hreg
        obtain ⟨s₀, -, rfl⟩ := Table.get?_modify_eq_some.mp hs
        simp
  | policies =>
    refine ⟨⟨rfl, rfl, rfl⟩, fun x s' hs' => ?_, fun _ _ h => h, fun k x s _ hreg hs => ?_⟩
    · simp only [notify, Table.get?_update, Option.map_eq_some_iff] at hs'
      obtain ⟨s, hs, rfl⟩ := hs'
      split_ifs
      · exact ⟨s, true, s.done, hs, rfl, fun _ => rfl⟩
      · exact ⟨s, s.changed, s.done, hs, rfl, fun h => h⟩
    · simp only [notify, Table.get?_update, Option.map_eq_some_iff] at hs
      obtain ⟨s₀, -, rfl⟩ := hs
      have hany : h.policyStreams.any (fun _ y => y = x) = true :=
        Table.any_eq_true.mpr ⟨k, x, hreg, by simp⟩
      simp [hany]
  | close id =>
    cases hx : h.policyStreams.get? id with
    | none =>
      simp only [notify, hx]
      exact ⟨⟨rfl, rfl, rfl⟩, .refl h, fun _ _ h => h, fun _ _ _ hk => by cases hk⟩
    | some y =>
      simp only [notify, hx]
      refine ⟨⟨rfl, rfl, rfl⟩, stop_tells h y, fun k x hreg => ?_, fun _ _ _ hk => by cases hk⟩
      exact (Table.get?_delete_eq_some.mp hreg).1

theorem Inv.notify (hi : h.Inv E) (n : Notice) :
    Inv E { h.notify n with due := h.due.erase n } := by
  obtain ⟨⟨hdb, hdrawn, -⟩, htells, hregistered, hsignals⟩ := notify_notified h n
  refine ⟨hdb ▸ hi.reachable, hdb ▸ hdrawn ▸ hi.drawn, fun x s' hs' => ?_, fun x s' hs' hreg => ?_⟩
  · obtain ⟨s, changed, done, hs, rfl, -⟩ := htells x s' hs'
    rw [hdb, hdrawn]
    exact (hi.tracks x s hs).flags changed done
  · obtain ⟨s, changed, done, hs, rfl, hchanged⟩ := htells x s' hs'
    have hreg₀ := hregistered _ _ hreg
    intro v row hv hrow hsession
    rw [hdb] at hrow hsession
    rcases hi.informed x s hs hreg₀ v row hv hrow hsession with heq | hold | ⟨m, hm, hcovers⟩
    · exact .inl heq
    · exact .inr (.inl (hchanged hold))
    · by_cases hmn : m = n
      · exact .inr (.inl (hsignals _ x _ (hmn ▸ hcovers) hreg₀ hs'))
      · exact .inr (.inr ⟨m, (List.mem_erase_of_ne hmn).mpr hm, hcovers⟩)

theorem Inv.commit (hi : h.Inv E) {a : Commit} {db' : DB} (hstep : UniDERP.Step E h.db a db')
    (hfresh : ∀ t ∈ a.op.randomTokens, t ∉ h.drawn) :
    Inv E { h with
      db := db', drawn := a.op.randomTokens ++ h.drawn
      due := (a.op.notice E a.clock h.db a.reply).toList ++ h.due } where
  reachable := hi.reachable.step hstep
  drawn := hi.drawn.commit hstep
  tracks x s hs := (hi.tracks x s hs).commit hstep hfresh
  informed x s hs hreg :=
    (hi.informed x s hs hreg).commit (hi.tracks x s hs) hi.reachable hstep hfresh rfl

/-- A new handler is in place of none. -/
theorem Inv.accept (hi : h.Inv E) {now : Int} {token : String} {session : NodeSession}
    (hsession : nodeSession E now token h.db = .ok session) (applied : ℕ) :
    Inv E { h with
      streams := h.streams.insert x
        { token := token, nodeID := session.nodeID, instanceID := session.instanceID
          applied := applied } } := by
  obtain ⟨-, row, n, hlive, rfl⟩ := nodeSession_eq_ok.mp hsession
  obtain ⟨hrow, hn, -, -, hserving, -⟩ := liveSession_eq_some.mp hlive
  obtain ⟨t, ht, hk⟩ := hi.drawn.sessions _ _ hrow
  have hpolicy := hi.reachable.registered row.nodeID n hn (by
    intro hpending
    simp [hpending, NodeState.serving] at hserving)
  refine ⟨hi.reachable, hi.drawn, fun y s hs => ?_, fun y s hs hreg => ?_⟩
  · rcases Table.get?_insert_eq_some.mp hs with ⟨rfl, rfl⟩ | ⟨-, hs⟩
    · refine ⟨hi.drawn.nodes _ n hn, E.tokenHash_injective hk ▸ ht, fun r hr => ?_, .inl hpolicy,
        List.Pairwise.nil, by simp [ControlStream.revisions, StreamPhase.policy],
        by simp [StreamPhase.greeted]⟩
      cases hrow.symm.trans hr
      rfl
    · exact hi.tracks y s hs
  · rcases Table.get?_insert_eq_some.mp hs with ⟨rfl, rfl⟩ | ⟨-, hs⟩
    · exact fun v r hv => by cases hv
    · exact hi.informed y s hs hreg

theorem Inv.stream (hi : h.Inv E) {s s' : ControlStream} {step : StreamStep}
    (hs : h.streams.get? x = some s) (hact : s.act E h.db step = some s') :
    Inv E { h with streams := h.streams.insert x s' } := by
  have hm := ControlStream.act_moves hact
  have hnode : s'.nodeID = s.nodeID := by cases hm <;> rfl
  refine ⟨hi.reachable, hi.drawn, fun y t ht => ?_, fun y t ht hreg => ?_⟩
  · rcases Table.get?_insert_eq_some.mp ht with ⟨rfl, rfl⟩ | ⟨-, ht⟩
    · exact (hi.tracks _ s hs).moves hi.reachable.fresh hm
    · exact hi.tracks y t ht
  · rcases Table.get?_insert_eq_some.mp ht with ⟨rfl, rfl⟩ | ⟨-, ht⟩
    · exact (hi.informed _ s hs (hnode ▸ hreg)).moves hi.reachable.fresh hm
    · exact hi.informed y t ht hreg

theorem Inv.register (hi : h.Inv E) (s : ControlStream) : Inv E (h.register x s) := by
  have htells : ∃ h₁, h₁.db = h.db ∧ h₁.drawn = h.drawn ∧ h₁.due = h.due ∧ h.Tells h₁ ∧
      h₁.policyStreams = h.policyStreams ∧ h.register x s = { h₁ with
        policyStreams := h₁.policyStreams.insert s.nodeID x
        streams := h₁.streams.modify x fun s => { s with phase := .registered } } := by
    cases hy : h.policyStreams.get? s.nodeID with
    | none => exact ⟨h, rfl, rfl, rfl, .refl h, rfl, by simp [Hub.register, hy]⟩
    | some y => exact ⟨h.stop y, rfl, rfl, rfl, stop_tells h y, rfl, by simp [Hub.register, hy]⟩
  obtain ⟨h₁, hdb, hdrawn, hdue, htells, hstreams, heq⟩ := htells
  rw [heq]
  refine ⟨hdb ▸ hi.reachable, hdb ▸ hdrawn ▸ hi.drawn, fun y t ht => ?_, fun y t ht hreg => ?_⟩
  · obtain ⟨t₁, ht₁, rfl⟩ := Table.get?_modify_eq_some.mp ht
    obtain ⟨t₀, changed, done, ht₀, rfl, -⟩ := htells y t₁ ht₁
    have htracks := (hi.tracks y t₀ ht₀).flags changed done
    dsimp only
    rw [hdb, hdrawn]
    split_ifs with hy
    · exact htracks.phase (.inl rfl) (by simp [StreamPhase.greeted])
    · exact htracks
  · obtain ⟨t₁, ht₁, rfl⟩ := Table.get?_modify_eq_some.mp ht
    obtain ⟨t₀, changed, done, ht₀, rfl, hchanged⟩ := htells y t₁ ht₁
    by_cases hy : y = x
    · rw [if_pos hy]
      exact fun v row hv => by cases hv
    · rw [if_neg hy] at hreg ⊢
      dsimp only at hreg
      have hnode : t₀.nodeID ≠ s.nodeID := by
        intro hnode
        rw [hnode, Table.get?_insert_self] at hreg
        exact hy (Option.some.inj hreg).symm
      rw [Table.get?_insert_ne _ _ hnode, hstreams] at hreg
      intro v row hv hrow hsession
      rcases hi.informed y t₀ ht₀ hreg v row hv (hdb ▸ hrow) (hdb ▸ hsession) with
        hcurrent | hold | ⟨n, hn, hcovers⟩
      · exact .inl hcurrent
      · exact .inr (.inl (hchanged hold))
      · exact .inr (.inr ⟨n, hdue ▸ hn, hcovers⟩)

theorem Inv.unregister (hi : h.Inv E) {s : ControlStream} (hs : h.streams.get? x = some s) :
    Inv E { h with
      streams := h.streams.insert x { s with phase := .gone }
      policyStreams :=
        if h.policyStreams.get? s.nodeID = some x then h.policyStreams.erase s.nodeID
        else h.policyStreams } := by
  refine ⟨hi.reachable, hi.drawn, fun y t ht => ?_, fun y t ht hreg => ?_⟩
  · rcases Table.get?_insert_eq_some.mp ht with ⟨rfl, rfl⟩ | ⟨-, ht⟩
    · exact (hi.tracks _ s hs).phase (.inl rfl) (by simp [StreamPhase.greeted])
    · exact hi.tracks y t ht
  · rcases Table.get?_insert_eq_some.mp ht with ⟨rfl, rfl⟩ | ⟨-, ht⟩
    · exact fun v row hv => by cases hv
    · refine hi.informed y t ht ?_
      dsimp only at hreg
      split_ifs at hreg
      · exact (Table.get?_delete_eq_some.mp hreg).1
      · exact hreg

theorem Inv.step (hi : h.Inv E) {a : HubAct} (hstep : h.act E a = some h') : h'.Inv E := by
  cases a <;> simp only [Hub.act, Option.bind_eq_bind, Option.bind_eq_some_iff,
    Option.guard_eq_some', exists_const, toOption_eq_some, Option.pure_def, Option.some.injEq,
    Prod.exists] at hstep
  case commit c op =>
    obtain ⟨hfresh, db, reply, hexec, rfl⟩ := hstep
    exact hi.commit (a := ⟨op, c, reply⟩) hexec hfresh
  case notify n =>
    obtain ⟨-, rfl⟩ := hstep
    exact hi.notify n
  case accept =>
    obtain ⟨-, session, hsession, rfl⟩ := hstep
    exact hi.accept hsession _
  case register =>
    obtain ⟨s, -, -, rfl⟩ := hstep
    exact hi.register s
  case stream =>
    obtain ⟨s, hs, s', hact, rfl⟩ := hstep
    exact hi.stream hs hact
  case unregister =>
    obtain ⟨s, hs, -, rfl⟩ := hstep
    exact hi.unregister hs

theorem Run.inv (r : Hub.Run E) {i : ℕ} (hi : i ≤ r.len) : (r.state i).Inv E := by
  refine Reachable.invariant (r.reachable hi) ?_ fun h a h' _ hinv hstep => hinv.step hstep
  rintro h rfl
  refine ⟨.start rfl, ⟨by simp [DB.empty], by simp [DB.empty]⟩, by simp, by simp⟩

/-- In every run, a registered stream that waits with no signal and whose session authenticates has
written the stored revision, once every commit's call was made; and the revisions written on one
stream never decrease. -/
theorem Run.no_lost_update (r : Hub.Run E) :
    (∀ i ≤ r.len, ∀ x s now, (r.state i).streams.get? x = some s →
      (r.state i).policyStreams.get? s.nodeID = some x → s.phase = .waiting → s.changed = false →
      s.authenticates E now (r.state i).db → (r.state i).due = [] →
      ∃ row p ps, (r.state i).db.policies.get? s.nodeID = some row ∧ s.written = p :: ps ∧
        p.revision = row.desiredRevision) ∧
    ∀ i ≤ r.len, ∀ x s, (r.state i).streams.get? x = some s →
      s.written.Pairwise fun p q => q.revision ≤ p.revision := by
  refine ⟨fun i hi x s now hs hreg hphase hchanged hsession hdue => ?_, fun i hi x s hs => ?_⟩
  · have hinv := Run.inv r hi
    have htracks := hinv.tracks x s hs
    have hlive : ∃ row n, (r.state i).db.liveSession E now s.token = some (row, n) := by
      unfold ControlStream.authenticates at hsession
      split at hsession
      · obtain ⟨-, row, n, hlive, -⟩ := nodeSession_eq_ok.mp ‹_›
        exact ⟨row, n, hlive⟩
      · cases hsession
    obtain ⟨session, n, hlive⟩ := hlive
    obtain ⟨hrow, hn, -⟩ := liveSession_eq_some.mp hlive
    rw [htracks.session session hrow] at hn
    obtain ⟨row, hpolicy⟩ := htracks.home.resolve_right (by simp [hn])
    obtain ⟨p, ps, hwritten, hlast⟩ := htracks.last (by simp [hphase, StreamPhase.greeted])
    refine ⟨row, p, ps, hpolicy, hwritten, ?_⟩
    rcases hinv.informed x s hs hreg s.last row (by simp [ControlStream.seen, hphase]) hpolicy
      (by simp [hrow]) with heq | hsignal | ⟨m, hm, -⟩
    · rw [hlast, heq]
    · simp [hchanged] at hsignal
    · simp [hdue] at hm
  · have hsorted := ((Run.inv r hi).tracks x s hs).sorted
    rw [ControlStream.revisions, List.map_append, List.pairwise_append, List.pairwise_map,
      List.pairwise_map] at hsorted
    exact hsorted.2.1

end Hub
end UniDERP
