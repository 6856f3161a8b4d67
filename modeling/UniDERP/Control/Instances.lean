import UniDERP.Control.Revisions

namespace UniDERP

def Op.draws (nonce : String) : Op → Bool
  | .enrollmentChallenge _ _ _ token => token.text = nonce
  | .sessionChallenge _ _ token => token.text = nonce
  | _ => false

/-- The transaction opens a session for the challenge, rather than repeating an earlier answer. -/
def Opens (db : DB) (a : Commit) (ch : NodeChallenge) : Prop :=
  (∃ req token box s, a.op = .enrollCommit req token box ∧ req.challenge = ch ∧
    a.reply = .session s ∧ ∃ e, db.enrollments.get? ch.nodeID = some e ∧ e.consumedAt = 0) ∨
  ∃ sig token s, a.op = .renewNodeSession ch sig token ∧ a.reply = .renewal (.session s)

def Lapses (db : DB) (a : Commit) (id instance_ : String) : Prop :=
  ∃ ch sig token n, a.op = .renewNodeSession ch sig token ∧ ch.nodeID = id ∧
    db.nodes.get? id = some n ∧ n.instanceID = instance_ ∧ ch.instanceID ≠ instance_ ∧
    n.leaseUntil ≤ unix (a.clock.read 2)

/-- The owner or an administrator recovers the node or issues a code for it. -/
def Overrides (db : DB) (a : Commit) (id : String) : Prop :=
  ∃ actor n, db.nodes.get? id = some n ∧ Active actor db ∧ Permitted actor n.ownerID ∧
    ((∃ instance_, a.op = .recoverNodeInstance actor id instance_) ∨
      ∃ code, a.op = .issueEnrollment actor id code)

section Sessions

variable {E : Env} {c : Clock} {db mid db' : DB} {op : Op} {reply : Reply} {S : String → Prop}

def SingleSession (db : DB) : Prop := ∀ h h' s s', db.nodeSessions.get? h = some s →
  db.nodeSessions.get? h' = some s' → s.nodeID = s'.nodeID → h = h'

theorem SingleSession.delete (hs : SingleSession db) {id : String}
    (h : mid.nodeSessions = db.nodeSessions.delete fun _ s => s.nodeID = id) : SingleSession mid := by
  intro k k' s s' hk hk' hid
  rw [h] at hk hk'
  exact hs k k' s s' (Table.get?_delete_eq_some.mp hk).1 (Table.get?_delete_eq_some.mp hk').1 hid

theorem SingleSession.mint (hs : SingleSession db) {s : NodeSession}
    (h : mid.nodeSessions = db.withSession E s) : SingleSession mid := by
  -- The rows beside the new one are of other nodes.
  have hother : ∀ {k r}, (db.nodeSessions.delete fun _ r => r.nodeID = s.nodeID).get? k = some r →
      db.nodeSessions.get? k = some r ∧ r.nodeID ≠ s.nodeID := by
    intro k r hk
    obtain ⟨hk, hp⟩ := Table.get?_delete_eq_some.mp hk
    exact ⟨hk, by simpa using hp⟩
  intro k k' r r' hk hk' hid
  rw [h, DB.withSession] at hk hk'
  rcases Table.get?_insert_eq_some.mp hk with ⟨rfl, rfl⟩ | ⟨-, hk⟩ <;>
    rcases Table.get?_insert_eq_some.mp hk' with ⟨rfl, rfl⟩ | ⟨-, hk'⟩
  · rfl
  · exact absurd hid.symm (hother hk').2
  · exact absurd hid (hother hk).2
  · exact hs k k' r r' (hother hk).1 (hother hk').1 hid

theorem Effect.single_session (h : Effect E c db op reply mid S) (hs : SingleSession db) :
    SingleSession mid := by
  cases h
  case reissueEnrollment => exact hs.delete rfl
  case leaveNode => exact hs.delete rfl
  case enroll => exact hs.mint rfl
  case renew => exact hs.mint rfl
  case refuse => exact hs.delete rfl
  case recover => exact hs.delete rfl
  case deleteNode => exact hs.delete rfl
  case changeNodeDomain => exact hs.delete rfl
  all_goals exact hs

theorem Store.Reachable.single_session (h : Store.Reachable E db) : SingleSession db := by
  refine Reachable.invariant h ?_ fun s a s' _ hs hstep => ?_
  · rintro s rfl k k' r r' hk
    simp [DB.empty] at hk
  · obtain ⟨mid, S, i, he, hr⟩ := exec_does hstep
    rw [hr.frame]
    exact he.single_session hs

end Sessions

section Current

variable {E : Env} {c : Clock} {db mid db' : DB} {op : Op} {reply : Reply} {S : String → Prop}
  {id instance_ : String}

def Current (db : DB) (id instance_ : String) : Prop :=
  ∃ n, db.nodes.get? id = some n ∧ n.instanceID = instance_ ∧ n.state ≠ .pending

def Vacant (db : DB) (id : String) : Prop :=
  ∀ n, db.nodes.get? id = some n → n.state = .pending ∧ db.enrollments.get? id = none

theorem Current.insert {k : String} {m m' : Node} (h : Current db id instance_)
    (hm : db.nodes.get? k = some m) (hnodes : mid.nodes = db.nodes.insert k m')
    (hinstance : m'.instanceID = m.instanceID)
    (hstate : m.state ≠ .pending → m'.state ≠ .pending) : Current mid id instance_ := by
  obtain ⟨n, hn, hi, hs⟩ := h
  by_cases hk : id = k
  · subst hk
    cases hn.symm.trans hm
    exact ⟨m', by rw [hnodes, Table.get?_insert_self], hinstance.trans hi, hstate hs⟩
  · exact ⟨n, by rw [hnodes, Table.get?_insert_ne _ _ hk, hn], hi, hs⟩

theorem Current.other {k : String} (h : Current db id instance_) (hk : id ≠ k)
    (hnodes : ∀ k', k' ≠ k → mid.nodes.get? k' = db.nodes.get? k') : Current mid id instance_ := by
  obtain ⟨n, hn, hi, hs⟩ := h
  exact ⟨n, (hnodes id hk).trans hn, hi, hs⟩

theorem Vacant.release (db : DB) (id : String) : Vacant (db.release id) id := by
  intro n hn
  simp only [DB.release, Table.get?_modify_self, Option.map_eq_some_iff] at hn
  obtain ⟨m, -, rfl⟩ := hn
  exact ⟨rfl, Table.get?_erase_self _ _⟩

/-- A step keeps the current instance, or another one takes over after its lease or by the owner's
hand, or the node is vacant. -/
theorem Effect.current (h : Effect E c db op reply mid S) (hc : Current db id instance_) :
    Current mid id instance_ ∨ Lapses db ⟨op, c, reply⟩ id instance_ ∨
      Overrides db ⟨op, c, reply⟩ id ∨ Vacant mid id := by
  obtain ⟨n, hn, hi, hs⟩ := hc
  have hcurrent : Current db id instance_ := ⟨n, hn, hi, hs⟩
  cases h
  case createNode m fresh _ _ _ _ =>
    refine .inl (hcurrent.other ?_ fun _ hk => Table.get?_insert_ne _ _ hk)
    rintro rfl
    simp [fresh] at hn
  case reissueEnrollment k _ _ m hm _ hactive howner _ =>
    by_cases hk : id = k
    · subst hk
      exact .inr (.inr (.inl ⟨_, m, hm, hactive, howner, .inr ⟨_, rfl⟩⟩))
    · exact .inl (hcurrent.other hk fun _ hk => Table.get?_modify_ne _ _ hk)
  case leaveNode s _ _ =>
    by_cases hk : id = s.nodeID
    · subst hk
      exact .inr (.inr (.inr (.release db _)))
    · exact .inl (hcurrent.other hk fun _ hk => Table.get?_modify_ne _ _ hk)
  case enroll req _ _ _ m _ hm _ hpending _ _ _ _ _ _ _ _ _ _ =>
    refine .inl (hcurrent.other ?_ fun _ hk => Table.get?_insert_ne _ _ hk)
    rintro rfl
    cases hn.symm.trans hm
    exact hs hpending
  case renew ch _ _ _ m hm _ _ _ _ hlease _ _ _ =>
    -- Another instance takes the place only after the lease.
    by_cases hsame : m.instanceID = ch.instanceID
    · refine .inl (hcurrent.insert hm rfl hsame.symm fun hp => ?_)
      dsimp only
      split_ifs
      · simp
      · exact hp
    · by_cases hk : id = ch.nodeID
      · subst hk
        cases hn.symm.trans hm
        exact .inr (.inl ⟨ch, _, _, n, rfl, rfl, hn, hi, fun he => hsame (hi.trans he.symm),
          hlease.resolve_left hsame⟩)
      · exact .inl (hcurrent.other hk fun _ hk => Table.get?_insert_ne _ _ hk)
  case refuse hm _ _ _ _ _ _ _ => exact .inl (hcurrent.insert hm rfl rfl (by simp))
  case recover k _ m _ hm hactive howner _ =>
    by_cases hk : id = k
    · subst hk
      exact .inr (.inr (.inl ⟨_, m, hm, hactive, howner, .inl ⟨_, rfl⟩⟩))
    · exact .inl (hcurrent.other hk fun _ hk => Table.get?_insert_ne _ _ hk)
  case ports hm _ => exact .inl (hcurrent.insert hm rfl rfl fun hp => hp)
  case setNodeEnabled hm _ _ _ => exact .inl (hcurrent.insert hm rfl rfl fun hp => hp)
  case deleteNode k _ _ _ =>
    by_cases hk : id = k
    · subst hk
      exact .inr (.inr (.inr fun n hn => by simp [DB.deleteNode] at hn))
    · exact .inl (hcurrent.other hk fun _ hk => Table.get?_erase_ne _ hk)
  case changeNodeDomain hm _ _ _ _ _ => exact .inl (hcurrent.insert hm rfl rfl (by simp))
  case nodeHeartbeat s _ _ _ =>
    by_cases hk : id = s.nodeID
    · subst hk
      refine .inl ⟨_, (Table.get?_modify_self _ _ _).trans (congrArg _ hn), hi, hs⟩
    · exact .inl (hcurrent.other hk fun _ hk => Table.get?_modify_ne _ _ hk)
  case ackApplied usable _ hsession _ _ _ =>
    refine .inl (hcurrent.insert (liveSession_eq_some.mp hsession).2.1 rfl rfl fun _ => ?_)
    cases usable <;> simp
  case ackNack hsession _ =>
    exact .inl (hcurrent.insert (liveSession_eq_some.mp hsession).2.1 rfl rfl (by simp))
  all_goals exact .inl hcurrent

/-- A vacant node stays vacant until the owner issues a code, or its id is taken again. -/
theorem Effect.vacant (h : Effect E c db op reply mid S) (hv : Vacant db id) :
    Vacant mid id ∨ Overrides db ⟨op, c, reply⟩ id ∨ op.creates id := by
  have hother : ∀ k, id ≠ k → (∀ k', k' ≠ k → mid.nodes.get? k' = db.nodes.get? k') →
      (∀ k', k' ≠ k → mid.enrollments.get? k' = db.enrollments.get? k') → Vacant mid id := by
    intro k hk hnodes henrollments n hn
    rw [henrollments id hk]
    exact hv n ((hnodes id hk).symm.trans hn)
  have hinsert : ∀ {k : String} {m m' : Node}, db.nodes.get? k = some m →
      mid.nodes = db.nodes.insert k m' → (m.state = .pending → m'.state = .pending) →
      mid.enrollments = db.enrollments → Vacant mid id := by
    intro k m m' hm hnodes hstate henrollments n hn
    rw [hnodes] at hn
    rw [henrollments]
    rcases Table.get?_insert_eq_some.mp hn with ⟨rfl, rfl⟩ | ⟨-, hn⟩
    · exact ⟨hstate (hv m hm).1, (hv m hm).2⟩
    · exact hv n hn
  have hserving : ∀ {m : Node}, m.state.serving → m.state ≠ .pending := by
    intro m hm hp
    simp [hp, NodeState.serving] at hm
  -- Only a new enrollment fills the place; the other calls need a node that serves.
  cases h
  case createNode token _ _ _ _ _ _ _ _ =>
    by_cases hk : id = token.text
    · exact .inr (.inr (by simp [Op.creates, hk]))
    · exact .inl (hother _ hk (fun _ hk => Table.get?_insert_ne _ _ hk)
        fun _ hk => Table.get?_insert_ne _ _ hk)
  case issueEnrollment k _ _ m hm _ hactive howner _ =>
    by_cases hk : id = k
    · subst hk
      exact .inr (.inl ⟨_, m, hm, hactive, howner, .inr ⟨_, rfl⟩⟩)
    · exact .inl (hother _ hk (fun _ _ => rfl) fun _ hk => Table.get?_insert_ne _ _ hk)
  case reissueEnrollment k _ _ m hm _ hactive howner _ =>
    by_cases hk : id = k
    · subst hk
      exact .inr (.inl ⟨_, m, hm, hactive, howner, .inr ⟨_, rfl⟩⟩)
    · refine .inl (hother _ hk (fun _ hk => Table.get?_modify_ne _ _ hk) fun _ hk => ?_)
      rw [Table.get?_insert_ne _ _ hk]
      exact Table.get?_erase_ne _ hk
  case leaveNode s _ _ =>
    by_cases hk : id = s.nodeID
    · exact .inl (hk ▸ .release db _)
    · exact .inl (hother _ hk (fun _ hk => Table.get?_modify_ne _ _ hk)
        fun _ hk => Table.get?_erase_ne _ hk)
  case enroll req _ _ _ m e hm _ _ _ he _ _ _ _ _ _ _ _ =>
    refine .inl (hother req.challenge.nodeID ?_ (fun _ hk => Table.get?_insert_ne _ _ hk)
      fun _ hk => Table.get?_modify_ne _ _ hk)
    rintro rfl
    simp [(hv m hm).2] at he
  case renew ch _ _ _ m hm _ hrenewable _ _ _ _ _ _ =>
    refine .inl (hinsert hm rfl (fun hp => ?_) rfl)
    simp [renewable, hp, NodeState.serving] at hrenewable
  case refuse ch _ _ m _ hm _ hrenewable _ _ _ _ _ =>
    refine .inl (hinsert hm rfl (fun hp => ?_) rfl)
    simp [renewable, hp, NodeState.serving] at hrenewable
  case recover hm _ _ hconflict => exact .inl (hinsert hm rfl (by simp [hconflict]) rfl)
  case ports hm _ => exact .inl (hinsert hm rfl (fun hp => hp) rfl)
  case setNodeEnabled hm _ _ _ => exact .inl (hinsert hm rfl (fun hp => hp) rfl)
  case deleteNode k _ _ _ =>
    by_cases hk : id = k
    · exact .inl fun n hn => by simp [DB.deleteNode, hk] at hn
    · exact .inl (hother _ hk (fun _ hk => Table.get?_erase_ne _ hk)
        fun _ hk => Table.get?_erase_ne _ hk)
  case changeNodeDomain k _ _ _ m _ _ hm _ hstate _ _ _ =>
    refine .inl (hother k ?_ (fun _ hk => Table.get?_insert_ne _ _ hk)
      fun _ hk => Table.get?_erase_ne _ hk)
    rintro rfl
    have hp := (hv m hm).1
    simp [hp, NodeState.serving] at hstate
  case nodeHeartbeat s m _ hsession =>
    obtain ⟨-, hm, -, -, hs, -⟩ := liveSession_eq_some.mp hsession
    refine .inl (hother s.nodeID ?_ (fun _ hk => Table.get?_modify_ne _ _ hk) fun _ _ => rfl)
    rintro rfl
    exact hserving hs (hv m hm).1
  case ackApplied hsession _ _ _ =>
    obtain ⟨-, hm, -, -, hs, -⟩ := liveSession_eq_some.mp hsession
    exact .inl (hinsert hm rfl (fun hp => absurd hp (hserving hs)) rfl)
  case ackNack hsession _ =>
    obtain ⟨-, hm, -, -, hs, -⟩ := liveSession_eq_some.mp hsession
    exact .inl (hinsert hm rfl (fun hp => absurd hp (hserving hs)) rfl)
  all_goals exact .inl hv

end Current

section Challenges

variable {E : Env} {c : Clock} {db mid db' : DB} {op : Op} {reply : Reply} {S : String → Prop}
  {nonce : String}

def Spent (E : Env) (db : DB) (nonce : String) : Prop :=
  ∀ r, db.challenges.get? (E.tokenHash nonce) = some r → r.usedAt ≠ 0

theorem Spent.of_use {i : ℕ} (hmid : mid.challenges =
    db.challenges.modify (E.tokenHash nonce) fun r => { r with usedAt := unix (c.read i) }) :
    Spent E mid nonce := by
  intro r hr
  rw [hmid, Table.get?_modify_self] at hr
  obtain ⟨r₀, -, rfl⟩ := Option.map_eq_some_iff.mp hr
  exact (c.unix_pos i).ne'

theorem Effect.spent (h : Effect E c db op reply mid S) (hs : Spent E db nonce) :
    Spent E mid nonce ∨ op.draws nonce := by
  by_cases hdraws : op.draws nonce
  · exact .inr hdraws
  refine .inl fun r hr => ?_
  cases h.challenge_edit hr with
  | kept before => exact hs r before
  | used i _ after =>
    rw [after]
    exact (c.unix_pos i).ne'
  | enrollment call _ _ hnonce key =>
    rw [call, Op.draws, ← hnonce, E.tokenHash_injective key] at hdraws
    simp at hdraws
  | session call _ _ hnonce key =>
    rw [call, Op.draws, ← hnonce, E.tokenHash_injective key] at hdraws
    simp at hdraws

/-- A session is opened with an unused challenge, which is used from then on. -/
theorem Step.opens {a : Commit} {ch : NodeChallenge} (h : Step E db a db') (ho : Opens db a ch) :
    ¬ Spent E db ch.nonce ∧ Spent E db' ch.nonce := by
  obtain ⟨op, c, reply⟩ := a
  obtain ⟨mid, S, i, he, hr⟩ := exec_does h
  rw [hr.frame]
  have hunused : ∀ {now now' : Int} {ch : NodeChallenge} {sig : Bytes},
      Usable E now now' ch sig db → ¬ Spent E db ch.nonce := by
    intro now now' ch sig husable hspent
    obtain ⟨r, hr, -, -, hunused, -⟩ := husable.row
    exact hspent r hr hunused
  rcases ho with ⟨req, token, box, s, rfl, rfl, rfl, e, he', hconsumed⟩ | ⟨sig, token, s, rfl, rfl⟩
  · cases he with
    | idle repeatable => cases repeatable
    | receipt receipt =>
      simp only [enrollmentReceipt, Except_bind_eq_ok, orElse_eq_ok, require_eq_ok,
        exists_const] at receipt
      obtain ⟨e₀, he₀, -, -, -, receipt⟩ := receipt
      cases he'.symm.trans he₀
      simp [hconsumed] at receipt
    | enroll _ _ _ _ _ _ _ _ usable =>
      exact ⟨hunused usable, .of_use rfl⟩
  · cases he with
    | idle repeatable => cases repeatable
    | renew _ _ _ _ _ _ usable => exact ⟨hunused usable, .of_use rfl⟩

end Challenges

section Run

variable {E : Env}

theorem Step.current {db db' : DB} {a : Commit} {id instance_ : String} (h : Step E db a db')
    (hc : Current db id instance_) :
    Current db' id instance_ ∨ Lapses db a id instance_ ∨ Overrides db a id ∨ Vacant db' id := by
  obtain ⟨mid, S, i, he, hr⟩ := exec_does h
  rw [hr.frame]
  exact he.current hc

theorem Step.vacant {db db' : DB} {a : Commit} {id : String} (h : Step E db a db')
    (hv : Vacant db id) : Vacant db' id ∨ Overrides db a id ∨ a.op.creates id := by
  obtain ⟨mid, S, i, he, hr⟩ := exec_does h
  rw [hr.frame]
  exact he.vacant hv

theorem Step.spent {db db' : DB} {a : Commit} {nonce : String} (h : Step E db a db')
    (hs : Spent E db nonce) : Spent E db' nonce ∨ a.op.draws nonce := by
  obtain ⟨mid, S, i, he, hr⟩ := exec_does h
  rw [hr.frame]
  exact he.spent hs

/-- Another instance is the node only if one took over after the lease, or the owner acted. -/
theorem Store.Run.taken_over (r : Store.Run E) {id instance_ : String} {i j : ℕ} (hij : i ≤ j)
    (hj : j ≤ r.len) (hcurrent : Current (r.state i) id instance_)
    (hvacant : ¬ Vacant (r.state j) id) (hother : ¬ Current (r.state j) id instance_) :
    ∃ k, i ≤ k ∧ k < j ∧ (Lapses (r.state k) (r.label k) id instance_ ∨
      Overrides (r.state k) (r.label k) id ∨ (r.label k).op.creates id) := by
  by_contra hnone
  simp only [not_exists, not_and, not_or] at hnone
  -- The instance stays, or the node becomes vacant and stays so.
  have hstays := r.preserved (P := fun db => Current db id instance_ ∨ Vacant db id) hij
    (.inl hcurrent) fun k hik hkj hk => ?_
  · exact hstays.elim hother hvacant
  · obtain ⟨hlapses, hoverrides, hcreates⟩ := hnone k hik hkj
    have hstep := r.next k (hkj.trans_le hj)
    rcases hk with hk | hk
    · rcases Step.current hstep hk with hc | hl | ho | hv
      · exact .inl hc
      · exact absurd hl hlapses
      · exact absurd ho hoverrides
      · exact .inr hv
    · rcases Step.vacant hstep hk with hv | ho | hn
      · exact .inr hv
      · exact absurd ho hoverrides
      · exact absurd hn hcreates

/-- After a refusal nobody is the node, and its policy has no grants. -/
theorem Step.refused {db db' : DB} {a : Commit} {ch : NodeChallenge} {sig : Bytes} {token : Token}
    {n : Node} (h : Step E db a db') (hfresh : Fresh E db')
    (hop : a.op = .renewNodeSession ch sig token) (hn : db.nodes.get? ch.nodeID = some n)
    (hother : n.instanceID ≠ ch.instanceID) (hlease : unix (a.clock.read 2) < n.leaseUntil) :
    (∀ now t s, nodeSession E now t db' = .ok s → s.nodeID ≠ ch.nodeID) ∧
      (∃ n', db'.nodes.get? ch.nodeID = some n' ∧ n'.state = .identityConflict) ∧
      ∃ row p, db'.policies.get? ch.nodeID = some row ∧ row.policyJSON = some p ∧ p.grants = [] := by
  obtain ⟨op, c, reply⟩ := a
  obtain rfl : op = _ := hop
  obtain ⟨mid, S, i, he, hr⟩ := exec_does h
  cases he with
  | idle repeatable => cases repeatable
  | sessions login => cases login
  | ports portChange => cases portChange
  | @renew _ _ _ _ m node _ _ _ _ lease =>
    cases hn.symm.trans node
    rcases lease with hsame | hpast
    · exact absurd hsame hother
    · exact absurd hlease (not_lt.mpr hpast)
  | refuse events node domain state owner key lease usable stored =>
    have hstate : ∃ n', db'.nodes.get? ch.nodeID = some n' ∧ n'.state = .identityConflict := by
      rw [hr.frame]
      exact ⟨_, Table.get?_insert_self _ _ _, rfl⟩
    refine ⟨fun now t s hs hid => ?_, hstate, ?_⟩
    · obtain ⟨-, s', m, hlive, rfl⟩ := nodeSession_eq_ok.mp hs
      obtain ⟨-, hm, -, -, hserving, -⟩ := liveSession_eq_some.mp hlive
      obtain ⟨n', hn', hconflict⟩ := hstate
      rw [show s'.nodeID = ch.nodeID from hid, hn'] at hm
      cases hm
      simp [hconflict, NodeState.serving] at hserving
    -- The policy was rebuilt with the node in conflict, for which nothing is projected.
    · obtain ⟨row₀, hrow₀⟩ := stored
      obtain ⟨_, row, _, -, -, -, hrow⟩ := hr.built ch.nodeID row₀ rfl hrow₀
      obtain ⟨entries, p, hproj, hp, -, hcontent, -⟩ := hfresh ch.nodeID row hrow
      refine ⟨row, p, hrow, hp, ?_⟩
      obtain ⟨m, u, hm, hu, hentries⟩ := hproj.entries
      obtain ⟨n', hn', hconflict⟩ := hstate
      cases hm.symm.trans hn'
      have hnone : entries = [] := by simpa [project, hconflict, NodeState.serving] using hentries.symm
      rw [← hcontent, hnone]
      rfl

/-- In every run and for every node: at most one token is accepted, and it is of the current
instance; another instance is accepted only after the lease of the current one had passed or the
owner or an administrator recovered the node or issued a code; a renewal by another instance during
the lease ends all sessions; and a nonce opens at most one session, unless it is drawn again. -/
theorem Store.Run.exclusive_instance (r : Store.Run E) (id : String) :
    (∀ i ≤ r.len, ∀ now t s, nodeSession E now t (r.state i) = .ok s → s.nodeID = id →
      (∃ n, (r.state i).nodes.get? id = some n ∧ s.instanceID = n.instanceID ∧
        ∃ row, (r.state i).nodeSessions.get? (E.tokenHash t) = some row ∧
          row.instanceID = n.instanceID) ∧
      ∀ now' t' s', nodeSession E now' t' (r.state i) = .ok s' → s'.nodeID = id → t = t') ∧
    (∀ i j, i ≤ j → j ≤ r.len → ∀ n, (r.state i).nodes.get? id = some n → n.state ≠ .pending →
      ∀ now t s, nodeSession E now t (r.state j) = .ok s → s.nodeID = id →
        s.instanceID ≠ n.instanceID → ∃ k, i ≤ k ∧ k < j ∧
          (Lapses (r.state k) (r.label k) id n.instanceID ∨
            Overrides (r.state k) (r.label k) id ∨ (r.label k).op.creates id)) ∧
    (∀ i < r.len, ∀ ch sig token n, (r.label i).op = .renewNodeSession ch sig token →
      ch.nodeID = id → (r.state i).nodes.get? id = some n → n.instanceID ≠ ch.instanceID →
      unix ((r.label i).clock.read 2) < n.leaseUntil →
      (∀ now t s, nodeSession E now t (r.state (i + 1)) = .ok s → s.nodeID ≠ id) ∧
        (∃ n', (r.state (i + 1)).nodes.get? id = some n' ∧ n'.state = .identityConflict) ∧
        ∃ row p, (r.state (i + 1)).policies.get? id = some row ∧ row.policyJSON = some p ∧
          p.grants = []) ∧
    ∀ i j, i < j → j < r.len → ∀ ch ch', Opens (r.state i) (r.label i) ch →
      Opens (r.state j) (r.label j) ch' → ch.nonce = ch'.nonce →
      ∃ k, i < k ∧ k < j ∧ (r.label k).op.draws ch.nonce := by
  refine ⟨fun i hi now t s hs hid => ?_, fun i j hij hj n hn hstate now t s hs hid hother => ?_,
    fun i hi ch sig token n hop hid hn hother hlease => ?_,
    fun i j hij hj ch ch' ho ho' hnonce => ?_⟩
  · obtain ⟨-, row, n, hlive, rfl⟩ := nodeSession_eq_ok.mp hs
    obtain ⟨hrow, hn, -, hinstance, -⟩ := liveSession_eq_some.mp hlive
    subst hid
    refine ⟨⟨n, hn, rfl, row, hrow, hinstance⟩, fun now' t' s' hs' hid' => ?_⟩
    obtain ⟨-, row', n', hlive', rfl⟩ := nodeSession_eq_ok.mp hs'
    obtain ⟨hrow', -⟩ := liveSession_eq_some.mp hlive'
    apply E.tokenHash_injective
    exact Store.Reachable.single_session (r.reachable hi) _ _ _ _ hrow hrow' hid'.symm
  · obtain ⟨-, row, m, hlive, rfl⟩ := nodeSession_eq_ok.mp hs
    obtain ⟨-, hm, -, -, hserving, -⟩ := liveSession_eq_some.mp hlive
    subst hid
    refine r.taken_over hij hj ⟨n, hn, rfl, hstate⟩ (fun hv => ?_) fun ⟨m', hm', hi, _⟩ => ?_
    · simp [(hv m hm).1, NodeState.serving] at hserving
    · cases hm.symm.trans hm'
      exact hother hi
  · subst hid
    exact Step.refused (r.next i hi) (Store.Reachable.fresh (r.reachable hi)) hop hn hother hlease
  -- A nonce is spent by its first use and stays so until it is drawn again.
  · by_contra hnone
    simp only [not_exists, not_and] at hnone
    have hspent := r.preserved (P := fun db => Spent E db ch.nonce) hij
      (Step.opens (r.next i (hij.trans hj)) ho).2 fun k hik hkj hk =>
        (Step.spent (r.next k (hkj.trans hj)) hk).resolve_right (hnone k hik hkj)
    exact (Step.opens (r.next j hj) ho').1 (hnonce ▸ hspent)

end Run
end UniDERP
