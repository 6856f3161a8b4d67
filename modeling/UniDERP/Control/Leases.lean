import UniDERP.Control.Domains
import UniDERP.Control.Enrollment
import UniDERP.Control.Instances

namespace UniDERP

/-- How a transaction leaves the instance and the lease of a node. -/
inductive Tenure (E : Env) (c : Clock) (db mid : DB) (op : Op) (id : String) (n : Node) : Prop
  | kept {n₀ : Node} (before : db.nodes.get? id = some n₀)
      (instance_ : n.instanceID = n₀.instanceID) (lease : n.leaseUntil = n₀.leaseUntil)
      (key : n.publicKey = n₀.publicKey) (pending : n.state = .pending ↔ n₀.state = .pending)
      (conflict : n.state = .identityConflict → n₀.state = .identityConflict)
  | vacant (pending : n.state = .pending) (swept : Swept mid id)
  | enrolled {req : EnrollmentRequest} {token : Token} {box : Bytes} {n₀ : Node}
      (call : op = .enrollCommit req token box) (nodeID : req.challenge.nodeID = id)
      (before : db.nodes.get? id = some n₀) (pending : n₀.state = .pending)
      (usable : Usable E (c.read 2) (c.read 3) req.challenge req.signature db)
      (instance_ : n.instanceID = req.challenge.instanceID)
      (lease : n.leaseUntil = unix (c.read 4 + 90 * second))
      (key : n.publicKey = some req.challenge.publicKey) (state : n.state = .registered)
  | renewed {ch : NodeChallenge} {sig : Bytes} {token : Token}
      (call : op = .renewNodeSession ch sig token) (nodeID : ch.nodeID = id)
      (usable : Usable E (c.read 0) (c.read 1) ch sig db) (instance_ : n.instanceID = ch.instanceID)
      (lease : n.leaseUntil = unix (c.read 4 + 90 * second)) (key : n.publicKey = some ch.publicKey)
      (state : n.state ≠ .pending ∧ n.state ≠ .identityConflict)
  | refused {ch : NodeChallenge} {sig : Bytes} {token : Token} {n₀ : Node}
      (call : op = .renewNodeSession ch sig token) (nodeID : ch.nodeID = id)
      (usable : Usable E (c.read 0) (c.read 1) ch sig db)
      (before : db.nodes.get? id = some n₀) (state : n₀.state ≠ .pending)
      (other : n₀.instanceID ≠ ch.instanceID) (leased : unix (c.read 2) < n₀.leaseUntil)
      (lease : n.leaseUntil = n₀.leaseUntil) (key : n₀.publicKey = some ch.publicKey)
      (same : n.publicKey = n₀.publicKey) (conflict : n.state = .identityConflict)
  | recovered {n₀ : Node} (before : db.nodes.get? id = some n₀)
      (conflict : n₀.state = .identityConflict) (key : n.publicKey = n₀.publicKey)
      (lease : n.leaseUntil = unix (c.read 0 + 90 * second)) (state : n.state = .registered)
  | heard {token : String} {report : Option NodeReport} {s : NodeSessionRow} {n₀ : Node}
      (call : op = .nodeHeartbeat token report)
      (session : db.liveSession E (c.read 0) token = some (s, n₀)) (nodeID : s.nodeID = id)
      (instance_ : n.instanceID = n₀.instanceID)
      (lease : n.leaseUntil = unix (c.read 1 + 90 * second)) (key : n.publicKey = n₀.publicKey)
      (state : n.state = n₀.state)

section Tenure

variable {E : Env} {c : Clock} {db mid db' : DB} {op : Op} {reply : Reply} {S : String → Prop}
  {id : String} {n : Node}

theorem Tenure.same (h : db.nodes.get? id = some n) : Tenure E c db mid op id n :=
  .kept h rfl rfl rfl .rfl fun hs => hs

theorem Tenure.of_insert {k : String} {m : Node} (hmid : mid.nodes = db.nodes.insert k m)
    (hn : mid.nodes.get? id = some n) (h : Tenure E c db mid op k m) :
    Tenure E c db mid op id n := by
  rw [hmid] at hn
  rcases Table.get?_insert_eq_some.mp hn with ⟨rfl, rfl⟩ | ⟨-, hn⟩
  · exact h
  · exact .same hn

theorem Tenure.of_release {k : String} {n₀ : Node} (hn₀ : db.nodes.get? k = some n₀)
    (hmid : mid.nodes = (db.release k).nodes) (hn : mid.nodes.get? id = some n)
    (hswept : Swept mid k) : Tenure E c db mid op id n :=
  .of_insert (hmid.trans (Table.modify_eq_insert Node.released hn₀)) hn (.vacant rfl hswept)

theorem NodeState.not_pending_of_serving {s : NodeState} (h : s.serving) :
    s ≠ .pending ∧ s ≠ .identityConflict := by
  cases s <;> simp_all [NodeState.serving]

theorem not_pending_of_renewable {p : Purpose} {s : NodeState} (h : renewable p s) :
    s ≠ .pending ∧ s ≠ .identityConflict := by
  cases s <;> simp_all [renewable, NodeState.serving]

theorem Effect.tenure (h : Effect E c db op reply mid S) (hn : mid.nodes.get? id = some n) :
    Tenure E c db mid op id n := by
  -- One case for each call that writes a node row.
  cases h
  case createNode m _ hpending _ _ _ => exact .of_insert rfl hn (.vacant hpending (.delete rfl))
  case reissueEnrollment hm _ _ _ _ => exact .of_release hm rfl hn (.delete rfl)
  case leaveNode hs =>
    exact .of_release (liveSession_eq_some.mp hs).2.1 rfl hn (.delete rfl)
  case enroll hm _ hpending _ _ _ _ _ husable _ _ _ _ =>
    exact .of_insert rfl hn (.enrolled rfl rfl hm hpending husable rfl rfl rfl rfl)
  case renew m hm _ hstate _ hkey _ husable _ _ =>
    refine .of_insert rfl hn (.renewed rfl rfl husable rfl rfl hkey ?_)
    dsimp only
    split_ifs
    · simp
    · exact not_pending_of_renewable hstate
  case refuse hm _ hstate _ hkey hlease husable _ =>
    exact .of_insert rfl hn (.refused rfl rfl husable hm (not_pending_of_renewable hstate).1 hlease.1
      hlease.2 rfl hkey rfl rfl)
  case recover hm _ _ hconflict => exact .of_insert rfl hn (.recovered hm hconflict rfl rfl rfl)
  case ports hm _ => exact .of_insert rfl hn (.kept hm rfl rfl rfl .rfl fun hs => hs)
  case setNodeEnabled hm _ _ _ => exact .of_insert rfl hn (.kept hm rfl rfl rfl .rfl fun hs => hs)
  case deleteNode => exact .same (Table.get?_delete_eq_some.mp hn).1
  case changeNodeDomain m _ _ hm _ hstate _ _ _ =>
    refine .of_insert rfl hn (.kept hm rfl rfl rfl ?_ (by simp))
    rcases hstate with hs | hs
    · simp [(NodeState.not_pending_of_serving hs).1]
    · simp [hs]
  case nodeHeartbeat s m _ hs =>
    have hnodes := Table.modify_eq_insert (fun n : Node =>
      { n with leaseUntil := unix (c.read 1 + 90 * second), lastHeartbeat := unix (c.read 1) })
      (liveSession_eq_some.mp hs).2.1
    exact .of_insert hnodes hn (.heard rfl hs rfl rfl rfl rfl rfl)
  case ackApplied usable _ hs _ _ _ =>
    obtain ⟨-, hm, -, -, hserving, -⟩ := liveSession_eq_some.mp hs
    have hnot := (NodeState.not_pending_of_serving hserving).1
    refine .of_insert rfl hn (.kept hm rfl rfl rfl ?_ ?_) <;> cases usable <;> simp [hnot]
  case ackNack hs _ =>
    obtain ⟨-, hm, -, -, hserving, -⟩ := liveSession_eq_some.mp hs
    have hnot := (NodeState.not_pending_of_serving hserving).1
    exact .of_insert rfl hn (.kept hm rfl rfl rfl (by simp [hnot]) (by simp))
  all_goals exact .same hn

theorem Step.tenure {a : Commit} (h : Step E db a db') (hn : db'.nodes.get? id = some n) :
    Tenure E a.clock db db' a.op id n := by
  obtain ⟨mid, S, i, he, hr⟩ := exec_does h
  rw [hr.frame] at hn
  have hswept : Swept mid id → Swept db' id := by
    rw [hr.frame]
    exact fun hs => hs
  cases he.tenure hn with
  | kept before instance_ lease key pending conflict =>
    exact .kept before instance_ lease key pending conflict
  | vacant pending swept => exact .vacant pending (hswept swept)
  | enrolled call nodeID before pending usable instance_ lease key state =>
    exact .enrolled call nodeID before pending usable instance_ lease key state
  | renewed call nodeID usable instance_ lease key state =>
    exact .renewed call nodeID usable instance_ lease key state
  | refused call nodeID usable before state other leased lease key same conflict =>
    exact .refused call nodeID usable before state other leased lease key same conflict
  | recovered before conflict key lease state => exact .recovered before conflict key lease state
  | heard call session nodeID instance_ lease key state =>
    exact .heard call session nodeID instance_ lease key state

end Tenure

section Drawn

variable {E : Env} {c : Clock} {db mid db' : DB} {op : Op} {reply : Reply} {S : String → Prop}
  {a : Commit} {ch : NodeChallenge} {t : String}

def Dead (E : Env) (db : DB) (ch : NodeChallenge) : Prop :=
  ∀ row, db.challenges.get? (E.tokenHash ch.nonce) = some row →
    row.usedAt ≠ 0 ∨ row.nodeID ≠ ch.nodeID

theorem Usable.not_dead {now now' : Int} {sig : Bytes} (h : Usable E now now' ch sig db) :
    ¬ Dead E db ch := by
  obtain ⟨row, hrow, hid, -, hunused, -⟩ := h.row
  intro hdead
  rcases hdead row hrow with hused | hother
  · exact hused hunused
  · exact hother hid

theorem Dead.of_swept (h : Swept db ch.nodeID) : Dead E db ch :=
  fun _ hrow => .inr (h _ _ hrow)

theorem Dead.of_spent (h : Spent E db ch.nonce) : Dead E db ch :=
  fun row hrow => .inl (h row hrow)

theorem Step.dead (h : Step E db a db') (hd : Dead E db ch) (hfresh : ch.nonce ∉ a.op.randomTokens) :
    Dead E db' ch := by
  obtain ⟨mid, S, i, he, hr⟩ := exec_does h
  intro row hrow
  rw [hr.frame] at hrow
  cases he.challenge_edit hrow with
  | kept before => exact hd row before
  | used i _ after =>
    rw [after]
    exact .inl (a.clock.unix_pos i).ne'
  | enrollment call _ _ hnonce key =>
    rw [call, Op.randomTokens, ← hnonce, E.tokenHash_injective key] at hfresh
    exact absurd (List.mem_singleton.mpr rfl) hfresh
  | session call _ _ hnonce key =>
    rw [call, Op.randomTokens, ← hnonce, E.tokenHash_injective key] at hfresh
    exact absurd (List.mem_singleton.mpr rfl) hfresh

theorem Effect.session_row (h : Effect E c db op reply mid S) {row : NodeSessionRow}
    (hrow : mid.nodeSessions.get? (E.tokenHash t) = some row) (hfresh : t ∉ op.randomTokens) :
    db.nodeSessions.get? (E.tokenHash t) = some row := by
  have hdelete : ∀ {id : String},
      (db.nodeSessions.delete fun _ s => s.nodeID = id).get? (E.tokenHash t) = some row →
      db.nodeSessions.get? (E.tokenHash t) = some row := fun h => (Table.get?_delete_eq_some.mp h).1
  have hmint : ∀ {s : NodeSession}, (db.withSession E s).get? (E.tokenHash t) = some row →
      t ≠ s.token → db.nodeSessions.get? (E.tokenHash t) = some row := by
    intro s hs hne
    rcases Table.get?_insert_eq_some.mp hs with ⟨hk, -⟩ | ⟨-, hs⟩
    · exact absurd (E.tokenHash_injective hk) hne
    · exact hdelete hs
  cases h
  case reissueEnrollment => exact hdelete hrow
  case leaveNode => exact hdelete hrow
  case enroll hminted _ _ =>
    refine hmint hrow fun he => hfresh ?_
    rw [he, hminted, Op.randomTokens, List.mem_singleton]
  case renew hminted _ =>
    refine hmint hrow fun he => hfresh ?_
    rw [he, hminted, Op.randomTokens, List.mem_singleton]
  case refuse => exact hdelete hrow
  case recover => exact hdelete hrow
  case deleteNode => exact hdelete hrow
  case changeNodeDomain => exact hdelete hrow
  all_goals exact hrow

theorem Step.session_row (h : Step E db a db') {row : NodeSessionRow}
    (hrow : db'.nodeSessions.get? (E.tokenHash t) = some row) (hfresh : t ∉ a.op.randomTokens) :
    db.nodeSessions.get? (E.tokenHash t) = some row := by
  obtain ⟨mid, S, i, he, hr⟩ := exec_does h
  rw [hr.frame] at hrow
  exact he.session_row hrow hfresh

def TokenOf (E : Env) (db : DB) (t instance_ : String) : Prop :=
  ∀ row, db.nodeSessions.get? (E.tokenHash t) = some row → row.instanceID = instance_

theorem Step.tokenOf (h : Step E db a db') {instance_ : String} (ht : TokenOf E db t instance_)
    (hfresh : t ∉ a.op.randomTokens) : TokenOf E db' t instance_ :=
  fun row hrow => ht row (Step.session_row h hrow hfresh)

theorem TokenOf.mint {s : NodeSession} (hmid : mid.nodeSessions = db.withSession E s) :
    TokenOf E mid s.token s.instanceID := by
  intro row hrow
  rw [hmid, DB.withSession, Table.get?_insert_self, Option.some.injEq] at hrow
  rw [← hrow]

theorem Step.issues (h : Step E db ⟨op, c, .challenge ch⟩ db') : ch.nonce ∈ op.randomTokens := by
  obtain ⟨mid, S, i, he, hr⟩ := exec_does h
  cases he with
  | idle repeatable =>
    cases op <;> cases repeatable <;> simp [Step, exec, quiet_eq_ok, answer_eq_ok] at h
  | enrollmentChallenge _ _ _ _ hnonce => exact List.mem_singleton.mpr hnonce
  | sessionChallenge _ _ hnonce => exact List.mem_singleton.mpr hnonce

theorem Step.enrollment_reply {req : EnrollmentRequest} {token : Token} {box : Bytes}
    (h : Step E db ⟨.enrollCommit req token box, c, reply⟩ db') : ∃ s, reply = .session s :=
  have ⟨s, _, hs⟩ := answer_eq_ok.mp h
  ⟨s, hs⟩

theorem Step.renewal_reply {sig : Bytes} {token : Token}
    (h : Step E db ⟨.renewNodeSession ch sig token, c, reply⟩ db') : ∃ r, reply = .renewal r :=
  have ⟨r, _, hr⟩ := answer_eq_ok.mp h
  ⟨r, hr⟩

/-- A request that consumes its code registers the node with a new token. -/
theorem Step.enrolls {req : EnrollmentRequest} {s : NodeSession} (h : Step E db a db')
    (he : Enrolls db a req s) : s.token ∈ a.op.randomTokens ∧
      TokenOf E db' s.token req.challenge.instanceID ∧ Dead E db' req.challenge ∧
      ∀ n, db'.nodes.get? req.challenge.nodeID = some n →
        n.state ≠ .pending ∧ n.instanceID = req.challenge.instanceID := by
  obtain ⟨op, c, reply⟩ := a
  obtain ⟨mid, S, i, heffect, hr⟩ := exec_does h
  obtain ⟨⟨token, box, rfl⟩, rfl, e, hrow, hunused⟩ := he
  cases heffect with
  | idle repeatable => cases repeatable
  | receipt receipt =>
    obtain ⟨e₀, n, data, he₀, -, -, hconsumed, -⟩ := enrollmentReceipt_eq_some.mp receipt
    cases he₀.symm.trans hrow
    exact absurd hunused hconsumed
  | enroll node domain pending key enrollment code unused unexpired usable purpose minted =>
    rw [hr.frame]
    have hinstance : s.instanceID = req.challenge.instanceID := by rw [minted]
    refine ⟨by rw [minted, Op.randomTokens, List.mem_singleton], ?_, .of_spent (.of_use rfl),
      fun n hn => ?_⟩
    · rw [← hinstance]
      exact .mint rfl
    · rw [Table.get?_insert_self, Option.some.injEq] at hn
      rw [← hn]
      exact ⟨by simp, rfl⟩

theorem Step.renews {ch : NodeChallenge} {sig : Bytes} {token : Token} {s : NodeSession}
    (h : Step E db ⟨.renewNodeSession ch sig token, c, .renewal (.session s)⟩ db') :
    s.token = token.text ∧ TokenOf E db' s.token ch.instanceID := by
  obtain ⟨mid, S, i, heffect, hr⟩ := exec_does h
  cases heffect with
  | idle repeatable => cases repeatable
  | renew node domain state owner key lease usable minted =>
    rw [hr.frame]
    have hinstance : s.instanceID = ch.instanceID := by rw [minted]
    refine ⟨by rw [minted], ?_⟩
    rw [← hinstance]
    exact .mint rfl

end Drawn

end UniDERP
