import UniDERP.Node.Delivery

namespace UniDERP.Node

theorem relay_policy {W : Wire} {s s' : Relay.State} {a : Relay.Act} {P : Relay.PolicyState}
    (h : Relay.Step W s a s') (hp : s.server.policy = some P)
    (ha : ∀ body read order, a ≠ .apply body read order) : s'.server.policy = some P := by
  have hchange := Relay.Step.server h hp
  generalize s'.server = server at hchange ⊢
  cases hchange with
  | clock quiet same => exact same.policy.trans hp
  | registered same bound => exact same.policy.trans hp
  | unregistered => exact hp
  | installed covered installed => exact absurd rfl (ha _ _ _)
  | reaped sweep covered reaped same => exact (same.policy.trans reaped.policy).trans hp
  | closed => exact hp

def Disk.mark (d : Disk) : ℕ := (d.watermark.map (·.revision)).getD 0

/-- No answer is above `n`. -/
def Answered (replies : List PolicyReply) (n : ℕ) : Prop := ∀ ρ ∈ replies, ρ.revision ≤ n

theorem Answered.cons {replies : List PolicyReply} {ρ : PolicyReply} {n : ℕ}
    (h : Answered replies n) (hρ : ρ.revision ≤ n) : Answered (ρ :: replies) n :=
  List.forall_mem_cons.mpr ⟨hρ, h⟩

/-- The policy in force is not above the watermark and binds no key unless it is at least as new as
every answer, and so is what the process is about to apply. -/
structure Process.Honest (W : Wire) (d : Disk) (replies : List PolicyReply) (x : Process) : Prop where
  policy : ∃ P, x.state.server.policy = some P ∧ P.policy.revision ≤ d.mark ∧
    (P.keys = ∅ ∨ Answered replies P.policy.revision)
  marked : ∀ expected m, x.service = .loading expected (.marked m) →
    m.revision ≤ d.mark ∧ Answered replies m.revision
  read : ∀ expected body, x.service = .loading expected (.read body) →
    ∀ p, W.unmarshal body = some p → p.revision ≤ d.mark ∧ Answered replies p.revision

section Process

variable {W : Wire} {d : Disk} {replies : List PolicyReply} {x x' : Process}

theorem Process.Honest.mono {d' : Disk} (h : x.Honest W d replies) (hd : d.mark ≤ d'.mark) :
    x.Honest W d' replies := by
  obtain ⟨P, hp, hle, hkeys⟩ := h.policy
  refine ⟨⟨P, hp, hle.trans hd, hkeys⟩, fun expected m hs => ?_, fun expected body hs p hp => ?_⟩
  · exact ⟨(h.marked expected m hs).1.trans hd, (h.marked expected m hs).2⟩
  · exact ⟨(h.read expected body hs p hp).1.trans hd, (h.read expected body hs p hp).2⟩

theorem Process.Honest.of_policy
    (h : ∃ P, x.state.server.policy = some P ∧ P.policy.revision ≤ d.mark ∧
      (P.keys = ∅ ∨ Answered replies P.policy.revision))
    (hs : ∀ expected load, x.service = .loading expected load → load = .opened) :
    x.Honest W d replies := by
  refine ⟨h, fun expected m hm => ?_, fun expected body hb => ?_⟩
  · cases hs _ _ hm
  · cases hs _ _ hb

theorem Process.Honest.loadFailed (h : x.Honest W d replies) (expected : Option PolicyNotice)
    (missing : Bool) : (x.loadFailed expected missing).Honest W d replies := by
  cases expected <;> exact .of_policy h.policy (by simp [Process.loadFailed])

theorem Process.Honest.loadDone (h : x.Honest W d replies) (expected : Option PolicyNotice) :
    (x.loadDone expected).Honest W d replies := by
  cases expected <;> exact .of_policy h.policy (by simp [Process.loadDone])

theorem Process.Honest.accept (h : x.Honest W d replies) (request : Option PolicyNotice) :
    (x.accept W request).Honest W d replies := by
  refine .of_policy ?_ ?_
  · have hstate : (x.accept W request).state = x.state := by
      unfold Process.accept
      split
      · rfl
      · split_ifs <;> rfl
    rw [hstate]
    exact h.policy
  · intro expected load
    unfold Process.accept
    split
    · simp
    · split_ifs
      · simp
      · rintro ⟨⟩
        rfl
      · simp

theorem bodyUsable_revision {expected : Option PolicyNotice} {m : CacheWatermark} {body : Bytes}
    (h : bodyUsable W expected m body) {p : Policy} (hp : W.unmarshal body = some p) :
    p.revision = m.revision := by
  simp only [bodyUsable, Bool.and_eq_true] at h
  have hdecode := h.2
  split at hdecode
  · rename_i q hq
    cases hp.symm.trans (Wire.decodePolicy_eq_ok.mp hq).2.1
    simpa using hdecode
  · cases hdecode

theorem applied_policy {read : ℕ → Reading} {order : List ℕ} {body : Bytes} {s s' : Relay.State}
    {P : Relay.PolicyState} (h : Relay.act W (.apply body read order) s = some s')
    (hp : s.server.policy = some P) :
    s'.server.policy = some P ∨ ∃ p Q, W.unmarshal body = some p ∧ s'.server.policy = some Q ∧
      Q.policy = p := by
  simp only [Relay.act] at h
  split_ifs at h
  cases h
  have happlied := Relay.applyPolicy_applied W read order body s.server
  generalize (Relay.applyPolicy W read order body s.server).1 = result at happlied
  dsimp only
  cases happlied with
  | refused e same => exact .inl (same.policy.trans hp)
  | repeated decoded stored identity revision digest same answer =>
    exact .inl (same.policy.trans hp)
  | installed installed answer =>
    exact .inr ⟨_, _, (Wire.decodePolicy_eq_ok.mp installed.decoded).2.1, installed.policy, rfl⟩

/-- One step of a process: no answer exceeds the watermark, and the process stays honest. -/
theorem Process.Honest.act {a : ProcessAct} {reply : Option PolicyReply}
    (h : x.Honest W d replies) (hmark : Answered replies d.mark)
    (hact : x.act W d a = some (x', reply)) :
    x'.Honest W d (reply.toList ++ replies) ∧ Answered (reply.toList ++ replies) d.mark := by
  obtain ⟨P, hp, hle, hkeys⟩ := h.policy
  cases a with
  | relay a =>
    have hstep : (∀ body read order, a ≠ .apply body read order) ∧
        ∃ s, Relay.Step W x.state a s ∧ x' = { x with state := s } ∧ reply = none := by
      cases a
      case apply => simp [Process.act] at hact
      all_goals
        simp only [Process.act, Option.map_eq_some_iff, Prod.mk.injEq] at hact
        obtain ⟨s, hs, rfl, rfl⟩ := hact
        exact ⟨by simp, s, hs, rfl, rfl⟩
    obtain ⟨ha, s, hs, rfl, rfl⟩ := hstep
    exact ⟨⟨⟨P, relay_policy hs hp ha, hle, hkeys⟩, h.marked, h.read⟩, hmark⟩
  | readMark now =>
    simp only [Process.act] at hact
    split at hact
    · split at hact
      · cases hact
        exact ⟨h.loadFailed _ _, hmark⟩
      · rename_i m hm
        split_ifs at hact
        · cases hact
          have hrevision : d.mark = m.revision := by simp [Disk.mark, hm]
          refine ⟨⟨h.policy, fun expected m' hs => ?_, fun expected body hs => ?_⟩, hmark⟩
          · cases hs
            exact ⟨hrevision.ge, hrevision ▸ hmark⟩
          · cases hs
        · cases hact
          exact ⟨h.loadFailed _ _, hmark⟩
    · cases hact
  | readBody =>
    simp only [Process.act] at hact
    split at hact
    · rename_i expected m hs
      split at hact
      · cases hact
        exact ⟨h.loadFailed _ _, hmark⟩
      · split_ifs at hact with husable
        · cases hact
          refine ⟨⟨h.policy, fun expected m' hs => ?_, fun expected body hs' p hp => ?_⟩, hmark⟩
          · cases hs
          · cases hs'
            rw [bodyUsable_revision husable hp]
            exact h.marked _ _ hs
        · cases hact
          exact ⟨h.loadFailed _ _, hmark⟩
    · cases hact
  | fail =>
    simp only [Process.act] at hact
    split at hact
    · cases hact
      exact ⟨h.loadFailed _ _, hmark⟩
    · cases hact
  | apply read order =>
    simp only [Process.act] at hact
    split at hact
    · rename_i expected body hs
      obtain ⟨s, hstep, heq⟩ := Option.map_eq_some_iff.mp hact
      have happlied : ({ x with state := s } : Process).Honest W d replies := by
        refine ⟨?_, h.marked, h.read⟩
        rcases applied_policy hstep hp with hsame | ⟨p, Q, hbody, hQ, hQp⟩
        · exact ⟨P, hsame, hle, hkeys⟩
        · obtain ⟨hrevision, hanswered⟩ := h.read _ _ hs p hbody
          exact ⟨Q, hQ, hQp ▸ hrevision, .inr (hQp ▸ hanswered)⟩
      split at heq
      · cases heq
        exact ⟨happlied.loadDone _, hmark⟩
      · cases heq
        exact ⟨happlied.loadFailed _ _, hmark⟩
    · cases hact
  | accept request =>
    simp only [Process.act] at hact
    split at hact
    · cases hact
      exact ⟨h.accept _, hmark⟩
    · cases hact
  | answer read order =>
    simp only [Process.act] at hact
    split at hact
    · obtain ⟨s, hstep, heq⟩ := Option.map_eq_some_iff.mp hact
      cases heq
      -- The answer has the revision of the policy in force.
      have hrevision : (Relay.policyStatus read order x.state.server).1.revision =
          P.policy.revision := by
        obtain ⟨-, -, -, hr⟩ := Relay.policyStatus_reaped hp
        exact hr
      refine ⟨.of_policy ⟨P, relay_policy hstep hp (by simp), hle, ?_⟩ (by simp), ?_⟩
      · exact hkeys.imp_right fun hanswered => hanswered.cons hrevision.le
      · exact hmark.cons (hrevision.le.trans hle)
    · cases hact

end Process

/-- What the daemon does to the rest: it never moves the watermark back, and what it posts as
applied is an answer. -/
structure DaemonStep (replies : List PolicyReply) (d d' : Disk) (acks : List PolicyACK) : Prop where
  mark : d.mark ≤ d'.mark
  acks : ∀ ack ∈ acks, ack.state = .applied → ∃ ρ ∈ replies, ρ.revision = ack.revision

section Daemon

variable {W : Wire} {d d' : Disk} {replies : List PolicyReply}

theorem Disk.mark_le (h : ∀ m, d.watermark = some m →
    ∃ m', d'.watermark = some m' ∧ Advances m m') : d.mark ≤ d'.mark := by
  unfold Disk.mark
  cases hm : d.watermark with
  | none => exact Nat.zero_le _
  | some m =>
    obtain ⟨m', hm', hadv⟩ := h m hm
    rw [hm']
    exact hadv.revision

theorem perform_mark (c : Call) (cut : Option ℕ) : d.mark ≤ (perform W c cut d).1.mark :=
  Disk.mark_le fun _ hm => (perform_performed W c cut d).advances hm

theorem saveCacheAt_mark {p : Policy} {now : Stamp} {m : CacheWatermark} {body : Bytes}
    (h : saveCacheAt W p now d = .ok (m, body)) :
    d.mark ≤ ({ d with watermark := some m } : Disk).mark :=
  Disk.mark_le fun m₀ hm₀ => ⟨m, rfl, ((saveCacheAt_saves h).advances m₀ hm₀).1⟩

theorem prepareNodePolicy_mark (clusterID nodeID : String) (now : Stamp) (cut : Option ℕ) :
    d.mark ≤ (prepareNodePolicy W clusterID nodeID now cut d).mark := by
  have hmark := perform_mark (d := d) (W := W) (.load clusterID nodeID now) cut
  unfold prepareNodePolicy
  split
  all_goals
    rename_i hperform
    rw [hperform] at hmark
    exact hmark

theorem applyFailed_state {p : Policy} {report : Bool} {ack : PolicyACK}
    (h : ack ∈ applyFailed p report) : ack.state = .nack := by
  unfold applyFailed at h
  split_ifs at h
  · rw [List.mem_singleton.mp h]
    rfl
  · cases h

theorem DaemonStep.of_mark {acks : List PolicyACK} (h : d.mark ≤ d'.mark)
    (hacks : ∀ ack ∈ acks, ack.state ≠ .applied) : DaemonStep replies d d' acks :=
  ⟨h, fun ack hack happlied => absurd happlied (hacks ack hack)⟩

theorem daemonAct_step {clusterID nodeID : String} {phase phase' : Phase} {a : DaemonAct}
    {acks : List PolicyACK}
    (h : daemonAct W clusterID nodeID replies phase d a = some (phase', d', acks)) :
    DaemonStep replies d d' acks := by
  have hnone : ∀ ack ∈ ([] : List PolicyACK), ack.state ≠ .applied := by simp
  have hnack : ∀ p error, ∀ ack ∈ [nack p error], ack.state ≠ .applied := by simp [nack]
  have hfailed : ∀ p report, ∀ ack ∈ applyFailed p report, ack.state ≠ .applied := by
    intro p report ack hack
    simp [applyFailed_state hack]
  -- Only `settle` sends an applied acknowledgement, and it does so for a reply of the relay.
  cases a with
  | start now cut =>
    simp only [daemonAct] at h
    split at h <;> cases h
    exact .of_mark (prepareNodePolicy_mark ..) hnone
  | stop =>
    cases h
    exact .of_mark le_rfl hnone
  | resume now cut =>
    simp only [daemonAct] at h
    split at h
    · have hmark := perform_mark (d := d) (W := W) (.load clusterID nodeID now) cut
      split at h
      all_goals
        rename_i hperform
        rw [hperform] at hmark
        cases h
        exact .of_mark hmark hnone
    · cases h
  | look now cut =>
    simp only [daemonAct] at h
    split_ifs at h
    cases h
    exact .of_mark (perform_mark ..) hnone
  | conflict =>
    simp only [daemonAct] at h
    split at h <;> cases h
    exact .of_mark le_rfl hnone
  | receive p now written =>
    simp only [daemonAct] at h
    split at h
    · split at h
      · cases h
        exact .of_mark le_rfl (hnack _ _)
      · split at h
        · rename_i hsave
          cases h
          exact .of_mark (saveCacheAt_mark hsave) hnone
        · cases h
          exact .of_mark le_rfl (hnack _ _)
    · cases h
  | write =>
    simp only [daemonAct] at h
    split at h <;> cases h
    exact .of_mark le_rfl hnone
  | confirm answered =>
    simp only [daemonAct] at h
    split at h <;> cases h
    exact .of_mark le_rfl (by simp)
  | apply now written =>
    simp only [daemonAct] at h
    split at h
    · split at h
      · rename_i hsave
        cases h
        exact .of_mark (saveCacheAt_mark hsave) hnone
      · cases h
        exact .of_mark le_rfl (hfailed _ _)
    · cases h
  | rewrite =>
    simp only [daemonAct] at h
    split at h <;> cases h
    exact .of_mark le_rfl hnone
  | fail =>
    simp only [daemonAct] at h
    split at h <;> cases h
    · exact .of_mark le_rfl (hnack _ _)
    · exact .of_mark le_rfl (hnack _ _)
    · exact .of_mark le_rfl (hfailed _ _)
    · exact .of_mark le_rfl (hfailed _ _)
  | settle reply =>
    simp only [daemonAct] at h
    split at h
    · split_ifs at h with hreply hok hreport
      · cases h
        refine ⟨le_rfl, fun ack hack _ => ⟨reply, hreply, ?_⟩⟩
        rw [List.mem_singleton.mp hack]
      · cases h
        exact .of_mark le_rfl hnone
      · cases h
        exact .of_mark le_rfl (hfailed _ _)
    · cases h

end Daemon

/-- The applied revision of a node is new, kept, cleared, or the one of an acknowledgement. -/
theorem applied_origin {E : Env} {db db' : DB} {a : Commit} (h : UniDERP.Step E db a db')
    {id : String} {row' : PolicyRow} (hrow' : db'.policies.get? id = some row') :
    row'.appliedRevision = 0 ∨
      (∃ row, db.policies.get? id = some row ∧ row'.appliedRevision = row.appliedRevision) ∨
      ∃ token ack s n, a.op = .acknowledgePolicy token ack ∧ ack.state = .applied ∧
        db.liveSession E (a.clock.read 0) token = some (s, n) ∧ s.nodeID = id ∧
        row'.appliedRevision = ack.revision := by
  obtain ⟨mid, S, i, he, hr⟩ := exec_does h
  -- A build does not touch the applied revision.
  obtain ⟨row, hrow, happlied⟩ : ∃ row, mid.policies.get? id = some row ∧
      row'.appliedRevision = row.appliedRevision := by
    have hbuild := hr.row_build id
    rw [hrow'] at hbuild
    generalize mid.policies.get? id = o at hbuild ⊢
    generalize hs : some row' = o' at hbuild
    cases hbuild with
    | kept =>
      subst hs
      exact ⟨row', rfl, rfl⟩
    | built hb =>
      cases hs
      refine ⟨_, rfl, ?_⟩
      cases hb <;> rfl
  rw [happlied]
  have hedit := he.row_edit id
  rw [hrow] at hedit
  generalize db.policies.get? id = o at hedit ⊢
  generalize hs : some row = o' at hedit
  cases hedit with
  | kept =>
    subst hs
    exact .inr (.inl ⟨row, rfl, rfl⟩)
  | created built node =>
    cases hs
    exact .inl rfl
  | deleted => cases hs
  | released built node =>
    cases hs
    exact .inl rfl
  | configured built q =>
    cases hs
    exact .inr (.inl ⟨_, rfl, rfl⟩)
  | received revision =>
    cases hs
    exact .inr (.inl ⟨_, rfl, rfl⟩)
  | applied call state session node usable =>
    cases hs
    exact .inr (.inr ⟨_, _, _, _, call, state, session, node, rfl⟩)

/-- What is answered is below the watermark, what is posted as applied was answered, and what the
controller has as applied was posted. -/
structure Honest (W : Wire) (nodeID : String) (s : System) : Prop where
  mark : Answered s.replies s.disk.mark
  relay : ∀ x, s.relay = some x → x.Honest W s.disk s.replies
  sent : ∀ ack ∈ s.sent, ack.state = .applied → ∃ ρ ∈ s.replies, ρ.revision = ack.revision
  applied : ∀ row, s.db.policies.get? nodeID = some row →
    row.appliedRevision = 0 ∨ ∃ ρ ∈ s.replies, ρ.revision = row.appliedRevision

/-- The relay process, if there is one, enforces a policy of at least this revision, or admits no
key. -/
def System.Enforces (s : System) (revision : ℕ) : Prop := ∀ x, s.relay = some x →
  (∃ P, x.state.server.policy = some P ∧ revision ≤ P.policy.revision) ∨
    ∀ now k, (Relay.bindingLocked now k x.state.server).1 = none

section System

variable {E : Env} {W : Wire} {nodeID : String} {s s' : System}

theorem Honest.move {a : Move} (h : Honest W nodeID s) (hmove : s.move E W nodeID a = some s') :
    Honest W nodeID s' := by
  cases a with
  | commit op clock =>
    simp only [System.move] at hmove
    split at hmove
    · rename_i db reply hexec
      split_ifs at hmove with hauthentic
      cases hmove
      refine ⟨h.mark, h.relay, h.sent, fun row' hrow' => ?_⟩
      have hstep : UniDERP.Step E s.db ⟨op, clock, reply⟩ db := hexec
      -- An applied revision is new in the store only through an acknowledgement of this node.
      rcases applied_origin hstep hrow' with hzero | ⟨row, hrow, heq⟩ |
        ⟨token, ack, session, n, hop, hstate, hsession, hid, heq⟩
      · exact .inl hzero
      · rw [heq]
        exact h.applied row hrow
      · subst hop
        simp only [System.authentic, hsession, Option.all_some, hid, ne_eq, not_true_eq_false,
          decide_false, Bool.or_false, decide_eq_true_eq] at hauthentic
        rw [heq]
        exact .inr (h.sent ack hauthentic hstate)
    · cases hmove
  | daemon a =>
    simp only [System.move, Option.map_eq_some_iff, Prod.exists] at hmove
    obtain ⟨phase, disk, acks, hact, rfl⟩ := hmove
    have hstep := daemonAct_step hact
    refine ⟨fun ρ hρ => (h.mark ρ hρ).trans hstep.mark, fun x hx => (h.relay x hx).mono hstep.mark,
      fun ack hack => ?_, h.applied⟩
    rcases List.mem_append.mp hack with hack | hack
    · exact hstep.acks ack hack
    · exact h.sent ack hack
  | startRelay budget now =>
    simp only [System.move] at hmove
    split at hmove
    · cases hmove
      refine ⟨h.mark, fun x hx => ?_, h.sent, h.applied⟩
      cases hx
      refine .of_policy ⟨_, rfl, Nat.zero_le _, .inl rfl⟩ fun expected load hl => ?_
      cases hl
      rfl
    · cases hmove
  | stopRelay =>
    cases hmove
    exact ⟨h.mark, by simp, h.sent, h.applied⟩
  | relay a =>
    simp only [System.move, Option.bind_eq_some_iff, Option.map_eq_some_iff, Prod.exists] at hmove
    obtain ⟨x, hx, x', reply, hact, rfl⟩ := hmove
    obtain ⟨hhonest, hmark⟩ := (h.relay x hx).act h.mark hact
    have hmore : ∀ n, (∃ ρ ∈ s.replies, ρ.revision = n) →
        ∃ ρ ∈ reply.toList ++ s.replies, ρ.revision = n := by
      rintro n ⟨ρ, hρ, hn⟩
      exact ⟨ρ, List.mem_append_right _ hρ, hn⟩
    refine ⟨hmark, fun y hy => ?_, fun ack hack hstate => hmore _ (h.sent ack hack hstate),
      fun row hrow => (h.applied row hrow).imp_right (hmore _)⟩
    cases hy
    exact hhonest

theorem Honest.enforces (h : Honest W nodeID s) {ρ : PolicyReply} (hρ : ρ ∈ s.replies) :
    s.Enforces ρ.revision := by
  intro x hx
  obtain ⟨P, hp, -, hkeys⟩ := (h.relay x hx).policy
  rcases hkeys with hempty | hanswered
  · refine .inr fun now k => ?_
    simp only [Relay.bindingLocked, hp, hempty, Table.get?_empty, Option.filter_none]
    split_ifs <;> rfl
  · exact .inl ⟨P, hp, hanswered ρ hρ⟩

theorem System.Run.honest (r : System.Run E W nodeID) {i : ℕ} (hi : i ≤ r.len) :
    Honest W nodeID (r.state i) := by
  refine Reachable.invariant (r.reachable hi) ?_ fun s a s' _ h hmove => Honest.move h hmove
  rintro s rfl
  refine ⟨by simp [Answered], by simp, by simp, fun row hrow => ?_⟩
  simp [DB.empty] at hrow

/-- In every run of the node and the controller: while the controller shows a revision as applied,
the relay process enforces a policy of at least that revision, or admits no key; and so it does
from the moment on at which the daemon posts the acknowledgement. -/
theorem System.Run.applied_enforced (r : System.Run E W nodeID) :
    (∀ i ≤ r.len, ∀ row, (r.state i).db.policies.get? nodeID = some row → 0 < row.appliedRevision →
      (r.state i).Enforces row.appliedRevision) ∧
    ∀ i ≤ r.len, ∀ ack ∈ (r.state i).sent, ack.state = .applied →
      (r.state i).Enforces ack.revision := by
  refine ⟨fun i hi row hrow hpos => ?_, fun i hi ack hack hstate => ?_⟩
  · obtain ⟨ρ, hρ, heq⟩ := ((System.Run.honest r hi).applied row hrow).resolve_left hpos.ne'
    exact heq ▸ (System.Run.honest r hi).enforces hρ
  · obtain ⟨ρ, hρ, heq⟩ := (System.Run.honest r hi).sent ack hack hstate
    exact heq ▸ (System.Run.honest r hi).enforces hρ

end System

end UniDERP.Node
