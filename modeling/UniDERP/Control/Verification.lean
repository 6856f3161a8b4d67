import UniDERP.Control.Domains

namespace UniDERP

def RecoversUnverified (db : DB) (op : Op) (id : String) : Prop :=
  ∃ actor instance_ n, op = .recoverNodeInstance actor id instance_ ∧
    db.nodes.get? id = some n ∧ n.domainVerifiedAt = 0

section Step

variable {E : Env} {db db' : DB} {a : Commit} {id : String} {n : Node}

/-- How a transaction leaves the state of a node and the time recorded for its domain. -/
inductive Recorded (db : DB) (op : Op) (id : String) (n : Node) : Prop
  /-- Both as they were, or in another serving state. -/
  | kept {m : Node} (before : db.nodes.get? id = some m)
      (same : n.domainVerifiedAt = m.domainVerifiedAt) (state : n.state = m.state ∨ m.state.serving ∧ n.state.proven)
  | unverified (cleared : n.domainVerifiedAt = 0)
      (state : n.state = .pending ∨ n.state = .domainPending)
  | verified (now : n.domainVerifiedAt ≠ 0) (state : n.state.proven)
  | refused {m : Node} (before : db.nodes.get? id = some m)
      (same : n.domainVerifiedAt = m.domainVerifiedAt) (state : n.state = .identityConflict)
  | recovered {m : Node} {actor : Actor} {instance_ : String}
      (call : op = .recoverNodeInstance actor id instance_) (before : db.nodes.get? id = some m)
      (same : n.domainVerifiedAt = m.domainVerifiedAt) (state : n.state = .registered)

theorem Step.recorded (h : Step E db a db') (hn : db'.nodes.get? id = some n) :
    Recorded db a.op id n := by
  obtain ⟨mid, S, _, he, hr⟩ := exec_does h
  have hmid : mid.nodes.get? id = some n := by rwa [hr.frame] at hn
  cases he.node_edit id with
  | kept same => exact .kept (same.symm.trans hmid) rfl (.inl rfl)
  | created call _ after pending =>
    cases hmid.symm.trans after
    exact .unverified (Step.created h call hn).unverified (.inl pending)
  | deleted _ _ gone =>
    rw [gone, DB.deleteNode, Table.get?_erase_self] at hmid
    cases hmid
  | released _ _ after =>
    cases hmid.symm.trans after
    exact .unverified rfl (.inl rfl)
  | enrolled _ _ _ _ _ _ _ after =>
    cases hmid.symm.trans after
    exact .verified (a.clock.unix_pos 5).ne' rfl
  | @renewed ch _ _ m _ _ before _ state _ _ _ after =>
    cases hmid.symm.trans after
    by_cases hd : m.state = .domainPending
    · have hpurpose : ch.purpose = .domainChange := by
        simpa [renewable, hd, NodeState.serving] using state
      refine .verified ?_ (by simp [hd, NodeState.proven])
      simpa [hpurpose] using (a.clock.unix_pos 5).ne'
    · have hpurpose : ch.purpose = .session ∧ m.state.serving := by
        simpa [renewable, hd] using state
      exact .kept before (by simp [hpurpose.1]) (.inl (by simp [hd]))
  | refused _ _ before _ _ _ _ after =>
    cases hmid.symm.trans after
    exact .refused before rfl rfl
  | recovered call before _ _ _ after =>
    cases hmid.symm.trans after
    exact .recovered call before rfl rfl
  | moved _ _ _ _ _ after =>
    cases hmid.symm.trans after
    exact .unverified rfl (.inr rfl)
  | ported before after =>
    cases hmid.symm.trans after
    exact .kept before rfl (.inl rfl)
  | switched before _ after =>
    cases hmid.symm.trans after
    exact .kept before rfl (.inl rfl)
  | heard before _ after =>
    cases hmid.symm.trans after
    exact .kept before rfl (.inl rfl)
  | acknowledged before serving next after =>
    cases hmid.symm.trans after
    refine .kept before rfl (.inr ⟨serving, ?_⟩)
    rcases next with h | h <;> rw [h] <;> rfl

theorem Recorded.proven {op : Op} (h : Recorded db op id n)
    (hbefore : ∀ m, db.nodes.get? id = some m → m.domainVerifiedAt ≠ 0 → m.state.proven)
    (hrecorded : n.domainVerifiedAt ≠ 0) : n.state.proven := by
  cases h with
  | kept before same state =>
    rcases state with hstate | ⟨-, hproven⟩
    · rw [hstate]
      exact hbefore _ before (same ▸ hrecorded)
    · exact hproven
  | unverified cleared => exact absurd cleared hrecorded
  | verified _ state => exact state
  | refused _ _ state => rw [state]; rfl
  | recovered _ _ _ state => rw [state]; rfl

theorem Recorded.serving {op : Op} (h : Recorded db op id n)
    (hbefore : ∀ m, db.nodes.get? id = some m → m.state.serving → m.domainVerifiedAt ≠ 0)
    (hrecovers : ¬ RecoversUnverified db op id) (hserving : n.state.serving) :
    n.domainVerifiedAt ≠ 0 := by
  cases h with
  | kept before same state =>
    rw [same]
    refine hbefore _ before ?_
    rcases state with hstate | ⟨hserves, -⟩
    · exact hstate ▸ hserving
    · exact hserves
  | unverified _ state => rcases state with h | h <;> simp [h, NodeState.serving] at hserving
  | verified now => exact now
  | refused _ _ state => simp [state, NodeState.serving] at hserving
  | recovered call before same =>
    rw [same]
    exact fun hzero => hrecovers ⟨_, _, _, call, before, hzero⟩

theorem Step.recovered_unverified (h : Step E db a db') (hr : RecoversUnverified db a.op id) :
    ∃ n, db'.nodes.get? id = some n ∧ n.state = .registered ∧ n.domainVerifiedAt = 0 := by
  obtain ⟨op, c, reply⟩ := a
  obtain ⟨actor, instance_, m, hop, hm, hzero⟩ := hr
  dsimp only at hop
  subst hop
  obtain ⟨mid, S, _, he, hr⟩ := exec_does h
  rw [hr.frame]
  cases he with
  | idle repeatable => cases repeatable
  | sessions login => cases login
  | ports portChange => cases portChange
  | recover _ node =>
    cases hm.symm.trans node
    exact ⟨_, Table.get?_insert_self _ _ _, rfl, hzero⟩

end Step

namespace World.Run

variable {E : Env} {r : World.Run E}

theorem recorded_proven {i : ℕ} (hi : i ≤ r.len) {id : String} {n : Node}
    (hn : (r.state i).db.nodes.get? id = some n) (hrecorded : n.domainVerifiedAt ≠ 0) :
    n.state.proven := by
  refine db_preserved (r := r) (P := fun db => ∀ n, db.nodes.get? id = some n →
    n.domainVerifiedAt ≠ 0 → n.state.proven) (Nat.zero_le i) hi (fun n hn => ?_)
    (fun k a _ hk ha hbefore n hn => ?_) n hn hrecorded
  · rw [r.start] at hn
    simp [DB.empty] at hn
  · exact (Step.recorded (step_of_commit (by omega) ha) hn).proven hbefore

theorem recorded_serving (hno : ∀ k < r.len, ∀ a id, r.commit k = some a →
    ¬ RecoversUnverified (r.state k).db a.op id) {i : ℕ} (hi : i ≤ r.len) {id : String} {n : Node}
    (hn : (r.state i).db.nodes.get? id = some n) (hserving : n.state.serving) :
    n.domainVerifiedAt ≠ 0 := by
  refine db_preserved (r := r) (P := fun db => ∀ n, db.nodes.get? id = some n →
    n.state.serving → n.domainVerifiedAt ≠ 0) (Nat.zero_le i) hi (fun n hn => ?_)
    (fun k a _ hk ha hbefore n hn => ?_) n hn hserving
  · rw [r.start] at hn
    simp [DB.empty] at hn
  · exact (Step.recorded (step_of_commit (by omega) ha) hn).serving hbefore (hno k (by omega) a id ha)

/-- Every node that is registered, ready or offline has a recorded verification exactly in the
runs that recover no node without one; and in every run what is recorded is true, unless a nonce
was drawn twice. -/
theorem verification_recorded (r : World.Run E) :
    ((∀ i ≤ r.len, ∀ id n, (r.state i).db.nodes.get? id = some n →
        n.state = .registered ∨ n.state = .ready ∨ n.state = .offline → n.domainVerifiedAt ≠ 0) ↔
      ∀ k < r.len, ∀ a id, r.commit k = some a →
        ¬ RecoversUnverified (r.state k).db a.op id) ∧
    ∀ i ≤ r.len, ∀ id n, (r.state i).db.nodes.get? id = some n → n.domainVerifiedAt ≠ 0 →
      r.Redrawn i ∨ ∃ v < i, ∃ ch, r.Probes v ch ∧ ch.nodeID = id ∧ ch.domain = n.domain ∧
        n.publicKey = some ch.publicKey ∧ r.Stands id n.domain v i := by
  refine ⟨⟨fun hall k hk a id ha hrecovers => ?_, fun hno i hi id n hn hstate => ?_⟩,
    fun i hi id n hn hrecorded => ?_⟩
  · obtain ⟨n, hn, hregistered, hzero⟩ := (step_of_commit hk ha).recovered_unverified hrecovers
    exact hall (k + 1) hk id n hn (.inl hregistered) hzero
  · refine recorded_serving hno hi hn ?_
    rcases hstate with h | h | h <;> rw [h] <;> rfl
  · refine (proven hi hn (recorded_proven hi hn hrecorded)).imp_right fun ⟨v, ch, h⟩ => ?_
    obtain ⟨hid, hdomain, hkey⟩ := h.challenge
    exact ⟨v, h.order, ch, h.probed, hid, hdomain, hkey, h.stands⟩

/-- The challenge that another instance of the first node gets for its new domain. -/
def movedChallenge : NodeChallenge :=
  { First.challenge with
    purpose := .domainChange, domain := "new.example", nonce := First.token '4', instanceID := "two" }

theorem movedNonce_valid : validToken (First.token '4') = true := First.token_valid rfl

/-- The first node moves; its next instance asks too early and is recovered. -/
def movedActs : List Act := [
  .commit First.clock (.initializeAdmin "admin" "a long password" First.owner "hash"),
  .commit First.clock
    (.createNode First.admin "relay" "relay.example" 443 3478 First.node First.code),
  .commit First.clock (.enrollmentChallenge First.code.text First.publicKey "one" First.nonce),
  .enrollBegin 0 First.clock ⟨First.code.text, First.challenge, First.signature⟩,
  .verifyDomain 0,
  .enrollFinish 0 First.clock First.session [],
  .commit First.clock (.setNodeEnabled First.admin First.node.text false),
  .commit First.clock (.changeNodeDomain First.admin First.node.text "new.example" false),
  .commit First.clock
    (.sessionChallenge First.node.text "two" ⟨First.token '4', movedNonce_valid⟩),
  .renewBegin 1 First.clock movedChallenge First.signature,
  .verifyDomain 1,
  .renewFinish 1 First.clock ⟨First.token '5', First.token_valid rfl⟩,
  .commit First.clock (.recoverNodeInstance First.admin First.node.text "two")]

/-- A recovered node is registered under a domain that is shown as not verified. -/
theorem recovered_shown_unverified : ∃ (r : World.Run Env.plain) (n : Node),
    (r.state r.len).db.nodes.get? First.node.text = some n ∧ n.state = .registered ∧
      n.domain = "new.example" ∧ n.domainVerifiedAt = 0 := by
  have hplay : (UniDERP.Run.play (World.after Env.plain) movedActs {}).bind
      (fun w => (w.db.nodes.get? First.node.text).map fun n =>
        (n.state, n.domain, n.domainVerifiedAt)) =
      some (.registered, "new.example", 0) := by
    decide +kernel
  obtain ⟨w, hw, hn⟩ := Option.bind_eq_some_iff.mp hplay
  obtain ⟨n, hn, hshown⟩ := Option.map_eq_some_iff.mp hn
  obtain ⟨hstate, hshown⟩ := Prod.mk.inj hshown
  obtain ⟨hdomain, hzero⟩ := Prod.mk.inj hshown
  obtain ⟨r, hlen, hstates, -⟩ := of_acts hw
  have hlast : r.state r.len = w := by
    have hfull := hstates movedActs.length le_rfl
    rw [List.take_length, hw, Option.some.injEq] at hfull
    rw [hlen, hfull]
  exact ⟨r, n, hlast ▸ hn, hstate, hdomain, hzero⟩

end World.Run

end UniDERP
