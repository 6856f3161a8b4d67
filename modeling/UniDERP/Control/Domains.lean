import UniDERP.Control.Calls
import UniDERP.Control.Instances
import UniDERP.Control.RowEdits

namespace UniDERP

def NodeState.proven : NodeState → Bool
  | .pending | .domainPending => false
  | _ => true

def Proves (op : Op) (ch : NodeChallenge) : Prop :=
  (∃ req token box, op = .enrollCommit req token box ∧ req.challenge = ch) ∨
    ch.purpose = .domainChange ∧ ∃ sig token, op = .renewNodeSession ch sig token

def Held (E : Env) (db : DB) (nonce id : String) : Prop :=
  ∃ row, db.challenges.get? (E.tokenHash nonce) = some row ∧ row.nodeID = id

def Swept (db : DB) (id : String) : Prop :=
  ∀ k row, db.challenges.get? k = some row → row.nodeID ≠ id

theorem Held.not_swept {E : Env} {db : DB} {nonce id : String} (h : Held E db nonce id) :
    ¬ Swept db id := by
  obtain ⟨row, hrow, hid⟩ := h
  exact fun hs => hs _ row hrow hid

section Effect

variable {E : Env} {c : Clock} {db mid db' : DB} {op : Op} {reply : Reply} {S : String → Prop}
  {id : String}

theorem Swept.delete {challenges : Table String Challenge}
    (hmid : mid.challenges = challenges.delete fun _ ch => ch.nodeID = id) : Swept mid id := by
  intro k row hrow
  rw [hmid] at hrow
  simpa using (Table.get?_delete_eq_some.mp hrow).2

/-- A node is left without a session by a reissued code or by itself, and without challenges. -/
theorem Effect.reissued (h : Effect E c db op reply mid S) (hr : Reissues E c db op id) :
    (∀ n, mid.nodes.get? id = some n → n.state = .pending) ∧ Swept mid id := by
  have hreleased : ∀ n, (db.release id).nodes.get? id = some n → n.state = .pending := by
    intro n hn
    obtain ⟨m, -, rfl⟩ := Table.get?_modify_eq_some.mp hn
    simp
  rcases hr with ⟨actor, code, rfl⟩ | ⟨token, s, n, rfl, hs, rfl⟩
  · cases h with
    | idle repeatable => cases repeatable
    | sessions login => cases login
    | ports portChange => cases portChange
    | issueEnrollment node pending =>
      refine ⟨fun m hm => ?_, .delete rfl⟩
      cases node.symm.trans hm
      exact pending
    | reissueEnrollment => exact ⟨hreleased, .delete rfl⟩
  · cases h with
    | idle repeatable => cases repeatable
    | sessions login => cases login
    | ports portChange => cases portChange
    | leaveNode session =>
      cases hs.symm.trans session
      exact ⟨hreleased, .delete rfl⟩

/-- What takes a node away or gives it another domain deletes its challenges. -/
theorem Effect.domain_kept (h : Effect E c db op reply mid S) {n : Node}
    (hn : db.nodes.get? id = some n) :
    (∃ n', mid.nodes.get? id = some n' ∧ n'.domain = n.domain) ∨ Swept mid id := by
  have hkept : ∀ {m m' : Node}, db.nodes.get? id = some m → mid.nodes.get? id = some m' →
      m'.domain = m.domain → ∃ n', mid.nodes.get? id = some n' ∧ n'.domain = n.domain := by
    intro m m' hm hm' hdomain
    rw [hn, Option.some.injEq] at hm
    exact ⟨m', hm', hm ▸ hdomain⟩
  cases h.node_edit id with
  | kept same => exact .inl ⟨n, same.trans hn, rfl⟩
  | created _ before => simp [hn] at before
  | deleted _ _ gone => exact .inr (.delete (congrArg DB.challenges gone))
  | moved _ _ _ _ _ _ challenges => exact .inr (.delete challenges)
  | released _ before after => exact .inl (hkept before after rfl)
  | enrolled _ _ before _ _ _ _ after => exact .inl (hkept before after rfl)
  | renewed _ _ before _ _ _ _ _ after => exact .inl (hkept before after rfl)
  | refused _ _ before _ _ _ _ after => exact .inl (hkept before after rfl)
  | recovered _ before _ _ _ after => exact .inl (hkept before after rfl)
  | ported before after => exact .inl (hkept before after rfl)
  | switched before _ after => exact .inl (hkept before after rfl)
  | heard before _ after => exact .inl (hkept before after rfl)
  | acknowledged before _ _ after => exact .inl (hkept before after rfl)

inductive ProvenEdit (E : Env) (db : DB) (op : Op) (id : String) (n n₀ : Node) : Prop
  | kept (proven : n₀.state.proven) (domain : n₀.domain = n.domain)
      (key : n₀.publicKey = n.publicKey)
  | proved {ch : NodeChallenge} (call : Proves op ch) (nodeID : ch.nodeID = id)
      (domain : n₀.domain = n.domain ∧ ch.domain = n.domain)
      (key : n.publicKey = some ch.publicKey) (held : Held E db ch.nonce id)

theorem Usable.held {now now' : Int} {ch : NodeChallenge} {sig : Bytes}
    (h : Usable E now now' ch sig db) : Held E db ch.nonce ch.nodeID := by
  obtain ⟨row, hrow, hid, -⟩ := h.row
  exact ⟨row, hrow, hid⟩

theorem NodeState.proven_of_serving {s : NodeState} (h : s.serving) : s.proven := by
  cases s <;> first | rfl | cases h

/-- A verified domain was verified before, or by the call that ends here. -/
theorem Effect.proven (h : Effect E c db op reply mid S) {n : Node}
    (hn : mid.nodes.get? id = some n) (hproven : n.state.proven) :
    ∃ n₀, db.nodes.get? id = some n₀ ∧ ProvenEdit E db op id n n₀ := by
  -- A state that stands for a proven domain is kept from before, or comes from a call that was
  -- verified.
  cases h.node_edit id with
  | kept same => exact ⟨n, same.symm.trans hn, .kept hproven rfl rfl⟩
  | created _ _ after pending =>
    cases hn.symm.trans after
    simp [pending, NodeState.proven] at hproven
  | deleted _ _ gone =>
    rw [gone, DB.deleteNode, Table.get?_erase_self] at hn
    cases hn
  | released _ _ after =>
    cases hn.symm.trans after
    simp [Node.released, NodeState.proven] at hproven
  | moved _ _ _ _ _ after =>
    cases hn.symm.trans after
    simp [NodeState.proven] at hproven
  | enrolled call nodeID before domain _ _ usable after =>
    cases hn.symm.trans after
    subst nodeID
    exact ⟨_, before, .proved (.inl ⟨_, _, _, call, rfl⟩) rfl ⟨rfl, domain.symm⟩ rfl usable.held⟩
  | @renewed ch _ _ n₀ call nodeID before domain state key _ usable after =>
    cases hn.symm.trans after
    subst nodeID
    refine ⟨n₀, before, ?_⟩
    by_cases hd : n₀.state = .domainPending
    · -- Only a change of domain renews from here, and that call was to a probe first.
      have hpurpose : ch.purpose = .domainChange := by
        simpa [renewable, hd, NodeState.serving] using state
      exact .proved (.inr ⟨hpurpose, _, _, call⟩) rfl ⟨rfl, domain.symm⟩ key usable.held
    · exact .kept (by simpa [hd] using hproven) rfl rfl
  | @refused ch _ _ n₀ call nodeID before domain state key usable after =>
    cases hn.symm.trans after
    subst nodeID
    refine ⟨n₀, before, ?_⟩
    by_cases hd : ch.purpose = .domainChange
    · exact .proved (.inr ⟨hd, _, _, call⟩) rfl ⟨rfl, domain.symm⟩ key usable.held
    · have hserving : ch.purpose = .session ∧ n₀.state.serving := by
        simpa [renewable, hd] using state
      exact .kept (NodeState.proven_of_serving hserving.2) rfl rfl
  | recovered _ before _ _ conflict after =>
    cases hn.symm.trans after
    exact ⟨_, before, .kept (by rw [conflict]; rfl) rfl rfl⟩
  | ported before after =>
    cases hn.symm.trans after
    exact ⟨_, before, .kept hproven rfl rfl⟩
  | switched before _ after =>
    cases hn.symm.trans after
    exact ⟨_, before, .kept hproven rfl rfl⟩
  | heard before _ after =>
    cases hn.symm.trans after
    exact ⟨_, before, .kept hproven rfl rfl⟩
  | acknowledged before serving _ after =>
    cases hn.symm.trans after
    exact ⟨_, before, .kept (NodeState.proven_of_serving serving) rfl rfl⟩

theorem Effect.held {nonce : String} (h : Effect E c db op reply mid S) (hh : Held E mid nonce id) :
    Held E db nonce id ∨ op.draws nonce := by
  obtain ⟨row, hrow, hid⟩ := hh
  cases h.challenge_edit hrow with
  | kept before => exact .inl ⟨row, before, hid⟩
  | used _ before after =>
    subst after
    exact .inl ⟨_, before, hid⟩
  | enrollment call _ _ nonce_eq key =>
    subst call
    exact .inr (by simp [Op.draws, E.tokenHash_injective key, nonce_eq])
  | session call _ _ nonce_eq key =>
    subst call
    exact .inr (by simp [Op.draws, E.tokenHash_injective key, nonce_eq])

end Effect

section Unique

variable {E : Env} {db db' : DB} {a : Commit} {id : String} {n : Node}

/-- No two nodes share a domain or a region, and the regions are those set aside for nodes. -/
structure Apart (db : DB) : Prop where
  domains : ∀ id id' n n', db.nodes.get? id = some n → db.nodes.get? id' = some n' →
    n.domain = n'.domain → id = id'
  regions : ∀ id id' n n', db.nodes.get? id = some n → db.nodes.get? id' = some n' →
    n.regionID = n'.regionID → id = id'
  range : ∀ id n, db.nodes.get? id = some n → 900 ≤ n.regionID ∧ n.regionID ≤ 999

/-- A new node is not verified, and takes a normalized domain and a region that no node has. -/
structure NewNode (E : Env) (db : DB) (n : Node) : Prop where
  normal : ∃ domain, E.normalizeNodeDomain domain = some n.domain
  unverified : n.domainVerifiedAt = 0
  range : 900 ≤ n.regionID ∧ n.regionID ≤ 999
  apart : ∀ k m, db.nodes.get? k = some m → m.domain ≠ n.domain ∧ m.regionID ≠ n.regionID

theorem Step.created (h : Step E db a db') (hc : a.op.creates id)
    (hn : db'.nodes.get? id = some n) : NewNode E db n := by
  obtain ⟨op, c, reply⟩ := a
  cases op <;> simp only [Op.creates, decide_eq_true_eq, Bool.false_eq_true] at hc
  subst hc
  simp only [Step, exec, answer_eq_ok, createNode, Except_bind_eq_ok, require_eq_ok, orElse_eq_ok,
    exists_const, activeActor_eq_ok, requireOwner_eq_ok, issueCode_eq_ok, Table.any_eq_false,
    decide_eq_false_iff_not] at h
  obtain ⟨_, ⟨-, -, normal, hnormal, -, -, region, hregion, ⟨-, hdomain, -⟩, -, -, rfl⟩, -⟩ := h
  rw [Table.get?_insert_self, Option.some.injEq] at hn
  subst hn
  have hrange := List.mem_of_find?_eq_some hregion
  have hfree := List.find?_some hregion
  simp only [Bool.not_eq_true', Table.any_eq_false, decide_eq_false_iff_not] at hfree
  simp only [List.mem_range'_1] at hrange
  exact ⟨⟨_, hnormal⟩, rfl, ⟨hrange.1, Nat.le_of_lt_succ hrange.2⟩,
    fun k m hm => ⟨hdomain k m hm, hfree k m hm⟩⟩

theorem Op.creates_inj {op : Op} {id' : String} (h : op.creates id) (h' : op.creates id') :
    id = id' := by
  cases op <;> simp_all [Op.creates]

theorem Step.newcomer {id' : String} {n' : Node} (h : Step E db a db') (hc : a.op.creates id)
    (hn : db'.nodes.get? id = some n) (hn' : db'.nodes.get? id' = some n') :
    id = id' ∨ n'.domain ≠ n.domain ∧ n'.regionID ≠ n.regionID := by
  rcases Step.origin h hn' with hc' | ⟨n₀, hn₀, hk⟩
  · exact .inl (Op.creates_inj hc hc')
  · obtain ⟨hdomain, hregion⟩ := (Step.created h hc hn).apart id' n₀ hn₀
    rcases hk.domain with hsame | ⟨⟨_, _, _, hop⟩, -⟩
    · exact .inr ⟨hsame ▸ hdomain, hk.region ▸ hregion⟩
    · simp [hop, Op.creates] at hc

theorem Step.apart (h : Step E db a db') (ha : Apart db) : Apart db' := by
  refine ⟨fun id id' n n' hn hn' hsame => ?_, fun id id' n n' hn hn' hsame => ?_,
    fun id n hn => ?_⟩
  · rcases Step.origin h hn with hc | ⟨n₀, hn₀, hk⟩
    · exact (Step.newcomer h hc hn hn').resolve_right fun hne => hne.1 hsame.symm
    rcases Step.origin h hn' with hc' | ⟨n₀', hn₀', hk'⟩
    · exact ((Step.newcomer h hc' hn' hn).resolve_right fun hne => hne.1 hsame).symm
    -- At most one of two nodes moves, and to a domain that the other does not have.
    rcases hk.domain with hd | ⟨⟨_, _, _, hop⟩, hunique⟩
    · rcases hk'.domain with hd' | ⟨-, hunique'⟩
      · exact ha.domains id id' n₀ n₀' hn₀ hn₀' (hd.symm.trans (hsame.trans hd'))
      · exact hunique' id n₀ hn₀ (hd.symm.trans hsame)
    · rcases hk'.domain with hd' | ⟨⟨_, _, _, hop'⟩, -⟩
      · exact (hunique id' n₀' hn₀' (hd'.symm.trans hsame.symm)).symm
      · rw [hop, Op.changeNodeDomain.injEq] at hop'
        exact hop'.2.1
  · rcases Step.origin h hn with hc | ⟨n₀, hn₀, hk⟩
    · exact (Step.newcomer h hc hn hn').resolve_right fun hne => hne.2 hsame.symm
    rcases Step.origin h hn' with hc' | ⟨n₀', hn₀', hk'⟩
    · exact ((Step.newcomer h hc' hn' hn).resolve_right fun hne => hne.2 hsame).symm
    exact ha.regions id id' n₀ n₀' hn₀ hn₀' (hk.region.symm.trans (hsame.trans hk'.region))
  · rcases Step.origin h hn with hc | ⟨n₀, hn₀, hk⟩
    · exact (Step.created h hc hn).range
    · rw [hk.region]
      exact ha.range id n₀ hn₀

theorem Store.Reachable.apart (h : Store.Reachable E db) : Apart db := by
  refine Reachable.invariant h ?_ fun s a s' _ ha hstep => Step.apart hstep ha
  rintro s rfl
  exact ⟨by simp [DB.empty], by simp [DB.empty], by simp [DB.empty]⟩

end Unique

namespace World.Run

variable {E : Env} (r : World.Run E)

def Probes (v : ℕ) (ch : NodeChallenge) : Prop :=
  ∃ call, (r.label v).1 = .verifyDomain call ∧
    ((∃ req, (r.state v).flights.get? call = some (.enroll req false) ∧ req.challenge = ch) ∨
      ∃ sig, (r.state v).flights.get? call = some (.renew ch sig false))

/-- A nonce was drawn twice before step `i`. -/
def Redrawn (i : ℕ) : Prop :=
  ∃ nonce j k a b, j < k ∧ k < i ∧ r.commit j = some a ∧ r.commit k = some b ∧
    a.op.draws nonce ∧ b.op.draws nonce

/-- From step `v` to `i` the node was there under this domain, and was not released. -/
structure Stands (id domain : String) (v i : ℕ) : Prop where
  domain : ∀ k, v ≤ k → k ≤ i → ∃ n, (r.state k).db.nodes.get? id = some n ∧ n.domain = domain
  held : ∀ k a, v ≤ k → k < i → r.commit k = some a →
    ¬ Reissues E a.clock (r.state k).db a.op id

variable {r}

/-- The transaction after a probe ends a call that checked the challenge before the probe. -/
theorem probed {i : ℕ} (hi : i < r.len) {a : Commit} (ha : r.commit i = some a) {ch : NodeChallenge}
    (hp : Proves a.op ch) :
    ∃ b v, b < v ∧ v < i ∧ r.Probes v ch ∧ Held E (r.state b).db ch.nonce ch.nodeID ∧
      ∃ n, (r.state b).db.nodes.get? ch.nodeID = some n := by
  have harrives := arrives hi ha
  -- The transaction belongs to a call in flight: back to its verification, and back to its first
  -- check.
  rcases hp with ⟨req, token, box, hop, rfl⟩ | ⟨hpurpose, sig, token, hop⟩
  · rw [hop] at harrives
    generalize hact : (r.label i).1 = act at harrives
    cases harrives with
    | whole hwhole => cases hwhole
    | @enroll call _ _ _ _ hflight =>
      obtain ⟨v, hvi, hv, -⟩ := departed hi.le hflight
      generalize hact' : (r.label v).1 = act' at hv
      generalize (r.label v).2 = reply' at hv
      cases hv with
      | enrollVerified hflight' =>
        obtain ⟨b, hbv, hb, -⟩ := departed (by omega) hflight'
        generalize (r.label b).1 = act'' at hb
        generalize (r.label b).2 = reply'' at hb
        cases hb with
        | enroll hcheck =>
          refine ⟨b, v, hbv, hvi, ⟨call, hact', .inl ⟨req, hflight', rfl⟩⟩, ?_⟩
          simp only [enrollCheck, Except_bind_eq_ok, require_eq_ok, exists_const] at hcheck
          obtain ⟨-, receipt, hreceipt, hcheck⟩ := hcheck
          cases receipt with
          | some s => simp at hcheck
          | none =>
            obtain ⟨-, n, -, hn, -⟩ := enrollmentReceipt_eq_none hreceipt
            simp only [Except_bind_eq_ok, checkNodeChallenge_eq_ok, exists_const] at hcheck
            exact ⟨hcheck.1.2.2.2.held, n, hn⟩
  · rw [hop] at harrives
    generalize hact : (r.label i).1 = act at harrives
    cases harrives with
    | whole hwhole => simp [Op.whole, hpurpose] at hwhole
    | @renew call _ _ _ _ hflight =>
      obtain ⟨v, hvi, hv, -⟩ := departed hi.le hflight
      generalize hact' : (r.label v).1 = act' at hv
      generalize (r.label v).2 = reply' at hv
      cases hv with
      | renewVerified hflight' =>
        obtain ⟨b, hbv, hb, -⟩ := departed (by omega) hflight'
        generalize (r.label b).1 = act'' at hb
        generalize (r.label b).2 = reply'' at hb
        cases hb with
        | renew hcheck =>
          refine ⟨b, v, hbv, hvi, ⟨call, hact', .inr ⟨sig, hflight'⟩⟩, ?_⟩
          simp only [renewCheck, Except_bind_eq_ok, checkNodeChallenge_eq_ok, exists_const,
            require_eq_ok, Option.any_eq_true] at hcheck
          obtain ⟨⟨-, -, -, husable⟩, n, hn, -⟩ := hcheck
          exact ⟨husable.held, n, hn⟩

theorem drawn {i : ℕ} (hi : i ≤ r.len) {nonce id : String} (h : Held E (r.state i).db nonce id) :
    ∃ j < i, (∃ a, r.commit j = some a ∧ a.op.draws nonce) ∧
      ∀ k, j < k → k ≤ i → Held E (r.state k).db nonce id := by
  have h0 : ¬ Held E (r.state 0).db nonce id := by
    rw [r.start]
    rintro ⟨row, hrow, -⟩
    simp [DB.empty] at hrow
  obtain ⟨j, a, -, hj, ha, hnot, hsince⟩ := db_established
    (P := fun db => Held E db nonce id) (Nat.zero_le i) hi h0 h
  obtain ⟨mid, S, _, he, hr⟩ := exec_does (step_of_commit (by omega) ha)
  have hnext := hsince (j + 1) (by omega) hj
  rw [hr.frame] at hnext
  exact ⟨j, hj, ⟨a, ha, (he.held hnext).resolve_left hnot⟩, hsince⟩

theorem held_between {b i : ℕ} (hbi : b ≤ i) (hi : i ≤ r.len) {nonce id : String}
    (hb : Held E (r.state b).db nonce id) (hheld : Held E (r.state i).db nonce id) :
    r.Redrawn i ∨ ∀ k, b ≤ k → k ≤ i → Held E (r.state k).db nonce id := by
  obtain ⟨j, hj, ⟨a, ha, hdraws⟩, hsince⟩ := drawn hi hheld
  by_cases hjb : j < b
  · exact .inr fun k hbk hki => hsince k (by omega) hki
  · obtain ⟨j', hj', ⟨a', ha', hdraws'⟩, -⟩ := drawn (hbi.trans hi) hb
    exact .inl ⟨nonce, j', j, a', a, by omega, hj, ha', ha, hdraws', hdraws⟩

/-- While a challenge of the node is stored, the node stands. -/
theorem stands_of_held {b i : ℕ} (hbi : b ≤ i) (hi : i ≤ r.len) {nonce id : String} {n m : Node}
    (hheld : ∀ k, b ≤ k → k ≤ i → Held E (r.state k).db nonce id)
    (hn : (r.state b).db.nodes.get? id = some n) (hm : (r.state i).db.nodes.get? id = some m) :
    r.Stands id m.domain b i := by
  have hnext : ∀ k a, b ≤ k → k < i → r.commit k = some a → ∃ mid S,
      Effect E a.clock (r.state k).db a.op a.reply mid S ∧
        (r.state (k + 1)).db.nodes = mid.nodes ∧ ¬ Swept mid id := by
    intro k a hbk hki ha
    obtain ⟨mid, S, _, he, hr⟩ := exec_does (step_of_commit (by omega) ha)
    have hsome := hheld (k + 1) (by omega) hki
    rw [hr.frame] at hsome ⊢
    exact ⟨mid, S, he, rfl, hsome.not_swept⟩
  have hdomain : ∀ k, b ≤ k → k ≤ i →
      ∃ n', (r.state k).db.nodes.get? id = some n' ∧ n'.domain = n.domain := by
    intro k hbk hki
    refine db_preserved (r := r) (P := fun db => ∃ n', db.nodes.get? id = some n' ∧
      n'.domain = n.domain) hbk (hki.trans hi) ⟨n, hn, rfl⟩ fun k' a hbk' hk' ha ⟨x, hx, hxd⟩ => ?_
    obtain ⟨mid, S, he, hnodes, hnot⟩ := hnext k' a hbk' (by omega) ha
    obtain ⟨x', hx', hxd'⟩ := (he.domain_kept hx).resolve_right hnot
    exact ⟨x', by rw [hnodes, hx'], hxd'.trans hxd⟩
  obtain ⟨m', hm', hmd⟩ := hdomain i hbi le_rfl
  cases hm.symm.trans hm'
  refine ⟨fun k hbk hki => hmd ▸ hdomain k hbk hki, fun k a hbk hki ha hreissues => ?_⟩
  obtain ⟨mid, S, he, -, hnot⟩ := hnext k a hbk hki ha
  exact hnot (he.reissued hreissues).2

structure Proven (r : World.Run E) (id : String) (n : Node) (v i : ℕ) (ch : NodeChallenge) :
    Prop where
  order : v < i
  probed : r.Probes v ch
  challenge : ch.nodeID = id ∧ ch.domain = n.domain ∧ n.publicKey = some ch.publicKey
  stands : r.Stands id n.domain v i

theorem Stands.succ {id domain : String} {v i : ℕ} (h : r.Stands id domain v i) {n : Node}
    (hn : (r.state (i + 1)).db.nodes.get? id = some n) (hdomain : n.domain = domain)
    (hheld : ∀ a, r.commit i = some a → ¬ Reissues E a.clock (r.state i).db a.op id) :
    r.Stands id domain v (i + 1) := by
  refine ⟨fun k hvk hki => ?_, fun k a hvk hki ha => ?_⟩
  · rcases Nat.lt_or_eq_of_le hki with hlt | rfl
    · exact h.domain k hvk (by omega)
    · exact ⟨n, hn, hdomain⟩
  · rcases Nat.lt_or_eq_of_le (Nat.le_of_lt_succ hki) with hlt | rfl
    · exact h.held k a hvk hlt ha
    · exact hheld a ha

theorem proven {i : ℕ} (hi : i ≤ r.len) {id : String} {n : Node}
    (hn : (r.state i).db.nodes.get? id = some n) (hstate : n.state.proven) :
    r.Redrawn i ∨ ∃ v ch, r.Proven id n v i ch := by
  induction i generalizing n with
  | zero =>
    rw [r.start] at hn
    cases hn
  | succ i ih =>
    -- By induction along the run: the proof is carried on, or the step itself is one.
    have hlater : r.Redrawn i → r.Redrawn (i + 1) := fun ⟨nonce, j, k, a, b, hjk, hki, h⟩ =>
      ⟨nonce, j, k, a, b, hjk, by omega, h⟩
    cases ha : r.commit i with
    | none =>
      rw [db_of_not_commit (by omega) ha] at hn
      refine (ih (by omega) hn hstate).imp hlater fun ⟨v, ch, h⟩ =>
        ⟨v, ch, Nat.lt_succ_of_lt h.order, h.probed, h.challenge,
          h.stands.succ (by rwa [db_of_not_commit (by omega) ha]) rfl (by simp [ha])⟩
    | some a =>
      obtain ⟨mid, S, _, he, hr⟩ := exec_does (step_of_commit (by omega) ha)
      have hmid : mid.nodes.get? id = some n := by rwa [hr.frame] at hn
      have hreissues : ∀ a', r.commit i = some a' →
          ¬ Reissues E a'.clock (r.state i).db a'.op id := by
        intro a' ha' hreissues
        cases ha.symm.trans ha'
        simp [(he.reissued hreissues).1 n hmid, NodeState.proven] at hstate
      obtain ⟨n₀, hn₀, hedit⟩ := he.proven hmid hstate
      cases hedit with
      | kept hproven hdomain hkey =>
        refine (ih (by omega) hn₀ hproven).imp hlater fun ⟨v, ch, h⟩ =>
          ⟨v, ch, Nat.lt_succ_of_lt h.order, h.probed, ?_, ?_⟩
        · rw [← hdomain, ← hkey]
          exact h.challenge
        · rw [← hdomain]
          exact h.stands.succ hn hdomain.symm hreissues
      -- The probe was outside of the transaction; the challenge, unused in between, ties the two
      -- together.
      | @proved ch hcall hid hdomain hkey hheld =>
        subst hid
        obtain ⟨b, v, hbv, hvi, hprobes, hb, m, hm⟩ := probed (by omega) ha hcall
        refine (held_between (by omega) (by omega) hb hheld).imp hlater fun hall => ?_
        have hstands := stands_of_held (by omega) (by omega) hall hm hn₀
        rw [hdomain.1] at hstands
        refine ⟨v, ch, by omega, hprobes, ⟨rfl, hdomain.2, hkey⟩, ?_⟩
        refine Stands.succ ⟨fun k hvk => hstands.domain k (by omega), fun k a hvk =>
          hstands.held k a (by omega)⟩ hn rfl hreissues

end World.Run

/-- In every run: the domain of a node that is registered, ready or offline passed the probe of a
challenge with that domain and the node's key, and since then the node has had this domain and was
not released, unless a nonce was drawn twice; and no two nodes have the same domain. -/
theorem World.Run.domains_proven {E : Env} (r : World.Run E) :
    (∀ i ≤ r.len, ∀ id n, (r.state i).db.nodes.get? id = some n →
      n.state = .registered ∨ n.state = .ready ∨ n.state = .offline →
      r.Redrawn i ∨ ∃ v < i, ∃ ch, r.Probes v ch ∧ ch.nodeID = id ∧ ch.domain = n.domain ∧
        n.publicKey = some ch.publicKey ∧ r.Stands id n.domain v i) ∧
    ∀ i ≤ r.len, ∀ id id' n n', (r.state i).db.nodes.get? id = some n →
      (r.state i).db.nodes.get? id' = some n' → n.domain = n'.domain → id = id' := by
  refine ⟨fun i hi id n hn hstate => ?_, fun i hi => (r.store_reachable hi).apart.domains⟩
  have hproven : n.state.proven := by
    rcases hstate with h | h | h <;> rw [h] <;> rfl
  refine (World.Run.proven hi hn hproven).imp_right fun ⟨v, ch, h⟩ => ?_
  obtain ⟨hid, hdomain, hkey⟩ := h.challenge
  exact ⟨v, h.order, ch, h.probed, hid, hdomain, hkey, h.stands⟩

end UniDERP
