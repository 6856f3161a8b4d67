import UniDERP.Control.Effects

namespace UniDERP

def Op.evaluates : Op → Bool
  | .addTailnet .. | .replaceCommit .. | .refreshCommit _ _ (some _) | .deleteCredential .. => true
  | _ => false

inductive Opened (db : DB) (tailnets : Table String Tailnet) (op : Op) (e : Event) : Prop
  | tailnet {tn : Tailnet} (resource : e.resource = .tailnet) (resolved : e.resolvedAt = 0)
      (row : tailnets.get? e.resourceID = some tn) (owner : e.ownerID = tn.ownerID)
      (kind : e.kind = .identityConflict ∧ op.evaluates ∨ e.kind = .identityUnavailable)
  | node {n : Node} (resource : e.resource = .node) (row : db.nodes.get? e.resourceID = some n)
  | grant (call : op = .refreshExpiryEvents) (resource : e.resource = .grant)
      (kind : e.kind = .authorizationExpired)

inductive Resolved (op : Op) (e : Event) : Prop
  | tailnet (evaluates : op.evaluates)
      (kind : e.kind = .identityConflict ∨ e.kind = .identityUnavailable)
  | node (resource : e.resource = .node)
  | grant (call : op = .refreshExpiryEvents) (kind : e.kind = .authorizationExpired)

inductive Writes (P R : Event → Prop) (l : List Event) : List Event → Prop
  | refl : Writes P R l l
  | opens {l' : List Event} {e : Event} (h : Writes P R l l') (opened : P e) :
      Writes P R l (l' ++ [e])
  | resolves {l' : List Event} {at_ : Int} {p : Event → Bool} (h : Writes P R l l')
      (nonzero : at_ ≠ 0) (resolved : ∀ e, p e → R e) :
      Writes P R l (l'.map fun e =>
        if p e ∧ e.resolvedAt = 0 then { e with resolvedAt := at_ } else e)

section List

variable {P R : Event → Prop} {l l' : List Event}

theorem Writes.countP_eq (h : Writes P R l l') {q : Event → Bool}
    (hopen : ∀ e, q e → e.resolvedAt = 0) (hP : ∀ e, P e → ¬ q e) (hR : ∀ e, R e → ¬ q e) :
    l'.countP q = l.countP q := by
  induction h with
  | refl => rfl
  | opens _ opened ih =>
    rw [List.countP_append, List.countP_singleton, if_neg (hP _ opened), Nat.add_zero, ih]
  | resolves _ nonzero resolved ih =>
    rw [List.countP_map, ← ih]
    refine List.countP_congr fun e _ => ?_
    dsimp only [Function.comp]
    split_ifs with hp
    · constructor
      · intro hq
        exact absurd (hopen _ hq) nonzero
      · intro hq
        exact absurd hq (hR e (resolved e hp.1))
    · rfl

theorem Writes.mem_open (h : Writes P R l l') {e : Event} (he : e ∈ l') (hopen : e.resolvedAt = 0) :
    e ∈ l ∨ P e := by
  induction h generalizing e with
  | refl => exact .inl he
  | opens _ opened ih =>
    rcases List.mem_append.mp he with he | he
    · exact ih he hopen
    · rw [List.mem_singleton.mp he]
      exact .inr opened
  | resolves _ nonzero _ ih =>
    obtain ⟨e₀, he₀, rfl⟩ := List.mem_map.mp he
    split_ifs at hopen ⊢ with hp
    · exact absurd hopen nonzero
    · exact ih he₀ hopen

theorem Writes.mem_about (h : Writes P R l l') {e : Event} (he : e ∈ l') :
    ∃ e₀, (e₀ ∈ l ∨ P e₀) ∧ e.resource = e₀.resource ∧ e.resourceID = e₀.resourceID ∧
      e.kind = e₀.kind := by
  induction h generalizing e with
  | refl => exact ⟨e, .inl he, rfl, rfl, rfl⟩
  | opens _ opened ih =>
    rcases List.mem_append.mp he with he | he
    · exact ih he
    · rw [List.mem_singleton.mp he]
      exact ⟨_, .inr opened, rfl, rfl, rfl⟩
  | resolves _ _ _ ih =>
    obtain ⟨e₁, he₁, rfl⟩ := List.mem_map.mp he
    obtain ⟨e₀, he₀, hsame⟩ := ih he₁
    refine ⟨e₀, he₀, ?_⟩
    split_ifs <;> exact hsame

end List

def Expired (ended : Table String Bool) (now : Int) (g : Grant) : Prop :=
  g.state.live ∧ ((g.explicitUntil ≠ 0 ∧ ofUnix g.explicitUntil ≤ now) ∨
    (g.state = .active ∧ ended.get? g.id = some true))

section Expiry

variable {ended : Table String Bool} {now : Int} {db : DB} {x : Pair × Grant} {n : Node}
  {tn : Tailnet}

theorem updateExpiry_of_expired (hn : db.nodes.get? (ofLex x.1).1 = some n)
    (htn : db.tailnets.get? (ofLex x.1).2 = some tn) (h : Expired ended now x.2) :
    updateExpiry ended now db x =
      if tn.ownerID ≠ n.ownerID then
        expiryEvent now x.2.id tn.ownerID (expiryEvent now x.2.id n.ownerID db)
      else expiryEvent now x.2.id n.ownerID db := by
  simp only [updateExpiry, hn, htn]
  exact if_pos h

theorem updateExpiry_of_not_expired (hn : db.nodes.get? (ofLex x.1).1 = some n)
    (htn : db.tailnets.get? (ofLex x.1).2 = some tn) (h : ¬ Expired ended now x.2) :
    updateExpiry ended now db x = db.resolveEvents (unix now) fun e =>
      e.resource = .grant ∧ e.resourceID = x.2.id ∧ e.kind = .authorizationExpired := by
  simp only [updateExpiry, hn, htn]
  exact if_neg h

/-- What the row of one grant can do. -/
theorem updateExpiry_cases {P : DB → Prop} (missing : P db)
    (expired : ∀ n tn, db.nodes.get? (ofLex x.1).1 = some n →
      db.tailnets.get? (ofLex x.1).2 = some tn → Expired ended now x.2 →
      P (updateExpiry ended now db x))
    (resolved : ∀ n tn, db.nodes.get? (ofLex x.1).1 = some n →
      db.tailnets.get? (ofLex x.1).2 = some tn → ¬ Expired ended now x.2 →
      P (db.resolveEvents (unix now) fun e =>
        e.resource = .grant ∧ e.resourceID = x.2.id ∧ e.kind = .authorizationExpired)) :
    P (updateExpiry ended now db x) := by
  cases hn : db.nodes.get? (ofLex x.1).1 with
  | none =>
    rw [updateExpiry, hn]
    exact missing
  | some n =>
    cases htn : db.tailnets.get? (ofLex x.1).2 with
    | none =>
      rw [updateExpiry, hn, htn]
      exact missing
    | some tn =>
      by_cases h : Expired ended now x.2
      · exact expired n tn hn htn h
      · exact updateExpiry_of_not_expired hn htn h ▸ resolved n tn hn htn h

end Expiry

section Parts

variable {db₀ db : DB} {op : Op} {l : List Event} {tailnets : Table String Tailnet} {now : Int}

abbrev Edits (db₀ : DB) (tailnets : Table String Tailnet) (op : Op) (l l' : List Event) : Prop :=
  Writes (Opened db₀ tailnets op) (Resolved op) l l'

theorem Edits.identityEvent {id message : String} {kind : EventKind}
    (h : Edits db₀ tailnets op l db.events) (htn : db.tailnets = tailnets)
    (hkind : kind = .identityConflict ∧ op.evaluates ∨ kind = .identityUnavailable) :
    Edits db₀ tailnets op l (UniDERP.identityEvent now id kind message db).events := by
  unfold UniDERP.identityEvent
  split
  · next tn hrow =>
    split_ifs
    · exact h
    · exact h.opens (.tailnet rfl rfl (htn ▸ hrow) rfl hkind)
  · exact h

theorem Edits.updateIdentityConflicts {now : ℕ → Int} (h : Edits db₀ tailnets op l db.events)
    (htn : db.tailnets = tailnets) (hop : op.evaluates) (hnow : ∀ j, unix (now j) ≠ 0) :
    Edits db₀ tailnets op l (UniDERP.updateIdentityConflicts now db).events := by
  unfold UniDERP.updateIdentityConflicts
  generalize conflictingKeys db.snapshots.rows = conflicts
  generalize db.snapshots.rows.zipIdx = xs
  induction xs generalizing db with
  | nil => exact h
  | cons x xs ih =>
    rw [List.foldl_cons]
    refine ih ?_ ?_
    · unfold updateConflict
      split_ifs
      · exact h.identityEvent htn (.inl ⟨rfl, hop⟩)
      · refine h.resolves (hnow _) fun e he => .tailnet hop (.inl ?_)
        simp only [decide_eq_true_eq] at he
        exact he.2
    · rw [updateConflict_frame]
      exact htn

theorem Edits.publishIdentity {E : Env} {c : Clock} {i : ℕ} {id : String}
    {keys : List IdentityKey} {db' : DB} (hpub : UniDERP.publishIdentity E c i id keys db = .ok db')
    (h : Edits db₀ tailnets op l db.events) (htn : db.tailnets = tailnets) (hop : op.evaluates) :
    Edits db₀ tailnets op l db'.events := by
  simp only [UniDERP.publishIdentity, Except_bind_eq_ok, require_eq_ok, exists_const] at hpub
  obtain ⟨-, -, hpub⟩ := hpub
  rw [(rebuildPolicies_rebuilt hpub).frame]
  refine Edits.updateIdentityConflicts ?_ htn hop fun j => (c.unix_pos _).ne'
  refine h.resolves (c.unix_pos _).ne' fun e he => .tailnet hop (.inr ?_)
  simp only [decide_eq_true_eq] at he
  exact he.2

theorem Edits.expiryEvent {grant owner : String} (h : Edits db₀ tailnets op l db.events)
    (hop : op = .refreshExpiryEvents) :
    Edits db₀ tailnets op l (UniDERP.expiryEvent now grant owner db).events := by
  unfold UniDERP.expiryEvent
  split_ifs
  · exact h
  · exact h.opens (.grant hop rfl rfl)

theorem Edits.sweep {ended : Table String Bool} {xs : List (Pair × Grant)}
    (h : Edits db₀ tailnets op l db.events) (hop : op = .refreshExpiryEvents)
    (hnow : unix now ≠ 0) :
    Edits db₀ tailnets op l (xs.foldl (updateExpiry ended now) db).events := by
  induction xs generalizing db with
  | nil => exact h
  | cons x xs ih =>
    rw [List.foldl_cons]
    refine ih ?_
    apply updateExpiry_cases (P := fun db' => Edits db₀ tailnets op l db'.events)
    · exact h
    · intro n tn hn htn hexp
      rw [updateExpiry_of_expired hn htn hexp]
      split_ifs
      · exact (h.expiryEvent hop).expiryEvent hop
      · exact h.expiryEvent hop
    · intro n tn _ _ _
      refine h.resolves hnow fun e he => .grant hop ?_
      simp only [decide_eq_true_eq] at he
      exact he.2.2

end Parts

section Step

variable {E : Env} {c : Clock} {db db' : DB}

theorem acknowledgePolicy_edits {token : String} {ack : PolicyACK}
    (h : acknowledgePolicy E c token ack db = .ok db') :
    Edits db db'.tailnets (.acknowledgePolicy token ack) db.events db'.events := by
  simp only [acknowledgePolicy, Except_bind_eq_ok, require_eq_ok, orElse_eq_ok, exists_const] at h
  obtain ⟨-, -, _, -, row, -, n, hn, -, h⟩ := h
  split at h
  · simp only [Except_bind_eq_ok, require_eq_ok, exists_const, Except_pure_eq_ok] at h
    obtain ⟨-, rfl⟩ := h
    exact .refl
  · simp only [Except_bind_eq_ok, require_eq_ok, orElse_eq_ok, exists_const,
      Except_pure_eq_ok] at h
    obtain ⟨-, _, -, _, -, rfl⟩ := h
    refine Writes.refl.resolves (c.unix_pos 1).ne' fun e he => .node ?_
    simp only [decide_eq_true_eq] at he
    exact he.1
  · simp only [Except_bind_eq_ok, require_eq_ok, exists_const, Except_pure_eq_ok] at h
    obtain ⟨-, rfl⟩ := h
    unfold applyFailed
    split_ifs
    · exact .refl
    · exact Writes.refl.opens (.node rfl hn)

theorem renewNodeSession_edits {ch : NodeChallenge} {sig : Bytes} {token : Token} {r : Renewal}
    (h : renewNodeSession E c ch sig token db = .ok (db', r)) :
    Edits db db'.tailnets (.renewNodeSession ch sig token) db.events db'.events := by
  simp only [renewNodeSession, Except_bind_eq_ok, checkNodeChallenge_eq_ok, orElse_eq_ok,
    require_eq_ok, exists_const] at h
  obtain ⟨-, -, n, hn, -, h⟩ := h
  by_cases hlease : n.instanceID ≠ ch.instanceID ∧ unix (c.read 2) < n.leaseUntil
  · rw [if_pos hlease] at h
    simp only [Except_bind_eq_ok, refuseInstance, Except_pure_eq_ok, Prod.mk.injEq,
      Prod.exists] at h
    obtain ⟨_, ⟨_, p, hb, rfl⟩, rfl, rfl⟩ := h
    rw [(buildPolicy_rebuilt hb).frame]
    exact Writes.refl.opens (.node rfl hn)
  · rw [if_neg hlease] at h
    simp only [Except_bind_eq_ok, mintNodeSession_eq_ok, Except_pure_eq_ok, Prod.mk.injEq,
      Prod.exists] at h
    obtain ⟨_, _, ⟨-, rfl, rfl⟩, rfl, rfl⟩ := h
    exact .refl

/-- Every transaction appends and resolves only events of its own kinds. -/
theorem Step.edits {a : Commit} (h : Step E db a db') :
    Edits db db'.tailnets a.op db.events db'.events := by
  obtain ⟨op, c, reply⟩ := a
  have hexec : exec E c op db = .ok (db', reply) := h
  obtain ⟨mid, S, i, he, hr⟩ := exec_does hexec
  have htailnets : db'.tailnets = mid.tailnets := by rw [hr.frame]
  -- The calls that write events come one by one; the others leave the table as it is.
  cases he
  case refuse =>
    obtain ⟨_, hexec, -⟩ := answer_eq_ok.mp hexec
    exact renewNodeSession_edits hexec
  case recover =>
    simp only [exec, quiet_eq_ok, recoverNodeInstance, Except_bind_eq_ok, require_eq_ok,
      activeActor_eq_ok, orElse_eq_ok, requireOwner_eq_ok, exists_const, Except_pure_eq_ok,
      Prod.exists] at hexec
    obtain ⟨⟨-, -, n, -, -, -, _, p, hb, rfl⟩, -⟩ := hexec
    rw [(buildPolicy_rebuilt hb).frame]
    refine Writes.refl.resolves (c.unix_pos 1).ne' fun e he => .node ?_
    simp only [decide_eq_true_eq] at he
    exact he.1
  case addTailnet =>
    simp only [exec, quiet_eq_ok, addTailnet, Except_bind_eq_ok, requireOwner_eq_ok, orElse_eq_ok,
      require_eq_ok, activeActor_eq_ok, exists_const] at hexec
    obtain ⟨⟨-, _, -, -, -, -, -, hexec⟩, -⟩ := hexec
    obtain ⟨_, hpublished⟩ := publishIdentity_ok hexec
    refine Edits.publishIdentity hexec .refl ?_ rfl
    rw [hpublished.frame]
  case replaceCommit =>
    simp only [exec, quiet_eq_ok, replaceCommit, Except_bind_eq_ok, require_eq_ok,
      exists_const] at hexec
    obtain ⟨⟨_, -, -, hexec⟩, -⟩ := hexec
    exact Edits.publishIdentity hexec .refl htailnets.symm rfl
  case deleteCredential =>
    simp only [exec, quiet_eq_ok, deleteCredential, Except_bind_eq_ok] at hexec
    obtain ⟨⟨_, -, hexec⟩, -⟩ := hexec
    rw [htailnets, (rebuildPolicies_rebuilt hexec).frame]
    exact Edits.updateIdentityConflicts .refl rfl rfl fun j => (c.unix_pos _).ne'
  case refreshFailed =>
    simp only [exec, quiet_eq_ok, refreshCommit, Except_bind_eq_ok, orElse_eq_ok, require_eq_ok,
      exists_const, Except_pure_eq_ok] at hexec
    obtain ⟨⟨_, -, -, rfl⟩, -⟩ := hexec
    rw [htailnets]
    exact Edits.identityEvent .refl rfl (.inr rfl)
  case refreshCommit =>
    simp only [exec, quiet_eq_ok, refreshCommit, Except_bind_eq_ok, orElse_eq_ok, require_eq_ok,
      exists_const] at hexec
    obtain ⟨⟨_, -, -, hexec⟩, -⟩ := hexec
    exact Edits.publishIdentity hexec .refl htailnets.symm rfl
  case ackApplied => exact acknowledgePolicy_edits (quiet_eq_ok.mp hexec).1
  case ackNack => exact acknowledgePolicy_edits (quiet_eq_ok.mp hexec).1
  case refreshExpiryEvents =>
    simp only [exec, quiet_eq_ok, refreshExpiryEvents, Except_bind_eq_ok,
      Except_pure_eq_ok] at hexec
    obtain ⟨⟨ended, -, rfl⟩, -⟩ := hexec
    exact Edits.sweep .refl rfl (c.unix_pos 0).ne'
  all_goals
    rw [hr.frame]
    exact .refl

end Step

end UniDERP
