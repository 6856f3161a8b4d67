import UniDERP.Control.RowEdits

namespace UniDERP

structure Requests (c : Clock) (db : DB) (op : Op) (k : Pair) (old : Option Grant) (g : Grant) :
    Prop where
  intro ::
  call : ∃ actor expected until_ id ps,
    op = .requestGrant actor (ofLex k).1 (ofLex k).2 expected until_ id ∧
    parties (ofLex k).1 (ofLex k).2 db = .ok ps ∧ Active actor db ∧
    Permitted actor ps.tailnet.ownerID ∧ ps.node.state.serving ∧
    g.state = requestedState ps ∧ g.explicitUntil = untilUnix until_
  closed : ∀ g₀, old = some g₀ → ¬ (g₀.stateAt (c.read 1)).live ∧ g.revision = g₀.revision + 1

def Acts (c : Clock) (db : DB) (op : Op) (k : Pair) (g : Grant) (action : GrantAction) : Prop :=
  ∃ actor expected ps, op = .applyGrantAction actor g.id expected action ∧
    parties (ofLex k).1 (ofLex k).2 db = .ok ps ∧ Active actor db ∧
    Permitted actor (actionOwner ps action) ∧ actionAllowed action (g.stateAt (c.read 0))

def Grant.after (g : Grant) (action : GrantAction) (now : Int) : Grant :=
  { g with
    state := actionNext action, revision := g.revision + 1
    lastControlSuccess := if actionNext action = .active then unix now else 0 }

def Grant.released (g : Grant) : Grant :=
  { g with state := .revoked, revision := g.revision + 1, lastControlSuccess := 0 }

inductive GrantChange (E : Env) (c : Clock) (db : DB) (op : Op) (k : Pair) :
    Option Grant → Option Grant → Prop
  | kept (g : Option Grant) : GrantChange E c db op k g g
  | deleted (g : Option Grant) : GrantChange E c db op k g none
  | seen {g : Grant} (active : g.state = .active) (now : Int) :
      GrantChange E c db op k (some g) (some { g with lastControlSuccess := now })
  | released {g : Grant} (node : Reissues E c db op (ofLex k).1) :
      GrantChange E c db op k (some g) (some g.released)
  | requested {old : Option Grant} {g : Grant} (request : Requests c db op k old g) :
      GrantChange E c db op k old (some g)
  | acted {g : Grant} {action : GrantAction} (acts : Acts c db op k g action) :
      GrantChange E c db op k (some g) (some (g.after action (c.read 1)))

section Change

variable {E : Env} {c : Clock} {db mid db' : DB} {op : Op} {reply : Reply} {S : String → Prop}

theorem requestBase_eq_ok {now : Int} {node tailnet : String} {expected : ℕ} {id : Token}
    {g : Grant} (h : requestBase now node tailnet expected id db = .ok g) :
    ∀ g₀, db.grants.get? (pair node tailnet) = some g₀ → ¬ (g₀.stateAt now).live ∧ g = g₀ := by
  intro g₀ hg₀
  simp only [requestBase, hg₀, Except_bind_eq_ok, require_eq_ok, exists_const,
    Except_pure_eq_ok] at h
  obtain ⟨⟨-, hstate⟩, rfl⟩ := h
  refine ⟨fun hlive => ?_, rfl⟩
  cases hs : g₀.stateAt now <;> simp_all [GrantState.live]

theorem get?_release_grants (id : String) (k : Pair) :
    (db.release id).grants.get? k = (db.grants.get? k).map fun g =>
      if (ofLex k).1 = id ∧ g.state ≠ .revoked then g.released else g := by
  simp only [DB.release, Table.get?_update, decide_eq_true_eq]
  rfl

theorem GrantChange.of_release {id : String} (h : Reissues E c db op id) (k : Pair) :
    GrantChange E c db op k (db.grants.get? k) ((db.release id).grants.get? k) := by
  rw [get?_release_grants]
  cases db.grants.get? k with
  | none => exact .kept _
  | some g =>
    rw [Option.map_some]
    split_ifs with hk
    · exact .released (hk.1 ▸ h)
    · exact .kept _

theorem GrantChange.of_delete {p : Pair → Grant → Bool} (k : Pair) :
    GrantChange E c db op k (db.grants.get? k) ((db.grants.delete p).get? k) := by
  rw [Table.get?_delete]
  cases h : db.grants.get? k with
  | none => exact .kept _
  | some g =>
    rw [Option.filter_some]
    split_ifs
    · exact .kept _
    · exact .deleted _

theorem GrantChange.of_insert {k₀ : Pair} {g : Grant}
    (h : GrantChange E c db op k₀ (db.grants.get? k₀) (some g)) (k : Pair) :
    GrantChange E c db op k (db.grants.get? k) ((db.grants.insert k₀ g).get? k) := by
  by_cases hk : k = k₀
  · subst hk
    rw [Table.get?_insert_self]
    exact h
  · rw [Table.get?_insert_ne _ _ hk]
    exact .kept _

theorem Effect.grant_change (h : Effect E c db op reply mid S) (k : Pair) :
    GrantChange E c db op k (db.grants.get? k) (mid.grants.get? k) := by
  cases h
  case reissueEnrollment => exact .of_release (.inl ⟨_, _, rfl⟩) k
  case leaveNode hs => exact .of_release (.inr ⟨_, _, _, rfl, hs, rfl⟩) k
  case deleteNode => exact .of_delete k
  case deleteTailnet => exact .of_delete k
  case requestGrant ps g hps hactive howner hserving hbase =>
    refine .of_insert ?_ k
    refine .requested ⟨⟨_, _, _, _, ps, rfl, hps, hactive, howner, hserving, rfl, rfl⟩, ?_⟩
    intro g₀ hg₀
    obtain ⟨hclosed, rfl⟩ := requestBase_eq_ok hbase g₀ hg₀
    exact ⟨hclosed, rfl⟩
  case applyGrantAction g ps hg hid hps hactive howner hcurrent hallowed =>
    subst hid
    refine .of_insert ?_ k
    rw [hg]
    exact .acted ⟨_, _, ps, rfl, hps, hactive, howner, hallowed⟩
  -- A heartbeat touches every active grant of the node, and only the time of the last contact.
  case nodeHeartbeat =>
    simp only [DB.heartbeat, Table.get?_update]
    cases hg : db.grants.get? k with
    | none => exact .kept _
    | some g =>
      simp only [Option.map_some]
      split_ifs with hk
      · exact .seen (by simpa using (of_decide_eq_true hk).2) _
      · exact .kept _
  all_goals exact .kept _

theorem Step.grant_change {a : Commit} (h : Step E db a db') (k : Pair) :
    GrantChange E a.clock db a.op k (db.grants.get? k) (db'.grants.get? k) := by
  obtain ⟨mid, S, i, he, hr⟩ := exec_does h
  rw [hr.frame]
  exact he.grant_change k

end Change

/-- A grant has a node, and one that is not registered has no open grant. -/
def Housed (db : DB) : Prop := ∀ k g, db.grants.get? k = some g →
  ∃ n, db.nodes.get? (ofLex k).1 = some n ∧ (n.state = .pending → g.state = .revoked)

section Housed

variable {E : Env} {c : Clock} {db mid db' : DB} {op : Op} {reply : Reply} {S : String → Prop}

inductive NodeChange (db mid : DB) (id : String) (n : Node) : Prop
  | kept {n' : Node} (node : mid.nodes.get? id = some n')
      (pending : n'.state = .pending → n.state = .pending)
  | released {n' : Node} (node : mid.nodes.get? id = some n')
      (grants : mid.grants = (db.release id).grants)
  | deleted (grants : ∀ t, mid.grants.get? (pair id t) = none)

theorem Effect.node_change (h : Effect E c db op reply mid S) {id : String} {n : Node}
    (hn : db.nodes.get? id = some n) : NodeChange db mid id n := by
  have hedited : ∀ {m m' : Node}, db.nodes.get? id = some m → mid.nodes.get? id = some m' →
      (m'.state = .pending → m.state = .pending) → NodeChange db mid id n := by
    intro m m' hm hm' hpending
    cases hn.symm.trans hm
    exact .kept hm' hpending
  cases h.node_edit id with
  | kept same => exact .kept (same.trans hn) fun hp => hp
  | created _ before => cases hn.symm.trans before
  | deleted _ _ gone =>
    refine .deleted fun t => ?_
    simp [gone, DB.deleteNode]
  | released _ _ after grants => exact .released after grants
  | enrolled _ _ before _ _ _ _ after => exact hedited before after (by simp)
  | renewed _ _ before _ _ _ _ _ after =>
    refine hedited before after ?_
    dsimp only
    split_ifs <;> simp
  | refused _ _ before _ _ _ _ after => exact hedited before after (by simp)
  | recovered _ before _ _ _ after => exact hedited before after (by simp)
  | moved _ before _ _ _ after => exact hedited before after (by simp)
  | ported before after => exact hedited before after fun hp => hp
  | switched before _ after => exact hedited before after fun hp => hp
  | heard before _ after => exact hedited before after fun hp => hp
  | acknowledged before _ next after =>
    refine hedited before after fun hp => ?_
    rcases next with rfl | rfl <;> cases hp

theorem Grant.live_of_stateAt {g : Grant} {now : Int} (h : (g.stateAt now).live) : g.state.live := by
  unfold Grant.stateAt at h
  split_ifs at h with hexpired
  · exact absurd h (by decide)
  · exact h

theorem Acts.live {k : Pair} {g : Grant} {action : GrantAction} (h : Acts c db op k g action) :
    g.state.live := by
  obtain ⟨-, -, -, -, -, -, -, hallowed⟩ := h
  have hlive : (g.stateAt (c.read 0)).live := by
    cases action <;> cases hs : g.stateAt (c.read 0) <;>
      simp_all [actionAllowed, GrantState.live]
  exact Grant.live_of_stateAt hlive

theorem Effect.housed (h : Effect E c db op reply mid S) (hh : Housed db) : Housed mid := by
  intro k g' hg'
  have hchange := h.grant_change k
  rw [hg'] at hchange
  -- Whatever made the grant, its node is there, and is registered if the grant is open.
  have hnode : ∃ n, db.nodes.get? (ofLex k).1 = some n ∧
      (n.state = .pending → g'.state = .revoked) := by
    generalize hold : db.grants.get? k = old at hchange
    cases hchange with
    | kept => exact hh k g' hold
    | seen active =>
      obtain ⟨n, hn, hp⟩ := hh k _ hold
      exact ⟨n, hn, hp⟩
    | released =>
      obtain ⟨n, hn, -⟩ := hh k _ hold
      exact ⟨n, hn, fun _ => rfl⟩
    | requested request =>
      obtain ⟨_, _, _, _, ps, -, hps, -, -, hserving, -⟩ := request.call
      refine ⟨ps.node, (parties_eq_ok.mp hps).1, fun hp => ?_⟩
      simp [hp, NodeState.serving] at hserving
    | acted acts =>
      obtain ⟨n, hn, hp⟩ := hh k _ hold
      refine ⟨n, hn, fun hpending => ?_⟩
      have hlive := acts.live
      simp [hp hpending, GrantState.live] at hlive
  obtain ⟨n, hn, hp⟩ := hnode
  cases h.node_change hn with
  | kept hn' hpending => exact ⟨_, hn', fun h => hp (hpending h)⟩
  | released hn' hgrants =>
    refine ⟨_, hn', fun _ => ?_⟩
    rw [hgrants, get?_release_grants] at hg'
    obtain ⟨g, -, rfl⟩ := Option.map_eq_some_iff.mp hg'
    split_ifs with hk
    · rfl
    · simpa using hk
  | deleted hgrants =>
    have hnone := hgrants (ofLex k).2
    rw [pair_ofLex, hg'] at hnone
    simp at hnone

theorem Step.housed {a : Commit} (h : Step E db a db') (hh : Housed db) : Housed db' := by
  obtain ⟨mid, S, i, he, hr⟩ := exec_does h
  rw [hr.frame]
  exact he.housed hh

theorem Store.Reachable.housed (h : Store.Reachable E db) : Housed db := by
  refine Reachable.invariant h ?_ fun s a s' _ hh hstep => Step.housed hstep hh
  rintro s rfl k g hg
  simp [DB.empty] at hg

end Housed

section Origin

variable {E : Env} {c : Clock} {db db' : DB} {op : Op} {k : Pair} {old : Option Grant} {g : Grant}

theorem GrantChange.of_active (h : GrantChange E c db op k old (some g)) (hg : g.state = .active)
    (hold : ∀ g₀, old = some g₀ → g₀.state ≠ .active) {n : Node} {tn : Tailnet}
    (hn : db.nodes.get? (ofLex k).1 = some n) (htn : db.tailnets.get? (ofLex k).2 = some tn)
    (hne : n.ownerID ≠ tn.ownerID) :
    ∃ g₀, old = some g₀ ∧ Acts c db op k g₀ .confirm ∧ g = g₀.after .confirm (c.read 1) := by
  cases h with
  | kept => exact absurd hg (hold g rfl)
  | seen active => exact absurd active (hold _ rfl)
  | released => cases hg
  | requested request =>
    -- One owner's request needs nobody's consent; here there are two owners.
    obtain ⟨_, _, _, _, ps, -, hps, -, -, -, hstate, -⟩ := request.call
    obtain ⟨hpn, hpt, -⟩ := parties_eq_ok.mp hps
    obtain rfl : n = ps.node := Option.some.inj (hn.symm.trans hpn)
    obtain rfl : tn = ps.tailnet := Option.some.inj (htn.symm.trans hpt)
    rw [hstate, requestedState, if_neg hne] at hg
    cases hg
  | acted acts =>
    rename_i g₀ action
    cases action <;> first | exact ⟨g₀, rfl, acts, rfl⟩ | cases hg

theorem GrantChange.of_ownerApproved (h : GrantChange E c db op k old (some g))
    (hg : g.state = .ownerApproved) (hold : old ≠ some g) :
    ∃ g₀, old = some g₀ ∧ Acts c db op k g₀ .approve ∧ g = g₀.after .approve (c.read 1) := by
  cases h with
  | kept => exact absurd rfl hold
  | seen active => simp [active] at hg
  | released => cases hg
  | requested request =>
    obtain ⟨_, _, _, _, ps, -, -, -, -, -, hstate, -⟩ := request.call
    rw [hstate, requestedState] at hg
    split_ifs at hg
  | acted acts =>
    rename_i g₀ action
    cases action <;> first | exact ⟨g₀, rfl, acts, rfl⟩ | cases hg

theorem GrantChange.of_requested (h : GrantChange E c db op k old (some g))
    (hg : g.state = .requested) (hold : old ≠ some g) : Requests c db op k old g := by
  cases h with
  | kept => exact absurd rfl hold
  | seen active => simp [active] at hg
  | released => cases hg
  | requested request => exact request
  | acted acts =>
    rename_i g₀ action
    cases action <;> cases hg

theorem GrantChange.of_live (h : GrantChange E c db op k old (some g)) (hg : g.state.live)
    (hold : ∀ g₀, old = some g₀ → ¬ g₀.state.live) : Requests c db op k old g := by
  cases h with
  | kept => exact absurd hg (hold g rfl)
  | seen active =>
    rename_i g₀ now
    exact absurd (by rw [active]; rfl) (hold g₀ rfl)
  | released => cases hg
  | requested request => exact request
  | acted acts => exact absurd acts.live (hold _ rfl)

theorem Grant.stateAt_live {now : Int} {s : GrantState} (h : g.stateAt now = s) (hs : s.live) :
    g.state = s ∧ (g.explicitUntil = 0 ∨ now < ofUnix g.explicitUntil) := by
  unfold Grant.stateAt at h
  split_ifs at h with hexpired
  · simp [← h, GrantState.live] at hs
  · refine ⟨h, ?_⟩
    simp only [h, hs, and_true, not_and, not_le] at hexpired
    by_cases h0 : g.explicitUntil = 0
    · exact Or.inl h0
    · exact Or.inr (hexpired h0)

theorem Acts.approve (h : Acts c db op k g .approve) : g.state = .requested ∧
    (g.explicitUntil = 0 ∨ c.read 0 < ofUnix g.explicitUntil) := by
  obtain ⟨-, -, -, -, -, -, -, hallowed⟩ := h
  exact Grant.stateAt_live (by simpa [actionAllowed] using hallowed) rfl

theorem Acts.confirm (h : Acts c db op k g .confirm) : g.state = .ownerApproved ∧
    (g.explicitUntil = 0 ∨ c.read 0 < ofUnix g.explicitUntil) := by
  obtain ⟨-, -, -, -, -, -, -, hallowed⟩ := h
  exact Grant.stateAt_live (by simpa [actionAllowed] using hallowed) rfl

/-- A node that leaves or gets a code has only ended grants. -/
theorem Step.reissued {a : Commit} (h : Step E db a db') (hh : Housed db) {id : String}
    (hre : Reissues E a.clock db a.op id) {t : String}
    (hg : db'.grants.get? (pair id t) = some g) : g.state = .revoked := by
  obtain ⟨op, c, reply⟩ := a
  obtain ⟨mid, S, i, he, hr⟩ := exec_does h
  rw [hr.frame] at hg
  have hreleased : (db.release id).grants.get? (pair id t) = some g → g.state = .revoked := by
    intro hg
    rw [get?_release_grants] at hg
    obtain ⟨g₀, -, rfl⟩ := Option.map_eq_some_iff.mp hg
    split_ifs with hk
    · rfl
    · simpa using hk
  -- A code for a node that was never enrolled releases nothing: its grants are revoked already.
  rcases hre with ⟨actor, code, rfl⟩ | ⟨token, s, n, rfl, hs, rfl⟩
  · cases he with
    | idle repeatable => cases repeatable
    | sessions login => cases login
    | ports portChange => cases portChange
    | issueEnrollment node pending =>
      obtain ⟨n', hn', hp⟩ := hh (pair id t) g hg
      obtain rfl := Option.some.inj (node.symm.trans hn')
      exact hp pending
    | reissueEnrollment => exact hreleased hg
  · cases he with
    | idle repeatable => cases repeatable
    | sessions login => cases login
    | ports portChange => cases portChange
    | leaveNode session =>
      obtain ⟨rfl, rfl⟩ := Prod.mk.inj (Option.some.inj (hs.symm.trans session))
      exact hreleased hg

end Origin

section Runs

variable {E : Env}

/-- The step `i` of a run makes a grant active with both owners' consent: a request at `j`, an
approval at `m` and the confirmation at `i`, and no other change of the grant between them. -/
structure Consented (r : Store.Run E) (k : Pair) (j m i : ℕ) (g : Grant) : Prop where
  order : j < m ∧ m < i
  requested : g.state = .requested
  request : Requests (r.label j).clock (r.state j) (r.label j).op k ((r.state j).grants.get? k) g
  waiting : ∀ l, j < l → l ≤ m → (r.state l).grants.get? k = some g
  approve : Acts (r.label m).clock (r.state m) (r.label m).op k g .approve
  approved : ∀ l, m < l → l ≤ i →
    (r.state l).grants.get? k = some (g.after .approve ((r.label m).clock.read 1))
  confirm : Acts (r.label i).clock (r.state i) (r.label i).op k
    (g.after .approve ((r.label m).clock.read 1)) .confirm
  unchanged : ∀ l, j < l → l ≤ i + 1 → ∃ g', (r.state l).grants.get? k = some g' ∧
    g'.explicitUntil = g.explicitUntil
  unexpired : g.explicitUntil ≠ 0 → (r.label m).clock.read 0 < ofUnix g.explicitUntil ∧
    (r.label i).clock.read 0 < ofUnix g.explicitUntil

theorem Store.Run.consented (r : Store.Run E) {i : ℕ} (hi : i < r.len) {k : Pair} {g : Grant}
    (hg : (r.state (i + 1)).grants.get? k = some g) (hactive : g.state = .active)
    (hbefore : ∀ g₀, (r.state i).grants.get? k = some g₀ → g₀.state ≠ .active) {n : Node}
    {tn : Tailnet} (hn : (r.state i).nodes.get? (ofLex k).1 = some n)
    (htn : (r.state i).tailnets.get? (ofLex k).2 = some tn) (hne : n.ownerID ≠ tn.ownerID) :
    ∃ j m g₀, Consented r k j m i g₀ := by
  have hempty : ∀ x : Grant, (r.state 0).grants.get? k ≠ some x := by
    rw [r.start]
    simp [DB.empty]
  have hchange := Step.grant_change (r.next i hi) k
  rw [hg] at hchange
  obtain ⟨g₂, hg₂, hconfirm, rfl⟩ := hchange.of_active hactive hbefore hn htn hne
  -- Back from the confirmation to the approval that wrote the row, and on to the request.
  obtain ⟨m, -, hmi, hm, happroved⟩ := r.established (P := fun db => db.grants.get? k = some g₂)
    (Nat.zero_le i) (hempty g₂) hg₂
  have hchange := Step.grant_change (r.next m (hmi.trans hi)) k
  rw [happroved (m + 1) (Nat.lt_succ_self m) hmi] at hchange
  obtain ⟨g₁, hg₁, happrove, rfl⟩ := hchange.of_ownerApproved hconfirm.confirm.1 hm
  obtain ⟨j, -, hjm, hj, hwaiting⟩ := r.established (P := fun db => db.grants.get? k = some g₁)
    (Nat.zero_le m) (hempty g₁) hg₁
  have hchange := Step.grant_change (r.next j (hjm.trans (hmi.trans hi))) k
  rw [hwaiting (j + 1) (Nat.lt_succ_self j) hjm] at hchange
  have hrequest := hchange.of_requested happrove.approve.1 hj
  refine ⟨j, m, g₁, ⟨hjm, hmi⟩, happrove.approve.1, hrequest, hwaiting, happrove, happroved, hconfirm,
    fun l hjl hl => ?_, fun h0 => ?_⟩
  · rcases Nat.lt_or_ge m l with hml | hlm
    · rcases Nat.lt_or_eq_of_le hl with hlt | rfl
      · exact ⟨_, happroved l hml (Nat.le_of_lt_succ hlt), rfl⟩
      · exact ⟨_, hg, rfl⟩
    · exact ⟨_, hwaiting l hjl hlm, rfl⟩
  · exact ⟨happrove.approve.2.resolve_left h0, hconfirm.confirm.2.resolve_left h0⟩

theorem Store.Run.rerequested (r : Store.Run E) {b i : ℕ} (hbi : b < i) (hi : i ≤ r.len)
    {id t : String} {g : Grant}
    (hre : Reissues E (r.label b).clock (r.state b) (r.label b).op id)
    (hg : (r.state i).grants.get? (pair id t) = some g) (hlive : g.state.live) :
    ∃ j g', b < j ∧ j < i ∧ Requests (r.label j).clock (r.state j) (r.label j).op (pair id t)
      ((r.state j).grants.get? (pair id t)) g' := by
  have hclosed : ¬ ∃ g', (r.state (b + 1)).grants.get? (pair id t) = some g' ∧ g'.state.live := by
    rintro ⟨g', hg', hl⟩
    have hhoused : Housed (r.state b) :=
      Store.Reachable.housed (r.reachable (hbi.le.trans hi))
    rw [Step.reissued (r.next b (hbi.trans_le hi)) hhoused hre hg'] at hl
    cases hl
  obtain ⟨j, hbj, hji, hj, hopen⟩ := r.established
    (P := fun db => ∃ g', db.grants.get? (pair id t) = some g' ∧ g'.state.live) hbi hclosed
    ⟨g, hg, hlive⟩
  obtain ⟨g', hg', hl⟩ := hopen (j + 1) (Nat.lt_succ_self j) hji
  have hchange := Step.grant_change (r.next j (hji.trans_le hi)) (pair id t)
  rw [hg'] at hchange
  exact ⟨j, g', hbj, hji, hchange.of_live hl fun g₀ hg₀ hl₀ => hj ⟨g₀, hg₀, hl₀⟩⟩

/-- In every run, a grant between two owners becomes active only by an approval and a
confirmation that follow its request, and no grant of a node that left or got a new code is
active before it is requested again. -/
theorem Store.Run.active_with_consent (r : Store.Run E) :
    (∀ i k g n tn, i < r.len → (r.state (i + 1)).grants.get? k = some g → g.state = .active →
      (∀ g₀, (r.state i).grants.get? k = some g₀ → g₀.state ≠ .active) →
      (r.state i).nodes.get? (ofLex k).1 = some n → (r.state i).tailnets.get? (ofLex k).2 = some tn →
      n.ownerID ≠ tn.ownerID → ∃ j m g₀, Consented r k j m i g₀) ∧
    ∀ b i id t g, b < i → i ≤ r.len → Reissues E (r.label b).clock (r.state b) (r.label b).op id →
      (r.state i).grants.get? (pair id t) = some g → g.state = .active →
      ∃ j g', b < j ∧ j < i ∧ Requests (r.label j).clock (r.state j) (r.label j).op (pair id t)
        ((r.state j).grants.get? (pair id t)) g' := by
  constructor
  · intro i k g n tn hi hg hactive hbefore hn htn hne
    exact Store.Run.consented r hi hg hactive hbefore hn htn hne
  · intro b i id t g hbi hi hre hg hactive
    exact Store.Run.rerequested r hbi hi hre hg (hactive ▸ rfl)

theorem first_guest_with_consent : ∃ (r : Store.Run Env.plain) (j m : ℕ) (g : Grant),
    r.len = 9 ∧ Consented r (pair First.node.text First.guestTailnet.text) j m 8 g := by
  set k := pair First.node.text First.guestTailnet.text
  have hrun : (replay Env.plain First.clock (First.enrolling ++ First.sharing.take 4) DB.empty).bind
      (fun db => (replay Env.plain First.clock (First.sharing.drop 4) db).map fun db' =>
        ((db.grants.get? k).map (·.state), (db.nodes.get? First.node.text).map (·.ownerID),
          (db.tailnets.get? First.guestTailnet.text).map (·.ownerID),
          (db'.grants.get? k).map (·.state))) =
      .ok (some .ownerApproved, some First.owner.text, some First.guestID.text, some .active) := by
    decide +kernel
  obtain ⟨db, hdb, hlast⟩ := Except_bind_eq_ok.mp hrun
  obtain ⟨db', hdb', hfacts⟩ := Except_map_eq_ok.mp hlast
  simp only [Prod.mk.injEq, Option.map_eq_some_iff] at hfacts
  obtain ⟨⟨g₀, hg₀, hs₀⟩, ⟨n, hn, hno⟩, ⟨tn, htn, hto⟩, g, hg, hs⟩ := hfacts
  -- The run is evaluated in two parts, since the state before the last step is needed too.
  have hall : replay Env.plain First.clock (First.enrolling ++ First.sharing) DB.empty = .ok db' := by
    have happend := replay_append Env.plain First.clock (First.enrolling ++ First.sharing.take 4)
      (First.sharing.drop 4) DB.empty
    rw [hdb] at happend
    exact happend.trans hdb'
  obtain ⟨r, hlen, hstate, -⟩ := replay_run hall
  have h8 : r.state 8 = db := (Except.ok.inj (hdb.symm.trans (hstate 8 (by decide)))).symm
  have h9 : r.state 9 = db' := (Except.ok.inj (hall.symm.trans (hstate 9 (by decide)))).symm
  have hne : n.ownerID ≠ tn.ownerID := by
    rw [hno, hto]
    decide +kernel
  obtain ⟨j, m, g₁, hconsent⟩ := (Store.Run.active_with_consent r).1 8 k g n tn
    (hlen ▸ by decide) (h9 ▸ hg) hs (fun x hx => by
      rw [h8, hg₀, Option.some.injEq] at hx
      rw [← hx, hs₀]
      decide) (h8 ▸ hn) (h8 ▸ htn) hne
  exact ⟨r, j, m, g₁, hlen, hconsent⟩

end Runs

end UniDERP
