import UniDERP.Relay.Admission

namespace UniDERP.Relay

def Server.binding (s : Server) (k : ℕ) : Option Binding := s.policy.bind (·.keys.get? k)

theorem exists_run {W : Wire} {acts : List Act} {s₀ s : State} (h₀ : Start s₀)
    (h : UniDERP.Run.play (fun s a => act W a s) acts s₀ = some s) :
    ∃ r : Run W, r.len = acts.length ∧
      (∀ i ≤ acts.length, UniDERP.Run.play (fun s a => act W a s) (acts.take i) s₀ =
        some (r.state i)) ∧
      ∀ i a, acts[i]? = some a → r.label i = a :=
  UniDERP.Run.of_play (R := fun a b => a = b) (fun _ a _ hs => ⟨a, rfl, hs⟩) .close h₀ h

namespace Sample

def policy (revision : ℕ) (until_ : Int) : Policy where
  clusterID := "cluster"
  nodeID := "node"
  revision := revision
  generatedAt := 1000 * second
  grants := [⟨"grant", 1, "tailnet", 900 * second, until_ * second, until_ * second, zeroTime,
    [⟨nodePublicString 3, .utc zeroTime⟩]⟩]
  qos := ⟨8, 1, 1, 0, [⟨"tailnet", .owner, 1, 0⟩]⟩

/-- The deadline of the one key is brought forward, and then put back. -/
noncomputable def wire : Wire := .listing [policy 1 2000, policy 2 1500, policy 3 2000]

def reading (wall mono : Int) : Reading := ⟨wall * second, some (mono * second)⟩

def start (now : Reading) : State := { server := Server.enable 0 now {} }

def applying : List Act := [
  .apply [0] (fun _ => reading 1000 10) [],
  .apply [1] (fun _ => reading 1000 20) [],
  .apply [2] (fun _ => reading 500 30) []]

noncomputable def play (acts : List Act) (now : Reading) : Option State :=
  UniDERP.Run.play (fun s a => act wire a s) acts (start now)

end Sample

/-- The latest reading that was observed, and whether an earlier one came after it. -/
def Server.clock (s : Server) : Reading × Bool := (s.observed, s.clockBad)

/-- `uniderpClockValidLocked`, for the clock's part of the state alone. -/
def tick (c : Reading × Bool) (now : Reading) : Reading × Bool :=
  (if now.after c.1 then now else c.1, c.2 || now.before (c.1.add (-5 * second)))

def reapReadings (read : ℕ → Reading) : List ℕ → Server → List Reading
  | [], _ => []
  | id :: order, s => (if (s.clients.get? id).isSome then [read 0] else []) ++
      reapReadings (fun i => read (i + 1)) order (reapClient (read 0) id s)

/-- The readings that an application checks once its text is decoded.  The first one is checked
again before and after the loop over the connections. -/
def applyReadings (W : Wire) (read : ℕ → Reading) (order : List ℕ) (p : Policy) (digest : String)
    (s : Server) : List Reading :=
  if s.closed || s.clockBad then []
  else
    let (valid, s) := clockValidLocked (read 0) s
    if !valid || s.policy.any (·.refuses p digest) then [read 0]
    else if s.policy.any (·.repeats p) then [read 0, read 0]
    else read 0 :: read 0 :: reapReadings (fun i => read (i + 1)) order
      (clockValidLocked (read 0) (install W (read 0) p digest s)).2 ++ [read 0]

/-- The readings that a step checks against those before. -/
def Act.readings (W : Wire) (s : Server) : Act → List Reading
  | .verify _ _ _ now | .bind _ now | .register _ now | .check _ _ now => [now]
  | .apply body read order =>
    match W.unmarshal body with
    | none => []
    | some identity =>
      match W.decodePolicy body identity.clusterID identity.nodeID with
      | .error _ => []
      | .ok p => applyReadings W read order p (W.sha256 body) s
  | .reap read order =>
    if s.closed then []
    else read 0 :: reapReadings (fun i => read (i + 1)) order (clockValidLocked (read 0) s).2
  | .status read order =>
    read 0 :: reapReadings (fun i => read (i + 1)) order (clockValidLocked (read 0) s).2 ++ [read 0]
  | _ => []

section Readings

variable {W : Wire} {s : Server} {p : PolicyState}

theorem bindingLocked_clock (hp : s.policy = some p) (now : Reading) (k : ℕ) :
    (bindingLocked now k s).2.clock = tick s.clock now := by
  simp only [bindingLocked, hp]
  split <;> rfl

theorem clientAllowedLocked_clock (hp : s.policy = some p) (now : Reading) (c : Sclient) :
    (clientAllowedLocked now c s).2.clock = tick s.clock now := by
  simp only [clientAllowedLocked, hp]
  exact bindingLocked_clock hp now c.key

theorem registerClient_clock (hp : s.policy = some p) (now : Reading) (conn : ℕ) (c : Sclient) :
    (registerClient now conn c s).2.clock = tick s.clock now := by
  rw [← clientAllowedLocked_clock hp now c, registerClient]
  dsimp only
  split_ifs <;> rfl

theorem clockValidLocked_eq_not (now : Reading) (s : Server) :
    (clockValidLocked now s).1 = !(tick s.clock now).2 := rfl

theorem bindingLocked_of_bad (hp : s.policy = some p) {now : Reading}
    (h : (tick s.clock now).2 = true) (k : ℕ) : (bindingLocked now k s).1 = none := by
  simp only [bindingLocked, hp, clockValidLocked_eq_not, h, Bool.not_true, Bool.false_eq_true,
    if_false]

theorem applyPolicy_of_bad {read : ℕ → Reading} (h : (tick s.clock (read 0)).2 = true)
    (order : List ℕ) (body : Bytes) : ∃ e, (applyPolicy W read order body s).1 = .error e := by
  unfold applyPolicy
  split
  · exact ⟨_, rfl⟩
  split
  · exact ⟨_, rfl⟩
  split
  · exact ⟨_, rfl⟩
  · unfold applyLocked
    split
    · exact ⟨_, rfl⟩
    · simp only [clockValidLocked_eq_not, h, Bool.not_true, Bool.not_false, if_true]
      exact ⟨_, rfl⟩

theorem statusLocked_clock (hp : s.policy = some p) (now : Reading) :
    (statusLocked now s).2.clock = tick s.clock now := by
  simp only [statusLocked, hp]
  rfl

theorem reapClient_clock (hp : s.policy = some p) (now : Reading) (id : ℕ) :
    (reapClient now id s).clock =
      (if (s.clients.get? id).isSome then [now] else []).foldl tick s.clock := by
  unfold reapClient
  cases s.clients.get? id with
  | none => rfl
  | some r => exact clientAllowedLocked_clock hp now r.client

theorem reapEach_clock (hp : s.policy = some p) (read : ℕ → Reading) (order : List ℕ) :
    (reapEach read order s).clock = (reapReadings read order s).foldl tick s.clock := by
  induction order generalizing read s with
  | nil => rfl
  | cons id order ih =>
    have hpolicy : (reapClient (read 0) id s).policy = some p :=
      (reapClient_reaped (read 0) id s).policy.trans hp
    rw [reapEach, reapReadings, List.foldl_append, ih hpolicy, reapClient_clock hp]

theorem reapLocked_clock (hp : s.policy = some p) (now : Reading) (read : ℕ → Reading)
    (order : List ℕ) : (reapLocked now read order s).clock =
      (now :: reapReadings read order (clockValidLocked now s).2).foldl tick s.clock := by
  rw [reapLocked, reapEach_clock ((clockValidLocked_same now s).policy.trans hp)]
  rfl

theorem applyLocked_clock (hp : s.policy = some p) (read : ℕ → Reading) (order : List ℕ)
    (q : Policy) (digest : String) : (applyLocked W read order q digest s).2.clock =
      (applyReadings W read order q digest s).foldl tick s.clock := by
  have hvalid : (clockValidLocked (read 0) s).2.policy = some p :=
    (clockValidLocked_same (read 0) s).policy.trans hp
  unfold applyLocked applyReadings
  split_ifs with hoff
  · rfl
  dsimp only
  by_cases hrollback : (!(clockValidLocked (read 0) s).1) = true
  · rw [if_pos hrollback, if_pos (by simp [hrollback])]
    rfl
  by_cases hrefuses : (clockValidLocked (read 0) s).2.policy.any (·.refuses q digest) = true
  · rw [if_neg hrollback, if_pos hrefuses, if_pos (by simp [hrefuses])]
    rfl
  have hgoes : ¬ (!(clockValidLocked (read 0) s).1 ||
      (clockValidLocked (read 0) s).2.policy.any (·.refuses q digest)) = true := by
    rw [Bool.or_eq_true, not_or]
    exact ⟨hrollback, hrefuses⟩
  rw [if_neg hrollback, if_neg hrefuses, if_neg hgoes]
  by_cases hrepeats : (clockValidLocked (read 0) s).2.policy.any (·.repeats q) = true
  · rw [if_pos hrepeats, if_pos hrepeats, statusLocked_clock hvalid]
    rfl
  · rw [if_neg hrepeats, if_neg hrepeats]
    set t := install W (read 0) q digest (clockValidLocked (read 0) s).2
    have hreaped : (reapLocked (read 0) (fun i => read (i + 1)) order t).policy = t.policy :=
      (reapLocked_reaped _ _ _ _).policy
    rw [statusLocked_clock (hreaped.trans rfl), reapLocked_clock (p := _) rfl]
    simp only [List.cons_append, List.foldl_cons, List.foldl_append, List.foldl_nil]
    rfl

theorem applyPolicy_clock (hp : s.policy = some p) (read : ℕ → Reading) (order : List ℕ)
    (body : Bytes) : (applyPolicy W read order body s).2.clock =
      ((Act.apply body read order).readings W s).foldl tick s.clock := by
  simp only [applyPolicy, Act.readings]
  by_cases hlong : maxPolicyBytes < body.length
  · rw [if_pos hlong]
    cases hu : W.unmarshal body with
    | none => rfl
    | some identity =>
      have herror : W.decodePolicy body identity.clusterID identity.nodeID =
          .error "policy unreadable or too large" := by
        simp [Wire.decodePolicy, require, not_le.mpr hlong, bind, Except.bind]
      simp only [herror]
      rfl
  · rw [if_neg hlong]
    cases W.unmarshal body with
    | none => rfl
    | some identity =>
      dsimp only
      cases W.decodePolicy body identity.clusterID identity.nodeID with
      | error e => rfl
      | ok q => exact applyLocked_clock hp read order q (W.sha256 body)

theorem policyStatus_clock (hp : s.policy = some p) (read : ℕ → Reading) (order : List ℕ) :
    (policyStatus read order s).2.clock =
      ((Act.status read order).readings W s).foldl tick s.clock := by
  have hreaped : (reapLocked (read 0) (fun i => read (i + 1)) order s).policy = some p :=
    (reapLocked_reaped _ _ _ _).policy.trans hp
  simp only [policyStatus, hp]
  rw [statusLocked_clock hreaped, reapLocked_clock hp]
  simp [Act.readings, List.foldl_append]

/-- The clock's part of the state is what the readings make of it. -/
theorem Step.clock {s s' : State} {a : Act} (h : Step W s a s') (hp : s.server.policy = some p) :
    s'.server.clock = (a.readings W s.server).foldl tick s.server.clock := by
  unfold Step at h
  cases a <;> simp only [act] at h
  case verify conn k mesh now =>
    split_ifs at h <;> cases h
    all_goals exact bindingLocked_clock hp now k
  case bind conn now =>
    split at h <;> cases h
    exact bindingLocked_clock hp now _
  case register conn now =>
    split at h <;> cases h
    exact registerClient_clock hp now conn _
  case unregister conn =>
    cases h
    rfl
  case frame => rw [arrive_server h]; rfl
  case packet => rw [arrive_server h]; rfl
  case check side conn now =>
    split at h
    · split_ifs at h <;> cases h
      all_goals exact clientAllowedLocked_clock hp now _
    · cases h
  case apply body read order =>
    split_ifs at h
    cases h
    exact applyPolicy_clock hp read order body
  case reap read order =>
    split_ifs at h with hcovered hclosed
    · cases h
      simp [Act.readings, hclosed]
    · cases h
      simp only [Act.readings, hclosed]
      exact reapLocked_clock hp _ _ _
  case status read order =>
    split_ifs at h
    cases h
    exact policyStatus_clock hp read order
  all_goals
    first
      | cases h; rfl
      | split_ifs at h <;> cases h <;> rfl

end Readings

namespace Run

variable {W : Wire} (r : Run W)

/-- The readings that were checked up to a state, from the one at the start on. -/
def readings (j : ℕ) : List Reading :=
  (r.state 0).server.observed ::
    (List.range j).flatMap fun l => (r.label l).readings W (r.state l).server

theorem clock_eq {j : ℕ} (hj : j ≤ r.len) : (r.state j).server.clock =
    (r.readings j).tail.foldl tick ((r.state 0).server.observed, false) := by
  induction j with
  | zero =>
    obtain ⟨budget, now, hs⟩ := r.start
    rw [hs]
    rfl
  | succ j ih =>
    obtain ⟨p, hp⟩ := (r.guarded (Nat.le_of_succ_le hj)).enabled
    rw [Step.clock (r.next j hj) hp, ih (Nat.le_of_succ_le hj)]
    simp [readings, List.range_succ, List.foldl_append]

end Run

namespace Sample

theorem bindings :
    (play (applying.take 0) (reading 1000 5)).map (·.server.binding 3) = some none ∧
    (play (applying.take 1) (reading 1000 5)).map (·.server.binding 3) =
      some (some ⟨"tailnet", "grant", .ofWall (2000 * second), reading 2000 1010⟩) ∧
    (play (applying.take 2) (reading 1000 5)).map (·.server.binding 3) =
      some (some ⟨"tailnet", "grant", .ofWall (1500 * second), reading 1500 520⟩) ∧
    (play (applying.take 3) (reading 1000 5)).map (·.server.binding 3) =
      some (some ⟨"tailnet", "grant", .ofWall (2000 * second), reading 2000 1530⟩) := by
  decide +kernel

theorem exists_applying : ∃ r : Run wire, r.len = 3 ∧
    (∀ i ≤ 3, play (applying.take i) (reading 1000 5) = some (r.state i)) ∧
    ∀ i a, applying[i]? = some a → r.label i = a := by
  obtain ⟨s, hs, -⟩ := Option.map_eq_some_iff.mp bindings.2.2.2
  exact exists_run ⟨_, _, rfl⟩ hs

variable {r : Run wire} (hplay : ∀ i ≤ 3, play (applying.take i) (reading 1000 5) = some (r.state i))

include hplay

theorem binding_eq : (r.state 0).server.binding 3 = none ∧
    (r.state 1).server.binding 3 =
      some ⟨"tailnet", "grant", .ofWall (2000 * second), reading 2000 1010⟩ ∧
    (r.state 2).server.binding 3 =
      some ⟨"tailnet", "grant", .ofWall (1500 * second), reading 1500 520⟩ ∧
    (r.state 3).server.binding 3 =
      some ⟨"tailnet", "grant", .ofWall (2000 * second), reading 2000 1530⟩ := by
  have h := bindings
  rw [hplay 0 (by omega), hplay 1 (by omega), hplay 2 (by omega), hplay 3 (by omega)] at h
  simpa only [Option.map_some, Option.some.injEq] using h

theorem readings_eq (hlabel : ∀ i a, applying[i]? = some a → r.label i = a) :
    r.readings 2 = reading 1000 5 ::
      (List.replicate 3 (reading 1000 10) ++ List.replicate 3 (reading 1000 20)) ∧
    r.readings 3 = r.readings 2 ++ List.replicate 3 (reading 500 30) := by
  have h : (play (applying.take 0) (reading 1000 5)).map (fun s => (s.server.observed,
        (Act.apply [0] (fun _ => reading 1000 10) []).readings wire s.server)) =
        some (reading 1000 5, List.replicate 3 (reading 1000 10)) ∧
      (play (applying.take 1) (reading 1000 5)).map (fun s =>
        (Act.apply [1] (fun _ => reading 1000 20) []).readings wire s.server) =
        some (List.replicate 3 (reading 1000 20)) ∧
      (play (applying.take 2) (reading 1000 5)).map (fun s =>
        (Act.apply [2] (fun _ => reading 500 30) []).readings wire s.server) =
        some (List.replicate 3 (reading 500 30)) := by
    decide +kernel
  rw [hplay 0 (by omega), hplay 1 (by omega), hplay 2 (by omega)] at h
  simp only [Option.map_some, Option.some.injEq, Prod.mk.injEq] at h
  obtain ⟨⟨hstart, h₀⟩, h₁, h₂⟩ := h
  simp [Run.readings, List.range_succ, hlabel 0 _ rfl, hlabel 1 _ rfl, hlabel 2 _ rfl, hstart, h₀,
    h₁, h₂]

end Sample

/-- A reading that `time.Now` returns: the wall part is in the 33 bits of seconds from 1885 on, the
first five aside, and there is a monotonic part. -/
def OfNow (a : Reading) : Prop :=
  (∃ m, a.mono = some m ∧ 0 ≤ m ∧ m < 2 ^ 63) ∧
    -2682288000 + 5 ≤ unix a.wall ∧ unix a.wall < -2682288000 + 2 ^ 33

def monotonic (a : Reading) : Int := a.mono.getD 0

/-- Some reading is more than five seconds below an earlier one by a part of it. -/
def Drops (part : Reading → Int) (rs : List Reading) : Prop :=
  ¬ rs.Pairwise fun a b => part a - 5 * second ≤ part b

theorem OfNow.before_iff {a b : Reading} (ha : OfNow a) (hb : OfNow b) :
    a.before b = true ↔ monotonic a < monotonic b := by
  obtain ⟨⟨m, hm, -⟩, -⟩ := ha
  obtain ⟨⟨m', hm', -⟩, -⟩ := hb
  simp [Reading.before, monotonic, hm, hm']

theorem OfNow.before_add_iff {a now : Reading} (ha : OfNow a) (hnow : OfNow now) :
    now.before (a.add (-5 * second)) = true ↔ monotonic now < monotonic a - 5 * second := by
  obtain ⟨⟨m, hm, hpos, hbound⟩, hlow, hhigh⟩ := ha
  obtain ⟨⟨m', hm', -⟩, -⟩ := hnow
  -- Five seconds less are still in the range in which `time.Add` keeps the monotonic part.
  have hkept : (a.add (-5 * second)).mono = some (m + -5 * second) := by
    have hunix : unix (a.wall + -5 * second) = unix a.wall - 5 := by
      unfold unix second
      omega
    have hclamp : Reading.clamp (m + -5 * second) = m + -5 * second := by
      unfold Reading.clamp second
      omega
    simp only [Reading.add, hm, Option.bind_some, hunix, hclamp]
    rw [if_pos ⟨by omega, by omega, trivial⟩]
  simp only [Reading.before, monotonic, hm', hkept, hm, Option.getD_some, decide_eq_true_eq]
  omega

/-- The latest reading is kept, and a drop of the monotonic part is noticed for good. -/
theorem foldl_tick {o : Reading} {rs : List Reading} (h : ∀ a ∈ o :: rs, OfNow a) :
    (rs.foldl tick (o, false)).1 ∈ o :: rs ∧
      (∀ a ∈ o :: rs, monotonic a ≤ monotonic (rs.foldl tick (o, false)).1) ∧
      ((rs.foldl tick (o, false)).2 = true ↔ Drops monotonic (o :: rs)) := by
  induction rs using List.reverseRecOn with
  | nil => simp [Drops]
  | append_singleton rs now ih =>
    rw [← List.cons_append] at h ⊢
    have hnow : OfNow now := h now (by simp)
    obtain ⟨hmem, hmax, hbad⟩ := ih fun a ha => h a (List.mem_append_left _ ha)
    rw [List.foldl_append, List.foldl_cons, List.foldl_nil]
    generalize rs.foldl tick (o, false) = c at hmem hmax hbad
    have hlatest : OfNow c.1 := h c.1 (List.mem_append_left _ hmem)
    have hafter : now.after c.1 = true ↔ monotonic c.1 < monotonic now := hlatest.before_iff hnow
    refine ⟨?_, fun a ha => ?_, ?_⟩
    · simp only [tick]
      split_ifs
      · exact List.mem_append_right _ (List.mem_singleton.mpr rfl)
      · exact List.mem_append_left _ hmem
    · simp only [tick, hafter]
      rcases List.mem_append.mp ha with ha | ha
      · have hle := hmax a ha
        split_ifs <;> omega
      · obtain rfl := List.mem_singleton.mp ha
        split_ifs <;> omega
    · -- The new reading is below some earlier one if it is below the latest.
      simp only [tick, Bool.or_eq_true, hlatest.before_add_iff hnow, hbad, Drops,
        List.pairwise_append, List.pairwise_singleton, List.mem_singleton, true_and]
      constructor
      · rintro (hold | hlow) ⟨hpairs, hlast⟩
        · exact hold hpairs
        · have hle := hlast c.1 hmem now rfl
          omega
      · intro hnot
        by_contra hcon
        rw [not_or, not_not] at hcon
        refine hnot ⟨hcon.1, fun a ha b hb => ?_⟩
        subst hb
        have hle := hmax a ha
        omega

/-- No key is admitted at a reading, and every policy is rejected. -/
structure FailsClosed (W : Wire) (now : Reading) (s : Server) : Prop where
  keys : ∀ k, (bindingLocked now k s).1 = none
  policies : ∀ body read order, read 0 = now →
    ∃ e, (applyPolicy W read order body s).1 = .error e

/-- A text that the relay accepts while its clock is valid. -/
structure Acceptable (W : Wire) (body : Bytes) (s : Server) : Prop where
  fits : body.length ≤ maxPolicyBytes
  isOpen : s.closed = false
  decodes : ∃ identity p, W.unmarshal body = some identity ∧
    W.decodePolicy body identity.clusterID identity.nodeID = .ok p ∧
    ∀ old, s.policy = some old → old.refuses p (W.sha256 body) = false

/-- Nothing is left to admit or to accept: every key is past an end, and every text is refused for
another reason than the clock. -/
structure Exhausted (W : Wire) (now : Reading) (s : Server) : Prop where
  keys : ∀ k b, s.binding k = some b → ¬ (now.before b.until_ ∧ now.before b.deadline)
  policies : ∀ body, ¬ Acceptable W body s

section FailsClosed

variable {W : Wire} {s : Server} {p : PolicyState} {now : Reading}

theorem bindingLocked_eq_none_iff (hp : s.policy = some p) (hgood : (tick s.clock now).2 = false)
    (k : ℕ) : (bindingLocked now k s).1 = none ↔
      ∀ b, s.binding k = some b → ¬ (now.before b.until_ ∧ now.before b.deadline) := by
  simp only [bindingLocked, hp, clockValidLocked_eq_not, hgood, Bool.not_false, if_true,
    Option.filter_eq_none_iff, Server.binding, Option.bind_some, Binding.live, Bool.and_eq_true]

theorem applyPolicy_error_iff (hp : s.policy = some p) (read : ℕ → Reading) (order : List ℕ)
    (body : Bytes) (hgood : (tick s.clock (read 0)).2 = false) :
    (∃ e, (applyPolicy W read order body s).1 = .error e) ↔ ¬ Acceptable W body s := by
  have hbad : s.clockBad = false := (Bool.or_eq_false_iff.mp hgood).1
  constructor
  · rintro ⟨e, he⟩ ⟨hfits, hopen, identity, q, hu, hq, hrefuses⟩
    simp only [applyPolicy, not_lt.mpr hfits, if_false, hu, hq, applyLocked, hopen, hbad,
      clockValidLocked_eq_not, hgood, (clockValidLocked_same (read 0) s).policy, hp,
      Option.any_some, hrefuses p hp] at he
    cases he
  · intro hnot
    unfold applyPolicy
    split
    · exact ⟨_, rfl⟩
    rename_i hfits
    cases hu : W.unmarshal body with
    | none => exact ⟨_, rfl⟩
    | some identity =>
      dsimp only
      cases hq : W.decodePolicy body identity.clusterID identity.nodeID with
      | error e => exact ⟨e, rfl⟩
      | ok q =>
        dsimp only [applyLocked]
        split
        · exact ⟨_, rfl⟩
        rename_i hclosed
        rw [Bool.or_eq_true, not_or, Bool.not_eq_true] at hclosed
        simp only [clockValidLocked_eq_not, hgood, (clockValidLocked_same (read 0) s).policy, hp,
          Option.any_some]
        cases hrefuses : p.refuses q (W.sha256 body) with
        | true => exact ⟨_, rfl⟩
        | false =>
          refine absurd ⟨not_lt.mp hfits, hclosed.1, identity, q, hu, hq, fun old hold => ?_⟩ hnot
          rwa [← Option.some.inj (hp.symm.trans hold)]

theorem failsClosed_iff (hp : s.policy = some p) :
    FailsClosed W now s ↔ (tick s.clock now).2 = true ∨ Exhausted W now s := by
  cases hclock : (tick s.clock now).2 with
  | true =>
    refine ⟨fun _ => .inl rfl, fun _ => ⟨bindingLocked_of_bad hp hclock, ?_⟩⟩
    intro body read order hread
    exact applyPolicy_of_bad (hread ▸ hclock) order body
  | false =>
    simp only [Bool.false_eq_true, false_or]
    constructor
    · intro ⟨hkeys, hpolicies⟩
      refine ⟨fun k => (bindingLocked_eq_none_iff hp hclock k).mp (hkeys k), fun body => ?_⟩
      exact (applyPolicy_error_iff hp (fun _ => now) [] body hclock).mp
        (hpolicies body _ _ rfl)
    · intro ⟨hkeys, hpolicies⟩
      refine ⟨fun k => (bindingLocked_eq_none_iff hp hclock k).mpr (hkeys k), ?_⟩
      intro body read order hread
      exact (applyPolicy_error_iff hp read order body (hread ▸ hclock)).mpr (hpolicies body)

end FailsClosed

/-- With the clock of production the guard sees the monotonic parts alone, so while these do not
decrease it never fires.  A rollback of the wall part then fails closed only where nothing is left to
admit or to accept. -/
theorem Run.rollback_fails_closed {W : Wire} (r : Run W) {j : ℕ} (hj : j ≤ r.len)
    (hnow : ∀ a ∈ r.readings j, OfNow a) :
    ((r.state j).server.clockBad = true ↔ Drops monotonic (r.readings j)) ∧
    ((r.readings j).Pairwise (fun a b => ¬ b.before a) → (r.state j).server.clockBad = false) ∧
    ∀ now, OfNow now →
      ((Drops (·.wall) (r.readings j ++ [now]) → FailsClosed W now (r.state j).server) ↔
        ¬ Drops (·.wall) (r.readings j ++ [now]) ∨ Drops monotonic (r.readings j ++ [now]) ∨
          Exhausted W now (r.state j).server) := by
  have hclock := r.clock_eq hj
  have hbad : (r.state j).server.clockBad = true ↔ Drops monotonic (r.readings j) := by
    have hfold := (foldl_tick hnow).2.2
    rw [readings, List.tail_cons] at hclock
    rwa [← hclock] at hfold
  refine ⟨hbad, fun hordered => ?_, fun now hlast => ?_⟩
  · rw [← Bool.not_eq_true, hbad, Drops, not_not]
    refine hordered.imp_of_mem fun ha hb hle => ?_
    rw [(hnow _ hb).before_iff (hnow _ ha)] at hle
    unfold second
    omega
  · obtain ⟨p, hp⟩ := (r.guarded hj).enabled
    have htick : (tick (r.state j).server.clock now).2 = true ↔
        Drops monotonic (r.readings j ++ [now]) := by
      have hall : ∀ a ∈ r.readings j ++ [now], OfNow a := by
        intro a ha
        rcases List.mem_append.mp ha with ha | ha
        · exact hnow a ha
        · exact List.mem_singleton.mp ha ▸ hlast
      have hfold : (((r.readings j).tail ++ [now]).foldl tick
          ((r.state 0).server.observed, false)).2 = true ↔
            Drops monotonic (r.readings j ++ [now]) := (foldl_tick hall).2.2
      rwa [List.foldl_append, ← hclock] at hfold
    rw [failsClosed_iff hp, htick]
    tauto

theorem Sample.reading_ofNow {w m : Int} (hw : 0 ≤ w ∧ w < 2 ^ 32) (hm : 0 ≤ m ∧ m < 2 ^ 32) :
    OfNow (Sample.reading w m) := by
  have hunix : unix (w * second) = w := unix_ofUnix w
  refine ⟨⟨_, rfl, ?_, ?_⟩, ?_⟩
  · unfold second
    omega
  · unfold second
    omega
  · rw [Sample.reading, hunix]
    omega

/-- At the reading after the one that was set back the guard has not fired, and the relay does not
fail closed. -/
theorem sample_stays_open : ∃ r : Run Sample.wire, (∀ a ∈ r.readings 3, OfNow a) ∧
    Drops (·.wall) (r.readings 3) ∧ (r.state 3).server.clockBad = false ∧
    ¬ FailsClosed Sample.wire (Sample.reading 500 31) (r.state 3).server := by
  obtain ⟨r, hlen, hplay, hlabel⟩ := Sample.exists_applying
  obtain ⟨htwo, hthree⟩ := Sample.readings_eq hplay hlabel
  have hreadings := hthree.trans (congrArg (· ++ _) htwo)
  have hnow : ∀ a ∈ r.readings 3, OfNow a := by
    intro a ha
    rw [hreadings] at ha
    simp only [List.cons_append, List.mem_cons, List.mem_append, List.mem_replicate] at ha
    rcases ha with rfl | (⟨-, rfl⟩ | ⟨-, rfl⟩) | ⟨-, rfl⟩
    all_goals apply Sample.reading_ofNow <;> norm_num
  have hdrops : Drops (·.wall) (r.readings 3) := by
    rw [hreadings, Drops]
    decide
  obtain ⟨-, hordered, hiff⟩ := r.rollback_fails_closed hlen.ge hnow
  refine ⟨r, hnow, hdrops, hordered (by rw [hreadings]; decide), fun hclosed => ?_⟩
  have hlast : OfNow (Sample.reading 500 31) := Sample.reading_ofNow (by norm_num) (by norm_num)
  rcases (hiff _ hlast).mp fun _ => hclosed with hsteady | hslow | hexhausted
  · refine hsteady ?_
    rw [hreadings, Drops]
    decide
  · refine hslow ?_
    rw [hreadings]
    decide
  · exact hexhausted.keys 3 _ (Sample.binding_eq hplay).2.2.2 ⟨by decide, by decide⟩

/-- With the clock of production the guard compares the monotonic parts: a policy is applied and a
key is admitted at a reading whose wall part is far below that of an earlier one. -/
theorem rollback_unnoticed : ∃ (r : Run Sample.wire) (a now : Reading),
    a ∈ r.readings 2 ∧ r.label 2 = .apply [2] (fun _ => now) [] ∧
    (∀ x ∈ r.readings 3, x.mono ≠ none) ∧ (r.readings 3).Pairwise (fun x y => ¬ y.before x) ∧
    now.wall < a.wall - 5 * second ∧
    (∃ status, (applyPolicy Sample.wire (fun _ => now) [] [2] (r.state 2).server).1 = .ok status) ∧
    (bindingLocked now 3 (r.state 3).server).1 ≠ none := by
  obtain ⟨r, hlen, hplay, hlabel⟩ := Sample.exists_applying
  obtain ⟨htwo, hthree⟩ := Sample.readings_eq hplay hlabel
  have h : (Sample.play (Sample.applying.take 2) (Sample.reading 1000 5)).map (fun s =>
        (applyPolicy Sample.wire (fun _ => Sample.reading 500 30) [] [2] s.server).1.isOk) =
        some true ∧
      (Sample.play (Sample.applying.take 3) (Sample.reading 1000 5)).map (fun s =>
        (bindingLocked (Sample.reading 500 30) 3 s.server).1.isSome) = some true := by
    decide +kernel
  rw [hplay 2 (by omega), hplay 3 (by omega), Option.map_some, Option.map_some, Option.some.injEq,
    Option.some.injEq] at h
  refine ⟨r, Sample.reading 1000 10, Sample.reading 500 30, ?_, hlabel 2 _ rfl, ?_, ?_, ?_, ?_, ?_⟩
  · rw [htwo]
    decide
  · rw [hthree, htwo]
    decide
  · rw [hthree, htwo]
    decide
  · decide
  · cases happly : (applyPolicy Sample.wire (fun _ => Sample.reading 500 30) [] [2]
        (r.state 2).server).1 with
    | ok status => exact ⟨status, rfl⟩
    | error e =>
      rw [happly] at h
      exact absurd h.1 Bool.false_ne_true
  · exact Option.isSome_iff_ne_none.mp h.2

section Deadlines

variable {W : Wire}

/-- `time.Add` keeps the monotonic part of the deadline that is computed from a reading. -/
def Dated (now : Reading) (until_ : Reading) : Prop :=
  ∃ m, now.mono = some m ∧
    (now.add (until_.sub now)).mono = some (m + (until_.wall - now.wall))

/-- A new binding, or one that does not outlive its predecessor, has no later deadline. -/
theorem bindKey_deadline {now : Reading} {old : Option Binding} {g : GrantPolicy} {key : DeviceKey}
    {b : Binding} {bound : Int} (hb : b = bindKey now old g key) (hdated : Dated now b.until_)
    (hold : (old = none ∧ ∀ m, now.mono = some m → m + (b.until_.wall - now.wall) ≤ bound) ∨
      ∃ b₀ d, old = some b₀ ∧ b.until_.wall ≤ b₀.until_.wall ∧ b₀.deadline.mono = some d ∧
        d ≤ bound) : ∃ d, b.deadline.mono = some d ∧ d ≤ bound := by
  obtain ⟨m, hm, hadd⟩ := hdated
  rcases hold with ⟨rfl, hbound⟩ | ⟨b₀, d, rfl, hle, hd, hbound⟩
  · refine ⟨_, ?_, hbound m hm⟩
    subst hb
    exact hadd
  · have hafter : b.until_.after b₀.until_ = false := by
      have hwall : b.until_.mono = none := by rw [hb]; rfl
      cases hmono : b₀.until_.mono <;> simp [Reading.after, Reading.before, hwall, hmono, hle]
    have hdeadline : b.deadline = if b₀.deadline.before (now.add (b.until_.sub now)) then b₀.deadline
        else now.add (b.until_.sub now) := by
      have hu : b.until_ = Reading.ofWall (effectiveUntil g key) := by rw [hb]; rfl
      rw [hu] at hafter ⊢
      rw [hb]
      simp only [bindKey, hafter, Bool.not_false, Bool.true_and]
    rw [hdeadline]
    split_ifs with hbefore
    · exact ⟨d, hd, hbound⟩
    · refine ⟨_, hadd, ?_⟩
      simp only [Reading.before, hd, hadd, decide_eq_true_eq] at hbefore
      omega

/-- What a step does to the binding of a key. -/
theorem Step.binding {s s' : State} {a : Act} (h : Step W s a s') {p : PolicyState}
    (hp : s.server.policy = some p) (k : ℕ) :
    s'.server.binding k = s.server.binding k ∨
      ∃ body read order, a = .apply body read order ∧ ∀ b, s'.server.binding k = some b →
        ∃ g key, b = bindKey (read 0) (s.server.binding k) g key := by
  have hsame : ∀ {t t' : Server}, t'.policy = t.policy → t'.binding k = t.binding k := by
    intro t t' ht
    rw [Server.binding, ht]
    rfl
  have hchange := Step.server h hp
  generalize s'.server = t' at hchange ⊢
  cases hchange with
  | clock _ same => exact .inl (hsame same.policy)
  | registered same => exact .inl (hsame same.policy)
  | unregistered => exact .inl rfl
  | reaped _ _ reaped same => exact .inl (hsame (same.policy.trans reaped.policy))
  | closed => exact .inl rfl
  | installed _ installed =>
    refine .inr ⟨_, _, _, rfl, fun b hb => ?_⟩
    rw [Server.binding, installed.policy, Option.bind_some] at hb
    obtain ⟨g, -, key, -, hkey⟩ := bindKeys_eq_some hb
    exact ⟨g, key, hkey⟩

namespace Run

variable (r : Run W) (k i j : ℕ)

/-- From its first application at step `i` on, the key is in every policy up to the state `j`. -/
structure Stays (now₀ : Reading) (u₀ : Int) : Prop where
  order : i < j ∧ j ≤ r.len
  absent : (r.state i).server.binding k = none
  applied : ∃ body read order, r.label i = .apply body read order ∧ read 0 = now₀
  first : ∃ b, (r.state (i + 1)).server.binding k = some b ∧ b.until_.wall = u₀
  present : ∀ l, i < l → l ≤ j → ∃ b, (r.state l).server.binding k = some b

def Dates : Prop := ∀ l, i ≤ l → l < j →
  (r.state (l + 1)).server.policy ≠ (r.state l).server.policy →
  ∀ body read order b, r.label l = .apply body read order →
    (r.state (l + 1)).server.binding k = some b → Dated (read 0) b.until_

def NeverLater (u₀ : Int) : Prop := ∀ l b, i < l → l ≤ j →
  (r.state l).server.binding k = some b → b.until_.wall ≤ u₀

def Falls : Prop := ∀ l b b', i < l → l < j → (r.state l).server.binding k = some b →
  (r.state (l + 1)).server.binding k = some b' → b'.until_.wall ≤ b.until_.wall

variable {k i j}

/-- A key whose deadline only falls is not admitted past the first one by the monotonic clock,
however the wall clock is set. -/
theorem deadline_kept {now₀ now : Reading} {u₀ m₀ m : Int} (hstays : r.Stays k i j now₀ u₀)
    (hdates : r.Dates k i j) (hfalls : r.Falls k i j) (hm₀ : now₀.mono = some m₀)
    (hm : now.mono = some m) (hlate : m₀ + (u₀ - now₀.wall) ≤ m) :
    (bindingLocked now k (r.state j).server).1 = none := by
  obtain ⟨⟨hij, hj⟩, habsent, ⟨body₀, read₀, order₀, hlabel₀, hread₀⟩, ⟨b₀, hb₀, hu₀⟩, hpresent⟩ :=
    hstays
  have hpolicy : ∀ l ≤ r.len, ∃ p, (r.state l).server.policy = some p := fun l hl =>
    (r.guarded hl).enabled
  -- The deadline in force is never later than the first one.
  have hdeadline : ∀ l, i + 1 ≤ l → l ≤ j → ∀ b, (r.state l).server.binding k = some b →
      ∃ d, b.deadline.mono = some d ∧ d ≤ m₀ + (u₀ - now₀.wall) := by
    intro l hl
    induction l, hl using Nat.le_induction with
    | base =>
      intro _ b hb
      obtain rfl : b₀ = b := Option.some.inj (hb₀.symm.trans hb)
      have hnew : (r.state (i + 1)).server.policy ≠ (r.state i).server.policy := by
        intro hsame
        rw [Server.binding, hsame] at hb
        exact absurd (hb.symm.trans habsent) (by simp)
      have hdated := hdates i le_rfl hij hnew _ _ _ _ hlabel₀ hb
      obtain ⟨p, hp⟩ := hpolicy i (by omega)
      rcases Step.binding (r.next i (by omega)) hp k with hsame | ⟨_, _, _, hlabel, hbind⟩
      · rw [habsent, hb] at hsame
        cases hsame
      · rw [hlabel₀, Act.apply.injEq] at hlabel
        obtain ⟨-, rfl, -⟩ := hlabel
        obtain ⟨g, key, hbk⟩ := hbind _ hb
        refine bindKey_deadline hbk hdated (.inl ⟨habsent, fun m hm => ?_⟩)
        rw [hread₀, hm₀, Option.some.injEq] at hm
        rw [hm, hu₀, hread₀]
    | succ l hl ih =>
      intro hlj b hb
      obtain ⟨b₁, hb₁⟩ := hpresent l hl (by omega)
      obtain ⟨d, hd, hle⟩ := ih (by omega) b₁ hb₁
      by_cases hnew : (r.state (l + 1)).server.policy = (r.state l).server.policy
      · rw [Server.binding, hnew] at hb
        obtain rfl := Option.some.inj (hb₁.symm.trans hb)
        exact ⟨d, hd, hle⟩
      · obtain ⟨p, hp⟩ := hpolicy l (by omega)
        rcases Step.binding (r.next l (by omega)) hp k with hsame | ⟨_, _, _, hlabel, hbind⟩
        · rw [hsame, hb₁, Option.some.injEq] at hb
          subst hb
          exact ⟨d, hd, hle⟩
        · obtain ⟨g, key, hbk⟩ := hbind b hb
          exact bindKey_deadline hbk (hdates l (by omega) hlj hnew _ _ _ _ hlabel hb)
            (.inr ⟨b₁, d, hb₁, hfalls l b₁ b hl hlj hb₁ hb, hd, hle⟩)
  obtain ⟨p, hp⟩ := hpolicy j hj
  rw [Option.eq_none_iff_forall_ne_some]
  intro b hb
  obtain ⟨hkey, -, hbefore⟩ := bindingLocked_eq_some hp hb
  have hbinding : (r.state j).server.binding k = some b := by
    rw [Server.binding, hp]
    exact hkey
  obtain ⟨d, hd, hle⟩ := hdeadline j hij le_rfl b hbinding
  simp only [Reading.before, hm, hd, decide_eq_true_eq] at hbefore
  omega

end Run

namespace Sample

variable {r : Run wire} (hplay : ∀ i ≤ 3, play (applying.take i) (reading 1000 5) = some (r.state i))

include hplay

theorem stays {j : ℕ} (hlen : r.len = 3) (hj : 0 < j ∧ j ≤ 3)
    (hlabel : ∀ i a, applying[i]? = some a → r.label i = a) :
    r.Stays 3 0 j (reading 1000 10) (2000 * second) := by
  obtain ⟨h₀, h₁, h₂, h₃⟩ := binding_eq hplay
  refine ⟨⟨hj.1, by omega⟩, h₀, ⟨_, _, _, hlabel 0 _ rfl, rfl⟩, ⟨_, h₁, rfl⟩, fun l hl hlj => ?_⟩
  have hcases : l = 1 ∨ l = 2 ∨ l = 3 := by omega
  rcases hcases with rfl | rfl | rfl
  · exact ⟨_, h₁⟩
  · exact ⟨_, h₂⟩
  · exact ⟨_, h₃⟩

theorem dates {j : ℕ} (hj : j ≤ 3) (hlabel : ∀ i a, applying[i]? = some a → r.label i = a) :
    r.Dates 3 0 j := by
  obtain ⟨h₀, h₁, h₂, h₃⟩ := binding_eq hplay
  intro l _ hl _ body read order b hl' hb
  have hcases : l = 0 ∨ l = 1 ∨ l = 2 := by omega
  rcases hcases with rfl | rfl | rfl
  · obtain ⟨-, rfl, -⟩ := Act.apply.inj ((hlabel 0 _ rfl).symm.trans hl')
    obtain rfl := Option.some.inj (h₁.symm.trans hb)
    exact ⟨_, rfl, by decide⟩
  · obtain ⟨-, rfl, -⟩ := Act.apply.inj ((hlabel 1 _ rfl).symm.trans hl')
    obtain rfl := Option.some.inj (h₂.symm.trans hb)
    exact ⟨_, rfl, by decide⟩
  · obtain ⟨-, rfl, -⟩ := Act.apply.inj ((hlabel 2 _ rfl).symm.trans hl')
    obtain rfl := Option.some.inj (h₃.symm.trans hb)
    exact ⟨_, rfl, by decide⟩

end Sample

theorem sample_deadline_kept : ∃ r : Run Sample.wire,
    r.Stays 3 0 2 (Sample.reading 1000 10) (2000 * second) ∧ r.Dates 3 0 2 ∧ r.Falls 3 0 2 ∧
    (bindingLocked (Sample.reading 900 1010) 3 (r.state 2).server).1 = none := by
  obtain ⟨r, hlen, hplay, hlabel⟩ := Sample.exists_applying
  obtain ⟨-, h₁, h₂, -⟩ := Sample.binding_eq hplay
  have hstays := Sample.stays hplay hlen ⟨Nat.zero_lt_two, by omega⟩ hlabel
  have hdates : r.Dates 3 0 2 := Sample.dates hplay (by omega) hlabel
  have hfalls : r.Falls 3 0 2 := by
    intro l b b' hl hl' hb hb'
    obtain rfl : l = 1 := by omega
    obtain rfl := Option.some.inj (h₁.symm.trans hb)
    obtain rfl := Option.some.inj (h₂.symm.trans hb')
    decide
  exact ⟨r, hstays, hdates, hfalls, r.deadline_kept hstays hdates hfalls rfl rfl (by decide)⟩

/-- A deadline that was brought forward and is put back is computed anew, from the wall clock that
was set back in between. -/
theorem deadline_stretched : ∃ (r : Run Sample.wire) (now₀ now : Reading) (u₀ m₀ m : Int),
    r.Stays 3 0 3 now₀ u₀ ∧ r.Dates 3 0 3 ∧ r.NeverLater 3 0 3 u₀ ∧
    (∀ x ∈ r.readings 3, x.mono ≠ none) ∧
    (r.readings 3 ++ [now]).Pairwise (fun x y => ¬ y.before x) ∧
    now₀.mono = some m₀ ∧ now.mono = some m ∧ m₀ + (u₀ - now₀.wall) ≤ m ∧
    (bindingLocked now 3 (r.state 3).server).1 ≠ none := by
  obtain ⟨r, hlen, hplay, hlabel⟩ := Sample.exists_applying
  obtain ⟨-, h₁, h₂, h₃⟩ := Sample.binding_eq hplay
  obtain ⟨htwo, hthree⟩ := Sample.readings_eq hplay hlabel
  have h : (Sample.play (Sample.applying.take 3) (Sample.reading 1000 5)).map (fun s =>
      (bindingLocked (Sample.reading 1000 1200) 3 s.server).1.isSome) = some true := by
    decide +kernel
  rw [hplay 3 (by omega), Option.map_some, Option.some.injEq] at h
  refine ⟨r, Sample.reading 1000 10, Sample.reading 1000 1200, 2000 * second, 10 * second,
    1200 * second, Sample.stays hplay hlen ⟨by omega, by omega⟩ hlabel,
    Sample.dates hplay (by omega) hlabel, fun l b hl hl' hb => ?_, ?_, ?_, rfl, rfl, by decide,
    Option.isSome_iff_ne_none.mp h⟩
  · have hcases : l = 1 ∨ l = 2 ∨ l = 3 := by omega
    rcases hcases with rfl | rfl | rfl
    · obtain rfl := Option.some.inj (h₁.symm.trans hb)
      decide
    · obtain rfl := Option.some.inj (h₂.symm.trans hb)
      decide
    · obtain rfl := Option.some.inj (h₃.symm.trans hb)
      decide
  · rw [hthree, htwo]
    decide
  · rw [hthree, htwo]
    decide

end Deadlines

end UniDERP.Relay
