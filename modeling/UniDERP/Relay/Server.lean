import UniDERP.Library.Table
import UniDERP.Wire

namespace UniDERP.Relay

/-- What a key is bound to, and until when by the wall clock and by the relay's own. -/
structure Binding where
  tailnet : String
  grant : String
  until_ : Reading
  deadline : Reading
  deriving DecidableEq, Repr

structure PolicyState where
  policy : Policy
  digest : String
  keys : Table ℕ Binding

structure Sclient where
  key : ℕ
  tailnet : String
  grant : String
  deriving DecidableEq, Repr

/-- A registered connection.  The code does not keep `checked`, the reading at which the
connection last passed a check of its registration. -/
structure Registered where
  client : Sclient
  cancelled : Bool := false
  checked : Reading
  deriving DecidableEq, Repr

structure Server where
  policy : Option PolicyState := none
  localBudgetBPS : ℕ := 0
  observed : Reading := .ofWall zeroTime
  clockBad : Bool := false
  closed : Bool := false
  /-- Whether frames and packets wait for the schedulers. -/
  rx : Bool := false
  tx : Bool := false
  clients : Table ℕ Registered := ∅

/-- The part of `UniDERPAppliedPolicy` that the policy determines. -/
structure AppliedPolicy where
  revision : ℕ := 0
  usable : Bool := false
  deriving DecidableEq, Repr

def noPolicy : Policy where
  clusterID := ""
  nodeID := ""
  revision := 0
  generatedAt := zeroTime
  grants := []
  qos := ⟨0, 0, 0, 0, []⟩

def Server.enable (maxBudgetBPS : ℕ) (now : Reading) (s : Server) : Server :=
  match s.policy with
  | some _ => s
  | none =>
    { s with localBudgetBPS := maxBudgetBPS, policy := some ⟨noPolicy, "", ∅⟩, observed := now }

def clockValidLocked (now : Reading) (s : Server) : Bool × Server :=
  let bad := s.clockBad || now.before (s.observed.add (-5 * second))
  (!bad, { s with
    clockBad := bad
    observed := if now.after s.observed then now else s.observed })

def Binding.live (b : Binding) (now : Reading) : Bool := now.before b.until_ && now.before b.deadline

def bindingLocked (now : Reading) (k : ℕ) (s : Server) : Option Binding × Server :=
  match s.policy with
  | none => (some ⟨"", "", .ofWall zeroTime, .ofWall zeroTime⟩, s)
  | some p =>
    let (valid, s) := clockValidLocked now s
    if valid then ((p.keys.get? k).filter (·.live now), s) else (none, s)

def clientAllowedLocked (now : Reading) (c : Sclient) (s : Server) : Bool × Server :=
  match s.policy with
  | none => (true, s)
  | some _ =>
    let (b, s) := bindingLocked now c.key s
    (b.any fun b => b.tailnet = c.tailnet && b.grant = c.grant, s)

/-- One connection of the loop of `uniderpReapLocked`. -/
def reapClient (now : Reading) (id : ℕ) (s : Server) : Server :=
  match s.clients.get? id with
  | none => s
  | some r =>
    let (allowed, s) := clientAllowedLocked now r.client s
    let r := if allowed then { r with checked := now } else { r with cancelled := true }
    { s with clients := s.clients.insert id r }

/-- The loop over the connections in the order in which the table gives them. -/
def reapEach (read : ℕ → Reading) : List ℕ → Server → Server
  | [], s => s
  | id :: order, s => reapEach (fun i => read (i + 1)) order (reapClient (read 0) id s)

def reapLocked (now : Reading) (read : ℕ → Reading) (order : List ℕ) (s : Server) : Server :=
  reapEach read order (clockValidLocked now s).2

def statusLocked (now : Reading) (s : Server) : AppliedPolicy × Server :=
  match s.policy with
  | none => ({}, s)
  | some p =>
    let (valid, s) := clockValidLocked now s
    (⟨p.policy.revision, valid && p.keys.any fun _ b => b.live now⟩, s)

/-- The binding of a key; one that does not outlive its predecessor keeps the earlier deadline. -/
def bindKey (now : Reading) (old : Option Binding) (g : GrantPolicy) (k : DeviceKey) : Binding :=
  let until_ := Reading.ofWall (effectiveUntil g k)
  let deadline := now.add (until_.sub now)
  ⟨g.tailnetID, g.grantID, until_,
    match old with
    | some previous =>
      if !until_.after previous.until_ && previous.deadline.before deadline then previous.deadline
      else deadline
    | none => deadline⟩

def bindKeys (W : Wire) (now : Reading) (old : Option PolicyState) (p : Policy) : Table ℕ Binding :=
  p.grants.foldl (fun keys g => g.keys.foldl (fun keys k =>
    let pub := (W.unmarshalText k.nodePublic).getD 0
    keys.insert pub (bindKey now (old.bind (·.keys.get? pub)) g k)) keys) ∅

/-- The stored policy refuses another identity, an older revision, and another text of its own. -/
def PolicyState.refuses (old : PolicyState) (p : Policy) (digest : String) : Bool :=
  old.policy.revision ≠ 0 && (old.policy.clusterID ≠ p.clusterID || old.policy.nodeID ≠ p.nodeID ||
    p.revision < old.policy.revision || (p.revision = old.policy.revision && digest ≠ old.digest))

def PolicyState.repeats (old : PolicyState) (p : Policy) : Bool :=
  old.policy.revision ≠ 0 && p.revision = old.policy.revision

def install (W : Wire) (now : Reading) (p : Policy) (digest : String) (s : Server) : Server :=
  let scheduled := s.policy.all fun old => old.policy.qos ≠ p.qos
  { s with
    rx := s.rx || scheduled, tx := s.tx || scheduled
    policy := some ⟨p, digest, bindKeys W now s.policy p⟩ }

/-- `ApplyUniDERPPolicy` once the text is decoded. -/
def applyLocked (W : Wire) (read : ℕ → Reading) (order : List ℕ) (p : Policy) (digest : String)
    (s : Server) : Except String AppliedPolicy × Server :=
  if s.closed || s.clockBad then (.error "UniDERP policy unavailable", s)
  else
    let now := read 0
    let (valid, s) := clockValidLocked now s
    if !valid then (.error "UniDERP clock rollback", s)
    else if s.policy.any (·.refuses p digest) then (.error "UniDERP policy revision conflict", s)
    else
      let s := if s.policy.any (·.repeats p) then s
        else reapLocked now (fun i => read (i + 1)) order (install W now p digest s)
      let (status, s) := statusLocked now s
      (.ok status, s)

def applyPolicy (W : Wire) (read : ℕ → Reading) (order : List ℕ) (body : Bytes) (s : Server) :
    Except String AppliedPolicy × Server :=
  if maxPolicyBytes < body.length then (.error "UniDERP policy too large", s)
  else match W.unmarshal body with
    | none => (.error "decode policy", s)
    | some identity =>
      match W.decodePolicy body identity.clusterID identity.nodeID with
      | .error e => (.error e, s)
      | .ok p => applyLocked W read order p (W.sha256 body) s

/-- `UniDERPPolicyStatus`. -/
def policyStatus (read : ℕ → Reading) (order : List ℕ) (s : Server) : AppliedPolicy × Server :=
  let s := match s.policy with
    | none => s
    | some _ => reapLocked (read 0) (fun i => read (i + 1)) order s
  statusLocked (read 0) s

/-- A connection that the policy binds as it was accepted, at the reading of a check. -/
structure Bound (p : PolicyState) (c : Sclient) (now : Reading) : Prop where
  intro ::
  binding : ∃ b, p.keys.get? c.key = some b ∧ b.tailnet = c.tailnet ∧ b.grant = c.grant ∧
    now.before b.until_ ∧ now.before b.deadline

def SameButClock (s s' : Server) : Prop :=
  ∃ observed clockBad, s' = { s with observed := observed, clockBad := clockBad }

theorem SameButClock.refl (s : Server) : SameButClock s s := ⟨_, _, rfl⟩

theorem SameButClock.trans {s s' s'' : Server} (h : SameButClock s s') (h' : SameButClock s' s'') :
    SameButClock s s'' := by
  obtain ⟨_, _, rfl⟩ := h
  obtain ⟨_, _, rfl⟩ := h'
  exact ⟨_, _, rfl⟩

theorem SameButClock.policy {s s' : Server} (h : SameButClock s s') : s'.policy = s.policy := by
  obtain ⟨_, _, rfl⟩ := h
  rfl

theorem SameButClock.clients {s s' : Server} (h : SameButClock s s') : s'.clients = s.clients := by
  obtain ⟨_, _, rfl⟩ := h
  rfl

theorem clockValidLocked_same (now : Reading) (s : Server) :
    SameButClock s (clockValidLocked now s).2 := ⟨_, _, rfl⟩

theorem bindingLocked_same (now : Reading) (k : ℕ) (s : Server) :
    SameButClock s (bindingLocked now k s).2 := by
  unfold bindingLocked
  split
  · exact .refl s
  · dsimp only
    split <;> exact clockValidLocked_same now s

theorem bindingLocked_eq_some {now : Reading} {k : ℕ} {s : Server} {p : PolicyState} {b : Binding}
    (hp : s.policy = some p) (h : (bindingLocked now k s).1 = some b) :
    p.keys.get? k = some b ∧ now.before b.until_ ∧ now.before b.deadline := by
  simp only [bindingLocked, hp] at h
  split at h
  · obtain ⟨hb, hlive⟩ := Option.filter_eq_some_iff.mp h
    rw [Binding.live, Bool.and_eq_true] at hlive
    exact ⟨hb, hlive⟩
  · cases h

theorem clientAllowedLocked_same (now : Reading) (c : Sclient) (s : Server) :
    SameButClock s (clientAllowedLocked now c s).2 := by
  unfold clientAllowedLocked
  split
  · exact .refl s
  · exact bindingLocked_same now c.key s

theorem clientAllowedLocked_bound {now : Reading} {c : Sclient} {s : Server} {p : PolicyState}
    (hp : s.policy = some p) (h : (clientAllowedLocked now c s).1 = true) : Bound p c now := by
  simp only [clientAllowedLocked, hp, Option.any_eq_true_iff_get] at h
  obtain ⟨hsome, hb⟩ := h
  obtain ⟨hkey, hlive⟩ := bindingLocked_eq_some hp (Option.eq_some_of_isSome hsome)
  rw [Bool.and_eq_true, decide_eq_true_eq, decide_eq_true_eq] at hb
  exact ⟨_, hkey, hb.1, hb.2, hlive⟩

/-- A loop over connections: those it came to are bound at a reading it took, or cut. -/
structure Reaped (read : ℕ → Reading) (order : List ℕ) (s s' : Server) : Prop where
  frame : ∃ observed clockBad clients,
    s' = { s with observed := observed, clockBad := clockBad, clients := clients }
  clients : ∀ id r', s'.clients.get? id = some r' →
    ∃ r, s.clients.get? id = some r ∧ r'.client = r.client
  kept : ∀ id, id ∉ order → s'.clients.get? id = s.clients.get? id
  bound : ∀ p, s.policy = some p → ∀ id ∈ order, ∀ r', s'.clients.get? id = some r' →
    r'.cancelled = false → Bound p r'.client r'.checked ∧ ∃ i, r'.checked = read i

theorem Reaped.policy {read : ℕ → Reading} {order : List ℕ} {s s' : Server}
    (h : Reaped read order s s') : s'.policy = s.policy := by
  obtain ⟨_, _, _, rfl⟩ := h.frame
  rfl

theorem reapClient_reaped (now : Reading) (id : ℕ) (s : Server) :
    Reaped (fun _ => now) [id] s (reapClient now id s) := by
  unfold reapClient
  cases hr : s.clients.get? id with
  | none =>
    refine ⟨⟨_, _, _, rfl⟩, fun id' r' hr' => ⟨r', hr', rfl⟩, fun _ _ => rfl, ?_⟩
    intro p hp id' hid' r' hr'
    obtain rfl := List.mem_singleton.mp hid'
    simp [hr] at hr'
  | some r =>
    have hsame := clientAllowedLocked_same now r.client s
    dsimp only
    obtain ⟨observed, clockBad, hs⟩ := hsame
    refine ⟨⟨observed, clockBad, _, by rw [hs]⟩, ?_, ?_, ?_⟩
    · intro id' r' hr'
      rw [hs] at hr'
      rcases Table.get?_insert_eq_some.mp hr' with ⟨rfl, rfl⟩ | ⟨-, hr'⟩
      · refine ⟨r, hr, ?_⟩
        split <;> rfl
      · exact ⟨r', hr', rfl⟩
    · intro id' hid'
      rw [hs]
      exact Table.get?_insert_ne _ _ (by simpa using hid')
    · intro p hp id' hid' r' hr' hcut
      obtain rfl := List.mem_singleton.mp hid'
      rw [Table.get?_insert_self, Option.some.injEq] at hr'
      subst hr'
      by_cases hallowed : (clientAllowedLocked now r.client s).1 = true
      · rw [if_pos hallowed] at hcut ⊢
        exact ⟨clientAllowedLocked_bound hp hallowed, 0, rfl⟩
      · rw [if_neg hallowed] at hcut
        cases hcut

theorem reapEach_reaped (read : ℕ → Reading) (order : List ℕ) (s : Server) :
    Reaped read order s (reapEach read order s) := by
  induction order generalizing read s with
  | nil => exact ⟨⟨_, _, _, rfl⟩, fun id r' hr' => ⟨r', hr', rfl⟩, fun _ _ => rfl, by simp⟩
  | cons id order ih =>
    have hfirst := reapClient_reaped (read 0) id s
    have hrest := ih (fun i => read (i + 1)) (reapClient (read 0) id s)
    rw [reapEach]
    refine ⟨?_, fun id' r' hr' => ?_, fun id' hid' => ?_, fun p hp id' hid' r' hr' hcut => ?_⟩
    · obtain ⟨_, _, _, h₁⟩ := hfirst.frame
      obtain ⟨_, _, _, h₂⟩ := hrest.frame
      exact ⟨_, _, _, by rw [h₂, h₁]⟩
    · obtain ⟨r, hr, hc⟩ := hrest.clients id' r' hr'
      obtain ⟨r₀, hr₀, hc₀⟩ := hfirst.clients id' r hr
      exact ⟨r₀, hr₀, hc.trans hc₀⟩
    · rw [List.mem_cons, not_or] at hid'
      rw [hrest.kept id' hid'.2, hfirst.kept id' (by simpa using hid'.1)]
    · by_cases hmem : id' ∈ order
      · obtain ⟨hb, i, hi⟩ := hrest.bound p (hfirst.policy.trans hp) id' hmem r' hr' hcut
        exact ⟨hb, i + 1, hi⟩
      · -- The last look at this connection was the first one of the loop.
        obtain rfl : id' = id := by simpa [hmem] using hid'
        rw [hrest.kept id' hmem] at hr'
        obtain ⟨hb, i, hi⟩ := hfirst.bound p hp id' (by simp) r' hr' hcut
        exact ⟨hb, 0, hi⟩

theorem reapLocked_reaped (now : Reading) (read : ℕ → Reading) (order : List ℕ) (s : Server) :
    Reaped read order s (reapLocked now read order s) := by
  have h := reapEach_reaped read order (clockValidLocked now s).2
  obtain ⟨observed, clockBad, hs⟩ := clockValidLocked_same now s
  rw [hs] at h
  obtain ⟨observed', clockBad', clients, hs'⟩ := h.frame
  refine ⟨⟨observed', clockBad', clients, ?_⟩, ?_, ?_, ?_⟩
  · rw [reapLocked, hs, hs']
  · rw [reapLocked, hs]
    exact h.clients
  · rw [reapLocked, hs]
    exact h.kept
  · rw [reapLocked, hs]
    exact h.bound

theorem statusLocked_same (now : Reading) (s : Server) : SameButClock s (statusLocked now s).2 := by
  unfold statusLocked
  split
  · exact .refl s
  · exact clockValidLocked_same now s

theorem statusLocked_revision {now : Reading} {s : Server} {p : PolicyState}
    (hp : s.policy = some p) : (statusLocked now s).1.revision = p.policy.revision := by
  simp only [statusLocked, hp]

theorem bindKeys_eq_some {W : Wire} {now : Reading} {old : Option PolicyState} {p : Policy} {k : ℕ}
    {b : Binding} (h : (bindKeys W now old p).get? k = some b) :
    ∃ g ∈ p.grants, ∃ key ∈ g.keys, b = bindKey now (old.bind (·.keys.get? k)) g key := by
  let Made (keys : Table ℕ Binding) := keys.get? k = some b →
    ∃ g ∈ p.grants, ∃ key ∈ g.keys, b = bindKey now (old.bind (·.keys.get? k)) g key
  have hmade : Made (bindKeys W now old p) := by
    refine List.foldlRecOn (motive := Made) p.grants _ (fun hnone => by simp at hnone) ?_
    intro keys hkeys g hg
    refine List.foldlRecOn (motive := Made) g.keys _ hkeys ?_
    intro keys hkeys key hkey hget
    rcases Table.get?_insert_eq_some.mp hget with ⟨rfl, rfl⟩ | ⟨-, hget⟩
    · exact ⟨g, hg, key, hkey, rfl⟩
    · exact hkeys hget
  exact hmade h

/-- A policy was put in force: it is newer than the one before, and every connection that is
left was checked against it. -/
structure Installed (W : Wire) (read : ℕ → Reading) (order : List ℕ) (body : Bytes) (p : Policy)
    (s s' : Server) : Prop where
  decoded : W.decodePolicy body p.clusterID p.nodeID = .ok p
  newer : ∀ old, s.policy = some old → old.policy.revision = 0 ∨
    old.policy.clusterID = p.clusterID ∧ old.policy.nodeID = p.nodeID ∧
      old.policy.revision < p.revision
  policy : s'.policy = some ⟨p, W.sha256 body, bindKeys W (read 0) s.policy p⟩
  closed : s'.closed = s.closed
  clients : ∀ id r', s'.clients.get? id = some r' →
    ∃ r, s.clients.get? id = some r ∧ r'.client = r.client
  kept : ∀ id, id ∉ order → s'.clients.get? id = s.clients.get? id
  bound : ∀ q, s'.policy = some q → ∀ id ∈ order, ∀ r', s'.clients.get? id = some r' →
    r'.cancelled = false → Bound q r'.client r'.checked ∧ ∃ i, r'.checked = read i

/-- An application fails, finds its policy in force, or puts it in force. -/
inductive Applied (W : Wire) (read : ℕ → Reading) (order : List ℕ) (body : Bytes) (s s' : Server) :
    Except String AppliedPolicy → Prop
  | refused (e : String) (same : SameButClock s s') : Applied W read order body s s' (.error e)
  | repeated {p : Policy} {old : PolicyState} {status : AppliedPolicy}
      (decoded : W.decodePolicy body p.clusterID p.nodeID = .ok p) (stored : s.policy = some old)
      (identity : old.policy.clusterID = p.clusterID ∧ old.policy.nodeID = p.nodeID)
      (revision : p.revision = old.policy.revision ∧ old.policy.revision ≠ 0)
      (digest : W.sha256 body = old.digest) (same : SameButClock s s')
      (answer : status.revision = p.revision) : Applied W read order body s s' (.ok status)
  | installed {p : Policy} {status : AppliedPolicy} (installed : Installed W read order body p s s')
      (answer : status.revision = p.revision) : Applied W read order body s s' (.ok status)

theorem PolicyState.of_not_refuses {old : PolicyState} {p : Policy} {digest : String}
    (h : old.refuses p digest = false) : old.policy.revision = 0 ∨
      old.policy.clusterID = p.clusterID ∧ old.policy.nodeID = p.nodeID ∧
        old.policy.revision ≤ p.revision ∧
        (p.revision = old.policy.revision → digest = old.digest) := by
  simp only [PolicyState.refuses, Bool.and_eq_false_iff, Bool.or_eq_false_iff, decide_eq_false_iff_not,
    ne_eq, not_not, not_lt] at h
  rcases h with h0 | ⟨⟨⟨hc, hn⟩, hle⟩, hd⟩
  · exact Or.inl h0
  · exact Or.inr ⟨hc, hn, hle, fun he => hd.resolve_left fun hne => hne he⟩

theorem applyLocked_applied {W : Wire} {read : ℕ → Reading} {order : List ℕ} {body : Bytes}
    {p : Policy} (hdecoded : W.decodePolicy body p.clusterID p.nodeID = .ok p) (s : Server) :
    Applied W read order body s (applyLocked W read order p (W.sha256 body) s).2
      (applyLocked W read order p (W.sha256 body) s).1 := by
  unfold applyLocked
  obtain ⟨observed, clockBad, hclock⟩ := clockValidLocked_same (read 0) s
  by_cases hoff : (s.closed || s.clockBad) = true
  · rw [if_pos hoff]
    exact .refused _ (.refl s)
  rw [if_neg hoff]
  dsimp only
  by_cases hvalid : (!(clockValidLocked (read 0) s).1) = true
  · rw [if_pos hvalid]
    exact .refused _ ⟨_, _, hclock⟩
  rw [if_neg hvalid, hclock]
  dsimp only
  by_cases hrefuses : (s.policy.any (·.refuses p (W.sha256 body))) = true
  · rw [if_pos hrefuses]
    exact .refused _ ⟨_, _, rfl⟩
  rw [if_neg hrefuses]
  have hfit : ∀ old, s.policy = some old → old.policy.revision = 0 ∨
      old.policy.clusterID = p.clusterID ∧ old.policy.nodeID = p.nodeID ∧
        old.policy.revision ≤ p.revision ∧
          (p.revision = old.policy.revision → W.sha256 body = old.digest) := by
    intro old hold
    rw [hold, Option.any_some, Bool.not_eq_true] at hrefuses
    exact PolicyState.of_not_refuses hrefuses
  by_cases hrepeats : (s.policy.any (·.repeats p)) = true
  · rw [if_pos hrepeats]
    obtain ⟨old, hold, hrep⟩ : ∃ old, s.policy = some old ∧ old.repeats p = true := by
      cases hp : s.policy with
      | none => simp [hp] at hrepeats
      | some old => exact ⟨old, rfl, by simpa [hp] using hrepeats⟩
    simp only [PolicyState.repeats, Bool.and_eq_true, decide_eq_true_eq] at hrep
    obtain ⟨hc, hn, -, hd⟩ := (hfit old hold).resolve_left hrep.1
    refine .repeated hdecoded hold ⟨hc, hn⟩ ⟨hrep.2, hrep.1⟩ (hd hrep.2) ?_ ?_
    · exact SameButClock.trans ⟨_, _, rfl⟩ (statusLocked_same _ _)
    · have hold₁ : { s with observed := observed, clockBad := clockBad : Server }.policy = some old :=
        hold
      rw [statusLocked_revision hold₁, hrep.2]
  · rw [if_neg hrepeats]
    set s₁ : Server := { s with observed := observed, clockBad := clockBad }
    set s₂ := install W (read 0) p (W.sha256 body) s₁
    have hreaped := reapLocked_reaped (read 0) (fun i => read (i + 1)) order s₂
    have hsame := statusLocked_same (read 0) (reapLocked (read 0) (fun i => read (i + 1)) order s₂)
    have hpolicy : (reapLocked (read 0) (fun i => read (i + 1)) order s₂).policy = s₂.policy :=
      hreaped.policy
    refine .installed (p := p) ⟨hdecoded, fun old hold => ?_, ?_, ?_, ?_, ?_, ?_⟩ ?_
    · rcases hfit old hold with h0 | ⟨hc, hn, hle, -⟩
      · exact Or.inl h0
      · by_cases h0 : old.policy.revision = 0
        · exact Or.inl h0
        · refine Or.inr ⟨hc, hn, lt_of_le_of_ne hle fun he => hrepeats ?_⟩
          simp [hold, PolicyState.repeats, ← he, h0]
    · exact hsame.policy.trans hpolicy
    · obtain ⟨_, _, hs⟩ := hsame
      obtain ⟨_, _, _, hr⟩ := hreaped.frame
      rw [hs, hr]
      rfl
    · rw [hsame.clients]
      exact hreaped.clients
    · rw [hsame.clients]
      exact hreaped.kept
    · intro q hq id hid r' hr' hcut
      rw [hsame.clients] at hr'
      rw [hsame.policy, hpolicy] at hq
      obtain ⟨hb, i, hi⟩ := hreaped.bound q hq id hid r' hr' hcut
      exact ⟨hb, i + 1, hi⟩
    · exact statusLocked_revision hpolicy

theorem applyPolicy_applied (W : Wire) (read : ℕ → Reading) (order : List ℕ) (body : Bytes)
    (s : Server) : Applied W read order body s (applyPolicy W read order body s).2
      (applyPolicy W read order body s).1 := by
  unfold applyPolicy
  split
  · exact .refused _ (.refl s)
  · cases hu : W.unmarshal body with
    | none => exact .refused _ (.refl s)
    | some identity =>
      dsimp only
      cases hd : W.decodePolicy body identity.clusterID identity.nodeID with
      | error e => exact .refused _ (.refl s)
      | ok p =>
        obtain ⟨-, hp, -⟩ := Wire.decodePolicy_eq_ok.mp hd
        obtain rfl : identity = p := Option.some.inj (hu.symm.trans hp)
        exact applyLocked_applied hd s

theorem policyStatus_reaped {read : ℕ → Reading} {order : List ℕ} {s : Server} {p : PolicyState}
    (hp : s.policy = some p) :
    ∃ mid, Reaped (fun i => read (i + 1)) order s mid ∧
      SameButClock mid (policyStatus read order s).2 ∧
      (policyStatus read order s).1.revision = p.policy.revision := by
  have hreaped := reapLocked_reaped (read 0) (fun i => read (i + 1)) order s
  refine ⟨_, hreaped, ?_, ?_⟩
  · simp only [policyStatus, hp]
    exact statusLocked_same _ _
  · simp only [policyStatus, hp]
    exact statusLocked_revision (hreaped.policy.trans hp)

end UniDERP.Relay
