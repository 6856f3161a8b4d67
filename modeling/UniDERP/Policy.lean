import UniDERP.Library.Outcome
import UniDERP.Time

namespace UniDERP

/-- The class a tailnet's traffic is scheduled in; the wire carries any text. -/
inductive Group
  | owner
  | shared
  | other (name : String)
  deriving DecidableEq, Repr

structure DeviceKey where
  nodePublic : String
  notAfter : Stamp
  deriving DecidableEq, Repr

structure GrantPolicy where
  grantID : String
  grantRevision : ℕ
  tailnetID : String
  lastIdentitySuccess : Int
  identityUntil : Int
  controlUntil : Int
  explicitUntil : Int
  keys : List DeviceKey
  deriving DecidableEq, Repr

structure TailnetQoS where
  tailnetID : String
  group : Group
  weight : ℕ
  maxBPS : ℕ
  deriving DecidableEq, Repr

structure QoSPolicy where
  budgetBPS : ℕ
  ownerWeight : ℕ
  sharedWeight : ℕ
  sharedMaxBPS : ℕ
  tailnets : List TailnetQoS
  deriving DecidableEq, Repr

structure Policy where
  clusterID : String
  nodeID : String
  revision : ℕ
  generatedAt : Int
  grants : List GrantPolicy
  qos : QoSPolicy
  deriving DecidableEq, Repr

/-- The earliest of the deadlines that are set; the identity deadline always is. -/
def effectiveUntil (g : GrantPolicy) (k : DeviceKey) : Int :=
  [g.controlUntil, g.explicitUntil, k.notAfter.time].foldl
    (fun until_ d => if d ≠ zeroTime ∧ d < until_ then d else until_) g.identityUntil

/-- `unicode.IsSpace`. -/
def isSpace (c : Char) : Bool :=
  c ∈ ['\t', '\n', '\x0b', '\x0c', '\r', ' ', '\u0085', '\u00a0', '\u1680', '\u2028', '\u2029',
    '\u202f', '\u205f', '\u3000'] || ('\u2000' ≤ c && c ≤ '\u200a')

def trimSpace (s : String) : String :=
  String.ofList ((s.toList.dropWhile isSpace).reverse.dropWhile isSpace).reverse

def validID (id : String) : Bool :=
  id ≠ "" && id.utf8ByteSize ≤ 128 && trimSpace id = id

def validWeight (w : ℕ) : Bool := 0 < w && w ≤ 1024

def validCeiling (bps : ℕ) : Bool := bps = 0 || (8 ≤ bps && bps ≤ maxInt64)

def validRule (t : TailnetQoS) : Bool :=
  validID t.tailnetID && (t.group = .owner || t.group = .shared) && validWeight t.weight &&
    validCeiling t.maxBPS

def checkRules (seen : List String) : List TailnetQoS → Except String Unit
  | [] => .ok ()
  | t :: ts => do
    require (validRule t ∧ t.tailnetID ∉ seen) "invalid tailnet bandwidth rule"
    checkRules (t.tailnetID :: seen) ts

def validateQoS (q : QoSPolicy) : Except String Unit := do
  require (8 ≤ q.budgetBPS ∧ q.budgetBPS ≤ maxInt64 ∧ validCeiling q.sharedMaxBPS ∧
    validWeight q.ownerWeight ∧ validWeight q.sharedWeight) "invalid policy budget or group weight"
  require (q.tailnets.length ≤ 4096) "too many bandwidth rules"
  checkRules [] q.tailnets

section Validate

-- `key.NodePublic.UnmarshalText`: the 32 bytes of a public key; zero is no key.
variable (unmarshalText : String → Option ℕ)

/-- The loop over one grant's keys; returns the keys seen so far in the policy. -/
def checkKeys (seen : List ℕ) : List DeviceKey → Except String (List ℕ)
  | [] => .ok seen
  | k :: ks => do
    let pub ← orElse (unmarshalText k.nodePublic) "invalid or duplicate device public key"
    require (pub ≠ 0 ∧ pub ∉ seen) "invalid or duplicate device public key"
    require (seen.length + 1 ≤ 65536) "too many policy device keys"
    checkKeys (pub :: seen) ks

def validGrant (g : GrantPolicy) : Bool :=
  validID g.grantID && validID g.tailnetID && g.grantRevision ≠ 0

def validDeadlines (g : GrantPolicy) : Bool :=
  g.lastIdentitySuccess ≠ zeroTime && g.identityUntil ≠ zeroTime && g.controlUntil ≠ zeroTime &&
    g.lastIdentitySuccess ≤ g.identityUntil

/-- The loop over the grants, with the tailnets, grants and keys seen so far. -/
def checkGrants (tailnets grants : List String) (keys : List ℕ) :
    List GrantPolicy → Except String (List String)
  | [] => .ok tailnets
  | g :: gs => do
    require (validGrant g ∧ g.tailnetID ∉ tailnets ∧ g.grantID ∉ grants)
      "invalid or duplicate grant identity"
    require (validDeadlines g) "invalid grant identity deadlines"
    let keys ← checkKeys unmarshalText keys g.keys
    checkGrants (g.tailnetID :: tailnets) (g.grantID :: grants) keys gs

def checkCover (tailnets seen : List String) : List TailnetQoS → Except String (List String)
  | [] => .ok seen
  | t :: ts => do
    require (t.tailnetID ∈ tailnets ∧ t.tailnetID ∉ seen) "invalid tailnet bandwidth rule"
    checkCover tailnets (t.tailnetID :: seen) ts

def validatePolicy (p : Policy) (clusterID nodeID : String) : Except String Unit := do
  require (validID p.clusterID ∧ validID p.nodeID ∧ p.clusterID = clusterID ∧ p.nodeID = nodeID ∧
    p.revision ≠ 0 ∧ p.generatedAt ≠ zeroTime) "invalid policy identity or revision"
  validateQoS p.qos
  require (p.grants.length ≤ 4096 ∧ p.qos.tailnets.length ≤ 4096) "too many policy tailnets"
  let tailnets ← checkGrants unmarshalText [] [] [] p.grants
  let seen ← checkCover tailnets [] p.qos.tailnets
  require (seen.length = tailnets.length) "missing tailnet bandwidth rule"

/-- The public keys of a policy in the order in which they are checked. -/
def publics (p : Policy) : List (Option ℕ) :=
  (p.grants.flatMap (·.keys)).map fun k => unmarshalText k.nodePublic

/-- What a valid policy is, without the order in which it is checked. -/
structure WellFormed (p : Policy) (clusterID nodeID : String) : Prop where
  cluster : validID p.clusterID ∧ p.clusterID = clusterID
  node : validID p.nodeID ∧ p.nodeID = nodeID
  revision : p.revision ≠ 0
  generated : p.generatedAt ≠ zeroTime
  budget : 8 ≤ p.qos.budgetBPS ∧ p.qos.budgetBPS ≤ maxInt64
  ceiling : validCeiling p.qos.sharedMaxBPS
  weights : validWeight p.qos.ownerWeight ∧ validWeight p.qos.sharedWeight
  rules : ∀ t ∈ p.qos.tailnets, validRule t
  count : p.grants.length ≤ 4096
  grants : ∀ g ∈ p.grants, validGrant g ∧ validDeadlines g
  tailnets_nodup : (p.grants.map (·.tailnetID)).Nodup
  grants_nodup : (p.grants.map (·.grantID)).Nodup
  keys : ∀ k ∈ publics unmarshalText p, k ≠ none ∧ k ≠ some 0
  keys_nodup : (publics unmarshalText p).Nodup
  keys_count : (publics unmarshalText p).length ≤ 65536
  cover : (p.qos.tailnets.map (·.tailnetID)).Perm (p.grants.map (·.tailnetID))

/-- Identities, ranges, counts, deadlines, keys, and one rule for each tailnet of the grants. -/
structure Regular (p : Policy) (clusterID nodeID : String) : Prop where
  expected : p.clusterID = clusterID ∧ p.nodeID = nodeID
  ids : validID p.clusterID ∧ validID p.nodeID ∧
    ∀ g ∈ p.grants, validID g.grantID ∧ validID g.tailnetID
  revision : p.revision ≠ 0
  generated : p.generatedAt ≠ zeroTime
  budget : 8 ≤ p.qos.budgetBPS ∧ p.qos.budgetBPS ≤ maxInt64
  weights : validWeight p.qos.ownerWeight ∧ validWeight p.qos.sharedWeight ∧
    ∀ t ∈ p.qos.tailnets, validWeight t.weight
  ceilings : validCeiling p.qos.sharedMaxBPS ∧ ∀ t ∈ p.qos.tailnets, validCeiling t.maxBPS
  grants_count : p.grants.length ≤ 4096
  keys_count : (publics unmarshalText p).length ≤ 65536
  grants_distinct : (p.grants.map (·.grantID)).Nodup
  tailnets_distinct : (p.grants.map (·.tailnetID)).Nodup
  deadlines : ∀ g ∈ p.grants, g.lastIdentitySuccess ≠ zeroTime ∧ g.identityUntil ≠ zeroTime ∧
    g.controlUntil ≠ zeroTime ∧ g.lastIdentitySuccess ≤ g.identityUntil
  keys_valid : ∀ k ∈ publics unmarshalText p, k ≠ none ∧ k ≠ some 0
  keys_distinct : (publics unmarshalText p).Nodup
  rules_distinct : (p.qos.tailnets.map (·.tailnetID)).Nodup
  rules_cover : ∀ t, t ∈ p.qos.tailnets.map (·.tailnetID) ↔ t ∈ p.grants.map (·.tailnetID)

end Validate

theorem forall_notMem_cons {α : Type} {f : α → String} {ts : List α} {a : String}
    {seen : List String} :
    (∀ t ∈ ts, f t ∉ a :: seen) ↔ a ∉ ts.map f ∧ ∀ t ∈ ts, f t ∉ seen := by
  simp only [List.mem_cons, not_or, List.mem_map, not_exists, not_and]
  constructor
  · intro h
    exact ⟨fun t ht he => (h t ht).1 he, fun t ht => (h t ht).2⟩
  · rintro ⟨ha, hs⟩ t ht
    exact ⟨ha t ht, hs t ht⟩

theorem checkRules_eq_ok {seen : List String} {ts : List TailnetQoS} {u : Unit} :
    checkRules seen ts = .ok u ↔ (∀ t ∈ ts, validRule t) ∧
      (ts.map (·.tailnetID)).Nodup ∧ ∀ t ∈ ts, t.tailnetID ∉ seen := by
  induction ts generalizing seen with
  | nil => simp [checkRules]
  | cons t ts ih =>
    simp only [checkRules, Except_bind_eq_ok, require_eq_ok, ih, forall_notMem_cons,
      List.map_cons, List.nodup_cons, List.forall_mem_cons, exists_const]
    tauto

theorem checkCover_eq_ok {tailnets seen : List String} {ts : List TailnetQoS} {r : List String} :
    checkCover tailnets seen ts = .ok r ↔ (∀ t ∈ ts, t.tailnetID ∈ tailnets) ∧
      (ts.map (·.tailnetID)).Nodup ∧ (∀ t ∈ ts, t.tailnetID ∉ seen) ∧
      r = (ts.map (·.tailnetID)).reverse ++ seen := by
  induction ts generalizing seen with
  | nil => simp [checkCover, eq_comm]
  | cons t ts ih =>
    simp only [checkCover, Except_bind_eq_ok, require_eq_ok, ih, forall_notMem_cons,
      List.map_cons, List.nodup_cons, List.forall_mem_cons, exists_const, List.reverse_cons,
      List.append_assoc, List.singleton_append]
    tauto

section Keys

variable {unmarshalText : String → Option ℕ}

/-- The keys that a list of public keys adds to those seen, if it is accepted. -/
structure FreshKeys (seen : List ℕ) (publics : List (Option ℕ)) (seen' : List ℕ) : Prop where
  nonzero : ∀ k ∈ publics, k ≠ none ∧ k ≠ some 0
  nodup : publics.Nodup
  fresh : ∀ k ∈ seen, some k ∉ publics
  seen : seen'.map some = publics.reverse ++ seen.map some
  count : publics ≠ [] → seen'.length ≤ 65536

theorem checkKeys_eq_ok {seen seen' : List ℕ} {ks : List DeviceKey} :
    checkKeys unmarshalText seen ks = .ok seen' ↔
      FreshKeys seen (ks.map fun k => unmarshalText k.nodePublic) seen' := by
  induction ks generalizing seen with
  | nil =>
    simp only [checkKeys, Except.ok.injEq, List.map_nil]
    constructor
    · rintro rfl
      exact ⟨by simp, by simp, by simp, by simp, by simp⟩
    · intro h
      exact (List.map_injective_iff.mpr (Option.some_injective ℕ) (by simpa using h.seen)).symm
  | cons k ks ih =>
    simp only [checkKeys, Except_bind_eq_ok, orElse_eq_ok, require_eq_ok, ih, List.map_cons]
    constructor
    · rintro ⟨pub, hpub, _, ⟨h0, hs⟩, _, hlen, hf⟩
      refine ⟨?_, ?_, ?_, ?_, ?_⟩
      · rw [hpub, List.forall_mem_cons]
        exact ⟨by simpa using h0, hf.nonzero⟩
      · rw [hpub, List.nodup_cons]
        exact ⟨hf.fresh pub (by simp), hf.nodup⟩
      · intro x hx
        rw [hpub, List.mem_cons, not_or]
        exact ⟨fun he => hs (Option.some.inj he ▸ hx), hf.fresh x (by simp [hx])⟩
      · rw [hf.seen, hpub]
        simp
      · intro _
        by_cases hks : ks = []
        · have := congrArg List.length hf.seen
          simp only [hks, List.map_nil, List.reverse_nil, List.nil_append, List.length_map,
            List.length_cons] at this
          omega
        · exact hf.count (by simpa using hks)
    · intro h
      obtain ⟨pub, hpub⟩ := Option.ne_none_iff_exists'.mp
        (h.nonzero (unmarshalText k.nodePublic) (by simp)).1
      have hnd := h.nodup
      rw [hpub, List.nodup_cons] at hnd
      have hlen := congrArg List.length h.seen
      have hcount := h.count (by simp)
      simp only [List.reverse_cons, List.length_append, List.length_reverse, List.length_map,
        List.length_singleton] at hlen
      refine ⟨pub, hpub, (), ⟨?_, ?_⟩, (), by omega, ?_, ?_, ?_, ?_, ?_⟩
      · rintro rfl
        exact (h.nonzero (unmarshalText k.nodePublic) (by simp)).2 hpub
      · intro hs
        exact h.fresh pub hs (by simp [hpub])
      · exact fun x hx => h.nonzero x (by simp [hx])
      · exact hnd.2
      · intro x hx
        rcases List.mem_cons.mp hx with rfl | hx
        · exact hnd.1
        · exact fun hm => h.fresh x hx (by simp [hm])
      · rw [h.seen, hpub]
        simp
      · exact fun _ => hcount

theorem FreshKeys.append {seen mid seen' : List ℕ} {xs ys : List (Option ℕ)}
    (hx : FreshKeys seen xs mid) (hy : FreshKeys mid ys seen') :
    FreshKeys seen (xs ++ ys) seen' where
  nonzero := List.forall_mem_append.mpr ⟨hx.nonzero, hy.nonzero⟩
  nodup := by
    refine List.nodup_append.mpr ⟨hx.nodup, hy.nodup, ?_⟩
    rintro a ha _ hb rfl
    have hm : a ∈ mid.map some := by
      rw [hx.seen]
      exact List.mem_append_left _ (List.mem_reverse.mpr ha)
    obtain ⟨k, hk, rfl⟩ := List.mem_map.mp hm
    exact hy.fresh k hk hb
  fresh := by
    intro k hk hm
    have hmid : k ∈ mid := by
      have h : some k ∈ mid.map some := by rw [hx.seen]; simp [hk]
      simpa using h
    rcases List.mem_append.mp hm with h | h
    · exact hx.fresh k hk h
    · exact hy.fresh k hmid h
  seen := by rw [hy.seen, hx.seen]; simp
  count := by
    intro hne
    by_cases hys : ys = []
    · subst hys
      have hlen : seen'.length = mid.length := by simpa using congrArg List.length hy.seen
      exact hlen ▸ hx.count (by simpa using hne)
    · exact hy.count hys

theorem FreshKeys.of_append {seen seen' : List ℕ} {xs ys : List (Option ℕ)}
    (h : FreshKeys seen (xs ++ ys) seen') :
    ∃ mid, FreshKeys seen xs mid ∧ FreshKeys mid ys seen' := by
  -- The keys of `xs` are all set, so they can be pushed on `seen` as they are.
  obtain ⟨ks, rfl⟩ : ∃ ks : List ℕ, xs = ks.map some := by
    refine ⟨xs.filterMap id, ?_⟩
    have hsome : ∀ x ∈ xs, x.isSome := fun x hx =>
      Option.isSome_iff_ne_none.mpr (h.nonzero x (List.mem_append_left _ hx)).1
    clear h
    induction xs with
    | nil => rfl
    | cons x xs ih =>
      obtain ⟨k, rfl⟩ := Option.isSome_iff_exists.mp (hsome x (by simp))
      simpa using ih fun x hx => hsome x (List.mem_cons_of_mem _ hx)
  have hnd := List.nodup_append.mp h.nodup
  have hlen := congrArg List.length h.seen
  simp only [List.reverse_append, List.length_append, List.length_reverse, List.length_map] at hlen
  refine ⟨ks.reverse ++ seen, ⟨?_, hnd.1, ?_, by simp, ?_⟩, ⟨?_, hnd.2.1, ?_, ?_, ?_⟩⟩
  · exact fun k hk => h.nonzero k (List.mem_append_left _ hk)
  · exact fun k hk hm => h.fresh k hk (List.mem_append_left _ hm)
  · intro hne
    have := h.count (by simp_all)
    simp only [List.length_append, List.length_reverse]
    omega
  · exact fun k hk => h.nonzero k (List.mem_append_right _ hk)
  · intro k hk hm
    rcases List.mem_append.mp hk with hk | hk
    · exact hnd.2.2 (some k) (by simpa using hk) (some k) hm rfl
    · exact h.fresh k hk (List.mem_append_right _ hm)
  · rw [h.seen]
    simp
  · intro hne
    exact h.count (by simp [hne])

theorem checkGrants_eq_ok {tailnets grants r : List String} {seen : List ℕ}
    {gs : List GrantPolicy} :
    checkGrants unmarshalText tailnets grants seen gs = .ok r ↔
      (∀ g ∈ gs, validGrant g ∧ validDeadlines g) ∧
      ((gs.map (·.tailnetID)).Nodup ∧ ∀ g ∈ gs, g.tailnetID ∉ tailnets) ∧
      ((gs.map (·.grantID)).Nodup ∧ ∀ g ∈ gs, g.grantID ∉ grants) ∧
      r = (gs.map (·.tailnetID)).reverse ++ tailnets ∧
      ∃ seen', FreshKeys seen
        ((gs.flatMap (·.keys)).map fun k => unmarshalText k.nodePublic) seen' := by
  induction gs generalizing tailnets grants seen with
  | nil =>
    simp only [checkGrants, Except.ok.injEq]
    exact ⟨by rintro rfl; exact ⟨by simp, by simp, by simp, by simp, seen, by simp, by simp,
      by simp, by simp, by simp⟩, by simp +contextual⟩
  | cons g gs ih =>
    simp only [checkGrants, Except_bind_eq_ok, require_eq_ok, ih, forall_notMem_cons,
      List.map_cons, List.nodup_cons, List.forall_mem_cons, exists_const, checkKeys_eq_ok,
      List.flatMap_cons, List.map_append, List.reverse_cons, List.append_assoc,
      List.singleton_append]
    constructor
    · rintro ⟨⟨hg, ht, hi⟩, hd, mid, hk, hgs, ⟨htnd, hts, htd⟩, ⟨hind, his, hid⟩, hr, seen', hks⟩
      exact ⟨⟨⟨hg, hd⟩, hgs⟩, ⟨⟨hts, htnd⟩, ht, htd⟩, ⟨⟨his, hind⟩, hi, hid⟩, hr, seen',
        hk.append hks⟩
    · rintro ⟨⟨⟨hg, hd⟩, hgs⟩, ⟨⟨hts, htnd⟩, ht, htd⟩, ⟨⟨his, hind⟩, hi, hid⟩, hr, seen', hks⟩
      obtain ⟨mid, hk, hks⟩ := hks.of_append
      exact ⟨⟨hg, ht, hi⟩, hd, mid, hk, hgs, ⟨htnd, hts, htd⟩, ⟨hind, his, hid⟩, hr, seen', hks⟩

theorem freshKeys_nil {publics : List (Option ℕ)} :
    (∃ seen', FreshKeys [] publics seen') ↔
      (∀ k ∈ publics, k ≠ none ∧ k ≠ some 0) ∧ publics.Nodup ∧ publics.length ≤ 65536 := by
  constructor
  · rintro ⟨seen', h⟩
    refine ⟨h.nonzero, h.nodup, ?_⟩
    have hlen := congrArg List.length h.seen
    simp only [List.map_nil, List.append_nil, List.length_map, List.length_reverse] at hlen
    by_cases hne : publics = []
    · simp [hne]
    · exact hlen ▸ h.count hne
  · rintro ⟨h0, hnd, hlen⟩
    have hmap : (publics.filterMap id).map some = publics := by
      clear hnd hlen
      induction publics with
      | nil => rfl
      | cons k ks ih =>
        obtain ⟨k, rfl⟩ := Option.ne_none_iff_exists'.mp (h0 k (by simp)).1
        simpa using ih fun x hx => h0 x (List.mem_cons_of_mem _ hx)
    refine ⟨(publics.filterMap id).reverse, h0, hnd, by simp, ?_, fun _ => ?_⟩
    · rw [List.map_reverse, hmap]
      simp
    · rw [List.length_reverse, ← List.length_map (f := some), hmap]
      exact hlen

theorem perm_iff_subset_length {xs ys : List String} (hx : xs.Nodup) :
    xs.Perm ys ↔ xs ⊆ ys ∧ xs.length = ys.length := by
  constructor
  · exact fun h => ⟨h.subset, h.length_eq⟩
  · rintro ⟨hs, hl⟩
    exact (hx.subperm hs).perm_of_length_le hl.ge

@[simp] theorem validatePolicy_eq_ok {p : Policy} {clusterID nodeID : String} {u : Unit} :
    validatePolicy unmarshalText p clusterID nodeID = .ok u ↔
      WellFormed unmarshalText p clusterID nodeID := by
  simp only [validatePolicy, validateQoS, Except_bind_eq_ok, require_eq_ok, exists_const,
    checkRules_eq_ok, checkGrants_eq_ok, checkCover_eq_ok, freshKeys_nil, List.not_mem_nil,
    not_false_eq_true, implies_true, and_true, true_and, List.append_nil]
  constructor
  · rintro ⟨⟨hc, hn, hce, hne, hr, hg⟩, ⟨⟨hb, hb', hm, ho, hs⟩, hl, hrs, hrnd⟩, ⟨hgl, -⟩,
      tailnets, ⟨hgs, htnd, hind, rfl, hk, hknd, hkl⟩, _, ⟨hsub, -, rfl⟩, hlen⟩
    refine ⟨⟨hc, hce⟩, ⟨hn, hne⟩, hr, hg, ⟨hb, hb'⟩, hm, ⟨ho, hs⟩, hrs, hgl, hgs, htnd, hind, hk,
      hknd, hkl, ?_⟩
    rw [perm_iff_subset_length hrnd]
    refine ⟨fun t ht => ?_, by simpa using hlen⟩
    obtain ⟨q, hq, rfl⟩ := List.mem_map.mp ht
    simpa using hsub q hq
  · intro h
    have hrnd := h.cover.nodup_iff.mpr h.tailnets_nodup
    have hlen := h.cover.length_eq
    rw [List.length_map, List.length_map] at hlen
    refine ⟨⟨h.cluster.1, h.node.1, h.cluster.2, h.node.2, h.revision, h.generated⟩,
      ⟨⟨h.budget.1, h.budget.2, h.ceiling, h.weights.1, h.weights.2⟩, hlen ▸ h.count, h.rules,
        hrnd⟩, ⟨h.count, hlen ▸ h.count⟩, _,
      ⟨h.grants, h.tailnets_nodup, h.grants_nodup, rfl, h.keys, h.keys_nodup, h.keys_count⟩, _,
      ⟨fun t ht => ?_, hrnd, rfl⟩, by simpa using hlen⟩
    exact List.mem_reverse.mpr (h.cover.subset (List.mem_map_of_mem ht))

theorem WellFormed.validateQoS {p : Policy} {clusterID nodeID : String}
    (h : WellFormed unmarshalText p clusterID nodeID) : validateQoS p.qos = .ok () := by
  have hvalid : validatePolicy unmarshalText p clusterID nodeID = .ok () := by simpa using h
  rw [validatePolicy, Except_bind_eq_ok] at hvalid
  obtain ⟨_, -, hvalid⟩ := hvalid
  rw [Except_bind_eq_ok] at hvalid
  obtain ⟨_, hqos, -⟩ := hvalid
  exact hqos

theorem WellFormed.narrow {p q : Policy} {clusterID nodeID : String}
    (h : WellFormed unmarshalText p clusterID nodeID) (hcluster : q.clusterID = p.clusterID)
    (hnode : q.nodeID = p.nodeID) (hrevision : q.revision ≠ 0) (hgenerated : q.generatedAt ≠ zeroTime)
    (hgrants : q.grants.Sublist p.grants)
    (hqos : q.qos = { p.qos with tailnets := q.qos.tailnets })
    (htailnets : q.qos.tailnets.Sublist p.qos.tailnets)
    (hcover : q.qos.tailnets.map (·.tailnetID) = q.grants.map (·.tailnetID)) :
    WellFormed unmarshalText q clusterID nodeID := by
  have hpublics : (publics unmarshalText q).Sublist (publics unmarshalText p) :=
    (hgrants.flatMap (·.keys)).map _
  refine ⟨by rw [hcluster]; exact h.cluster, by rw [hnode]; exact h.node, hrevision, hgenerated,
    by rw [hqos]; exact h.budget, by rw [hqos]; exact h.ceiling, by rw [hqos]; exact h.weights,
    fun t ht => h.rules t (htailnets.subset ht), hgrants.length_le.trans h.count,
    fun g hg => h.grants g (hgrants.subset hg), h.tailnets_nodup.sublist (hgrants.map _),
    h.grants_nodup.sublist (hgrants.map _), fun k hk => h.keys k (hpublics.subset hk),
    h.keys_nodup.sublist hpublics, hpublics.length_le.trans h.keys_count, ?_⟩
  rw [hcover]

theorem validDeadlines_iff {g : GrantPolicy} : validDeadlines g ↔
    g.lastIdentitySuccess ≠ zeroTime ∧ g.identityUntil ≠ zeroTime ∧ g.controlUntil ≠ zeroTime ∧
      g.lastIdentitySuccess ≤ g.identityUntil := by
  simp [validDeadlines, and_assoc]

theorem WellFormed.regular {p : Policy} {clusterID nodeID : String}
    (h : WellFormed unmarshalText p clusterID nodeID) :
    Regular unmarshalText p clusterID nodeID where
  expected := ⟨h.cluster.2, h.node.2⟩
  ids := by
    refine ⟨h.cluster.1, h.node.1, fun g hg => ?_⟩
    have hgrant := (h.grants g hg).1
    simp only [validGrant, Bool.and_eq_true] at hgrant
    exact hgrant.1
  revision := h.revision
  generated := h.generated
  budget := h.budget
  weights := by
    refine ⟨h.weights.1, h.weights.2, fun t ht => ?_⟩
    have hrule := h.rules t ht
    simp only [validRule, Bool.and_eq_true] at hrule
    exact hrule.1.2
  ceilings := by
    refine ⟨h.ceiling, fun t ht => ?_⟩
    have hrule := h.rules t ht
    simp only [validRule, Bool.and_eq_true] at hrule
    exact hrule.2
  grants_count := h.count
  keys_count := h.keys_count
  grants_distinct := h.grants_nodup
  tailnets_distinct := h.tailnets_nodup
  deadlines := fun g hg => validDeadlines_iff.mp (h.grants g hg).2
  keys_valid := h.keys
  keys_distinct := h.keys_nodup
  rules_distinct := h.cover.nodup_iff.mpr h.tailnets_nodup
  rules_cover := fun _ => h.cover.mem_iff

/-- The ids of the rules are those of grants, so they need no check of their own. -/
theorem Regular.wellFormed {p : Policy} {clusterID nodeID : String}
    (h : Regular unmarshalText p clusterID nodeID)
    (hgroups : ∀ t ∈ p.qos.tailnets, t.group = .owner ∨ t.group = .shared)
    (hrevisions : ∀ g ∈ p.grants, g.grantRevision ≠ 0) :
    WellFormed unmarshalText p clusterID nodeID where
  cluster := ⟨h.ids.1, h.expected.1⟩
  node := ⟨h.ids.2.1, h.expected.2⟩
  revision := h.revision
  generated := h.generated
  budget := h.budget
  ceiling := h.ceilings.1
  weights := ⟨h.weights.1, h.weights.2.1⟩
  rules := by
    intro t ht
    obtain ⟨g, hg, he⟩ := List.mem_map.mp ((h.rules_cover _).mp (List.mem_map_of_mem ht))
    have hid : validID t.tailnetID := he ▸ (h.ids.2.2 g hg).2
    have hgroup : t.group = .owner ∨ t.group = .shared := hgroups t ht
    simp [validRule, hid, hgroup, h.weights.2.2 t ht, h.ceilings.2 t ht]
  count := h.grants_count
  grants := by
    intro g hg
    refine ⟨?_, validDeadlines_iff.mpr (h.deadlines g hg)⟩
    simp [validGrant, h.ids.2.2 g hg, hrevisions g hg]
  tailnets_nodup := h.tailnets_distinct
  grants_nodup := h.grants_distinct
  keys := h.keys_valid
  keys_nodup := h.keys_distinct
  keys_count := h.keys_count
  cover := (List.perm_ext_iff_of_nodup h.rules_distinct h.tailnets_distinct).mpr h.rules_cover

/-- What is accepted: a regular policy with known groups and numbered grants. -/
theorem validatePolicy_accepts_iff (unmarshalText : String → Option ℕ) (p : Policy)
    (clusterID nodeID : String) :
    validatePolicy unmarshalText p clusterID nodeID = .ok () ↔
      Regular unmarshalText p clusterID nodeID ∧
      (∀ t ∈ p.qos.tailnets, t.group = .owner ∨ t.group = .shared) ∧
      ∀ g ∈ p.grants, g.grantRevision ≠ 0 := by
  rw [validatePolicy_eq_ok]
  constructor
  · intro h
    refine ⟨h.regular, fun t ht => ?_, fun g hg => ?_⟩
    · have hrule := h.rules t ht
      simp only [validRule, Bool.and_eq_true, Bool.or_eq_true, decide_eq_true_eq] at hrule
      exact hrule.1.1.2
    · have hgrant := (h.grants g hg).1
      simp only [validGrant, Bool.and_eq_true, decide_eq_true_eq] at hgrant
      exact hgrant.2
  · intro h
    exact h.1.wellFormed h.2.1 h.2.2

end Keys

def strayPolicy : Policy where
  clusterID := "cluster"
  nodeID := "node"
  revision := 1
  generatedAt := ofUnix 1000
  grants := [⟨"grant", 1, "tailnet", ofUnix 1000, ofUnix 2000, ofUnix 2000, zeroTime, []⟩]
  qos := ⟨1000, 1, 1, 0, [⟨"tailnet", .other "guests", 1, 0⟩]⟩

/-- The conditions do not say which groups a rule may name; the check does. -/
theorem stray_group_refused :
    Regular (fun _ => none) strayPolicy "cluster" "node" ∧
      validatePolicy (fun _ => none) strayPolicy "cluster" "node" =
        .error "invalid tailnet bandwidth rule" := by
  constructor
  · exact {
      expected := by decide +kernel
      ids := by decide +kernel
      revision := by decide +kernel
      generated := by decide +kernel
      budget := by decide +kernel
      weights := by decide +kernel
      ceilings := by decide +kernel
      grants_count := by decide +kernel
      keys_count := by decide +kernel
      grants_distinct := by decide +kernel
      tailnets_distinct := by decide +kernel
      deadlines := by decide +kernel
      keys_valid := by decide +kernel
      keys_distinct := by decide +kernel
      rules_distinct := by decide +kernel
      rules_cover := by intro t; simp [strayPolicy] }
  · decide +kernel

end UniDERP
