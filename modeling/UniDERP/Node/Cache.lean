import UniDERP.Library.Run
import UniDERP.Wire

namespace UniDERP.Node

structure CacheWatermark where
  clusterID : String
  nodeID : String
  revision : ℕ
  digest : String
  observedAt : Stamp
  deriving DecidableEq, Repr

structure Disk where
  watermark : Option CacheWatermark := none
  policy : Option Bytes := none
  deriving DecidableEq

/-- The length of the watermark's text; the digest has 64 hexadecimal digits. -/
def markSize (m : CacheWatermark) : ℕ :=
  objectSize [("cluster_id", stringSize m.clusterID), ("node_id", stringSize m.nodeID),
    ("revision", numberSize m.revision), ("digest", 66), ("observed_at", timeSize m.observedAt)]

/-- `readCacheWatermark`; there is no result if the file does not exist. -/
def readCacheWatermark (d : Disk) : Option (Except String CacheWatermark) :=
  d.watermark.map fun m => do
    require (markSize m ≤ 4096 ∧ m.clusterID ≠ "" ∧ m.nodeID ≠ "" ∧ m.revision ≠ 0 ∧
      m.observedAt.time ≠ zeroTime) "invalid cache watermark"
    pure m

/-- `now.Before(m.ObservedAt.Add(-5 * time.Second))`. -/
def CacheWatermark.ahead (m : CacheWatermark) (now : Stamp) : Bool :=
  decide (now.time < m.observedAt.time - 5 * second)

def CacheWatermark.observe (m : CacheWatermark) (now : Stamp) : CacheWatermark :=
  if m.observedAt.time < now.time then { m with observedAt := now } else m

/-- The watermark that `saveCacheAt` starts from. -/
def startMark (p : Policy) (now : Stamp) (d : Disk) : Except String CacheWatermark :=
  match readCacheWatermark d with
  | some m => m
  | none => do
    require d.policy.isNone "cache watermark missing"
    pure { clusterID := p.clusterID, nodeID := p.nodeID, revision := 0, digest := "",
           observedAt := now }

section Calls

variable (W : Wire)

/-- `saveCacheAt` up to its writes: the watermark and the policy that it writes, in this order. -/
def saveCacheAt (p : Policy) (now : Stamp) (d : Disk) : Except String (CacheWatermark × Bytes) := do
  require (now.time ≠ zeroTime) "invalid cache location or clock"
  validatePolicy W.unmarshalText p p.clusterID p.nodeID
  let b := W.marshal p
  require (marshals p ∧ b.length ≤ maxPolicyBytes) "invalid cache policy"
  let digest := W.sha256 b
  let m ← startMark p now d
  require (m.clusterID = p.clusterID ∧ m.nodeID = p.nodeID ∧ m.revision ≤ p.revision ∧
    (p.revision = m.revision → digest = m.digest)) "cache identity or revision conflict"
  require (m.ahead now = false) "node clock moved backwards"
  let m := { m.observe now with revision := p.revision, digest := digest }
  require (validTime m.observedAt) "marshal watermark"
  pure (m, b)

/-- `LoadCache` up to its write: the policy, and the watermark if it is rewritten. -/
def loadCache (clusterID nodeID : String) (now : Stamp) (d : Disk) :
    Except String (Policy × Option CacheWatermark) := do
  require (now.time ≠ zeroTime) "invalid cache clock"
  let m ← (readCacheWatermark d).getD (.error "file does not exist")
  require (m.clusterID = clusterID ∧ m.nodeID = nodeID ∧ m.ahead now = false)
    "cache binding or clock conflict"
  let b ← orElse d.policy "file does not exist"
  require (b.length ≤ maxPolicyBytes ∧ W.sha256 b = m.digest)
    "cache snapshot does not match watermark"
  let p ← W.decodePolicy b clusterID nodeID
  require (p.revision = m.revision) "invalid cached policy"
  if m.observedAt.time < now.time then
    require (validTime now) "marshal watermark"
    pure (p, some (m.observe now))
  else pure (p, none)

end Calls

inductive Call
  | save (p : Policy) (now : Stamp)
  | load (clusterID nodeID : String) (now : Stamp)

def Call.reading : Call → Stamp
  | .save _ now => now
  | .load _ _ now => now

inductive Outcome
  | failed
  | saved
  | loaded (p : Policy)

/-- The disk after the first `n` of the replacements of a save. -/
def Disk.replace (d : Disk) (m : CacheWatermark) (b : Bytes) : ℕ → Disk
  | 0 => d
  | 1 => { d with watermark := some m }
  | _ => { watermark := some m, policy := some b }

def Disk.rewrite (d : Disk) (m : Option CacheWatermark) : Disk :=
  match m with
  | none => d
  | some m => { d with watermark := some m }

/-- One call.  A call that is `cut` fails, or its process ends, after so many replacements; a
replacement itself is a rename, which happens or does not. -/
def perform (W : Wire) (c : Call) (cut : Option ℕ) (d : Disk) : Disk × Outcome :=
  match c with
  | .save p now =>
    match saveCacheAt W p now d, cut with
    | .error _, _ => (d, .failed)
    | .ok (m, b), none => (d.replace m b 2, .saved)
    | .ok (m, b), some n => (d.replace m b n, .failed)
  | .load clusterID nodeID now =>
    match loadCache W clusterID nodeID now d, cut with
    | .error _, _ => (d, .failed)
    | .ok (p, m), none => (d.rewrite m, .loaded p)
    | .ok _, some 0 => (d, .failed)
    | .ok (_, m), some _ => (d.rewrite m, .failed)

abbrev Cache.Run (W : Wire) :=
  UniDERP.Run (fun d : Disk => d = {})
    fun d (a : Call × Option ℕ) d' => d' = (perform W a.1 a.2 d).1

/-- How the call at the step `i` ends. -/
def Cache.Run.outcome {W : Wire} (r : Cache.Run W) (i : ℕ) : Outcome :=
  (perform W (r.label i).1 (r.label i).2 (r.state i)).2

/-- The call writes a watermark for the policy `p`, whether it succeeds or not. -/
def Records (W : Wire) (c : Call) (cut : Option ℕ) (d : Disk) (p : Policy) : Prop :=
  ∃ now m b, c = .save p now ∧ saveCacheAt W p now d = .ok (m, b) ∧ cut ≠ some 0

/-- The watermark names the policy `p` by its revision and its digest. -/
structure Marks (W : Wire) (m : CacheWatermark) (p : Policy) : Prop where
  marshals : marshals p
  clusterID : m.clusterID = p.clusterID
  nodeID : m.nodeID = p.nodeID
  revision : m.revision = p.revision
  digest : m.digest = W.sha256 (W.marshal p)

/-- A later watermark of the same cache: the revision and the time do not fall, and a revision
keeps its digest. -/
structure Advances (m m' : CacheWatermark) : Prop where
  clusterID : m.clusterID = m'.clusterID
  nodeID : m.nodeID = m'.nodeID
  revision : m.revision ≤ m'.revision
  digest : m.revision = m'.revision → m.digest = m'.digest
  time : m.observedAt.time ≤ m'.observedAt.time

theorem Advances.refl (m : CacheWatermark) : Advances m m := ⟨rfl, rfl, le_rfl, fun _ => rfl, le_rfl⟩

theorem Advances.trans {a b c : CacheWatermark} (h : Advances a b) (h' : Advances b c) :
    Advances a c := by
  refine ⟨h.clusterID.trans h'.clusterID, h.nodeID.trans h'.nodeID, h.revision.trans h'.revision,
    fun he => ?_, h.time.trans h'.time⟩
  have hab := h.revision
  have hbc := h'.revision
  rw [h.digest (by omega), h'.digest (by omega)]

theorem Marks.unique {W : Wire} {m m' : CacheWatermark} {p q : Policy} (hp : Marks W m p)
    (hq : Marks W m' q) (h : m.digest = m'.digest) : p = q := by
  rw [hp.digest, hq.digest] at h
  exact Wire.marshal_inj hp.marshals hq.marshals (W.sha256_injective h)

theorem Marks.decode {W : Wire} {m : CacheWatermark} {p q : Policy} {b : Bytes}
    {clusterID nodeID : String} (h : Marks W m p) (hb : W.sha256 b = m.digest)
    (hq : W.decodePolicy b clusterID nodeID = .ok q) : q = p := by
  rw [h.digest] at hb
  have hunmarshal := (Wire.decodePolicy_eq_ok.mp hq).2.1
  rw [W.sha256_injective hb, W.unmarshal_marshal p h.marshals] at hunmarshal
  exact (Option.some.inj hunmarshal).symm

theorem observe_advances (m : CacheWatermark) (now : Stamp) : Advances m (m.observe now) := by
  unfold CacheWatermark.observe
  split_ifs with h
  · exact ⟨rfl, rfl, le_rfl, fun _ => rfl, h.le⟩
  · exact .refl m

theorem observe_reading (m : CacheWatermark) (now : Stamp) :
    now.time ≤ (m.observe now).observedAt.time := by
  unfold CacheWatermark.observe
  split_ifs with h
  · exact le_rfl
  · exact not_lt.mp h

theorem readCacheWatermark_eq_ok {d : Disk} {m : CacheWatermark}
    (h : readCacheWatermark d = some (.ok m)) : d.watermark = some m := by
  simp only [readCacheWatermark, Option.map_eq_some_iff, Except_bind_eq_ok, require_eq_ok,
    exists_const, Except_pure_eq_ok] at h
  obtain ⟨m', hm', -, rfl⟩ := h
  exact hm'

structure Saves (W : Wire) (p : Policy) (now : Stamp) (d : Disk) (m : CacheWatermark) (b : Bytes) :
    Prop where
  wellFormed : WellFormed W.unmarshalText p p.clusterID p.nodeID
  size : (W.marshal p).length ≤ maxPolicyBytes
  body : b = W.marshal p
  marks : Marks W m p
  reading : now.time ≤ m.observedAt.time
  advances : ∀ m₀, d.watermark = some m₀ →
    Advances m₀ m ∧ m₀.observedAt.time - 5 * second ≤ now.time

theorem saveCacheAt_saves {W : Wire} {p : Policy} {now : Stamp} {d : Disk} {m : CacheWatermark}
    {b : Bytes} (h : saveCacheAt W p now d = .ok (m, b)) : Saves W p now d m b := by
  simp only [saveCacheAt, Except_bind_eq_ok, require_eq_ok, exists_const, validatePolicy_eq_ok,
    Except_pure_eq_ok, Prod.mk.injEq] at h
  obtain ⟨-, hwell, ⟨hmarshals, hsize⟩, m₀, hm₀, ⟨hcluster, hnode, hrevision, hdigest⟩, hahead, -,
    rfl, rfl⟩ := h
  have hobserve := observe_advances m₀ now
  refine ⟨hwell, hsize, rfl, ⟨hmarshals, ?_, ?_, rfl, rfl⟩, observe_reading m₀ now, fun m₁ hm₁ => ?_⟩
  · exact hobserve.clusterID.symm.trans hcluster
  · exact hobserve.nodeID.symm.trans hnode
  -- A watermark that is there is the one that the save starts from.
  have hstart : m₀ = m₁ := by
    unfold startMark at hm₀
    split at hm₀
    · rename_i hread
      have hfound := readCacheWatermark_eq_ok (hm₀ ▸ hread)
      rw [hm₁] at hfound
      exact (Option.some.inj hfound).symm
    · rename_i hread
      simp [readCacheWatermark, hm₁] at hread
  subst hstart
  refine ⟨⟨hobserve.clusterID, hobserve.nodeID, hrevision, fun he => (hdigest he.symm).symm,
    hobserve.time⟩, ?_⟩
  simpa [CacheWatermark.ahead] using hahead

structure Loads (W : Wire) (clusterID nodeID : String) (now : Stamp) (d : Disk) (p : Policy)
    (m : Option CacheWatermark) : Prop where
  intro ::
  found : ∃ m₀ b, d.watermark = some m₀ ∧ d.policy = some b ∧ m₀.clusterID = clusterID ∧
    m₀.nodeID = nodeID ∧ m₀.observedAt.time - 5 * second ≤ now.time ∧ W.sha256 b = m₀.digest ∧
    W.decodePolicy b clusterID nodeID = .ok p ∧ p.revision = m₀.revision ∧
    (d.rewrite m).watermark = some (m₀.observe now)

theorem loadCache_loads {W : Wire} {clusterID nodeID : String} {now : Stamp} {d : Disk} {p : Policy}
    {m : Option CacheWatermark} (h : loadCache W clusterID nodeID now d = .ok (p, m)) :
    Loads W clusterID nodeID now d p m := by
  simp only [loadCache, Except_bind_eq_ok, require_eq_ok, exists_const, orElse_eq_ok] at h
  obtain ⟨-, m₀, hread, ⟨hcluster, hnode, hahead⟩, b, hb, ⟨-, hdigest⟩, q, hq, hrevision, h⟩ := h
  have hm₀ : d.watermark = some m₀ := by
    cases hr : readCacheWatermark d with
    | none => simp [hr] at hread
    | some x =>
      rw [hr, Option.getD_some] at hread
      exact readCacheWatermark_eq_ok (hread ▸ hr)
  have hresult : p = q ∧ (d.rewrite m).watermark = some (m₀.observe now) := by
    unfold CacheWatermark.observe
    split_ifs at h ⊢ with hlater
    · simp only [Except_bind_eq_ok, require_eq_ok, exists_const, Except_pure_eq_ok,
        Prod.mk.injEq] at h
      obtain ⟨-, rfl, rfl⟩ := h
      simp [Disk.rewrite, CacheWatermark.observe, hlater]
    · simp only [Except_pure_eq_ok, Prod.mk.injEq] at h
      obtain ⟨rfl, rfl⟩ := h
      exact ⟨rfl, hm₀⟩
  obtain ⟨rfl, hrewrite⟩ := hresult
  refine ⟨m₀, b, hm₀, hb, hcluster, hnode, ?_, hdigest, hq, hrevision, hrewrite⟩
  simpa [CacheWatermark.ahead] using hahead

/-- What a call can do: nothing, write at least the watermark of a save, or finish a load. -/
inductive Performed (W : Wire) (d : Disk) : Call → Option ℕ → Disk × Outcome → Prop
  | unchanged {c : Call} {cut : Option ℕ} (unrecorded : ∀ p, ¬ Records W c cut d p) :
      Performed W d c cut (d, .failed)
  | written {p : Policy} {now : Stamp} {m : CacheWatermark} {b : Bytes} {cut : Option ℕ} {o : Outcome}
      (n : ℕ) (records : Records W (.save p now) cut d p) (saves : Saves W p now d m b)
      (silent : ∀ q, o ≠ .loaded q) :
      Performed W d (.save p now) cut (d.replace m b (n + 1), o)
  | read {clusterID nodeID : String} {now : Stamp} {p : Policy} {m : Option CacheWatermark}
      {cut : Option ℕ} {o : Outcome} (loads : Loads W clusterID nodeID now d p m)
      (answer : ∀ q, o = .loaded q → q = p) :
      Performed W d (.load clusterID nodeID now) cut (d.rewrite m, o)

theorem perform_performed (W : Wire) (c : Call) (cut : Option ℕ) (d : Disk) :
    Performed W d c cut (perform W c cut d) := by
  cases c with
  | save p now =>
    simp only [perform]
    cases hs : saveCacheAt W p now d with
    | error e =>
      refine .unchanged fun q => ?_
      rintro ⟨now', m, b, hc, hsave, -⟩
      cases hc
      rw [hs] at hsave
      cases hsave
    | ok plan =>
      obtain ⟨m, b⟩ := plan
      have hsaves := saveCacheAt_saves hs
      match cut with
      | none => exact .written 1 ⟨now, m, b, rfl, hs, by simp⟩ hsaves (by simp)
      | some 0 => exact .unchanged fun q hq => hq.choose_spec.choose_spec.choose_spec.2.2 rfl
      | some (n + 1) => exact .written n ⟨now, m, b, rfl, hs, by simp⟩ hsaves (by simp)
  | load clusterID nodeID now =>
    have hunrecorded : ∀ q, ¬ Records W (.load clusterID nodeID now) cut d q := by
      rintro q ⟨now', m, b, hc, -⟩
      cases hc
    simp only [perform]
    cases hl : loadCache W clusterID nodeID now d with
    | error e => exact .unchanged hunrecorded
    | ok result =>
      obtain ⟨p, m⟩ := result
      have hloads := loadCache_loads hl
      match cut with
      | none =>
        refine .read hloads fun q hq => ?_
        cases hq
        rfl
      | some 0 => exact .unchanged hunrecorded
      | some (n + 1) => exact .read hloads (by simp)

theorem Disk.replace_succ_watermark (d : Disk) (m : CacheWatermark) (b : Bytes) (n : ℕ) :
    (d.replace m b (n + 1)).watermark = some m := by
  cases n <;> rfl

section Step

variable {W : Wire} {d d' : Disk} {c : Call} {cut : Option ℕ} {o : Outcome}

theorem Performed.advances (h : Performed W d c cut (d', o)) {m : CacheWatermark}
    (hm : d.watermark = some m) : ∃ m', d'.watermark = some m' ∧ Advances m m' := by
  cases h with
  | unchanged => exact ⟨m, hm, .refl m⟩
  | written n records saves silent =>
    exact ⟨_, Disk.replace_succ_watermark .., (saves.advances m hm).1⟩
  | read loads answer =>
    obtain ⟨m₀, b, hm₀, -, -, -, -, -, -, -, hrewrite⟩ := loads.found
    cases hm.symm.trans hm₀
    exact ⟨_, hrewrite, observe_advances m _⟩

theorem Performed.origin (h : Performed W d c cut (d', o)) {m' : CacheWatermark}
    (hm' : d'.watermark = some m') :
    (∃ p, Records W c cut d p ∧ Marks W m' p) ∨
      ∃ m, d.watermark = some m ∧ ∀ p, Marks W m p → Marks W m' p := by
  cases h with
  | unchanged => exact .inr ⟨m', hm', fun _ => id⟩
  | written n records saves silent =>
    rw [Disk.replace_succ_watermark] at hm'
    cases hm'
    exact .inl ⟨_, records, saves.marks⟩
  | read loads answer =>
    obtain ⟨m₀, b, hm₀, -, -, -, -, -, -, -, hrewrite⟩ := loads.found
    cases hm'.symm.trans hrewrite
    refine .inr ⟨m₀, hm₀, fun p hp => ⟨hp.marshals, ?_, ?_, ?_, ?_⟩⟩
    all_goals unfold CacheWatermark.observe; split_ifs
    exacts [hp.clusterID, hp.clusterID, hp.nodeID, hp.nodeID, hp.revision, hp.revision, hp.digest,
      hp.digest]

theorem Performed.recorded (h : Performed W d c cut (d', o)) {p : Policy}
    (hr : Records W c cut d p) : ∃ m', d'.watermark = some m' ∧ Marks W m' p := by
  cases h with
  | unchanged unrecorded => exact absurd hr (unrecorded p)
  | written n records saves silent =>
    obtain ⟨now, m, b, hc, -⟩ := hr
    cases hc
    exact ⟨_, Disk.replace_succ_watermark .., saves.marks⟩
  | read loads answer =>
    obtain ⟨now, m, b, hc, -⟩ := hr
    cases hc

theorem Performed.observed (h : Performed W d c cut (d', o)) (ho : o ≠ .failed) :
    ∃ m', d'.watermark = some m' ∧ c.reading.time ≤ m'.observedAt.time := by
  cases h with
  | unchanged => exact absurd rfl ho
  | written n records saves silent => exact ⟨_, Disk.replace_succ_watermark .., saves.reading⟩
  | read loads answer =>
    obtain ⟨m₀, b, -, -, -, -, -, -, -, -, hrewrite⟩ := loads.found
    exact ⟨_, hrewrite, observe_reading m₀ _⟩

theorem Performed.loaded {p : Policy} (h : Performed W d c cut (d', .loaded p)) :
    ∃ m, d.watermark = some m ∧ m.clusterID = p.clusterID ∧ m.nodeID = p.nodeID ∧
      m.revision = p.revision ∧ m.observedAt.time - 5 * second ≤ c.reading.time ∧
      ∀ q, Marks W m q → p = q := by
  cases h with
  | written n records saves silent => exact absurd rfl (silent p)
  | read loads answer =>
    obtain ⟨m, b, hm, -, hcluster, hnode, htime, hdigest, hdecode, hrevision, -⟩ := loads.found
    cases answer p rfl
    have hwell := (Wire.decodePolicy_eq_ok.mp hdecode).2.2
    exact ⟨m, hm, hcluster.trans hwell.cluster.2.symm, hnode.trans hwell.node.2.symm,
      hrevision.symm, htime, fun q hq => hq.decode hdigest hdecode⟩

end Step

namespace Cache.Run

variable {W : Wire} (r : Cache.Run W)

/-- The call at the step `i` writes a watermark for `p`. -/
def Recorded (i : ℕ) (p : Policy) : Prop :=
  i < r.len ∧ Records W (r.label i).1 (r.label i).2 (r.state i) p

theorem performed {i : ℕ} (hi : i < r.len) :
    Performed W (r.state i) (r.label i).1 (r.label i).2 (r.state (i + 1), r.outcome i) := by
  rw [r.next i hi]
  exact perform_performed W ..

theorem advances {i j : ℕ} (hij : i ≤ j) (hj : j ≤ r.len) {m : CacheWatermark}
    (hm : (r.state i).watermark = some m) :
    ∃ m', (r.state j).watermark = some m' ∧ Advances m m' := by
  refine r.preserved (P := fun d => ∃ m', d.watermark = some m' ∧ Advances m m') hij
    ⟨m, hm, .refl m⟩ fun k _ hk ⟨m', hm', hadv⟩ => ?_
  obtain ⟨m'', hm'', hadv'⟩ := (performed r (hk.trans_le hj)).advances hm'
  exact ⟨m'', hm'', hadv.trans hadv'⟩

theorem marked {i : ℕ} (hi : i ≤ r.len) {m : CacheWatermark}
    (hm : (r.state i).watermark = some m) : ∃ j < i, ∃ p, Recorded r j p ∧ Marks W m p := by
  induction i generalizing m with
  | zero =>
    rw [r.start] at hm
    cases hm
  | succ i ih =>
    rcases (performed r hi).origin hm with ⟨p, hr, hp⟩ | ⟨m₀, hm₀, hmarks⟩
    · exact ⟨i, Nat.lt_succ_self i, p, ⟨hi, hr⟩, hp⟩
    · obtain ⟨j, hj, p, hr, hp⟩ := ih (Nat.le_of_succ_le hi) hm₀
      exact ⟨j, Nat.lt_succ_of_lt hj, p, hr, hmarks p hp⟩

theorem recorded_le {i j : ℕ} (hji : j < i) (hi : i ≤ r.len) {q : Policy} (hq : Recorded r j q)
    {m : CacheWatermark} (hm : (r.state i).watermark = some m) :
    q.revision ≤ m.revision ∧ (q.revision = m.revision → ∀ p, Marks W m p → q = p) := by
  obtain ⟨m₀, hm₀, hmarks⟩ := (performed r hq.1).recorded hq.2
  obtain ⟨m', hm', hadv⟩ := advances r hji hi hm₀
  cases hm.symm.trans hm'
  refine ⟨hmarks.revision ▸ hadv.revision, fun he p hp => ?_⟩
  exact hmarks.unique hp (hadv.digest (hmarks.revision.trans he))

/-- Whatever calls are made and wherever they are cut off: a load returns the policy of the highest
revision that was ever recorded, of the one cluster and node that the cache was made for, and at a
reading at most 5 seconds before any that was recorded; and no call moves the watermark back. -/
theorem anti_rollback :
    (∀ i < r.len, ∀ p, r.outcome i = .loaded p →
      (∃ j < i, Recorded r j p) ∧
      (∀ j < i, ∀ q, Recorded r j q →
        q.revision ≤ p.revision ∧ (q.revision = p.revision → q = p)) ∧
      (∀ j ≤ i, ∀ m, (r.state j).watermark = some m →
        m.clusterID = p.clusterID ∧ m.nodeID = p.nodeID ∧ m.revision ≤ p.revision ∧
          m.observedAt.time - 5 * second ≤ (r.label i).1.reading.time) ∧
      ∀ j < i, r.outcome j ≠ .failed →
        (r.label j).1.reading.time - 5 * second ≤ (r.label i).1.reading.time) ∧
    ∀ i < r.len, ∀ m, (r.state i).watermark = some m →
      ∃ m', (r.state (i + 1)).watermark = some m' ∧ m.revision ≤ m'.revision ∧
        m.observedAt.time ≤ m'.observedAt.time := by
  refine ⟨fun i hi p hp => ?_, fun i hi m hm => ?_⟩
  · have hstep := performed r hi
    rw [hp] at hstep
    obtain ⟨m, hm, hcluster, hnode, hrevision, htime, hnames⟩ := hstep.loaded
    obtain ⟨j, hj, q, hrecorded, hmarks⟩ := marked r hi.le hm
    cases hnames q hmarks
    have hmark : ∀ j ≤ i, ∀ m₀, (r.state j).watermark = some m₀ → Advances m₀ m := by
      intro j hj m₀ hm₀
      obtain ⟨m', hm', hadv⟩ := advances r hj hi.le hm₀
      cases hm.symm.trans hm'
      exact hadv
    refine ⟨⟨j, hj, hrecorded⟩, fun j hj q hq => ?_, fun j hj m₀ hm₀ => ?_, fun j hj ho => ?_⟩
    · obtain ⟨hle, heq⟩ := recorded_le r hj hi.le hq hm
      exact ⟨hrevision ▸ hle, fun he => heq (he.trans hrevision.symm) p hmarks⟩
    · have hadv := hmark j hj m₀ hm₀
      refine ⟨hadv.clusterID.trans hcluster, hadv.nodeID.trans hnode, hrevision ▸ hadv.revision, ?_⟩
      have hlater := hadv.time
      omega
    · obtain ⟨m₀, hm₀, hreading⟩ := (performed r (hj.trans hi)).observed ho
      have hlater := (hmark (j + 1) hj m₀ hm₀).time
      omega
  · obtain ⟨m', hm', hadv⟩ := (performed r hi).advances hm
    exact ⟨m', hm', hadv.revision, hadv.time⟩

end Cache.Run
end UniDERP.Node
