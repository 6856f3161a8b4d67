import UniDERP.Relay.Admission
import UniDERP.Relay.Traffic

namespace UniDERP.Relay

def TailnetQueue.limit (t : TailnetQueue) : String × ℕ × ℕ := (t.id, t.weight, t.bucket.rate)

def TailnetLimit.limit (t : TailnetLimit) : String × ℕ × ℕ := (t.tailnetID, t.weight, t.maxBytesPerSec)

namespace Scheduler

/-- One queue for each tailnet, in its group and under its limits, and the limits of the groups and
of the whole. -/
structure Configured (L : Limits) (s : Scheduler) : Prop where
  tailnets : ∀ i, ((s.group i).tailnets.map TailnetQueue.limit).Perm
    ((L.tailnets.filter (·.groupID = i)).map TailnetLimit.limit)
  weight : ∀ i, (s.group i).weight = L.weight i
  groupMax : ∀ i, (s.group i).bucket.rate = if i = .shared then L.sharedMax else 0
  budget : s.budget.rate = L.budget

section Configured

variable {s s' : Scheduler} {L : Limits} {now : ℤ}

theorem requeue_limit (rule : TailnetLimit) : (s.requeue rule).limit = rule.limit := by
  rw [TailnetQueue.limit, requeue_id]
  rfl

theorem update_configured (L : Limits) (s : Scheduler) : (s.update L).Configured L where
  tailnets i := by
    rw [update_tailnets, List.map_map, show TailnetQueue.limit ∘ s.requeue = TailnetLimit.limit from
      funext requeue_limit]
  weight i := by cases i <;> rfl
  groupMax i := by cases i <;> rfl
  budget := rfl

theorem Replaces.limits {t t' : TailnetQueue} (h : s.Replaces t t' s') (hlimit : t'.limit = t.limit)
    (i : GroupID) : ((s'.group i).tailnets.map TailnetQueue.limit).Perm
      ((s.group i).tailnets.map TailnetQueue.limit) := by
  obtain ⟨rest, hring, hperm⟩ := h.ring
  by_cases hi : i = s.next
  · rw [hi, show (s.group s.next).tailnets = t :: rest from hring, List.map_cons, ← hlimit,
      ← List.map_cons]
    exact hperm.map _
  · rw [h.other i hi]

theorem Passes.configured (h : Passes now s s') (hs : s.Configured L) : s'.Configured L where
  tailnets i := by
    rcases h.tailnets with hsame | ⟨t, t', hreplaces, hpassed⟩
    · rw [hsame]
      exact hs.tailnets i
    · refine (hreplaces.limits ?_ i).trans (hs.tailnets i)
      rw [TailnetQueue.limit, hreplaces.id, hpassed.weight,
        TokenBucket.Charged.rate (m := none) hpassed.bucket]
      rfl
  weight i := (h.weight i).trans (hs.weight i)
  groupMax i := (TokenBucket.Charged.rate (m := none) (h.bucket i)).trans (hs.groupMax i)
  budget := (TokenBucket.Charged.rate (m := none) h.budget).trans hs.budget

theorem Serves.configured {g : Granted} (h : Serves now s g s') (hs : s.Configured L) :
    s'.Configured L where
  tailnets i := by
    obtain ⟨t, t', hreplaces, -, hweight, hbucket, -⟩ := h.tailnet
    refine (hreplaces.limits ?_ i).trans (hs.tailnets i)
    rw [TailnetQueue.limit, hreplaces.id, hweight, hbucket.rate]
    rfl
  weight i := (h.weight i).trans (hs.weight i)
  groupMax i := (h.bucket i).rate.trans (hs.groupMax i)
  budget := h.budget.rate.trans hs.budget

theorem enqueue_configured {i : GroupID} {id : String} {r : Request} (hs : s.Configured L) :
    (s.enqueue i id r).Configured L where
  tailnets j := by
    rw [enqueue_tailnets, List.map_map]
    convert hs.tailnets j using 2
    funext t
    rw [Function.comp_apply]
    split_ifs <;> rfl
  weight j := by
    rw [← hs.weight j]
    cases i <;> cases j <;> rfl
  groupMax j := by
    rw [← hs.groupMax j]
    cases i <;> cases j <;> rfl
  budget := by
    rw [← hs.budget]
    cases i <;> rfl

theorem act_configured {call : Call} {time : ℤ} (hcall : ∀ L, call ≠ .update L)
    (hs : s.Configured L) : (act call ⟨s, time⟩).2.scheduler.Configured L := by
  cases call with
  | update L => exact absurd rfl (hcall L)
  | wait ctx id size =>
    cases hwait : s.wait ctx id size with
    | error e => simpa [act, hwait, Except.toOption] using hs
    | ok s₁ =>
      obtain ⟨-, i, t, -, rfl⟩ := wait_eq_ok hwait
      simpa [act, hwait, Except.toOption] using enqueue_configured hs
  | cancel ctx => exact ⟨hs.tailnets, hs.weight, hs.groupMax, hs.budget⟩
  | step now =>
    refine step_turns (R := fun _ s => s.Configured L) rfl hs fun a t ha hturn => ?_
    rcases hturn.passes_or_serves with ⟨-, hpasses⟩ | ⟨g, -, hserves⟩
    · exact hpasses.configured ha
    · exact hserves.configured ha

theorem Configured.find_isSome (h : s.Configured L) {rule : TailnetLimit} (hr : rule ∈ L.tailnets) :
    (s.find rule.tailnetID).isSome := by
  have hmem : rule.limit ∈ (s.group rule.groupID).tailnets.map TailnetQueue.limit := by
    rw [(h.tailnets rule.groupID).mem_iff]
    exact List.mem_map_of_mem (List.mem_filter.mpr ⟨hr, decide_eq_true rfl⟩)
  obtain ⟨t, ht, hlimit⟩ := List.mem_map.mp hmem
  exact Scheduler.find_isSome ht (congrArg Prod.fst hlimit)

end Configured

end Scheduler

theorem ServerChange.keeps {W : Wire} {s s' : Server} {a : Act} (h : ServerChange W s a s')
    (happly : ∀ body read order, a ≠ .apply body read order) (hclose : a ≠ .close) :
    s'.policy = s.policy ∧ s'.closed = s.closed ∧ s'.localBudgetBPS = s.localBudgetBPS := by
  cases h with
  | clock _ same =>
    obtain ⟨_, _, rfl⟩ := same
    exact ⟨rfl, rfl, rfl⟩
  | registered same =>
    obtain ⟨_, _, rfl⟩ := same
    exact ⟨rfl, rfl, rfl⟩
  | unregistered => exact ⟨rfl, rfl, rfl⟩
  | reaped _ _ reaped same =>
    obtain ⟨_, _, rfl⟩ := same
    obtain ⟨_, _, _, rfl⟩ := reaped.frame
    exact ⟨rfl, rfl, rfl⟩
  | installed => exact absurd rfl (happly _ _ _)
  | closed => exact absurd rfl hclose

theorem applyPolicy_localBudgetBPS {W : Wire} (read : ℕ → Reading) (order : List ℕ) (body : Bytes)
    (s : Server) : (applyPolicy W read order body s).2.localBudgetBPS = s.localBudgetBPS := by
  have hstatus : ∀ now (s : Server), (statusLocked now s).2.localBudgetBPS = s.localBudgetBPS := by
    intro now s
    obtain ⟨_, _, h⟩ := statusLocked_same now s
    rw [h]
  have hreap : ∀ now read (s : Server), (reapLocked now read order s).localBudgetBPS =
      s.localBudgetBPS := by
    intro now read s
    obtain ⟨_, _, _, h⟩ := (reapLocked_reaped now read order s).frame
    rw [h]
  unfold applyPolicy
  split_ifs
  · rfl
  split
  · rfl
  split
  · rfl
  · unfold applyLocked
    split_ifs
    · rfl
    dsimp only
    split_ifs
    · rfl
    · rfl
    · exact hstatus _ _
    · exact (hstatus _ _).trans (hreap _ _ _)

structure Managed where
  relay : State
  schedulers : Side → Option Scheduler := fun _ => none
  traffic : Traffic := {}

/-- What happens to a managed relay: a step of the relay, a call of one of the schedulers, or a
payload that is counted. -/
inductive Move
  | act (a : Act) (nilRules : Bool)
  | call (side : Side) (c : Scheduler.Call)
  | record (tailnet : String) (receive : Bool) (bytes : ℕ)

namespace Managed

def server (s : Managed) : Server := s.relay.server

/-- `SetUniDERPQoS`. -/
def setQoS (L : Limits) (slots : Side → Option Scheduler) : Side → Option Scheduler := fun side =>
  some (match slots side with
    | some current => current.update L
    | none => .new L)

/-- What a new policy sets beside its keys.  `reflect.DeepEqual` takes two empty lists of rules for
different ones if one of them is nil, which `nilRules` says. -/
def install (p : Policy) (nilRules : Bool) (s : Managed) : Managed :=
  let scheduled := s.server.policy.all fun old =>
    old.policy.qos ≠ p.qos || (nilRules && p.qos.tailnets = [])
  { s with
    schedulers :=
      if h : validateQoS p.qos = .ok () ∧ scheduled then
        setQoS (.ofPolicy s.server.localBudgetBPS p.qos h.1) s.schedulers
      else s.schedulers
    traffic := s.traffic.install p.qos.tailnets }

/-- `ApplyUniDERPPolicy` with all that it changes. -/
def apply (W : Wire) (body : Bytes) (read : ℕ → Reading) (order : List ℕ) (nilRules : Bool)
    (s : Managed) : Except String AppliedPolicy × Managed :=
  let (result, server) := applyPolicy W read order body s.server
  let installed : Managed := match result, W.unmarshal body with
    | .ok _, some p => if s.server.policy.any (·.repeats p) then s else s.install p nilRules
    | _, _ => s
  (result, { installed with relay := { s.relay with server := server } })

/-- `Close` ends the schedulers; no call reaches a scheduler that is not there. -/
def move (W : Wire) : Move → Managed → Option Managed
  | .act (.apply body read order) nilRules, s =>
    if s.server.covered order then some (s.apply W body read order nilRules).2 else none
  | .act .close _, s =>
    (act W .close s.relay).map fun relay => { s with relay := relay, schedulers := fun _ => none }
  | .act a _, s => (act W a s.relay).map fun relay => { s with relay := relay }
  | .call _ (.update _), _ => none
  | .call side c, s =>
    (s.schedulers side).map fun q =>
      { s with
        schedulers := fun side' =>
          if side' = side then some (Scheduler.act c ⟨q, 0⟩).2.scheduler else s.schedulers side' }
  | .record tailnet receive bytes, s =>
    some { s with traffic := s.traffic.record tailnet receive bytes }

/-- `EnableUniDERP(L)`, where `startUniDERPPolicy` has checked `L`. -/
def Start (L : ℕ) (s : Managed) : Prop :=
  (L = 0 ∨ 8 ≤ L) ∧ ∃ now, s = { relay := { server := Server.enable L now {} } }

def Step (W : Wire) (s : Managed) (m : Move) (s' : Managed) : Prop := move W m s = some s'

abbrev Run (W : Wire) (L : ℕ) := UniDERP.Run (Start L) (Step W)

/-- A move keeps the policy with what it set, or puts a newer one in force. -/
inductive Change (W : Wire) (s s' : Managed) : Prop
  | kept (policy : s'.server.policy = s.server.policy)
      (budget : s'.server.localBudgetBPS = s.server.localBudgetBPS)
      (names : s'.traffic.current = s.traffic.current)
      (sound : s.traffic.Sound → s'.traffic.Sound)
      (closed : s'.server.closed = false → s.server.closed = false)
      (schedulers : s'.server.closed = false → ∀ side q L, s.schedulers side = some q →
        q.Configured L → ∃ q', s'.schedulers side = some q' ∧ q'.Configured L)
  | installed {body : Bytes} {read : ℕ → Reading} {p : Policy} {nilRules : Bool}
      (decoded : W.decodePolicy body p.clusterID p.nodeID = .ok p)
      (newer : ∀ old, s.server.policy = some old → old.policy.revision = 0 ∨
        old.policy.clusterID = p.clusterID ∧ old.policy.nodeID = p.nodeID ∧
          old.policy.revision < p.revision)
      (policy : s'.server.policy =
        some ⟨p, W.sha256 body, bindKeys W (read 0) s.server.policy p⟩)
      (closed : s'.server.closed = s.server.closed)
      (budget : s'.server.localBudgetBPS = s.server.localBudgetBPS)
      (schedulers : s'.schedulers = (s.install p nilRules).schedulers)
      (traffic : s'.traffic = s.traffic.install p.qos.tailnets)

section Change

variable {W : Wire} {s s' : Managed} {m : Move}

theorem change_of_server (hschedulers : s'.schedulers = s.schedulers)
    (htraffic : s'.traffic = s.traffic) (hpolicy : s'.server.policy = s.server.policy)
    (hclosed : s'.server.closed = s.server.closed)
    (hbudget : s'.server.localBudgetBPS = s.server.localBudgetBPS) : Change W s s' := by
  refine .kept hpolicy hbudget (by rw [htraffic]) (by rw [htraffic]; exact id)
    (by rw [hclosed]; exact id) ?_
  intro _ side q L hq hconf
  exact ⟨q, by rw [hschedulers, hq], hconf⟩

theorem apply_change (body : Bytes) (read : ℕ → Reading) (order : List ℕ) (nilRules : Bool)
    (s : Managed) : Change W s (s.apply W body read order nilRules).2 := by
  have happlied := applyPolicy_applied W read order body s.server
  have hbudget := applyPolicy_localBudgetBPS (W := W) read order body s.server
  unfold apply
  generalize applyPolicy W read order body s.server = outcome at happlied hbudget ⊢
  obtain ⟨result, server⟩ := outcome
  cases happlied with
  | refused e same =>
    obtain ⟨_, _, rfl⟩ := same
    exact change_of_server rfl rfl rfl rfl rfl
  | @repeated p old status decoded stored identity revision digest same answer =>
    obtain ⟨-, hp, -⟩ := Wire.decodePolicy_eq_ok.mp decoded
    obtain ⟨_, _, rfl⟩ := same
    have hrepeats : s.server.policy.any (·.repeats p) = true := by
      rw [stored]
      simpa [PolicyState.repeats] using ⟨revision.2, revision.1⟩
    simp only [hp, hrepeats, if_true]
    exact change_of_server rfl rfl rfl rfl rfl
  | @installed p status installed answer =>
    obtain ⟨-, hp, -⟩ := Wire.decodePolicy_eq_ok.mp installed.decoded
    have hrepeats : s.server.policy.any (·.repeats p) = false := by
      cases hold : s.server.policy with
      | none => rfl
      | some old =>
        rcases installed.newer old hold with h0 | ⟨-, -, hlt⟩
        · simp [PolicyState.repeats, h0]
        · simp [PolicyState.repeats, hlt.ne']
    simp only [hp, hrepeats]
    exact .installed installed.decoded installed.newer installed.policy installed.closed hbudget
      rfl rfl

theorem Step.change (h : Step W s m s') {ps : PolicyState} (hp : s.server.policy = some ps) :
    Change W s s' := by
  unfold Step at h
  cases m with
  | act a nilRules =>
    by_cases happly : ∃ body read order, a = .apply body read order
    · obtain ⟨body, read, order, rfl⟩ := happly
      simp only [move] at h
      split_ifs at h
      cases h
      exact apply_change body read order nilRules s
    by_cases hclose : a = .close
    · subst hclose
      simp only [move, act, Option.map_some, Option.some.injEq] at h
      subst h
      exact .kept rfl rfl rfl id (fun hfalse => by cases hfalse) (fun hfalse => by cases hfalse)
    have hrelay : (act W a s.relay).map (fun relay => { s with relay := relay }) = some s' := by
      rw [← h]
      cases a <;> first | rfl | exact absurd ⟨_, _, _, rfl⟩ happly | exact absurd rfl hclose
    obtain ⟨relay, hact, rfl⟩ := Option.map_eq_some_iff.mp hrelay
    obtain ⟨hpolicy, hclosed, hbudget⟩ := (Relay.Step.server hact hp).keeps
      (fun body read order ha => happly ⟨body, read, order, ha⟩) hclose
    exact change_of_server rfl rfl hpolicy hclosed hbudget
  | call side c =>
    by_cases hupdate : ∃ L, c = .update L
    · obtain ⟨L, rfl⟩ := hupdate
      cases h
    have hcall : ∀ L, c ≠ .update L := fun L hL => hupdate ⟨L, hL⟩
    have hq : (s.schedulers side).map (fun q => { s with
        schedulers := fun side' => if side' = side then some (Scheduler.act c ⟨q, 0⟩).2.scheduler
          else s.schedulers side' }) = some s' := by
      rw [← h]
      cases c <;> first | rfl | exact absurd rfl (hcall _)
    obtain ⟨q, hside, rfl⟩ := Option.map_eq_some_iff.mp hq
    refine .kept rfl rfl rfl id id fun _ side' q' L hq' hconf => ?_
    dsimp only
    by_cases hs : side' = side
    · subst hs
      obtain rfl := Option.some.inj (hside.symm.trans hq')
      rw [if_pos rfl]
      exact ⟨_, rfl, Scheduler.act_configured hcall hconf⟩
    · rw [if_neg hs]
      exact ⟨q', hq', hconf⟩
  | record tailnet receive bytes =>
    cases h
    refine .kept rfl rfl ?_ (·.record tailnet receive bytes) id fun _ side q L hq hconf =>
      ⟨q, hq, hconf⟩
    dsimp only [Traffic.record]
    split <;> rfl

end Change

def ruled (p : Policy) : List String := p.qos.tailnets.map (·.tailnetID)

/-- The policy in force was decoded from the text with its digest, and the schedulers, the counters
and the keys are those of the policy. -/
structure Agrees (W : Wire) (L : ℕ) (ps : PolicyState) (s : Managed) : Prop where
  decoded : ∃ body, W.decodePolicy body ps.policy.clusterID ps.policy.nodeID = .ok ps.policy ∧
    ps.digest = W.sha256 body
  schedulers : s.server.closed = false → ∀ side, ∃ q h, s.schedulers side = some q ∧
    q.Configured (.ofPolicy L ps.policy.qos h)
  counters : ∀ name, (s.traffic.current.get? name).isSome ↔ name ∈ ruled ps.policy
  keys : ∀ k b, ps.keys.get? k = some b → b.tailnet ∈ ruled ps.policy

structure Held (W : Wire) (L : ℕ) (s : Managed) : Prop where
  budget : s.server.localBudgetBPS = L
  sound : s.traffic.Sound
  policy : ∃ ps, s.server.policy = some ps ∧ (ps = ⟨noPolicy, "", ∅⟩ ∨ Agrees W L ps s)

section Held

variable {W : Wire} {L : ℕ} {s s' : Managed} {m : Move}

theorem start_held (h : Start L s) : Held W L s := by
  obtain ⟨-, now, rfl⟩ := h
  exact ⟨rfl, ⟨by simp, by simp⟩, _, rfl, .inl rfl⟩

theorem setQoS_configured (limits : Limits) (slots : Side → Option Scheduler) (side : Side) :
    ∃ q, setQoS limits slots side = some q ∧ q.Configured limits := by
  refine ⟨_, rfl, ?_⟩
  split
  · exact Scheduler.update_configured limits _
  · rw [Scheduler.new_eq_update]
    exact Scheduler.update_configured limits _

theorem Held.install_configured (h : Held W L s) {p : Policy} (hvalid : validateQoS p.qos = .ok ())
    (hopen : s.server.closed = false) (nilRules : Bool) (side : Side) :
    ∃ q, (s.install p nilRules).schedulers side = some q ∧ q.Configured (.ofPolicy L p.qos hvalid) := by
  obtain ⟨old, hold, hagrees⟩ := h.policy
  unfold install
  dsimp only
  split_ifs with hscheduled
  · rw [h.budget]
    exact setQoS_configured _ _ side
  · have hsame : old.policy.qos = p.qos := by
      by_contra hne
      exact hscheduled ⟨hvalid, by simp [hold, hne]⟩
    rcases hagrees with rfl | hagrees
    · -- No valid policy has the limits of the first one.
      rw [← hsame] at hvalid
      exact absurd hvalid (by decide)
    · obtain ⟨q, h', hq, hconf⟩ := hagrees.schedulers hopen side
      refine ⟨q, hq, ?_⟩
      simpa only [hsame] using hconf

theorem Change.held (h : Change W s s') (hs : Held W L s) : Held W L s' := by
  cases h with
  | kept policy budget names sound closed schedulers =>
    obtain ⟨ps, hps, hagrees⟩ := hs.policy
    refine ⟨budget.trans hs.budget, sound hs.sound, ps, policy.trans hps, hagrees.imp_right fun h => ?_⟩
    refine ⟨h.decoded, fun hopen side => ?_, by rw [names]; exact h.counters, h.keys⟩
    obtain ⟨q, hvalid, hq, hconf⟩ := h.schedulers (closed hopen) side
    obtain ⟨q', hq', hconf'⟩ := schedulers hopen side q _ hq hconf
    exact ⟨q', hvalid, hq', hconf'⟩
  | @installed body read p nilRules decoded newer policy closed budget schedulers traffic =>
    obtain ⟨-, -, hwf⟩ := Wire.decodePolicy_eq_ok.mp decoded
    obtain ⟨hsound, -, hnames⟩ := hs.sound.install p.qos.tailnets
    refine ⟨budget.trans hs.budget, by rw [traffic]; exact hsound, _, policy, .inr ?_⟩
    refine ⟨⟨body, decoded, rfl⟩, fun hopen side => ?_, by rw [traffic]; exact hnames, ?_⟩
    · obtain ⟨q, hq, hconf⟩ := hs.install_configured hwf.validateQoS (closed ▸ hopen) nilRules side
      exact ⟨q, hwf.validateQoS, by rw [schedulers, hq], hconf⟩
    · intro k b hb
      obtain ⟨g, hg, key, -, rfl⟩ := bindKeys_eq_some hb
      exact hwf.cover.symm.subset (List.mem_map_of_mem hg)

theorem Step.held (h : Step W s m s') (hs : Held W L s) : Held W L s' := by
  obtain ⟨ps, hps, -⟩ := hs.policy
  exact (h.change hps).held hs

theorem Run.held (r : Run W L) {i : ℕ} (hi : i ≤ r.len) : Held W L (r.state i) :=
  Reachable.invariant (I := Held W L) (r.reachable hi) (fun _ => start_held)
    fun _ _ _ _ hs hstep => hstep.held hs

end Held

def revision (s : Managed) : ℕ := s.server.policy.elim 0 (·.policy.revision)

/-- A scheduler with one queue for each tailnet of a policy, in its group, and with the policy's
figures in bytes; `L` limits the budget unless it is 0. -/
structure Enforces (L : ℕ) (p : QoSPolicy) (q : Scheduler) : Prop where
  owner : (q.owner.tailnets.map fun t => (t.id, t.weight, t.bucket.rate)).Perm
    ((p.tailnets.filter (·.group ≠ .shared)).map fun t => (t.tailnetID, t.weight, t.maxBPS / 8))
  shared : (q.shared.tailnets.map fun t => (t.id, t.weight, t.bucket.rate)).Perm
    ((p.tailnets.filter (·.group = .shared)).map fun t => (t.tailnetID, t.weight, t.maxBPS / 8))
  weights : q.owner.weight = p.ownerWeight ∧ q.shared.weight = p.sharedWeight
  ceilings : q.owner.bucket.rate = 0 ∧ q.shared.bucket.rate = p.sharedMaxBPS / 8
  budget : q.budget.rate = (if L ≠ 0 then min p.budgetBPS L else p.budgetBPS) / 8

theorem limits_of_group {L : ℕ} {p : QoSPolicy} {hvalid : validateQoS p = .ok ()} {i : GroupID}
    {inGroup : TailnetQoS → Bool}
    (h : ∀ t, inGroup t = decide ((if t.group = .shared then GroupID.shared else .owner) = i)) :
    (((Limits.ofPolicy L p hvalid).tailnets.filter (·.groupID = i)).map TailnetLimit.limit) =
      (p.tailnets.filter inGroup).map fun t => (t.tailnetID, t.weight, t.maxBPS / 8) := by
  obtain rfl : inGroup = _ := funext h
  rw [Limits.ofPolicy, List.filter_map, List.map_map]
  rfl

theorem Enforces.of_configured {L : ℕ} {p : QoSPolicy} {q : Scheduler}
    {hvalid : validateQoS p = .ok ()} (h : q.Configured (.ofPolicy L p hvalid)) :
    Enforces L p q where
  owner := by
    rw [← limits_of_group (i := .owner) fun t => by by_cases h : t.group = .shared <;> simp [h]]
    exact h.tailnets .owner
  shared := by
    rw [← limits_of_group (i := .shared) fun t => by by_cases h : t.group = .shared <;> simp [h]]
    exact h.tailnets .shared
  weights := ⟨h.weight .owner, h.weight .shared⟩
  ceilings := ⟨h.groupMax .owner, h.groupMax .shared⟩
  budget := h.budget

/-- Both schedulers hold the limits of the policy, no limit is lost in bytes, and the tailnet of
every key that is let in has its queues and its counter. -/
structure InForce (L : ℕ) (p : Policy) (s : Managed) : Prop where
  policy : ∃ ps, s.server.policy = some ps ∧ ps.policy = p
  schedulers : ∀ side, ∃ q, s.schedulers side = some q ∧ Enforces L p.qos q
  limited : (if L ≠ 0 then min p.qos.budgetBPS L else p.qos.budgetBPS) / 8 ≠ 0 ∧
    (p.qos.sharedMaxBPS ≠ 0 → p.qos.sharedMaxBPS / 8 ≠ 0) ∧
    ∀ t ∈ p.qos.tailnets, t.maxBPS ≠ 0 → t.maxBPS / 8 ≠ 0
  admitted : ∀ now k b, (bindingLocked now k s.server).1 = some b →
    (∀ side, ∃ q, s.schedulers side = some q ∧ (q.find b.tailnet).isSome) ∧
      ∃ id c, s.traffic.current.get? b.tailnet = some id ∧ s.traffic.counters.get? id = some c

/-- The policy with its keys, the counters and the schedulers are the same. -/
structure Unchanged (s s' : Managed) : Prop where
  policy : s'.server.policy = s.server.policy
  traffic : s'.traffic = s.traffic
  schedulers : s'.schedulers = s.schedulers

/-- Move `i` of the run is a successful application. -/
def Run.Accepts {W : Wire} {L : ℕ} (r : Run W L) (i : ℕ) (body : Bytes) (p : Policy) : Prop :=
  i < r.len ∧ W.unmarshal body = some p ∧ ∃ read order nilRules status,
    r.label i = .act (.apply body read order) nilRules ∧
      ((r.state i).apply W body read order nilRules).1 = .ok status

def Run.Rejects {W : Wire} {L : ℕ} (r : Run W L) (i : ℕ) : Prop :=
  i < r.len ∧ ∃ body read order nilRules e, r.label i = .act (.apply body read order) nilRules ∧
    ((r.state i).apply W body read order nilRules).1 = .error e

section Apply

variable {W : Wire} {L : ℕ} {s s' : Managed}

def Carries (W : Wire) (body : Bytes) (p : Policy) (s : Managed) : Prop :=
  ∃ ps, s.server.policy = some ps ∧ ps.policy = p ∧ ps.digest = W.sha256 body

theorem apply_error {body : Bytes} {read : ℕ → Reading} {order : List ℕ} {nilRules : Bool}
    {e : String} (h : (s.apply W body read order nilRules).1 = .error e) :
    Unchanged s (s.apply W body read order nilRules).2 := by
  have happlied := applyPolicy_applied W read order body s.server
  have hresult : (applyPolicy W read order body s.server).1 = .error e := h
  unfold apply
  generalize applyPolicy W read order body s.server = outcome at happlied hresult ⊢
  obtain ⟨result, server⟩ := outcome
  obtain rfl : result = .error e := hresult
  cases happlied with
  | refused _ same => exact ⟨same.policy, rfl, rfl⟩

theorem applyPolicy_open {read : ℕ → Reading} {order : List ℕ} {body : Bytes} {s : Server}
    {status : AppliedPolicy} (h : (applyPolicy W read order body s).1 = .ok status) :
    s.closed = false ∧ (applyPolicy W read order body s).2.closed = false := by
  have hopen : s.closed = false := by
    by_contra hclosed
    simp only [applyPolicy, applyLocked, (Bool.not_eq_false _).mp hclosed, Bool.true_or, if_true] at h
    split_ifs at h
    split at h
    · cases h
    · split at h <;> cases h
  refine ⟨hopen, ?_⟩
  have happlied := applyPolicy_applied W read order body s
  generalize applyPolicy W read order body s = outcome at happlied ⊢
  obtain ⟨result, server⟩ := outcome
  cases happlied with
  | refused _ same =>
    obtain ⟨_, _, rfl⟩ := same
    exact hopen
  | repeated _ _ _ _ _ same _ =>
    obtain ⟨_, _, rfl⟩ := same
    exact hopen
  | installed installed => exact installed.closed.trans hopen

/-- A successful application leaves its own policy in force; the one before was an older one of the
same node, or it was the same. -/
theorem Held.apply_ok (hs : Held W L s) {body : Bytes} {read : ℕ → Reading} {order : List ℕ}
    {nilRules : Bool} {status : AppliedPolicy} {p : Policy} (hp : W.unmarshal body = some p)
    (h : (s.apply W body read order nilRules).1 = .ok status) :
    (s.apply W body read order nilRules).2.server.closed = false ∧ p.revision ≠ 0 ∧
      Carries W body p (s.apply W body read order nilRules).2 ∧
      ∀ old, s.server.policy = some old → old.policy.revision ≠ 0 →
        old.policy.clusterID = p.clusterID ∧ old.policy.nodeID = p.nodeID ∧
          (old.policy.revision < p.revision ∨
            old.policy.revision = p.revision ∧ old.digest = W.sha256 body) := by
  have hopen := (applyPolicy_open (W := W) (s := s.server) h).2
  refine ⟨hopen, ?_⟩
  have happlied := applyPolicy_applied W read order body s.server
  have hresult : (applyPolicy W read order body s.server).1 = .ok status := h
  show _ ∧ (∃ ps, (applyPolicy W read order body s.server).2.policy = some ps ∧ _) ∧ _
  generalize applyPolicy W read order body s.server = outcome at happlied hresult ⊢
  obtain ⟨result, server⟩ := outcome
  obtain rfl : result = .ok status := hresult
  cases happlied with
  | @repeated p' old _ decoded stored identity revision digest same answer =>
    obtain ⟨-, hp', hwf⟩ := Wire.decodePolicy_eq_ok.mp decoded
    obtain rfl : p' = p := Option.some.inj (hp'.symm.trans hp)
    refine ⟨hwf.revision, ⟨old, same.policy.trans stored, ?_, digest.symm⟩, fun old' hold' _ => ?_⟩
    · -- One digest has one text, and the stored policy was decoded from it.
      obtain ⟨ps, hps, rfl | hagrees⟩ := hs.policy
      · obtain rfl := Option.some.inj (stored.symm.trans hps)
        exact absurd rfl revision.2
      · obtain rfl := Option.some.inj (stored.symm.trans hps)
        obtain ⟨body', hdecoded', hdigest'⟩ := hagrees.decoded
        obtain rfl := W.sha256_injective (digest.trans hdigest')
        obtain ⟨-, hp'', -⟩ := Wire.decodePolicy_eq_ok.mp hdecoded'
        exact Option.some.inj (hp''.symm.trans hp)
    · obtain rfl := Option.some.inj (stored.symm.trans hold')
      exact ⟨identity.1, identity.2, .inr ⟨revision.1.symm, digest.symm⟩⟩
  | @installed p' _ installed answer =>
    obtain ⟨-, hp', hwf⟩ := Wire.decodePolicy_eq_ok.mp installed.decoded
    obtain rfl : p' = p := Option.some.inj (hp'.symm.trans hp)
    refine ⟨hwf.revision, ⟨_, installed.policy, rfl, rfl⟩, fun old hold hne => ?_⟩
    obtain ⟨hc, hn, hlt⟩ := (installed.newer old hold).resolve_left hne
    exact ⟨hc, hn, .inl hlt⟩

theorem Agrees.inForce {ps : PolicyState} (h : Agrees W L ps s) (hps : s.server.policy = some ps)
    (hsound : s.traffic.Sound) (hL : L = 0 ∨ 8 ≤ L) (hopen : s.server.closed = false) :
    InForce L ps.policy s := by
  obtain ⟨body, hdecoded, -⟩ := h.decoded
  obtain ⟨-, -, hwf⟩ := Wire.decodePolicy_eq_ok.mp hdecoded
  have hceiling : ∀ bps, validCeiling bps → bps ≠ 0 → bps / 8 ≠ 0 := by
    intro bps hvalid hne
    simp only [validCeiling, Bool.or_eq_true, Bool.and_eq_true, decide_eq_true_eq] at hvalid
    omega
  refine ⟨⟨ps, hps, rfl⟩, fun side => ?_, ⟨?_, hceiling _ hwf.ceiling, ?_⟩, ?_⟩
  · obtain ⟨q, _, hq, hconf⟩ := h.schedulers hopen side
    exact ⟨q, hq, .of_configured hconf⟩
  · have hbudget := hwf.budget.1
    split_ifs <;> omega
  · intro t ht
    have hrule := hwf.rules t ht
    simp only [validRule, Bool.and_eq_true] at hrule
    exact hceiling _ hrule.2
  · intro now k b hb
    have hmem := h.keys k b (bindingLocked_eq_some hps hb).1
    refine ⟨fun side => ?_, ?_⟩
    · obtain ⟨q, hvalid, hq, hconf⟩ := h.schedulers hopen side
      obtain ⟨t, ht, hid⟩ := List.mem_map.mp hmem
      refine ⟨q, hq, ?_⟩
      rw [← hid]
      exact hconf.find_isSome (List.mem_map_of_mem ht)
    · obtain ⟨id, hid⟩ := Option.isSome_iff_exists.mp ((h.counters b.tailnet).mpr hmem)
      obtain ⟨c, hc⟩ := hsound.made _ id hid
      exact ⟨id, c, hid, hc⟩

end Apply

namespace Run

variable {W : Wire} {L : ℕ} (r : Run W L)

theorem change {i : ℕ} (hi : i < r.len) : Change W (r.state i) (r.state (i + 1)) := by
  obtain ⟨ps, hps, -⟩ := (Run.held r hi.le).policy
  exact Step.change (r.next i hi) hps

theorem revision_le {i j : ℕ} (hij : i ≤ j) (hj : j ≤ r.len) :
    (r.state i).revision ≤ (r.state j).revision := by
  refine r.preserved (P := fun s => (r.state i).revision ≤ s.revision) hij le_rfl ?_
  intro k _ hkj hle
  refine hle.trans ?_
  cases Run.change r (hkj.trans_le hj) with
  | kept policy => rw [revision, revision, policy]
  | installed decoded newer policy =>
    obtain ⟨old, hold, -⟩ := (Run.held r (hkj.le.trans hj)).policy
    rw [revision, revision, policy, hold, Option.elim_some, Option.elim_some]
    rcases newer old hold with h0 | ⟨-, -, hlt⟩
    · rw [h0]
      exact Nat.zero_le _
    · exact hlt.le

theorem carried {i j : ℕ} {body : Bytes} {p : Policy} (h : Carries W body p (r.state i))
    (hp : p.revision ≠ 0) (hij : i ≤ j) (hj : j ≤ r.len) :
    ∃ ps, (r.state j).server.policy = some ps ∧ ps.policy.clusterID = p.clusterID ∧
      ps.policy.nodeID = p.nodeID ∧ (p.revision < ps.policy.revision ∨
        p.revision = ps.policy.revision ∧ ps.digest = W.sha256 body) := by
  refine r.preserved (P := fun s => ∃ ps, s.server.policy = some ps ∧
    ps.policy.clusterID = p.clusterID ∧ ps.policy.nodeID = p.nodeID ∧
      (p.revision < ps.policy.revision ∨
        p.revision = ps.policy.revision ∧ ps.digest = W.sha256 body)) hij ?_ ?_
  · obtain ⟨ps, hps, rfl, hdigest⟩ := h
    exact ⟨ps, hps, rfl, rfl, .inr ⟨rfl, hdigest⟩⟩
  · rintro k - hkj ⟨ps, hps, hc, hn, hrev⟩
    cases Run.change r (hkj.trans_le hj) with
    | kept policy => exact ⟨ps, policy.trans hps, hc, hn, hrev⟩
    | installed decoded newer policy =>
      obtain ⟨hc', hn', hlt⟩ := (newer ps hps).resolve_left (by omega)
      exact ⟨_, policy, hc'.symm.trans hc, hn'.symm.trans hn, .inl (by dsimp only; omega)⟩

theorem Accepts.next {i : ℕ} {body : Bytes} {p : Policy} (h : r.Accepts i body p) :
    ∃ read order nilRules status, ((r.state i).apply W body read order nilRules).1 = .ok status ∧
      r.state (i + 1) = ((r.state i).apply W body read order nilRules).2 := by
  obtain ⟨hi, -, read, order, nilRules, status, hlabel, hok⟩ := h
  have hnext : move W (r.label i) (r.state i) = some (r.state (i + 1)) := r.next i hi
  simp only [hlabel, move] at hnext
  split_ifs at hnext
  exact ⟨read, order, nilRules, status, hok, (Option.some.inj hnext).symm⟩

theorem Accepts.carries {i : ℕ} {body : Bytes} {p : Policy} (h : r.Accepts i body p) :
    p.revision ≠ 0 ∧ (r.state (i + 1)).server.closed = false ∧ Carries W body p (r.state (i + 1)) := by
  obtain ⟨read, order, nilRules, status, hok, hnext⟩ := Accepts.next r h
  obtain ⟨hopen, hne, hcarries, -⟩ := (Run.held r h.1.le).apply_ok h.2.1 hok
  rw [hnext]
  exact ⟨hne, hopen, hcarries⟩

theorem Accepts.later {i j : ℕ} {body body' : Bytes} {p p' : Policy} (h : r.Accepts i body p)
    (h' : r.Accepts j body' p') (hij : i < j) : p.clusterID = p'.clusterID ∧ p.nodeID = p'.nodeID ∧
      (p.revision = p'.revision → body = body') := by
  obtain ⟨hne, -, hcarries⟩ := Accepts.carries r h
  obtain ⟨ps, hps, hc, hn, hrev⟩ := Run.carried r hcarries hne hij h'.1.le
  obtain ⟨read, order, nilRules, status, hok, -⟩ := Accepts.next r h'
  obtain ⟨-, -, -, hnewer⟩ := (Run.held r h'.1.le).apply_ok h'.2.1 hok
  obtain ⟨hc', hn', hrev'⟩ := hnewer ps hps (by omega)
  refine ⟨hc.symm.trans hc', hn.symm.trans hn', fun heq => ?_⟩
  rcases hrev with hlt | ⟨hsame, hdigest⟩
  · omega
  · obtain ⟨-, hdigest'⟩ := hrev'.resolve_left (by omega)
    exact W.sha256_injective (hdigest.symm.trans hdigest')

/-- Every run of a managed relay: the revision in force never falls, all policies are one node's
with one text for each revision, a failed application changes nothing, and after a successful one
the schedulers, the counters and the keys are those of its policy. -/
theorem policy_in_force :
    (∀ i j, i ≤ j → j ≤ r.len → (r.state i).revision ≤ (r.state j).revision) ∧
    (∀ i j body body' p p', r.Accepts i body p → r.Accepts j body' p' →
      p.clusterID = p'.clusterID ∧ p.nodeID = p'.nodeID ∧ (p.revision = p'.revision → body = body')) ∧
    (∀ i, r.Rejects i → Unchanged (r.state i) (r.state (i + 1))) ∧
    ∀ i body p, r.Accepts i body p → InForce L p (r.state (i + 1)) := by
  refine ⟨fun i j hij hj => Run.revision_le r hij hj, ?_, ?_, ?_⟩
  · intro i j body body' p p' h h'
    rcases Nat.lt_trichotomy i j with hij | rfl | hji
    · exact Accepts.later r h h' hij
    · obtain ⟨-, hp, _, _, _, _, hlabel, -⟩ := h
      obtain ⟨-, hp', _, _, _, _, hlabel', -⟩ := h'
      have hsame := hlabel.symm.trans hlabel'
      simp only [Move.act.injEq, Act.apply.injEq] at hsame
      obtain ⟨⟨rfl, -⟩, -⟩ := hsame
      obtain rfl := Option.some.inj (hp.symm.trans hp')
      exact ⟨rfl, rfl, fun _ => rfl⟩
    · obtain ⟨hc, hn, hbody⟩ := Accepts.later r h' h hji
      exact ⟨hc.symm, hn.symm, fun heq => (hbody heq.symm).symm⟩
  · rintro i ⟨hi, body, read, order, nilRules, e, hlabel, herror⟩
    have hnext : move W (r.label i) (r.state i) = some (r.state (i + 1)) := r.next i hi
    simp only [hlabel, move] at hnext
    split_ifs at hnext
    rw [← Option.some.inj hnext]
    exact apply_error herror
  · intro i body p h
    obtain ⟨hne, hopen, ps, hps, rfl, -⟩ := Accepts.carries r h
    have hheld := Run.held r h.1
    obtain ⟨ps', hps', hagrees⟩ := hheld.policy
    obtain rfl := Option.some.inj (hps.symm.trans hps')
    refine (hagrees.resolve_left ?_).inForce hps hheld.sound r.start.1 hopen
    intro hfirst
    exact hne (by rw [hfirst]; rfl)

end Run

end Managed

end UniDERP.Relay
