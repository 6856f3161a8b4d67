import UniDERP.Node.Control

namespace UniDERP.Node

section Database

variable {E : Env} {db db' : DB} {key : Bytes} {b : String} {F G : EnrollmentRequest → Prop}
  {t t' : Int} {id : String} {a : Commit}

/-- The node is not another instance's after `t`: no other holds a lease then, and none of the
requests `F` can make it another's. -/
structure Free (E : Env) (db : DB) (key : Bytes) (b : String) (F : EnrollmentRequest → Prop)
    (t : Int) (id : String) : Prop where
  lease : ∀ n, db.nodes.get? id = some n → n.publicKey = some key → n.state ≠ .pending →
    n.instanceID = b ∨ n.leaseUntil ≤ unix t
  left : ∀ p, F p → p.challenge.nodeID = id → Dead E db p.challenge ∨
    ∀ n, db.nodes.get? id = some n → n.state ≠ .pending

theorem unix_mono (h : t ≤ t') : unix t ≤ unix t' := by
  unfold unix second
  omega

theorem Free.mono (h : Free E db key b F t id) (ht : t ≤ t') (hF : ∀ p, G p → F p) :
    Free E db key b G t' id where
  lease n hn hkey hstate := (h.lease n hn hkey hstate).imp_right fun hl => hl.trans (unix_mono ht)
  left p hp := h.left p (hF p hp)

/-- What a transaction may be asked in the name of the key, while `b` runs and `F` are the requests
of other instances. -/
structure Asked (E : Env) (db : DB) (key : Bytes) (b : String) (F : EnrollmentRequest → Prop)
    (a : Commit) : Prop where
  enroll : ∀ req token box, a.op = .enrollCommit req token box →
    (Request.enroll req).proves E db key a.clock → req.challenge.instanceID = b ∨ F req
  renew : ∀ ch sig token, a.op = .renewNodeSession ch sig token →
    (Request.renew ch sig).proves E db key a.clock →
    ch.instanceID = b ∧ ∃ t ≤ a.clock.read 2, Free E db key b F t ch.nodeID
  heartbeat : ∀ token report, a.op = .nodeHeartbeat token report →
    (Request.heartbeat token).proves E db key a.clock → TokenOf E db token b

theorem enroll_proves {now now' : Int} {req : EnrollmentRequest} {c : Clock}
    (h : Usable E now now' req.challenge req.signature db)
    (hkey : req.challenge.publicKey = key) : (Request.enroll req).proves E db key c := by
  have hverified := h.verified
  rw [hkey] at hverified
  simp [Request.proves, hkey, hverified]

theorem renew_proves {now now' : Int} {ch : NodeChallenge} {sig : Bytes} {c : Clock}
    (h : Usable E now now' ch sig db) (hkey : ch.publicKey = key) :
    (Request.renew ch sig).proves E db key c := by
  have hverified := h.verified
  rw [hkey] at hverified
  simp [Request.proves, hkey, hverified]

theorem heartbeat_proves {c : Clock} {token : String} {s : NodeSessionRow} {n : UniDERP.Node}
    (h : db.liveSession E (c.read 0) token = some (s, n)) (hkey : n.publicKey = some key) :
    (Request.heartbeat token).proves E db key c := by
  simp [Request.proves, h, hkey]

theorem Asked.not_refused (h : Asked E db key b F a) {ch : NodeChallenge} {sig : Bytes}
    {token : Token} {n : UniDERP.Node} (hop : a.op = .renewNodeSession ch sig token)
    (husable : Usable E (a.clock.read 0) (a.clock.read 1) ch sig db)
    (hn : db.nodes.get? ch.nodeID = some n) (hstate : n.state ≠ .pending)
    (hkey : n.publicKey = some key) (hch : ch.publicKey = key)
    (hother : n.instanceID ≠ ch.instanceID) :
    n.leaseUntil ≤ unix (a.clock.read 2) := by
  obtain ⟨rfl, t, ht, hfree⟩ := h.renew ch sig token hop (renew_proves husable hch)
  rcases hfree.lease n hn hkey hstate with hown | hout
  · exact absurd hown hother
  · exact hout.trans (unix_mono ht)

def Unopposed (db : DB) (key : Bytes) : Prop :=
  ∀ id n, db.nodes.get? id = some n → n.publicKey = some key → n.state ≠ .identityConflict

theorem Unopposed.step (h : Unopposed db key) (hstep : Step E db a db')
    (hasked : Asked E db key b F a) : Unopposed db' key := by
  intro id n hn hkey hconflict
  cases Step.tenure hstep hn with
  | kept before _ _ same _ conflict => exact h id _ before (same ▸ hkey) (conflict hconflict)
  | vacant pending => cases pending.symm.trans hconflict
  | enrolled _ _ _ _ _ _ _ _ state => cases state.symm.trans hconflict
  | renewed _ _ _ _ _ _ state => exact state.2 hconflict
  | refused call nodeID usable before state other leased _ key same _ =>
    subst nodeID
    rw [same] at hkey
    have hch := Option.some.inj (key.symm.trans hkey)
    exact absurd leased (hasked.not_refused call usable before state hkey hch other).not_gt
  | recovered _ _ _ _ state => cases state.symm.trans hconflict
  | heard _ session nodeID _ _ same state =>
    obtain ⟨-, hm, -⟩ := liveSession_eq_some.mp session
    exact h _ _ hm (same ▸ hkey) (state ▸ hconflict)

theorem pending_origin (hstep : Step E db a db') {n : UniDERP.Node}
    (hn : db'.nodes.get? id = some n) (hpending : n.state = .pending) :
    (∃ n₀, db.nodes.get? id = some n₀ ∧ n₀.state = .pending) ∨ Swept db' id := by
  cases Step.tenure hstep hn with
  | kept before _ _ _ pending => exact .inl ⟨_, before, pending.mp hpending⟩
  | vacant _ swept => exact .inr swept
  | enrolled _ _ _ _ _ _ _ _ state => cases state.symm.trans hpending
  | renewed _ _ _ _ _ _ state => exact absurd hpending state.1
  | refused _ _ _ _ _ _ _ _ _ _ conflict => cases conflict.symm.trans hpending
  | recovered _ _ _ _ state => cases state.symm.trans hpending
  | heard _ session nodeID _ _ _ state =>
    obtain ⟨-, hm, -⟩ := liveSession_eq_some.mp session
    subst nodeID
    exact .inl ⟨_, hm, state ▸ hpending⟩

theorem Free.step (h : Free E db key b F t id) (hstep : Step E db a db')
    (hasked : Asked E db key b F a) (hunopposed : Unopposed db key)
    (hdrawn : ∀ p, F p → p.challenge.nonce ∉ a.op.randomTokens) : Free E db' key b F t id where
  lease n hn hkey hstate := by
    cases Step.tenure hstep hn with
    | kept before instance_ lease same pending =>
      rw [instance_, lease]
      exact h.lease _ before (same ▸ hkey) fun hp => hstate (pending.mpr hp)
    | vacant pending => exact absurd pending hstate
    | enrolled call nodeID before pending usable instance_ _ key =>
      rw [instance_]
      have hreq := Option.some.inj (key.symm.trans hkey)
      rcases hasked.enroll _ _ _ call (enroll_proves usable hreq) with hown | hleft
      · exact .inl hown
      -- What another instance has left is dead, or comes to a node that is not pending.
      · rcases h.left _ hleft nodeID with hdead | hbound
        · exact absurd hdead usable.not_dead
        · exact absurd pending (hbound _ before)
    | renewed call _ usable instance_ _ key =>
      have hch := Option.some.inj (key.symm.trans hkey)
      exact .inl (instance_.trans (hasked.renew _ _ _ call (renew_proves usable hch)).1)
    | refused call nodeID usable before state other leased _ key same _ =>
      subst nodeID
      rw [same] at hkey
      have hch := Option.some.inj (key.symm.trans hkey)
      exact absurd leased (hasked.not_refused call usable before state hkey hch other).not_gt
    | recovered before conflict same => exact absurd conflict (hunopposed _ _ before (same ▸ hkey))
    | heard call session _ instance_ _ same =>
      obtain ⟨hrow, -, -, hsame, -⟩ := liveSession_eq_some.mp session
      have htoken := hasked.heartbeat _ _ call (heartbeat_proves session (same ▸ hkey))
      exact .inl (instance_.trans (hsame.symm.trans (htoken _ hrow)))
  left p hp hid := by
    rcases h.left p hp hid with hdead | hbound
    · exact .inl (Step.dead hstep hdead (hdrawn p hp))
    · by_cases hpending : ∃ n, db'.nodes.get? id = some n ∧ n.state = .pending
      · obtain ⟨n, hn, hstate⟩ := hpending
        rcases pending_origin hstep hn hstate with ⟨n₀, hn₀, hstate₀⟩ | hswept
        · exact absurd hstate₀ (hbound n₀ hn₀)
        · exact .inl (.of_swept (hid ▸ hswept))
      · exact .inr fun n hn hstate => hpending ⟨n, hn, hstate⟩

def Leased (db : DB) (now : Int) : Prop :=
  ∀ id n, db.nodes.get? id = some n → n.state ≠ .pending → n.leaseUntil ≤ unix (now + 90 * second)

theorem Leased.step {now : Int} (h : Leased db now) (hstep : Step E db a db')
    (htime : ∀ i < 16, a.clock.read i ≤ now) : Leased db' now := by
  have hnew : ∀ i < 16, unix (a.clock.read i + 90 * second) ≤ unix (now + 90 * second) :=
    fun i hi => unix_mono (Int.add_le_add_right (htime i hi) _)
  intro id n hn hstate
  cases Step.tenure hstep hn with
  | kept before _ lease _ pending =>
    rw [lease]
    exact h id _ before fun hp => hstate (pending.mpr hp)
  | vacant pending => exact absurd pending hstate
  | enrolled _ _ _ _ _ _ lease => exact lease ▸ hnew 4 (by omega)
  | renewed _ _ _ _ lease => exact lease ▸ hnew 4 (by omega)
  | refused _ _ _ before state _ _ lease => exact lease ▸ h id _ before state
  | recovered _ _ _ lease => exact lease ▸ hnew 0 (by omega)
  | heard _ _ _ _ lease => exact lease ▸ hnew 1 (by omega)

end Database

/-- The session that `RunControl` has read. -/
def ControlPhase.session : ControlPhase → Option NodeSession
  | .waiting s _ | .ready s | .connected s => some s
  | _ => none

namespace Site

def instanceID (σ : Site) : String := σ.client.instanceID.getD ""

def Requested (σ : Site) (p : EnrollmentRequest) : Prop :=
  σ.client.saved.pending = some p ∨ ∃ t, (.enroll p, t) ∈ σ.sent

def Foreign (σ : Site) (p : EnrollmentRequest) : Prop :=
  p.challenge.instanceID ≠ σ.instanceID ∧ σ.Requested p

def Free (σ : Site) (E : Env) (t : Int) (id : String) : Prop :=
  Node.Free E σ.world.db σ.client.publicKey σ.instanceID σ.Foreign t id

def Owns (σ : Site) (E : Env) (token : String) : Prop :=
  token ∈ σ.drawn ∧ TokenOf E σ.world.db token σ.instanceID

structure Enrolled (σ : Site) (E : Env) (p : EnrollmentRequest) (s : NodeSession) : Prop where
  drawn : s.token ∈ σ.drawn
  token : TokenOf E σ.world.db s.token p.challenge.instanceID
  known : p.challenge.publicKey = σ.client.publicKey →
    p.challenge.instanceID ∈ σ.instances ∧ p.challenge.nonce ∈ σ.drawn
  dead : p.challenge.publicKey = σ.client.publicKey → Dead E σ.world.db p.challenge
  free : p.challenge.publicKey = σ.client.publicKey → p.challenge.instanceID = σ.instanceID →
    σ.Free E σ.now p.challenge.nodeID

/-- What a session that the process holds tells it: its node is free, or nothing that an earlier
process has asked for can still happen. -/
structure Holds (σ : Site) (E : Env) (s : NodeSession) : Prop where
  known : s.instanceID ∈ σ.instances
  own : s.instanceID = σ.instanceID → σ.Owns E s.token ∧ σ.Free E σ.now s.nodeID
  foreign : s.instanceID ≠ σ.instanceID → ∀ p, σ.Foreign p → Dead E σ.world.db p.challenge

/-- What `RunControl` relies on, where it is, with the registration `r`. -/
structure Runs (σ : Site) (E : Env) (r : NodeRegistration) (k : Control) : Prop where
  loaded : k.phase ≠ .loop → k.loaded
  pending : k.loaded → ∀ p, r.pending = some p → p.challenge.instanceID = σ.instanceID
  session : k.loaded → (∀ s w, k.phase ≠ .waiting s w) →
    ∀ s, r.session = some s → σ.Free E σ.now s.nodeID
  waiting : ∀ s w, k.phase = .waiting s w → ∀ id, σ.Free E w id
  read : ∀ s, k.phase.session = some s → s.instanceID = σ.instanceID → σ.Owns E s.token
  connected : ∀ s, k.phase = .connected s → s.instanceID = σ.instanceID

structure Invariant (σ : Site) (E : Env) : Prop where
  valid : σ.client.Valid
  fresh : ∀ b ∈ σ.instances, validToken b
  running : ∀ b, σ.client.instanceID = some b → b ∈ σ.instances
  leased : Leased σ.world.db σ.now
  unopposed : Unopposed σ.world.db σ.client.publicKey
  issued : ∀ ch ∈ σ.issued, ch.nonce ∈ σ.drawn
  receipted : ∀ p s, Receipted E σ.world.db p s → (.enroll p, s) ∈ σ.answers
  enrolled : ∀ p s, (.enroll p, s) ∈ σ.answers → σ.Enrolled E p s
  renewed : ∀ ch sig s, (.renew ch sig, s) ∈ σ.answers →
    s.token ∈ σ.drawn ∧ TokenOf E σ.world.db s.token ch.instanceID
  requested : ∀ p, σ.Requested p → p.challenge.publicKey = σ.client.publicKey ∧
    p.challenge.instanceID ∈ σ.instances ∧ p.challenge.nonce ∈ σ.drawn
  one : ∀ p p', σ.Foreign p → σ.Foreign p' → p = p'
  renewals : ∀ ch sig t, (.renew ch sig, t) ∈ σ.sent → ch.publicKey = σ.client.publicKey ∧
    ch.instanceID = σ.instanceID ∧ t ≤ σ.now ∧ σ.Free E t ch.nodeID
  heartbeats : ∀ token t, (.heartbeat token, t) ∈ σ.sent → σ.Owns E token
  session : ∀ s, σ.client.saved.session = some s → σ.Holds E s
  control : ∀ k, σ.control = some k → σ.client.instanceID.isSome ∧ σ.Runs E σ.client.saved k
  renewing : ∀ k ch, σ.control = some k → k.phase = .renew ch →
    ∃ t, (.renew ch (σ.client.sign ch), t) ∈ σ.sent

theorem Invariant.start {E : Env} {σ : Site} (h : Start σ) : σ.Invariant E := by
  obtain ⟨now, publicKey, sign, rfl⟩ := h
  constructor <;> try simp [Leased, Unopposed, DB.empty, Receipted, Foreign, Requested]
  exact ⟨by simp [NodeRegistration.Valid], by simp, by simp, by simp⟩

section Turnover

variable {E : Env} {σ : Site}

/-- When a process ends, and when the next begins: nothing is on its way, and nobody has asked for
anything with the new id. -/
theorem Invariant.turnover (h : σ.Invariant E) {c : EnrollmentClient} {instances : List String}
    (hvalid : c.Valid) (hsaved : c.saved = σ.client.saved)
    (hkey : c.publicKey = σ.client.publicKey) (hnew : c.instanceID.getD "" ∉ σ.instances)
    (hmore : ∀ b ∈ σ.instances, b ∈ instances) (hfresh : ∀ b ∈ instances, validToken b)
    (hrunning : ∀ b, c.instanceID = some b → b ∈ instances) :
    Invariant { σ with client := c, control := none, sent := [], instances } E := by
  have hrequested : ∀ p, Requested { σ with client := c, control := none, sent := [], instances } p →
      σ.client.saved.pending = some p := by
    intro p hp
    rcases hp with hp | ⟨t, hp⟩
    · rw [← hsaved]
      exact hp
    · cases hp
  constructor
  case valid => exact hvalid
  case fresh => exact hfresh
  case running => exact hrunning
  case leased => exact h.leased
  case unopposed => exact hkey ▸ h.unopposed
  case issued => exact h.issued
  case receipted => exact h.receipted
  case renewed => exact h.renewed
  case control => simp
  case renewing => simp
  case renewals => simp
  case heartbeats => simp
  case enrolled =>
    intro p s hs
    have he := h.enrolled p s hs
    refine ⟨he.drawn, he.token, fun hp => ?_, fun hp => he.dead (hp.trans hkey), fun hp hown => ?_⟩
    · obtain ⟨hknown, hdrawn⟩ := he.known (hp.trans hkey)
      exact ⟨hmore _ hknown, hdrawn⟩
    · exact absurd ((he.known (hp.trans hkey)).1) (hown ▸ hnew)
  case requested =>
    intro p hp
    obtain ⟨hpub, hknown, hdrawn⟩ := h.requested p (.inl (hrequested p hp))
    exact ⟨hpub.trans hkey.symm, hmore _ hknown, hdrawn⟩
  case one =>
    intro p p' hp hp'
    exact Option.some.inj ((hrequested p hp.2).symm.trans (hrequested p' hp'.2))
  case session =>
    intro s hs
    rw [show ({ σ with client := c, control := none, sent := [], instances } : Site).client.saved =
      σ.client.saved from hsaved] at hs
    refine ⟨hmore _ (h.session s hs).known, fun hown => ?_, fun _ p hp => ?_⟩
    · exact absurd (h.session s hs).known (hown ▸ hnew)
    · -- A node that holds a session has nothing pending.
      cases hs.symm.trans (h.valid.saved p (hrequested p hp.2)).2

end Turnover

section Evolution

variable {E : Env} {σ σ' : Site}

/-- The controller, or the time, has moved on, and has taken nothing from the node. -/
structure Evolves (E : Env) (σ σ' : Site) : Prop where
  client : σ'.client = σ.client
  control : σ'.control = σ.control
  sent : σ'.sent = σ.sent
  instances : σ'.instances = σ.instances
  now : σ.now ≤ σ'.now
  drawn : ∀ t ∈ σ.drawn, t ∈ σ'.drawn
  dead : ∀ ch, ch.nonce ∈ σ.drawn → Dead E σ.world.db ch → Dead E σ'.world.db ch
  token : ∀ t b, t ∈ σ.drawn → TokenOf E σ.world.db t b → TokenOf E σ'.world.db t b
  free : ∀ t id, σ.Free E t id → σ'.Free E t id

namespace Evolves

theorem instanceID_eq (h : Evolves E σ σ') : σ'.instanceID = σ.instanceID := by
  rw [instanceID, h.client, instanceID]

theorem requested_iff (h : Evolves E σ σ') {p : EnrollmentRequest} :
    σ'.Requested p ↔ σ.Requested p := by
  rw [Requested, h.client, h.sent, Requested]

theorem foreign_iff (h : Evolves E σ σ') {p : EnrollmentRequest} : σ'.Foreign p ↔ σ.Foreign p := by
  rw [Foreign, h.instanceID_eq, h.requested_iff, Foreign]

theorem free_now (h : Evolves E σ σ') {id : String} (hf : σ.Free E σ.now id) :
    σ'.Free E σ'.now id :=
  (h.free _ _ hf).mono h.now fun _ hp => hp

theorem owns (h : Evolves E σ σ') {token : String} (ho : σ.Owns E token) : σ'.Owns E token :=
  ⟨h.drawn _ ho.1, h.instanceID_eq ▸ h.token _ _ ho.1 ho.2⟩

theorem enrolled (h : Evolves E σ σ') {p : EnrollmentRequest} {s : NodeSession}
    (he : σ.Enrolled E p s) : σ'.Enrolled E p s where
  drawn := h.drawn _ he.drawn
  token := h.token _ _ he.drawn he.token
  known hp := by
    rw [h.instances]
    obtain ⟨hknown, hnonce⟩ := he.known (h.client ▸ hp)
    exact ⟨hknown, h.drawn _ hnonce⟩
  dead hp := by
    rw [h.client] at hp
    exact h.dead _ (he.known hp).2 (he.dead hp)
  free hp hown := by
    rw [h.client] at hp
    rw [h.instanceID_eq] at hown
    exact h.free_now (he.free hp hown)

theorem holds (h : Evolves E σ σ') (hi : σ.Invariant E) {s : NodeSession} (hs : σ.Holds E s) :
    σ'.Holds E s where
  known := h.instances ▸ hs.known
  own hown := by
    obtain ⟨howns, hfree⟩ := hs.own (h.instanceID_eq ▸ hown)
    exact ⟨h.owns howns, h.free_now hfree⟩
  foreign hother p hp := by
    rw [h.instanceID_eq] at hother
    rw [h.foreign_iff] at hp
    exact h.dead _ (hi.requested p hp.2).2.2 (hs.foreign hother p hp)

theorem runs (h : Evolves E σ σ') {r : NodeRegistration} {k : Control} (hk : σ.Runs E r k) :
    σ'.Runs E r k where
  loaded := hk.loaded
  pending := by
    rw [h.instanceID_eq]
    exact hk.pending
  session hloaded hwait s hs := h.free_now (hk.session hloaded hwait s hs)
  waiting s w hw id := h.free _ _ (hk.waiting s w hw id)
  read s hs hown := h.owns (hk.read s hs (h.instanceID_eq ▸ hown))
  connected := by
    rw [h.instanceID_eq]
    exact hk.connected

/-- What is left to show of a step of the controller is what it has answered. -/
theorem invariant (h : Evolves E σ σ') (hi : σ.Invariant E)
    (hleased : Leased σ'.world.db σ'.now) (hunopposed : Unopposed σ'.world.db σ.client.publicKey)
    (hissued : ∀ ch ∈ σ'.issued, ch.nonce ∈ σ'.drawn)
    (hreceipted : ∀ p s, Receipted E σ'.world.db p s → (.enroll p, s) ∈ σ'.answers)
    (henrolled : ∀ p s, (.enroll p, s) ∈ σ'.answers → σ'.Enrolled E p s)
    (hrenewed : ∀ ch sig s, (.renew ch sig, s) ∈ σ'.answers →
      s.token ∈ σ'.drawn ∧ TokenOf E σ'.world.db s.token ch.instanceID) : σ'.Invariant E where
  valid := h.client ▸ hi.valid
  fresh := h.instances ▸ hi.fresh
  running := by
    rw [h.client, h.instances]
    exact hi.running
  leased := hleased
  unopposed := h.client ▸ hunopposed
  issued := hissued
  receipted := hreceipted
  enrolled := henrolled
  renewed := hrenewed
  requested p hp := by
    obtain ⟨hpub, hknown, hnonce⟩ := hi.requested p (h.requested_iff.mp hp)
    rw [h.client, h.instances]
    exact ⟨hpub, hknown, h.drawn _ hnonce⟩
  one p p' hp hp' := hi.one p p' (h.foreign_iff.mp hp) (h.foreign_iff.mp hp')
  renewals ch sig t ht := by
    obtain ⟨hkey, hown, hle, hfree⟩ := hi.renewals ch sig t (h.sent ▸ ht)
    rw [h.client]
    exact ⟨hkey, hown.trans h.instanceID_eq.symm, hle.trans h.now, h.free _ _ hfree⟩
  heartbeats token t ht := h.owns (hi.heartbeats token t (h.sent ▸ ht))
  session s hs := h.holds hi (hi.session s (h.client ▸ hs))
  control k hk := by
    obtain ⟨hrunning, hruns⟩ := hi.control k (h.control ▸ hk)
    rw [h.client]
    exact ⟨hrunning, h.runs hruns⟩
  renewing := by
    rw [h.client, h.sent, h.control]
    exact hi.renewing

end Evolves

theorem Evolves.pass (σ : Site) (d : ℕ) : Evolves E σ { σ with now := σ.now + d } where
  client := rfl
  control := rfl
  sent := rfl
  instances := rfl
  now := by
    show σ.now ≤ σ.now + d
    omega
  drawn _ h := h
  dead _ _ h := h
  token _ _ _ h := h
  free _ _ h := h

theorem Invariant.pass (h : σ.Invariant E) (d : ℕ) :
    Invariant { σ with now := σ.now + d } E := by
  refine (Evolves.pass σ d).invariant h (fun id n hn hstate => ?_) h.unopposed h.issued h.receipted
    (fun p s hs => (Evolves.pass σ d).enrolled (h.enrolled p s hs)) h.renewed
  refine (h.leased id n hn hstate).trans (unix_mono ?_)
  show σ.now + 90 * second ≤ σ.now + d + 90 * second
  omega

theorem Invariant.asked (h : σ.Invariant E) {a : Commit} (hadmits : σ.admits E a.clock a.op) :
    Asked E σ.world.db σ.client.publicKey σ.instanceID σ.Foreign a where
  enroll req token box hop hproves := by
    obtain ⟨⟨q, t⟩, hx, rfl, -⟩ := hadmits.2.2 (.enroll req) (by rw [hop]; rfl) hproves
    by_cases hown : req.challenge.instanceID = σ.instanceID
    · exact .inl hown
    · exact .inr ⟨hown, .inr ⟨t, hx⟩⟩
  renew ch sig token hop hproves := by
    obtain ⟨⟨q, t⟩, hx, rfl, htime⟩ := hadmits.2.2 (.renew ch sig) (by rw [hop]; rfl) hproves
    obtain ⟨-, hown, -, hfree⟩ := h.renewals ch sig t hx
    exact ⟨hown, t, htime 2 (by omega), hfree⟩
  heartbeat token report hop hproves := by
    obtain ⟨⟨q, t⟩, hx, rfl, -⟩ := hadmits.2.2 (.heartbeat token) (by rw [hop]; rfl) hproves
    exact (h.heartbeats token t hx).2

variable {act : UniDERP.Act} {w : World} {reply : Option Reply} {a : Commit}

theorem Evolves.commit (h : σ.Invariant E)
    (hadmits : σ.admits E a.clock a.op) (hstep : UniDERP.Step E σ.world.db a w.db) :
    Evolves E σ (σ.record act w reply) where
  client := rfl
  control := rfl
  sent := rfl
  instances := rfl
  now := le_rfl
  drawn _ ht := List.mem_append_right _ ht
  dead _ hnonce hdead := Step.dead hstep hdead fun hnew => hadmits.2.1 _ hnew hnonce
  token _ _ ht htoken := Step.tokenOf hstep htoken fun hnew => hadmits.2.1 _ hnew ht
  free _ _ hfree := Node.Free.step hfree hstep (h.asked hadmits) h.unopposed fun p hp hnew =>
    hadmits.2.1 _ hnew (h.requested p hp.2).2.2

theorem Evolves.idle (hdb : w.db = σ.world.db) : Evolves E σ (σ.record act w reply) where
  client := rfl
  control := rfl
  sent := rfl
  instances := rfl
  now := le_rfl
  drawn _ ht := List.mem_append_right _ ht
  dead _ _ hdead := hdb ▸ hdead
  token _ _ _ htoken := hdb ▸ htoken
  free _ _ hfree := by
    show Node.Free E w.db _ _ _ _ _
    rw [hdb]
    exact hfree

theorem Invariant.enrolls (h : σ.Invariant E) (hop : σ.world.op act = some (a.clock, a.op))
    (hadmits : σ.admits E a.clock a.op) (hstep : UniDERP.Step E σ.world.db a w.db)
    {p : EnrollmentRequest} {s : NodeSession} (he : Enrolls σ.world.db a p s) :
    (σ.record act w reply).Enrolled E p s := by
  obtain ⟨htoken, hof, hdead, hnode⟩ := Step.enrolls hstep he
  obtain ⟨expires, hbinds⟩ := Step.binds hstep he
  refine ⟨?_, hof, fun hp => ?_, fun _ => hdead, fun _ hown => ?_⟩
  · simp only [record, hop, Option.elim_some]
    exact List.mem_append_left _ htoken
  · obtain ⟨⟨token, box, hcall⟩, -⟩ := he
    have hproves := enroll_proves (c := a.clock) hbinds.usable hp
    obtain ⟨⟨q, t⟩, hx, rfl, -⟩ := hadmits.2.2 (.enroll p) (by rw [hcall]; rfl) hproves
    obtain ⟨-, hknown, hnonce⟩ := h.requested p (.inr ⟨t, hx⟩)
    exact ⟨hknown, List.mem_append_right _ hnonce⟩
  · exact ⟨fun n hn _ _ => .inl ((hnode n hn).2.trans hown), fun _ _ _ => .inr fun n hn =>
      (hnode n hn).1⟩

theorem mem_answers_record {q : Request} {s : NodeSession} :
    (q, s) ∈ (σ.record act w reply).answers ↔
      Request.ofAct σ.world act = some q ∧ issuedSession reply = some s ∨ (q, s) ∈ σ.answers := by
  simp [record, Option.bind_eq_some_iff]

theorem ofAct_of_op {x : Clock × Op} (hop : σ.world.op act = some x) :
    Request.ofAct σ.world act = Request.ofOp x.2 := by
  cases act <;> simp_all [Request.ofAct, World.op]

theorem Invariant.commit (h : σ.Invariant E) (hop : σ.world.op act = some (a.clock, a.op))
    (hadmits : σ.admits E a.clock a.op) (hstep : UniDERP.Step E σ.world.db a w.db) :
    (σ.record act w (some a.reply)).Invariant E := by
  have hevolves : Evolves E σ (σ.record act w (some a.reply)) := .commit h hadmits hstep
  have hdrawn : ∀ t ∈ a.op.randomTokens, t ∈ (σ.record act w (some a.reply)).drawn := by
    intro t ht
    simp only [record, hop, Option.elim_some]
    exact List.mem_append_left _ ht
  obtain ⟨op, c, reply⟩ := a
  have hrequest : Request.ofAct σ.world act = Request.ofOp op := ofAct_of_op hop
  refine hevolves.invariant h (h.leased.step hstep hadmits.1)
    (h.unopposed.step hstep (h.asked hadmits)) ?_ ?_ ?_ ?_
  · intro ch hch
    simp only [record, List.mem_append, Option.mem_toList] at hch
    rcases hch with hnew | hold
    · cases reply <;> cases hnew
      exact hdrawn _ (Step.issues hstep)
    · exact hevolves.drawn _ (h.issued ch hold)
  · intro p s hr
    rw [mem_answers_record, hrequest]
    rcases Step.receipted hstep hr with hold | ⟨⟨token, box, rfl⟩, rfl, -⟩
    · exact .inr (h.receipted p s hold)
    · exact .inl ⟨rfl, rfl⟩
  · intro p s hs
    rw [mem_answers_record, hrequest] at hs
    rcases hs with ⟨hq, hs⟩ | hold
    · cases op <;> cases hq
      obtain ⟨s', rfl⟩ := Step.enrollment_reply hstep
      cases hs
      rcases Step.answered hstep with he | hr
      · exact h.enrolls hop hadmits hstep he
      · exact hevolves.enrolled (h.enrolled p s (h.receipted p s hr))
    · exact hevolves.enrolled (h.enrolled p s hold)
  · intro ch sig s hs
    rw [mem_answers_record, hrequest] at hs
    rcases hs with ⟨hq, hs⟩ | hold
    · cases op <;> cases hq
      obtain ⟨r, rfl⟩ := Step.renewal_reply hstep
      cases r <;> cases hs
      obtain ⟨htoken, hof⟩ := Step.renews hstep
      exact ⟨hdrawn _ (List.mem_singleton.mpr htoken), hof⟩
    · obtain ⟨htoken, hof⟩ := h.renewed ch sig s hold
      exact ⟨hevolves.drawn _ htoken, hevolves.token _ _ htoken hof⟩

/-- A step that commits nothing: a request may have been answered from its receipt. -/
theorem Invariant.idle (h : σ.Invariant E) (hop : σ.world.op act = none)
    (hdb : w.db = σ.world.db) (hreply : reply = none ∨ ∃ call c p s,
      act = .enrollBegin call c p ∧ reply = some (.session s) ∧ Receipted E σ.world.db p s) :
    (σ.record act w reply).Invariant E := by
  have hevolves : Evolves E σ (σ.record act w reply) := .idle hdb
  have hanswers : ∀ q s, (q, s) ∈ (σ.record act w reply).answers → (q, s) ∈ σ.answers := by
    intro q s hmem
    rcases mem_answers_record.mp hmem with ⟨hq, hs⟩ | hold
    · rcases hreply with rfl | ⟨call, c, p, s', rfl, rfl, hr⟩
      · cases hs
      · cases hq
        cases hs
        exact h.receipted p s hr
    · exact hold
  refine hevolves.invariant h ?_ ?_ (fun ch hch => ?_) (fun p s hr => ?_)
    (fun p s hs => hevolves.enrolled (h.enrolled p s (hanswers _ _ hs))) fun ch sig s hs => ?_
  · show Leased w.db σ.now
    rw [hdb]
    exact h.leased
  · show Unopposed w.db _
    rw [hdb]
    exact h.unopposed
  · simp only [record, List.mem_append, Option.mem_toList] at hch
    rcases hch with hnew | hold
    · rcases hreply with rfl | ⟨call, c, p, s', rfl, rfl, hr⟩ <;> cases hnew
    · exact hevolves.drawn _ (h.issued ch hold)
  · refine mem_answers_record.mpr (.inr (h.receipted p s ?_))
    rw [← hdb]
    exact hr
  · obtain ⟨htoken, hof⟩ := h.renewed ch sig s (hanswers _ _ hs)
    exact ⟨hevolves.drawn _ htoken, hevolves.token _ _ htoken hof⟩

theorem Invariant.controller (h : σ.Invariant E)
    (hadmits : ∀ x ∈ σ.world.op act, σ.admits E x.1 x.2)
    (hstep : σ.world.step E act = some (w, reply)) : (σ.record act w reply).Invariant E := by
  rcases World.step_answers hstep with ⟨a, hop, rfl, ha⟩ | ⟨hop, hdb, hreply⟩
  · exact h.commit hop (hadmits _ hop) ha
  · refine h.idle hop hdb (hreply.imp_right fun ⟨call, c, p, s, hact, hs, hcheck⟩ => ?_)
    exact ⟨call, c, p, s, hact, hs, receipted_of_check hcheck⟩

end Evolution

end Site
end UniDERP.Node
