import UniDERP.Node.Asking

namespace UniDERP.Node

namespace EnrollmentClient

variable {c c' : EnrollmentClient} {a : ClientAct}

/-- What `Enroll` and `ClearRegistration` write. -/
inductive Writes (c : EnrollmentClient) : ClientAct → NodeRegistration → Prop
  | nothing {a : ClientAct} : Writes c a c.saved
  | request {ch : NodeChallenge} {now : ℕ → Int} {code : String}
      (valid : c.validChallenge ch .enroll now) :
      Writes c (.challenge ch now true) { c.saved with pending := some ⟨code, ch, c.sign ch⟩ }
  | answer {s : NodeSession} {now : ℕ → Int} {p : EnrollmentRequest}
      (state : c.state.pending = some p) (pending : c.saved.pending = some p)
      (acceptable : acceptable s p.challenge now) :
      Writes c (.session s now true)
        { c.saved with session := some s, domain := p.challenge.domain, pending := none }
  | rejected {now : Int} : Writes c (.reject now true) { c.saved with pending := none }
  | cleared : Writes c (.clear true) {}

theorem saveRegistration_saved {r : NodeRegistration} {written : Bool} {next : Enrolling}
    (h : c.saveRegistration r written next = c') :
    c'.saved = c.saved ∨ written = true ∧ c'.saved = r := by
  cases written
  · exact .inl (h ▸ rfl)
  · exact .inr ⟨rfl, h ▸ rfl⟩

theorem Valid.writes (h : c.Valid) (ha : c.act a = some c') : Writes c a c'.saved := by
  have hsame : ∀ {d : EnrollmentClient}, some d = some c' → d.saved = c.saved →
      Writes c a c'.saved := by
    intro d hc hd
    rw [← Option.some.inj hc, hd]
    exact .nothing
  have hsave : ∀ {r next written}, some (c.saveRegistration r written next) = some c' →
      (written = true → Writes c a r) → Writes c a c'.saved := by
    intro r next written hc hw
    rcases saveRegistration_saved (Option.some.inj hc) with hr | ⟨hwritten, hr⟩
    · rw [hr]
      exact .nothing
    · rw [hr]
      exact hw hwritten
  -- Whatever is written starts from the registration in memory, which is the saved one.
  cases a with
  | start => exact hsame ha rfl
  | stop => exact hsame ha rfl
  | fail => exact hsame ha rfl
  | enroll =>
    rw [EnrollmentClient.act] at ha
    split_ifs at ha
    exact hsame ha rfl
  | challenge ch now written =>
    rw [EnrollmentClient.act] at ha
    split at ha <;> try cases ha
    rename_i code n hphase
    split_ifs at ha with hvalid
    · refine hsave ha fun hwritten => ?_
      rw [h.state (h.challenge code n hphase).1, hwritten]
      exact .request hvalid
    · exact hsame ha rfl
  | session s now written =>
    rw [EnrollmentClient.act] at ha
    split at ha <;> try cases ha
    rename_i n p hphase hpending
    have hstate := h.state (h.session n hphase)
    split_ifs at ha with hacceptable
    · refine hsave ha fun hwritten => ?_
      rw [hwritten]
      exact .answer hpending (hstate ▸ hpending) hacceptable
    · exact hsame ha rfl
  | reject now written =>
    rw [EnrollmentClient.act] at ha
    split at ha <;> try cases ha
    rename_i n p hphase hpending
    rw [h.state (h.session n hphase)] at ha
    split_ifs at ha
    · refine hsave ha fun hwritten => ?_
      rw [hwritten]
      exact .rejected
    · exact hsame ha rfl
  | clear written =>
    rw [EnrollmentClient.act] at ha
    split_ifs at ha
    refine hsave ha fun hwritten => ?_
    rw [hwritten]
    exact .cleared

/-- Only a start and a stop change the process. -/
theorem act_identity (ha : c.act a = some c') : c'.publicKey = c.publicKey ∧ c'.sign = c.sign ∧
    ((∀ i, a ≠ .start i) → a ≠ .stop → c'.instanceID = c.instanceID) := by
  have hsave : ∀ {r next written}, some (c.saveRegistration r written next) = some c' →
      c'.publicKey = c.publicKey ∧ c'.sign = c.sign ∧
      ((∀ i, a ≠ .start i) → a ≠ .stop → c'.instanceID = c.instanceID) := by
    intro r next written hc
    rw [← Option.some.inj hc]
    cases written <;> exact ⟨rfl, rfl, fun _ _ => rfl⟩
  cases a <;> rw [EnrollmentClient.act] at ha
  case start => exact Option.some.inj ha ▸ ⟨rfl, rfl, fun h => absurd rfl (h _)⟩
  case stop => exact Option.some.inj ha ▸ ⟨rfl, rfl, fun _ h => absurd rfl h⟩
  case fail => exact Option.some.inj ha ▸ ⟨rfl, rfl, fun _ _ => rfl⟩
  case enroll =>
    split_ifs at ha
    exact Option.some.inj ha ▸ ⟨rfl, rfl, fun _ _ => rfl⟩
  case clear =>
    split_ifs at ha
    exact hsave ha
  all_goals
    split at ha <;> try cases ha
    split_ifs at ha
    · exact hsave ha
    · exact Option.some.inj ha ▸ ⟨rfl, rfl, fun _ _ => rfl⟩

end EnrollmentClient

namespace Site

section Process

variable {E : Env} {σ : Site} {c : EnrollmentClient} {control : Option Control} {qs : List Request}

def moved (σ : Site) (c : EnrollmentClient) (control : Option Control) (qs : List Request) : Site :=
  { σ with client := c, control, sent := σ.send qs }

/-- The process asks for the enrollment that it found, or for one of its own. -/
structure Moves (σ : Site) (c : EnrollmentClient) (qs : List Request) : Prop where
  key : c.publicKey = σ.client.publicKey
  sign : c.sign = σ.client.sign
  instance_ : c.instanceID = σ.client.instanceID
  asks : ∀ p, c.saved.pending = some p ∨ .enroll p ∈ qs → σ.client.saved.pending = some p ∨
    p.challenge.publicKey = σ.client.publicKey ∧ p.challenge.instanceID = σ.instanceID ∧
      p.challenge.instanceID ∈ σ.instances ∧ p.challenge.nonce ∈ σ.drawn

theorem mem_send {q : Request} {t : Int} :
    (q, t) ∈ σ.send qs ↔ q ∈ qs ∧ t = σ.now ∨ (q, t) ∈ σ.sent := by
  simp only [send, List.mem_append, List.mem_map, Prod.mk.injEq]
  constructor
  · rintro (⟨q', hq, rfl, rfl⟩ | h)
    · exact .inl ⟨hq, rfl⟩
    · exact .inr h
  · rintro (⟨hq, rfl⟩ | h)
    · exact .inl ⟨q, hq, rfl, rfl⟩
    · exact .inr h

namespace Moves

theorem instanceID_eq (h : Moves σ c qs) : (σ.moved c control qs).instanceID = σ.instanceID :=
  congrArg (Option.getD · "") h.instance_

theorem requested (h : Moves σ c qs) {p : EnrollmentRequest}
    (hp : (σ.moved c control qs).Requested p) : σ.Requested p ∨
      p.challenge.publicKey = σ.client.publicKey ∧ p.challenge.instanceID = σ.instanceID ∧
      p.challenge.instanceID ∈ σ.instances ∧ p.challenge.nonce ∈ σ.drawn := by
  rcases hp with hp | ⟨t, ht⟩
  · exact (h.asks p (.inl hp)).imp_left .inl
  · rcases mem_send.mp ht with ⟨hq, -⟩ | hold
    · exact (h.asks p (.inr hq)).imp_left .inl
    · exact .inl (.inr ⟨t, hold⟩)

theorem foreign (h : Moves σ c qs) {p : EnrollmentRequest}
    (hp : (σ.moved c control qs).Foreign p) : σ.Foreign p := by
  obtain ⟨hother, hrequested⟩ := hp
  rw [h.instanceID_eq] at hother
  rcases h.requested hrequested with hold | ⟨-, hown, -⟩
  · exact ⟨hother, hold⟩
  · exact absurd hown hother

theorem free (h : Moves σ c qs) {t : Int} {id : String} (hf : σ.Free E t id) :
    (σ.moved c control qs).Free E t id := by
  unfold Free
  rw [h.instanceID_eq, show (σ.moved c control qs).client.publicKey = _ from h.key]
  exact hf.mono le_rfl fun _ hp => h.foreign hp

theorem owns (h : Moves σ c qs) {token : String} (ho : σ.Owns E token) :
    (σ.moved c control qs).Owns E token :=
  ⟨ho.1, h.instanceID_eq ▸ ho.2⟩

theorem enrolled (h : Moves σ c qs) {p : EnrollmentRequest} {s : NodeSession}
    (he : σ.Enrolled E p s) : (σ.moved c control qs).Enrolled E p s where
  drawn := he.drawn
  token := he.token
  known hp := he.known (hp.trans h.key)
  dead hp := he.dead (hp.trans h.key)
  free hp hown := h.free (he.free (hp.trans h.key) (hown.trans h.instanceID_eq))

theorem holds (h : Moves σ c qs) {s : NodeSession} (hs : σ.Holds E s) :
    (σ.moved c control qs).Holds E s where
  known := hs.known
  own hown := by
    obtain ⟨howns, hfree⟩ := hs.own (hown.trans h.instanceID_eq)
    exact ⟨h.owns howns, h.free hfree⟩
  foreign hother p hp := hs.foreign (h.instanceID_eq ▸ hother) p (h.foreign hp)

theorem runs (h : Moves σ c qs) {r : NodeRegistration} {k : Control} (hk : σ.Runs E r k) :
    (σ.moved c control qs).Runs E r k where
  loaded := hk.loaded
  pending := by
    rw [h.instanceID_eq]
    exact hk.pending
  session hloaded hwait s hs := h.free (hk.session hloaded hwait s hs)
  waiting s w hw id := h.free (hk.waiting s w hw id)
  read s hs hown := h.owns (hk.read s hs (h.instanceID_eq ▸ hown))
  connected := by
    rw [h.instanceID_eq]
    exact hk.connected

/-- What is left to show of a move is what the process sends, and what it relies on. -/
theorem invariant (h : Moves σ c qs) (hi : σ.Invariant E) (hvalid : c.Valid)
    (hrenewals : ∀ ch sig, .renew ch sig ∈ qs → ch.publicKey = σ.client.publicKey ∧
      ch.instanceID = σ.instanceID ∧ σ.Free E σ.now ch.nodeID)
    (hheartbeats : ∀ token, .heartbeat token ∈ qs → σ.Owns E token)
    (hsession : ∀ s, c.saved.session = some s → σ.Holds E s)
    (hcontrol : ∀ k, control = some k → c.instanceID.isSome ∧ σ.Runs E c.saved k)
    (hrenewing : ∀ k ch, control = some k → k.phase = .renew ch →
      .renew ch (σ.client.sign ch) ∈ qs ∨ ∃ t, (.renew ch (σ.client.sign ch), t) ∈ σ.sent) :
    (σ.moved c control qs).Invariant E where
  valid := hvalid
  fresh := hi.fresh
  running b hb := hi.running b (h.instance_.symm.trans hb)
  leased := hi.leased
  unopposed := by
    rw [show (σ.moved c control qs).client.publicKey = _ from h.key]
    exact hi.unopposed
  issued := hi.issued
  receipted := hi.receipted
  enrolled p s hs := h.enrolled (hi.enrolled p s hs)
  renewed := hi.renewed
  requested p hp := by
    rw [show (σ.moved c control qs).client.publicKey = _ from h.key]
    rcases h.requested hp with hold | ⟨hpub, -, hknown, hnonce⟩
    · exact hi.requested p hold
    · exact ⟨hpub, hknown, hnonce⟩
  one p p' hp hp' := hi.one p p' (h.foreign hp) (h.foreign hp')
  renewals ch sig t ht := by
    rw [h.instanceID_eq, show (σ.moved c control qs).client.publicKey = _ from h.key]
    rcases mem_send.mp ht with ⟨hq, rfl⟩ | hold
    · obtain ⟨hkey, hown, hfree⟩ := hrenewals ch sig hq
      exact ⟨hkey, hown, le_rfl, h.free hfree⟩
    · obtain ⟨hkey, hown, hle, hfree⟩ := hi.renewals ch sig t hold
      exact ⟨hkey, hown, hle, h.free hfree⟩
  heartbeats token t ht := by
    rcases mem_send.mp ht with ⟨hq, -⟩ | hold
    · exact h.owns (hheartbeats token hq)
    · exact h.owns (hi.heartbeats token t hold)
  session s hs := h.holds (hsession s hs)
  control k hk := ⟨(hcontrol k hk).1, h.runs (hcontrol k hk).2⟩
  renewing k ch hk hch := by
    rw [show (σ.moved c control qs).client.sign = _ from h.sign]
    rcases hrenewing k ch hk hch with hq | ⟨t, ht⟩
    · exact ⟨σ.now, mem_send.mpr (.inl ⟨hq, rfl⟩)⟩
    · exact ⟨t, mem_send.mpr (.inr ht)⟩

end Moves

theorem posted_saved (hvalid : c.Valid) {q : Request} (h : q ∈ posted c) :
    ∃ p, q = .enroll p ∧ c.saved.pending = some p := by
  unfold posted at h
  split at h
  · rename_i n p hphase hpending
    rw [hvalid.state (hvalid.session n hphase)] at hpending
    exact ⟨p, List.mem_singleton.mp h, hpending⟩
  · cases h

theorem instanceID_of_valid {ch : NodeChallenge} {purpose : Purpose} {now : ℕ → Int}
    (h : σ.client.validChallenge ch purpose now) : ch.publicKey = σ.client.publicKey ∧
      ch.instanceID = σ.instanceID ∧ σ.client.instanceID = some ch.instanceID := by
  simp only [EnrollmentClient.validChallenge, Bool.and_eq_true, decide_eq_true_eq] at h
  obtain ⟨⟨⟨⟨-, hinstance⟩, hkey⟩, -⟩, -⟩ := h
  refine ⟨hkey, ?_, hinstance.symm⟩
  rw [instanceID, ← hinstance, Option.getD_some]

theorem nodeID_of_acceptable {s : NodeSession} {ch : NodeChallenge} {now : ℕ → Int}
    (h : EnrollmentClient.acceptable s ch now) :
    s.nodeID = ch.nodeID ∧ s.instanceID = ch.instanceID := by
  simp only [EnrollmentClient.acceptable, Bool.and_eq_true, decide_eq_true_eq] at h
  obtain ⟨⟨⟨⟨⟨⟨⟨⟨-, hnode⟩, hinstance⟩, -⟩, -⟩, -⟩, -⟩, -⟩, -⟩ := h
  exact ⟨hnode, hinstance⟩

theorem Invariant.holds_answer (h : σ.Invariant E) {p : EnrollmentRequest} {s : NodeSession}
    {now : ℕ → Int} (hp : σ.client.saved.pending = some p) (hs : (.enroll p, s) ∈ σ.answers)
    (hacceptable : EnrollmentClient.acceptable s p.challenge now) : σ.Holds E s := by
  obtain ⟨hnode, hinstance⟩ := nodeID_of_acceptable hacceptable
  obtain ⟨hkey, hknown, -⟩ := h.requested p (.inl hp)
  have he := h.enrolled p s hs
  refine ⟨hinstance ▸ hknown, fun hown => ?_, fun hother q hq => ?_⟩
  · rw [hinstance] at hown
    rw [hnode]
    exact ⟨⟨he.drawn, hown ▸ he.token⟩, he.free hkey hown⟩
  · -- The process has found one request only.
    obtain rfl := h.one q p hq ⟨hinstance ▸ hother, .inl hp⟩
    exact he.dead hkey

theorem Moves.of_client (h : σ.Invariant E) {a : ClientAct} (hmay : σ.mayClient a)
    (ha : σ.client.act a = some c) : Moves σ c (posted c) := by
  obtain ⟨hkey, hsign, hinstance⟩ := EnrollmentClient.act_identity ha
  refine ⟨hkey, hsign, hinstance (fun i hi => ?_) (fun hs => ?_), fun p hp => ?_⟩
  · rw [hi] at hmay
    cases hmay
  · rw [hs] at hmay
    cases hmay
  · replace hp : c.saved.pending = some p := by
      rcases hp with hp | hp
      · exact hp
      · obtain ⟨p', heq, hp'⟩ := posted_saved (h.valid.act ha) hp
        cases heq
        exact hp'
    have hwrites := h.valid.writes ha
    generalize c.saved = r at hwrites hp
    cases hwrites with
    | nothing => exact .inl hp
    | request valid =>
      obtain ⟨hpub, hown, hrunning⟩ := instanceID_of_valid valid
      cases hp
      exact .inr ⟨hpub, hown, h.running _ hrunning, h.issued _ (of_decide_eq_true hmay)⟩
    | answer => cases hp
    | rejected => cases hp
    | cleared => cases hp

theorem Invariant.client (h : σ.Invariant E) {a : ClientAct} (hmay : σ.mayClient a)
    (ha : σ.client.act a = some c) : (σ.moved c σ.control (posted c)).Invariant E := by
  have hmoves := Moves.of_client h hmay ha
  have hvalid := h.valid.act ha
  have hanswer : ∀ {s now p}, a = .session s now true → σ.client.state.pending = some p →
      (.enroll p, s) ∈ σ.answers := by
    intro s now p hact hp
    rw [hact, mayClient, hp] at hmay
    exact of_decide_eq_true hmay
  refine hmoves.invariant h hvalid (fun ch sig hq => ?_) (fun token hq => ?_) (fun s hs => ?_)
    (fun k hk => ⟨hmoves.instance_ ▸ (h.control k hk).1, ?_⟩)
    fun k ch hk hch => .inr (h.renewing k ch hk hch)
  · obtain ⟨p, hp, -⟩ := posted_saved hvalid hq
    cases hp
  · obtain ⟨p, hp, -⟩ := posted_saved hvalid hq
    cases hp
  · have hwrites := h.valid.writes ha
    generalize c.saved = r at hwrites hs
    cases hwrites with
    | nothing => exact h.session s hs
    | request => exact h.session s hs
    | answer state pending acceptable =>
      cases hs
      exact h.holds_answer pending (hanswer rfl state) acceptable
    | rejected => exact h.session s hs
    | cleared => cases hs
  · have hruns := (h.control k hk).2
    refine ⟨hruns.loaded, fun hloaded p hp => ?_, fun hloaded hwait s hs => ?_, hruns.waiting,
      hruns.read, hruns.connected⟩
    · rcases hmoves.asks p (.inl hp) with hold | ⟨-, hown, -⟩
      · exact hruns.pending hloaded p hold
      · exact hown
    · have hwrites := h.valid.writes ha
      generalize c.saved = r at hwrites hs
      cases hwrites with
      | nothing => exact hruns.session hloaded hwait s hs
      | request => exact hruns.session hloaded hwait s hs
      | answer state pending acceptable =>
        cases hs
        obtain ⟨-, hinstance⟩ := nodeID_of_acceptable acceptable
        have hown := hinstance.trans (hruns.pending hloaded _ pending)
        exact ((h.holds_answer pending (hanswer rfl state) acceptable).own hown).2
      | rejected => exact hruns.session hloaded hwait s hs
      | cleared => cases hs

variable {k k' : Control} {r : NodeRegistration} {s : NodeSession}

theorem Runs.again (h : σ.Runs E r k) (hwait : ∀ s w, k.phase ≠ .waiting s w) :
    σ.Runs E r k.again where
  loaded hp := absurd rfl hp
  pending := h.pending
  session hloaded _ := h.session hloaded hwait
  waiting _ _ hp := by cases hp
  read _ hp := by cases hp
  connected _ hp := by cases hp

theorem Moves.still (σ : Site) : Moves σ σ.client [] :=
  ⟨rfl, rfl, rfl, fun p hp => .inl (by simpa using hp)⟩

theorem Invariant.goes (h : σ.Invariant E) (hk : σ.control = some k)
    (hruns : σ.Runs E σ.client.saved k') (hnot : ∀ ch, k'.phase ≠ .renew ch) :
    (σ.moved σ.client (some k') []).Invariant E := by
  refine (Moves.still σ).invariant h h.valid (by simp) (by simp) h.session (fun k₁ hk₁ => ?_)
    fun k₁ ch hk₁ hch => ?_
  · cases hk₁
    exact ⟨(h.control k hk).1, hruns⟩
  · cases hk₁
    exact absurd hch (hnot ch)

theorem Invariant.state_eq (h : σ.Invariant E) (hk : σ.control = some k) :
    σ.client.state = σ.client.saved :=
  h.valid.state (h.control k hk).1

theorem Invariant.instanceID_eq (h : σ.Invariant E) (hk : σ.control = some k) :
    σ.client.instanceID = some σ.instanceID := by
  obtain ⟨b, hb⟩ := Option.isSome_iff_exists.mp (h.control k hk).1
  rw [instanceID, hb, Option.getD_some]

theorem Invariant.load (h : σ.Invariant E) (hk : σ.control = some k)
    (hphase : k.phase = .loop) (hs : σ.client.saved.session = some s) :
    σ.Runs E σ.client.saved (if k.loaded = false ∧ s.instanceID ≠ "" ∧
      some s.instanceID ≠ σ.client.instanceID
      then { k with loaded := true, phase := .waiting s (σ.now + 90 * second) }
      else { k with loaded := true, phase := .ready s }) := by
  have hholds := h.session s hs
  have hnone : ∀ p, σ.client.saved.pending = some p → p.challenge.instanceID = σ.instanceID := by
    intro p hp
    cases hs.symm.trans (h.valid.saved p hp).2
  have hread : ∀ s', some s = some s' → s'.instanceID = σ.instanceID → σ.Owns E s'.token := by
    intro s' hs' hown
    cases hs'
    exact (hholds.own hown).1
  rw [h.instanceID_eq hk]
  split_ifs with hwait
  · refine ⟨fun _ => rfl, fun _ => hnone, fun _ hw => absurd rfl (hw _ _), ?_, hread, by simp⟩
    intro s' w hw id
    cases hw
    have hother : s.instanceID ≠ σ.instanceID := fun hown => hwait.2.2 (congrArg some hown)
    exact ⟨fun n hn _ hstate => .inr (h.leased id n hn hstate), fun p hp _ =>
      .inl (hholds.foreign hother p hp)⟩
  · refine ⟨fun _ => rfl, fun _ => hnone, fun _ _ s' hs' => ?_, by simp, hread, by simp⟩
    cases hs.symm.trans hs'
    by_cases hloaded : k.loaded
    · exact (h.control k hk).2.session hloaded (by simp [hphase]) s hs
    · -- No process has the empty id, so the session is the process's own.
      have hempty : s.instanceID ≠ "" := by
        intro hempty
        have hvalid : validToken "" := hempty ▸ h.fresh _ hholds.known
        exact absurd hvalid (by decide)
      have hown : s.instanceID = σ.instanceID := by
        by_contra hother
        exact hwait ⟨by simpa using hloaded, hempty, fun heq => hother (Option.some.inj heq)⟩
      exact (hholds.own hown).2

/-- A renewal is asked for a node that is free. -/
theorem Invariant.renews (h : σ.Invariant E) (hk : σ.control = some k)
    (hphase : k.phase = .challenge) (hs : σ.client.saved.session = some s)
    {ch : NodeChallenge} {clock : ℕ → Int}
    (hvalid : σ.client.validRenewal s ch clock) :
    (σ.moved σ.client (some { k with phase := .renew ch })
      [.renew ch (σ.client.sign ch)]).Invariant E := by
  have hruns := (h.control k hk).2
  have hloaded := hruns.loaded (by simp [hphase])
  have hfree := hruns.session hloaded (by simp [hphase])
  simp only [EnrollmentClient.validRenewal, Bool.and_eq_true, Bool.or_eq_true,
    decide_eq_true_eq] at hvalid
  obtain ⟨⟨hvalid, hnode⟩, -⟩ := hvalid
  obtain ⟨hkey, hown⟩ : ch.publicKey = σ.client.publicKey ∧ ch.instanceID = σ.instanceID := by
    rcases hvalid with hvalid | hvalid
    · exact (instanceID_of_valid hvalid.1).imp_right And.left
    · exact (instanceID_of_valid hvalid).imp_right And.left
  have hmoves : Moves σ σ.client [.renew ch (σ.client.sign ch)] :=
    ⟨rfl, rfl, rfl, fun p hp => .inl (by simpa using hp)⟩
  refine hmoves.invariant h h.valid (fun ch' sig hq => ?_) (by simp) h.session (fun k₁ hk₁ => ?_)
    fun k₁ ch' hk₁ hch' => ?_
  · cases List.mem_singleton.mp hq
    exact ⟨hkey, hown, hnode ▸ hfree s hs⟩
  · cases hk₁
    exact ⟨(h.control k hk).1, fun _ => hloaded, hruns.pending, fun _ _ => hfree, by simp,
      by simp [ControlPhase.session], by simp⟩
  · cases hk₁
    cases hch'
    exact .inl (List.mem_singleton.mpr rfl)

theorem Invariant.renewal (h : σ.Invariant E) (hk : σ.control = some k) {ch : NodeChallenge}
    (hphase : k.phase = .renew ch) {clock : ℕ → Int}
    (hs : (.renew ch (σ.client.sign ch), s) ∈ σ.answers)
    (hacceptable : EnrollmentClient.acceptable s ch clock) :
    s.instanceID = σ.instanceID ∧ σ.Holds E s := by
  obtain ⟨hnode, hinstance⟩ := nodeID_of_acceptable hacceptable
  obtain ⟨t, ht⟩ := h.renewing k ch hk hphase
  obtain ⟨-, hown, hle, hfree⟩ := h.renewals ch _ t ht
  obtain ⟨hdrawn, hof⟩ := h.renewed ch _ s hs
  rw [hinstance, hown]
  refine ⟨rfl, ?_, fun _ => ?_, fun hother => absurd (hinstance.trans hown) hother⟩
  · rw [hinstance, hown]
    exact h.running _ (h.instanceID_eq hk)
  · rw [hnode]
    exact ⟨⟨hdrawn, hown ▸ hof⟩, hfree.mono hle fun _ hp => hp⟩

theorem Invariant.accept (h : σ.Invariant E) (hk : σ.control = some k) {ch : NodeChallenge}
    (hphase : k.phase = .renew ch) {clock : ℕ → Int}
    (hs : (.renew ch (σ.client.sign ch), s) ∈ σ.answers)
    (hacceptable : EnrollmentClient.acceptable s ch clock) :
    (σ.moved (σ.client.saveRegistration { domain := ch.domain, session := some s } true .idle)
      (some { k with renewRequired := false, phase := .connected s }) []).Invariant E := by
  obtain ⟨hrunning, hruns⟩ := h.control k hk
  obtain ⟨hown, hholds⟩ := h.renewal hk hphase hs hacceptable
  have hmoves : Moves σ
      (σ.client.saveRegistration { domain := ch.domain, session := some s } true .idle) [] := by
    refine ⟨rfl, rfl, rfl, fun p hp => ?_⟩
    simp [EnrollmentClient.saveRegistration] at hp
  have hvalid : (σ.client.saveRegistration { domain := ch.domain, session := some s } true
      .idle).Valid := h.valid.save true hrunning (by simp [NodeRegistration.Valid]) (by simp)
  refine hmoves.invariant h hvalid (by simp) (by simp) (fun s' hs' => ?_)
    (fun k₁ hk₁ => ?_) fun k₁ ch' hk₁ hch' => ?_
  · cases hs'
    exact hholds
  · cases hk₁
    refine ⟨hrunning, fun _ => hruns.loaded (by simp [hphase]), fun _ p hp => ?_,
      fun _ _ s' hs' => ?_, by simp, fun s' hs' _ => ?_, fun s' hs' => ?_⟩
    · cases hp
    · cases hs'
      exact (hholds.own hown).2
    · cases hs'
      exact (hholds.own hown).1
    · cases hs'
      exact hown
  · cases hk₁
    cases hch'

/-- A heartbeat's answer changes only the lease in the file. -/
theorem Invariant.hears (h : σ.Invariant E) (hk : σ.control = some k)
    (hphase : k.phase = .connected s) (lease : Int) :
    (σ.moved (σ.client.saveRegistration { σ.client.saved with
      session := σ.client.saved.session.map fun s => { s with leaseUntil := lease } } true .idle)
      (some k) []).Invariant E := by
  obtain ⟨hrunning, hruns⟩ := h.control k hk
  have hmoves : Moves σ (σ.client.saveRegistration { σ.client.saved with
      session := σ.client.saved.session.map fun s => { s with leaseUntil := lease } } true .idle)
      [] := by
    refine ⟨rfl, rfl, rfl, fun p hp => .inl ?_⟩
    simpa [EnrollmentClient.saveRegistration] using hp
  refine hmoves.invariant h (h.valid.save true hrunning (fun p hp => ?_) (by simp)) (by simp)
    (by simp) (fun s' hs' => ?_) (fun k₁ hk₁ => ?_) fun k₁ ch hk₁ hch => ?_
  · obtain ⟨hcode, hnone⟩ := h.valid.saved p hp
    exact ⟨hcode, by simp [hnone]⟩
  · obtain ⟨s₀, hs₀, rfl⟩ := Option.map_eq_some_iff.mp hs'
    obtain ⟨hknown, hown, hforeign⟩ := h.session s₀ hs₀
    exact ⟨hknown, hown, hforeign⟩
  · cases hk₁
    refine ⟨hrunning, hruns.loaded, hruns.pending, fun hloaded hwait s' hs' => ?_, hruns.waiting,
      hruns.read, hruns.connected⟩
    obtain ⟨s₀, hs₀, rfl⟩ := Option.map_eq_some_iff.mp hs'
    exact hruns.session hloaded hwait s₀ hs₀
  · cases hk₁
    cases hphase.symm.trans hch

theorem Invariant.act (h : σ.Invariant E) (hk : σ.control = some k) {a : ControlAct}
    (hmay : σ.mayControl k a) (ha : k.act σ.client σ.now a = some (k', c, qs)) :
    (σ.moved c (some k') qs).Invariant E := by
  have hruns := (h.control k hk).2
  have hagain : (∀ s w, k.phase ≠ .waiting s w) →
      (σ.moved σ.client (some k.again) []).Invariant E :=
    fun hwait => h.goes hk (hruns.again hwait) (by simp [Control.again])
  have hstate := h.state_eq hk
  cases a with
  | load =>
    rw [Control.act] at ha
    split at ha <;> try cases ha
    rename_i s hphase hs
    have hload := h.load hk hphase (hstate ▸ hs)
    split_ifs at ha hload <;> cases ha <;> exact h.goes hk hload (by simp)
  -- The wait is over, so the lease of the earlier process is too.
  | wake =>
    rw [Control.act] at ha
    split at ha <;> try cases ha
    rename_i s w hphase
    split_ifs at ha with hover
    cases ha
    refine h.goes hk ⟨fun _ => hruns.loaded (by simp [hphase]), hruns.pending, fun _ _ s' _ => ?_,
      by simp, fun s' hs' => hruns.read s' (by rw [hphase]; exact hs'), by simp⟩ (by simp)
    exact (hruns.waiting s w hphase s'.nodeID).mono hover fun _ hp => hp
  | choose clock =>
    rw [Control.act] at ha
    split at ha <;> try cases ha
    rename_i s hphase
    have hloaded := hruns.loaded (by simp [hphase])
    have hfree := hruns.session hloaded (by simp [hphase])
    split_ifs at ha with hrenew hidle hnone <;> cases ha
    · exact hagain (by simp [hphase])
    · exact h.goes hk ⟨fun _ => hloaded, hruns.pending, fun _ _ => hfree, by simp,
        by simp [ControlPhase.session], by simp⟩ (by simp)
    · push Not at hrenew
      have hown : s.instanceID = σ.instanceID :=
        Option.some.inj (hrenew.2.1.trans (h.instanceID_eq hk))
      refine h.goes hk ⟨fun _ => hloaded, hruns.pending, fun _ _ => hfree, by simp,
        fun s' hs' => hruns.read s' (by rw [hphase]; exact hs'), fun s' hs' => ?_⟩ (by simp)
      cases hs'
      exact hown
  | challenge ch clock =>
    rw [Control.act] at ha
    split at ha <;> try cases ha
    rename_i s hphase hs
    split_ifs at ha with hvalid <;> cases ha
    · exact h.renews hk hphase (hstate ▸ hs) hvalid
    · exact hagain (by simp [hphase])
  | session s clock written =>
    rw [Control.act] at ha
    split at ha <;> try cases ha
    rename_i ch hphase
    rw [mayControl, hphase] at hmay
    split_ifs at ha with haccept <;> cases ha
    · exact h.accept hk hphase (of_decide_eq_true hmay) haccept.1
    · exact hagain (by simp [hphase])
  | heartbeat clock =>
    rw [Control.act] at ha
    split at ha <;> try cases ha
    rename_i s hphase
    split_ifs at ha <;> cases ha
    · have hmoves : Moves σ σ.client [.heartbeat s.token] :=
        ⟨rfl, rfl, rfl, fun p hp => .inl (by simpa using hp)⟩
      refine hmoves.invariant h h.valid (by simp) (fun token hq => ?_) h.session
        (fun k₁ hk₁ => h.control k₁ (hk.trans hk₁)) fun k₁ ch hk₁ hch => .inr (h.renewing k₁ ch
          (hk.trans hk₁) hch)
      cases List.mem_singleton.mp hq
      exact hruns.read s (by rw [hphase]; rfl) (hruns.connected s hphase)
    · exact hagain (by simp [hphase])
  | heard r written =>
    rw [Control.act] at ha
    split at ha <;> try cases ha
    rename_i s hphase
    split_ifs at ha <;> cases ha
    · rw [hstate]
      exact h.hears hk hphase r.leaseUntil
    · exact hagain (by simp [hphase])
  | reject =>
    rw [Control.act] at ha
    split at ha <;> cases ha
    rename_i s hphase
    have hnext := hruns.again (by simp [hphase])
    exact h.goes hk ⟨hnext.loaded, hnext.pending, hnext.session, hnext.waiting, hnext.read,
      hnext.connected⟩ (by simp [Control.again])
  | fail =>
    rw [Control.act] at ha
    split at ha <;> cases ha <;> rename_i hphase <;> exact hagain (by simp [hphase])

end Process

namespace Restarted

def cluster : String := First.token '9'

noncomputable def env : Env := { Env.plain with clusterID := cluster }

def later : Clock := .still (1090 * second) (by decide) (by decide)

def before : String := First.token '4'
def after : String := First.token '5'
def nonce : Token := ⟨First.token '6', First.token_valid rfl⟩
def session : Token := ⟨First.token '7', First.token_valid rfl⟩

def node : Site where
  now := 1000 * second
  client := { publicKey := First.publicKey, sign := fun _ => First.signature }

def enrollment : EnrollmentRequest where
  code := First.code.text
  challenge := { First.challenge with clusterID := cluster, instanceID := before }
  signature := First.signature

def renewal : NodeChallenge where
  purpose := .session
  clusterID := cluster
  nodeID := First.node.text
  domain := "relay.example"
  nonce := nonce.text
  expiresAt := .utc (1210 * second)
  publicKey := First.publicKey
  instanceID := after

/-- A node enrolls and its process dies.  The next one waits for ninety seconds and asks for a
renewal. -/
def restarting : List Act := [
  .controller (.commit First.clock (.initializeAdmin "admin" "a long password" First.owner "hash")),
  .controller (.commit First.clock
    (.createNode First.admin "relay" "relay.example" 443 3478 First.node First.code)),
  .start before, .client (.enroll First.code.text),
  .controller (.commit First.clock
    (.enrollmentChallenge First.code.text First.publicKey before First.nonce)),
  .client (.challenge enrollment.challenge First.clock.read true),
  .controller (.enrollBegin 0 First.clock enrollment), .controller (.verifyDomain 0),
  .controller (.enrollFinish 0 First.clock First.session []),
  .client (.session ⟨cluster, First.node.text, before, First.session.text, 4600 * second,
    1090 * second⟩ First.clock.read true),
  .stop, .start after, .run, .control .load, .pass 90000000000, .control .wake,
  .control (.choose (1090 * second)),
  .controller (.commit later (.sessionChallenge First.node.text after nonce)),
  .control (.challenge renewal later.read)]

def renewing : UniDERP.Act :=
  .commit later (.renewNodeSession renewal First.signature session)

end Restarted

section Runs

variable {E : Env} {σ σ' : Site}

theorem Invariant.step (h : σ.Invariant E) {a : Act} (ha : step E σ a = some σ') :
    σ'.Invariant E := by
  cases a <;> simp only [Site.step, Option.bind_eq_bind, Option.bind_eq_some_iff,
    Option.guard_eq_some', exists_const, Option.pure_def, Option.some.injEq, Prod.exists] at ha
  case pass d =>
    rw [← ha]
    exact h.pass d
  case start b =>
    obtain ⟨⟨-, hvalid, hnew⟩, c, hc, rfl⟩ := ha
    refine h.turnover (h.valid.act hc) ?_ (EnrollmentClient.act_identity hc).1 ?_
      (fun _ => List.mem_cons_of_mem b) ?_ ?_
    all_goals obtain rfl := Option.some.inj hc
    · rfl
    · exact hnew
    · exact List.forall_mem_cons.mpr ⟨hvalid, h.fresh⟩
    · intro b' hb
      cases hb
      exact List.mem_cons_self
  case stop =>
    obtain ⟨c, hc, rfl⟩ := ha
    refine h.turnover (h.valid.act hc) ?_ (EnrollmentClient.act_identity hc).1 ?_
      (fun _ hb => hb) h.fresh ?_
    all_goals obtain rfl := Option.some.inj hc
    · rfl
    · -- The empty id is no process's.
      intro hempty
      have hvalid : validToken "" := h.fresh _ hempty
      exact absurd hvalid (by decide)
    · intro b hb
      cases hb
  case client a =>
    obtain ⟨hmay, c, hc, rfl⟩ := ha
    exact h.client hmay hc
  case run =>
    obtain ⟨⟨hrunning, -⟩, rfl⟩ := ha
    refine (Moves.still σ).invariant h h.valid (by simp) (by simp) h.session (fun k hk => ?_)
      fun k ch hk hch => ?_
    · cases hk
      exact ⟨hrunning, by simp, by simp, by simp, by simp, by simp [ControlPhase.session], by simp⟩
    · cases hk
      cases hch
  case return_ =>
    rw [← ha]
    exact (Moves.still σ).invariant h h.valid (by simp) (by simp) h.session (by simp) (by simp)
  case control a =>
    obtain ⟨k, hk, hmay, k', c, qs, hact, rfl⟩ := ha
    exact h.act hk hmay hact
  case controller act =>
    obtain ⟨hadmits, w, reply, hw, rfl⟩ := ha
    exact h.controller hadmits hw

theorem Reachable.invariant (h : Reachable E σ) : σ.Invariant E :=
  UniDERP.Reachable.invariant (I := fun σ => σ.Invariant E) h (fun _ => .start)
    fun _ _ _ _ hi hstep => hi.step hstep

theorem Run.of_acts {acts : List Act} (h : Start σ)
    (hplay : UniDERP.Run.play (Site.step E) acts σ = some σ') : ∃ r : Run E, r.len = acts.length ∧
      (∀ i ≤ acts.length, UniDERP.Run.play (Site.step E) (acts.take i) σ = some (r.state i)) ∧
      ∀ i a, acts[i]? = some a → r.label i = a :=
  UniDERP.Run.of_play (R := Eq) (fun _ a _ h => ⟨a, rfl, h⟩) Act.stop h hplay

/-- No restart makes a node conflict with itself.  In every run in which one process of the node
runs at a time, each with a new instance id, and what a process sends is handled before it ends or
never: no renewal that `RunControl` has sent is answered with `identity_conflict`, whatever was
lost, whenever a process died, and whatever it had written. -/
theorem Run.restarts_without_conflict (r : Run E) {i : ℕ} (hi : i < r.len) {act : UniDERP.Act}
    {c : Clock} {ch : NodeChallenge} {sig : Bytes} {token : Token} {t : Int}
    (hact : r.label i = .controller act)
    (hop : (r.state i).world.op act = some (c, .renewNodeSession ch sig token))
    (hsent : (.renew ch sig, t) ∈ (r.state i).sent) :
    ∃ w reply, (r.state i).world.step E act = some (w, reply) ∧
      r.state (i + 1) = (r.state i).record act w reply ∧
      reply ≠ some (.renewal .identityConflict) := by
  have hinvariant := Reachable.invariant (r.reachable hi.le)
  have hnext := r.next i hi
  simp only [hact, Site.step, Option.bind_eq_bind, Option.bind_eq_some_iff, Option.guard_eq_some',
    exists_const, Option.pure_def, Option.some.injEq, Prod.exists] at hnext
  obtain ⟨hadmits, w, reply, hw, hstate⟩ := hnext
  refine ⟨w, reply, hw, hstate.symm, fun hconflict => ?_⟩
  rcases World.step_answers hw with ⟨⟨op, c', reply'⟩, hop', hreply, hstep⟩ | ⟨hnone, -⟩
  · cases hop.symm.trans hop'
    cases hconflict.symm.trans hreply
    obtain ⟨hkey, -⟩ := hinvariant.renewals ch sig t hsent
    obtain ⟨mid, S, j, heffect, -⟩ := exec_does hstep
    cases heffect with
    | idle repeatable => cases repeatable
    | refuse _ node _ state _ key lease usable =>
      have hasked := hinvariant.asked (a := ⟨_, c', .renewal .identityConflict⟩) (hadmits _ hop')
      exact absurd lease.2 (hasked.not_refused rfl usable node (not_pending_of_renewable state).1
        (hkey ▸ key) hkey lease.1).not_gt
  · cases hop.symm.trans hnone

open Restarted in
/-- The renewal of the second process is answered with a session. -/
theorem Run.first_restart_renews : ∃ (r : Run env) (w : World) (reply : Option Reply),
    r.label 19 = .controller renewing ∧
      (.renew renewal First.signature, 1090 * second) ∈ (r.state 19).sent ∧
      (r.state 19).world.step env renewing = some (w, reply) ∧ (issuedSession reply).isSome ∧
      reply ≠ some (.renewal .identityConflict) := by
  have heval : (UniDERP.Run.play (Site.step env) restarting node).any fun σ =>
      (.renew renewal First.signature, 1090 * second) ∈ σ.sent &&
        (Site.step env σ (.controller renewing)).isSome &&
        (σ.world.step env renewing).any fun x => (issuedSession x.2).isSome := by
    decide +kernel
  obtain ⟨σ, hplay, hfacts⟩ := (Option.any_eq_true _ _).mp heval
  simp only [Bool.and_eq_true, decide_eq_true_eq] at hfacts
  obtain ⟨⟨hsent, hnext⟩, hanswer⟩ := hfacts
  obtain ⟨σ', hstep⟩ := Option.isSome_iff_exists.mp hnext
  have hall : UniDERP.Run.play (Site.step env) (restarting ++ [.controller renewing]) node =
      some σ' := by
    rw [UniDERP.Run.play_append, hplay, Option.bind_some, UniDERP.Run.play, hstep]
    rfl
  obtain ⟨r, hlen, hstate, hlabel⟩ := Run.of_acts ⟨_, _, _, rfl⟩ hall
  have hlast : r.state 19 = σ := by
    have htake : (restarting ++ [Act.controller renewing]).take 19 = restarting := rfl
    have hsome := hstate 19 (by decide)
    rw [htake] at hsome
    exact Option.some.inj (hsome.symm.trans hplay)
  have hact : r.label 19 = .controller renewing := hlabel 19 _ rfl
  obtain ⟨w, reply, hw, -, hne⟩ := r.restarts_without_conflict (by rw [hlen]; decide) hact rfl
    (hlast ▸ hsent)
  refine ⟨r, w, reply, hact, hlast ▸ hsent, hw, ?_, hne⟩
  rw [hlast] at hw
  rw [hw] at hanswer
  exact hanswer

end Runs

end Site
end UniDERP.Node
