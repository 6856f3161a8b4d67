import UniDERP.Control.Enrollment

namespace UniDERP.Node

/-- The contents of `registration.json`; a session without a node id is none. -/
structure NodeRegistration where
  domain : String := ""
  session : Option NodeSession := none
  pending : Option EnrollmentRequest := none
  deriving DecidableEq

def NodeRegistration.Valid (r : NodeRegistration) : Prop :=
  ∀ p, r.pending = some p → validToken p.code ∧ r.session = none

/-- What a call of `Enroll` is waiting for, and in which of its attempts. -/
inductive Enrolling
  | idle
  | challenge (code : String) (attempt : ℕ)
  | session (attempt : ℕ)
  deriving DecidableEq

structure EnrollmentClient where
  publicKey : Bytes
  sign : NodeChallenge → Bytes
  /-- `registration.json`. -/
  saved : NodeRegistration := {}
  /-- The running process: its instance id, its copy of the registration, and its call. -/
  instanceID : Option String := none
  state : NodeRegistration := {}
  phase : Enrolling := .idle

inductive ClientAct
  | start (instance_ : String)
  | stop
  /-- `Enroll` is called. -/
  | enroll (code : String)
  /-- A challenge arrives; `written` is whether the file could be written. -/
  | challenge (ch : NodeChallenge) (now : ℕ → Int) (written : Bool)
  /-- A session arrives. -/
  | session (s : NodeSession) (now : ℕ → Int) (written : Bool)
  /-- The proof is rejected with status 401 or 403. -/
  | reject (now : Int) (written : Bool)
  /-- Any other failure, or no response. -/
  | fail
  /-- `ClearRegistration`. -/
  | clear (written : Bool)

namespace EnrollmentClient

def validChallenge (c : EnrollmentClient) (ch : NodeChallenge) (purpose : Purpose)
    (now : ℕ → Int) : Bool :=
  ch.purpose = purpose && validToken ch.clusterID && validToken ch.nodeID && validToken ch.nonce &&
    ch.domain ≠ "" && some ch.instanceID = c.instanceID && ch.publicKey = c.publicKey &&
    now 0 < ch.expiresAt.time && ch.expiresAt.time < now 1 + 180 * second

/-- The checks of `acceptSession`. -/
def acceptable (s : NodeSession) (ch : NodeChallenge) (now : ℕ → Int) : Bool :=
  s.clusterID = ch.clusterID && s.nodeID = ch.nodeID && s.instanceID = ch.instanceID &&
    validToken s.token && now 0 < s.expiresAt && s.expiresAt ≤ now 1 + 3660 * second &&
    s.leaseUntil ≠ zeroTime && s.leaseUntil ≤ s.expiresAt && s.leaseUntil ≤ now 2 + 120 * second

/-- `saveRegistration`: the new registration is kept only if it was written. -/
def saveRegistration (c : EnrollmentClient) (state : NodeRegistration) (written : Bool)
    (next : Enrolling) : EnrollmentClient :=
  if written then { c with saved := state, state := state, phase := next }
  else { c with phase := .idle }

/-- One attempt of the loop of `Enroll`: the pending request is sent, or a challenge is asked. -/
def attempt (c : EnrollmentClient) (code : String) (n : ℕ) : Enrolling :=
  if c.state.pending.any fun p => p.code = code then .session n else .challenge code n

def act (c : EnrollmentClient) : ClientAct → Option EnrollmentClient
  | .start instance_ =>
    some { c with instanceID := some instance_, state := c.saved, phase := .idle }
  | .stop => some { c with instanceID := none, state := {}, phase := .idle }
  | .enroll code =>
    if c.instanceID.isSome ∧ c.phase = .idle ∧ validToken code ∧ c.state.session = none then
      some { c with phase := c.attempt code 0 }
    else none
  | .challenge ch now written => match c.phase with
    | .challenge code n =>
      if c.validChallenge ch .enroll now then
        some (c.saveRegistration
          { c.state with pending := some ⟨code, ch, c.sign ch⟩ } written (.session n))
      else some { c with phase := .idle }
    | _ => none
  | .session s now written => match c.phase, c.state.pending with
    | .session _, some p =>
      if acceptable s p.challenge now then
        some (c.saveRegistration
          { c.state with session := some s, domain := p.challenge.domain, pending := none }
          written .idle)
      else some { c with phase := .idle }
    | _, _ => none
  | .reject now written => match c.phase, c.state.pending with
    | .session n, some p =>
      if n = 0 ∧ p.challenge.expiresAt.time ≤ now then
        some (c.saveRegistration { c.state with pending := none } written (.challenge p.code 1))
      else some { c with phase := .idle }
    | _, _ => none
  | .fail => some { c with phase := .idle }
  | .clear written =>
    if c.instanceID.isSome ∧ c.phase = .idle then some (c.saveRegistration {} written .idle)
    else none

abbrev Run := UniDERP.Run (fun c : EnrollmentClient => ∃ publicKey sign, c = { publicKey, sign })
  fun c a c' => c.act a = some c'

/-- The process works on what it has written, and sends only that. -/
structure Valid (c : EnrollmentClient) : Prop where
  saved : c.saved.Valid
  state : c.instanceID.isSome → c.state = c.saved
  challenge : ∀ code n, c.phase = .challenge code n →
    c.instanceID.isSome ∧ validToken code ∧ c.state.session = none ∧
      ∀ p, c.state.pending = some p → p.code ≠ code
  session : ∀ n, c.phase = .session n → c.instanceID.isSome

theorem Valid.idle {c : EnrollmentClient} (h : c.Valid) : Valid { c with phase := .idle } :=
  ⟨h.saved, h.state, by simp, by simp⟩

theorem Valid.save {c : EnrollmentClient} (h : c.Valid) {state : NodeRegistration} {next : Enrolling}
    (written : Bool) (hrunning : c.instanceID.isSome) (hstate : state.Valid)
    (hnext : ∀ code n, next = .challenge code n → validToken code ∧ state.session = none ∧
      ∀ p, state.pending = some p → p.code ≠ code) :
    (c.saveRegistration state written next).Valid := by
  unfold saveRegistration
  split_ifs
  · exact ⟨hstate, fun _ => rfl, fun code n hn => ⟨hrunning, hnext code n hn⟩, fun _ _ => hrunning⟩
  · exact h.idle

theorem Valid.act {c c' : EnrollmentClient} {a : ClientAct} (h : c.Valid)
    (ha : c.act a = some c') : c'.Valid := by
  cases a with
  | start instance_ =>
    obtain rfl := Option.some.inj ha
    exact ⟨h.saved, fun _ => rfl, by simp, by simp⟩
  | stop =>
    obtain rfl := Option.some.inj ha
    exact ⟨h.saved, by simp, by simp, by simp⟩
  | enroll code =>
    rw [EnrollmentClient.act] at ha
    split_ifs at ha with hcall
    obtain rfl := Option.some.inj ha
    obtain ⟨hrunning, -, hcode, hsession⟩ := hcall
    refine ⟨h.saved, h.state, fun code' n hn => ?_, fun _ _ => hrunning⟩
    simp only [attempt] at hn
    split_ifs at hn with hpending
    cases hn
    refine ⟨hrunning, hcode, hsession, fun p hp => ?_⟩
    rw [show c.state.pending = some p from hp] at hpending
    simpa using hpending
  | challenge ch now written =>
    rw [EnrollmentClient.act] at ha
    split at ha <;> try cases ha
    rename_i code n hphase
    obtain ⟨hrunning, hcode, hsession, -⟩ := h.challenge code n hphase
    split_ifs at ha <;> obtain rfl := Option.some.inj ha
    · refine h.save written hrunning (fun p hp => ?_) (by simp)
      obtain rfl := Option.some.inj hp
      exact ⟨hcode, hsession⟩
    · exact h.idle
  | session s now written =>
    rw [EnrollmentClient.act] at ha
    split at ha <;> try cases ha
    rename_i n p hphase hpending
    split_ifs at ha <;> obtain rfl := Option.some.inj ha
    · exact h.save written (h.session n hphase) (fun p hp => by cases hp) (by simp)
    · exact h.idle
  -- The code is tried again from the challenge, with nothing pending.
  | reject now written =>
    rw [EnrollmentClient.act] at ha
    split at ha <;> try cases ha
    rename_i n p hphase hpending
    have hrunning := h.session n hphase
    have hvalid := h.saved p (h.state hrunning ▸ hpending)
    split_ifs at ha <;> obtain rfl := Option.some.inj ha
    · refine h.save written hrunning (fun p hp => by cases hp) fun code n hn => ?_
      cases hn
      exact ⟨hvalid.1, h.state hrunning ▸ hvalid.2, fun p hp => by cases hp⟩
    · exact h.idle
  | fail =>
    obtain rfl := Option.some.inj ha
    exact h.idle
  | clear written =>
    rw [EnrollmentClient.act] at ha
    split_ifs at ha with hcall
    obtain rfl := Option.some.inj ha
    exact h.save written hcall.1 (fun p hp => by cases hp) (by simp)

theorem Run.valid (q : Run) {m : ℕ} (hm : m ≤ q.len) : (q.state m).Valid := by
  refine Reachable.invariant (q.reachable hm) ?_ fun c a c' _ hc ha => hc.act ha
  rintro c ⟨publicKey, sign, rfl⟩
  exact ⟨by simp [NodeRegistration.Valid], by simp, by simp, by simp⟩

/-- What the node may do with the request that it has written: replace it for another code, use its
answer, drop it after a rejection at the end of its challenge, or forget its registration. -/
inductive Drops (c : EnrollmentClient) (p : EnrollmentRequest) : ClientAct → Prop
  | replaced {ch : NodeChallenge} {now : ℕ → Int} {code : String} {n : ℕ}
      (phase : c.phase = .challenge code n) (other : p.code ≠ code) :
      Drops c p (.challenge ch now true)
  | accepted {s : NodeSession} {now : ℕ → Int} (acceptable : acceptable s p.challenge now) :
      Drops c p (.session s now true)
  | expired {now : Int} (expired : p.challenge.expiresAt.time ≤ now) : Drops c p (.reject now true)
  | cleared : Drops c p (.clear true)

theorem Valid.keeps {c c' : EnrollmentClient} {a : ClientAct} {p : EnrollmentRequest} (h : c.Valid)
    (ha : c.act a = some c') (hp : c.saved.pending = some p) :
    c'.saved.pending = some p ∨ Drops c p a := by
  have hsave : ∀ {state next written}, some (c.saveRegistration state written next) = some c' →
      c'.saved.pending = some p ∨ written = true := by
    intro state next written hc
    obtain rfl := Option.some.inj hc
    cases written
    · exact .inl hp
    · exact .inr rfl
  have hidle : some { c with phase := .idle } = some c' → c'.saved.pending = some p := by
    intro hc
    obtain rfl := Option.some.inj hc
    exact hp
  cases a with
  | start => exact .inl (Option.some.inj ha ▸ hp)
  | stop => exact .inl (Option.some.inj ha ▸ hp)
  | enroll =>
    rw [EnrollmentClient.act] at ha
    split_ifs at ha
    exact .inl (Option.some.inj ha ▸ hp)
  -- A new request replaces the pending one only when it was made for another code.
  | challenge ch now written =>
    rw [EnrollmentClient.act] at ha
    split at ha <;> try cases ha
    rename_i code n hphase
    split_ifs at ha
    · rcases hsave ha with hkept | rfl
      · exact .inl hkept
      · obtain ⟨hrunning, -, -, hother⟩ := h.challenge code n hphase
        exact .inr (.replaced hphase (hother p (h.state hrunning ▸ hp)))
    · exact .inl (hidle ha)
  | session s now written =>
    rw [EnrollmentClient.act] at ha
    split at ha <;> try cases ha
    rename_i n p' hphase hpending
    rw [h.state (h.session n hphase), hp, Option.some.injEq] at hpending
    split_ifs at ha with hacceptable
    · rcases hsave ha with hkept | rfl
      · exact .inl hkept
      · exact .inr (.accepted (hpending ▸ hacceptable))
    · exact .inl (hidle ha)
  | reject now written =>
    rw [EnrollmentClient.act] at ha
    split at ha <;> try cases ha
    rename_i n p' hphase hpending
    rw [h.state (h.session n hphase), hp, Option.some.injEq] at hpending
    split_ifs at ha with hexpired
    · rcases hsave ha with hkept | rfl
      · exact .inl hkept
      · exact .inr (.expired (hpending ▸ hexpired.2))
    · exact .inl (hidle ha)
  | fail => exact .inl (hidle ha)
  | clear written =>
    rw [EnrollmentClient.act] at ha
    split_ifs at ha
    rcases hsave ha with hkept | rfl
    · exact .inl hkept
    · exact .inr .cleared

/-- `Enroll` with the code of `p` sends `p` again, and stores the session `s` that is answered. -/
def Resumes (c : EnrollmentClient) (p : EnrollmentRequest) (s : NodeSession) (now : ℕ → Int) :
    Prop :=
  ∃ c₁ c₂, c.act (.enroll p.code) = some c₁ ∧ c₁.phase = .session 0 ∧ c₁.state.pending = some p ∧
    c₁.act (.session s now true) = some c₂ ∧ c₂.saved.session = some s

theorem Valid.resumes {c : EnrollmentClient} {p : EnrollmentRequest} {s : NodeSession}
    {now : ℕ → Int} (h : c.Valid) (hrunning : c.instanceID.isSome) (hidle : c.phase = .idle)
    (hp : c.saved.pending = some p) (hs : acceptable s p.challenge now) : c.Resumes p s now := by
  obtain ⟨hcode, hsession⟩ := h.saved p hp
  rw [← h.state hrunning] at hp hsession
  let c₁ : EnrollmentClient := { c with phase := .session 0 }
  have hpending : c₁.state.pending = some p := hp
  have henroll : c.act (.enroll p.code) = some c₁ := by
    simp [EnrollmentClient.act, attempt, c₁, hrunning, hidle, hp, hcode, hsession]
  have haccept : c₁.act (.session s now true) = some (c₁.saveRegistration
      { c₁.state with session := some s, domain := p.challenge.domain, pending := none }
      true .idle) := by
    simp [EnrollmentClient.act, hp, hs, c₁]
  exact ⟨c₁, _, henroll, rfl, hpending, haccept, rfl⟩

end EnrollmentClient
end UniDERP.Node

namespace UniDERP

open Node

section Enrolling

variable {E : Env} {c : Clock} {db db' : DB} {req : EnrollmentRequest} {s : NodeSession}
  {expires : Int} {now : ℕ → Int}

theorem Binds.acceptable (h : Binds E c db db' req s expires) (hnow : now 0 < s.expiresAt)
    (hbehind : c.read 8 ≤ now 1 + 30 * second ∧ c.read 9 ≤ now 2 + 30 * second)
    (hdeadline : c.read 9 ≤ c.read 8 + 15 * second) :
    EnrollmentClient.acceptable s req.challenge now := by
  obtain ⟨token, rfl⟩ := h.minted
  have hpast := c.past 9
  have hcluster := h.usable.cluster
  dsimp only at hnow
  simp only [EnrollmentClient.acceptable, hcluster, token.valid, Bool.and_eq_true,
    decide_eq_true_eq, true_and, ne_eq]
  unfold truncate ofUnix unix zeroTime second at *
  omega

end Enrolling

/-- A code binds one node once.  In any interleaving of the calls: a code is consumed by one commit
until it is given out again; whatever a call returns was answered to that very request when it was
committed; the request proved a fresh challenge of its node, domain, key and instance, and its
call verified the domain; a key once set stays; and the request that a node has written is answered
with the same session when it is sent again, by the same process of the node or by another. -/
theorem World.Run.enrolls_once {E : Env} (r : World.Run E) :
    (∀ i j a b req req' s s', i < j → j < r.len → r.commit i = some a → r.commit j = some b →
      Enrolls (r.state i).db a req s → Enrolls (r.state j).db b req' s' → req.code = req'.code →
      ∃ k d, i < k ∧ k < j ∧ r.commit k = some d ∧ d.op.issues req.code) ∧
    (∀ j req s, j < r.len → (r.state j).returned (r.label j) = some (req, s) →
      ∃ i a, i ≤ j ∧ r.commit i = some a ∧ Enrolls (r.state i).db a req s ∧
        ∀ k d, i < k → k < j → r.commit k = some d → ¬ d.op.issues req.code) ∧
    (∀ i a req s, i < r.len → r.commit i = some a → Enrolls (r.state i).db a req s →
      (∃ n, (r.state i).db.nodes.get? req.challenge.nodeID = some n ∧
        n.domain = req.challenge.domain ∧
        (n.publicKey = none ∨ n.publicKey = some req.challenge.publicKey)) ∧
      Usable E (a.clock.read 2) (a.clock.read 3) req.challenge req.signature (r.state i).db ∧
      (∃ k d, k < i ∧ r.commit k = some d ∧ Challenges (r.state k).db d req.challenge) ∧
      ∃ call b v, Verified r req call b v i) ∧
    (∀ i j id n n' key, i ≤ j → j ≤ r.len → (r.state i).db.nodes.get? id = some n →
      n.publicKey = some key →
      (∀ k d, i ≤ k → k < j → r.commit k = some d → ¬ d.op.creates id) →
      (r.state j).db.nodes.get? id = some n' → n'.publicKey = some key) ∧
    (∀ i j a req s e, i < j → j ≤ r.len → r.commit i = some a →
      Enrolls (r.state i).db a req s →
      (r.state i).db.enrollments.get? req.challenge.nodeID = some e →
      (∀ k d, i < k → k < j → r.commit k = some d →
        ¬ Retires E (r.state k).db d req.challenge.nodeID) →
      (∀ c : Clock, unix (c.read 0) < e.expiresAt → c.read 1 < s.expiresAt →
        enrollCheck E c req (r.state j).db = .ok (some s)) ∧
      ∀ (q : EnrollmentClient.Run) (m : ℕ), m ≤ q.len →
        (q.state m).saved.pending = some req →
        (m < q.len → (q.state (m + 1)).saved.pending = some req ∨
          EnrollmentClient.Drops (q.state m) req (q.label m)) ∧
        ∀ instance_ now, now 0 < s.expiresAt →
          a.clock.read 8 ≤ now 1 + 30 * second ∧ a.clock.read 9 ≤ now 2 + 30 * second →
          a.clock.read 9 ≤ a.clock.read 8 + 15 * second →
          (∃ c, (q.state m).act (.start instance_) = some c ∧ c.Resumes req s now) ∧
          ((q.state m).instanceID.isSome → (q.state m).phase = .idle →
            (q.state m).Resumes req s now)) := by
  refine ⟨fun i j a b req req' s s' hij hj ha hb he he' hcode => single_use hij hj ha hb he he' hcode,
    fun j req s hj hret => returned_from hj hret, fun i a req s hi ha he => ?_,
    fun i j id n n' key hij hj hn hkey hcreates hn' => key_fixed hij hj hn hkey hcreates hn',
    fun i j a req s e hij hj ha he hrow hstands => ⟨fun c hcode hsession =>
      answered_again hij hj ha he hstands hrow hcode hsession, fun q m hm hp => ⟨?_, ?_⟩⟩⟩
  · obtain ⟨expires, hb⟩ := Step.binds (step_of_commit hi ha) he
    exact ⟨hb.node, hb.usable, challenged hi ha he, verified hi ha he⟩
  · intro hlt
    exact (q.valid hm).keeps (q.next m hlt) hp
  -- A restart reads the pending request back from disk; a running process still has it.
  · intro instance_ now hnow hbehind hdeadline
    obtain ⟨expires, hb⟩ := Step.binds (step_of_commit (by omega) ha) he
    have hvalid := q.valid hm
    have hs := hb.acceptable hnow hbehind hdeadline
    have hstarted : (q.state m).act (.start instance_) = some { q.state m with
        instanceID := some instance_, state := (q.state m).saved, phase := .idle } := rfl
    exact ⟨⟨_, hstarted, (hvalid.act hstarted).resumes rfl rfl hp hs⟩, fun hrunning hidle =>
      hvalid.resumes hrunning hidle hp hs⟩

end UniDERP
