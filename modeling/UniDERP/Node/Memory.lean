import UniDERP.Node.Control

namespace UniDERP.Node

def noSession : NodeSession := ⟨"", "", "", "", zeroTime, zeroTime⟩

/-- The contents of `registration.json`. -/
structure StoredRegistration where
  controllerURL : String := ""
  domain : String := ""
  session : NodeSession := noSession
  pending : Option EnrollmentRequest := none
  deriving DecidableEq

def StoredRegistration.bound (r : StoredRegistration) : Bool :=
  r.session.nodeID ≠ "" || r.pending.isSome

inductive ClientPhase
  | idle
  | enrollChallenge (code : String) (attempt : ℕ)
  | enrollSession (attempt : ℕ)
  | renewChallenge
  | renewSession (ch : NodeChallenge)
  deriving DecidableEq

inductive PostError
  | codeRejected
  | proofRejected
  | identityConflict
  | other (text : String)
  deriving DecidableEq

inductive ClientErr
  | post (e : PostError)
  | text (text : String)
  /-- The registration could not be written. -/
  | write
  deriving DecidableEq

structure NodeClient where
  publicKey : Bytes
  sign : NodeChallenge → Bytes
  file : Option StoredRegistration := none
  /-- The running process: its instance id, its copy of the registration, and its call. -/
  instanceID : Option String := none
  state : StoredRegistration := {}
  phase : ClientPhase := .idle
  /-- The controller URL that the process was started with, and the challenges that were signed. -/
  taken : String := ""
  signed : List NodeChallenge := []

/-- What happens to a client: its calls, and the controller's answers to them. -/
inductive ClientCall
  /-- `NewEnrollmentClient`, in a new process. -/
  | start (url instance_ : String)
  | stop
  | enroll (code : String)
  | enrollChallenge (reply : Except PostError NodeChallenge) (now : ℕ → Int) (written : Bool)
  | enrollSession (reply : Except PostError NodeSession) (now : ℕ → Int) (written : Bool)
  | renew
  | renewChallenge (reply : Except PostError NodeChallenge) (now : ℕ → Int)
  | renewSession (reply : Except PostError NodeSession) (now : ℕ → Int) (written : Bool)
  /-- An answer to a heartbeat that was sent with this session. -/
  | heartbeat (s : NodeSession) (reply : HeartbeatReply) (written : Bool)
  | clear (written : Bool)
  | setControllerURL (value : String) (written : Bool)

namespace NodeClient

abbrev Answer := Option (Except ClientErr NodeSession)

def checks (c : NodeClient) : EnrollmentClient :=
  { publicKey := c.publicKey, sign := c.sign, instanceID := c.instanceID
    state := { domain := c.state.domain } }

def saveRegistration (c : NodeClient) (written : Bool) : NodeClient :=
  if written then { c with file := some c.state } else c

def setPending (c : NodeClient) (p : Option EnrollmentRequest) : NodeClient :=
  { c with state := { c.state with pending := p } }

def setLease (c : NodeClient) (leaseUntil : Int) : NodeClient :=
  { c with state := { c.state with session := { c.state.session with leaseUntil } } }

def done (c : NodeClient) (r : Except ClientErr NodeSession) : NodeClient × Answer :=
  ({ c with phase := .idle }, some r)

def wait (c : NodeClient) (phase : ClientPhase) : NodeClient × Answer := ({ c with phase }, none)

def acceptSession (c : NodeClient) (s : NodeSession) (ch : NodeChallenge) (now : ℕ → Int)
    (written : Bool) : NodeClient × Answer :=
  if EnrollmentClient.acceptable s ch now then
    let previous := c.state
    let c := { c with
      state := { c.state with session := s, domain := ch.domain, pending := none } }
    let c := c.saveRegistration written
    if written then c.done (.ok s) else { c with state := previous }.done (.error .write)
  else c.done (.error (.text "controller returned a differently bound session"))

/-- One attempt of the loop of `Enroll`: the pending request is sent, or a challenge is asked. -/
def attempt (c : NodeClient) (code : String) (n : ℕ) : NodeClient × Answer :=
  if c.state.pending.any fun p => p.code = code then c.wait (.enrollSession n)
  else c.wait (.enrollChallenge code n)

def enroll (c : NodeClient) (code : String) : NodeClient × Answer :=
  if validToken code = false then c.done (.error (.text "invalid enrollment code"))
  else if c.state.session.nodeID ≠ "" then c.done (.error (.text "node is already registered"))
  else c.attempt code 0

/-- A challenge has come; the signed request is written before it is sent. -/
def enrollChallenge (c : NodeClient) (code : String) (n : ℕ) (ch : NodeChallenge) (now : ℕ → Int)
    (written : Bool) : NodeClient × Answer :=
  if c.checks.validChallenge ch .enroll now then
    let previous := c.state.pending
    let c := { c with signed := ch :: c.signed }.setPending (some ⟨code, ch, c.sign ch⟩)
    let c := c.saveRegistration written
    if written then c.wait (.enrollSession n) else (c.setPending previous).done (.error .write)
  else c.done (.error (.text "invalid enrollment challenge"))

/-- The request was refused; it is dropped in the first attempt, once its challenge is over. -/
def enrollRefused (c : NodeClient) (n : ℕ) (p : EnrollmentRequest) (e : PostError) (now : Int)
    (written : Bool) : NodeClient × Answer :=
  if n = 0 ∧ e = .proofRejected ∧ p.challenge.expiresAt.time ≤ now then
    let previous := c.state.pending
    let c := (c.setPending none).saveRegistration written
    if written then c.attempt p.code 1 else (c.setPending previous).done (.error .write)
  else c.done (.error (.post e))

def renew (c : NodeClient) : NodeClient × Answer :=
  if c.state.session.nodeID = "" then c.done (.error (.text "node is not registered"))
  else c.wait .renewChallenge

def renewChallenge (c : NodeClient) (ch : NodeChallenge) (now : ℕ → Int) : NodeClient × Answer :=
  if c.checks.validRenewal c.state.session ch now then
    { c with signed := ch :: c.signed }.wait (.renewSession ch)
  else c.done (.error (.text "invalid session challenge"))

/-- The update of `controlHeartbeats`. -/
def heartbeat (c : NodeClient) (s : NodeSession) (r : HeartbeatReply) (written : Bool) :
    NodeClient × Answer :=
  if validHeartbeat r s then
    let previous := c.state.session.leaseUntil
    let c := (c.setLease r.leaseUntil).saveRegistration written
    if written then c.done (.ok c.state.session)
    else (c.setLease previous).done (.error (.text "node lease persistence failed"))
  else c.done (.error (.text "invalid node heartbeat"))

def clearRegistration (c : NodeClient) (written : Bool) : NodeClient × Answer :=
  let previous := c.state
  let c := { c with state := { controllerURL := previous.controllerURL } }
  let c := c.saveRegistration written
  if written then c.done (.ok previous.session) else { c with state := previous }.done (.error .write)

variable (origin : String → Option String)

def setControllerURL (c : NodeClient) (value : String) (written : Bool) : NodeClient × Answer :=
  match origin value with
  | none => c.done (.error (.text "controller must be an HTTPS origin"))
  | some url =>
    if c.state.bound then c.done (.error (.text "node is already bound to a controller"))
    else
      let previous := c.state
      let c := { c with state := { c.state with controllerURL := url } }
      let c := c.saveRegistration written
      if written then c.done (.ok noSession) else { c with state := previous }.done (.error .write)

/-- A new process reads the file; one that is bound to another controller is refused. -/
def start (c : NodeClient) (url instance_ : String) : Option NodeClient := do
  let url ← origin url
  let file := c.file.getD {}
  if file.controllerURL ≠ url ∧ file.bound then none
  else some { c with
    instanceID := some instance_, state := { file with controllerURL := url }
    phase := .idle, taken := url }

/-- A call starts when the mutex is free, and an answer comes to the call that waits for it. -/
def act (c : NodeClient) (a : ClientCall) : Option (NodeClient × Answer) :=
  match a, c.phase with
  | .start url instance_, _ => (c.start origin url instance_).map fun c => (c, none)
  | .stop, _ => some ({ c with instanceID := none, state := {}, phase := .idle }, none)
  | .enroll code, .idle => if c.instanceID.isSome then some (c.enroll code) else none
  | .enrollChallenge reply now written, .enrollChallenge code n => some <| match reply with
    | .error e => c.done (.error (.post e))
    | .ok ch => c.enrollChallenge code n ch now written
  | .enrollSession reply now written, .enrollSession n => match c.state.pending, reply with
    | some p, .error e => some (c.enrollRefused n p e (now 0) written)
    | some p, .ok s => some (c.acceptSession s p.challenge now written)
    | none, _ => none
  | .renew, .idle => if c.instanceID.isSome then some c.renew else none
  | .renewChallenge reply now, .renewChallenge => some <| match reply with
    | .error e => c.done (.error (.post e))
    | .ok ch => c.renewChallenge ch now
  | .renewSession reply now written, .renewSession ch => some <| match reply with
    | .error e => c.done (.error (.post e))
    | .ok s => c.acceptSession s ch now written
  | .heartbeat s r written, .idle =>
    if c.instanceID.isSome then some (c.heartbeat s r written) else none
  | .clear written, .idle => if c.instanceID.isSome then some (c.clearRegistration written) else none
  | .setControllerURL value written, .idle =>
    if c.instanceID.isSome then some (c.setControllerURL origin value written) else none
  | _, _ => none

abbrev Run := UniDERP.Run (fun c : NodeClient => ∃ publicKey sign, c = { publicKey, sign })
  fun c a c' => ∃ r, c.act origin a = some (c', r)

def stored (c : NodeClient) : StoredRegistration := c.file.getD {}

inductive Update (c : NodeClient) (signed : List NodeChallenge) :
    ClientCall → StoredRegistration → Prop
  | request {code : String} {n : ℕ} {ch : NodeChallenge} {now : ℕ → Int}
      (phase : c.phase = .enrollChallenge code n) (own : ch ∈ signed)
      (node : validToken ch.nodeID) :
      Update c signed (.enrollChallenge (.ok ch) now true)
        { c.state with pending := some ⟨code, ch, c.sign ch⟩ }
  | enrolled {n : ℕ} {p : EnrollmentRequest} {s : NodeSession} {now : ℕ → Int}
      (phase : c.phase = .enrollSession n) (pending : c.state.pending = some p)
      (accepted : EnrollmentClient.acceptable s p.challenge now) :
      Update c signed (.enrollSession (.ok s) now true)
        { c.state with session := s, domain := p.challenge.domain, pending := none }
  | renewed {ch : NodeChallenge} {s : NodeSession} {now : ℕ → Int}
      (phase : c.phase = .renewSession ch) (accepted : EnrollmentClient.acceptable s ch now) :
      Update c signed (.renewSession (.ok s) now true)
        { c.state with session := s, domain := ch.domain, pending := none }
  | refused {n : ℕ} {p : EnrollmentRequest} {now : ℕ → Int}
      (phase : c.phase = .enrollSession n) (pending : c.state.pending = some p)
      (expired : p.challenge.expiresAt.time ≤ now 0) :
      Update c signed (.enrollSession (.error .proofRejected) now true)
        { c.state with pending := none }
  | lease {s : NodeSession} {r : HeartbeatReply} :
      Update c signed (.heartbeat s r true)
        { c.state with session := { c.state.session with leaseUntil := r.leaseUntil } }
  | cleared : Update c signed (.clear true) { controllerURL := c.state.controllerURL }
  | moved {value url : String} (unbound : c.state.bound = false) :
      Update c signed (.setControllerURL value true) { c.state with controllerURL := url }

def Waiting (c : NodeClient) : Prop :=
  match c.phase with
  | .idle | .renewChallenge => True
  | .enrollChallenge code _ => ∀ p, c.state.pending = some p → p.code ≠ code
  | .enrollSession _ => ∃ p, c.state.pending = some p
  | .renewSession ch => ch ∈ c.signed

/-- A step of the running process: memory and file stay, or one update goes to both. -/
structure Sound (c : NodeClient) (a : ClientCall) (c' : NodeClient) : Prop where
  sign : c'.sign = c.sign
  process : c'.instanceID = c.instanceID ∧ c'.taken = c.taken
  signed : ∀ ch ∈ c.signed, ch ∈ c'.signed
  record : (c'.state = c.state ∧ c'.file = c.file) ∨
    (Update c c'.signed a c'.state ∧ c'.file = some c'.state)
  waiting : c'.Waiting

variable {origin : String → Option String} {c c' : NodeClient} {a : ClientCall}

theorem Sound.done (r : Except ClientErr NodeSession) : Sound c a (c.done r).1 :=
  ⟨rfl, ⟨rfl, rfl⟩, fun _ h => h, .inl ⟨rfl, rfl⟩, trivial⟩

theorem attempt_waiting (c : NodeClient) (code : String) (n : ℕ) : (c.attempt code n).1.Waiting := by
  unfold attempt
  cases hp : c.state.pending with
  | none =>
    rw [if_neg (by simp)]
    intro p hp'
    rw [show c.state.pending = some p from hp'] at hp
    cases hp
  | some p =>
    split_ifs with h
    · exact ⟨p, hp⟩
    · intro p' hp'
      rw [show c.state.pending = some p' from hp', Option.some.injEq] at hp
      subst hp
      simpa using h

theorem attempt_sound (code : String) (n : ℕ) : Sound c a (c.attempt code n).1 := by
  have hwaiting := c.attempt_waiting code n
  unfold attempt at hwaiting ⊢
  split_ifs at hwaiting ⊢
  · exact ⟨rfl, ⟨rfl, rfl⟩, fun _ h => h, .inl ⟨rfl, rfl⟩, hwaiting⟩
  · exact ⟨rfl, ⟨rfl, rfl⟩, fun _ h => h, .inl ⟨rfl, rfl⟩, hwaiting⟩

theorem enroll_sound (code : String) : Sound c (.enroll code) (c.enroll code).1 := by
  unfold enroll
  split_ifs
  · exact .done _
  · exact .done _
  · exact attempt_sound code 0

theorem acceptSession_sound {s : NodeSession} {ch : NodeChallenge} {now : ℕ → Int} (written : Bool)
    (h : written = true → EnrollmentClient.acceptable s ch now → Update c c.signed a
      { c.state with session := s, domain := ch.domain, pending := none }) :
    Sound c a (c.acceptSession s ch now written).1 := by
  unfold acceptSession
  split
  · rename_i hacceptable
    cases written with
    | true => exact ⟨rfl, ⟨rfl, rfl⟩, fun _ h => h, .inr ⟨h rfl hacceptable, rfl⟩, trivial⟩
    | false => exact ⟨rfl, ⟨rfl, rfl⟩, fun _ h => h, .inl ⟨rfl, rfl⟩, trivial⟩
  · exact .done _

theorem enrollChallenge_sound {code : String} {n : ℕ} (hphase : c.phase = .enrollChallenge code n)
    (ch : NodeChallenge) (now : ℕ → Int) (written : Bool) :
    Sound c (.enrollChallenge (.ok ch) now written)
      (c.enrollChallenge code n ch now written).1 := by
  unfold enrollChallenge
  split
  · rename_i hvalid
    cases written with
    | true =>
      refine ⟨rfl, ⟨rfl, rfl⟩, fun ch' h => List.mem_cons_of_mem _ h, .inr ⟨?_, rfl⟩, ⟨_, rfl⟩⟩
      simp only [EnrollmentClient.validChallenge, Bool.and_eq_true] at hvalid
      exact .request hphase (List.mem_cons_self ..) hvalid.1.1.1.1.1.1.2
    | false =>
      exact ⟨rfl, ⟨rfl, rfl⟩, fun ch' h => List.mem_cons_of_mem _ h, .inl ⟨rfl, rfl⟩, trivial⟩
  · exact .done _

theorem enrollRefused_sound {n : ℕ} {p : EnrollmentRequest} (hphase : c.phase = .enrollSession n)
    (hpending : c.state.pending = some p) (e : PostError) (now : ℕ → Int) (written : Bool) :
    Sound c (.enrollSession (.error e) now written)
      (c.enrollRefused n p e (now 0) written).1 := by
  unfold enrollRefused
  split
  · rename_i h
    obtain ⟨-, rfl, hexpired⟩ := h
    cases written with
    | true =>
      -- the request is dropped, and the second attempt asks for a challenge
      refine ⟨rfl, ⟨rfl, rfl⟩, fun _ h => h, .inr ⟨.refused hphase hpending hexpired, rfl⟩, ?_⟩
      intro p' hp'
      cases hp'
    | false => exact ⟨rfl, ⟨rfl, rfl⟩, fun _ h => h, .inl ⟨rfl, rfl⟩, trivial⟩
  · exact .done _

theorem renewChallenge_sound (ch : NodeChallenge) (now : ℕ → Int) :
    Sound c a (c.renewChallenge ch now).1 := by
  unfold renewChallenge
  split_ifs
  · exact ⟨rfl, ⟨rfl, rfl⟩, fun ch' h => List.mem_cons_of_mem _ h, .inl ⟨rfl, rfl⟩,
      List.mem_cons_self ..⟩
  · exact .done _

theorem heartbeat_sound (s : NodeSession) (r : HeartbeatReply) (written : Bool) :
    Sound c (.heartbeat s r written) (c.heartbeat s r written).1 := by
  unfold heartbeat
  split
  · cases written with
    | true => exact ⟨rfl, ⟨rfl, rfl⟩, fun _ h => h, .inr ⟨.lease, rfl⟩, trivial⟩
    | false => exact ⟨rfl, ⟨rfl, rfl⟩, fun _ h => h, .inl ⟨rfl, rfl⟩, trivial⟩
  · exact .done _

theorem clearRegistration_sound (written : Bool) :
    Sound c (.clear written) (c.clearRegistration written).1 := by
  cases written with
  | true => exact ⟨rfl, ⟨rfl, rfl⟩, fun _ h => h, .inr ⟨.cleared, rfl⟩, trivial⟩
  | false => exact ⟨rfl, ⟨rfl, rfl⟩, fun _ h => h, .inl ⟨rfl, rfl⟩, trivial⟩

theorem setControllerURL_sound (value : String) (written : Bool) :
    Sound c (.setControllerURL value written) (c.setControllerURL origin value written).1 := by
  unfold setControllerURL
  split
  · exact .done _
  · split
    · exact .done _
    · rename_i hbound
      cases written with
      | true =>
        refine ⟨rfl, ⟨rfl, rfl⟩, fun _ h => h, .inr ⟨.moved ?_, rfl⟩, trivial⟩
        simpa using hbound
      | false => exact ⟨rfl, ⟨rfl, rfl⟩, fun _ h => h, .inl ⟨rfl, rfl⟩, trivial⟩

theorem start_ok {url instance_ : String} (h : c.start origin url instance_ = some c') :
    ∃ url, c' = { c with
      instanceID := some instance_, state := { c.stored with controllerURL := url }
      phase := .idle, taken := url } := by
  simp only [start, Option.bind_eq_bind, Option.bind_eq_some_iff] at h
  obtain ⟨url', -, h⟩ := h
  split_ifs at h
  exact ⟨url', (Option.some.inj h).symm⟩

/-- A step is a start from the file, the end of a process, or a sound step of a running one. -/
theorem act_cases {r : Answer} (hrunning : c.phase ≠ .idle → c.instanceID.isSome)
    (h : c.act origin a = some (c', r)) :
    (∃ url instance_, c' = { c with
      instanceID := some instance_, state := { c.stored with controllerURL := url }
      phase := .idle, taken := url }) ∨
    c' = { c with instanceID := none, state := {}, phase := .idle } ∨
    (c.instanceID.isSome ∧ Sound c a c') := by
  -- the process runs while a call waits, and a call is only made to a running one
  have hcall : ∀ {x : NodeClient × Answer}, (c.instanceID.isSome → Sound c a x.1) →
      (if c.instanceID.isSome then some x else none) = some (c', r) →
      c.instanceID.isSome ∧ Sound c a c' := by
    intro x hx heq
    split_ifs at heq with hs
    cases heq
    exact ⟨hs, hx hs⟩
  have hreply : ∀ {x : NodeClient × Answer}, c.phase ≠ .idle → Sound c a x.1 →
      some x = some (c', r) → c.instanceID.isSome ∧ Sound c a c' := by
    intro x hphase hx heq
    cases heq
    exact ⟨hrunning hphase, hx⟩
  unfold act at h
  split at h
  · obtain ⟨c₁, hc₁, heq⟩ := Option.map_eq_some_iff.mp h
    cases heq
    obtain ⟨url, rfl⟩ := start_ok hc₁
    exact .inl ⟨url, _, rfl⟩
  · cases h
    exact .inr (.inl rfl)
  · exact .inr (.inr (hcall (fun _ => enroll_sound _) h))
  · rename_i reply now written code n hphase
    refine .inr (.inr (hreply (by simp [hphase]) ?_ h))
    cases reply with
    | error e => exact .done _
    | ok ch => exact enrollChallenge_sound hphase ch now written
  · rename_i reply now written n hphase
    split at h
    · rename_i p e hpending
      exact .inr (.inr (hreply (by simp [hphase]) (enrollRefused_sound hphase hpending e now written)
        h))
    · rename_i p s hpending
      refine .inr (.inr (hreply (by simp [hphase]) (acceptSession_sound written ?_) h))
      rintro rfl haccepted
      exact .enrolled hphase hpending haccepted
    · cases h
  · refine .inr (.inr (hcall (fun _ => ?_) h))
    unfold renew
    split_ifs
    · exact .done _
    · exact ⟨rfl, ⟨rfl, rfl⟩, fun _ h => h, .inl ⟨rfl, rfl⟩, trivial⟩
  · rename_i reply now hphase
    refine .inr (.inr (hreply (by simp [hphase]) ?_ h))
    cases reply with
    | error e => exact .done _
    | ok ch => exact renewChallenge_sound ch now
  · rename_i reply now written ch hphase
    refine .inr (.inr (hreply (by simp [hphase]) ?_ h))
    cases reply with
    | error e => exact .done _
    | ok s =>
      apply acceptSession_sound written
      rintro rfl haccepted
      exact .renewed hphase haccepted
  · exact .inr (.inr (hcall (fun _ => heartbeat_sound ..) h))
  · exact .inr (.inr (hcall (fun _ => clearRegistration_sound _) h))
  · exact .inr (.inr (hcall (fun _ => setControllerURL_sound ..) h))
  · cases h

/-- The running process has what was last written, but for the URL that it was started with. -/
def Agrees (c : NodeClient) : Prop :=
  c.state = { c.stored with controllerURL := c.state.controllerURL } ∧
    (c.state.controllerURL = c.stored.controllerURL ∨ c.state.controllerURL = c.taken)

structure Persistent (c : NodeClient) : Prop where
  agrees : c.instanceID.isSome → c.Agrees
  running : c.phase ≠ .idle → c.instanceID.isSome
  waiting : c.Waiting
  requests : ∀ p, c.stored.pending = some p →
    p.challenge ∈ c.signed ∧ p.signature = c.sign p.challenge ∧ validToken p.challenge.nodeID

theorem Sound.persistent (h : Sound c a c') (hrunning : c.instanceID.isSome) (hc : c.Persistent) :
    c'.Persistent := by
  have hrunning' : c'.instanceID.isSome := by rw [h.process.1]; exact hrunning
  obtain ⟨hstate, hurl⟩ := hc.agrees hrunning
  have hpending : c.state.pending = c.stored.pending := by rw [hstate]
  rcases h.record with ⟨hs, hf⟩ | ⟨hupdate, hf⟩
  · have hstored : c'.stored = c.stored := by rw [stored, stored, hf]
    refine ⟨fun _ => ?_, fun _ => hrunning', h.waiting, fun p hp => ?_⟩
    · rw [Agrees, hs, hstored, h.process.2]
      exact ⟨hstate, hurl⟩
    · rw [hstored] at hp
      obtain ⟨hsigned, hrest⟩ := hc.requests p hp
      exact ⟨h.signed _ hsigned, by rw [h.sign]; exact hrest⟩
  · have hstored : c'.stored = c'.state := by rw [stored, hf, Option.getD_some]
    refine ⟨fun _ => ?_, fun _ => hrunning', h.waiting, fun p hp => ?_⟩
    · rw [Agrees, hstored]
      exact ⟨rfl, .inl rfl⟩
    · -- a request that was written is a new one, or was there before
      rw [hstored] at hp
      have hkept : c.state.pending = some p →
          p.challenge ∈ c'.signed ∧ p.signature = c'.sign p.challenge ∧
            validToken p.challenge.nodeID := by
        intro hold
        rw [hpending] at hold
        obtain ⟨hsigned, hrest⟩ := hc.requests p hold
        exact ⟨h.signed _ hsigned, by rw [h.sign]; exact hrest⟩
      generalize c'.state = r at hupdate hp
      cases hupdate with
      | request hphase hown hnode =>
        cases hp
        exact ⟨hown, by rw [h.sign], hnode⟩
      | enrolled => cases hp
      | renewed => cases hp
      | refused => cases hp
      | lease => exact hkept hp
      | cleared => cases hp
      | moved => exact hkept hp

theorem Persistent.act {r : Answer} (hc : c.Persistent) (h : c.act origin a = some (c', r)) :
    c'.Persistent := by
  rcases act_cases hc.running h with ⟨url, instance_, rfl⟩ | rfl | ⟨hrunning, hsound⟩
  · exact ⟨fun _ => ⟨rfl, .inr rfl⟩, fun h => absurd rfl h, trivial, hc.requests⟩
  · exact ⟨fun h => (by cases h), fun h => absurd rfl h, trivial, hc.requests⟩
  · exact hsound.persistent hrunning hc

theorem Run.persistent (q : Run origin) {i : ℕ} (hi : i ≤ q.len) : (q.state i).Persistent := by
  refine Reachable.invariant (q.reachable hi) ?_ fun c a c' _ hc ⟨r, ha⟩ => hc.act ha
  rintro c ⟨publicKey, sign, rfl⟩
  exact ⟨fun h => (by cases h), fun h => absurd rfl h, trivial, fun p hp => (by cases hp)⟩

def Answers (s : NodeSession) (ch : NodeChallenge) : Prop :=
  s.clusterID = ch.clusterID ∧ s.nodeID = ch.nodeID ∧ s.instanceID = ch.instanceID

theorem answers_of_acceptable {s : NodeSession} {ch : NodeChallenge} {now : ℕ → Int}
    (h : EnrollmentClient.acceptable s ch now) : Answers s ch := by
  simp only [EnrollmentClient.acceptable, Bool.and_eq_true, decide_eq_true_eq] at h
  exact ⟨h.1.1.1.1.1.1.1.1, h.1.1.1.1.1.1.1.2, h.1.1.1.1.1.1.2⟩

/-- The challenge whose proof was sent and is being answered. -/
def answered (c : NodeClient) : Option NodeChallenge :=
  match c.phase with
  | .enrollSession _ => c.state.pending.map (·.challenge)
  | .renewSession ch => some ch
  | _ => none

def SameSession (s s' : NodeSession) : Prop := { s' with leaseUntil := s.leaseUntil } = s

inductive Dropped (c : NodeClient) (p : EnrollmentRequest) (c' : NodeClient) : ClientCall → Prop
  | enrolled {s : NodeSession} {now : ℕ → Int} (session : c'.stored.session = s) :
      Dropped c p c' (.enrollSession (.ok s) now true)
  | renewed {s : NodeSession} {now : ℕ → Int} (session : c'.stored.session = s) :
      Dropped c p c' (.renewSession (.ok s) now true)
  | cleared : Dropped c p c' (.clear true)
  | replaced {code : String} {n : ℕ} {ch : NodeChallenge} {now : ℕ → Int}
      (phase : c.phase = .enrollChallenge code n) (other : p.code ≠ code) :
      Dropped c p c' (.enrollChallenge (.ok ch) now true)
  | expired {now : ℕ → Int} (expired : p.challenge.expiresAt.time ≤ now 0) :
      Dropped c p c' (.enrollSession (.error .proofRejected) now true)

theorem Persistent.stores {r : Answer} (hc : c.Persistent) (h : c.act origin a = some (c', r))
    (hs : c'.stored.session.nodeID ≠ "") : SameSession c'.stored.session c.stored.session ∨
      ∃ ch ∈ c.signed, c.answered = some ch ∧ Answers c'.stored.session ch := by
  rcases act_cases hc.running h with ⟨url, instance_, rfl⟩ | rfl | ⟨hrunning, hsound⟩
  · exact .inl rfl
  · exact .inl rfl
  have hsession : c.state.session = c.stored.session := by rw [(hc.agrees hrunning).1]
  have hpending : c.state.pending = c.stored.pending := by rw [(hc.agrees hrunning).1]
  rcases hsound.record with ⟨-, hf⟩ | ⟨hupdate, hf⟩
  · have hstored : c'.stored = c.stored := by rw [stored, stored, hf]
    rw [hstored]
    exact .inl rfl
  · have hstored : c'.stored = c'.state := by rw [stored, hf, Option.getD_some]
    rw [hstored] at hs ⊢
    rw [← hsession]
    generalize c'.state = r at hupdate hs ⊢
    cases hupdate with
    | request => exact .inl rfl
    | enrolled hphase hp haccepted =>
      refine .inr ⟨_, (hc.requests _ (hpending ▸ hp)).1, ?_, answers_of_acceptable haccepted⟩
      simp only [answered, hphase, hp, Option.map_some]
    | renewed hphase haccepted =>
      have hwaiting := hc.waiting
      rw [Waiting, hphase] at hwaiting
      refine .inr ⟨_, hwaiting, ?_, answers_of_acceptable haccepted⟩
      simp only [answered, hphase]
    | refused => exact .inl rfl
    | lease => exact .inl rfl
    | cleared => exact absurd rfl hs
    | moved => exact .inl rfl

theorem Persistent.drops {r : Answer} (hc : c.Persistent) (h : c.act origin a = some (c', r))
    {p : EnrollmentRequest} (hp : c.stored.pending = some p) (hp' : c'.stored.pending ≠ some p) :
    Dropped c p c' a := by
  rcases act_cases hc.running h with ⟨url, instance_, rfl⟩ | rfl | ⟨hrunning, hsound⟩
  · exact absurd hp hp'
  · exact absurd hp hp'
  have hpending : c.state.pending = some p := by rw [(hc.agrees hrunning).1]; exact hp
  rcases hsound.record with ⟨-, hf⟩ | ⟨hupdate, hf⟩
  · have hstored : c'.stored = c.stored := by rw [stored, stored, hf]
    rw [hstored] at hp'
    exact absurd hp hp'
  · have hstored : c'.stored = c'.state := by rw [stored, hf, Option.getD_some]
    rw [hstored] at hp'
    generalize hr : c'.state = r at hupdate hp'
    rw [hr] at hstored
    cases hupdate with
    | request hphase hown =>
      have hwaiting := hc.waiting
      rw [Waiting, hphase] at hwaiting
      exact .replaced hphase (hwaiting p hpending)
    | enrolled => exact .enrolled (by rw [hstored])
    | renewed => exact .renewed (by rw [hstored])
    | refused hphase hq hexpired =>
      cases hpending.symm.trans hq
      exact .expired hexpired
    | lease => exact absurd hpending hp'
    | cleared => exact .cleared
    | moved => exact absurd hpending hp'

/-- Whatever is written or fails to be written, a process has the registration that was written
last, and what it sends is on disk.  A step stores a session only if it fits the challenge that it
answers, which the node has signed, and drops a request only for one of four reasons. -/
theorem Run.memory_is_disk (origin : String → Option String) (q : Run origin) :
    (∀ i ≤ q.len, (q.state i).instanceID.isSome → (q.state i).Agrees ∧
      ∀ n, (q.state i).phase = .enrollSession n → ∃ p, (q.state i).state.pending = some p ∧
        (q.state i).stored.pending = some p ∧ p.signature = (q.state i).sign p.challenge) ∧
    ∀ i < q.len,
      ((q.state (i + 1)).stored.session.nodeID ≠ "" →
        SameSession (q.state (i + 1)).stored.session (q.state i).stored.session ∨
        ∃ ch ∈ (q.state i).signed, (q.state i).answered = some ch ∧
          Answers (q.state (i + 1)).stored.session ch) ∧
      ∀ p, (q.state i).stored.pending = some p → (q.state (i + 1)).stored.pending ≠ some p →
        Dropped (q.state i) p (q.state (i + 1)) (q.label i) := by
  constructor
  · intro i hi hrunning
    have hc := q.persistent hi
    refine ⟨hc.agrees hrunning, fun n hn => ?_⟩
    have hwaiting := hc.waiting
    rw [Waiting, hn] at hwaiting
    obtain ⟨p, hp⟩ := hwaiting
    have hsaved : (q.state i).stored.pending = some p := by
      rw [(hc.agrees hrunning).1] at hp
      exact hp
    exact ⟨p, hp, hsaved, (hc.requests p hsaved).2.1⟩
  · intro i hi
    obtain ⟨r, hact⟩ := q.next i hi
    have hc := q.persistent hi.le
    exact ⟨hc.stores hact, fun p hp hp' => hc.drops hact hp hp'⟩

def forget (r : StoredRegistration) : NodeRegistration where
  domain := r.domain
  session := if r.session.nodeID = "" then none else some r.session
  pending := r.pending

def enrolling (c : NodeClient) : EnrollmentClient where
  publicKey := c.publicKey
  sign := c.sign
  saved := forget c.stored
  instanceID := c.instanceID
  state := forget c.state
  phase := match c.phase with
    | .enrollChallenge code n => .challenge code n
    | .enrollSession n => .session n
    | _ => .idle

def enrollingAct : ClientCall → Option ClientAct
  | .start _ instance_ => some (.start instance_)
  | .stop => some .stop
  | .enroll code => some (.enroll code)
  | .enrollChallenge (.ok ch) now written => some (.challenge ch now written)
  | .enrollChallenge (.error _) _ _ => some .fail
  | .enrollSession (.ok s) now written => some (.session s now written)
  | .enrollSession (.error .proofRejected) now written => some (.reject (now 0) written)
  | .enrollSession (.error _) _ _ => some .fail
  | .clear written => some (.clear written)
  | _ => none

theorem forget_session {r : StoredRegistration} : (forget r).session = none ↔
    r.session.nodeID = "" := by
  simp [forget]

theorem enrolling_attempt (c : NodeClient) (code : String) (n : ℕ) :
    (c.attempt code n).1.enrolling = { c.enrolling with phase := c.enrolling.attempt code n } := by
  have hattempt : c.enrolling.attempt code n =
      if c.state.pending.any fun p => p.code = code then .session n else .challenge code n := rfl
  rw [hattempt]
  unfold attempt
  split_ifs <;> rfl

theorem enrolling_idle (h : c.phase = .idle) : c.enrolling.phase = .idle := by
  simp only [enrolling, h]

theorem forget_accepted {r : StoredRegistration} {s : NodeSession} {ch : NodeChallenge}
    {now : ℕ → Int} (h : EnrollmentClient.acceptable s ch now) (hnode : validToken ch.nodeID) :
    forget { r with session := s, domain := ch.domain, pending := none } =
      { forget r with session := some s, domain := ch.domain, pending := none } := by
  have hne : s.nodeID ≠ "" := by
    rw [(answers_of_acceptable h).2.1]
    intro hempty
    rw [hempty] at hnode
    cases hnode
  simp only [forget, if_neg hne]

theorem enroll_refines {code : String} (hphase : c.phase = .idle) (hrunning : c.instanceID.isSome) :
    c.enrolling.act (.enroll code) = some (c.enroll code).1.enrolling ∨
      (c.enroll code).1.enrolling = c.enrolling := by
  have hidle := enrolling_idle hphase
  unfold enroll
  split_ifs with hcode hsession
  · right
    simp only [done, enrolling, hphase]
    rfl
  · right
    simp only [done, enrolling, hphase]
    rfl
  · left
    have hnone : c.enrolling.state.session = none := forget_session.mpr (not_not.mp hsession)
    rw [enrolling_attempt, EnrollmentClient.act, if_pos]
    exact ⟨hrunning, hidle, by simpa using hcode, hnone⟩

theorem enrollChallenge_refines {code : String} {n : ℕ} {ch : NodeChallenge} {now : ℕ → Int}
    {written : Bool} (hphase : c.phase = .enrollChallenge code n) :
    c.enrolling.act (.challenge ch now written) =
      some (c.enrollChallenge code n ch now written).1.enrolling := by
  have hphase' : c.enrolling.phase = .challenge code n := by simp only [enrolling, hphase]
  have hvalid : c.enrolling.validChallenge ch .enroll now =
    c.checks.validChallenge ch .enroll now := rfl
  rw [EnrollmentClient.act, hphase']
  simp only [hvalid]
  unfold enrollChallenge
  split
  · cases written <;> rfl
  · rfl

theorem acceptSession_refines {n : ℕ} {p : EnrollmentRequest} {s : NodeSession} {now : ℕ → Int}
    {written : Bool} (hphase : c.phase = .enrollSession n) (hpending : c.state.pending = some p)
    (hnode : validToken p.challenge.nodeID) :
    c.enrolling.act (.session s now written) =
      some (c.acceptSession s p.challenge now written).1.enrolling := by
  have hphase' : c.enrolling.phase = .session n := by simp only [enrolling, hphase]
  have hpending' : c.enrolling.state.pending = some p := hpending
  rw [EnrollmentClient.act, hphase', hpending']
  unfold acceptSession
  dsimp only
  split
  · rename_i haccepted
    have hforget := forget_accepted (r := c.state) haccepted hnode
    cases written with
    | true =>
      simp only [EnrollmentClient.saveRegistration, if_true, saveRegistration, done, enrolling,
        stored, Option.getD_some, hforget]
    | false => rfl
  · rfl

theorem enrollRefused_refines {n : ℕ} {p : EnrollmentRequest} {now : Int} {written : Bool}
    (hphase : c.phase = .enrollSession n) (hpending : c.state.pending = some p) :
    c.enrolling.act (.reject now written) =
      some (c.enrollRefused n p .proofRejected now written).1.enrolling := by
  have hphase' : c.enrolling.phase = .session n := by simp only [enrolling, hphase]
  have hpending' : c.enrolling.state.pending = some p := hpending
  rw [EnrollmentClient.act, hphase', hpending']
  unfold enrollRefused
  simp only [true_and]
  split
  · cases written <;> rfl
  · rfl

theorem done_refines (r : Except ClientErr NodeSession) :
    c.enrolling.act .fail = some (c.done r).1.enrolling := rfl

/-- Each step of the client is a step of the one that enrolls, or leaves it as it is. -/
theorem Persistent.refines {r : Answer} {b : ClientAct} (hc : c.Persistent)
    (h : c.act origin a = some (c', r)) (hb : enrollingAct a = some b) :
    c.enrolling.act b = some c'.enrolling ∨ c'.enrolling = c.enrolling := by
  have hresult : ∀ {x : NodeClient × Answer}, some x = some (c', r) → c' = x.1 := by
    intro x hx
    cases hx
    rfl
  -- The acts of renewal have no counterpart in the enrolling client, so `hb` excludes them.
  unfold NodeClient.act at h
  split at h
  · cases hb
    obtain ⟨c₁, hc₁, heq⟩ := Option.map_eq_some_iff.mp h
    cases heq
    obtain ⟨url, rfl⟩ := start_ok hc₁
    exact .inl rfl
  · cases hb
    cases h
    exact .inl rfl
  · rename_i code hphase
    cases hb
    split_ifs at h with hrunning
    rw [hresult h]
    exact enroll_refines hphase hrunning
  · rename_i reply now written code n hphase
    left
    rw [hresult h]
    cases reply with
    | error e =>
      cases hb
      exact done_refines _
    | ok ch =>
      cases hb
      exact enrollChallenge_refines hphase
  · rename_i reply now written n hphase
    left
    split at h
    · rename_i p e hpending
      rw [hresult h]
      have hother : e ≠ .proofRejected → c.enrolling.act .fail =
          some (c.enrollRefused n p e (now 0) written).1.enrolling := by
        intro he
        rw [enrollRefused, if_neg (fun h => he h.2.1)]
        exact done_refines _
      cases e with
      | proofRejected =>
        cases hb
        exact enrollRefused_refines hphase hpending
      | _ =>
        cases hb
        exact hother (by simp)
    · rename_i p s hpending
      cases hb
      rw [hresult h]
      have hrunning := hc.running (by simp [hphase])
      have hsaved : c.stored.pending = some p := by
        rw [(hc.agrees hrunning).1] at hpending
        exact hpending
      exact acceptSession_refines hphase hpending (hc.requests p hsaved).2.2
    · cases h
  · cases hb
  · cases hb
  · cases hb
  · cases hb
  · rename_i written hphase
    cases hb
    split_ifs at h with hrunning
    rw [hresult h]
    left
    rw [EnrollmentClient.act, if_pos ⟨hrunning, enrolling_idle hphase⟩]
    cases written with
    | true => rfl
    | false => rfl
  · cases hb
  · cases h

end NodeClient

end UniDERP.Node
