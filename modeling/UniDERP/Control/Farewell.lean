import UniDERP.Control.Updates

namespace UniDERP

namespace Hub

variable {E : Env} {h h' : Hub} {x : ℕ} {s s' : ControlStream} {a : HubAct}

inductive Touches (E : Env) (db : DB) (x : ℕ) (s : ControlStream) : HubAct → ControlStream → Prop
  | moves {step : StreamStep} {s' : ControlStream} (moves : s.Moves E db step s') :
      Touches E db x s (.stream x step) s'
  | registers (phase : s.phase = .opened) (changed done : Bool) : Touches E db x s (.register x)
      { s with phase := .registered, changed := changed, done := done }
  | leaves (phase : s.phase = .ended) : Touches E db x s (.unregister x) { s with phase := .gone }
  | told {a : HubAct} (changed done : Bool) :
      Touches E db x s a { s with changed := changed, done := done }

theorem stop_told (hs : h.streams.get? x = some s) (y : ℕ) :
    ∃ done, (h.stop y).streams.get? x = some { s with done := done } := by
  by_cases hxy : x = y
  · subst hxy
    exact ⟨true, by simp [stop, hs]⟩
  · exact ⟨s.done, by simp [stop, Table.get?_modify_ne _ _ hxy, hs]⟩

theorem notify_told (hs : h.streams.get? x = some s) (n : Notice) :
    ∃ changed done, (h.notify n).streams.get? x =
      some { s with changed := changed, done := done } := by
  cases n with
  | policy id =>
    cases hy : h.policyStreams.get? id with
    | none => exact ⟨s.changed, s.done, by simp [notify, hy, hs]⟩
    | some y =>
      by_cases hxy : x = y
      · subst hxy
        exact ⟨true, s.done, by simp [notify, hy, hs]⟩
      · exact ⟨s.changed, s.done, by simp [notify, hy, Table.get?_modify_ne _ _ hxy, hs]⟩
  | policies =>
    cases hreg : h.policyStreams.any fun _ y => y = x with
    | true => exact ⟨true, s.done, by simp [notify, hs, hreg]⟩
    | false => exact ⟨s.changed, s.done, by simp [notify, hs, hreg]⟩
  | close id =>
    cases hy : h.policyStreams.get? id with
    | none => exact ⟨s.changed, s.done, by simp [notify, hy, hs]⟩
    | some y =>
      obtain ⟨done, hdone⟩ := stop_told hs y
      exact ⟨s.changed, done, by simpa [notify, hy] using hdone⟩

theorem register_told (hs : h.streams.get? x = some s) {y : ℕ} (hxy : x ≠ y) (t : ControlStream) :
    ∃ done, (h.register y t).streams.get? x = some { s with done := done } := by
  cases hz : h.policyStreams.get? t.nodeID with
  | none => exact ⟨s.done, by simp [register, hz, Table.get?_modify_ne _ _ hxy, hs]⟩
  | some z =>
    obtain ⟨done, hdone⟩ := stop_told hs z
    exact ⟨done, by simp [register, hz, Table.get?_modify_ne _ _ hxy, hdone]⟩

theorem register_registers (hs : h.streams.get? x = some s) (t : ControlStream) :
    ∃ done, (h.register x t).streams.get? x =
      some { s with phase := .registered, done := done } := by
  cases hz : h.policyStreams.get? t.nodeID with
  | none => exact ⟨s.done, by simp [register, hz, hs]⟩
  | some z =>
    obtain ⟨done, hdone⟩ := stop_told hs z
    exact ⟨done, by simp [register, hz, hdone]⟩

/-- A stream that exists stays, and a step does one of four things to it. -/
theorem touches (hs : h.streams.get? x = some s) (hact : h.act E a = some h') :
    ∃ s', h'.streams.get? x = some s' ∧ Touches E h.db x s a s' := by
  have hsame : ∀ {a : HubAct}, Touches E h.db x s a s := .told s.changed s.done
  cases a <;> simp only [Hub.act, Option.bind_eq_bind, Option.bind_eq_some_iff,
    Option.guard_eq_some', exists_const, toOption_eq_some, Option.pure_def, Option.some.injEq,
    Prod.exists] at hact
  case commit =>
    obtain ⟨-, db, reply, -, rfl⟩ := hact
    exact ⟨s, hs, hsame⟩
  case notify n =>
    obtain ⟨-, rfl⟩ := hact
    obtain ⟨changed, done, hs'⟩ := notify_told hs n
    exact ⟨_, hs', .told changed done⟩
  -- A new stream takes a number that is free.
  case accept y now token applied =>
    obtain ⟨hfresh, session, -, rfl⟩ := hact
    have hxy : x ≠ y := by
      rintro rfl
      cases hfresh.symm.trans hs
    exact ⟨s, (Table.get?_insert_ne _ _ hxy).trans hs, hsame⟩
  case register y =>
    obtain ⟨t, ht, hphase, rfl⟩ := hact
    by_cases hxy : x = y
    · subst hxy
      cases hs.symm.trans ht
      obtain ⟨done, hs'⟩ := register_registers hs s
      exact ⟨_, hs', .registers hphase s.changed done⟩
    · obtain ⟨done, hs'⟩ := register_told hs hxy t
      exact ⟨_, hs', .told s.changed done⟩
  case stream y step =>
    obtain ⟨t, ht, t', hmoves, rfl⟩ := hact
    by_cases hxy : x = y
    · subst hxy
      cases hs.symm.trans ht
      exact ⟨t', Table.get?_insert_self _ _ _, .moves (ControlStream.act_moves hmoves)⟩
    · exact ⟨s, (Table.get?_insert_ne _ _ hxy).trans hs, hsame⟩
  case unregister y =>
    obtain ⟨t, ht, hphase, rfl⟩ := hact
    by_cases hxy : x = y
    · subst hxy
      cases hs.symm.trans ht
      exact ⟨_, Table.get?_insert_self _ _ _, .leaves hphase⟩
    · exact ⟨s, (Table.get?_insert_ne _ _ hxy).trans hs, hsame⟩

end Hub

/-- The node's stored policy grants nobody, and no check of the handler's session succeeds. -/
structure ControlStream.Severed (E : Env) (db : DB) (s : ControlStream) : Prop where
  policy : (db.policies.get? s.nodeID).any fun row => row.policyJSON.any (·.grants.isEmpty)
  session : ∀ now, s.authenticates E now db = false

/-- The handler has written its first policy and waits for changes, or is busy with one. -/
def StreamPhase.listening : StreamPhase → Bool
  | .waiting | .signalled | .read _ | .update _ => true
  | _ => false

def ControlStream.toldNobody (s : ControlStream) : Bool := s.written.head?.any (·.grants.isEmpty)

def ControlStream.leaving (s : ControlStream) : Bool :=
  match s.phase with
  | .waiting | .signalled | .update _ => true
  | .read p | .farewell p => p.grants.isEmpty
  | .ended | .gone => s.toldNobody
  | _ => false

section Leaving

variable {E : Env} {db : DB} {s s' : ControlStream}

theorem ControlStream.Severed.read (hs : s.Severed E db) (hf : Fresh E db) :
    ∃ p, currentPolicy E s.nodeID db = .ok p ∧ p.grants = [] := by
  obtain ⟨row, hrow, hbody⟩ := (Option.any_eq_true _ _).mp hs.policy
  obtain ⟨entries, p, -, hp, -, -, hstorable⟩ := hf s.nodeID row hrow
  rw [hp, Option.any_some, List.isEmpty_iff] at hbody
  refine ⟨p, ?_, hbody⟩
  simp [currentPolicy, hrow, hp, hstorable.size, hstorable.wellFormed]

/-- Of all that a handler does by itself, only a tick or the loss of the client takes it from its
way. -/
theorem ControlStream.Severed.moves (hs : s.Severed E db) (hf : Fresh E db) (hleaving : s.leaving)
    (hdone : s.done = false) {step : StreamStep} (hm : s.Moves E db step s')
    (hcancel : step ≠ .cancel) (htick : ∀ now, step ≠ .tick now) : s'.leaving := by
  obtain ⟨p₀, hread, hgrants₀⟩ := hs.read hf
  -- The session is gone, so an update is not written; what is read from now on has no grants.
  cases hm with
  | ends why =>
    cases why with
    | unread phase missing => exact absurd hread (missing p₀)
    | refused phase => simp [leaving, phase] at hleaving
    | denied phase session grants =>
      simp only [leaving, phase, List.isEmpty_iff] at hleaving
      exact absurd hleaving grants
    | stopped done => simp [hdone] at done
    | expired phase => exact absurd rfl (htick _)
    | finished phase done => simp [hdone] at done
    | cancelled => exact absurd rfl hcancel
  | first phase => simp [leaving, phase] at hleaving
  | read phase policy =>
    cases hread.symm.trans policy
    simpa [leaving] using hgrants₀
  | greet phase => simp [leaving, phase] at hleaving
  | update phase session => simp [hs.session] at session
  | settle phase session => simp [hs.session] at session
  | farewell phase session grants => simpa [leaving] using grants
  | write => rfl
  | lastWrite phase =>
    simp only [leaving, phase] at hleaving
    simpa [leaving, toldNobody] using hleaving
  | take => rfl
  | ping => exact hleaving

theorem ControlStream.Severed.touches (hs : s.Severed E db) (hf : Fresh E db) (hleaving : s.leaving)
    (hdone : s.done = false) {x : ℕ} {a : HubAct} (ht : Hub.Touches E db x s a s')
    (hcancel : a ≠ .stream x .cancel) (htick : ∀ now, a ≠ .stream x (.tick now)) : s'.leaving := by
  cases ht with
  | moves hm =>
    exact hs.moves hf hleaving hdone hm (fun h => hcancel (h ▸ rfl)) fun now h => htick now (h ▸ rfl)
  | registers phase => simp [leaving, phase] at hleaving
  | leaves phase => simpa [leaving, phase, toldNobody] using hleaving
  | told => exact hleaving

def ControlStream.stale (E : Env) (db : DB) (s : ControlStream) : Bool :=
  (db.nodeSessions.get? (E.tokenHash s.token)).all fun row =>
    (db.nodes.get? row.nodeID).all fun n => !db.userEnabled n.ownerID

theorem ControlStream.authenticates_of_stale (h : s.stale E db) (now : Int) :
    s.authenticates E now db = false := by
  unfold authenticates
  split
  · obtain ⟨-, row, n, hlive, -⟩ := nodeSession_eq_ok.mp ‹_›
    obtain ⟨hrow, hn, -, -, -, henabled⟩ := liveSession_eq_some.mp hlive
    simp [stale, hrow, hn, henabled] at h
  · rfl

theorem ControlStream.Severed.congr (h : s.Severed E db) (htoken : s'.token = s.token)
    (hnode : s'.nodeID = s.nodeID) (hinstance : s'.instanceID = s.instanceID) :
    s'.Severed E db := by
  refine ⟨hnode ▸ h.policy, fun now => ?_⟩
  have hsame := h.session now
  rwa [authenticates, ← htoken, ← hinstance] at hsame

theorem Hub.Touches.same {x : ℕ} {a : HubAct} (ht : Touches E db x s a s') :
    s'.token = s.token ∧ s'.nodeID = s.nodeID ∧ s'.instanceID = s.instanceID := by
  cases ht with
  | moves hm => cases hm <;> exact ⟨rfl, rfl, rfl⟩
  | registers => exact ⟨rfl, rfl, rfl⟩
  | leaves => exact ⟨rfl, rfl, rfl⟩
  | told => exact ⟨rfl, rfl, rfl⟩

end Leaving

namespace Hub.Run

variable {E : Env} {r : Hub.Run E}

variable (r) in
/-- Step `k` commits a transaction that ends the session of an open stream and leaves the node's
policy without grants. -/
structure Severs (x k : ℕ) (s : ControlStream) : Prop where
  commit : k < r.len ∧ ∃ c op, r.label k = .commit c op
  stream : (r.state k).streams.get? x = some s
  listening : s.phase.listening ∧ s.done = false
  live : ∃ now, s.authenticates E now (r.state k).db
  severed : s.Severed E (r.state (k + 1)).db

variable (r) in
/-- After the commit `k` and until `e` the session stays ended, nothing stops the stream, the client
stays and the stream's timer does not fire. -/
structure Undisturbed (x k e : ℕ) (s : ControlStream) : Prop where
  severed : ∀ i, k < i → i < e → s.Severed E (r.state i).db
  running : ∀ i t, k < i → i < e → (r.state i).streams.get? x = some t → t.done = false
  client : ∀ i, k < i → i < e → r.label i ≠ .stream x .cancel
  timer : ∀ i now, k < i → i < e → r.label i ≠ .stream x (.tick now)

theorem of_acts {acts : List HubAct} {h : Hub} (hplay : Run.play (Hub.act E) acts {} = some h) :
    ∃ r : Hub.Run E, r.len = acts.length ∧
      (∀ i ≤ acts.length, Run.play (Hub.act E) (acts.take i) {} = some (r.state i)) ∧
      ∀ i a, acts[i]? = some a → r.label i = a :=
  UniDERP.Run.of_play (R := Eq) (fun _ a _ h => ⟨a, rfl, h⟩) (HubAct.notify .policies) rfl hplay

end Hub.Run

namespace First

def streaming : List HubAct :=
  (enrolling ++ granting).map (.commit clock ·) ++ [
    .accept 0 (clock.read 0) session.text 0, .register 0, .stream 0 .read,
    .stream 0 (.authenticate (clock.read 0)), .stream 0 .write]

def nextCode : Token := ⟨token '4', token_valid rfl⟩

def disabling : HubAct := .commit clock (.setUserEnabled admin owner.text false)

def signalled : List HubAct := streaming ++ [
  disabling, .notify .policies, .stream 0 .take, .stream 0 .read,
  .stream 0 (.authenticate (clock.read 0)), .stream 0 .write]

def ticked : List HubAct := streaming ++ [disabling, .stream 0 (.tick (clock.read 0))]

def crossed : List HubAct := streaming ++ [
  .notify .policies, .stream 0 .take, .stream 0 .read, disabling,
  .stream 0 (.authenticate (clock.read 0))]

def reissued : List HubAct := streaming ++ [
  .commit clock (.issueEnrollment admin node.text nextCode), .notify (.close node.text),
  .stream 0 .finish]

/-- What the first `k` acts lead to, for the first stream. -/
def streamAfter (E : Env) (acts : List HubAct) (k : ℕ) : Option (DB × ControlStream) := do
  let h ← Run.play (Hub.act E) (acts.take k) {}
  let s ← h.streams.get? 0
  pure (h.db, s)

/-- Act `k` ends the session, and the later ones leave it so. -/
def severing (E : Env) (acts : List HubAct) (k : ℕ) : Bool :=
  (streamAfter E acts k).any fun (db, s) =>
    s.phase.listening && !s.done && s.authenticates E (clock.read 0) db &&
      (List.range (acts.length + 1)).all fun i => i ≤ k || (streamAfter E acts i).any fun (db, _) =>
        ((db.policies.get? s.nodeID).any fun row => row.policyJSON.any (·.grants.isEmpty)) &&
          s.stale E db

theorem severing_severs {E : Env} {acts : List HubAct} {k : ℕ} {c : Clock} {op : Op}
    (hsevering : severing E acts k) (hcommit : acts[k]? = some (.commit c op)) :
    ∃ (r : Hub.Run E) (s : ControlStream), r.len = acts.length ∧
      (∀ i a, acts[i]? = some a → r.label i = a) ∧
      (∀ i ≤ acts.length, ∀ x, streamAfter E acts i = some x →
        (r.state i).db = x.1 ∧ (r.state i).streams.get? 0 = some x.2) ∧
      r.Severs 0 k s ∧ ∀ i, k < i → i ≤ acts.length → s.Severed E (r.state i).db := by
  obtain ⟨⟨db, s⟩, hs, hfacts⟩ := (Option.any_eq_true _ _).mp hsevering
  simp only [Bool.and_eq_true, Bool.not_eq_true', List.all_eq_true, List.mem_range,
    Nat.lt_succ_iff, Bool.or_eq_true, decide_eq_true_eq] at hfacts
  obtain ⟨⟨⟨hlistening, hdone⟩, hlive⟩, hlater⟩ := hfacts
  have hk : k < acts.length := (List.getElem?_eq_some_iff.mp hcommit).1
  -- The whole list of acts is played, since its last state is looked at too.
  have hplay : ∃ h, Run.play (Hub.act E) acts {} = some h := by
    obtain ⟨x, hx, -⟩ := (Option.any_eq_true _ _).mp
      ((hlater acts.length le_rfl).resolve_left (by omega))
    simp only [streamAfter, List.take_length, Option.bind_eq_bind, Option.bind_eq_some_iff] at hx
    obtain ⟨h, hplay, -⟩ := hx
    exact ⟨h, hplay⟩
  obtain ⟨h, hplay⟩ := hplay
  obtain ⟨r, hlen, hstate, hlabel⟩ := Hub.Run.of_acts hplay
  have hafter : ∀ i ≤ acts.length, ∀ x, streamAfter E acts i = some x →
      (r.state i).db = x.1 ∧ (r.state i).streams.get? 0 = some x.2 := by
    intro i hi x hx
    simp only [streamAfter, hstate i hi, Option.bind_eq_bind, Option.bind_some,
      Option.bind_eq_some_iff, Option.pure_def, Option.some.injEq] at hx
    obtain ⟨t, ht, rfl⟩ := hx
    exact ⟨rfl, ht⟩
  have hsevered : ∀ i, k < i → i ≤ acts.length → s.Severed E (r.state i).db := by
    intro i hki hi
    obtain ⟨x, hx, hfacts⟩ := (Option.any_eq_true _ _).mp ((hlater i hi).resolve_left (by omega))
    rw [Bool.and_eq_true, ← (hafter i hi x hx).1] at hfacts
    exact ⟨hfacts.1, ControlStream.authenticates_of_stale hfacts.2⟩
  obtain ⟨hdb, hstream⟩ := hafter k hk.le _ hs
  refine ⟨r, s, hlen, hlabel, hafter, ⟨⟨hlen ▸ hk, c, op, hlabel k _ hcommit⟩, hstream,
    ⟨hlistening, hdone⟩, ⟨clock.read 0, hdb ▸ hlive⟩, hsevered (k + 1) (by omega) (by omega)⟩,
    hsevered⟩

theorem severed_streams :
    (severing Env.plain signalled 11 ∧
      (∀ i ∈ [12, 13, 14, 15, 16], (streamAfter Env.plain signalled i).any fun x => !x.2.done) ∧
      (streamAfter Env.plain signalled 11).any (fun x => x.2.phase = .waiting) ∧
      (streamAfter Env.plain signalled 17).any fun x => x.2.phase = .ended) ∧
    ∀ x ∈ [(ticked, 11), (crossed, 14), (reissued, 11)], severing Env.plain x.1 x.2 ∧
      (streamAfter Env.plain x.1 x.1.length).any fun x => x.2.phase = .ended ∧ !x.2.toldNobody := by
  decide +kernel

end First

namespace Hub.Run

variable {E : Env} {r : Hub.Run E} {x k e : ℕ} {s t : ControlStream}

/-- A stream that is left to its signal writes a policy without grants before it ends, unless it had
read the policy before the commit. -/
theorem farewell_written (hsevers : r.Severs x k s) (hread : ∀ p, s.phase = .read p → p.grants = [])
    (hke : k < e) (he : e ≤ r.len) (hu : r.Undisturbed x k e s)
    (ht : (r.state e).streams.get? x = some t) (hended : t.phase = .ended ∨ t.phase = .gone) :
    t.toldNobody := by
  have hstart : s.leaving := by
    have hlistening := hsevers.listening.1
    cases hphase : s.phase <;> simp [hphase, StreamPhase.listening] at hlistening <;>
      simp [ControlStream.leaving, hphase]
    exact hread _ hphase
  -- The commit itself leaves the stream as it is.
  have hfirst : (r.state (k + 1)).streams.get? x = some s := by
    obtain ⟨hk, c, op, hlabel⟩ := hsevers.commit
    have hstep := r.next k hk
    rw [hlabel] at hstep
    simp only [Hub.Step, Hub.act, Option.bind_eq_bind, Option.bind_eq_some_iff,
      Option.guard_eq_some', exists_const, Option.pure_def, Option.some.injEq, Prod.exists] at hstep
    obtain ⟨-, db, reply, -, hnext⟩ := hstep
    rw [← hnext]
    exact hsevers.stream
  have hleaving : ∃ t, (r.state e).streams.get? x = some t ∧ t.leaving ∧ t.token = s.token ∧
      t.nodeID = s.nodeID ∧ t.instanceID = s.instanceID := by
    refine r.preserved (i := k + 1) (P := fun h => ∃ t, h.streams.get? x = some t ∧ t.leaving ∧
      t.token = s.token ∧ t.nodeID = s.nodeID ∧ t.instanceID = s.instanceID) hke
      ⟨s, hfirst, hstart, rfl, rfl, rfl⟩ fun i hki hie => ?_
    rintro ⟨t, ht, hleaving, htoken, hnode, hinstance⟩
    obtain ⟨t', ht', htouches⟩ := touches ht (r.next i (hie.trans_le he))
    have hsevered := (hu.severed i hki hie).congr htoken hnode hinstance
    obtain ⟨htoken', hnode', hinstance'⟩ := htouches.same
    exact ⟨t', ht', hsevered.touches (Run.inv r (by omega)).reachable.fresh hleaving
      (hu.running i t hki hie ht) htouches (hu.client i hki hie) fun now => hu.timer i now hki hie,
      htoken'.trans htoken, hnode'.trans hnode, hinstance'.trans hinstance⟩
  obtain ⟨t', ht', hleaving, -⟩ := hleaving
  cases ht.symm.trans ht'
  rcases hended with hphase | hphase <;> simpa [ControlStream.leaving, hphase] using hleaving

/-- The owner of the first node is disabled, and the stream writes the empty policy. -/
theorem first_farewell_written : ∃ (r : Hub.Run Env.plain) (s t : ControlStream), r.Severs 0 11 s ∧
    (r.state 17).streams.get? 0 = some t ∧ t.phase = .ended ∧ t.toldNobody := by
  obtain ⟨⟨hsevering, hrunning, hwaiting, hended⟩, -⟩ := First.severed_streams
  obtain ⟨r, s, hlen, hlabel, hafter, hsevers, hsevered⟩ := First.severing_severs hsevering rfl
  obtain ⟨x, hx, hphase⟩ := (Option.any_eq_true _ _).mp hwaiting
  obtain ⟨y, hy, hend⟩ := (Option.any_eq_true _ _).mp hended
  have hs := (hafter 11 (by decide) x hx).2
  cases hsevers.stream.symm.trans hs
  have ht := (hafter 17 (by decide) y hy).2
  have hlabels : ∀ i, 11 < i → i < 17 → r.label i ≠ .stream 0 .cancel ∧
      ∀ now, r.label i ≠ .stream 0 (.tick now) := by
    intro i hi hi'
    interval_cases i <;> rw [hlabel _ _ rfl] <;> simp
  refine ⟨r, _, _, hsevers, ht, by simpa using hend, farewell_written hsevers ?_ (by decide)
    (by rw [hlen]; decide) ⟨fun i hi hi' => hsevered i hi (by change i ≤ 17; omega), ?_,
      fun i hi hi' => (hlabels i hi hi').1, fun i now hi hi' => (hlabels i hi hi').2 now⟩ ht
    (.inl (by simpa using hend))⟩
  · intro p hp
    simp [hp] at hphase
  · intro i t hi hi' ht
    obtain ⟨z, hz, hdone⟩ := (Option.any_eq_true _ _).mp
      (hrunning i (by interval_cases i <;> simp))
    cases ht.symm.trans (hafter i (by change i ≤ 17; omega) z hz).2
    simpa using hdone

variable (r) in
/-- The last policy of every stream whose session is ended is one without grants, as long as its
client stays. -/
def BarsLast : Prop := ∀ x k e s t, r.Severs x k s → k < e → e ≤ r.len →
  (∀ i, k < i → i ≤ e → s.Severed E (r.state i).db) →
  (∀ i, k < i → i < e → r.label i ≠ .stream x .cancel) →
  (r.state e).streams.get? x = some t → t.phase = .ended ∨ t.phase = .gone → t.toldNobody

variable (r) in
def Performs (acts : List HubAct) : Prop :=
  r.len = acts.length ∧ ∀ i a, acts[i]? = some a → r.label i = a

theorem not_barsLast {acts : List HubAct} {k : ℕ} {c : Clock} {op : Op}
    (hsevering : First.severing Env.plain acts k) (hcommit : acts[k]? = some (.commit c op))
    (hcancel : ∀ a ∈ acts, a ≠ .stream 0 .cancel)
    (hend : (First.streamAfter Env.plain acts acts.length).any fun x =>
      x.2.phase = .ended ∧ !x.2.toldNobody) :
    ∃ r : Hub.Run Env.plain, r.Performs acts ∧ ¬ r.BarsLast := by
  obtain ⟨r, s, hlen, hlabel, hafter, hsevers, hsevered⟩ := First.severing_severs hsevering hcommit
  obtain ⟨x, hx, hfacts⟩ := (Option.any_eq_true _ _).mp hend
  simp only [Bool.not_eq_true', decide_eq_true_eq] at hfacts
  have hk : k < acts.length := (List.getElem?_eq_some_iff.mp hcommit).1
  refine ⟨r, ⟨hlen, hlabel⟩, fun hlast => ?_⟩
  have htold := hlast 0 k acts.length s x.2 hsevers hk hlen.ge hsevered (fun i hi hi' => ?_)
    (hafter _ le_rfl x hx).2 (.inl hfacts.1)
  · simp [hfacts.2] at htold
  · rw [hlabel i _ (List.getElem?_eq_getElem hi')]
    exact hcancel _ (List.getElem_mem hi')

/-- A tick before the signal, a read that crosses the commit, and a new enrollment code each leave
the node with its old policy. -/
theorem old_policy_kept :
    (∃ r : Hub.Run Env.plain, r.Performs First.ticked ∧ ¬ r.BarsLast) ∧
    (∃ r : Hub.Run Env.plain, r.Performs First.crossed ∧ ¬ r.BarsLast) ∧
    ∃ r : Hub.Run Env.plain, r.Performs First.reissued ∧ ¬ r.BarsLast := by
  obtain ⟨-, hends⟩ := First.severed_streams
  simp only [List.forall_mem_cons, List.not_mem_nil, false_imp_iff, implies_true, and_true] at hends
  obtain ⟨hticked, hcrossed, hreissued⟩ := hends
  refine ⟨not_barsLast hticked.1 rfl ?_ hticked.2, not_barsLast hcrossed.1 rfl ?_ hcrossed.2,
    not_barsLast hreissued.1 rfl ?_ hreissued.2⟩
  all_goals
    simp [First.ticked, First.crossed, First.reissued, First.streaming, First.disabling,
      First.enrolling, First.granting]

end Hub.Run

end UniDERP
