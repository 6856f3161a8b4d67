import UniDERP.Control.Effects

/-!
# Calls of several transactions

Four calls do something slow between two transactions: they probe a domain or fetch a device list.
While a call is away any number of others run, so what it remembers is state beside the database.
A call that ends without a result is abandoned; a response that is lost is a response nobody uses.
-/

namespace UniDERP

inductive Flight
  /-- `EnrollNode`, and whether the challenge's domain was verified. -/
  | enroll (req : EnrollmentRequest) (verified : Bool)
  /-- `RenewNodeSession` for a new domain. -/
  | renew (ch : NodeChallenge) (sig : Bytes) (verified : Bool)
  /-- `RefreshIdentity`. -/
  | refresh (id : String) (ticket : RefreshTicket)
  /-- `ReplaceCredential`, and the revision it read. -/
  | replace (actor : Actor) (id : String) (tailnet : Tailnet) (revision : Option ℕ)
  deriving DecidableEq

structure World where
  db : DB := DB.empty
  flights : Table ℕ Flight := ∅

/-- One thing that happens at the controller; calls in progress are numbered. -/
inductive Act
  | commit (c : Clock) (op : Op)
  | enrollBegin (call : ℕ) (c : Clock) (req : EnrollmentRequest)
  | enrollFinish (call : ℕ) (c : Clock) (token : Token) (box : Bytes)
  | renewBegin (call : ℕ) (c : Clock) (ch : NodeChallenge) (sig : Bytes)
  | renewFinish (call : ℕ) (c : Clock) (token : Token)
  | verifyDomain (call : ℕ)
  | refreshBegin (call : ℕ) (c : Clock) (id : String)
  | refreshFinish (call : ℕ) (c : Clock) (fetched : Option (List IdentityKey))
  | replaceBegin (call : ℕ) (actor : Actor) (id : String)
  | replaceRevision (call : ℕ)
  | replaceFinish (call : ℕ) (c : Clock) (encrypted : Bytes) (keys : List IdentityKey)
  | abandon (call : ℕ)

def Op.whole : Op → Bool
  | .enrollCommit .. | .refreshBegin .. | .refreshCommit .. | .replaceCommit .. => false
  | .renewNodeSession ch _ _ => ch.purpose ≠ .domainChange
  | _ => true

namespace World

/-- The transaction that an act commits. -/
def op (w : World) : Act → Option (Clock × Op)
  | .commit c op => some (c, op)
  | .enrollFinish call c token box => match w.flights.get? call with
    | some (.enroll req true) => some (c, .enrollCommit req token box)
    | _ => none
  | .renewFinish call c token => match w.flights.get? call with
    | some (.renew ch sig true) => some (c, .renewNodeSession ch sig token)
    | _ => none
  | .refreshBegin _ c id => some (c, .refreshBegin id)
  | .refreshFinish call c fetched => match w.flights.get? call with
    | some (.refresh id ticket) => some (c, .refreshCommit id ticket fetched)
    | _ => none
  | .replaceFinish call c encrypted keys => match w.flights.get? call with
    | some (.replace actor id _ (some revision)) =>
      some (c, .replaceCommit actor id revision encrypted keys)
    | _ => none
  | _ => none

/-- The act's transaction, if it commits; the calls in progress are then `flights`. -/
def transact (E : Env) (w : World) (act : Act) (flights : Reply → Table ℕ Flight) :
    Option (World × Option Reply) := do
  let (c, op) ← w.op act
  let (db, reply) ← (exec E c op w.db).toOption
  pure (⟨db, flights reply⟩, some reply)

def depart (w : World) (call : ℕ) (flight : Flight) : World :=
  { w with flights := w.flights.insert call flight }

/-- What an act does and answers; `none` if it fails or is not possible. -/
def step (E : Env) (w : World) (act : Act) : Option (World × Option Reply) :=
  match act with
  | .commit _ op => do
    guard op.whole
    w.transact E act fun _ => w.flights
  | .enrollBegin call c req => do
    guard (w.flights.get? call = none)
    match ← (enrollCheck E c req w.db).toOption with
    | some s => pure (w, some (.session s))
    | none => pure (w.depart call (.enroll req false), none)
  | .enrollFinish call .. => w.transact E act fun _ => w.flights.erase call
  | .renewBegin call c ch sig => do
    guard (w.flights.get? call = none)
    let _ ← (renewCheck E c ch sig w.db).toOption
    pure (w.depart call (.renew ch sig false), none)
  | .renewFinish call .. => w.transact E act fun _ => w.flights.erase call
  | .verifyDomain call => match w.flights.get? call with
    | some (.enroll req false) => pure (w.depart call (.enroll req true), none)
    | some (.renew ch sig false) => pure (w.depart call (.renew ch sig true), none)
    | _ => none
  | .refreshBegin call _ id => do
    guard (w.flights.get? call = none)
    w.transact E act fun
      | .ticket t => w.flights.insert call (.refresh id t)
      | _ => w.flights
  | .refreshFinish call .. => w.transact E act fun _ => w.flights.erase call
  | .replaceBegin call actor id => do
    guard (w.flights.get? call = none)
    let tn ← (replaceRead actor id w.db).toOption
    pure (w.depart call (.replace actor id tn none), none)
  | .replaceRevision call => match w.flights.get? call with
    | some (.replace actor id tn none) =>
      pure (w.depart call (.replace actor id tn (some (w.db.credentialRevision id))), none)
    | _ => none
  | .replaceFinish call .. => w.transact E act fun _ => w.flights.erase call
  | .abandon call => pure ({ w with flights := w.flights.erase call }, none)

def Step (E : Env) (w : World) (a : Act × Option Reply) (w' : World) : Prop :=
  w.step E a.1 = some (w', a.2)

def after (E : Env) (w : World) (act : Act) : Option World := (w.step E act).map (·.1)

abbrev Run (E : Env) := UniDERP.Run (· = ({} : World)) (World.Step E)

/-- What an act that answered `reply` committed. -/
def committed (w : World) (a : Act × Option Reply) : Option Commit := do
  let (c, op) ← w.op a.1
  let reply ← a.2
  pure ⟨op, c, reply⟩

end World

section Step

variable {E : Env} {w w' : World} {act : Act} {reply : Option Reply}

/-- The act that makes a call remember `f`, and what it saw. -/
inductive Departs (E : Env) (w : World) : Act → Option Reply → ℕ → Flight → Prop
  | enroll {call : ℕ} {c : Clock} {req : EnrollmentRequest}
      (check : enrollCheck E c req w.db = .ok none) :
      Departs E w (.enrollBegin call c req) none call (.enroll req false)
  | enrollVerified {call : ℕ} {req : EnrollmentRequest}
      (flight : w.flights.get? call = some (.enroll req false)) :
      Departs E w (.verifyDomain call) none call (.enroll req true)
  | renew {call : ℕ} {c : Clock} {ch : NodeChallenge} {sig : Bytes}
      (check : renewCheck E c ch sig w.db = .ok ()) :
      Departs E w (.renewBegin call c ch sig) none call (.renew ch sig false)
  | renewVerified {call : ℕ} {ch : NodeChallenge} {sig : Bytes}
      (flight : w.flights.get? call = some (.renew ch sig false)) :
      Departs E w (.verifyDomain call) none call (.renew ch sig true)
  | refresh {call : ℕ} {c : Clock} {id : String} {t : RefreshTicket} :
      Departs E w (.refreshBegin call c id) (some (.ticket t)) call (.refresh id t)
  | replace {call : ℕ} {actor : Actor} {id : String} {tn : Tailnet}
      (read : replaceRead actor id w.db = .ok tn) :
      Departs E w (.replaceBegin call actor id) none call (.replace actor id tn none)
  | replaceRevision {call : ℕ} {actor : Actor} {id : String} {tn : Tailnet}
      (flight : w.flights.get? call = some (.replace actor id tn none)) :
      Departs E w (.replaceRevision call) none call
        (.replace actor id tn (some (w.db.credentialRevision id)))

theorem World.transact_eq_some {flights : Reply → Table ℕ Flight} :
    w.transact E act flights = some (w', reply) ↔ ∃ a, w.op act = some (a.clock, a.op) ∧
      UniDERP.Step E w.db a w'.db ∧ w'.flights = flights a.reply ∧ reply = some a.reply := by
  simp only [World.transact, Option.bind_eq_bind, Option.bind_eq_some_iff, Prod.exists,
    toOption_eq_some, Option.pure_def, Option.some.injEq, Prod.mk.injEq, UniDERP.Step]
  constructor
  · rintro ⟨c, op, hop, db, r, he, rfl, rfl⟩
    exact ⟨⟨op, c, r⟩, hop, he, rfl, rfl⟩
  · rintro ⟨⟨op, c, r⟩, hop, he, hflights, rfl⟩
    exact ⟨c, op, hop, w'.db, r, he, by rw [← hflights], rfl⟩

theorem World.step_transact {flights : Reply → Table ℕ Flight}
    (h : w.transact E act flights = some (w', reply)) :
    ∃ a, w.committed (act, reply) = some a ∧ UniDERP.Step E w.db a w'.db ∧
      w'.flights = flights a.reply ∧ reply = some a.reply := by
  obtain ⟨a, hop, hstep, hflights, rfl⟩ := World.transact_eq_some.mp h
  exact ⟨a, by simp [World.committed, hop], hstep, hflights, rfl⟩

/-- An act commits a transaction and answers with its reply, or answers nothing, or answers an
enrollment from its receipt. -/
theorem World.step_answers (h : w.step E act = some (w', reply)) :
    (∃ a, w.op act = some (a.clock, a.op) ∧ reply = some a.reply ∧ UniDERP.Step E w.db a w'.db) ∨
      w.op act = none ∧ w'.db = w.db ∧ (reply = none ∨ ∃ call c p s,
        act = .enrollBegin call c p ∧ reply = some (.session s) ∧
          enrollCheck E c p w.db = .ok (some s)) := by
  have htransact : ∀ {flights : Reply → Table ℕ Flight},
      w.transact E act flights = some (w', reply) →
      ∃ a, w.op act = some (a.clock, a.op) ∧ reply = some a.reply ∧ UniDERP.Step E w.db a w'.db := by
    intro flights h
    obtain ⟨a, hop, hstep, -, hreply⟩ := World.transact_eq_some.mp h
    exact ⟨a, hop, hreply, hstep⟩
  cases act <;> simp only [World.step, Option.bind_eq_bind, Option.bind_eq_some_iff,
    Option.guard_eq_some', exists_const, toOption_eq_some, Option.pure_def, Option.some.injEq,
    Prod.mk.injEq] at h
  case enrollBegin call c req =>
    obtain ⟨-, r, hcheck, h⟩ := h
    cases r <;> simp only [Option.some.injEq, Prod.mk.injEq] at h <;> obtain ⟨rfl, rfl⟩ := h
    · exact .inr ⟨rfl, rfl, .inl rfl⟩
    · exact .inr ⟨rfl, rfl, .inr ⟨call, c, req, _, rfl, rfl, hcheck⟩⟩
  case commit => exact .inl (htransact h.2)
  case refreshBegin => exact .inl (htransact h.2)
  case enrollFinish => exact .inl (htransact h)
  case renewFinish => exact .inl (htransact h)
  case refreshFinish => exact .inl (htransact h)
  case replaceFinish => exact .inl (htransact h)
  case renewBegin =>
    obtain ⟨-, -, -, rfl, rfl⟩ := h
    exact .inr ⟨rfl, rfl, .inl rfl⟩
  case replaceBegin =>
    obtain ⟨-, tn, -, rfl, rfl⟩ := h
    exact .inr ⟨rfl, rfl, .inl rfl⟩
  case abandon =>
    obtain ⟨rfl, rfl⟩ := h
    exact .inr ⟨rfl, rfl, .inl rfl⟩
  -- What is left happens outside of transactions and answers nothing.
  all_goals
    split at h <;> simp only [Option.some.injEq, Prod.mk.injEq, reduceCtorEq] at h <;>
      obtain ⟨rfl, rfl⟩ := h <;> exact .inr ⟨rfl, rfl, .inl rfl⟩

theorem World.step_db (h : w.step E act = some (w', reply)) :
    (∃ a, w.committed (act, reply) = some a ∧ UniDERP.Step E w.db a w'.db) ∨
      w.committed (act, reply) = none ∧ w'.db = w.db := by
  rcases World.step_answers h with ⟨a, hop, rfl, hstep⟩ | ⟨hop, hdb, -⟩
  · exact .inl ⟨a, by simp [World.committed, hop], hstep⟩
  · exact .inr ⟨by simp [World.committed, hop], hdb⟩

/-- A call remembers what it did, or the act is its own. -/
theorem World.step_flight (h : w.step E act = some (w', reply)) {call : ℕ} {f : Flight}
    (hf : w'.flights.get? call = some f) :
    w.flights.get? call = some f ∨ Departs E w act reply call f := by
  -- A call takes off, lands or stays; only the first can bring a new flight.
  have hdepart : ∀ {k : ℕ} {f' : Flight}, w' = w.depart k f' → Departs E w act reply k f' →
      w.flights.get? call = some f ∨ Departs E w act reply call f := by
    rintro k f' rfl hd
    rcases Table.get?_insert_eq_some.mp hf with ⟨rfl, rfl⟩ | ⟨-, hf⟩
    · exact .inr hd
    · exact .inl hf
  have herase : ∀ {k : ℕ}, w'.flights = w.flights.erase k → w.flights.get? call = some f := by
    intro k hk
    rw [hk] at hf
    exact (Table.get?_delete_eq_some.mp hf).1
  have hfinish : ∀ {k : ℕ}, w.transact E act (fun _ => w.flights.erase k) = some (w', reply) →
      w.flights.get? call = some f := fun h =>
    have ⟨_, _, _, hk, _⟩ := World.step_transact h
    herase hk
  cases act <;> simp only [World.step, Option.bind_eq_bind, Option.bind_eq_some_iff,
    Option.guard_eq_some', exists_const, toOption_eq_some, Option.pure_def, Option.some.injEq,
    Prod.mk.injEq] at h
  case commit =>
    obtain ⟨a, -, -, hk, -⟩ := World.step_transact h.2
    exact .inl (hk ▸ hf)
  case enrollBegin =>
    obtain ⟨-, r, hr, h⟩ := h
    cases r <;> simp only [Option.some.injEq, Prod.mk.injEq] at h <;> obtain ⟨hw, rfl⟩ := h
    · exact hdepart hw.symm (.enroll hr)
    · exact .inl (hw ▸ hf)
  case enrollFinish => exact .inl (hfinish h)
  case renewBegin =>
    obtain ⟨-, _, hr, hw, rfl⟩ := h
    exact hdepart hw.symm (.renew hr)
  case renewFinish => exact .inl (hfinish h)
  case verifyDomain =>
    split at h <;> rename_i hflight <;>
      simp only [Option.some.injEq, Prod.mk.injEq, reduceCtorEq] at h <;> obtain ⟨hw, rfl⟩ := h
    · exact hdepart hw.symm (.enrollVerified hflight)
    · exact hdepart hw.symm (.renewVerified hflight)
  case refreshBegin =>
    obtain ⟨a, -, -, hk, rfl⟩ := World.step_transact h.2
    rw [hk] at hf
    split at hf
    · rename_i t hreply
      rcases Table.get?_insert_eq_some.mp hf with ⟨rfl, rfl⟩ | ⟨-, hf⟩
      · rw [hreply]
        exact .inr .refresh
      · exact .inl hf
    · exact .inl hf
  case refreshFinish => exact .inl (hfinish h)
  case replaceBegin =>
    obtain ⟨-, tn, hr, hw, rfl⟩ := h
    exact hdepart hw.symm (.replace hr)
  case replaceRevision =>
    split at h <;> rename_i hflight <;>
      simp only [Option.some.injEq, Prod.mk.injEq, reduceCtorEq] at h
    obtain ⟨hw, rfl⟩ := h
    exact hdepart hw.symm (.replaceRevision hflight)
  case replaceFinish => exact .inl (hfinish h)
  case abandon =>
    obtain ⟨hw, -⟩ := h
    exact .inl (herase (congrArg World.flights hw.symm))

inductive Arrives (w : World) : Act → Clock → Op → Prop
  | whole {c : Clock} {op : Op} (whole : op.whole) : Arrives w (.commit c op) c op
  | enroll {call : ℕ} {c : Clock} {token : Token} {box : Bytes} {req : EnrollmentRequest}
      (flight : w.flights.get? call = some (.enroll req true)) :
      Arrives w (.enrollFinish call c token box) c (.enrollCommit req token box)
  | renew {call : ℕ} {c : Clock} {token : Token} {ch : NodeChallenge} {sig : Bytes}
      (flight : w.flights.get? call = some (.renew ch sig true)) :
      Arrives w (.renewFinish call c token) c (.renewNodeSession ch sig token)
  | refreshBegin {call : ℕ} {c : Clock} {id : String} :
      Arrives w (.refreshBegin call c id) c (.refreshBegin id)
  | refresh {call : ℕ} {c : Clock} {fetched : Option (List IdentityKey)} {id : String}
      {ticket : RefreshTicket} (flight : w.flights.get? call = some (.refresh id ticket)) :
      Arrives w (.refreshFinish call c fetched) c (.refreshCommit id ticket fetched)
  | replace {call : ℕ} {c : Clock} {encrypted : Bytes} {keys : List IdentityKey} {actor : Actor}
      {id : String} {tn : Tailnet} {revision : ℕ}
      (flight : w.flights.get? call = some (.replace actor id tn (some revision))) :
      Arrives w (.replaceFinish call c encrypted keys) c
        (.replaceCommit actor id revision encrypted keys)

theorem World.arrives (h : w.step E act = some (w', reply)) {a : Commit}
    (ha : w.committed (act, reply) = some a) : Arrives w act a.clock a.op := by
  simp only [World.committed, Option.bind_eq_bind, Option.bind_eq_some_iff, Option.pure_def,
    Option.some.injEq, Prod.exists] at ha
  obtain ⟨c, op, hop, r, -, rfl⟩ := ha
  cases act <;> simp only [World.op, reduceCtorEq, Option.some.injEq, Prod.mk.injEq] at hop
  case commit =>
    obtain ⟨rfl, rfl⟩ := hop
    simp only [World.step, Option.bind_eq_bind, Option.bind_eq_some_iff, Option.guard_eq_some',
      exists_const] at h
    exact .whole h.1
  case refreshBegin =>
    obtain ⟨rfl, rfl⟩ := hop
    exact .refreshBegin
  all_goals
    split at hop <;> simp only [reduceCtorEq, Option.some.injEq, Prod.mk.injEq] at hop
    rename_i hflight
    obtain ⟨rfl, rfl⟩ := hop
    first
    | exact .enroll hflight
    | exact .renew hflight
    | exact .refresh hflight
    | exact .replace hflight

end Step

namespace World.Run

variable {E : Env} (r : World.Run E)

/-- What step `k` of a run commits. -/
def commit (k : ℕ) : Option Commit := (r.state k).committed (r.label k)

variable {r}

theorem step_of_commit {k : ℕ} (hk : k < r.len) {a : Commit} (ha : r.commit k = some a) :
    UniDERP.Step E (r.state k).db a (r.state (k + 1)).db := by
  rcases World.step_db (r.next k hk) with ⟨a', ha', hstep⟩ | ⟨hnone, -⟩
  · cases ha.symm.trans ha'
    exact hstep
  · cases ha.symm.trans hnone

theorem db_of_not_commit {k : ℕ} (hk : k < r.len) (h : r.commit k = none) :
    (r.state (k + 1)).db = (r.state k).db := by
  rcases World.step_db (r.next k hk) with ⟨a, ha, -⟩ | ⟨-, hdb⟩
  · cases h.symm.trans ha
  · exact hdb

theorem store_reachable {i : ℕ} (hi : i ≤ r.len) : Store.Reachable E (r.state i).db := by
  refine Reachable.invariant (I := fun w => Store.Reachable E w.db) (r.reachable hi) ?_
    fun w a w' _ hw hstep => ?_
  · rintro w rfl
    exact .start rfl
  · rcases World.step_db hstep with ⟨a, -, hstep⟩ | ⟨-, hdb⟩
    · exact hw.step hstep
    · rwa [hdb]

theorem db_preserved {P : DB → Prop} {i j : ℕ} (hij : i ≤ j) (hj : j ≤ r.len)
    (hp : P (r.state i).db)
    (hstep : ∀ k a, i ≤ k → k < j → r.commit k = some a → P (r.state k).db →
      P (r.state (k + 1)).db) : P (r.state j).db := by
  refine r.preserved (P := fun w => P w.db) hij hp fun k hik hkj hk => ?_
  cases ha : r.commit k with
  | none =>
    rw [db_of_not_commit (by omega) ha]
    exact hk
  | some a => exact hstep k a hik hkj ha hk

theorem db_established {P : DB → Prop} {b i : ℕ} (hbi : b ≤ i) (hi : i ≤ r.len)
    (hb : ¬ P (r.state b).db) (hp : P (r.state i).db) :
    ∃ j a, b ≤ j ∧ j < i ∧ r.commit j = some a ∧ ¬ P (r.state j).db ∧
      ∀ k, j < k → k ≤ i → P (r.state k).db := by
  obtain ⟨j, hbj, hji, hnot, hall⟩ := r.established (P := fun w => P w.db) hbi hb hp
  cases ha : r.commit j with
  | none =>
    have hsame := db_of_not_commit (by omega) ha
    exact absurd (hsame ▸ hall (j + 1) (by omega) hji) hnot
  | some a => exact ⟨j, a, hbj, hji, ha, hnot, hall⟩

theorem arrives {k : ℕ} (hk : k < r.len) {a : Commit} (ha : r.commit k = some a) :
    Arrives (r.state k) (r.label k).1 a.clock a.op := World.arrives (r.next k hk) ha

theorem departed {i : ℕ} (hi : i ≤ r.len) {call : ℕ} {f : Flight}
    (hf : (r.state i).flights.get? call = some f) :
    ∃ b < i, Departs E (r.state b) (r.label b).1 (r.label b).2 call f ∧
      ∀ k, b < k → k ≤ i → (r.state k).flights.get? call = some f := by
  have h0 : ¬ (r.state 0).flights.get? call = some f := by
    rw [r.start]
    simp
  obtain ⟨b, -, hb, hnot, hall⟩ := r.established
    (P := fun w => w.flights.get? call = some f) (Nat.zero_le i) h0 hf
  refine ⟨b, hb, ?_, hall⟩
  exact (World.step_flight (r.next b (by omega)) (hall (b + 1) (by omega) hb)).resolve_left hnot

theorem of_acts {acts : List Act} {w : World}
    (h : UniDERP.Run.play (World.after E) acts {} = some w) :
    ∃ r : World.Run E, r.len = acts.length ∧
      (∀ i ≤ acts.length, UniDERP.Run.play (World.after E) (acts.take i) {} = some (r.state i)) ∧
      ∀ i act, acts[i]? = some act → (r.label i).1 = act := by
  refine UniDERP.Run.of_play (R := fun a act => a.1 = act) (fun w act w' hafter => ?_)
    (Act.abandon 0, none) ?_ h
  · obtain ⟨⟨w₁, reply⟩, hstep, rfl⟩ := Option.map_eq_some_iff.mp hafter
    exact ⟨(act, reply), rfl, hstep⟩
  · rfl

end World.Run
end UniDERP
