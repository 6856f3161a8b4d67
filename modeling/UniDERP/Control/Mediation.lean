import UniDERP.Control.Authorization
import UniDERP.Control.Roles

/-!
# Management requests

`ServeHTTP` asks the store who the cookie belongs to and whether the request carries the session's
token, and passes the request on.  Its handler asks for the account again, and calls the store with
what it gets; transactions of others can come between any two of these.
-/

namespace UniDERP

namespace Api

structure Request where
  method : String
  path : String
  cookie : Option String := none
  csrf : String := ""

def Request.safe (q : Request) : Bool := q.method = "GET" || q.method = "HEAD"

/-- The paths that need no session; their handlers are those of the login. -/
def Request.exempt (q : Request) : Bool := q.path = "/api/v1/login" || q.path = "/api/v1/setup"

def Request.served (q : Request) (actor : Actor) : Bool :=
  q.path = "/api/v1/session" || q.path = "/api/v1/logout" || "/api/v1/local/".isPrefixOf q.path ||
    q.path = "/api/v1/users/" ++ actor.id ++ "/password"

def checkCSRF (E : Env) (token csrf : String) (db : DB) : Except Err Unit := do
  require (csrf ≠ "") .forbidden
  let s ← orElse (db.sessions.get? (E.tokenHash token)) .forbidden
  require (s.csrfHash = E.tokenHash csrf) .forbidden

/-- `h.actor`, which drops the error.  The role of `Actor{}` is the empty text, here a member's: no
account has its id, so that no transaction takes it. -/
def actorOf (E : Env) (now : Int) (token : String) (db : DB) : Actor :=
  match authenticate E now token db with
  | .ok actor => actor
  | .error _ => ⟨"", .member, false⟩

inductive Phase
  | arrived
  /-- The session is known and its token is still to be checked. -/
  | known
  | admitted
  | acting (actor : Actor)

inductive Act
  | arrive (n : ℕ) (q : Request)
  /-- `controller` is what `serverRole` says. -/
  | gate (n : ℕ) (controller : Bool) (now : Int)
  | token (n : ℕ)
  | look (n : ℕ) (now : Int)
  | commit (n : ℕ) (c : Clock) (op : Op)
  /-- The request is refused or answered, or its client is gone. -/
  | leave (n : ℕ)
  | other (c : Clock) (op : Op)

end Api

structure Api where
  db : DB
  requests : Table ℕ (Api.Request × Api.Phase) := ∅

namespace Api

def set (s : Api) (n : ℕ) (q : Request) (phase : Phase) : Api :=
  { s with requests := s.requests.insert n (q, phase) }

/-- The transactions that a handler calls: that of `logout`, and any for the account it holds. -/
def calls (q : Request) : Phase → Op → Bool
  | .admitted, .logout token => q.path = "/api/v1/logout" && q.cookie = some token
  | .acting actor, op => op.actor = some actor
  | _, _ => false

def act (E : Env) (s : Api) : Act → Option Api
  | .arrive n q => if s.requests.get? n = none then some (s.set n q .arrived) else none
  | .gate n controller now => match s.requests.get? n with
    | some (q, .arrived) =>
      if q.exempt then some (s.set n q .admitted)
      else do
        let token ← q.cookie
        let actor ← (authenticate E now token s.db).toOption
        guard (controller ∨ q.served actor)
        pure (s.set n q (if q.safe then .admitted else .known))
    | _ => none
  | .token n => match s.requests.get? n with
    | some (q, .known) => do
      let token ← q.cookie
      let _ ← (checkCSRF E token q.csrf s.db).toOption
      pure (s.set n q .admitted)
    | _ => none
  | .look n now => match s.requests.get? n with
    | some (q, .admitted) | some (q, .acting _) => do
      let token ← q.cookie
      pure (s.set n q (.acting (actorOf E now token s.db)))
    | _ => none
  | .commit n c op => do
    let (q, phase) ← s.requests.get? n
    guard (q.safe = false ∧ q.exempt = false ∧ calls q phase op)
    let (db, _) ← (exec E c op s.db).toOption
    pure { s with db := db }
  | .leave n => some { s with requests := s.requests.erase n }
  | .other c op => (exec E c op s.db).toOption.map fun r => { s with db := r.1 }

def Step (E : Env) (s : Api) (a : Act) (s' : Api) : Prop := s.act E a = some s'

def Start (E : Env) (s : Api) : Prop := ∃ db, Store.Reachable E db ∧ s = { db := db }

abbrev Run (E : Env) := UniDERP.Run (Start E) (Step E)

inductive Enters (E : Env) (s : Api) (n : ℕ) (q : Request) : Act → Phase → Prop
  | arrives : Enters E s n q (.arrive n q) .arrived
  | exempted {controller : Bool} {now : Int} (exempt : q.exempt) :
      Enters E s n q (.gate n controller now) .admitted
  | recognized {controller : Bool} {now : Int} {token : String} {actor : Actor}
      (cookie : q.cookie = some token) (session : authenticate E now token s.db = .ok actor)
      (serves : controller ∨ q.served actor) :
      Enters E s n q (.gate n controller now) (if q.safe then .admitted else .known)
  | checked {token : String} (before : s.requests.get? n = some (q, .known))
      (cookie : q.cookie = some token) (token : checkCSRF E token q.csrf s.db = .ok ()) :
      Enters E s n q (.token n) .admitted
  | acts {now : Int} {token : String} {phase : Phase} (cookie : q.cookie = some token)
      (before : s.requests.get? n = some (q, phase))
      (through : phase = .admitted ∨ ∃ actor, phase = .acting actor) :
      Enters E s n q (.look n now) (.acting (actorOf E now token s.db))

/-- An act commits a transaction or leaves the database, and a request keeps or enters its phase. -/
def Shifts (E : Env) (s : Api) (a : Act) (s' : Api) : Prop :=
  (s'.db = s.db ∨ ∃ t : Commit, UniDERP.Step E s.db t s'.db) ∧
  ∀ n q phase, s'.requests.get? n = some (q, phase) →
    s.requests.get? n = some (q, phase) ∨ Enters E s n q a phase

section Step

variable {E : Env} {s s' : Api} {a : Act}

theorem Shifts.of_set {m : ℕ} {q : Request} {phase : Phase} (henters : Enters E s m q a phase) :
    Shifts E s a (s.set m q phase) := by
  refine ⟨.inl rfl, fun n q' phase' hn => ?_⟩
  rw [set, Table.get?_insert_eq_some, Prod.mk.injEq] at hn
  rcases hn with ⟨rfl, rfl, rfl⟩ | ⟨-, hold⟩
  · exact .inr henters
  · exact .inl hold

theorem Step.shifts (h : Step E s a s') : Shifts E s a s' := by
  cases a <;> simp only [Step, act] at h
  case arrive m q =>
    split at h <;> cases h
    exact .of_set .arrives
  case gate m controller now =>
    split at h
    · split at h
      · cases h
        exact .of_set (.exempted ‹_›)
      · simp only [Option.bind_eq_bind, Option.bind_eq_some_iff, toOption_eq_some,
          Option.guard_eq_some', Option.pure_def, Option.some.injEq] at h
        obtain ⟨token, hcookie, actor, hactor, -, hserves, rfl⟩ := h
        exact .of_set (.recognized hcookie hactor hserves)
    · cases h
  case token m =>
    split at h
    · simp only [Option.bind_eq_bind, Option.bind_eq_some_iff, toOption_eq_some, Option.pure_def,
        Option.some.injEq] at h
      obtain ⟨token, hcookie, _, hcheck, rfl⟩ := h
      exact .of_set (.checked ‹_› hcookie hcheck)
    · cases h
  case look m now =>
    split at h
    · obtain ⟨token, hcookie, hs'⟩ := Option.bind_eq_some_iff.mp h
      cases hs'
      exact .of_set (.acts hcookie ‹_› (.inl rfl))
    · obtain ⟨token, hcookie, hs'⟩ := Option.bind_eq_some_iff.mp h
      cases hs'
      exact .of_set (.acts hcookie ‹_› (.inr ⟨_, rfl⟩))
    · cases h
  case commit m c op =>
    simp only [Option.bind_eq_bind, Option.bind_eq_some_iff, toOption_eq_some, Option.pure_def,
      Option.some.injEq, Prod.exists] at h
    obtain ⟨q, phase, -, -, -, db, reply, hexec, rfl⟩ := h
    exact ⟨.inr ⟨⟨op, c, reply⟩, hexec⟩, fun n q phase hn => .inl hn⟩
  case leave m =>
    cases h
    exact ⟨.inl rfl, fun n q phase hn => .inl (Table.get?_delete_eq_some.mp hn).1⟩
  case other c op =>
    obtain ⟨r, hexec, rfl⟩ := Option.map_eq_some_iff.mp h
    exact ⟨.inr ⟨⟨op, c, r.2⟩, toOption_eq_some.mp hexec⟩, fun n q phase hn => .inl hn⟩

end Step

/-- A session is stored under its token, with the token that its requests must carry. -/
def SessionsSealed (E : Env) (db : DB) : Prop := ∀ key s, db.sessions.get? key = some s →
  ∃ token, key = E.tokenHash token ∧
    s.csrfHash = E.tokenHash (E.tokenHash ("uniderp-csrf:" ++ token))

section Sessions

variable {E : Env} {db db' : DB}

theorem SessionsSealed.step (hs : SessionsSealed E db) {t : Commit}
    (h : UniDERP.Step E db t db') : SessionsSealed E db' := by
  intro key s hkey
  by_cases hold : db.sessions.get? key = some s
  · exact hs key s hold
  obtain ⟨token, hop, rfl⟩ := h.session_opened hold hkey
  obtain ⟨op, c, reply⟩ := t
  subst hop
  simp only [UniDERP.Step, exec, quiet_eq_ok, insertSession, Except_bind_eq_ok, orElse_eq_ok,
    require_eq_ok, exists_const, Except_pure_eq_ok] at h
  obtain ⟨⟨u, -, -, -, rfl⟩, -⟩ := h
  rw [Table.get?_insert_self, Option.some.injEq] at hkey
  exact ⟨token.text, rfl, (congrArg Session.csrfHash hkey).symm⟩

theorem checkCSRF_eq (hs : SessionsSealed E db) {token csrf : String}
    (h : checkCSRF E token csrf db = .ok ()) : csrf = E.tokenHash ("uniderp-csrf:" ++ token) := by
  simp only [checkCSRF, Except_bind_eq_ok, require_eq_ok, orElse_eq_ok, exists_const] at h
  obtain ⟨-, s, hsession, hhash⟩ := h
  obtain ⟨token', hkey, hsealed⟩ := hs _ s hsession
  rw [← E.tokenHash_injective hkey] at hsealed
  exact E.tokenHash_injective (hhash.symm.trans hsealed)

theorem actorOf_active (hroles : RolesSound db) (hroles' : RolesSound db') {now : Int}
    {token : String} (hactive : Active (actorOf E now token db) db') :
    authenticate E now token db = .ok (actorOf E now token db) ∧
      (actorOf E now token db).id ≠ "local" := by
  unfold actorOf at *
  split at hactive
  · rename_i actor hauth
    refine ⟨hauth, fun hid => absurd (a := validToken "local") ?_ (by decide +kernel)⟩
    simp only [authenticate, Except_bind_eq_ok, require_eq_ok, orElse_eq_ok, exists_const,
      Except_pure_eq_ok] at hauth
    obtain ⟨-, s, -, u, hu, -, rfl⟩ := hauth
    exact hid ▸ hroles.drawn s.userID u hu
  · -- No account has the empty id.
    rcases hactive with hid | ⟨u, hu, -⟩
    · exact absurd hid (by decide)
    · exact absurd (hroles'.drawn "" u hu) (by decide +kernel)

end Sessions

namespace Run

variable {E : Env} (r : Run E)

theorem db_sound {i : ℕ} (hi : i ≤ r.len) :
    RolesSound (r.state i).db ∧ SessionsSealed E (r.state i).db := by
  refine Reachable.invariant (I := fun s => RolesSound s.db ∧ SessionsSealed E s.db)
    (r.reachable hi) ?_ fun s a s' _ hs hstep => ?_
  · rintro s ⟨db, hdb, rfl⟩
    refine Reachable.invariant (I := fun db => RolesSound db ∧ SessionsSealed E db) hdb ?_
      fun db t db' _ hs hstep => ⟨hstep.role_change.sound hs.1, hs.2.step hstep⟩
    rintro db rfl
    exact ⟨RolesSound.empty, by simp [SessionsSealed, DB.empty]⟩
  · rcases hstep.shifts.1 with hsame | ⟨t, ht⟩
    · rwa [hsame]
    · exact ⟨ht.role_change.sound hs.1, hs.2.step ht⟩

/-- The gate has recognized the cookie of request `n`, which is in progress since. -/
def Recognized (n : ℕ) (q : Request) (k : ℕ) : Prop :=
  ∃ a < k, ∃ controller now token actor, r.label a = .gate n controller now ∧
    q.cookie = some token ∧ authenticate E now token (r.state a).db = .ok actor ∧
    (controller ∨ q.served actor) ∧
    ∀ m, a < m → m ≤ k → ((r.state m).requests.get? n).map Prod.fst = some q

def Checked (n : ℕ) (q : Request) (k : ℕ) : Prop :=
  ∃ b < k, ∃ token, r.label b = .token n ∧ q.cookie = some token ∧
    checkCSRF E token q.csrf (r.state b).db = .ok ()

def Looked (n : ℕ) (q : Request) (actor : Actor) (k : ℕ) : Prop :=
  ∃ b < k, ∃ now token, r.label b = .look n now ∧ q.cookie = some token ∧
    actor = actorOf E now token (r.state b).db

def Behind (n : ℕ) (q : Request) (k : ℕ) : Phase → Prop
  | .arrived => True
  | .known => r.Recognized n q k
  | .admitted => r.Recognized n q k ∧ r.Checked n q k
  | .acting actor => (r.Recognized n q k ∧ r.Checked n q k) ∧ r.Looked n q actor k

variable {r} {n k : ℕ} {q : Request}

theorem Recognized.succ (h : r.Recognized n q k)
    (hq : ((r.state (k + 1)).requests.get? n).map Prod.fst = some q) :
    r.Recognized n q (k + 1) := by
  obtain ⟨a, ha, controller, now, token, actor, hlabel, hcookie, hauth, hserves, hpending⟩ := h
  refine ⟨a, Nat.lt_succ_of_lt ha, controller, now, token, actor, hlabel, hcookie, hauth, hserves,
    fun m ham hm => ?_⟩
  rcases Nat.lt_or_eq_of_le hm with hlt | rfl
  · exact hpending m ham (Nat.le_of_lt_succ hlt)
  · exact hq

theorem earlier {P : ℕ → Prop} (h : ∃ b < k, P b) : ∃ b < k + 1, P b := by
  obtain ⟨b, hb, hP⟩ := h
  exact ⟨b, Nat.lt_succ_of_lt hb, hP⟩

theorem Behind.succ {phase : Phase} (h : r.Behind n q k phase)
    (hq : ((r.state (k + 1)).requests.get? n).map Prod.fst = some q) :
    r.Behind n q (k + 1) phase := by
  cases phase with
  | arrived => trivial
  | known => exact Recognized.succ h hq
  | admitted => exact ⟨h.1.succ hq, earlier h.2⟩
  | acting actor => exact ⟨⟨h.1.1.succ hq, earlier h.1.2⟩, earlier h.2⟩

theorem behind {phase : Phase} (hk : k ≤ r.len) (hsafe : q.safe = false)
    (hexempt : q.exempt = false) (hq : (r.state k).requests.get? n = some (q, phase)) :
    r.Behind n q k phase := by
  induction k generalizing phase with
  | zero =>
    obtain ⟨db, -, hstart⟩ := r.start
    simp [hstart] at hq
  | succ k ih =>
    -- The step leaves the request where it was, or has just checked what its new phase stands for.
    have hpending : ((r.state (k + 1)).requests.get? n).map Prod.fst = some q := by rw [hq]; rfl
    have hbefore := fun {phase} => @ih phase (Nat.le_of_succ_le hk)
    rcases (r.next k hk).shifts.2 n q phase hq with hold | henters
    · exact (hbefore hold).succ hpending
    · generalize hlabel : r.label k = a at henters
      cases henters with
      | arrives => trivial
      | exempted h => rw [hexempt] at h; cases h
      | @recognized controller now token actor hcookie hauth hserves =>
        rw [if_neg (by simp [hsafe])]
        refine ⟨k, Nat.lt_succ_self k, controller, now, token, actor, hlabel, hcookie, hauth,
          hserves, fun m hkm hm => ?_⟩
        rwa [show m = k + 1 by omega]
      | @checked token hold hcookie hcheck =>
        exact ⟨(hbefore hold).succ hpending, k, Nat.lt_succ_self k, token, hlabel, hcookie, hcheck⟩
      | @acts now token phase hcookie hold hthrough =>
        have hbehind := (hbefore hold).succ hpending
        refine ⟨?_, k, Nat.lt_succ_self k, now, token, hlabel, hcookie, rfl⟩
        rcases hthrough with rfl | ⟨actor, rfl⟩
        · exact hbehind
        · exact hbehind.1

theorem Behind.of_calls {phase : Phase} {op : Op} (h : r.Behind n q k phase)
    (hcalls : calls q phase op) : (r.Recognized n q k ∧ r.Checked n q k) ∧
      ((∃ token, q.cookie = some token ∧ op = .logout token) ∨
        ∃ actor, r.Looked n q actor k ∧ op.actor = some actor) := by
  unfold calls at hcalls
  split at hcalls
  · simp only [Bool.and_eq_true, decide_eq_true_eq] at hcalls
    exact ⟨h, .inl ⟨_, hcalls.2, rfl⟩⟩
  · exact ⟨h.1, .inr ⟨_, h.2, of_decide_eq_true hcalls⟩⟩
  · cases hcalls

/-- The gate has recognized the cookie of a request that commits a transaction, and the request
carries the token of the cookie's session.  It ends that session, or it acts for an account that the
cookie stood for when the handler asked and that is entitled when the transaction commits. -/
theorem changes_mediated {i : ℕ} {c : Clock} {op : Op} (hi : i < r.len)
    (hlabel : r.label i = .commit n c op) :
    ∃ q token, q.cookie = some token ∧ q.csrf = E.tokenHash ("uniderp-csrf:" ++ token) ∧
      (∃ a < i, ∃ controller now account, r.label a = .gate n controller now ∧
        authenticate E now token (r.state a).db = .ok account ∧ (controller ∨ q.served account) ∧
        ∀ m, a < m → m ≤ i → ((r.state m).requests.get? n).map Prod.fst = some q) ∧
      (op = .logout token ∨ ∃ b < i, ∃ now actor, r.label b = .look n now ∧
        authenticate E now token (r.state b).db = .ok actor ∧ op.actor = some actor ∧
        (∃ u, (r.state i).db.users.get? actor.id = some u ∧ u.enabled ∧ u.role = actor.role) ∧
        Entitled (r.state i).db (r.state (i + 1)).db actor op) := by
  have hstep := r.next i hi
  rw [hlabel] at hstep
  simp only [Step, act, Option.bind_eq_bind, Option.bind_eq_some_iff, toOption_eq_some,
    Option.guard_eq_some', Option.pure_def, Option.some.injEq, Prod.exists] at hstep
  obtain ⟨q, phase, hq, -, ⟨hsafe, hexempt, hcalls⟩, db, reply, hexec, hnext⟩ := hstep
  obtain ⟨⟨⟨a, ha, controller, now, token, account, hgate, hcookie, hauth, hrest⟩,
    b, hb, token', -, hcookie', hcheck⟩, horigin⟩ := (behind hi.le hsafe hexempt hq).of_calls hcalls
  cases hcookie.symm.trans hcookie'
  have hcsrf := checkCSRF_eq (r.db_sound (hb.trans hi).le).2 hcheck
  refine ⟨q, token, hcookie, hcsrf, ⟨a, ha, controller, now, account, hgate, hauth, hrest⟩, ?_⟩
  rcases horigin with ⟨token', hcookie', rfl⟩ |
      ⟨actor, ⟨b', hb', now', token', hlook, hcookie', rfl⟩, hactor⟩
  · cases hcookie.symm.trans hcookie'
    exact .inl rfl
  · cases hcookie.symm.trans hcookie'
    obtain ⟨hactive, hentitled⟩ := exec_checks hexec hactor
    obtain ⟨hauth', hlocal⟩ := actorOf_active (r.db_sound (hb'.trans hi).le).1
      (r.db_sound hi.le).1 hactive
    rw [← hnext]
    exact .inr ⟨b', hb', now', _, hlook, hauth', hactor, hactive.resolve_left hlocal, hentitled⟩

def adding (E : Env) : List Act := [
  .other First.clock (.initializeAdmin "admin" "a long password" First.owner "hash"),
  .other First.clock (.insertSession First.owner.text 1 First.session),
  .arrive 0 ⟨"POST", "/api/v1/users", some First.session.text,
    E.tokenHash ("uniderp-csrf:" ++ First.session.text)⟩,
  .gate 0 true (1000 * second),
  .token 0,
  .look 0 (1000 * second),
  .commit 0 First.clock (.createAccount First.admin "guest" "another password" .member
    First.guestID "hash")]

theorem changes_mediated_account : ∃ (r : Run Env.plain) (q : Request) (token : String),
    ((r.state 6).requests.get? 0).map Prod.fst = some q ∧ q.cookie = some token ∧
    q.csrf = Env.plain.tokenHash ("uniderp-csrf:" ++ token) := by
  have hplay : (UniDERP.Run.play (act Env.plain) (adding Env.plain) ⟨DB.empty, ∅⟩).isSome := by
    decide +kernel
  obtain ⟨s, hs⟩ := Option.isSome_iff_exists.mp hplay
  obtain ⟨r, hlen, -, hlabel⟩ := UniDERP.Run.of_play (R := Eq)
    (fun s a s' h => ⟨a, rfl, show Step Env.plain s a s' from h⟩) (Act.leave 0)
    (show Start Env.plain _ from ⟨_, .start rfl, rfl⟩) hs
  obtain ⟨q, token, hcookie, hcsrf, ⟨a, ha, -, -, -, -, -, -, hpending⟩, -⟩ :=
    changes_mediated (r := r) (i := 6) (by rw [hlen]; decide) (hlabel 6 _ rfl)
  exact ⟨r, q, token, hpending 6 ha le_rfl, hcookie, hcsrf⟩

end Run

end Api
end UniDERP
