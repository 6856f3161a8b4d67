import UniDERP.Control.Effects

namespace UniDERP

def authenticate (E : Env) (now : Int) (token : String) (db : DB) : Except Err Actor := do
  require (token.utf8ByteSize = 64) .unauthorized
  let s ← orElse (db.sessions.get? (E.tokenHash token)) .unauthorized
  let u ← orElse (db.users.get? s.userID) .unauthorized
  require (unix now < s.expiresAt ∧ s.sessionVersion = u.sessionVersion ∧ u.enabled) .unauthorized
  pure ⟨s.userID, u.role, u.enabled⟩

structure LoginRow where
  id : String
  hash : String
  version : ℕ
  enabled : Bool
  deriving DecidableEq

def loginRow (username : String) (db : DB) : Except Err LoginRow := do
  let (id, u) ← orElse (db.users.find? fun _ u => foldCase u.username = foldCase username)
    .unauthorized
  pure ⟨id, u.passwordHash, u.sessionVersion, u.enabled⟩

/-- What `RecoverAdmin` checks first. -/
def recoverCheck (userID : String) (db : DB) : Except Err Unit := do
  let u ← orElse (db.users.get? userID) .noRows
  require (u.role = .admin) .forbidden

inductive AuthCall
  | login (row : LoginRow) (password : String) (verified : Bool)
  | recover (userID password : String) (changed : Bool)
  deriving DecidableEq

structure Auth where
  db : DB := DB.empty
  calls : Table ℕ AuthCall := ∅

inductive AuthAct
  | commit (c : Clock) (op : Op)
  | loginRead (call : ℕ) (username password : String)
  | loginVerify (call : ℕ)
  | loginInsert (call : ℕ) (c : Clock) (token : Token)
  | recoverRead (call : ℕ) (userID password : String)
  | recoverPassword (call : ℕ) (c : Clock) (hash : String)
  | recoverEnable (call : ℕ) (c : Clock)
  /-- The call fails, or its client is gone. -/
  | abandon (call : ℕ)

def Op.opensSession : Op → Bool
  | .insertSession .. => true
  | _ => false

def Op.alters (userID : String) : Op → Bool
  | .changePassword _ id .. | .setUserRole _ id _ | .setUserEnabled _ id _ => id = userID
  | _ => false

namespace Auth

def op (a : Auth) : AuthAct → Option (Clock × Op)
  | .commit c op => if op.opensSession then none else some (c, op)
  | .loginInsert call c token => match a.calls.get? call with
    | some (.login row _ true) => some (c, .insertSession row.id row.version token)
    | _ => none
  | .recoverPassword call c hash => match a.calls.get? call with
    | some (.recover userID password false) =>
      some (c, .changePassword localAdmin userID password hash)
    | _ => none
  | .recoverEnable call c => match a.calls.get? call with
    | some (.recover userID _ true) => some (c, .setUserEnabled localAdmin userID true)
    | _ => none
  | _ => none

/-- The act's transaction, if it commits; the calls in progress are then `calls`. -/
def transact (E : Env) (a : Auth) (act : AuthAct) (calls : Table ℕ AuthCall) : Option Auth := do
  let (c, op) ← a.op act
  let (db, _) ← (exec E c op a.db).toOption
  pure ⟨db, calls⟩

/-- What an act does; `none` if it fails or is not possible. -/
def act (compareHashAndPassword : String → String → Bool) (E : Env) (a : Auth) (act : AuthAct) :
    Option Auth :=
  match act with
  | .commit .. => a.transact E act a.calls
  | .loginRead call username password => do
    guard (a.calls.get? call = none)
    let row ← (loginRow username a.db).toOption
    pure { a with calls := a.calls.insert call (.login row password false) }
  | .loginVerify call => match a.calls.get? call with
    | some (.login row password false) => do
      guard (compareHashAndPassword row.hash password ∧ row.enabled)
      pure { a with calls := a.calls.insert call (.login row password true) }
    | _ => none
  | .loginInsert call .. => a.transact E act (a.calls.erase call)
  | .recoverRead call userID password => do
    guard (a.calls.get? call = none)
    let _ ← (recoverCheck userID a.db).toOption
    pure { a with calls := a.calls.insert call (.recover userID password false) }
  | .recoverPassword call .. => match a.calls.get? call with
    | some (.recover userID password _) =>
      a.transact E act (a.calls.insert call (.recover userID password true))
    | _ => none
  | .recoverEnable call _ => a.transact E act (a.calls.erase call)
  | .abandon call => pure { a with calls := a.calls.erase call }

def Step (compareHashAndPassword : String → String → Bool) (E : Env) (a : Auth) (act : AuthAct)
    (a' : Auth) : Prop :=
  a.act compareHashAndPassword E act = some a'

abbrev Run (compareHashAndPassword : String → String → Bool) (E : Env) :=
  UniDERP.Run (· = ({} : Auth)) (Auth.Step compareHashAndPassword E)

end Auth

section Transaction

variable {E : Env} {c : Clock} {db db' : DB} {op : Op}

inductive AccountChange (E : Env) (db : DB) (op : Op) (db' : DB) : Prop
  | kept (users : db'.users = db.users) (sessions : db'.sessions = db.sessions)
  | created {id : String} {u : User} (fresh : db.users.get? id = none)
      (users : db'.users = db.users.insert id u) (sessions : db'.sessions = db.sessions)
  | altered {id : String} (f : User → User) (alters : op.alters id)
      (users : db'.users = (db.changeUser id f).users)
      (sessions : db'.sessions = (db.changeUser id f).sessions)
  | opened {token : Token} {s : Session} {u : User}
      (call : op = .insertSession s.userID s.sessionVersion token)
      (user : db.users.get? s.userID = some u) (version : u.sessionVersion = s.sessionVersion)
      (users : db'.users = db.users)
      (sessions : db'.sessions = db.sessions.insert (E.tokenHash token.text) s)
  | closed {token : String} (users : db'.users = db.users)
      (sessions : db'.sessions = db.sessions.erase (E.tokenHash token))

theorem Step.account_change {a : Commit} (h : Step E db a db') : AccountChange E db a.op db' := by
  obtain ⟨op, c, reply⟩ := a
  have hframe : ∀ {mid : DB} {S : String → Prop} {now : Int}, Rebuilt E now S mid db' →
      db'.users = mid.users ∧ db'.sessions = mid.sessions := by
    intro mid S now hr
    rw [hr.frame]
    exact ⟨rfl, rfl⟩
  obtain ⟨mid, S, i, he, hr⟩ := exec_does h
  obtain ⟨husers, hsessions⟩ := hframe hr
  cases he
  case initializeAdmin hfresh => exact .created hfresh husers hsessions
  case createAccount hfresh => exact .created hfresh husers hsessions
  case setUserRole => exact .altered _ (by simp [Op.alters]) husers hsessions
  case changePassword => exact .altered _ (by simp [Op.alters]) husers hsessions
  case setUserEnabled => exact .altered _ (by simp [Op.alters]) husers hsessions
  case sessions sessions hlogin =>
    -- The summary of these two calls forgets what they write.
    cases op <;> simp only [Op.login, Bool.false_eq_true] at hlogin
    case insertSession userID version token =>
      simp only [Step, exec, quiet_eq_ok, insertSession, Except_bind_eq_ok, orElse_eq_ok,
        require_eq_ok, exists_const, Except_pure_eq_ok] at h
      obtain ⟨⟨u, hu, ⟨-, hversion⟩, -, rfl⟩, -⟩ := h
      exact .opened (s := ⟨userID, version, _, _⟩) rfl hu hversion rfl rfl
    case logout token =>
      simp only [Step, exec, quiet_eq_ok, logout, Except.ok.injEq] at h
      obtain ⟨rfl, -⟩ := h
      exact .closed rfl rfl
  all_goals exact .kept husers hsessions

/-- A committed change of an account ends its sessions and raises its version. -/
theorem Step.altered {a : Commit} (h : Step E db a db') {userID : String} (ha : a.op.alters userID)
    (hne : db' ≠ db) :
    (∃ u u', db.users.get? userID = some u ∧ db'.users.get? userID = some u' ∧
      u'.sessionVersion = u.sessionVersion + 1) ∧
    ∀ key s, db'.sessions.get? key = some s → s.userID ≠ userID := by
  obtain ⟨op, c, reply⟩ := a
  -- All three calls go through `changeUser`, which ends the sessions of the user.
  have hchanged : ∃ f u, db.users.get? userID = some u ∧
      db'.users = (db.changeUser userID f).users ∧
      db'.sessions = (db.changeUser userID f).sessions := by
    simp only [Step] at h
    cases op <;> simp only [Op.alters, decide_eq_true_eq, Bool.false_eq_true] at ha <;> subst ha
    case setUserRole actor role =>
      simp only [exec, quiet_eq_ok, setUserRole, Except_bind_eq_ok, orElse_eq_ok, require_eq_ok,
        requireAdmin, activeActor_eq_ok, exists_const] at h
      obtain ⟨⟨-, -, -, u, hu, -, h⟩, -⟩ := h
      split_ifs at h
      · exact absurd (Except_pure_eq_ok.mp h).symm hne
      · simp only [Except_bind_eq_ok, require_eq_ok, exists_const, Except_pure_eq_ok] at h
        obtain ⟨-, rfl⟩ := h
        exact ⟨_, u, hu, rfl, rfl⟩
    case changePassword =>
      simp only [exec, quiet_eq_ok, changePassword, Except_bind_eq_ok, require_eq_ok,
        requireOwner_eq_ok, activeActor_eq_ok, exists_const, Except_pure_eq_ok] at h
      obtain ⟨⟨-, -, -, hu, rfl⟩, -⟩ := h
      obtain ⟨u, hu⟩ := Option.ne_none_iff_exists'.mp hu
      exact ⟨_, u, hu, rfl, rfl⟩
    case setUserEnabled actor enabled =>
      simp only [exec, quiet_eq_ok, setUserEnabled, Except_bind_eq_ok, require_eq_ok,
        requireAdmin, activeActor_eq_ok, exists_const] at h
      obtain ⟨⟨-, -, hu, h⟩, -⟩ := h
      obtain ⟨u, hu⟩ := Option.ne_none_iff_exists'.mp hu
      refine ⟨fun u => { u with enabled := enabled }, u, hu, ?_⟩
      rw [(rebuildPolicies_rebuilt h).frame]
      exact ⟨rfl, rfl⟩
  obtain ⟨f, u, hu, husers, hsessions⟩ := hchanged
  refine ⟨⟨u, { f u with sessionVersion := u.sessionVersion + 1 }, hu, ?_, rfl⟩,
    fun key s hs => ?_⟩
  · rw [husers]
    simp [DB.changeUser, hu]
  · rw [hsessions] at hs
    simpa using (Table.get?_delete_eq_some.mp hs).2

def SessionsCurrent (db : DB) : Prop := ∀ key s, db.sessions.get? key = some s →
  ∃ u, db.users.get? s.userID = some u ∧ s.sessionVersion = u.sessionVersion

theorem SessionsCurrent.step (hs : SessionsCurrent db) {a : Commit} (h : Step E db a db') :
    SessionsCurrent db' := by
  intro key s hkey
  cases h.account_change with
  | kept husers hsessions =>
    rw [hsessions] at hkey
    rw [husers]
    exact hs key s hkey
  | created hfresh husers hsessions =>
    rw [hsessions] at hkey
    obtain ⟨u, hu, hversion⟩ := hs key s hkey
    refine ⟨u, ?_, hversion⟩
    rw [husers, Table.get?_insert_ne _ _ ?_, hu]
    rintro rfl
    cases hu.symm.trans hfresh
  -- A session that is left belongs to another user, whose row is as before.
  | altered f _ husers hsessions =>
    rw [hsessions] at hkey
    obtain ⟨hkey, hother⟩ := Table.get?_delete_eq_some.mp hkey
    obtain ⟨u, hu, hversion⟩ := hs key s hkey
    refine ⟨u, ?_, hversion⟩
    rw [husers, DB.changeUser, Table.get?_modify_ne _ _ (by simpa using hother), hu]
  | opened _ hu hversion husers hsessions =>
    rw [hsessions] at hkey
    rw [husers]
    rcases Table.get?_insert_eq_some.mp hkey with ⟨-, rfl⟩ | ⟨-, hkey⟩
    · exact ⟨_, hu, hversion.symm⟩
    · exact hs key s hkey
  | closed husers hsessions =>
    rw [hsessions] at hkey
    rw [husers]
    exact hs key s (Table.get?_delete_eq_some.mp hkey).1

theorem Step.user_stays {a : Commit} (h : Step E db a db') {id : String} {u : User}
    (hu : db.users.get? id = some u) :
    ∃ u', db'.users.get? id = some u' ∧ u.sessionVersion ≤ u'.sessionVersion := by
  cases h.account_change with
  | kept husers => exact ⟨u, husers ▸ hu, le_rfl⟩
  | created hfresh husers =>
    refine ⟨u, ?_, le_rfl⟩
    rw [husers, Table.get?_insert_ne _ _ ?_, hu]
    rintro rfl
    cases hu.symm.trans hfresh
  | @altered k f _ husers =>
    by_cases hk : id = k
    · subst hk
      refine ⟨{ f u with sessionVersion := u.sessionVersion + 1 }, ?_, Nat.le_succ _⟩
      rw [husers]
      simp [DB.changeUser, hu]
    · exact ⟨u, by rw [husers, DB.changeUser, Table.get?_modify_ne _ _ hk, hu], le_rfl⟩
  | opened _ _ _ husers => exact ⟨u, husers ▸ hu, le_rfl⟩
  | closed husers => exact ⟨u, husers ▸ hu, le_rfl⟩

theorem Step.session_opened {a : Commit} (h : Step E db a db') {key : String} {s : Session}
    (hnew : db.sessions.get? key ≠ some s) (hs : db'.sessions.get? key = some s) :
    ∃ token, a.op = .insertSession s.userID s.sessionVersion token ∧ key = E.tokenHash token.text := by
  cases h.account_change with
  | kept _ hsessions => exact absurd (hsessions ▸ hs) hnew
  | created _ _ hsessions => exact absurd (hsessions ▸ hs) hnew
  | altered _ _ _ hsessions =>
    rw [hsessions] at hs
    exact absurd (Table.get?_delete_eq_some.mp hs).1 hnew
  | opened hop _ _ _ hsessions =>
    rw [hsessions] at hs
    rcases Table.get?_insert_eq_some.mp hs with ⟨rfl, rfl⟩ | ⟨-, hold⟩
    · exact ⟨_, hop, rfl⟩
    · exact absurd hold hnew
  | closed _ hsessions =>
    rw [hsessions] at hs
    exact absurd (Table.get?_delete_eq_some.mp hs).1 hnew

end Transaction

namespace Auth

variable {compareHashAndPassword : String → String → Bool} {E : Env}

section Step

variable {a a' : Auth} {act : AuthAct}

/-- An act leaves the database as it is, or commits its transaction. -/
theorem Step.commits (h : Step compareHashAndPassword E a act a') :
    a'.db = a.db ∨ ∃ t : Commit, a.op act = some (t.clock, t.op) ∧ UniDERP.Step E a.db t a'.db := by
  have htransact : ∀ {calls : Table ℕ AuthCall}, a.transact E act calls = some a' →
      ∃ t : Commit, a.op act = some (t.clock, t.op) ∧ UniDERP.Step E a.db t a'.db := by
    intro calls h
    simp only [transact, Option.bind_eq_bind, Option.bind_eq_some_iff, toOption_eq_some,
      Option.pure_def, Option.some.injEq, Prod.exists] at h
    obtain ⟨c, op, hop, db, reply, hexec, rfl⟩ := h
    exact ⟨⟨op, c, reply⟩, hop, hexec⟩
  cases act <;> simp only [Step, Auth.act] at h
  case commit => exact .inr (htransact h)
  case loginRead =>
    simp only [Option.bind_eq_bind, Option.bind_eq_some_iff, Option.pure_def,
      Option.some.injEq] at h
    obtain ⟨-, -, row, -, rfl⟩ := h
    exact .inl rfl
  case loginVerify =>
    split at h
    · simp only [Option.bind_eq_bind, Option.bind_eq_some_iff, Option.pure_def,
        Option.some.injEq] at h
      obtain ⟨-, -, rfl⟩ := h
      exact .inl rfl
    · cases h
  case loginInsert => exact .inr (htransact h)
  case recoverRead =>
    simp only [Option.bind_eq_bind, Option.bind_eq_some_iff, Option.pure_def,
      Option.some.injEq] at h
    obtain ⟨-, -, _, -, rfl⟩ := h
    exact .inl rfl
  case recoverPassword =>
    split at h
    · exact .inr (htransact h)
    · cases h
  case recoverEnable => exact .inr (htransact h)
  case abandon =>
    cases h
    exact .inl rfl

/-- Where a login in progress comes from. -/
theorem Step.login_call (h : Step compareHashAndPassword E a act a') {call : ℕ} {row : LoginRow}
    {password : String} {verified : Bool}
    (hcall : a'.calls.get? call = some (.login row password verified)) :
    a.calls.get? call = some (.login row password verified) ∨
      (verified = false ∧ ∃ username, act = .loginRead call username password ∧
        loginRow username a.db = .ok row) ∨
      act = .loginVerify call ∧ a.calls.get? call = some (.login row password false) ∧
        compareHashAndPassword row.hash password := by
  have htransact : ∀ {calls : Table ℕ AuthCall}, a.transact E act calls = some a' →
      a'.calls = calls := by
    intro calls h
    simp only [transact, Option.bind_eq_bind, Option.bind_eq_some_iff, Option.pure_def,
      Option.some.injEq, Prod.exists] at h
    obtain ⟨c, op, -, db, reply, -, rfl⟩ := h
    rfl
  cases act <;> simp only [Step, Auth.act] at h
  case commit =>
    rw [htransact h] at hcall
    exact .inl hcall
  case loginRead x username password' =>
    simp only [Option.bind_eq_bind, Option.bind_eq_some_iff, Option.pure_def, Option.some.injEq,
      toOption_eq_some] at h
    obtain ⟨-, -, row', hrow, rfl⟩ := h
    rcases Table.get?_insert_eq_some.mp hcall with ⟨rfl, heq⟩ | ⟨-, hold⟩
    · cases heq
      exact .inr (.inl ⟨rfl, username, rfl, hrow⟩)
    · exact .inl hold
  case loginVerify x =>
    split at h
    · simp only [Option.bind_eq_bind, Option.bind_eq_some_iff, Option.guard_eq_some',
        Option.pure_def, Option.some.injEq] at h
      obtain ⟨-, ⟨hmatches, -⟩, rfl⟩ := h
      rcases Table.get?_insert_eq_some.mp hcall with ⟨rfl, heq⟩ | ⟨-, hold⟩
      · cases heq
        exact .inr (.inr ⟨rfl, ‹_›, hmatches⟩)
      · exact .inl hold
    · cases h
  case loginInsert =>
    rw [htransact h] at hcall
    exact .inl (Table.get?_delete_eq_some.mp hcall).1
  case recoverRead =>
    simp only [Option.bind_eq_bind, Option.bind_eq_some_iff, Option.pure_def,
      Option.some.injEq] at h
    obtain ⟨-, -, _, -, rfl⟩ := h
    rcases Table.get?_insert_eq_some.mp hcall with ⟨-, heq⟩ | ⟨-, hold⟩
    · cases heq
    · exact .inl hold
  case recoverPassword =>
    split at h
    · rw [htransact h] at hcall
      rcases Table.get?_insert_eq_some.mp hcall with ⟨-, heq⟩ | ⟨-, hold⟩
      · cases heq
      · exact .inl hold
    · cases h
  case recoverEnable =>
    rw [htransact h] at hcall
    exact .inl (Table.get?_delete_eq_some.mp hcall).1
  case abandon =>
    cases h
    exact .inl (Table.get?_delete_eq_some.mp hcall).1

end Step

namespace Run

variable (r : Auth.Run compareHashAndPassword E)

/-- Step `i` commits a change of the account's password, role or state. -/
def Alters (i : ℕ) (userID : String) : Prop := i < r.len ∧ ∃ c op,
  (r.state i).op (r.label i) = some (c, op) ∧ op.alters userID ∧
  (r.state (i + 1)).db ≠ (r.state i).db

/-- A login under the account's name read the account at step `b`, found its password to match the
hash it read, and opened the session of the token at step `n`. -/
def Issues (userID token : String) (b n : ℕ) : Prop := ∃ call username password u m c t,
  (r.state b).db.users.get? userID = some u ∧ r.label b = .loginRead call username password ∧
  foldCase u.username = foldCase username ∧ b < m ∧ m < n ∧ r.label m = .loginVerify call ∧
  compareHashAndPassword u.passwordHash password ∧ r.label n = .loginInsert call c t ∧
  t.text = token

variable {r}

theorem sessions_current {i : ℕ} (hi : i ≤ r.len) : SessionsCurrent (r.state i).db := by
  refine Reachable.invariant (I := fun a => SessionsCurrent a.db) (r.reachable hi) ?_ ?_
  · rintro a rfl key s hs
    simp [DB.empty] at hs
  · intro a act a' _ hs hstep
    rcases hstep.commits with hsame | ⟨t, -, hcommit⟩
    · rw [hsame]
      exact hs
    · exact hs.step hcommit

theorem version_le {i j : ℕ} (hij : i ≤ j) (hj : j ≤ r.len) {id : String} {u : User}
    (hu : (r.state i).db.users.get? id = some u) :
    ∃ u', (r.state j).db.users.get? id = some u' ∧ u.sessionVersion ≤ u'.sessionVersion := by
  induction j, hij using Nat.le_induction with
  | base => exact ⟨u, hu, le_rfl⟩
  | succ j hij ih =>
    obtain ⟨u₁, hu₁, hle₁⟩ := ih (by omega)
    rcases (r.next j hj).commits with hsame | ⟨t, -, hcommit⟩
    · exact ⟨u₁, hsame ▸ hu₁, hle₁⟩
    · obtain ⟨u₂, hu₂, hle₂⟩ := hcommit.user_stays hu₁
      exact ⟨u₂, hu₂, hle₁.trans hle₂⟩

/-- A login in progress has read the account, and compared the password if it says so. -/
theorem login_traced {i : ℕ} (hi : i ≤ r.len) {call : ℕ} {row : LoginRow} {password : String}
    {verified : Bool} (hcall : (r.state i).calls.get? call = some (.login row password verified)) :
    ∃ b username, b < i ∧ r.label b = .loginRead call username password ∧
      loginRow username (r.state b).db = .ok row ∧
      (verified → ∃ m, b < m ∧ m < i ∧ r.label m = .loginVerify call ∧
        compareHashAndPassword row.hash password) := by
  induction i generalizing verified with
  | zero =>
    rw [r.start] at hcall
    simp at hcall
  | succ i ih =>
    rcases (r.next i hi).login_call hcall with hold | ⟨rfl, username, hlabel, hrow⟩ |
      ⟨hlabel, hold, hmatches⟩
    · obtain ⟨b, username, hb, hread, hrow, hverified⟩ := ih (by omega) hold
      refine ⟨b, username, by omega, hread, hrow, fun hv => ?_⟩
      obtain ⟨m, hbm, hm, hverify⟩ := hverified hv
      exact ⟨m, hbm, by omega, hverify⟩
    · exact ⟨i, username, by omega, hlabel, hrow, by simp⟩
    · obtain ⟨b, username, hb, hread, hrow, -⟩ := ih (by omega) hold
      exact ⟨b, username, by omega, hread, hrow, fun _ => ⟨i, hb, by omega, hlabel, hmatches⟩⟩

theorem insert_label {a : Auth} {act : AuthAct} {c : Clock} {userID : String} {version : ℕ}
    {token : Token} (h : a.op act = some (c, .insertSession userID version token)) :
    ∃ call row password, act = .loginInsert call c token ∧ row.id = userID ∧
      row.version = version ∧ a.calls.get? call = some (.login row password true) := by
  cases act <;> simp only [Auth.op] at h
  case commit =>
    split_ifs at h with hopens
    cases h
    simp [Op.opensSession] at hopens
  case loginInsert call _ _ =>
    split at h
    · cases h
      exact ⟨call, _, _, rfl, rfl, rfl, ‹_›⟩
    · cases h
  all_goals first
    | cases h
    | split at h <;> cases h

theorem loginRow_eq_ok {username : String} {db : DB} {row : LoginRow}
    (h : loginRow username db = .ok row) : ∃ u, db.users.get? row.id = some u ∧
      foldCase u.username = foldCase username ∧ row.hash = u.passwordHash ∧
      row.version = u.sessionVersion := by
  simp only [loginRow, Except_bind_eq_ok, orElse_eq_ok, Except_pure_eq_ok, Prod.exists] at h
  obtain ⟨id, u, hfind, rfl⟩ := h
  obtain ⟨hu, hname⟩ := Table.find?_eq_some hfind
  exact ⟨u, hu, of_decide_eq_true hname, rfl, rfl⟩

/-- A session of an account that was changed at step `i` was opened by a login that read the account
afterwards. -/
theorem issued_after {i j : ℕ} (hij : i < j) (hj : j ≤ r.len) {userID token : String}
    (halters : r.Alters i userID) {s : Session} (huser : s.userID = userID)
    (hs : (r.state j).db.sessions.get? (E.tokenHash token) = some s) :
    ∃ b n, i < b ∧ n < j ∧ r.Issues userID token b n := by
  obtain ⟨hi, c, op, hop, hop_alters, hne⟩ := halters
  obtain ⟨t, hop', hcommit⟩ := (r.next i hi).commits.resolve_left hne
  obtain ⟨rfl, rfl⟩ := Prod.mk.inj (Option.some.inj (hop.symm.trans hop'))
  obtain ⟨⟨u, u', hu, hu', hraised⟩, hended⟩ := hcommit.altered hop_alters hne
  -- The session is not there after the change, so a later step opens it.
  obtain ⟨n, hin, hnj, hnew, hsince⟩ := r.established
    (P := fun a => a.db.sessions.get? (E.tokenHash token) = some s) hij
    (fun hsome => hended _ _ hsome huser) hs
  have hopened := hsince (n + 1) (Nat.lt_succ_self n) hnj
  rcases (r.next n (by omega)).commits with hsame | ⟨t', hop₁, hcommit'⟩
  · rw [hsame] at hopened
    exact absurd hopened hnew
  obtain ⟨token', hinsert, hkey⟩ := hcommit'.session_opened hnew hopened
  rw [hinsert] at hop₁
  obtain ⟨call, row, password, hlabel, hid, hversion, hcall⟩ := insert_label hop₁
  obtain ⟨b, username, hb, hread, hrow, hverified⟩ := login_traced (by omega) hcall
  obtain ⟨m, hbm, hmn, hverify, hmatches⟩ := hverified rfl
  obtain ⟨u₀, hu₀, hname, hhash, hversion₀⟩ := loginRow_eq_ok hrow
  rw [hid, huser] at hu₀
  refine ⟨b, n, ?_, hnj, call, username, password, u₀, m, _, token', hu₀, hread, hname, hbm, hmn,
    hverify, hhash ▸ hmatches, hlabel, (E.tokenHash_injective hkey).symm⟩
  -- A read before the change saw a smaller version than the one that the insert found.
  by_contra hle
  obtain ⟨u₁, hu₁, hle₁⟩ := version_le (by omega : b ≤ i) hi.le hu₀
  cases hu.symm.trans hu₁
  obtain ⟨u₂, hu₂, hle₂⟩ := version_le (by omega : i + 1 ≤ n + 1) (by omega) hu'
  obtain ⟨u₃, hu₃, hcurrent⟩ := sessions_current (r := r) (by omega : n + 1 ≤ r.len) _ s hopened
  rw [huser] at hu₃
  cases hu₂.symm.trans hu₃
  omega

theorem authenticate_eq_ok {now : Int} {token : String} {db : DB} {actor : Actor}
    (h : authenticate E now token db = .ok actor) :
    ∃ s, db.sessions.get? (E.tokenHash token) = some s ∧ s.userID = actor.id := by
  simp only [authenticate, Except_bind_eq_ok, require_eq_ok, orElse_eq_ok, exists_const,
    Except_pure_eq_ok] at h
  obtain ⟨-, s, hs, u, -, -, rfl⟩ := h
  exact ⟨s, hs, rfl⟩

variable (r) in
/-- In every run, a token that authenticates an account after a committed change of its password,
role or state was issued by a login that read the account after the change and whose password
matched the hash it read; and every stored session carries the version of its account. -/
theorem sessions_revoked :
    (∀ i j userID now token actor, i < j → j ≤ r.len → r.Alters i userID →
      authenticate E now token (r.state j).db = .ok actor → actor.id = userID →
      ∃ b n, i < b ∧ n < j ∧ r.Issues userID token b n) ∧
    ∀ i ≤ r.len, ∀ key s, (r.state i).db.sessions.get? key = some s →
      ∃ u, (r.state i).db.users.get? s.userID = some u ∧ s.sessionVersion = u.sessionVersion := by
  refine ⟨fun i j userID now token actor hij hj halters hauth hid => ?_, fun i hi => ?_⟩
  · obtain ⟨s, hs, huser⟩ := authenticate_eq_ok hauth
    exact issued_after hij hj halters (huser.trans hid) hs
  · exact sessions_current hi

end Run
end Auth
end UniDERP
