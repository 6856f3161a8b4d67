import UniDERP.Control.RowEdits
import UniDERP.Control.Logins

/-!
# Account roles

The setup and login requests of `internal/control/http.go` over the logins and transactions of the
store.  Setup looks for an administrator before the transaction that makes one, and transactions
carry the role their caller had when it was authenticated; whatever comes between, there is one
administrator at most and no member has a node.
-/

namespace UniDERP

def hasAdmin (db : DB) : Bool := db.users.any fun _ u => u.role = .admin

/-- A request for `/api/v1/login`, or for `/api/v1/setup` if it is initial. -/
structure LoginRequest where
  initial : Bool
  origin : String
  host : String
  mediaType : Option String
  ip : String
  /-- The user name and password, unless the body cannot be decoded. -/
  body : Option (String × String)
  deriving DecidableEq

def LoginRequest.sameOrigin (r : LoginRequest) : Bool :=
  (r.origin = "https://" ++ r.host || r.origin = "http://" ++ r.host) &&
    r.mediaType = some "application/json"

inductive RequestPhase
  | received
  | checked
  | counted
  | opened
  | reading
  | verified
  | loggedIn
  deriving DecidableEq

structure Attempt where
  count : ℕ
  until_ : Int
  deriving DecidableEq

structure Web where
  auth : Auth := {}
  attempts : Table String Attempt := ∅
  requests : Table ℕ (LoginRequest × RequestPhase) := ∅

inductive WebAct
  /-- Any transaction, and any step of another login or of `RecoverAdmin`. -/
  | other (act : AuthAct)
  | receive (n : ℕ) (r : LoginRequest)
  | check (n : ℕ)
  | count (n : ℕ) (now : Int)
  | create (n : ℕ) (c : Clock) (id : Token) (hash : String)
  | login (n : ℕ)
  | verify (n : ℕ)
  | insert (n : ℕ) (c : Clock) (token : Token)
  | forget (n : ℕ)

def WebAct.request : WebAct → Option ℕ
  | .other _ => none
  | .receive n _ | .check n | .count n _ | .create n .. | .login n | .verify n | .insert n ..
  | .forget n => some n

namespace Web

def refuse (w : Web) (n : ℕ) : Web := { w with requests := w.requests.erase n }

def advance (w : Web) (n : ℕ) (r : LoginRequest) (phase : RequestPhase) : Web :=
  { w with requests := w.requests.insert n (r, phase) }

/-- The rate limit: five attempts of an address, each counted for a minute. -/
def limit (w : Web) (n : ℕ) (r : LoginRequest) (now : Int) : Web :=
  let w : Web := { w with attempts := w.attempts.delete fun _ a => ¬ now < a.until_ }
  let count := ((w.attempts.get? r.ip).map (·.count)).getD 0
  if 5 ≤ count ∨ 1024 ≤ w.attempts.keys.length then w.refuse n
  else { w.advance n r .counted with
    attempts := w.attempts.insert r.ip ⟨count + 1, now + 60 * second⟩ }

variable (compareHashAndPassword : String → String → Bool) (E : Env)

def logIn (w : Web) (n : ℕ) (act : AuthAct) (go : Web → Web) : Web :=
  match w.auth.act compareHashAndPassword E act with
  | some auth => go { w with auth := auth }
  | none => { w with auth := { w.auth with calls := w.auth.calls.erase n } }.refuse n

/-- What an act does; `none` if it is not possible. -/
def act (w : Web) : WebAct → Option Web
  | .other act => (w.auth.act compareHashAndPassword E act).map fun auth => { w with auth := auth }
  | .receive n r => if w.requests.get? n = none then some (w.advance n r .received) else none
  | .check n => match w.requests.get? n with
    | some (r, .received) => some <|
      if r.initial ∧ (hasAdmin w.auth.db ∨ ¬ r.sameOrigin) then w.refuse n
      else w.advance n r .checked
    | _ => none
  | .count n now => match w.requests.get? n with
    | some (r, .checked) => some (w.limit n r now)
    | _ => none
  | .create n c id hash => match w.requests.get? n with
    | some (r, .counted) => some <| match r.body with
      | none => w.refuse n
      | some (username, password) =>
        if r.initial then match exec E c (.initializeAdmin username password id hash) w.auth.db with
          | .ok (db, _) => { w with auth := { w.auth with db := db } }.advance n r .opened
          | .error _ => w.refuse n
        else w.advance n r .opened
    | _ => none
  | .login n => match w.requests.get? n with
    | some (r, .opened) => r.body.map fun (username, password) =>
      w.logIn compareHashAndPassword E n (.loginRead n username password) (·.advance n r .reading)
    | _ => none
  | .verify n => match w.requests.get? n with
    | some (r, .reading) => some <|
      w.logIn compareHashAndPassword E n (.loginVerify n) (·.advance n r .verified)
    | _ => none
  | .insert n c token => match w.requests.get? n with
    | some (r, .verified) => some <|
      w.logIn compareHashAndPassword E n (.loginInsert n c token) (·.advance n r .loggedIn)
    | _ => none
  | .forget n => match w.requests.get? n with
    | some (r, .loggedIn) => some { w.refuse n with attempts := w.attempts.erase r.ip }
    | _ => none

def Step (w : Web) (a : WebAct) (w' : Web) : Prop := w.act compareHashAndPassword E a = some w'

abbrev Run := UniDERP.Run (· = ({} : Web)) (Web.Step compareHashAndPassword E)

end Web

/-- How the roles of the accounts and the owners of the nodes change. -/
inductive RoleChange (db db' : DB) : Prop
  | kept (users : ∀ id, (db'.users.get? id).map (·.role) = (db.users.get? id).map (·.role))
      (nodes : ∀ id n', db'.nodes.get? id = some n' →
        ∃ n, db.nodes.get? id = some n ∧ n.ownerID = n'.ownerID)
  | created {id : Token} {u : User} (fresh : db.users.get? id.text = none)
      (first : u.role = .admin → hasAdmin db = false)
      (users : db'.users = db.users.insert id.text u) (nodes : db'.nodes = db.nodes)
  | changed {id : String} {u u' : User} (before : db.users.get? id = some u)
      (was : u.role ≠ .admin) (becomes : u'.role ≠ .admin)
      (idle : u'.role = .member → ∀ k n, db.nodes.get? k = some n → n.ownerID ≠ id)
      (users : db'.users = db.users.insert id u') (nodes : db'.nodes = db.nodes)
  | provided {id : String} {n : Node} {u : User} (owner : db.users.get? n.ownerID = some u)
      (role : n.ownerID = "local" ∨ u.role ≠ .member)
      (users : db'.users = db.users) (nodes : db'.nodes = db.nodes.insert id n)

section Transaction

variable {E : Env} {db db' : DB} {a : Commit}

theorem createUser_role {actor : Actor} {username password : String} {role : Role}
    {initial : Bool} {id : Token} {hash : String}
    (h : createUser actor username password role initial id hash db = .ok db')
    (hrole : role = .admin → initial) : RoleChange db db' := by
  simp only [createUser, Except_bind_eq_ok, require_eq_ok, activeActor_eq_ok, exists_const,
    Except_pure_eq_ok] at h
  obtain ⟨-, -, -, hinitial, ⟨hfresh, -⟩, rfl⟩ := h
  exact .created hfresh (fun hadmin => hinitial (hrole hadmin)) rfl rfl

theorem setUserRole_role {actor : Actor} {userID : String} {role : Role}
    (h : setUserRole actor userID role db = .ok db') : RoleChange db db' := by
  simp only [setUserRole, Except_bind_eq_ok, requireAdmin, require_eq_ok, activeActor_eq_ok,
    orElse_eq_ok, exists_const] at h
  obtain ⟨-, hrole, -, u, hu, hadmin, h⟩ := h
  split_ifs at h
  · obtain rfl := Except_pure_eq_ok.mp h
    exact .kept (fun _ => rfl) fun id n hn => ⟨n, hn, rfl⟩
  · simp only [Except_bind_eq_ok, require_eq_ok, exists_const, Except_pure_eq_ok] at h
    obtain ⟨hidle, rfl⟩ := h
    have husers : (db.changeUser userID fun u => { u with role := role }).users =
        db.users.insert userID { u with role := role, sessionVersion := u.sessionVersion + 1 } :=
      Table.modify_eq_insert (fun u : User =>
        { u with role := role, sessionVersion := u.sessionVersion + 1 }) hu
    refine .changed hu hadmin hrole (fun hmember k n hn => ?_) husers rfl
    have howns := Table.any_eq_false.mp (hidle hmember) k n hn
    simpa using howns

theorem createNode_role {c : Clock} {actor : Actor} {name domain : String}
    {derpPort stunPort : ℕ} {id code : Token} {r : IssuedCode}
    (h : createNode E c actor name domain derpPort stunPort id code db = .ok (db', r)) :
    RoleChange db db' := by
  simp only [createNode, Except_bind_eq_ok, require_eq_ok, orElse_eq_ok, activeActor_eq_ok,
    requireOwner_eq_ok, exists_const, issueCode_eq_ok] at h
  obtain ⟨hrole, -, normal, -, hactive, -, region, -, ⟨-, -, howner⟩, -, -, rfl⟩ := h
  obtain ⟨u, hu⟩ := Option.ne_none_iff_exists'.mp howner
  refine .provided (n := ⟨actor.id, _, _, _, _, _, _, _, _, _, _, _, _, _⟩) hu ?_ rfl rfl
  rcases hactive with hlocal | ⟨v, hv, -, hsame⟩
  · exact .inl hlocal
  · cases hu.symm.trans hv
    refine .inr fun hmember => ?_
    rw [← hsame, hmember] at hrole
    simp at hrole

/-- Only four transactions touch a role or add a node; the others keep both. -/
theorem Step.role_change (h : Step E db a db') : RoleChange db db' := by
  obtain ⟨op, c, reply⟩ := a
  obtain ⟨mid, S, i, he, hr⟩ := exec_does h
  have husers : db'.users = mid.users := by rw [hr.frame]
  have hnodes : db'.nodes = mid.nodes := by rw [hr.frame]
  have howners : (∀ k, op.creates k = false) → ∀ id n', db'.nodes.get? id = some n' →
      ∃ n, db.nodes.get? id = some n ∧ n.ownerID = n'.ownerID := by
    intro hcreates id n' hn'
    rw [hnodes] at hn'
    rcases (he.node_edit id).origin hn' with hcall | ⟨n, hn, hkeeps⟩
    · simp [hcreates id] at hcall
    · exact ⟨n, hn, hkeeps.owner.symm⟩
  have hedit : ∀ {k : String} {f : User → User}, mid.users = (db.changeUser k f).users →
      (∀ u, (f u).role = u.role) → (∀ k, op.creates k = false) → RoleChange db db' := by
    intro k f hmid hf hcreates
    refine .kept (fun id => ?_) (howners hcreates)
    rw [husers, hmid, DB.changeUser, Table.get?_modify]
    split_ifs
    · rw [Option.map_map]
      congr 1
      funext u
      exact hf u
    · rfl
  cases op
  case initializeAdmin =>
    simp only [Step, exec, quiet_eq_ok] at h
    exact createUser_role h.1 fun _ => rfl
  case createAccount =>
    simp only [Step, exec, quiet_eq_ok, createAccount, Except_bind_eq_ok, requireAdmin,
      require_eq_ok, exists_const] at h
    exact createUser_role h.1.2.2 fun hadmin => absurd hadmin h.1.2.1
  case setUserRole =>
    simp only [Step, exec, quiet_eq_ok] at h
    exact setUserRole_role h.1
  case createNode =>
    simp only [Step, exec, answer_eq_ok] at h
    obtain ⟨r, h, -⟩ := h
    exact createNode_role h
  case changePassword =>
    cases he
    · cases ‹Op.repeatable _ = true›
    · exact hedit rfl (fun _ => rfl) fun _ => rfl
    · cases ‹Op.login _ = true›
    · cases ‹Op.portChange _ = true›
  case setUserEnabled =>
    cases he
    · cases ‹Op.repeatable _ = true›
    · exact hedit rfl (fun _ => rfl) fun _ => rfl
    · cases ‹Op.login _ = true›
    · cases ‹Op.portChange _ = true›
  all_goals
    refine .kept (fun id => ?_) (howners fun _ => rfl)
    have hsame : mid.users = db.users := by
      cases he <;> rfl
    rw [husers, hsame]

end Transaction

/-- One administrator at most; accounts have drawn ids; every node has an owner who may have it. -/
structure RolesSound (db : DB) : Prop where
  single : ∀ a b u v, db.users.get? a = some u → db.users.get? b = some v → u.role = .admin →
    v.role = .admin → a = b
  drawn : ∀ id u, db.users.get? id = some u → validToken id
  owners : ∀ id n, db.nodes.get? id = some n →
    ∃ u, db.users.get? n.ownerID = some u ∧ u.role ≠ .member

theorem RolesSound.empty : RolesSound DB.empty := by
  constructor <;> simp [DB.empty]

theorem hasAdmin_iff {db : DB} : hasAdmin db ↔ ∃ id u, db.users.get? id = some u ∧ u.role = .admin := by
  simp [hasAdmin, Table.any_eq_true]

section Change

variable {db db' : DB} {id : String} {u : User}

theorem role_eq {users users' : Table String User}
    (h : ∀ id, (users'.get? id).map (·.role) = (users.get? id).map (·.role)) {u' : User}
    (hu' : users'.get? id = some u') : ∃ u, users.get? id = some u ∧ u.role = u'.role := by
  have hsame := h id
  rw [hu', Option.map_some, eq_comm, Option.map_eq_some_iff] at hsame
  exact hsame

theorem RoleChange.admin_stays (h : RoleChange db db') (hu : db.users.get? id = some u)
    (hadmin : u.role = .admin) : ∃ u', db'.users.get? id = some u' ∧ u'.role = .admin := by
  cases h with
  | kept husers =>
    obtain ⟨u', hu', hsame⟩ := role_eq (fun k => (husers k).symm) hu
    exact ⟨u', hu', hsame.trans hadmin⟩
  | created hfresh _ husers =>
    refine ⟨u, ?_, hadmin⟩
    rw [husers, Table.get?_insert_ne _ _ ?_, hu]
    rintro rfl
    cases hu.symm.trans hfresh
  | changed hbefore hwas _ _ husers =>
    refine ⟨u, ?_, hadmin⟩
    rw [husers, Table.get?_insert_ne _ _ ?_, hu]
    rintro rfl
    cases hu.symm.trans hbefore
    exact hwas hadmin
  | provided _ _ husers => exact ⟨u, husers ▸ hu, hadmin⟩

theorem RoleChange.sound (h : RoleChange db db') (hs : RolesSound db) : RolesSound db' := by
  cases h with
  | kept husers hnodes =>
    refine ⟨fun a b u v ha hb hu hv => ?_, fun id u hu => ?_, fun id n' hn' => ?_⟩
    · obtain ⟨u₀, ha₀, hu₀⟩ := role_eq husers ha
      obtain ⟨v₀, hb₀, hv₀⟩ := role_eq husers hb
      exact hs.single a b u₀ v₀ ha₀ hb₀ (hu₀.trans hu) (hv₀.trans hv)
    · obtain ⟨u₀, hu₀, -⟩ := role_eq husers hu
      exact hs.drawn id u₀ hu₀
    · obtain ⟨n, hn, howner⟩ := hnodes id n' hn'
      obtain ⟨u, hu, hrole⟩ := hs.owners id n hn
      obtain ⟨u', hu', hsame⟩ := role_eq (fun k => (husers k).symm) hu
      exact ⟨u', howner ▸ hu', fun hmember => hrole (hsame.symm.trans hmember)⟩
  | @created id u hfresh hfirst husers hnodes =>
    have hold : ∀ k v, db'.users.get? k = some v → (k = id.text ∧ v = u) ∨
        db.users.get? k = some v := by
      intro k v hv
      rw [husers] at hv
      exact (Table.get?_insert_eq_some.mp hv).imp_right And.right
    have hnone : u.role = .admin → ∀ k v, db.users.get? k = some v → v.role ≠ .admin := by
      intro hadmin k v hv hrole
      have hno := hfirst hadmin
      rw [hasAdmin_iff.mpr ⟨k, v, hv, hrole⟩] at hno
      cases hno
    refine ⟨fun a b x y ha hb hx hy => ?_, fun k v hv => ?_, fun k n hn => ?_⟩
    · rcases hold a x ha with ⟨rfl, rfl⟩ | ha <;> rcases hold b y hb with ⟨rfl, rfl⟩ | hb
      · rfl
      · exact absurd hy (hnone hx b y hb)
      · exact absurd hx (hnone hy a x ha)
      · exact hs.single a b x y ha hb hx hy
    · rcases hold k v hv with ⟨rfl, -⟩ | hv
      · exact id.valid
      · exact hs.drawn k v hv
    · obtain ⟨v, hv, hrole⟩ := hs.owners k n (hnodes ▸ hn)
      refine ⟨v, ?_, hrole⟩
      rw [husers, Table.get?_insert_ne _ _ ?_, hv]
      intro howner
      rw [howner] at hv
      cases hv.symm.trans hfresh
  | @changed id u u' hbefore hwas hbecomes hidle husers hnodes =>
    have hold : ∀ k v, db'.users.get? k = some v → (k = id ∧ v = u') ∨
        db.users.get? k = some v := by
      intro k v hv
      rw [husers] at hv
      exact (Table.get?_insert_eq_some.mp hv).imp_right And.right
    refine ⟨fun a b x y ha hb hx hy => ?_, fun k v hv => ?_, fun k n hn => ?_⟩
    · rcases hold a x ha with ⟨-, rfl⟩ | ha
      · exact absurd hx hbecomes
      rcases hold b y hb with ⟨-, rfl⟩ | hb
      · exact absurd hy hbecomes
      exact hs.single a b x y ha hb hx hy
    · rcases hold k v hv with ⟨rfl, -⟩ | hv
      · exact hs.drawn k u hbefore
      · exact hs.drawn k v hv
    · rw [hnodes] at hn
      obtain ⟨v, hv, hrole⟩ := hs.owners k n hn
      by_cases hk : n.ownerID = id
      · refine ⟨u', by rw [husers, hk, Table.get?_insert_self], fun hmember => ?_⟩
        exact hidle hmember k n hn hk
      · exact ⟨v, by rw [husers, Table.get?_insert_ne _ _ hk, hv], hrole⟩
  | @provided id n u howner hrole husers hnodes =>
    refine ⟨husers ▸ hs.single, husers ▸ hs.drawn, fun k m hm => ?_⟩
    rw [husers]
    rw [hnodes] at hm
    rcases Table.get?_insert_eq_some.mp hm with ⟨-, rfl⟩ | ⟨-, hm⟩
    · refine ⟨u, howner, hrole.elim (fun hlocal => ?_) fun hrole => hrole⟩
      -- The local administrator has no account to own a node.
      rw [hlocal] at howner
      have hdrawn := hs.drawn "local" u howner
      exact absurd hdrawn (by decide +kernel)
    · exact hs.owners k m hm

end Change

namespace Web

variable {compareHashAndPassword : String → String → Bool} {E : Env} {w w' : Web} {a : WebAct}

def LogsIn (act : AuthAct) : Prop :=
  (∃ n username password, act = .loginRead n username password) ∨ (∃ n, act = .loginVerify n) ∨
    ∃ n c token, act = .loginInsert n c token

theorem act_users {x y : Auth} {act : AuthAct} (h : x.act compareHashAndPassword E act = some y)
    (hlogin : LogsIn act) : y.db.users = x.db.users := by
  rcases (show Auth.Step compareHashAndPassword E x act y from h).commits with
    hsame | ⟨⟨op, c, reply⟩, hop, hstep⟩
  · rw [hsame]
  rcases hlogin with ⟨n, username, password, rfl⟩ | ⟨n, rfl⟩ | ⟨n, c', token, rfl⟩
  · cases hop
  · cases hop
  simp only [Auth.op] at hop
  split at hop
  · cases hop
    simp only [UniDERP.Step, exec, quiet_eq_ok, insertSession, Except_bind_eq_ok, orElse_eq_ok,
      require_eq_ok, exists_const, Except_pure_eq_ok] at hstep
    obtain ⟨⟨u, -, -, -, hdb⟩, -⟩ := hstep
    rw [← hdb]
  · cases hop

inductive Touches (compareHashAndPassword : String → String → Bool) (E : Env) (w : Web)
    (a : WebAct) (db' : DB) : Prop
  | nothing (same : db' = w.auth.db)
  | setup {c : Clock} {username password : String} {id : Token} {hash : String} {reply : Reply}
      (commit : exec E c (.initializeAdmin username password id hash) w.auth.db = .ok (db', reply))
  | login {act : AuthAct} {auth : Auth} (logsIn : LogsIn act)
      (step : w.auth.act compareHashAndPassword E act = some auth) (after : db' = auth.db)
  | other {act : AuthAct} {auth : Auth} (call : a = .other act)
      (step : w.auth.act compareHashAndPassword E act = some auth) (after : db' = auth.db)

theorem Step.touches (h : Step compareHashAndPassword E w a w') :
    Touches compareHashAndPassword E w a w'.auth.db := by
  have hlogin : ∀ {n : ℕ} {act : AuthAct} {go : Web → Web}, LogsIn act →
      (∀ w, (go w).auth.db = w.auth.db) →
      Touches compareHashAndPassword E w a (w.logIn compareHashAndPassword E n act go).auth.db := by
    intro n act go hact hgo
    unfold logIn
    split
    · next auth hstep => exact .login hact hstep (hgo _)
    · exact .nothing rfl
  cases a <;> simp only [Step, Web.act] at h
  case other act =>
    obtain ⟨auth, hstep, rfl⟩ := Option.map_eq_some_iff.mp h
    exact .other rfl hstep rfl
  case receive =>
    split_ifs at h
    cases h
    exact .nothing rfl
  case check =>
    split at h <;> cases h
    split_ifs <;> exact .nothing rfl
  case count =>
    split at h <;> cases h
    unfold limit
    dsimp only
    split_ifs <;> exact .nothing rfl
  case create =>
    split at h <;> cases h
    split
    · exact .nothing rfl
    split_ifs
    · split
      · next hexec => exact .setup hexec
      · exact .nothing rfl
    · exact .nothing rfl
  case login n =>
    split at h
    · obtain ⟨⟨username, password⟩, -, rfl⟩ := Option.map_eq_some_iff.mp h
      exact hlogin (.inl ⟨n, username, password, rfl⟩) fun _ => rfl
    · cases h
  case verify n =>
    split at h <;> cases h
    exact hlogin (.inr (.inl ⟨n, rfl⟩)) fun _ => rfl
  case insert n c token =>
    split at h <;> cases h
    exact hlogin (.inr (.inr ⟨n, c, token, rfl⟩)) fun _ => rfl
  case forget n =>
    split at h <;> cases h
    exact .nothing rfl

theorem Step.commits (h : Step compareHashAndPassword E w a w') :
    w'.auth.db = w.auth.db ∨ ∃ t : Commit, UniDERP.Step E w.auth.db t w'.auth.db := by
  have hauth : ∀ {act : AuthAct} {auth : Auth},
      w.auth.act compareHashAndPassword E act = some auth → w'.auth.db = auth.db →
      w'.auth.db = w.auth.db ∨ ∃ t : Commit, UniDERP.Step E w.auth.db t w'.auth.db := by
    intro act auth hstep hafter
    rw [hafter]
    exact (show Auth.Step compareHashAndPassword E w.auth act auth from hstep).commits.imp_right
      fun ⟨t, _, ht⟩ => ⟨t, ht⟩
  cases h.touches with
  | nothing same => exact .inl same
  | setup commit => exact .inr ⟨⟨_, _, _⟩, commit⟩
  | login _ step after => exact hauth step after
  | other _ step after => exact hauth step after

theorem Step.role_change (h : Step compareHashAndPassword E w a w') :
    RoleChange w.auth.db w'.auth.db := by
  rcases h.commits with hsame | ⟨t, ht⟩
  · rw [hsame]
    exact .kept (fun _ => rfl) fun _ n hn => ⟨n, hn, rfl⟩
  · exact ht.role_change

theorem Step.accounts_kept (h : Step compareHashAndPassword E w a w')
    (hadmin : hasAdmin w.auth.db) {n : ℕ} (hn : a.request = some n) :
    w'.auth.db.users = w.auth.db.users := by
  cases h.touches with
  | nothing same => rw [same]
  | setup commit =>
    -- The transaction looks again.
    simp only [exec, quiet_eq_ok, initializeAdmin, createUser, Except_bind_eq_ok, require_eq_ok,
      activeActor_eq_ok, exists_const] at commit
    have hnone := commit.1.2.2.2.1 trivial
    rw [← hasAdmin, hadmin] at hnone
    cases hnone
  | login logsIn step after => rw [after, act_users step logsIn]
  | other call => simp [call, WebAct.request] at hn

/-- In every run of setup and login requests and of any transactions there is one administrator at
most, who stays one, no setup request makes an account from then on, and no member owns a node. -/
theorem Run.roles_kept (compareHashAndPassword : String → String → Bool) (E : Env)
    (r : Web.Run compareHashAndPassword E) :
    (∀ i ≤ r.len, ∀ a b u v, (r.state i).auth.db.users.get? a = some u →
      (r.state i).auth.db.users.get? b = some v → u.role = .admin → v.role = .admin → a = b) ∧
    (∀ i j, i ≤ j → j ≤ r.len → ∀ id u, (r.state i).auth.db.users.get? id = some u →
      u.role = .admin → ∃ u', (r.state j).auth.db.users.get? id = some u' ∧ u'.role = .admin) ∧
    (∀ i j, i ≤ j → j < r.len → ∀ id u, (r.state i).auth.db.users.get? id = some u →
      u.role = .admin → ∀ n q phase, (r.label j).request = some n →
      (r.state j).requests.get? n = some (q, phase) → q.initial = true →
      (r.state (j + 1)).auth.db.users = (r.state j).auth.db.users) ∧
    ∀ i ≤ r.len, ∀ id n u, (r.state i).auth.db.nodes.get? id = some n →
      (r.state i).auth.db.users.get? n.ownerID = some u → u.role ≠ .member := by
  have hsound : ∀ i ≤ r.len, RolesSound (r.state i).auth.db := by
    intro i hi
    refine (r.reachable hi).invariant (I := fun w => RolesSound w.auth.db) ?_ ?_
    · rintro _ rfl
      exact .empty
    · intro w a w' _ hw hstep
      exact (Step.role_change hstep).sound hw
  have hstays : ∀ i j, i ≤ j → j ≤ r.len → ∀ id u, (r.state i).auth.db.users.get? id = some u →
      u.role = .admin →
      ∃ u', (r.state j).auth.db.users.get? id = some u' ∧ u'.role = .admin := by
    intro i j hij hj id u hu hadmin
    refine r.preserved (P := fun w => ∃ u', w.auth.db.users.get? id = some u' ∧ u'.role = .admin) hij
      ⟨u, hu, hadmin⟩ fun k hik hkj ⟨v, hv, hrole⟩ => ?_
    exact (Step.role_change (r.next k (by omega))).admin_stays hv hrole
  refine ⟨fun i hi => (hsound i hi).single, hstays, ?_, ?_⟩
  · intro i j hij hj id u hu hadmin n q phase hn _ _
    obtain ⟨v, hv, hrole⟩ := hstays i j hij hj.le id u hu hadmin
    exact Step.accounts_kept (r.next j hj) (hasAdmin_iff.mpr ⟨id, v, hv, hrole⟩) hn
  · intro i hi id n u hn hu
    obtain ⟨v, hv, hrole⟩ := (hsound i hi).owners id n hn
    cases hu.symm.trans hv
    exact hrole

def rivals : List WebAct :=
  let r : LoginRequest := ⟨true, "https://relay.example", "relay.example", some "application/json",
    "192.0.2.1", some ("admin", "a long password")⟩
  let r' : LoginRequest := { r with body := some ("rival", "another password") }
  [.receive 0 r, .receive 1 r', .check 0, .check 1, .count 0 0, .count 1 0,
    .create 0 First.clock First.owner "hash", .create 1 First.clock First.guestID "hash"]

theorem rival_setup_refused : ∃ r : Web.Run (fun _ _ => true) Env.plain,
    (r.state 7).auth.db.users.keys = [First.owner.text] ∧
    r.label 7 = .create 1 First.clock First.guestID "hash" ∧
    (r.state 8).auth.db.users = (r.state 7).auth.db.users := by
  have hplay : ((UniDERP.Run.play (act (fun _ _ => true) Env.plain) rivals {}).isSome,
      (UniDERP.Run.play (act (fun _ _ => true) Env.plain) (rivals.take 7) {}).map fun w =>
        (w.auth.db.users.keys, (w.auth.db.users.get? First.owner.text).map (·.role),
          (w.requests.get? 1).map fun q => (q.1.initial, q.2))) =
      (true, some ([First.owner.text], some .admin, some (true, .counted))) := by
    decide +kernel
  obtain ⟨hall, hseven⟩ := Prod.mk.inj hplay
  obtain ⟨w, hw⟩ := Option.isSome_iff_exists.mp hall
  obtain ⟨r, hlen, hstate, hlabel⟩ : ∃ r : Web.Run (fun _ _ => true) Env.plain,
      r.len = rivals.length ∧
      (∀ i ≤ rivals.length, UniDERP.Run.play (act (fun _ _ => true) Env.plain) (rivals.take i) {} =
        some (r.state i)) ∧ ∀ i a, rivals[i]? = some a → r.label i = a :=
    UniDERP.Run.of_play (R := Eq) (fun _ a _ h => ⟨a, rfl, h⟩) (WebAct.check 0) rfl hw
  rw [hstate 7 (by decide), Option.map_some, Option.some.injEq, Prod.mk.injEq, Prod.mk.injEq,
    Option.map_eq_some_iff, Option.map_eq_some_iff] at hseven
  obtain ⟨hkeys, ⟨u, hu, hadmin⟩, ⟨q, phase⟩, hq, hinitial⟩ := hseven
  have hcreate : r.label 7 = .create 1 First.clock First.guestID "hash" := hlabel 7 _ rfl
  refine ⟨r, hkeys, hcreate, ?_⟩
  exact (Run.roles_kept (fun _ _ => true) Env.plain r).2.2.1 7 7 le_rfl (hlen ▸ by decide) _ u hu
    hadmin 1 q phase (by rw [hcreate]; rfl) hq (Prod.mk.inj hinitial).1

end Web

end UniDERP
