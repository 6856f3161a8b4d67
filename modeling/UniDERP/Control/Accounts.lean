import UniDERP.Control.Build

namespace UniDERP

/-- The order of `COLLATE NOCASE`. -/
def foldCase (s : String) : String := String.ofList (s.toList.map Char.toLower)

def validPassword (password : String) : Bool :=
  12 ≤ password.utf8ByteSize && password.utf8ByteSize ≤ 72

def createUser (actor : Actor) (username password : String) (role : Role) (initial : Bool)
    (id : Token) (hash : String) (db : DB) : Except Err DB := do
  require (username ≠ "" ∧ username.utf8ByteSize ≤ 80 ∧ trimSpace username = username) .invalid
  require (validPassword password) .invalid
  activeActor actor db
  require (initial → db.users.any (fun _ u => u.role = .admin) = false) .conflict
  require (db.users.get? id.text = none ∧
    db.users.any (fun _ u => foldCase u.username = foldCase username) = false) .constraint
  pure { db with users := db.users.insert id.text ⟨username, role, true, hash, 1⟩ }

def localAdmin : Actor := ⟨"local", .admin, true⟩

def initializeAdmin (username password : String) (id : Token) (hash : String) (db : DB) :
    Except Err DB :=
  createUser localAdmin username password .admin true id hash db

def requireAdmin (actor : Actor) : Except Err Unit :=
  require (actor.enabled ∧ actor.role = .admin) .forbidden

/-- `CreateUser`, and `CreateMember` with role member. -/
def createAccount (actor : Actor) (username password : String) (role : Role) (id : Token)
    (hash : String) (db : DB) : Except Err DB := do
  requireAdmin actor
  require (role ≠ .admin) .invalid
  createUser actor username password role false id hash db

def DB.changeUser (db : DB) (userID : String) (f : User → User) : DB :=
  { db with
    users := db.users.modify userID fun u => { f u with sessionVersion := u.sessionVersion + 1 }
    sessions := db.sessions.delete fun _ s => s.userID = userID }

def setUserRole (actor : Actor) (userID : String) (role : Role) (db : DB) : Except Err DB := do
  requireAdmin actor
  require (role ≠ .admin) .invalid
  activeActor actor db
  let u ← orElse (db.users.get? userID) .noRows
  require (u.role ≠ .admin) .forbidden
  if u.role = role then pure db
  else do
    require (role = .member → db.nodes.any (fun _ n => n.ownerID = userID) = false) .conflict
    pure (db.changeUser userID fun u => { u with role := role })

def changePassword (actor : Actor) (userID password : String) (hash : String) (db : DB) :
    Except Err DB := do
  requireOwner actor userID
  require (validPassword password) .invalid
  activeActor actor db
  require (db.users.get? userID ≠ none) .invalid
  pure (db.changeUser userID fun u => { u with passwordHash := hash })

def setUserEnabled (E : Env) (c : Clock) (actor : Actor) (userID : String) (enabled : Bool)
    (db : DB) : Except Err DB := do
  requireAdmin actor
  activeActor actor db
  require (db.users.get? userID ≠ none) .invalid
  rebuildPolicies E (c.read 0) (db.changeUser userID fun u => { u with enabled := enabled })

/-- The last step of a login whose read of the account found `version`. -/
def insertSession (E : Env) (c : Clock) (userID : String) (version : ℕ) (token : Token)
    (db : DB) : Except Err DB := do
  let u ← orElse (db.users.get? userID) .unauthorized
  require (u.enabled ∧ u.sessionVersion = version) .unauthorized
  require (db.sessions.get? (E.tokenHash token.text) = none) .constraint
  let csrf := E.tokenHash ("uniderp-csrf:" ++ token.text)
  pure { db with
    sessions := db.sessions.insert (E.tokenHash token.text)
      ⟨userID, version, E.tokenHash csrf, unix (c.read 0 + 43200 * second)⟩ }

def logout (E : Env) (token : String) (db : DB) : Except Err DB :=
  .ok { db with sessions := db.sessions.erase (E.tokenHash token) }

def setRetentions (E : Env) (c : Clock) (actor : Actor) (r : Retentions) (db : DB) :
    Except Err DB := do
  requireAdmin actor
  require (validRetentions r) .invalid
  activeActor actor db
  rebuildPolicies E (c.read 0) { db with retentions := r }

end UniDERP
