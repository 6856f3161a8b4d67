import UniDERP.Control.Build

namespace UniDERP

inductive GrantAction
  | approve
  | confirm
  | cancel
  | reject
  | revoke
  | leave
  deriving DecidableEq, Repr

structure GrantView where
  id : String
  nodeID : String
  tailnetID : String
  nodeOwnerID : String
  tailnetOwnerID : String
  state : GrantState
  revision : ℕ
  explicitUntil : Int
  nodeName : String
  tailnetName : String
  applicant : String
  deriving DecidableEq, Repr

/-- The state that is read at `now`: a deadline that has passed ends an open grant. -/
def Grant.stateAt (g : Grant) (now : Int) : GrantState :=
  if g.explicitUntil ≠ 0 ∧ ofUnix g.explicitUntil ≤ now ∧ g.state.live then .expired else g.state

def Grant.until (g : Grant) : Int := if g.explicitUntil ≠ 0 then ofUnix g.explicitUntil else zeroTime

/-- The node and the tailnet of a grant, with the name of the tailnet's owner. -/
structure Parties where
  node : Node
  tailnet : Tailnet
  applicant : String

def parties (node tailnet : String) (db : DB) : Except Err Parties := do
  let n ← orElse (db.nodes.get? node) .noRows
  let tn ← orElse (db.tailnets.get? tailnet) .noRows
  let u ← orElse (db.users.get? tn.ownerID) .noRows
  pure ⟨n, tn, u.username⟩

def scanGrant (now : Int) (node tailnet : String) (g : Grant) (ps : Parties) : GrantView where
  id := g.id
  nodeID := node
  tailnetID := tailnet
  nodeOwnerID := ps.node.ownerID
  tailnetOwnerID := ps.tailnet.ownerID
  state := g.stateAt now
  revision := g.revision
  explicitUntil := g.until
  nodeName := ps.node.displayName
  tailnetName := ps.tailnet.displayName
  applicant := ps.applicant

def grantResourcesEnabled (ps : Parties) (db : DB) : Except Err Bool := do
  let nu ← orElse (db.users.get? ps.node.ownerID) .noRows
  let tu ← orElse (db.users.get? ps.tailnet.ownerID) .noRows
  pure (ps.node.enabled && ps.node.state.serving && nu.enabled && ps.tailnet.enabled && tu.enabled)

def untilUnix (until_ : Int) : Int := if until_ = zeroTime then 0 else unix until_

def requestedState (ps : Parties) : GrantState :=
  if ps.node.ownerID = ps.tailnet.ownerID then .active else .requested

/-- The grant that a request starts from: the stored one, or a new one at revision 0. -/
def requestBase (now : Int) (node tailnet : String) (expected : ℕ) (id : Token) (db : DB) :
    Except Err Grant :=
  match db.grants.get? (pair node tailnet) with
  | none => do
    require (expected = 0) .conflict
    require (db.grants.any (fun _ g => g.id = id.text) = false) .constraint
    pure { id := id.text, state := .requested, revision := 0 }
  | some g => do
    require (expected = g.revision ∧
      g.stateAt now ∈ [.cancelled, .rejected, .revoked, .expired]) .conflict
    pure g

def Grant.repeats (g : Grant) (now : Int) (expected : ℕ) (until_ : Int) (state : GrantState) :
    Bool :=
  g.stateAt now = state && g.until = truncate until_ &&
    (expected = g.revision || expected + 1 = g.revision)

def requestGrant (E : Env) (c : Clock) (actor : Actor) (node tailnet : String) (expected : ℕ)
    (until_ : Int) (id : Token) (db : DB) : Except Err (DB × GrantView) := do
  require (expected < maxInt64 ∧ (until_ ≠ zeroTime → c.read 0 < truncate until_)) .invalid
  activeActor actor db
  let ps ← parties node tailnet db
  requireOwner actor ps.tailnet.ownerID
  let enabled ← grantResourcesEnabled ps db
  require (enabled) .conflict
  let state := requestedState ps
  match (db.grants.get? (pair node tailnet)).filter
    fun g => g.repeats (c.read 1) expected until_ state with
  | some g => pure (db, scanGrant (c.read 1) node tailnet g ps)
  | none =>
    let g ← requestBase (c.read 1) node tailnet expected id db
    let db := { db with
      grants := db.grants.insert (pair node tailnet) { g with
        state := state, revision := g.revision + 1, explicitUntil := untilUnix until_
        lastControlSuccess := if state = .active then unix (c.read 2) else 0 } }
    let (db, _) ← buildPolicy E node (c.read 3) db
    pure (db, { scanGrant (c.read 1) node tailnet g ps with
      state := state, revision := g.revision + 1, explicitUntil := truncate until_ })

/-- Who takes an action, the state it leads to, and the states it starts from. -/
def actionOwner (ps : Parties) : GrantAction → String
  | .approve | .reject | .revoke => ps.node.ownerID
  | .confirm | .cancel | .leave => ps.tailnet.ownerID

@[inherit_doc actionOwner]
def actionNext : GrantAction → GrantState
  | .approve => .ownerApproved
  | .confirm => .active
  | .cancel => .cancelled
  | .reject => .rejected
  | .revoke | .leave => .revoked

@[inherit_doc actionOwner]
def actionAllowed : GrantAction → GrantState → Bool
  | .approve, s => s = .requested
  | .confirm, s => s = .ownerApproved
  | .cancel, s => s = .requested || s = .ownerApproved
  | .reject, s => s = .requested
  | .revoke, s | .leave, s => s = .ownerApproved || s = .active

def grantByID (id : String) (db : DB) : Except Err (Pair × Grant × Parties) := do
  let (k, g) ← orElse (db.grants.find? fun _ g => g.id = id) .noRows
  let ps ← parties (ofLex k).1 (ofLex k).2 db
  pure (k, g, ps)

def applyGrantAction (E : Env) (c : Clock) (actor : Actor) (id : String) (expected : ℕ)
    (action : GrantAction) (db : DB) : Except Err (DB × GrantView) := do
  require (expected ≠ 0 ∧ expected < maxInt64) .invalid
  activeActor actor db
  let (k, g, ps) ← grantByID id db
  let view := scanGrant (c.read 0) (ofLex k).1 (ofLex k).2 g ps
  let next := actionNext action
  requireOwner actor (actionOwner ps action)
  if view.state = next ∧ (g.revision = expected ∨ g.revision = expected + 1) then pure (db, view)
  else do
    require (g.revision = expected ∧ actionAllowed action view.state) .conflict
    let enabled ←
      if action = .approve ∨ action = .confirm then grantResourcesEnabled ps db else pure true
    require (enabled) .conflict
    let db := { db with
      grants := db.grants.insert k { g with
        state := next, revision := g.revision + 1
        lastControlSuccess := if next = .active then unix (c.read 1) else 0 } }
    let (db, _) ← buildPolicy E (ofLex k).1 (c.read 2) db
    pure (db, { view with state := next, revision := g.revision + 1 })

theorem parties_eq_ok {node tailnet : String} {db : DB} {ps : Parties} :
    parties node tailnet db = .ok ps ↔ db.nodes.get? node = some ps.node ∧
      db.tailnets.get? tailnet = some ps.tailnet ∧
      ∃ u, db.users.get? ps.tailnet.ownerID = some u ∧ ps.applicant = u.username := by
  simp only [parties, Except_bind_eq_ok, orElse_eq_ok, Except_pure_eq_ok]
  constructor
  · rintro ⟨n, hn, tn, htn, u, hu, rfl⟩
    exact ⟨hn, htn, u, hu, rfl⟩
  · rintro ⟨hn, htn, u, hu, ha⟩
    exact ⟨_, hn, _, htn, u, hu, by rw [← ha]⟩

theorem grantByID_eq_ok {id : String} {db : DB} {k : Pair} {g : Grant} {ps : Parties}
    (h : grantByID id db = .ok (k, g, ps)) :
    db.grants.get? k = some g ∧ g.id = id ∧ parties (ofLex k).1 (ofLex k).2 db = .ok ps := by
  simp only [grantByID, Except_bind_eq_ok, orElse_eq_ok, Except_pure_eq_ok, Prod.exists,
    Prod.mk.injEq] at h
  obtain ⟨k, g, hfind, ps, hps, rfl, rfl, rfl⟩ := h
  obtain ⟨hg, hid⟩ := Table.find?_eq_some hfind
  exact ⟨hg, by simpa using hid, hps⟩

theorem grantResourcesEnabled_eq_ok {ps : Parties} {db : DB} {b : Bool} :
    grantResourcesEnabled ps db = .ok b ↔
      ∃ nu tu, db.users.get? ps.node.ownerID = some nu ∧
        db.users.get? ps.tailnet.ownerID = some tu ∧
        b = (ps.node.enabled && ps.node.state.serving && nu.enabled && ps.tailnet.enabled &&
          tu.enabled) := by
  simp only [grantResourcesEnabled, Except_bind_eq_ok, orElse_eq_ok, Except_pure_eq_ok]
  constructor
  · rintro ⟨nu, hnu, tu, htu, rfl⟩
    exact ⟨nu, tu, hnu, htu, rfl⟩
  · rintro ⟨nu, tu, hnu, htu, rfl⟩
    exact ⟨nu, hnu, tu, htu, rfl⟩

end UniDERP
