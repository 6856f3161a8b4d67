import Mathlib.Data.List.Find
import UniDERP.Library.Outcome
import UniDERP.Library.Relational

/-!
# Migration of the database

`migrate` of `migrations.go`: the tables of each version, the scripts between them, and the calls
of the driver around these, any of which may fail.
-/

namespace UniDERP

namespace Migration

open Sql

/-- `CHECK(... IN (0,1))`. -/
def isFlag (x : Value) : Bool := x = .integer 0 || x = .integer 1

def isPort : Value → Bool
  | .integer n => 1 ≤ n && n ≤ 65535
  | _ => false

def references (table : String) (cascade : Bool) : Option Parent := some ⟨table, "id", cascade⟩

def roleColumn (given : List String) : Column :=
  { name := "role", notNull := true, check := fun x => x ∈ given.map Value.text }

def users (given : List String) : Relation where
  columns := [{ name := "id" }, { name := "username", notNull := true }, roleColumn given,
    { name := "enabled", notNull := true, check := isFlag },
    { name := "password_hash", notNull := true },
    { name := "session_version", notNull := true, default := .integer 1 }]
  keys := [[("id", false)], [("username", true)]]

def sessions : Relation where
  columns := [{ name := "token_hash" },
    { name := "user_id", notNull := true, parent := references "users" true },
    { name := "session_version", notNull := true }, { name := "csrf_hash", notNull := true },
    { name := "expires_at", notNull := true }]
  keys := [[("token_hash", false)]]

def tailnets : Relation where
  columns := [{ name := "id" },
    { name := "owner_id", notNull := true, parent := references "users" false },
    { name := "display_name", notNull := true }, { name := "api_id" },
    { name := "enabled", notNull := true, default := .integer 1, check := isFlag }]
  keys := [[("id", false)], [("api_id", false)]]

def credentials : Relation where
  columns := [{ name := "tailnet_id", parent := references "tailnets" true },
    { name := "kind", notNull := true }, { name := "encrypted", notNull := true },
    { name := "status", notNull := true }, { name := "updated_at", notNull := true },
    { name := "error", notNull := true, default := .text "" }]
  keys := [[("tailnet_id", false)]]

def revisionColumn : Column := { name := "revision", notNull := true, default := .integer 1 }

def refreshSeqColumn : Column := { name := "refresh_seq", notNull := true, default := .integer 0 }

def identitySnapshots : Relation where
  columns := [{ name := "tailnet_id", parent := references "tailnets" true },
    { name := "revision", notNull := true }, { name := "last_success", notNull := true },
    { name := "keys_json", notNull := true }]
  keys := [[("tailnet_id", false)]]

def nodes : Relation where
  columns := [{ name := "id" },
    { name := "owner_id", notNull := true, parent := references "users" false },
    { name := "domain", notNull := true }, { name := "display_name", notNull := true },
    { name := "region_id", notNull := true }, { name := "public_key" },
    { name := "state", notNull := true, default := .text "pending" },
    { name := "instance_id", notNull := true, default := .text "" },
    { name := "lease_until", notNull := true, default := .integer 0 },
    { name := "last_heartbeat", notNull := true, default := .integer 0 },
    { name := "last_error", notNull := true, default := .text "" }]
  keys := [[("id", false)], [("domain", false)], [("region_id", false)]]

def enrollments : Relation where
  columns := [{ name := "node_id", parent := references "nodes" true },
    { name := "code_hash", notNull := true }, { name := "expires_at", notNull := true },
    { name := "consumed_at", notNull := true, default := .integer 0 }, { name := "request_hash" }]
  keys := [[("node_id", false)], [("code_hash", false)]]

def nodeSessions : Relation where
  columns := [{ name := "token_hash" },
    { name := "node_id", notNull := true, parent := references "nodes" true },
    { name := "instance_id", notNull := true }, { name := "expires_at", notNull := true }]
  keys := [[("token_hash", false)]]

def grants : Relation where
  columns := [{ name := "id" },
    { name := "node_id", notNull := true, parent := references "nodes" true },
    { name := "tailnet_id", notNull := true, parent := references "tailnets" true },
    { name := "state", notNull := true }, { name := "revision", notNull := true },
    { name := "explicit_until", notNull := true, default := .integer 0 }]
  keys := [[("id", false)], [("node_id", false), ("tailnet_id", false)]]

def nodePolicies : Relation where
  columns := [{ name := "node_id", parent := references "nodes" true },
    { name := "desired_revision", notNull := true, default := .integer 0 },
    { name := "received_revision", notNull := true, default := .integer 0 },
    { name := "applied_revision", notNull := true, default := .integer 0 },
    { name := "generated_at", notNull := true, default := .integer 0 }, { name := "policy_json" },
    { name := "budget_bps", notNull := true, default := .integer 100000000 },
    { name := "owner_weight", notNull := true, default := .integer 8 },
    { name := "shared_weight", notNull := true, default := .integer 2 },
    { name := "shared_max_bps", notNull := true, default := .integer 0 }]
  keys := [[("node_id", false)]]

def tailnetRules : Relation where
  columns := [{ name := "node_id", notNull := true, parent := references "nodes" true },
    { name := "tailnet_id", notNull := true, parent := references "tailnets" true },
    { name := "group_name", notNull := true
      check := fun x => x = .text "owner" || x = .text "shared" },
    { name := "weight", notNull := true, default := .integer 1 },
    { name := "max_bps", notNull := true, default := .integer 0 }]
  keys := [[("node_id", false), ("tailnet_id", false)]]

def settings : Relation where
  columns := [{ name := "key" }, { name := "value", notNull := true }]
  keys := [[("key", false)]]

def audit : Relation where
  columns := [{ name := "id" }, { name := "actor_id", notNull := true },
    { name := "owner_id", notNull := true }, { name := "resource_type", notNull := true },
    { name := "resource_id", notNull := true }, { name := "action", notNull := true },
    { name := "created_at", notNull := true }]
  keys := [[("id", false)]]

def eventRows : Relation where
  columns := [{ name := "id" }, { name := "owner_id", notNull := true },
    { name := "resource_type", notNull := true }, { name := "resource_id", notNull := true },
    { name := "kind", notNull := true }, { name := "message", notNull := true },
    { name := "created_at", notNull := true },
    { name := "resolved_at", notNull := true, default := .integer 0 }]
  keys := [[("id", false)]]

def responseColumn : Column := { name := "response_encrypted" }

def ownerColumn : Column := { name := "owner_id", parent := references "users" false }

def nodeChallenges : Relation where
  columns := [{ name := "nonce_hash" },
    { name := "node_id", notNull := true, parent := references "nodes" true },
    { name := "payload", notNull := true }, { name := "expires_at", notNull := true },
    { name := "used_at", notNull := true, default := .integer 0 }]
  keys := [[("nonce_hash", false)]]

def lastControlColumn : Column :=
  { name := "last_control_success", notNull := true, default := .integer 0 }

def derperUsableColumn : Column :=
  { name := "derper_usable", notNull := true, default := .integer 0 }

def enabledColumn : Column :=
  { name := "enabled", notNull := true, default := .integer 1, check := isFlag }

def verifiedColumn : Column :=
  { name := "domain_verified_at", notNull := true, default := .integer 0 }

def nodeObservations : Relation where
  columns := [{ name := "node_id", parent := references "nodes" true },
    { name := "report_instance", notNull := true, default := .text "" },
    { name := "report_json" }, { name := "reported_at", notNull := true, default := .integer 0 },
    { name := "probes_json" }, { name := "previous_report_json" }]
  keys := [[("node_id", false)]]

def derpPortColumn : Column :=
  { name := "derp_port", notNull := true, default := .integer 443, check := isPort }

def stunPortColumn : Column :=
  { name := "stun_port", notNull := true, default := .integer 3478, check := isPort }

def roles : List String := ["admin", "provider", "member"]

def legacyRoles : List String := ["admin", "member"]

def addRevisions : List Statement := [
  .addColumn "credentials" revisionColumn, .addColumn "credentials" refreshSeqColumn]

def createTables : List Statement := [
  .createTable "users" (users roles), .createTable "sessions" sessions,
  .createTable "tailnets" tailnets,
  .createTable "credentials" ((credentials.add revisionColumn).add refreshSeqColumn),
  .createTable "identity_snapshots" identitySnapshots, .createTable "nodes" nodes,
  .createTable "enrollments" enrollments, .createTable "node_sessions" nodeSessions,
  .createTable "grants" grants, .createTable "node_policies" nodePolicies,
  .createTable "tailnet_rules" tailnetRules, .createTable "settings" settings,
  .createTable "audit" audit, .createTable "events" eventRows]

/-- `(SELECT column FROM table WHERE p)`: the first row's value, or NULL. -/
def scalar (db : Database) (table column : String) (p : Row → Bool) : Value :=
  (((db.tables.get? table).bind fun rel => rel.rows.find? p).map (· column)).getD .null

def addOwners : List Statement := [
  .addColumn "enrollments" responseColumn, .addColumn "enrollments" ownerColumn,
  .update "enrollments" "owner_id" (fun _ _ => true) fun db r =>
    scalar db "nodes" "owner_id" fun n => n "id" ≠ .null && n "id" = r "node_id",
  .createTable "node_challenges" nodeChallenges, .setVersion 3]

def addControl : List Statement := [
  .addColumn "grants" lastControlColumn, .addColumn "node_policies" derperUsableColumn]

/-- `resource_type='node' AND resource_id=nodes.id AND action='node.enroll'`. -/
def enrolls (r a : Row) : Bool :=
  a "resource_type" = .text "node" && a "resource_id" ≠ .null && a "resource_id" = r "id" &&
    a "action" = .text "node.enroll"

def enrollmentTimes (audit : Relation) (r : Row) : List Value :=
  (audit.rows.filter (enrolls r)).map (· "created_at")

/-- `coalesce((SELECT max(created_at) FROM audit WHERE ...),0)`. -/
def latestEnrollment (db : Database) (r : Row) : Value :=
  let latest := maximum (((db.tables.get? "audit").map (enrollmentTimes · r)).getD [])
  if latest = .null then .integer 0 else latest

def addVerification : List Statement := [
  .addColumn "nodes" enabledColumn, .addColumn "nodes" verifiedColumn,
  .update "nodes" "domain_verified_at" (fun _ r => r "public_key" ≠ .null) latestEnrollment,
  .createTable "node_observations" nodeObservations, .setVersion 5]

def addPorts : List Statement := [
  .addColumn "nodes" derpPortColumn, .addColumn "nodes" stunPortColumn, .setVersion 6]

/-- `CASE WHEN role='member' AND EXISTS(...) THEN 'provider' ELSE role END`. -/
def newRole (db : Database) (r : Row) : Value :=
  if r "role" = .text "member" ∧
      db.any "nodes" (fun n => n "owner_id" ≠ .null && n "owner_id" = r "id") then .text "provider"
  else r "role"

def selectUser (db : Database) (r : Row) : Row := fun c =>
  if c = "role" then newRole db r
  else if c ∈ ["id", "username", "enabled", "password_hash", "session_version"] then r c
  else .null

def promoteOwners : List Statement := [
  .createTable "users_new" (users roles), .insertSelect "users_new" "users" selectUser,
  .dropTable "users", .renameTable "users_new" "users"]

inductive Call
  | readVersion
  | foreignKeysOff
  | begin
  | addRevisions
  | createTables
  | addOwners
  | addControl
  | addVerification
  | addPorts
  | promoteOwners
  | foreignKeyCheck
  | setVersion
  | commit
  | foreignKeysOn
  deriving DecidableEq, Repr

inductive Failure
  | driver (call : Call)
  | statement (call : Call)
  | unsupported (version : Int)
  /-- "controller migration has invalid resource ownership". -/
  | ownership
  deriving DecidableEq, Repr

section Migrate

-- Which calls fail, for reasons outside of the database's content.
variable (fault : Call → Bool)

def call (c : Call) : Except Failure Unit := require (fault c = false) (.driver c)

def script (c : Call) (statements : List Statement) (db : Database) : Except Failure Database := do
  call fault c
  orElse (run statements db) (.statement c)

def scriptIf (b : Prop) [Decidable b] (c : Call) (statements : List Statement) (db : Database) :
    Except Failure Database :=
  if b then script fault c statements db else pure db

def steps (db : Database) : Except Failure Database := do
  let version := db.userVersion
  let db ← scriptIf fault (version = 1) .addRevisions addRevisions db
  let db ← scriptIf fault (version = 0) .createTables createTables db
  let db ← scriptIf fault (version < 3) .addOwners addOwners db
  let db ← scriptIf fault (version < 4) .addControl addControl db
  let db ← scriptIf fault (version < 5) .addVerification addVerification db
  let db ← scriptIf fault (version < 6) .addPorts addPorts db
  let db ← scriptIf fault (0 < version) .promoteOwners promoteOwners db
  call fault .foreignKeyCheck
  require db.consistent .ownership
  script fault .setVersion [.setVersion 7] db

def transaction (db : Database) : Database × Except Failure Unit :=
  match (do call fault .begin; let db' ← steps fault db; call fault .commit; pure db') with
  | .ok db' => (db', .ok ())
  | .error e => (db, .error e)

def migrate (db : Database) : Database × Except Failure Unit :=
  if fault .readVersion then (db, .error (.driver .readVersion))
  else if db.userVersion = 7 then (db, .ok ())
  else if db.userVersion < 0 ∨ 7 < db.userVersion then (db, .error (.unsupported db.userVersion))
  else if fault .foreignKeysOff then (db, .error (.driver .foreignKeysOff))
  else
    let (db, result) := transaction fault { db with foreignKeys := false }
    -- The deferred call, whose own failure is reported if there is no other.
    if fault .foreignKeysOn then (db, result.bind fun _ => .error (.driver .foreignKeysOn))
    else ({ db with foreignKeys := true }, result)

end Migrate

section Scripts

variable {db : Database} {rel : Relation}

def revisionColumns : List Column := [revisionColumn, refreshSeqColumn]

def withRevisions (db : Database) : Database :=
  db.alter "credentials" (·.grow revisionColumns (fill revisionColumns))

theorem exec_add {table : String} {c : Column} (hoff : db.foreignKeys = false)
    (hrel : db.tables.get? table = some rel) (hnew : c.name ∉ rel.names)
    (hdefault : c.admits c.default = true) :
    exec db (.addColumn table c) = some (db.alter table (·.grow [c] (fill [c]))) := by
  refine exec_addColumn.mpr ⟨⟨rel, hrel, hnew, fun hnull he => ?_, ?_, fun _ => hdefault⟩, rfl⟩
  · simp [Column.admits, he, hnull] at hdefault
  · simp [hoff]

theorem exec_add_two {table : String} (c c' : Column) (hoff : db.foreignKeys = false)
    (hrel : db.tables.get? table = some rel) (hnew : c.name ∉ rel.names)
    (hnew' : c'.name ∉ rel.names)
    (hne : c'.name ≠ c.name) (hc : c.admits c.default = true) (hc' : c'.admits c'.default = true) :
    ∃ mid, exec db (.addColumn table c) = some mid ∧
      exec mid (.addColumn table c') = some (db.alter table (·.grow [c, c'] (fill [c, c']))) := by
  refine ⟨_, exec_add hoff hrel hnew hc, ?_⟩
  have hrel' : (db.alter table (·.grow [c] (fill [c]))).tables.get? table =
      some (rel.grow [c] (fill [c])) := by
    rw [get?_alter, if_pos rfl, hrel]
    rfl
  have hfresh : c'.name ∉ (rel.grow [c] (fill [c])).names := by
    intro hmem
    rw [Relation.names, Relation.grow, List.map_append, List.mem_append] at hmem
    rcases hmem with hmem | hmem
    · exact hnew' hmem
    · exact hne (List.mem_singleton.mp hmem)
  rw [exec_add (by exact hoff) hrel' hfresh hc', alter_grow_grow, fill_comp_fill,
    List.singleton_append]

theorem run_addRevisions (hoff : db.foreignKeys = false)
    (hrel : db.tables.get? "credentials" = some rel) (hrevision : "revision" ∉ rel.names)
    (hseq : "refresh_seq" ∉ rel.names) : run addRevisions db = some (withRevisions db) := by
  obtain ⟨mid, hfirst, hsecond⟩ := exec_add_two revisionColumn refreshSeqColumn hoff hrel
    hrevision hseq (by decide) (by decide) (by decide)
  exact run_cons.mpr ⟨mid, hfirst, run_cons.mpr ⟨_, hsecond, run_nil.mpr rfl⟩⟩

/-- An update of a column that was just added. -/
theorem exec_update_added {table column : String} (new : List Column)
    {where_ : Database → Row → Bool} {value : Database → Row → Value} (f : Row → Row)
    (hoff : db.foreignKeys = false) (hrel : db.tables.get? table = some rel)
    (hcolumn : column ∈ new.map (·.name))
    (hf : ∀ r, Function.update (fill new r) column
      (if where_ (db.alter table (·.grow new (fill new))) (fill new r) then
        value (db.alter table (·.grow new (fill new))) (fill new r) else fill new r column) = f r)
    (hsound : (rel.grow new f).sound = true) :
    exec (db.alter table (·.grow new (fill new))) (.update table column where_ value) =
      some (db.alter table (·.grow new f)) := by
  have hset : ∀ rel : Relation, (rel.grow new (fill new)).set column (fun r =>
      if where_ (db.alter table (·.grow new (fill new))) r then
        value (db.alter table (·.grow new (fill new))) r else r column) = rel.grow new f := by
    intro rel
    rw [Relation.set_eq_grow, Relation.grow_grow, List.append_nil]
    exact congrArg (rel.grow new) (funext hf)
  refine (exec_update (by exact hoff)).mpr ⟨⟨rel.grow new (fill new), ?_, ?_, ?_⟩, ?_⟩
  · rw [get?_alter, if_pos rfl, hrel]
    rfl
  · rw [Relation.names, Relation.grow, List.map_append]
    exact List.mem_append_right _ hcolumn
  · rw [hset]
    exact hsound
  · rw [alter_alter]
    congr 1
    funext rel
    exact hset rel

def ownerColumns : List Column := [responseColumn, ownerColumn]

def ownerOf (db : Database) (r : Row) : Value :=
  scalar db "nodes" "owner_id" fun n => n "id" ≠ .null && n "id" = r "node_id"

def giveOwner (db : Database) (r : Row) : Row :=
  Function.update (fill ownerColumns r) "owner_id" (ownerOf db r)

def withOwners (db : Database) : Database :=
  { (db.alter "enrollments" (·.grow ownerColumns (giveOwner db))).put "node_challenges"
      nodeChallenges with userVersion := 3 }

theorem run_addOwners (hoff : db.foreignKeys = false)
    (hrel : db.tables.get? "enrollments" = some rel) (hresponse : "response_encrypted" ∉ rel.names)
    (howner : "owner_id" ∉ rel.names)
    (hsound : (rel.grow ownerColumns (giveOwner db)).sound = true)
    (hnone : db.tables.get? "node_challenges" = none) :
    run addOwners db = some (withOwners db) := by
  obtain ⟨mid, hfirst, hsecond⟩ := exec_add_two responseColumn ownerColumn hoff hrel hresponse
    howner (by decide) (by decide) (by decide)
  refine run_cons.mpr ⟨mid, hfirst, run_cons.mpr ⟨_, hsecond, run_cons.mpr ⟨_,
    exec_update_added ownerColumns (giveOwner db) hoff hrel (by decide) (fun r => ?_) hsound,
    run_cons.mpr ⟨_, exec_createTable.mpr ⟨?_, rfl⟩, rfl⟩⟩⟩⟩
  · rw [if_pos rfl, scalar, get?_alter, if_neg (by decide), fill_of_not_mem (by decide)]
    rfl
  · rw [get?_alter, if_neg (by decide)]
    exact hnone

def withControl (db : Database) : Database :=
  (db.alter "grants" (·.grow [lastControlColumn] (fill [lastControlColumn]))).alter "node_policies"
    (·.grow [derperUsableColumn] (fill [derperUsableColumn]))

theorem run_addControl {policies : Relation} (hoff : db.foreignKeys = false)
    (hrel : db.tables.get? "grants" = some rel) (hcontrol : "last_control_success" ∉ rel.names)
    (hpolicies : db.tables.get? "node_policies" = some policies)
    (husable : "derper_usable" ∉ policies.names) : run addControl db = some (withControl db) := by
  have hpolicies' : (db.alter "grants" (·.grow [lastControlColumn]
      (fill [lastControlColumn]))).tables.get? "node_policies" = some policies := by
    rw [get?_alter, if_neg (by decide)]
    exact hpolicies
  exact run_cons.mpr ⟨_, exec_add hoff hrel hcontrol (by decide), run_cons.mpr ⟨_,
    exec_add (by exact hoff) hpolicies' husable (by decide), run_nil.mpr rfl⟩⟩

def verifiedColumns : List Column := [enabledColumn, verifiedColumn]

def verifiedAt (db : Database) (r : Row) : Value :=
  if r "public_key" ≠ .null then latestEnrollment db r else .integer 0

def giveVerified (db : Database) (r : Row) : Row :=
  Function.update (fill verifiedColumns r) "domain_verified_at" (verifiedAt db r)

def withVerification (db : Database) : Database :=
  { (db.alter "nodes" (·.grow verifiedColumns (giveVerified db))).put "node_observations"
      nodeObservations with userVersion := 5 }

theorem run_addVerification (hoff : db.foreignKeys = false)
    (hrel : db.tables.get? "nodes" = some rel) (henabled : "enabled" ∉ rel.names)
    (hverified : "domain_verified_at" ∉ rel.names)
    (hsound : (rel.grow verifiedColumns (giveVerified db)).sound = true)
    (hnone : db.tables.get? "node_observations" = none) :
    run addVerification db = some (withVerification db) := by
  obtain ⟨mid, hfirst, hsecond⟩ := exec_add_two enabledColumn verifiedColumn hoff hrel henabled
    hverified (by decide) (by decide) (by decide)
  refine run_cons.mpr ⟨mid, hfirst, run_cons.mpr ⟨_, hsecond, run_cons.mpr ⟨_,
    exec_update_added verifiedColumns (giveVerified db) hoff hrel (by decide) (fun r => ?_) hsound,
    run_cons.mpr ⟨_, exec_createTable.mpr ⟨?_, rfl⟩, rfl⟩⟩⟩⟩
  · have hkey : fill verifiedColumns r "public_key" = r "public_key" :=
      fill_of_not_mem (by decide) r
    have hdefault : fill verifiedColumns r "domain_verified_at" = .integer 0 := rfl
    have hlatest : latestEnrollment (db.alter "nodes" (·.grow verifiedColumns
        (fill verifiedColumns))) (fill verifiedColumns r) = latestEnrollment db r := by
      simp only [latestEnrollment, enrollmentTimes, get?_alter]
      rfl
    rw [hlatest, hkey, hdefault]
    simp only [giveVerified, verifiedAt, decide_eq_true_eq]
  · rw [get?_alter, if_neg (by decide)]
    exact hnone

def portColumns : List Column := [derpPortColumn, stunPortColumn]

def withPorts (db : Database) : Database :=
  { db.alter "nodes" (·.grow portColumns (fill portColumns)) with userVersion := 6 }

theorem run_addPorts (hoff : db.foreignKeys = false) (hrel : db.tables.get? "nodes" = some rel)
    (hderp : "derp_port" ∉ rel.names) (hstun : "stun_port" ∉ rel.names) :
    run addPorts db = some (withPorts db) := by
  obtain ⟨mid, hfirst, hsecond⟩ := exec_add_two derpPortColumn stunPortColumn hoff hrel hderp
    hstun (by decide) (by decide) (by decide)
  exact run_cons.mpr ⟨mid, hfirst, run_cons.mpr ⟨_, hsecond, rfl⟩⟩

end Scripts

/-- The tables of version 1, for the roles that an account could then have. -/
def firstSchema (given : List String) : Database :=
  [("users", users given), ("sessions", sessions), ("tailnets", tailnets),
    ("credentials", credentials), ("identity_snapshots", identitySnapshots), ("nodes", nodes),
    ("enrollments", enrollments), ("node_sessions", nodeSessions), ("grants", grants),
    ("node_policies", nodePolicies), ("tailnet_rules", tailnetRules), ("settings", settings),
    ("audit", audit), ("events", eventRows)].foldl (fun db x => db.put x.1 x.2) { tables := ∅ }

def nextSchema : ℕ → Database → Database
  | 1, db => db.alter "credentials" (·.grow revisionColumns id)
  | 2, db => (db.alter "enrollments" (·.grow ownerColumns id)).put "node_challenges" nodeChallenges
  | 3, db => (db.alter "grants" (·.grow [lastControlColumn] id)).alter "node_policies"
      (·.grow [derperUsableColumn] id)
  | 4, db => (db.alter "nodes" (·.grow verifiedColumns id)).put "node_observations" nodeObservations
  | 5, db => db.alter "nodes" (·.grow portColumns id)
  | _, db => db

def schema (given : List String) : ℕ → Database
  | 0 => firstSchema given
  | v + 1 => nextSchema v (schema given v)

section Schema

variable (given : List String)

theorem get?_schema_users (v : ℕ) :
    (schema given v).tables.get? "users" = some (users given) := by
  induction v with
  | zero => simp [schema, firstSchema, Database.get?_put]
  | succ v ih => unfold schema nextSchema; split <;> simp [get?_alter, Database.get?_put, ih]

theorem get?_schema_of_ne {t : String} (ht : t ≠ "users") (given' : List String) (v : ℕ) :
    (schema given v).tables.get? t = (schema given' v).tables.get? t := by
  induction v with
  | zero => simp [schema, firstSchema, Database.get?_put, ht]
  | succ v ih => unfold schema nextSchema; split <;> simp [get?_alter, Database.get?_put, ih]

theorem refersTo_schema (v : ℕ) :
    (schema given v).refersTo ["users", "tailnets", "nodes"] "id" = true := by
  induction v with
  | zero =>
    refine List.foldlRecOn (motive := fun db : Database =>
      db.refersTo ["users", "tailnets", "nodes"] "id" = true) _ _ rfl fun db ih x hx =>
        Database.refersTo_put ih ?_
    rcases List.mem_cons.mp hx with rfl | hrest
    · exact List.all_eq_true.mp rfl
    · clear hx
      revert x
      decide
  | succ v ih =>
    unfold schema nextSchema
    split
    · exact Database.refersTo_grow ih (by decide)
    · exact Database.refersTo_put (Database.refersTo_grow ih (by decide)) (by decide)
    · exact Database.refersTo_grow (Database.refersTo_grow ih (by decide)) (by decide)
    · exact Database.refersTo_put (Database.refersTo_grow ih (by decide)) (by decide)
    · exact Database.refersTo_grow ih (by decide)
    · exact ih

end Schema

/-- What a new column holds: its default, but for the owner of an enrollment and for the time at
which the domain of a node was verified. -/
def start (db : Database) (t : String) (c : Column) (r : Row) : Value :=
  if t = "enrollments" ∧ c.name = "owner_id" then ownerOf db r
  else if t = "nodes" ∧ c.name = "domain_verified_at" then verifiedAt db r
  else c.default

/-- Tables get columns, no row goes or comes, and new tables are empty. -/
structure Extends (db db' : Database) : Prop where
  kept : ∀ t rel, db.tables.get? t = some rel → ∃ new f,
    db'.tables.get? t = some (rel.grow new f) ∧ ∀ r ∈ rel.rows,
      (∀ n ∈ rel.names, f r n = r n) ∧ ∀ c ∈ new, f r c.name = start db t c r
  fresh : ∀ t rel', db.tables.get? t = none → db'.tables.get? t = some rel' → rel'.rows = []

section Extends

variable {db db' : Database} {t : String} {declared rel : Relation} {new : List Column}
  {f : Row → Row}

theorem Extends.refl (db : Database) : Extends db db where
  kept t rel hrel := by
    refine ⟨[], id, ?_, fun r hr => ⟨fun n hn => rfl, fun c hc => (List.not_mem_nil hc).elim⟩⟩
    rw [hrel, Relation.grow, List.append_nil, List.map_id]
  fresh t rel' hnone hrel' := by
    rw [hnone] at hrel'
    cases hrel'

theorem extends_grow (hrel : db.tables.get? t = some rel) (hnew : ∀ c ∈ new, c.name ∉ rel.names)
    (hkept : ∀ r n, n ∉ new.map (·.name) → f r n = r n)
    (hstart : ∀ r ∈ rel.rows, ∀ c ∈ new, f r c.name = start db t c r) :
    Extends db (db.alter t (·.grow new f)) where
  kept t' rel' hrel' := by
    rw [get?_alter]
    by_cases ht : t' = t
    · rw [ht, hrel, Option.some.injEq] at hrel'
      subst hrel'
      refine ⟨new, f, ?_, fun r hr => ⟨fun n hn => hkept r n fun hmem => ?_, ?_⟩⟩
      · rw [if_pos ht, ht, hrel, Option.map_some]
      · obtain ⟨c, hc, rfl⟩ := List.mem_map.mp hmem
        exact hnew c hc hn
      · rw [ht]
        exact hstart r hr
    · rw [if_neg ht]
      exact (Extends.refl db).kept t' rel' hrel'
  fresh t' rel' hnone hrel' := by
    rw [get?_alter, hnone, Option.map_none, ite_self] at hrel'
    cases hrel'

theorem Extends.put (h : Extends db db') (hnone : db'.tables.get? t = none)
    (hrows : rel.rows = []) : Extends db (db'.put t rel) where
  kept t' rel' hrel' := by
    obtain ⟨new, f, hget, hf⟩ := h.kept t' rel' hrel'
    refine ⟨new, f, ?_, hf⟩
    rw [Database.get?_put, if_neg]
    · exact hget
    · intro ht
      rw [ht, hnone] at hget
      cases hget
  fresh t' rel' hnone' hrel' := by
    rw [Database.get?_put] at hrel'
    split_ifs at hrel'
    · rw [← Option.some.inj hrel', hrows]
    · exact h.fresh t' rel' hnone' hrel'

structure Readable (db : Database) : Prop where
  nodes : ∃ rel, db.tables.get? "nodes" = some rel ∧
    ∀ n ∈ ["id", "owner_id", "public_key"], n ∈ rel.names
  enrollments : ∃ rel, db.tables.get? "enrollments" = some rel ∧ "node_id" ∈ rel.names
  audit : ∃ rel, db.tables.get? "audit" = some rel ∧
    ∀ n ∈ ["resource_type", "resource_id", "action", "created_at"], n ∈ rel.names

theorem readable_of_content {given : List String} {v : ℕ} (hv : v ≤ 6)
    (h : (schema given v).Content db) : Readable db := by
  have hget : (∃ d, (schema given v).tables.get? "nodes" = some d ∧
      ∀ n ∈ ["id", "owner_id", "public_key"], n ∈ d.names) ∧
      (∃ d, (schema given v).tables.get? "enrollments" = some d ∧ "node_id" ∈ d.names) ∧
      (schema given v).tables.get? "audit" = some audit := by
    interval_cases v <;>
      simp [schema, nextSchema, firstSchema, get?_alter, Database.get?_put, Relation.names,
        Relation.grow, nodes, enrollments]
  obtain ⟨⟨d, hd, hnames⟩, ⟨e, he, hname⟩, ha⟩ := hget
  obtain ⟨rel, hrel, hlike⟩ := h.get?_eq_some hd
  obtain ⟨rel', hrel', hlike'⟩ := h.get?_eq_some he
  obtain ⟨rel'', hrel'', hlike''⟩ := h.get?_eq_some ha
  refine ⟨⟨rel, hrel, fun n hn => hlike.mem_names.mpr (hnames n hn)⟩,
    ⟨rel', hrel', hlike'.mem_names.mpr hname⟩, ⟨rel'', hrel'', fun n hn => ?_⟩⟩
  rw [hlike''.mem_names]
  revert n
  decide

theorem Extends.ownerOf_eq (h : Extends db db') (hdb : Readable db) {r r' : Row}
    (hnode : r' "node_id" = r "node_id") : ownerOf db' r' = ownerOf db r := by
  obtain ⟨rel, hrel, hnames⟩ := hdb.nodes
  obtain ⟨new, f, hget, hf⟩ := h.kept "nodes" rel hrel
  have hfind : (rel.grow new f).rows.find? (fun n => n "id" ≠ .null && n "id" = r' "node_id") =
      (rel.rows.find? fun n => n "id" ≠ .null && n "id" = r "node_id").map f := by
    rw [Relation.grow, List.find?_map]
    refine congrArg _ (List.find?_congr fun n hn => ?_)
    rw [Function.comp_apply, (hf n hn).1 "id" (hnames _ (by decide)), hnode]
  rw [ownerOf, ownerOf, scalar, scalar, hget, hrel, Option.bind_some, Option.bind_some, hfind]
  cases hn : rel.rows.find? fun n => n "id" ≠ .null && n "id" = r "node_id" with
  | none => rfl
  | some n => exact (hf n (List.mem_of_find?_eq_some hn)).1 _ (hnames _ (by decide))

theorem Extends.verifiedAt_eq (h : Extends db db') (hdb : Readable db) {r r' : Row}
    (hid : r' "id" = r "id") (hkey : r' "public_key" = r "public_key") :
    verifiedAt db' r' = verifiedAt db r := by
  obtain ⟨rel, hrel, hnames⟩ := hdb.audit
  obtain ⟨new, f, hget, hf⟩ := h.kept "audit" rel hrel
  have htimes : enrollmentTimes (rel.grow new f) r' = enrollmentTimes rel r := by
    rw [enrollmentTimes, enrollmentTimes, Relation.grow, List.filter_map, List.map_map]
    have hfilter : rel.rows.filter (enrolls r' ∘ f) = rel.rows.filter (enrolls r) := by
      refine List.filter_congr fun a ha => ?_
      rw [Function.comp_apply, enrolls, enrolls, (hf a ha).1 _ (hnames "resource_type" (by decide)),
        (hf a ha).1 _ (hnames "resource_id" (by decide)),
        (hf a ha).1 _ (hnames "action" (by decide)), hid]
    rw [hfilter]
    refine List.map_congr_left fun a ha => ?_
    exact (hf a (List.mem_of_mem_filter ha)).1 _ (hnames _ (by decide))
  simp only [verifiedAt, latestEnrollment, hget, hrel, Option.map_some, htimes, hkey]

theorem Extends.start_eq (h : Extends db db') (hdb : Readable db)
    (hrel : db.tables.get? t = some rel) {r r' : Row} (hr : ∀ n ∈ rel.names, r' n = r n)
    (c : Column) : start db' t c r' = start db t c r := by
  unfold start
  split_ifs with howner hverified
  · obtain ⟨_, hrel', hname⟩ := hdb.enrollments
    rw [← howner.1, hrel, Option.some.injEq] at hrel'
    exact h.ownerOf_eq hdb (hr _ (hrel' ▸ hname))
  · obtain ⟨_, hrel', hnames⟩ := hdb.nodes
    rw [← hverified.1, hrel, Option.some.injEq] at hrel'
    subst hrel'
    exact h.verifiedAt_eq hdb (hr _ (hnames _ (by decide))) (hr _ (hnames _ (by decide)))
  · rfl

theorem Extends.trans {db'' : Database} (h : Extends db db') (h' : Extends db' db'')
    (hdb : Readable db) : Extends db db'' where
  kept t rel hrel := by
    obtain ⟨new, f, hget, hf⟩ := h.kept t rel hrel
    obtain ⟨new', f', hget', hf'⟩ := h'.kept t _ hget
    refine ⟨new ++ new', f' ∘ f, ?_, fun r hr => ?_⟩
    · rw [hget', Relation.grow_grow]
    obtain ⟨hold, hnew⟩ := hf r hr
    obtain ⟨hold', hnew'⟩ := hf' (f r) (List.mem_map_of_mem hr)
    have hkept : ∀ c ∈ rel.columns ++ new, f' (f r) c.name = f r c.name := fun c hc =>
      hold' _ (List.mem_map_of_mem hc)
    refine ⟨fun n hn => ?_, fun c hc => ?_⟩
    · obtain ⟨c, hc, rfl⟩ := List.mem_map.mp hn
      rw [Function.comp_apply, hkept c (List.mem_append_left _ hc), hold _ hn]
    · rcases List.mem_append.mp hc with hc | hc
      · rw [Function.comp_apply, hkept c (List.mem_append_right _ hc), hnew c hc]
      · rw [Function.comp_apply, hnew' c hc]
        exact h.start_eq hdb hrel hold c
  fresh t rel'' hnone hrel'' := by
    cases hget : db'.tables.get? t with
    | none => exact h'.fresh t rel'' hget hrel''
    | some rel' =>
      obtain ⟨new, f, hget', -⟩ := h'.kept t rel' hget
      rw [hrel'', Option.some.injEq] at hget'
      rw [hget', Relation.grow, h.fresh t rel' hnone hget, List.map_nil]

/-- New columns with rows that hold what they start with. -/
theorem content_grow (new : List Column) (f : Row → Row) {D : Database} (h : D.Content db)
    (hrefers : D.refersTo ["users", "tailnets", "nodes"] "id" = true)
    (hdeclared : D.tables.get? t = some declared)
    (hnew : ∀ c ∈ new, c.name ∉ declared.names ∧ c.name ≠ "id")
    (hkeys : ∀ k ∈ declared.keys, ∀ x ∈ k, x.1 ∈ declared.names)
    (hkept : ∀ r n, n ∉ new.map (·.name) → f r n = r n)
    (hstart : ∀ r, ∀ c ∈ new, f r c.name = start db t c r)
    (hadmits : ∀ r, ∀ c ∈ new, c.admits (start db t c r) = true)
    (hparent : ∀ c ∈ new, ∀ p, c.parent = some p → p.column = "id" ∧ ∀ r, start db t c r ≠ .null →
      db.any p.table (fun q => q "id" = start db t c r) = true) :
    (D.alter t (·.grow new id)).Content (db.alter t (·.grow new f)) ∧
      Extends db (db.alter t (·.grow new f)) := by
  obtain ⟨rel, hrel, hlike⟩ := h.get?_eq_some hdeclared
  constructor
  · refine h.grow new f hrefers hrel hlike (fun hmem => ?_) (fun c hc => (hnew c hc).1) hkeys hkept
      (fun r _ c hc => ?_) (fun c hc p hp => ⟨(hparent c hc p hp).1, fun r _ => ?_⟩)
    · obtain ⟨c, hc, hid⟩ := List.mem_map.mp hmem
      exact (hnew c hc).2 hid
    · rw [hstart r c hc]
      exact hadmits r c hc
    · rw [hstart r c hc]
      exact (hparent c hc p hp).2 r
  · exact extends_grow hrel (fun c hc hmem => (hnew c hc).1 (hlike.mem_names.mp hmem)) hkept
      fun r _ => hstart r

theorem content_fill (new : List Column) {D : Database} (h : D.Content db)
    (hrefers : D.refersTo ["users", "tailnets", "nodes"] "id" = true)
    (hdeclared : D.tables.get? t = some declared)
    (hnew : ∀ c ∈ new, c.name ∉ declared.names ∧ c.name ≠ "id")
    (hkeys : ∀ k ∈ declared.keys, ∀ x ∈ k, x.1 ∈ declared.names)
    (hnodup : (new.map (·.name)).Nodup) (hadmits : ∀ c ∈ new, c.admits c.default = true)
    (hroot : ∀ c ∈ new, c.parent.isNone = true)
    (hstart : ∀ c ∈ new, ∀ r, start db t c r = c.default) :
    (D.alter t (·.grow new id)).Content (db.alter t (·.grow new (fill new))) ∧
      Extends db (db.alter t (·.grow new (fill new))) := by
  refine content_grow new (fill new) h hrefers hdeclared hnew hkeys
    (fun r n hn => fill_of_not_mem hn r) (fun r c hc => ?_) (fun r c hc => ?_) fun c hc p hp => ?_
  · rw [hstart c hc, fill_of_mem hnodup hc]
  · rw [hstart c hc]
    exact hadmits c hc
  · have hnone := hroot c hc
    rw [hp] at hnone
    cases hnone

theorem content_put (t : String) (declared : Relation) (version : Int) {D : Database}
    (h : D.Content db') (hextends : Extends db db') (hnone : D.tables.get? t = none)
    (hrows : declared.rows = []) :
    (D.put t declared).Content { db'.put t declared with userVersion := version } ∧
      Extends db { db'.put t declared with userVersion := version } := by
  have hput := h.put hnone hrows
  have hextends' := hextends.put (h.get?_eq_none hnone) hrows
  exact ⟨⟨hput.like, hput.sound, hput.consistent⟩, ⟨hextends'.kept, hextends'.fresh⟩⟩

end Extends

def Upgrades (v : ℕ) (statements : List Statement) : Prop :=
  ∀ given db, (schema given v).Content db → db.foreignKeys = false →
    ∃ db', run statements db = some db' ∧ db'.foreignKeys = false ∧
      (schema given (v + 1)).Content db' ∧ Extends db db'

theorem upgrades_addRevisions : Upgrades 1 addRevisions := by
  intro given db h hoff
  have hdeclared : (schema given 1).tables.get? "credentials" = some credentials := by
    simp [schema, nextSchema, firstSchema, Database.get?_put]
  obtain ⟨rel, hrel, hlike⟩ := h.get?_eq_some hdeclared
  obtain ⟨hcontent, hextends⟩ := content_fill revisionColumns h (refersTo_schema given 1) hdeclared
    (by decide) (by decide) (by decide) (by decide) (by decide) fun c hc r => by simp [start]
  refine ⟨withRevisions db, run_addRevisions hoff hrel ?_ ?_, hoff, hcontent, hextends⟩
  · rw [hlike.mem_names]
    decide
  · rw [hlike.mem_names]
    decide

theorem giveOwner_of_not_mem (db : Database) (r : Row) {n : String}
    (h : n ∉ ownerColumns.map (·.name)) : giveOwner db r n = r n := by
  have hne : n ≠ "owner_id" := fun he => h (by rw [he]; decide)
  rw [giveOwner, Function.update_of_ne hne, fill_of_not_mem h]

theorem ownerOf_found {D : Database} (h : D.Content db)
    (hnodes : D.tables.get? "nodes" = some nodes) {r : Row} (hnull : ownerOf db r ≠ .null) :
    db.any "users" (fun q => q "id" = ownerOf db r) = true := by
  obtain ⟨rel, hrel, hlike⟩ := h.get?_eq_some hnodes
  simp only [ownerOf, scalar, hrel, Option.bind_some] at hnull ⊢
  cases hfind : rel.rows.find? fun n => n "id" ≠ .null && n "id" = r "node_id" with
  | none =>
    rw [hfind] at hnull
    exact absurd rfl hnull
  | some n =>
    simp only [hfind, Option.map_some, Option.getD_some] at hnull ⊢
    have howner : { name := "owner_id", notNull := true, parent := references "users" false } ∈
        rel.columns := hlike.1.mem_iff.mp (by simp [nodes])
    exact Database.consistent_iff.mp h.consistent "nodes" rel hrel _ howner _ rfl n
      (List.mem_of_find?_eq_some hfind) hnull

theorem mem_ownerColumns {c : Column} : c ∈ ownerColumns ↔ c = responseColumn ∨ c = ownerColumn := by
  simp [ownerColumns]

theorem upgrades_addOwners : Upgrades 2 addOwners := by
  intro given db h hoff
  have hdeclared : (schema given 2).tables.get? "enrollments" = some enrollments := by
    simp [schema, nextSchema, firstSchema, get?_alter, Database.get?_put]
  have hnodes : (schema given 2).tables.get? "nodes" = some nodes := by
    simp [schema, nextSchema, firstSchema, get?_alter, Database.get?_put]
  have hnone : (schema given 2).tables.get? "node_challenges" = none := by
    simp [schema, nextSchema, firstSchema, get?_alter, Database.get?_put]
  obtain ⟨rel, hrel, hlike⟩ := h.get?_eq_some hdeclared
  -- The new owner is the owner of the node, whose row the reference of the enrollment names.
  obtain ⟨hcontent, hextends⟩ := content_grow ownerColumns (giveOwner db) h (refersTo_schema given 2)
    hdeclared (by decide) (by decide) (fun r n hn => giveOwner_of_not_mem db r hn)
    (fun r c hc => by rcases mem_ownerColumns.mp hc with rfl | rfl <;> rfl)
    (fun r c hc => by
      rcases mem_ownerColumns.mp hc with rfl | rfl <;>
        simp [Column.admits, responseColumn, ownerColumn])
    (fun c hc p hp => by
      rcases mem_ownerColumns.mp hc with rfl | rfl
      · cases hp
      · rw [← Option.some.inj hp]
        exact ⟨rfl, fun r hnull => ownerOf_found h hnodes hnull⟩)
  refine ⟨withOwners db, run_addOwners hoff hrel ?_ ?_ ?_ (h.get?_eq_none hnone), hoff,
    content_put "node_challenges" nodeChallenges 3 hcontent hextends ?_ rfl⟩
  · rw [hlike.mem_names]
    decide
  · rw [hlike.mem_names]
    decide
  · refine hcontent.sound "enrollments" _ ?_
    rw [get?_alter, if_pos rfl, hrel, Option.map_some]
  · rw [get?_alter, if_neg (by decide)]
    exact hnone

theorem upgrades_addControl : Upgrades 3 addControl := by
  intro given db h hoff
  have hgrants : (schema given 3).tables.get? "grants" = some grants := by
    simp [schema, nextSchema, firstSchema, get?_alter, Database.get?_put]
  have hpolicies : (schema given 3).tables.get? "node_policies" = some nodePolicies := by
    simp [schema, nextSchema, firstSchema, get?_alter, Database.get?_put]
  have hpolicies' : ((schema given 3).alter "grants" (·.grow [lastControlColumn] id)).tables.get?
      "node_policies" = some nodePolicies := by
    rw [get?_alter, if_neg (by decide)]
    exact hpolicies
  obtain ⟨rel, hrel, hlike⟩ := h.get?_eq_some hgrants
  obtain ⟨policies, hrel', hlike'⟩ := h.get?_eq_some hpolicies
  obtain ⟨hmid, hextends⟩ := content_fill [lastControlColumn] h (refersTo_schema given 3) hgrants
    (by decide) (by decide) (by decide) (by decide) (by decide) fun c hc r => by simp [start]
  obtain ⟨hcontent, hextends'⟩ := content_fill [derperUsableColumn] hmid
    (Database.refersTo_grow (refersTo_schema given 3) (by decide)) hpolicies' (by decide)
    (by decide) (by decide) (by decide) (by decide) fun c hc r => by simp [start]
  refine ⟨withControl db, run_addControl hoff hrel ?_ hrel' ?_, hoff, hcontent,
    hextends.trans hextends' (readable_of_content (by decide) h)⟩
  · rw [hlike.mem_names]
    decide
  · rw [hlike'.mem_names]
    decide

theorem giveVerified_of_not_mem (db : Database) (r : Row) {n : String}
    (h : n ∉ verifiedColumns.map (·.name)) : giveVerified db r n = r n := by
  have hne : n ≠ "domain_verified_at" := fun he => h (by rw [he]; decide)
  rw [giveVerified, Function.update_of_ne hne, fill_of_not_mem h]

theorem mem_verifiedColumns {c : Column} :
    c ∈ verifiedColumns ↔ c = enabledColumn ∨ c = verifiedColumn := by
  simp [verifiedColumns]

theorem verifiedAt_ne_null (db : Database) (r : Row) : verifiedAt db r ≠ .null := by
  unfold verifiedAt latestEnrollment
  dsimp only
  split_ifs with hkey hlatest
  · simp
  · exact hlatest
  · simp

theorem upgrades_addVerification : Upgrades 4 addVerification := by
  intro given db h hoff
  have hdeclared : (schema given 4).tables.get? "nodes" = some nodes := by
    simp [schema, nextSchema, firstSchema, get?_alter, Database.get?_put]
  have hnone : (schema given 4).tables.get? "node_observations" = none := by
    simp [schema, nextSchema, firstSchema, get?_alter, Database.get?_put]
  obtain ⟨rel, hrel, hlike⟩ := h.get?_eq_some hdeclared
  obtain ⟨hcontent, hextends⟩ := content_grow verifiedColumns (giveVerified db) h
    (refersTo_schema given 4) hdeclared (by decide) (by decide)
    (fun r n hn => giveVerified_of_not_mem db r hn)
    (fun r c hc => by rcases mem_verifiedColumns.mp hc with rfl | rfl <;> rfl)
    (fun r c hc => by
      rcases mem_verifiedColumns.mp hc with rfl | rfl
      · rfl
      · exact if_neg (verifiedAt_ne_null db r))
    (fun c hc p hp => by rcases mem_verifiedColumns.mp hc with rfl | rfl <;> cases hp)
  refine ⟨withVerification db, run_addVerification hoff hrel ?_ ?_ ?_ (h.get?_eq_none hnone), hoff,
    content_put "node_observations" nodeObservations 5 hcontent hextends ?_ rfl⟩
  · rw [hlike.mem_names]
    decide
  · rw [hlike.mem_names]
    decide
  · refine hcontent.sound "nodes" _ ?_
    rw [get?_alter, if_pos rfl, hrel, Option.map_some]
  · rw [get?_alter, if_neg (by decide)]
    exact hnone

theorem upgrades_addPorts : Upgrades 5 addPorts := by
  intro given db h hoff
  have hdeclared : (schema given 5).tables.get? "nodes" = some (nodes.grow verifiedColumns id) := by
    simp [schema, nextSchema, firstSchema, get?_alter, Database.get?_put]
  obtain ⟨rel, hrel, hlike⟩ := h.get?_eq_some hdeclared
  have hnew : ∀ c ∈ portColumns, c.name ≠ "domain_verified_at" := by decide
  obtain ⟨hcontent, hextends⟩ := content_fill portColumns h (refersTo_schema given 5) hdeclared
    (by decide) (by decide) (by decide) (by decide) (by decide) fun c hc r => by
      simp [start, hnew c hc]
  refine ⟨withPorts db, run_addPorts hoff hrel ?_ ?_, hoff, ⟨hcontent.like, hcontent.sound,
    hcontent.consistent⟩, ⟨hextends.kept, hextends.fresh⟩⟩
  · rw [hlike.mem_names]
    decide
  · rw [hlike.mem_names]
    decide

section Accounts

variable {given : List String} {db : Database} {rel : Relation}

def promote (db : Database) (rel : Relation) : Relation :=
  { users roles with rows := rel.rows.map (selectUser db) }

def withProviders (db : Database) : Database := db.alter "users" (promote db)

theorem selectUser_of_ne {r : Row} {n : String} (hn : n ∈ (users given).names) (hne : n ≠ "role") :
    selectUser db r n = r n := by
  rw [selectUser, if_neg hne, if_pos]
  simp only [Relation.names, users, List.map_cons, List.map_nil, List.mem_cons] at hn ⊢
  tauto

theorem roleColumn_admits {x : Value} :
    (roleColumn given).admits x = true ↔ x ≠ .null ∧ x ∈ given.map Value.text := by
  simp [Column.admits, roleColumn]

theorem newRole_admitted (hgiven : given ⊆ roles) {r : Row}
    (h : (roleColumn given).admits (r "role") = true) :
    (roleColumn roles).admits (newRole db r) = true := by
  rw [roleColumn_admits] at h ⊢
  unfold newRole
  split_ifs
  · decide
  · exact ⟨h.1, List.map_subset _ hgiven h.2⟩

theorem mem_users_columns {c : Column} (h : c ∈ (users roles).columns) :
    c = roleColumn roles ∨ c ∈ (users given).columns ∧ c.name ≠ "role" := by
  simp only [users, List.mem_cons, List.not_mem_nil, or_false] at h ⊢
  rcases h with rfl | rfl | rfl | rfl | rfl | rfl <;> simp

theorem sound_promote (hgiven : given ⊆ roles) (hlike : (users given).Like rel)
    (hsound : rel.sound = true) : (promote db rel).sound = true := by
  obtain ⟨hrows, hkeys⟩ := Relation.sound_iff.mp hsound
  refine Relation.sound_iff.mpr ⟨fun r' hr' c hc => ?_, fun key hkey => ?_⟩
  · obtain ⟨r, hr, rfl⟩ := List.mem_map.mp hr'
    have hold : ∀ c ∈ (users given).columns, c.admits (r c.name) = true := fun c hc =>
      hrows r hr c (hlike.1.mem_iff.mp hc)
    rcases mem_users_columns hc with rfl | ⟨hc, hne⟩
    · exact newRole_admitted hgiven (hold (roleColumn given) (by simp [users]))
    · rw [selectUser_of_ne (List.mem_map_of_mem hc) hne]
      exact hold c hc
  · have hkey' : key ∈ (users given).keys := hkey
    have hnames : ∀ x ∈ key, x.1 ∈ (users given).names ∧ x.1 ≠ "role" := by
      simp only [users, List.mem_cons, List.not_mem_nil, or_false] at hkey'
      rcases hkey' with rfl | rfl <;> simp [users, Relation.names]
    have hpair : (rel.rows.map (selectUser db)).Pairwise fun a b => key.agree a b = false := by
      rw [List.pairwise_map]
      refine (hkeys key (hlike.2.mem_iff.mp hkey)).imp fun {a b} hab => ?_
      rw [Relation.agree_congr (fun x hx => selectUser_of_ne (hnames x hx).1 (hnames x hx).2)
        fun x hx => selectUser_of_ne (hnames x hx).1 (hnames x hx).2]
      exact hab
    exact hpair

theorem selectUser_congr {db' : Database} (h : db'.tables.get? "nodes" = db.tables.get? "nodes") :
    selectUser db' = selectUser db := by
  have hrole : newRole db' = newRole db := by
    funext r
    rw [newRole, newRole, Database.any, Database.any, h]
  funext r n
  rw [selectUser, selectUser, hrole]

theorem run_promoteOwners (hgiven : given ⊆ roles) (h : (schema given 6).Content db)
    (hoff : db.foreignKeys = false) : run promoteOwners db = some (withProviders db) := by
  obtain ⟨rel, hrel, hlike⟩ := h.get?_eq_some (get?_schema_users given 6)
  have hnone : db.tables.get? "users_new" = none := h.get?_eq_none (by
    simp [schema, nextSchema, firstSchema, get?_alter, Database.get?_put])
  have hselect : selectUser (db.put "users_new" (users roles)) = selectUser db :=
    selectUser_congr (by rw [Database.get?_put, if_neg (by decide)])
  have hinsert : exec (db.put "users_new" (users roles))
      (.insertSelect "users_new" "users" selectUser) =
        some ((db.put "users_new" (users roles)).put "users_new" (promote db rel)) := by
    refine (exec_insertSelect (by exact hoff)).mpr ⟨users roles, rel, ?_, ?_, ?_, ?_⟩
    · rw [Database.get?_put, if_pos rfl]
    · rw [Database.get?_put, if_neg (by decide)]
      exact hrel
    · rw [hselect]
      exact sound_promote hgiven hlike (h.sound "users" rel hrel)
    · rw [hselect]
      rfl
  refine run_cons.mpr ⟨_, exec_createTable.mpr ⟨hnone, rfl⟩, run_cons.mpr ⟨_, hinsert,
    run_cons.mpr ⟨_, (exec_dropTable (by exact hoff)).mpr ⟨?_, rfl⟩, run_cons.mpr ⟨_,
    exec_renameTable.mpr ⟨promote db rel, ?_, ?_, rfl⟩, run_nil.mpr ?_⟩⟩⟩⟩
  · rw [Database.get?_put, if_neg (by decide), Database.get?_put, if_neg (by decide), hrel]
    rfl
  · rw [Table.get?_erase_ne _ (by decide), Database.get?_put, if_pos rfl]
  · exact Table.get?_erase_self _ _
  · rw [withProviders, Database.alter, Database.mk.injEq]
    refine ⟨?_, rfl, rfl⟩
    ext t rel'
    -- The rename also turns the references to `users_new`, of which there are none.
    have hretarget : ∀ rel, db.tables.get? t = some rel →
        rel.retarget "users_new" "users" = rel := by
      intro rel hrel
      refine Relation.retarget_eq_self fun c hc p hp => ?_
      have htable := (Database.refersTo_iff.mp (h.refersTo (refersTo_schema given 6)) t rel hrel c hc
        p hp).1
      rintro he
      rw [he] at htable
      revert htable
      decide
    rw [Table.get?_update]
    by_cases husers : t = "users"
    · rw [husers, Table.get?_insert_self, Table.get?_modify_self, hrel]
      rfl
    rw [Table.get?_insert_ne _ _ husers, Table.get?_modify_ne _ _ husers]
    by_cases hnew : t = "users_new"
    · rw [hnew, Table.get?_erase_self, hnone]
      rfl
    rw [Table.get?_erase_ne _ hnew, Table.get?_erase_ne _ husers, Database.get?_put, if_neg hnew,
      Database.get?_put, if_neg hnew]
    cases hget : db.tables.get? t with
    | none => rfl
    | some rel => rw [Option.map_some, if_pos rfl, hretarget rel hget]

theorem content_withProviders (hgiven : given ⊆ roles) (h : (schema given 6).Content db) :
    (schema roles 6).Content (withProviders db) := by
  obtain ⟨rel, hrel, hlike⟩ := h.get?_eq_some (get?_schema_users given 6)
  refine ⟨fun t => ?_, fun t rel' hrel' => ?_, ?_⟩
  · rw [withProviders, get?_alter]
    by_cases ht : t = "users"
    · rw [if_pos ht, ht, hrel, get?_schema_users, Option.map_some]
      exact .some ⟨.refl _, .refl _⟩
    · rw [if_neg ht, get?_schema_of_ne roles ht given]
      exact h.like t
  · rw [withProviders, get?_alter] at hrel'
    split_ifs at hrel' with ht
    · rw [ht, hrel, Option.map_some, Option.some.injEq] at hrel'
      rw [← hrel']
      exact sound_promote hgiven hlike (h.sound "users" rel hrel)
    · exact h.sound t rel' hrel'
  · refine Database.consistent_alter h.consistent (h.refersTo (refersTo_schema given 6)) hrel
      (f := selectUser db) rfl (fun r _ => rfl) fun c hc p hp => ?_
    have hroot : ∀ c ∈ (users roles).columns, c.parent.isNone = true := by decide
    have hnone := hroot c hc
    rw [hp] at hnone
    cases hnone

end Accounts

/-- What the migration makes of a database: every row stays with the columns that it had, members
who own a node become providers, and new columns hold what they start with. -/
structure Migrated (db db' : Database) : Prop where
  version : db'.userVersion = 7
  content : (schema roles 6).Content db'
  kept : ∀ t rel, db.tables.get? t = some rel → ∃ rel' f, db'.tables.get? t = some rel' ∧
    rel'.rows = rel.rows.map f ∧ rel.names ⊆ rel'.names ∧ ∀ r ∈ rel.rows,
      (∀ n ∈ rel.names, f r n = if t = "users" ∧ n = "role" then newRole db r else r n) ∧
        ∀ c ∈ rel'.columns, c.name ∉ rel.names → f r c.name = start db t c r
  fresh : ∀ t rel', db.tables.get? t = none → db'.tables.get? t = some rel' → rel'.rows = []

section Migrated

variable {given : List String} {db db' : Database}

theorem Extends.newRole_eq (h : Extends db db') (hdb : Readable db) {r r' : Row}
    (hrole : r' "role" = r "role") (hid : r' "id" = r "id") : newRole db' r' = newRole db r := by
  obtain ⟨rel, hrel, hnames⟩ := hdb.nodes
  obtain ⟨new, f, hget, hf⟩ := h.kept "nodes" rel hrel
  have hany : db'.any "nodes" (fun n => n "owner_id" ≠ .null && n "owner_id" = r' "id") =
      db.any "nodes" fun n => n "owner_id" ≠ .null && n "owner_id" = r "id" := by
    rw [Database.any, Database.any, hget, hrel, Option.any_some, Option.any_some, Relation.grow,
      List.any_map, Bool.eq_iff_iff, List.any_eq_true, List.any_eq_true]
    refine exists_congr fun n => and_congr_right fun hn => ?_
    rw [Function.comp_apply, (hf n hn).1 _ (hnames "owner_id" (by decide)), hid]
  rw [newRole, newRole, hany, hrole]

theorem Extends.migrated (h : Extends db db') (hdb : Readable db) (hgiven : given ⊆ roles)
    (husers : ∃ rel, db.tables.get? "users" = some rel ∧ (users given).Like rel)
    (hcontent : (schema given 6).Content db') :
    Migrated db { withProviders db' with userVersion := 7 } where
  version := rfl
  content := by
    have hnext := content_withProviders hgiven hcontent
    exact ⟨hnext.like, hnext.sound, hnext.consistent⟩
  kept t rel hrel := by
    obtain ⟨new, f, hget, hf⟩ := h.kept t rel hrel
    have hnext : (withProviders db').tables.get? t =
        if t = "users" then some (promote db' (rel.grow new f)) else some (rel.grow new f) := by
      rw [withProviders, get?_alter, hget, Option.map_some]
    by_cases ht : t = "users"
    · obtain ⟨rel', hrel', hlike⟩ := husers
      rw [← ht, hrel, Option.some.injEq] at hrel'
      subst hrel'
      rw [if_pos ht] at hnext
      refine ⟨_, selectUser db' ∘ f, hnext, List.map_map, fun n hn => hlike.mem_names.mp hn,
        fun r hr => ⟨fun n hn => ?_, fun c hc hnew => ?_⟩⟩
      · obtain ⟨hold, -⟩ := hf r hr
        -- Only the role of a user is rewritten.
        by_cases hrole : n = "role"
        · have hrow : newRole db' (f r) = newRole db r :=
            h.newRole_eq hdb (hold _ (hrole ▸ hn))
              (hold _ (hlike.mem_names.mpr (by simp [users, Relation.names])))
          rw [if_pos ⟨ht, hrole⟩, hrole]
          exact hrow
        · rw [if_neg fun hn => hrole hn.2, Function.comp_apply,
            selectUser_of_ne (hlike.mem_names.mp hn) hrole, hold n hn]
      · have hname : c.name ∈ (users roles).names := List.mem_map_of_mem hc
        exact absurd (hlike.mem_names.mpr hname) hnew
    · rw [if_neg ht] at hnext
      refine ⟨_, f, hnext, rfl, ?_, fun r hr => ⟨fun n hn => ?_, fun c hc hnew => ?_⟩⟩
      · intro n hn
        rw [Relation.names, Relation.grow, List.map_append]
        exact List.mem_append_left _ hn
      · rw [if_neg fun hn => ht hn.1]
        exact (hf r hr).1 n hn
      · rcases List.mem_append.mp hc with hc | hc
        · exact absurd (List.mem_map_of_mem hc) hnew
        · exact (hf r hr).2 c hc
  fresh t rel' hnone hrel' := by
    obtain ⟨rel, hrel, -⟩ := husers
    have ht : t ≠ "users" := by
      intro ht
      rw [ht, hrel] at hnone
      cases hnone
    have hget : (withProviders db').tables.get? t = db'.tables.get? t := by
      rw [withProviders, get?_alter, if_neg ht]
    exact h.fresh t rel' hnone (hget.symm.trans hrel')

end Migrated

section Gives

variable {fault : Call → Bool} {α β : Type}

def Gives (fault : Call → Bool) (x : Except Failure α) (a : α) : Prop :=
  x = .ok a ∨ ∃ c, fault c = true ∧ x = .error (.driver c)

theorem Gives.bind {x : Except Failure α} {f : α → Except Failure β} {a : α} {b : β}
    (h : Gives fault x a) (h' : Gives fault (f a) b) : Gives fault (x >>= f) b := by
  rcases h with rfl | ⟨c, hc, rfl⟩
  · exact h'
  · exact .inr ⟨c, hc, rfl⟩

theorem gives_call (c : Call) : Gives fault (call fault c) () := by
  unfold call require
  split_ifs with hc
  · exact .inl rfl
  · exact .inr ⟨c, by simpa using hc, rfl⟩

theorem gives_script (c : Call) {statements : List Statement} {db db' : Database}
    (h : run statements db = some db') : Gives fault (script fault c statements db) db' := by
  refine (gives_call c).bind ?_
  rw [h]
  exact .inl rfl

variable {given : List String} {v k : ℕ} {first db : Database}

/-- On the way from a database of version `v`, with the scripts up to that of version `k` done. -/
structure Halfway (given : List String) (v k : ℕ) (first db : Database) : Prop where
  off : db.foreignKeys = false
  content : (schema given (max v k)).Content db
  grown : Extends first db

theorem Halfway.next (h : Halfway given v k first db) (hfirst : Readable first)
    {statements : List Statement} (hup : Upgrades k statements) (c : Call) {b : Prop} [Decidable b]
    (hb : b ↔ v ≤ k) :
    ∃ db', Gives fault (scriptIf fault b c statements db) db' ∧
      Halfway given v (k + 1) first db' := by
  have hcontent := h.content
  by_cases hv : v ≤ k
  · rw [max_eq_right hv] at hcontent
    obtain ⟨db', hrun, hoff, hnext, hgrown⟩ := hup given db hcontent h.off
    refine ⟨db', ?_, hoff, ?_, h.grown.trans hgrown hfirst⟩
    · rw [scriptIf, if_pos (hb.mpr hv)]
      exact gives_script c hrun
    · rw [max_eq_right (by omega)]
      exact hnext
  · refine ⟨db, ?_, h.off, ?_, h.grown⟩
    · rw [scriptIf, if_neg (mt hb.mp hv)]
      exact .inl rfl
    · rw [max_eq_left (by omega)] at hcontent ⊢
      exact hcontent

/-- The transaction's body migrates every content of the versions 1 to 6. -/
theorem gives_steps (hgiven : given ⊆ roles) (hv : 1 ≤ v) (hv' : v ≤ 6)
    (hversion : db.userVersion = v) (h : (schema given v).Content db)
    (hoff : db.foreignKeys = false) :
    ∃ db', Gives fault (steps fault db) db' ∧ Migrated db db' := by
  have hdb := readable_of_content hv' h
  have hfirst : Halfway given v 1 db db := ⟨hoff, by rwa [max_eq_left hv], .refl db⟩
  obtain ⟨db₂, hgives₂, h₂⟩ := hfirst.next (b := db.userVersion = 1) hdb upgrades_addRevisions
    .addRevisions (by omega)
  obtain ⟨db₃, hgives₃, h₃⟩ := h₂.next (b := db.userVersion < 3) hdb upgrades_addOwners .addOwners
    (by omega)
  obtain ⟨db₄, hgives₄, h₄⟩ := h₃.next (b := db.userVersion < 4) hdb upgrades_addControl .addControl
    (by omega)
  obtain ⟨db₅, hgives₅, h₅⟩ := h₄.next (b := db.userVersion < 5) hdb upgrades_addVerification
    .addVerification (by omega)
  obtain ⟨db₆, hgives₆, h₆⟩ := h₅.next (b := db.userVersion < 6) hdb upgrades_addPorts .addPorts
    (by omega)
  have hcontent := h₆.content
  rw [max_eq_right hv'] at hcontent
  have hmigrated := h₆.grown.migrated hdb hgiven
    (h.get?_eq_some (get?_schema_users given v)) hcontent
  refine ⟨_, ?_, hmigrated⟩
  -- The first script is skipped, since the database is not new.
  have hcreate : Gives fault (scriptIf fault (db.userVersion = 0) .createTables createTables db₂)
      db₂ := by
    rw [scriptIf, if_neg (by omega)]
    exact .inl rfl
  have hpromote : Gives fault (scriptIf fault (0 < db.userVersion) .promoteOwners promoteOwners db₆)
      (withProviders db₆) := by
    rw [scriptIf, if_pos (by omega)]
    exact gives_script _ (run_promoteOwners hgiven hcontent h₆.off)
  have hcheck : Gives fault (require (withProviders db₆).consistent Failure.ownership) () :=
    .inl (require_eq_ok.mpr (content_withProviders hgiven hcontent).consistent)
  unfold steps
  refine hgives₂.bind (hcreate.bind (hgives₃.bind (hgives₄.bind ?_)))
  refine hgives₅.bind (hgives₆.bind (hpromote.bind ?_))
  exact (gives_call _).bind (hcheck.bind (gives_script _ rfl))

end Gives

/-- A content of the version's schema, for the roles that were then known. -/
structure Valid (v : ℕ) (db : Database) : Prop where
  version : db.userVersion = v
  content : ∃ given ⊆ roles, (schema given v).Content db

theorem transaction_cases (fault : Call → Bool) {v : ℕ} (hv : 1 ≤ v) (hv' : v ≤ 6) {db : Database}
    (h : Valid v db) (hoff : db.foreignKeys = false) :
    (∃ db', transaction fault db = (db', .ok ()) ∧ Migrated db db') ∨
      ∃ c, fault c = true ∧ transaction fault db = (db, .error (.driver c)) := by
  obtain ⟨given, hgiven, hcontent⟩ := h.content
  obtain ⟨db', hsteps, hmigrated⟩ := gives_steps hgiven hv hv' h.version hcontent hoff
  have hbody : Gives fault
      (do call fault .begin; let db' ← steps fault db; call fault .commit; pure db') db' :=
    (gives_call _).bind (hsteps.bind ((gives_call _).bind (.inl rfl)))
  unfold transaction
  rcases hbody with hbody | ⟨c, hc, hbody⟩
  · exact .inl ⟨db', by rw [hbody], hmigrated⟩
  · exact .inr ⟨c, hc, by rw [hbody]⟩

/-- Migration keeps the meaning of every database of the versions 1 to 6, or fails and changes
nothing; it reports a failure of its own if only foreign keys cannot be enforced again. -/
theorem migrate_preserves (fault : Call → Bool) {v : ℕ} (hv : 1 ≤ v) (hv' : v ≤ 6) {db : Database}
    (h : Valid v db) : ∃ db' result, migrate fault db = (db', result) ∧
      (result = .ok () ∧ Migrated db db' ∨ ∃ c, fault c = true ∧ result = .error (.driver c) ∧
        (db'.tables = db.tables ∧ db'.userVersion = db.userVersion ∨
          c = .foreignKeysOn ∧ Migrated db db')) := by
  have hversion := h.version
  obtain ⟨given, hgiven, hcontent⟩ := h.content
  have hvalid : Valid v { db with foreignKeys := false } :=
    ⟨hversion, given, hgiven, hcontent.like, hcontent.sound, hcontent.consistent⟩
  unfold migrate
  split_ifs with hread hseven hbad hoff hon
  · exact ⟨_, _, rfl, .inr ⟨_, hread, rfl, .inl ⟨rfl, rfl⟩⟩⟩
  · omega
  · omega
  · exact ⟨_, _, rfl, .inr ⟨_, hoff, rfl, .inl ⟨rfl, rfl⟩⟩⟩
  · rcases transaction_cases fault hv hv' hvalid rfl with ⟨db', htx, hm⟩ | ⟨c, hc, htx⟩
    · rw [htx]
      exact ⟨_, _, rfl, .inr ⟨_, hon, rfl, .inr ⟨rfl, hm.version, hm.content, hm.kept, hm.fresh⟩⟩⟩
    · rw [htx]
      exact ⟨_, _, rfl, .inr ⟨c, hc, rfl, .inl ⟨rfl, rfl⟩⟩⟩
  · rcases transaction_cases fault hv hv' hvalid rfl with ⟨db', htx, hm⟩ | ⟨c, hc, htx⟩
    · rw [htx]
      exact ⟨_, _, rfl, .inl ⟨rfl, hm.version, ⟨hm.content.like, hm.content.sound,
        hm.content.consistent⟩, hm.kept, hm.fresh⟩⟩
    · rw [htx]
      exact ⟨_, _, rfl, .inr ⟨c, hc, rfl, .inl ⟨rfl, rfl⟩⟩⟩

namespace Sample

def row (values : List (String × Value)) : Row := fun n => (values.lookup n).getD .null

def node (id : String) (region : Int) (key : Value) : Row := row [("id", .text id),
  ("owner_id", .text "u"), ("domain", .text id), ("display_name", .text id),
  ("region_id", .integer region), ("public_key", key), ("state", .text "online"),
  ("instance_id", .text ""), ("lease_until", .integer 0), ("last_heartbeat", .integer 0),
  ("last_error", .text "")]

def enrolled (id : Int) (node : String) (time : Int) : Row := row [("id", .integer id),
  ("actor_id", .text node), ("owner_id", .text "u"), ("resource_type", .text "node"),
  ("resource_id", .text node), ("action", .text "node.enroll"), ("created_at", .integer time)]

/-- An account with two enrolled nodes, one of which has no key any more. -/
def rows : String → List Row
  | "users" => [row [("id", .text "u"), ("username", .text "owner"), ("role", .text "member"),
      ("enabled", .integer 1), ("password_hash", .blob []), ("session_version", .integer 1)]]
  | "nodes" => [node "a" 900 (.blob [1]), node "b" 901 .null]
  | "audit" => [enrolled 1 "a" 5, enrolled 2 "b" 6, enrolled 3 "a" 7]
  | _ => []

def db : Database where
  tables := (schema legacyRoles 4).tables.filterMap fun t rel => some { rel with rows := rows t }
  userVersion := 4

theorem valid : Valid 4 db where
  version := rfl
  content := by
    refine ⟨legacyRoles, by decide, fun t => ?_, fun t rel hrel => ?_, by decide +kernel⟩
    · rw [db, Table.get?_filterMap]
      cases (schema legacyRoles 4).tables.get? t with
      | none => exact .none
      | some rel => exact .some ⟨.refl _, .refl _⟩
    · have hall : (db.tables.rows.all fun x => x.2.sound) = true := by decide +kernel
      exact List.all_eq_true.mp hall (t, rel) (Table.get?_eq_some_iff.mp hrel)

theorem migrates : ∃ db', migrate (fun _ => false) db = (db', .ok ()) ∧ Migrated db db' := by
  obtain ⟨db', result, hmigrate, ⟨rfl, hmigrated⟩ | ⟨c, hc, -⟩⟩ :=
    migrate_preserves (fun _ => false) (by decide) (by decide) valid
  · exact ⟨db', hmigrate, hmigrated⟩
  · cases hc

/-- A node without a key is not verified although its enrollment is on record, and the version is
new although the migration reports a failure. -/
theorem keyless_and_reported : Valid 4 db ∧
    (latestEnrollment db (node "b" 901 .null) = .integer 6 ∧
      ((migrate (fun _ => false) db).1.tables.get? "nodes").map
        (fun rel => rel.rows.map fun r => (r "id", r "domain_verified_at")) =
          some [(.text "a", .integer 7), (.text "b", .integer 0)]) ∧
    (migrate (· = .foreignKeysOn) db).2 = .error (.driver .foreignKeysOn) ∧
      (migrate (· = .foreignKeysOn) db).1.userVersion = 7 := by
  refine ⟨valid, ?_⟩
  decide +kernel

end Sample

end Migration

end UniDERP
