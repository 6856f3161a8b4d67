import UniDERP.Library.Address
import UniDERP.Library.Outcome
import UniDERP.Library.Text
import UniDERP.Policy

namespace UniDERP

structure ControllerConfig where
  enabled : Bool := false
  listen : String := ""
  database : String := ""
  keyFile : String := ""
  allowedNodeCIDRs : Option (List String) := none
  deriving DecidableEq, Repr

structure NodeConfig where
  derpPort : Int := 0
  stunPort : Int := 0
  controllerURL : String := ""
  stateDir : String := ""
  maxBudgetBPS : ℕ := 0
  deriving DecidableEq, Repr

structure ManagementConfig where
  listen : String := ""
  deriving DecidableEq, Repr

structure DERPConfig where
  listen : String := ""
  stunListen : String := ""
  tlsMode : String := ""
  certMode : String := ""
  certDir : String := ""
  deriving DecidableEq, Repr

structure AdminConfig where
  socket : String := ""
  deriving DecidableEq, Repr

structure HealthConfig where
  listen : String := ""
  deriving DecidableEq, Repr

structure ServerConfig where
  management : ManagementConfig := {}
  hostname : String := ""
  derp : DERPConfig := {}
  admin : AdminConfig := {}
  health : HealthConfig := {}
  deriving DecidableEq, Repr

structure StorageConfig where
  stateDir : String := ""
  deriving DecidableEq, Repr

structure LoggingConfig where
  level : String := ""
  deriving DecidableEq, Repr

structure Config where
  setupRequired : Bool := false
  controller : Option ControllerConfig := none
  node : NodeConfig := {}
  version : Int := 0
  server : ServerConfig := {}
  storage : StorageConfig := {}
  logging : LoggingConfig := {}
  deriving DecidableEq, Repr

/-- What `url.Parse` finds. -/
structure URL where
  scheme : String
  hostname : String
  user : Bool
  path : String
  rawQuery : String
  forceQuery : Bool
  fragment : String
  opaquePart : String
  deriving DecidableEq, Repr

/-- The functions of the standard library that the configuration needs. -/
structure HostLib where
  /-- `filepath.Join` of two elements. -/
  join : String → String → String
  join_blank : ∀ a b, b ∈ ["controller.sqlite", "controller.key", "node"] →
    trimSpace (join a b) ≠ ""
  parseIP : String → Option Addr
  parseIP_loopback : parseIP "127.0.0.1" = some (.quad 127 0 0 1)
  /-- White space is no address. -/
  parseIP_blank : ∀ s, trimSpace s = "" → parseIP s = none
  parsePrefix : String → Bool
  parseURL : String → Option URL
  /-- The value as `%q` prints it. -/
  quote : String → String
  /-- The text of the error of `net.SplitHostPort`. -/
  splitError : String → String
  /-- `filepath.Abs`, with the text of its error. -/
  abs : String → Except String String
  dir : String → String

def isDigits (s : List Char) : Bool := !s.isEmpty && s.all Char.isDigit

/-- `strconv.ParseUint` for base 10 and 16 bits; leading zeros are allowed. -/
def parseUint16 (s : String) : Option ℕ :=
  if isDigits s.toList then
    let n := s.toList.foldl (fun n c => 10 * n + (c.toNat - '0'.toNat)) 0
    if n < 65536 then some n else none
  else none

namespace HostLib

variable (lib : HostLib)

def orDefault (s default : String) : String := if s = "" then default else s

def normalizeController (stateDir : String) (c : ControllerConfig) : ControllerConfig :=
  if c.enabled then
    { c with
      listen := orDefault c.listen "127.0.0.1:3341"
      database := orDefault c.database (lib.join stateDir "controller.sqlite")
      keyFile := orDefault c.keyFile (lib.join stateDir "controller.key") }
  else c

def normalizeDERP (d : DERPConfig) : DERPConfig :=
  let tlsMode := orDefault d.tlsMode "external"
  { listen := orDefault d.listen ":3377"
    stunListen := orDefault d.stunListen ":3478"
    tlsMode := tlsMode
    certMode := if d.certMode = "" ∧ tlsMode = "external" then "none" else d.certMode
    certDir := d.certDir }

def normalizeNode (stateDir : String) (n : NodeConfig) : NodeConfig :=
  { n with
    stateDir := orDefault n.stateDir (lib.join stateDir "node")
    derpPort := if n.derpPort = 0 then 443 else n.derpPort
    stunPort := if n.stunPort = 0 then 3478 else n.stunPort }

def normalize (c : Config) : Config :=
  let stateDir := orDefault c.storage.stateDir "/data"
  { setupRequired := c.setupRequired
    version := if c.version = 0 then 2 else c.version
    server := { c.server with
      derp := normalizeDERP c.server.derp
      admin := ⟨orDefault c.server.admin.socket "/run/uniderp/admin.sock"⟩
      health := ⟨orDefault c.server.health.listen "127.0.0.1:9090"⟩ }
    storage := ⟨stateDir⟩
    controller := some (lib.normalizeController stateDir (c.controller.getD { enabled := true }))
    node := lib.normalizeNode stateDir c.node
    logging := ⟨orDefault c.logging.level "info"⟩ }

def default : Config := lib.normalize { version := 2 }

def hostnameLabel (label : List Char) : Bool :=
  !label.isEmpty && label.length ≤ 63 && label.all (fun c => c.isAlphanum || c = '-') &&
    label.head?.any Char.isAlphanum && label.getLast?.any Char.isAlphanum

def validateHostname (hostname : String) : Except String Unit := do
  require (hostname.utf8ByteSize ≠ 0 ∧ hostname.utf8ByteSize ≤ 253 ∧
    hostname.toList.all (· ∉ ['/', '\\', ' ', '\t', '\r', '\n'])) "must be a valid DNS hostname"
  if lib.parseIP hostname ≠ none then pure ()
  else match (hostname.toList.splitOn '.').find? (fun label => !hostnameLabel label) with
    | some label => .error ("invalid DNS label " ++ lib.quote (.ofList label))
    | none => pure ()

def validateListenAddress (address field : String) : Except String Unit := do
  require (trimSpace address ≠ "") (field ++ " must not be empty")
  let (host, port) ← orElse (splitHostPort address)
    (field ++ ": invalid listen address " ++ lib.quote address ++ ": " ++ lib.splitError address)
  require (port ≠ "") (field ++ ": port is empty")
  require (host = "" ∨ host = "0.0.0.0" ∨ host = "::" ∨ lib.parseIP host ≠ none)
    (field ++ ": host must be an IP address or empty, got " ++ lib.quote host)
  require ((parseUint16 port).getD 0 ≠ 0) (field ++ ": port must be a non-zero numeric value")

def hostOf (address : String) : String := ((splitHostPort address).map Prod.fst).getD ""

def portOf (address : String) : String := ((splitHostPort address).map Prod.snd).getD ""

def URL.isOrigin (u : URL) : Bool :=
  u.scheme = "https" && u.hostname ≠ "" && !u.user && u.path = "" && u.rawQuery = "" &&
    !u.forceQuery && u.fragment = "" && u.opaquePart = ""

def validateController (c : ControllerConfig) (controllerURL : String) : Except String Unit :=
  if c.enabled then do
    require (controllerURL = "") "controller cannot join another controller"
    require (trimSpace c.database ≠ "" ∧ trimSpace c.keyFile ≠ "")
      "controller database and key_file are required"
    lib.validateListenAddress c.listen "controller.listen"
    require ((lib.parseIP (hostOf c.listen)).any Addr.isLoopback)
      "controller.listen must be loopback"
    require (∀ cidr ∈ c.allowedNodeCIDRs.getD [], lib.parsePrefix cidr)
      "controller.allowed_node_cidrs contains an invalid range"
  else do
    require (c.listen = "" ∧ c.database = "" ∧ c.keyFile = "" ∧ c.allowedNodeCIDRs.getD [] = [])
      "member node cannot configure controller storage or settings"
    require (controllerURL = "" ∨ (lib.parseURL controllerURL).any URL.isOrigin)
      "node.controller_url must be an HTTPS origin"

def unsupportedGCP : String :=
  "server.derp.cert_mode: unsupported value \"gcp\"; " ++
    "supported values are none, letsencrypt, or manual"

def validateCertMode (certMode : String) : Except String Unit :=
  if certMode ∈ ["", "none", "manual", "letsencrypt"] then pure ()
  else if certMode = "gcp" then .error unsupportedGCP
  else .error ("server.derp.cert_mode: unsupported value " ++ lib.quote certMode ++
    "; expected none, letsencrypt, or manual")

def validateExternal (d : DERPConfig) : Except String Unit := do
  require ((parseUint16 (portOf d.listen)).getD 0 ≠ 443)
    "server.derp.listen: tls_mode external must use a non-443 internal port"
  require (d.certMode = "" ∨ d.certMode = "none")
    ("server.derp.cert_mode " ++ lib.quote d.certMode ++
      " requires tls_mode: passthrough; tls_mode: external uses cert_mode: none")
  require (d.certDir = "") "server.derp.cert_dir is only valid with tls_mode: passthrough"

def validatePassthrough (d : DERPConfig) : Except String Unit := do
  require (d.certMode = "manual" ∨ d.certMode = "letsencrypt")
    "server.derp.cert_mode must be manual or letsencrypt with tls_mode: passthrough"
  require (d.certDir ≠ "") "server.derp.cert_dir is required with tls_mode: passthrough"
  require (d.certMode = "manual" ∨ (parseUint16 (portOf d.listen)).getD 0 = 443)
    ("server.derp.listen: passthrough cert_mode " ++ lib.quote d.certMode ++
      " must use port 443; use cert_mode: manual for a non-443 TLS backend")

def validateDERP (d : DERPConfig) : Except String Unit := do
  lib.validateListenAddress d.listen "server.derp.listen"
  lib.validateListenAddress d.stunListen "server.derp.stun_listen"
  require (hostOf d.listen = "" ∨ hostOf d.stunListen = "" ∨ hostOf d.listen = hostOf d.stunListen)
    ("server.derp.stun_listen must use the same host as server.derp.listen when both are " ++
      "explicit")
  require (d.tlsMode = "external" ∨ d.tlsMode = "passthrough")
    ("server.derp.tls_mode: unsupported value " ++ lib.quote d.tlsMode)
  lib.validateCertMode d.certMode
  if d.tlsMode = "external" then lib.validateExternal d else lib.validatePassthrough d

def validateNode (n : NodeConfig) : Except String Unit :=
  require (1 ≤ n.derpPort ∧ n.derpPort ≤ 65535 ∧ 1 ≤ n.stunPort ∧ n.stunPort ≤ 65535)
    "node public ports must be between 1 and 65535"

def validateManagement (m : ManagementConfig) : Except String Unit :=
  if m.listen = "" then pure ()
  else lib.validateListenAddress m.listen "server.management.listen"

def validateName (hostname : String) : Except String Unit :=
  if hostname = "" then pure ()
  else (lib.validateHostname hostname).mapError ("server.hostname: " ++ ·)

def validate (c : Config) : Except String Unit := do
  require (c.version = 2)
    ("unsupported config version " ++ toString c.version ++ "; expected " ++ toString 2)
  let controller ← orElse c.controller "controller role is required"
  lib.validateController controller c.node.controllerURL
  validateNode c.node
  lib.validateManagement c.server.management
  require (trimSpace c.node.stateDir ≠ "") "node.state_dir is required"
  require (c.node.maxBudgetBPS ≤ maxInt64 ∧ (c.node.maxBudgetBPS = 0 ∨ 8 ≤ c.node.maxBudgetBPS))
    "node.max_budget_bps overflows the supported budget"
  lib.validateName c.server.hostname
  lib.validateDERP c.server.derp
  require (trimSpace c.server.admin.socket ≠ "") "server.admin.socket must not be empty"
  lib.validateListenAddress c.server.health.listen "server.health.listen"
  require (c.logging.level ∈ ["info", "warn", "error", "debug"])
    ("logging.level: unsupported value " ++ lib.quote c.logging.level)
  require (trimSpace c.storage.stateDir ≠ "") "storage paths must not be empty"

def restartOnlyChanged (oldConfig newConfig : Config) : Bool :=
  let oldConfig := lib.normalize oldConfig
  let newConfig := lib.normalize newConfig
  oldConfig.server.hostname ≠ newConfig.server.hostname ||
    oldConfig.setupRequired ≠ newConfig.setupRequired ||
    oldConfig.server.management ≠ newConfig.server.management ||
    oldConfig.server.derp ≠ newConfig.server.derp ||
    oldConfig.server.admin.socket ≠ newConfig.server.admin.socket ||
    oldConfig.server.health.listen ≠ newConfig.server.health.listen ||
    oldConfig.storage ≠ newConfig.storage ||
    oldConfig.controller ≠ newConfig.controller || oldConfig.node ≠ newConfig.node

end HostLib

def Config.clone (c : Config) : Config :=
  { c with controller := c.controller.map fun k =>
    { k with allowedNodeCIDRs := if k.allowedNodeCIDRs = some [] then none else k.allowedNodeCIDRs } }

namespace Config

theorem clone_clone (c : Config) : c.clone.clone = c.clone := by
  unfold clone
  congr 1
  cases c.controller with
  | none => rfl
  | some k =>
    simp only [Option.map_some]
    split_ifs <;> simp_all

def restartOnly (c : Config) : String × Bool × ManagementConfig × DERPConfig × String × String ×
    StorageConfig × Option ControllerConfig × NodeConfig :=
  (c.server.hostname, c.setupRequired, c.server.management, c.server.derp, c.server.admin.socket,
    c.server.health.listen, c.storage, c.controller, c.node)

end Config

namespace HostLib

variable (lib : HostLib)

theorem restartOnlyChanged_iff (a c : Config) :
    lib.restartOnlyChanged a c = true ↔
      (lib.normalize a).restartOnly ≠ (lib.normalize c).restartOnly := by
  simp only [restartOnlyChanged, Config.restartOnly, Bool.or_eq_true, decide_eq_true_eq, ne_eq,
    Prod.mk.injEq]
  tauto

theorem orDefault_of_ne {s : String} (h : s ≠ "") (d : String) : orDefault s d = s := if_neg h

theorem orDefault_ne {d : String} (h : d ≠ "") (s : String) : orDefault s d ≠ "" := by
  unfold orDefault
  split_ifs with hs
  · exact h
  · exact hs

theorem join_ne (a : String) {b : String} (h : b ∈ ["controller.sqlite", "controller.key", "node"]) :
    lib.join a b ≠ "" := by
  intro he
  apply lib.join_blank a b h
  rw [he]
  rfl

theorem normalizeController_idem (dir : String) (c : ControllerConfig) :
    lib.normalizeController dir (lib.normalizeController dir c) = lib.normalizeController dir c := by
  by_cases he : c.enabled = true
  · have hlisten := orDefault_ne (d := "127.0.0.1:3341") (by decide) c.listen
    have hdatabase := orDefault_ne (lib.join_ne dir (b := "controller.sqlite") (by decide +kernel))
      c.database
    have hkey := orDefault_ne (lib.join_ne dir (b := "controller.key") (by decide +kernel)) c.keyFile
    simp only [normalizeController, he, if_true, orDefault_of_ne hlisten, orDefault_of_ne hdatabase,
      orDefault_of_ne hkey]
  · simp only [normalizeController, he, if_false, Bool.false_eq_true]

theorem normalizeDERP_idem (d : DERPConfig) : normalizeDERP (normalizeDERP d) = normalizeDERP d := by
  have hlisten := orDefault_ne (d := ":3377") (by decide) d.listen
  have hstun := orDefault_ne (d := ":3478") (by decide) d.stunListen
  have hmode := orDefault_ne (d := "external") (by decide) d.tlsMode
  simp only [normalizeDERP, orDefault_of_ne hlisten, orDefault_of_ne hstun, orDefault_of_ne hmode]
  congr 1
  split_ifs <;> simp_all

theorem normalizeNode_idem (dir : String) (n : NodeConfig) :
    lib.normalizeNode dir (lib.normalizeNode dir n) = lib.normalizeNode dir n := by
  have hdir := orDefault_ne (lib.join_ne dir (b := "node") (by decide +kernel)) n.stateDir
  simp only [normalizeNode, orDefault_of_ne hdir]
  congr 1
  · split_ifs <;> simp_all
  · split_ifs <;> simp_all

theorem normalize_idem (c : Config) : lib.normalize (lib.normalize c) = lib.normalize c := by
  have hdir := orDefault_ne (d := "/data") (by decide) c.storage.stateDir
  have hsocket := orDefault_ne (d := "/run/uniderp/admin.sock") (by decide) c.server.admin.socket
  have hhealth := orDefault_ne (d := "127.0.0.1:9090") (by decide) c.server.health.listen
  have hlevel := orDefault_ne (d := "info") (by decide) c.logging.level
  simp only [normalize, orDefault_of_ne hdir, orDefault_of_ne hsocket, orDefault_of_ne hhealth,
    orDefault_of_ne hlevel, Option.getD_some, normalizeController_idem, normalizeDERP_idem,
    normalizeNode_idem]
  congr 1
  split_ifs <;> simp_all

theorem clone_normalize (c : Config) : (lib.normalize c).clone = lib.normalize c.clone := by
  unfold Config.clone normalize
  congr 1
  cases c.controller with
  | none => rfl
  | some k =>
    simp only [Option.getD_some, Option.map_some, normalizeController]
    split_ifs <;> rfl

theorem validateListenAddress_ok (address host port field : String)
    (hblank : trimSpace address ≠ "") (hsplit : splitHostPort address = some (host, port))
    (hhost : host = "" ∨ lib.parseIP host ≠ none) (hport : (parseUint16 port).getD 0 ≠ 0) :
    lib.validateListenAddress address field = .ok () := by
  have hne : port ≠ "" := by
    rintro rfl
    exact hport (by decide +kernel)
  have hallowed : host = "" ∨ host = "0.0.0.0" ∨ host = "::" ∨ lib.parseIP host ≠ none :=
    hhost.imp_right fun h => .inr (.inr h)
  simp only [validateListenAddress, hsplit, Except_bind_eq_ok, require_eq_ok, orElse_eq_ok]
  exact ⟨(), hblank, (host, port), rfl, (), hne, (), hallowed, hport⟩

theorem default_eq : lib.default =
    { version := 2
      server := {
        derp := ⟨":3377", ":3478", "external", "none", ""⟩
        admin := ⟨"/run/uniderp/admin.sock"⟩
        health := ⟨"127.0.0.1:9090"⟩ }
      storage := ⟨"/data"⟩
      controller := some ⟨true, "127.0.0.1:3341", lib.join "/data" "controller.sqlite",
        lib.join "/data" "controller.key", none⟩
      node := ⟨443, 3478, "", lib.join "/data" "node", 0⟩
      logging := ⟨"info"⟩ } := rfl

/-- The defaults pass their own checks. -/
theorem validate_default : lib.validate lib.default = .ok () := by
  have hip : lib.parseIP "127.0.0.1" ≠ none := by simp [lib.parseIP_loopback]
  have hhost : hostOf "127.0.0.1:3341" = "127.0.0.1" := by decide +kernel
  have hcontroller : lib.validateController ⟨true, "127.0.0.1:3341",
      lib.join "/data" "controller.sqlite", lib.join "/data" "controller.key", none⟩ "" =
      .ok () := by
    simp only [validateController, if_true, hhost, lib.parseIP_loopback, Except_bind_eq_ok,
      require_eq_ok]
    exact ⟨(), trivial, (), ⟨lib.join_blank _ _ (by decide +kernel),
      lib.join_blank _ _ (by decide +kernel)⟩, (),
      lib.validateListenAddress_ok _ "127.0.0.1" "3341" _ (by decide +kernel) (by decide +kernel)
        (.inr hip) (by decide +kernel), (), by decide, by simp⟩
  have hderp : lib.validateDERP ⟨":3377", ":3478", "external", "none", ""⟩ = .ok () := by
    simp only [validateDERP, validateExternal, validateCertMode, if_true, Except_bind_eq_ok,
      require_eq_ok]
    exact ⟨(), lib.validateListenAddress_ok _ "" "3377" _ (by decide +kernel) (by decide +kernel)
      (.inl rfl) (by decide +kernel), (),
      lib.validateListenAddress_ok _ "" "3478" _ (by decide +kernel) (by decide +kernel)
      (.inl rfl) (by decide +kernel), (), by decide +kernel, (), by decide, (), rfl, (),
      by decide +kernel, (), by decide, trivial⟩
  have hhealth := lib.validateListenAddress_ok "127.0.0.1:9090" "127.0.0.1" "9090"
    "server.health.listen" (by decide +kernel) (by decide +kernel) (.inr hip) (by decide +kernel)
  -- The parts that need the parser of addresses are done; the rest is evaluated.
  rw [default_eq]
  simp only [validate, validateNode, validateManagement, validateName, if_true, Except_bind_eq_ok,
    require_eq_ok, orElse_eq_ok]
  exact ⟨(), trivial, _, rfl, (), hcontroller, (), by decide, (), rfl, (),
    lib.join_blank _ _ (by decide +kernel), (), by decide, (), rfl, (), hderp, (),
    by decide +kernel, (), hhealth, (), by decide, by decide +kernel⟩

end HostLib

end UniDERP
