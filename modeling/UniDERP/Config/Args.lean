import Mathlib
import UniDERP.Config.Config

namespace UniDERP

structure PolicyPaths where
  path : String
  socketPath : String
  maxBudgetBPS : ℕ
  deriving DecidableEq, Repr

namespace HostLib

variable (lib : HostLib)

def validateManagementAddress (address : String) : Except String Unit := do
  let (host, port) ← orElse (splitHostPort address) ("management address: invalid listen address " ++
    lib.quote address ++ ": " ++ lib.splitError address)
  require ((lib.parseIP host).any Addr.isLoopback)
    ("management address: host must be a loopback IP address, got " ++ lib.quote host)
  require ((parseUint16 port).getD 0 ≠ 0)
    ("management address: port must be a non-zero numeric value, got " ++ lib.quote port)

def configAddress (address field : String) : Except String Unit := do
  require (trimSpace address ≠ "") (field ++ " must not be empty")
  let (_, port) ← orElse (splitHostPort address) (field ++ ": " ++ lib.splitError address)
  require ((parseUint16 port).getD 0 ≠ 0) (field ++ ": port must be a non-zero numeric value")

/-- The rules of `validateTLSConfig` for a relay behind a proxy. -/
def checkExternal (d : DERPConfig) : Except String Unit := do
  require ((parseUint16 (portOf d.listen)).getD 0 ≠ 443)
    "server.derp.listen: tls_mode external must use a non-443 internal port"
  require (d.certMode ≠ "gcp") unsupportedGCP
  require (d.certMode = "" ∨ d.certMode = "none")
    ("server.derp.cert_mode " ++ lib.quote d.certMode ++
      " requires tls_mode: passthrough; tls_mode: external uses cert_mode: none")
  require (d.certDir = "") "server.derp.cert_dir is only valid with tls_mode: passthrough"

/-- The rules of `validateTLSConfig` for a relay with a certificate of its own. -/
def checkPassthrough (d : DERPConfig) : Except String Unit := do
  require (d.certMode ≠ "gcp") unsupportedGCP
  require (d.certMode = "manual" ∨ d.certMode = "letsencrypt")
    "server.derp.cert_mode must be manual or letsencrypt with tls_mode: passthrough"
  -- The text of the port, where `Validate` compares its number.
  require (d.certMode = "manual" ∨ portOf d.listen = "443")
    ("server.derp.listen: passthrough cert_mode " ++ lib.quote d.certMode ++
      " must use port 443; use cert_mode: manual for a non-443 TLS backend")
  require (trimSpace d.certDir ≠ "") "server.derp.cert_dir is required with tls_mode: passthrough"

def validateTLSConfig (d : DERPConfig) : Except String Unit :=
  if d.tlsMode = "external" then lib.checkExternal d
  else if d.tlsMode = "passthrough" then lib.checkPassthrough d
  else .error ("server.derp.tls_mode: unsupported value " ++ lib.quote d.tlsMode)

def acmeHTTPPort (d : DERPConfig) : String :=
  if d.tlsMode = "passthrough" ∧ d.certMode = "letsencrypt" then "80" else "-1"

/-- The checks of `BuildArgs`, with the policy's paths as they are passed on. -/
def checkArgs (server : ServerConfig) (managementAddress keyPath : String) (policy : PolicyPaths) :
    Except String (String × String × String) := do
  require (trimSpace server.hostname ≠ "") "server.hostname is required before starting derper"
  require (trimSpace keyPath ≠ "") "derper key path is required"
  lib.validateManagementAddress managementAddress
  require (policy.path ≠ "" ∧ policy.socketPath ≠ "") "derper policy file and socket are required"
  let policyFile ← lib.abs policy.path
  let policySocket ← lib.abs policy.socketPath
  require (lib.dir policyFile = lib.dir policySocket)
    "derper policy file and socket must share their protected directory"
  lib.configAddress server.derp.listen "server.derp.listen"
  lib.validateTLSConfig server.derp
  let (stunHost, stunPort) ← orElse (splitHostPort server.derp.stunListen)
    ("server.derp.stun_listen: " ++ lib.splitError server.derp.stunListen)
  require (stunHost = "" ∨ hostOf server.derp.listen = "" ∨ stunHost = hostOf server.derp.listen)
    ("server.derp.stun_listen must use the same host as server.derp.listen when both are " ++
      "explicit")
  require ((parseUint16 stunPort).getD 0 ≠ 0)
    "server.derp.stun_listen: port must be a non-zero numeric value"
  pure (policyFile, policySocket, stunPort)

def buildArgs (server : ServerConfig) (managementAddress keyPath : String) (policy : PolicyPaths) :
    Except String (List String) := do
  let (policyFile, policySocket, stunPort) ← lib.checkArgs server managementAddress keyPath policy
  let args := [
    "-hostname=" ++ server.hostname,
    "-a=" ++ server.derp.listen,
    "-stun-port=" ++ stunPort,
    "-stun=true",
    "-derp=true",
    "-c=" ++ keyPath,
    "-http-port=" ++ acmeHTTPPort server.derp,
    "-verify-clients=false",
    "-verify-client-url=",
    "-uniderp-management-url=http://" ++ managementAddress,
    "-uniderp-policy-file=" ++ policyFile,
    "-uniderp-policy-socket=" ++ policySocket,
    "-uniderp-max-budget-bps=" ++ toString policy.maxBudgetBPS,
    "-mesh-psk-file="]
  pure (if server.derp.tlsMode = "passthrough" then
    args ++ ["-certmode=" ++ server.derp.certMode, "-certdir=" ++ server.derp.certDir] else args)

variable {lib} {c : Config}

theorem validate_server (h : lib.validate c = .ok ()) :
    (c.server.hostname = "" ∨ lib.validateHostname c.server.hostname = .ok ()) ∧
      lib.validateDERP c.server.derp = .ok () := by
  simp only [validate, Except_bind_eq_ok, require_eq_ok, exists_const, orElse_eq_ok] at h
  obtain ⟨-, controller, -, ⟨⟩, -, ⟨⟩, -, ⟨⟩, -, -, -, ⟨⟩, hname, ⟨⟩, hderp, -⟩ := h
  refine ⟨?_, hderp⟩
  unfold validateName at hname
  split_ifs at hname with hempty
  · exact .inl hempty
  · exact .inr (mapError_eq_ok.mp hname)

theorem validateListenAddress_eq_ok {address field : String} :
    lib.validateListenAddress address field = .ok () ↔ trimSpace address ≠ "" ∧
      ∃ host port, splitHostPort address = some (host, port) ∧ port ≠ "" ∧
        (host = "" ∨ host = "0.0.0.0" ∨ host = "::" ∨ lib.parseIP host ≠ none) ∧
        (parseUint16 port).getD 0 ≠ 0 := by
  simp only [validateListenAddress, Except_bind_eq_ok, require_eq_ok, exists_const, orElse_eq_ok,
    Prod.exists]

theorem configAddress_of_listen {address field field' : String}
    (h : lib.validateListenAddress address field = .ok ()) :
    lib.configAddress address field' = .ok () := by
  obtain ⟨hblank, host, port, hsplit, -, -, hport⟩ := validateListenAddress_eq_ok.mp h
  simp only [configAddress, Except_bind_eq_ok, require_eq_ok, exists_const, orElse_eq_ok,
    Prod.exists]
  exact ⟨hblank, host, port, hsplit, hport⟩

theorem isSpace_of_trimSpace {s : String} (h : trimSpace s = "") : ∀ x ∈ s.toList, isSpace x := by
  unfold trimSpace at h
  rw [← String.toList_inj, String.toList_ofList, String.toList_empty, List.reverse_eq_nil_iff,
    List.dropWhile_eq_nil_iff] at h
  intro x hx
  by_contra hspace
  have hkept : s.toList.dropWhile isSpace ≠ [] := fun hnil =>
    hspace (List.dropWhile_eq_nil_iff.mp hnil x hx)
  have hhead := h _ (List.mem_reverse.mpr (List.head_mem hkept))
  exact absurd hhead (by simpa using List.head_dropWhile_not isSpace hkept)

theorem not_isSpace_of_label {x : Char} (h : (x.isAlphanum || x = '-') = true) :
    isSpace x = false := by
  have hascii : x.toNat < 128 := by
    simp only [Char.isAlphanum, Char.isAlpha, Char.isUpper, Char.isLower, Char.isDigit,
      Bool.or_eq_true, Bool.and_eq_true, decide_eq_true_eq, UInt32.le_iff_toNat_le, ge_iff_le,
      Char.toNat_val] at h
    rcases h with ((⟨-, h⟩ | ⟨-, h⟩) | ⟨-, h⟩) | rfl
    · exact h.trans_lt (by decide)
    · exact h.trans_lt (by decide)
    · exact h.trans_lt (by decide)
    · decide
  revert h
  apply ascii_cases (P := fun x => (x.isAlphanum || x = '-') = true → isSpace x = false) _ hascii
  decide

/-- A label has no white space. -/
theorem validateHostname_not_blank {hostname : String}
    (h : lib.validateHostname hostname = .ok ()) : trimSpace hostname ≠ "" := by
  intro hblank
  have hspace := isSpace_of_trimSpace hblank
  simp only [validateHostname, Except_bind_eq_ok, require_eq_ok, exists_const] at h
  obtain ⟨⟨hlen, -, -⟩, h⟩ := h
  rw [if_neg (by simp [lib.parseIP_blank _ hblank])] at h
  split at h
  · cases h
  rename_i hlabels
  have hne : hostname.toList ≠ [] := by
    intro hnil
    apply hlen
    rw [String.toList_eq_nil_iff.mp hnil]
    rfl
  obtain ⟨x, hx⟩ := List.exists_mem_of_ne_nil _ hne
  have hdot : x ≠ '.' := by
    rintro rfl
    exact absurd (hspace _ hx) (by decide)
  obtain ⟨label, hlabel, hmem⟩ := mem_piece_of_mem hx hdot
  have hvalid := List.find?_eq_none.mp hlabels label hlabel
  simp only [Bool.not_eq_true', Bool.not_eq_false, hostnameLabel, Bool.and_eq_true,
    List.all_eq_true] at hvalid
  have hx' := not_isSpace_of_label (hvalid.1.1.2 x hmem)
  rw [hspace x hx] at hx'
  cases hx'

theorem validateTLSConfig_iff {d : DERPConfig} (h : lib.validateDERP d = .ok ()) :
    lib.validateTLSConfig d = .ok () ↔ (d.tlsMode = "passthrough" →
      trimSpace d.certDir ≠ "" ∧ (d.certMode = "letsencrypt" → portOf d.listen = "443")) := by
  simp only [validateDERP, Except_bind_eq_ok, require_eq_ok, exists_const] at h
  obtain ⟨⟨⟩, -, ⟨⟩, -, -, hmode, ⟨⟩, -, h⟩ := h
  unfold validateTLSConfig
  rcases hmode with hmode | hmode
  · simp only [hmode, if_true, validateExternal, Except_bind_eq_ok, require_eq_ok,
      exists_const] at h
    obtain ⟨hport, hcert, hdir⟩ := h
    have hgcp : d.certMode ≠ "gcp" := by
      rcases hcert with hc | hc <;> simp [hc]
    simp [hmode, checkExternal, hport, hcert, hdir, hgcp]
  · simp only [hmode, validatePassthrough, String.reduceEq, if_false, Except_bind_eq_ok,
      require_eq_ok, exists_const] at h
    obtain ⟨hcert, hdir, -⟩ := h
    have hgcp : d.certMode ≠ "gcp" := by
      rcases hcert with hc | hc <;> simp [hc]
    have hport : (d.certMode = "manual" ∨ portOf d.listen = "443") ↔
        (d.certMode = "letsencrypt" → portOf d.listen = "443") := by
      rcases hcert with hc | hc <;> simp [hc]
    simp only [hmode, String.reduceEq, if_false, if_true, checkPassthrough, Except_bind_eq_ok,
      require_eq_ok, exists_const, hcert, hgcp, ne_eq, not_false_eq_true, true_and, hport,
      forall_const]
    exact and_comm

def LoopbackPort (lib : HostLib) (address : String) : Prop :=
  ∃ host port ip n, splitHostPort address = some (host, port) ∧ lib.parseIP host = some ip ∧
    ip.isLoopback ∧ parseUint16 port = some n ∧ n ≠ 0

def OneDirectory (lib : HostLib) (policy : PolicyPaths) : Prop :=
  policy.path ≠ "" ∧ policy.socketPath ≠ "" ∧ ∃ file socket, lib.abs policy.path = .ok file ∧
    lib.abs policy.socketPath = .ok socket ∧ lib.dir file = lib.dir socket

theorem validateManagementAddress_of_loopback {address : String} (h : LoopbackPort lib address) :
    lib.validateManagementAddress address = .ok () := by
  obtain ⟨host, port, ip, n, hsplit, hip, hloop, hport, hn⟩ := h
  simp [validateManagementAddress, hsplit, orElse, hip, hloop, hport, hn, ok_bind]

/-- An accepted configuration can start the relay if the key's path is not blank, and, for a relay
with a certificate of its own, if the certificates' directory is not blank and the port of
`letsencrypt` is spelled `443`. -/
theorem buildArgs_of_valid (lib : HostLib) (c : Config) (hvalid : lib.validate c = .ok ())
    (hname : c.server.hostname ≠ "") (managementAddress keyPath : String) (policy : PolicyPaths)
    (hmanagement : LoopbackPort lib managementAddress) (hpolicy : OneDirectory lib policy) :
    (∃ args, lib.buildArgs c.server managementAddress keyPath policy = .ok args) ↔
      trimSpace keyPath ≠ "" ∧ (c.server.derp.tlsMode = "passthrough" →
        trimSpace c.server.derp.certDir ≠ "" ∧
          (c.server.derp.certMode = "letsencrypt" → portOf c.server.derp.listen = "443")) := by
  obtain ⟨hhost, hderp⟩ := validate_server hvalid
  have hblank := validateHostname_not_blank (hhost.resolve_left hname)
  rw [← validateTLSConfig_iff hderp]
  simp only [validateDERP, Except_bind_eq_ok, require_eq_ok, exists_const] at hderp
  obtain ⟨⟨⟩, hlisten, ⟨⟩, hstun, hsame, -⟩ := hderp
  obtain ⟨-, stunHost, stunPort, hsplit, -, -, hport⟩ := validateListenAddress_eq_ok.mp hstun
  obtain ⟨hpath, hsocket, file, socket, hfile, hsock, hdir⟩ := hpolicy
  -- `validateDERP` and `checkArgs` compare the two hosts in different orders.
  have hhosts : stunHost = "" ∨ hostOf c.server.derp.listen = "" ∨
      stunHost = hostOf c.server.derp.listen := by
    have hstunHost : hostOf c.server.derp.stunListen = stunHost := by simp [hostOf, hsplit]
    rw [hstunHost] at hsame
    rcases hsame with h | h | h
    · exact .inr (.inl h)
    · exact .inl h
    · exact .inr (.inr h.symm)
  have haddress : lib.configAddress c.server.derp.listen "server.derp.listen" = .ok () :=
    configAddress_of_listen hlisten
  simp only [buildArgs, checkArgs, Except_bind_eq_ok, require_eq_ok, exists_const, orElse_eq_ok,
    Prod.exists, Except_pure_eq_ok]
  -- Of what `checkArgs` asks, only the key path and the TLS settings are not settled by now.
  constructor
  · rintro ⟨args, -, -, -, ⟨-, hk, ⟨⟩, -, -, -, -, -, -, -, ⟨⟩, -, ⟨⟩, htls, -⟩, -⟩
    exact ⟨hk, htls⟩
  · rintro ⟨hk, htls⟩
    exact ⟨_, file, socket, stunPort, ⟨hblank, hk, (),
      validateManagementAddress_of_loopback hmanagement, ⟨hpath, hsocket⟩, file, hfile, socket,
      hsock, hdir, (), haddress, (), htls, stunHost, stunPort, hsplit, hhosts, hport, rfl⟩, rfl⟩

/-- Paths are joined by a slash, and `127.0.0.1` is the only address. -/
def plain : HostLib where
  join a b := a ++ "/" ++ b
  join_blank a b _ h := by
    have hslash := isSpace_of_trimSpace h '/' (by simp)
    exact absurd hslash (by decide)
  parseIP s := if s = "127.0.0.1" then some (.quad 127 0 0 1) else none
  parseIP_loopback := rfl
  parseIP_blank s hs := by
    rw [if_neg]
    rintro rfl
    exact absurd hs (by decide +kernel)
  parsePrefix _ := true
  parseURL _ := none
  quote s := "\"" ++ s ++ "\""
  splitError _ := "invalid address"
  abs s := .ok s
  dir _ := "/run"

def paths : PolicyPaths := ⟨"/run/policy", "/run/socket", 0⟩

theorem plain_loopback : LoopbackPort plain "127.0.0.1:3341" :=
  ⟨"127.0.0.1", "3341", .quad 127 0 0 1, 3341, by decide +kernel⟩

theorem plain_oneDirectory : OneDirectory plain paths :=
  ⟨by decide, by decide, "/run/policy", "/run/socket", rfl, rfl, rfl⟩

/-- A relay of this name with these settings, and defaults for the rest. -/
def relay (derp : DERPConfig) : Config :=
  plain.normalize { version := 2, server := { hostname := "relay.example", derp := derp } }

theorem buildArgs_of_default : ∃ args,
    plain.buildArgs (relay {}).server "127.0.0.1:3341" "/data/derper.key" paths = .ok args := by
  have hvalid : plain.validate (relay {}) = .ok () := by decide +kernel
  have hexternal : (relay {}).server.derp.tlsMode ≠ "passthrough" := by decide +kernel
  have hiff := buildArgs_of_valid plain (relay {}) hvalid (by decide +kernel) "127.0.0.1:3341"
    "/data/derper.key" paths plain_loopback plain_oneDirectory
  exact hiff.mpr ⟨by decide +kernel, fun h => absurd h hexternal⟩

def zeroPadded : DERPConfig :=
  { listen := ":0443", tlsMode := "passthrough", certMode := "letsencrypt", certDir := "/certs" }

def blankDirectory : DERPConfig :=
  { listen := ":8443", tlsMode := "passthrough", certMode := "manual", certDir := " " }

/-- The configuration is valid and has a name, and the relay is not started with it. -/
def RefusedLater (derp : DERPConfig) : Prop :=
  plain.validate (relay derp) = .ok () ∧ (relay derp).server.hostname ≠ "" ∧
    (plain.buildArgs (relay derp).server "127.0.0.1:3341" "/data/derper.key" paths).toOption = none

theorem accepted_and_refused : RefusedLater zeroPadded ∧ RefusedLater blankDirectory ∧
    LoopbackPort plain "127.0.0.1:3341" ∧ OneDirectory plain paths := by
  unfold RefusedLater
  exact ⟨by decide +kernel, by decide +kernel, plain_loopback, plain_oneDirectory⟩

end HostLib

end UniDERP
