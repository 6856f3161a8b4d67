import UniDERP.Library.Outcome
import UniDERP.Control.Schema

namespace UniDERP

/-- One device of the answer; a field that is absent or null is `none`. -/
structure Device where
  nodeKey : String
  authorized : Option Bool
  isExternal : Option Bool
  keyExpiryDisabled : Option Bool
  expires : Option String
  deriving DecidableEq, Repr

/-- The packages the reader calls: `encoding/json`, `time.Parse` and the text form of keys. -/
structure DeviceCodec where
  /-- The raw `devices` of the first value, empty if there are none, and whether it ends the body. -/
  decode : Bytes → Option (Bytes × Bool)
  /-- `json.Unmarshal` of a raw list. -/
  unmarshal : Bytes → Option (List Device)
  unmarshalText : String → Option ℕ
  string : ℕ → String
  parseRFC3339 : String → Option Stamp

def maxResponse : ℕ := 8 * 2 ^ 20

/-- The raw message `null`. -/
def nullMessage : Bytes := [110, 117, 108, 108]

namespace DeviceCodec

variable (C : DeviceCodec)

def parseExpiry (i : ℕ) (disabled : Bool) (expires : String) : Except String Stamp :=
  if disabled then .ok (Stamp.utc zeroTime)
  else do
    let expiry ← orElse (C.parseRFC3339 expires) s!"device {i}: invalid key expiry"
    require (expiry.time ≠ zeroTime) s!"device {i}: invalid key expiry"
    pure expiry

/-- The checks on device `i`: its key and expiry, or `none` if it is left out. -/
def readDevice (now : Int) (i : ℕ) (d : Device) : Except String (Option (ℕ × Stamp)) := do
  let isExternal ← orElse d.isExternal s!"device {i}: missing external status"
  if isExternal then pure none
  else do
    let authorized ← orElse d.authorized s!"device {i}: missing safety fields"
    let disabled ← orElse d.keyExpiryDisabled s!"device {i}: missing safety fields"
    let expires ← orElse d.expires s!"device {i}: missing safety fields"
    let k ← orElse (C.unmarshalText d.nodeKey) s!"device {i}: invalid node public key"
    require (k ≠ 0) s!"device {i}: invalid node public key"
    let expiry ← C.parseExpiry i disabled expires
    if authorized = false ∨ (expiry.time ≠ zeroTime ∧ ¬ now < expiry.time) then pure none
    else pure (some (k, expiry))

/-- The loop over the devices from number `i` on, with the keys seen so far. -/
def parseDevices (now : Int) (i : ℕ) (seen : List ℕ) :
    List Device → Except String (List IdentityKey)
  | [] => .ok []
  | d :: ds => do
    match ← C.readDevice now i d with
    | none => parseDevices now (i + 1) seen ds
    | some (k, expiry) => do
      require (k ∉ seen) s!"device {i}: duplicate public key"
      let rest ← parseDevices now (i + 1) (k :: seen) ds
      pure (⟨C.string k, expiry⟩ :: rest)

/-- The devices of an answer; `r` is what reading it yields, `none` if that fails. -/
def decodeDevices (r : Option Bytes) : Except String (List Device) := do
  let body ← orElse r "device response unreadable or too large"
  require (body.length ≤ maxResponse) "device response unreadable or too large"
  let (raw, ended) ← orElse (C.decode body) "invalid complete device response"
  require ended "trailing device response data"
  require (raw ≠ [] ∧ raw ≠ nullMessage) "missing complete device list"
  orElse (C.unmarshal raw) "missing complete device list"

def parseIdentity (r : Option Bytes) (now : Int) : Except String (List IdentityKey) := do
  let devices ← C.decodeDevices r
  C.parseDevices now 0 [] devices

/-- An external device states that it is; any other states all its fields, and they are valid. -/
def Stated (d : Device) : Prop :=
  d.isExternal ≠ none ∧ (d.isExternal = some false →
    d.authorized ≠ none ∧ d.keyExpiryDisabled ≠ none ∧ d.expires ≠ none ∧
    (∃ k, C.unmarshalText d.nodeKey = some k ∧ k ≠ 0) ∧
    (d.keyExpiryDisabled = some false →
      ∃ t, d.expires.bind C.parseRFC3339 = some t ∧ t.time ≠ zeroTime))

def keyOf (d : Device) : ℕ := (C.unmarshalText d.nodeKey).getD 0

def expiryOf (d : Device) : Stamp :=
  if d.keyExpiryDisabled = some true then Stamp.utc zeroTime
  else (d.expires.bind C.parseRFC3339).getD (Stamp.utc zeroTime)

def admits (now : Int) (d : Device) : Bool :=
  d.isExternal = some false && d.authorized = some true &&
    (d.keyExpiryDisabled = some true || now < (C.expiryOf d).time)

variable {C} {now : Int} {i : ℕ}

theorem parseExpiry_eq_ok {disabled : Bool} {expires : String} {t : Stamp} :
    C.parseExpiry i disabled expires = .ok t ↔
      (disabled = true ∧ t = Stamp.utc zeroTime) ∨
      (disabled = false ∧ C.parseRFC3339 expires = some t ∧ t.time ≠ zeroTime) := by
  unfold parseExpiry
  cases disabled with
  | true => simp [eq_comm]
  | false =>
    simp only [Bool.false_eq_true, if_false, Except_bind_eq_ok, orElse_eq_ok, require_eq_ok,
      exists_const, Except_pure_eq_ok, false_and, false_or, true_and]
    constructor
    · rintro ⟨t', ht', hz, rfl⟩
      exact ⟨ht', hz⟩
    · rintro ⟨ht, hz⟩
      exact ⟨t, ht, hz, rfl⟩

/-- What is read of a device does not depend on its number. -/
theorem readDevice_eq_ok {d : Device} {r : Option (ℕ × Stamp)} :
    C.readDevice now i d = .ok r ↔
      C.Stated d ∧ r = if C.admits now d then some (C.keyOf d, C.expiryOf d) else none := by
  obtain ⟨nodeKey, authorized, isExternal, disabled, expires⟩ := d
  cases isExternal with
  | none => simp [readDevice, Stated, orElse, bind, Except.bind]
  | some external =>
    cases external with
    | true => simp [readDevice, Stated, admits, orElse, ok_bind, @eq_comm _ r]
    | false =>
      -- The fields that are missing and the key that is invalid refuse the device.
      rcases authorized with _ | authorized
      · simp [readDevice, Stated, orElse, bind, Except.bind]
      rcases disabled with _ | disabled
      · simp [readDevice, Stated, orElse, bind, Except.bind]
      rcases expires with _ | expires
      · simp [readDevice, Stated, orElse, bind, Except.bind]
      rcases hk : C.unmarshalText nodeKey with _ | k
      · simp [readDevice, Stated, orElse, bind, Except.bind, hk]
      simp only [readDevice, orElse, ok_bind, hk, Bool.false_eq_true, if_false, Except_bind_eq_ok,
        require_eq_ok, exists_const, parseExpiry_eq_ok, Stated, keyOf, expiryOf, admits]
      cases disabled with
      | true =>
        cases authorized <;> simp [Stamp.utc, @eq_comm _ r]
      | false =>
        rcases ht : C.parseRFC3339 expires with _ | t
        · simp [ht]
        · rcases lt_or_ge now t.time with hlt | hle
          · cases authorized <;> by_cases hz : t.time = zeroTime <;>
              simp [ht, hlt, hlt.not_ge, hz, and_assoc, @eq_comm _ r]
          · cases authorized <;> by_cases hz : t.time = zeroTime <;>
              simp [ht, hle, hle.not_gt, hz, and_assoc, @eq_comm _ r]

theorem parseDevices_eq_ok {devices : List Device} {seen : List ℕ} {keys : List IdentityKey} :
    C.parseDevices now i seen devices = .ok keys ↔
      (∀ d ∈ devices, C.Stated d) ∧
      ((devices.filter (C.admits now)).map C.keyOf).Nodup ∧
      (∀ d ∈ devices, C.admits now d → C.keyOf d ∉ seen) ∧
      keys = (devices.filter (C.admits now)).map fun d => ⟨C.string (C.keyOf d), C.expiryOf d⟩ := by
  induction devices generalizing i seen keys with
  | nil =>
    simp only [parseDevices, Except.ok.injEq, List.filter_nil, List.map_nil, List.nodup_nil,
      List.not_mem_nil, false_implies, implies_true, true_and]
    exact eq_comm
  | cons d ds ih =>
    rw [parseDevices, Except_bind_eq_ok]
    simp only [readDevice_eq_ok, List.forall_mem_cons]
    by_cases ha : C.admits now d
    · -- The key joins those seen: the rest must avoid it.
      simp only [ha, if_true, List.filter_cons_of_pos, List.map_cons, List.nodup_cons, List.mem_map,
        List.mem_filter]
      constructor
      · rintro ⟨_, ⟨hd, rfl⟩, h⟩
        simp only [Except_bind_eq_ok, require_eq_ok, exists_const, Except_pure_eq_ok, ih] at h
        obtain ⟨hseen, rest, ⟨hds, hnodup, havoid, rfl⟩, rfl⟩ := h
        refine ⟨⟨hd, hds⟩, ⟨?_, hnodup⟩, ⟨fun _ => hseen, fun e he hae hmem => ?_⟩, rfl⟩
        · rintro ⟨e, ⟨he, hae⟩, hk⟩
          exact havoid e he hae (hk ▸ List.mem_cons_self)
        · exact havoid e he hae (List.mem_cons_of_mem _ hmem)
      · rintro ⟨⟨hd, hds⟩, ⟨hfirst, hnodup⟩, ⟨hseen, havoid⟩, rfl⟩
        refine ⟨_, ⟨hd, rfl⟩, ?_⟩
        simp only [Except_bind_eq_ok, require_eq_ok, exists_const, Except_pure_eq_ok, ih]
        refine ⟨hseen trivial, _, ⟨hds, hnodup, fun e he hae hmem => ?_, rfl⟩, rfl⟩
        rcases List.mem_cons.mp hmem with hk | hk
        · exact hfirst ⟨e, ⟨he, hae⟩, hk⟩
        · exact havoid e he hae hk
    · simp only [ha, Bool.false_eq_true, if_false, false_implies, true_and]
      rw [List.filter_cons_of_neg (by simpa using ha)]
      constructor
      · rintro ⟨_, ⟨hd, rfl⟩, h⟩
        obtain ⟨hds, hrest⟩ := ih.mp h
        exact ⟨⟨hd, hds⟩, hrest⟩
      · rintro ⟨⟨hd, hds⟩, hrest⟩
        exact ⟨none, ⟨hd, rfl⟩, ih.mpr ⟨hds, hrest⟩⟩

/-- All devices are read or none: the keys are those of the admitted devices, in their order. -/
theorem parseIdentity_exact (C : DeviceCodec) (r : Option Bytes) (now : Int)
    (keys : List IdentityKey) :
    C.parseIdentity r now = .ok keys ↔ ∃ devices, C.decodeDevices r = .ok devices ∧
      (∀ d ∈ devices, C.Stated d) ∧
      ((devices.filter (C.admits now)).map C.keyOf).Nodup ∧
      keys = (devices.filter (C.admits now)).map fun d => ⟨C.string (C.keyOf d), C.expiryOf d⟩ := by
  rw [parseIdentity, Except_bind_eq_ok]
  simp only [parseDevices_eq_ok, List.not_mem_nil, not_false_eq_true, implies_true, true_and]

end DeviceCodec

end UniDERP
