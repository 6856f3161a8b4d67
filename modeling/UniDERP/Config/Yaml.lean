import UniDERP.Config.Args
import Mathlib.Data.List.Sort

/-!
# Parsing the configuration

The document tree, the three walks over it and `Parse`.  The walk for duplicate keys and the walk
below an unknown field see every node; the walk along the schema stops at the fields that have no
fields of their own, and what stands there is left to the decoder.
-/

namespace UniDERP

inductive Yaml where
  | scalar (tag value : String)
  | sequence (items : List Yaml)
  | mapping (entries : List (String × Yaml))
  | alias (name : String)
  deriving Repr

/-- The known fields of a mapping, with the schema of those that are mappings themselves. -/
inductive SchemaNode where
  | mk (fields : List (String × Option SchemaNode))

def SchemaNode.fields : SchemaNode → List (String × Option SchemaNode)
  | .mk fields => fields

def derpSchema : SchemaNode := .mk [
  ("listen", none), ("stun_listen", none), ("tls_mode", none), ("cert_mode", none),
  ("cert_dir", none)]

def adminSchema : SchemaNode := .mk [("socket", none)]

def healthSchema : SchemaNode := .mk [("listen", none)]

def storageSchema : SchemaNode := .mk [("state_dir", none)]

def loggingSchema : SchemaNode := .mk [("level", none)]

def serverSchema : SchemaNode := .mk [
  ("management", some (.mk [("listen", none)])),
  ("hostname", none),
  ("derp", some derpSchema),
  ("admin", some adminSchema),
  ("health", some healthSchema)]

def rootSchema : SchemaNode := .mk [
  ("setup_required", none),
  ("version", none),
  ("server", some serverSchema),
  ("storage", some storageSchema),
  ("logging", some loggingSchema),
  ("controller", some (.mk [("enabled", none), ("listen", none), ("database", none),
    ("key_file", none), ("allowed_node_cidrs", none)])),
  ("node", some (.mk [("controller_url", none), ("state_dir", none), ("max_budget_bps", none),
    ("derp_port", none), ("stun_port", none)]))]

def unsupportedFields : List (String × String) := [
  ("control_url", "UniDERP identities use the official Tailscale device API"),
  ("controlurl", "UniDERP identities use the official Tailscale device API"),
  ("derp_map", "DERP maps belong to each Tailnet control plane, not UniDERP"),
  ("derpmap", "DERP maps belong to each Tailnet control plane, not UniDERP"),
  ("derp_map_file", "DERP maps belong to each Tailnet control plane, not UniDERP"),
  ("derp_map_url", "DERP maps belong to each Tailnet control plane, not UniDERP"),
  ("mesh_psk_file", "DERP mesh is disabled in UniDERP"),
  ("mesh_with", "DERP mesh is disabled in UniDERP"),
  ("secrets_url", "DERP mesh is disabled in UniDERP"),
  ("verify_client_url", "UniDERP uses local node policy"),
  ("verify_clients", "UniDERP uses local node policy"),
  ("rate_config", "UniDERP does not expose upstream experimental rate configuration"),
  ("accept_connection_limit", "UniDERP does not expose upstream connection limits"),
  ("accept_connection_burst", "UniDERP does not expose upstream connection limits")]

inductive FieldType where
  | scalar
  | strings
  | record (fields : List (String × FieldType))

mutual

/-- No mapping or sequence stands for a scalar, no mapping for a list, no sequence for a record. -/
def Yaml.fits : Yaml → FieldType → Bool
  | .scalar _ _, _ => true
  | .alias _, _ => true
  | .sequence items, .strings => Yaml.itemsFit items
  | .sequence _, _ => false
  | .mapping entries, .record fields => Yaml.entriesFit entries fields
  | .mapping _, _ => false

def Yaml.itemsFit : List Yaml → Bool
  | [] => true
  | item :: rest => item.fits .scalar && Yaml.itemsFit rest

def Yaml.entriesFit : List (String × Yaml) → List (String × FieldType) → Bool
  | [], _ => true
  | (key, value) :: rest, fields =>
    (match fields.lookup key with
      | some type => value.fits type
      | none => true) && Yaml.entriesFit rest fields

end

/-- The fields of `Config` under their names in the file. -/
def configType : List (String × FieldType) := [
  ("setup_required", .scalar),
  ("version", .scalar),
  ("server", .record [
    ("management", .record [("listen", .scalar)]),
    ("hostname", .scalar),
    ("derp", .record [("listen", .scalar), ("stun_listen", .scalar), ("tls_mode", .scalar),
      ("cert_mode", .scalar), ("cert_dir", .scalar)]),
    ("admin", .record [("socket", .scalar)]),
    ("health", .record [("listen", .scalar)])]),
  ("storage", .record [("state_dir", .scalar)]),
  ("logging", .record [("level", .scalar)]),
  ("controller", .record [("enabled", .scalar), ("listen", .scalar), ("database", .scalar),
    ("key_file", .scalar), ("allowed_node_cidrs", .strings)]),
  ("node", .record [("controller_url", .scalar), ("state_dir", .scalar),
    ("max_budget_bps", .scalar), ("derp_port", .scalar), ("stun_port", .scalar)])]

/-- The YAML library, with the texts of its errors, and the lower case of a character. -/
structure Decoder where
  lower : Char → Char
  decodeInt : String → Except String ℤ
  decode : Yaml → Except String Config
  decode_fits : ∀ t c, decode t = .ok c → t.fits (.record configType) = true

structure ParseResult where
  config : Config
  warnings : List String
  deriving DecidableEq, Repr

def FieldType.schema : FieldType → Option SchemaNode
  | .record fields => some (.mk (fieldSchemas fields))
  | _ => none
where
  fieldSchemas : List (String × FieldType) → List (String × Option SchemaNode)
    | [] => []
    | (key, type) :: rest => (key, type.schema) :: fieldSchemas rest

theorem schema_configType : (FieldType.record configType).schema = some rootSchema := rfl

theorem lookup_fieldSchemas (fields : List (String × FieldType)) (key : String) :
    (FieldType.schema.fieldSchemas fields).lookup key =
      (fields.lookup key).map FieldType.schema := by
  induction fields with
  | nil => rfl
  | cons f rest ih =>
    obtain ⟨name, type⟩ := f
    simp only [FieldType.schema.fieldSchemas, List.lookup_cons]
    split
    · rfl
    · exact ih

def joinPath (path key : String) : String := if path = "" then key else path ++ "." ++ key

def itemPath (path : String) (i : ℕ) : String := path ++ "[" ++ toString i ++ "]"

namespace Decoder

variable (lib : HostLib) (D : Decoder)

def foldKey (key : String) : String :=
  String.ofList ((key.toList.map fun c => if c = '-' then '_' else c).map D.lower)

def checkKey (key fieldPath : String) : Except String Unit :=
  if key = "<<" then throw ("YAML merge keys are not supported at " ++ fieldPath)
  else match unsupportedFields.lookup (D.foldKey key) with
    | some reason =>
      throw ("unsupported field " ++ lib.quote key ++ " at " ++ fieldPath ++ ": " ++ reason)
    | none => .ok ()

mutual

def rejectUnsupportedFields : Yaml → String → Except String Unit
  | .mapping entries, path => rejectUnsupportedEntries entries path
  | .sequence items, path => rejectUnsupportedItems items 0 path
  | _, _ => .ok ()

def rejectUnsupportedEntries : List (String × Yaml) → String → Except String Unit
  | [], _ => .ok ()
  | (key, value) :: rest, path => do
    D.checkKey lib key (joinPath path key)
    rejectUnsupportedFields value (joinPath path key)
    rejectUnsupportedEntries rest path

def rejectUnsupportedItems : List Yaml → ℕ → String → Except String Unit
  | [], _, _ => .ok ()
  | item :: rest, i, path => do
    rejectUnsupportedFields item (itemPath path i)
    rejectUnsupportedItems rest (i + 1) path

end

def unknownField (fieldPath : String) : String := "unknown config field ignored: " ++ fieldPath

mutual

def collectUnknownFields :
    Yaml → String → SchemaNode → List String → Except String (List String)
  | .mapping entries, path, schema, warnings => collectUnknownEntries entries path schema warnings
  | _, _, _, warnings => .ok warnings

def collectUnknownEntries :
    List (String × Yaml) → String → SchemaNode → List String → Except String (List String)
  | [], _, _, warnings => .ok warnings
  | (key, value) :: rest, path, schema, warnings => do
    D.checkKey lib key (joinPath path key)
    match schema.fields.lookup key with
    | none =>
      D.rejectUnsupportedFields lib value (joinPath path key)
      collectUnknownEntries rest path schema (warnings ++ [unknownField (joinPath path key)])
    -- A declared scalar or list: what stands below it is left to the decoder.
    | some none => collectUnknownEntries rest path schema warnings
    | some (some child) =>
      let warnings ← collectUnknownFields value (joinPath path key) child warnings
      collectUnknownEntries rest path schema warnings

end

mutual

def rejectDuplicateKeys : Yaml → String → Except String Unit
  | .mapping entries, path => rejectDuplicateEntries entries [] path
  | .sequence items, path => rejectDuplicateItems items 0 path
  | _, _ => .ok ()

def rejectDuplicateEntries :
    List (String × Yaml) → List String → String → Except String Unit
  | [], _, _ => .ok ()
  | (key, value) :: rest, seen, path => do
    require (key ∉ seen) ("duplicate YAML mapping key " ++ lib.quote key ++ " at " ++
      if path = "" then "<root>" else path)
    rejectDuplicateKeys value (joinPath path key)
    rejectDuplicateEntries rest (key :: seen) path

def rejectDuplicateItems : List Yaml → ℕ → String → Except String Unit
  | [], _, _ => .ok ()
  | item :: rest, i, path => do
    rejectDuplicateKeys item (itemPath path i)
    rejectDuplicateItems rest (i + 1) path

end

def isEmptyDocument : Yaml → Bool
  | .scalar tag value => tag = "!!null" || trimSpace value = ""
  | .mapping entries => entries.isEmpty
  | _ => false

def currentVersion : ℤ := 2

def checkVersion : Option Yaml → Except String Unit
  | none => throw "config version is required for non-empty YAML"
  | some (.scalar tag value) => do
    require (tag = "!!int") "config version must be an explicit integer"
    let version ← (D.decodeInt value).mapError ("config version must be an integer: " ++ ·)
    require (version = currentVersion)
      (if version = 1 then "config version 1 requires migration to version 2"
        else "unsupported config version " ++ toString version ++ "; expected " ++
          toString currentVersion)
  | some _ => throw "config version must be an explicit integer"

def parseMapping (entries : List (String × Yaml)) : Except String ParseResult := do
  rejectDuplicateKeys lib (.mapping entries) ""
  D.checkVersion (entries.lookup "version")
  require (entries.lookup "tailnets" |>.isNone) ("tailnets must be managed through the " ++
    "controller; migrate local configuration to version 2")
  let warnings ← D.collectUnknownFields lib (.mapping entries) "" rootSchema []
  let decoded ← (D.decode (.mapping entries)).mapError ("decode config: " ++ ·)
  lib.validate (lib.normalize decoded)
  return { config := lib.normalize decoded, warnings := warnings.insertionSort (· ≤ ·) }

def parseDocument (root : Yaml) : Except String ParseResult :=
  if isEmptyDocument root then .ok { config := lib.default, warnings := [] }
  else match root with
    | .mapping entries => D.parseMapping lib entries
    | _ => throw "config root must be a YAML mapping"

/-- `Parse` of the documents that the stream decodes to; its end is the end of the list. -/
def parse : List (Except String Yaml) → Except String ParseResult
  | [] => .ok { config := lib.default, warnings := [] }
  | .error e :: _ => throw ("parse config YAML: " ++ e)
  | [.ok root] => D.parseDocument lib root
  | .ok _ :: .ok _ :: _ => throw "config must contain exactly one YAML document"
  | .ok _ :: .error e :: _ => throw ("parse trailing YAML document: " ++ e)

end Decoder

/-- A node below another, through the values of mappings and the items of sequences. -/
inductive Yaml.Reaches : Yaml → Yaml → Prop
  | refl (t : Yaml) : Reaches t t
  | value {entries : List (String × Yaml)} {key : String} {v t : Yaml} :
      (key, v) ∈ entries → Reaches v t → Reaches (.mapping entries) t
  | item {items : List Yaml} {v t : Yaml} : v ∈ items → Reaches v t → Reaches (.sequence items) t

theorem Yaml.Reaches.closed {P : Yaml → Prop} {t m : Yaml} (hm : t.Reaches m)
    (hmapping : ∀ entries, P (.mapping entries) → ∀ e ∈ entries, P e.2)
    (hsequence : ∀ items, P (.sequence items) → ∀ v ∈ items, P v) (h : P t) : P m := by
  induction hm with
  | refl t => exact h
  | value he _ ih => exact ih (hmapping _ h _ he)
  | item hv _ ih => exact ih (hsequence _ h _ hv)

def Decoder.Unsupported (D : Decoder) (key : String) : Prop :=
  key = "<<" ∨ D.foldKey key ∈ unsupportedFields.map Prod.fst

/-- The keys that lead to a field which a mapping of the schema does not know. -/
inductive Unknown : SchemaNode → Yaml → List String → Prop
  | here {schema : SchemaNode} {entries : List (String × Yaml)} {key : String} {v : Yaml} :
      (key, v) ∈ entries → schema.fields.lookup key = none →
      Unknown schema (.mapping entries) [key]
  | inside {schema child : SchemaNode} {entries : List (String × Yaml)} {key : String} {v : Yaml}
      {keys : List String} :
      (key, v) ∈ entries → schema.fields.lookup key = some (some child) → Unknown child v keys →
      Unknown schema (.mapping entries) (key :: keys)

mutual

def unknownFields : SchemaNode → Yaml → List (List String)
  | schema, .mapping entries => unknownEntries schema entries
  | _, _ => []

def unknownEntries : SchemaNode → List (String × Yaml) → List (List String)
  | _, [] => []
  | schema, (key, value) :: rest =>
    (match schema.fields.lookup key with
      | none => [[key]]
      | some none => []
      | some (some child) => (unknownFields child value).map (key :: ·)) ++
    unknownEntries schema rest

end

namespace Decoder

variable {lib : HostLib} {D : Decoder}

theorem lookup_isNone_iff {α : Type} (l : List (String × α)) (key : String) :
    l.lookup key = none ↔ key ∉ l.map Prod.fst := by
  rw [List.lookup_eq_none_iff]
  simp only [List.mem_map, not_exists, not_and, bne_iff_ne]
  constructor
  · intro h p hp he
    exact h p hp he.symm
  · intro h p hp he
    exact h p hp he.symm

theorem supported_of_checkKey {key path : String} (h : D.checkKey lib key path = .ok ()) :
    ¬D.Unsupported key := by
  unfold checkKey at h
  split at h
  · cases h
  · rename_i hmerge
    split at h
    · cases h
    · rename_i hnone
      rw [lookup_isNone_iff] at hnone
      exact not_or.mpr ⟨hmerge, hnone⟩

theorem rejectUnsupportedEntries_ok {entries : List (String × Yaml)} {path : String}
    (h : D.rejectUnsupportedEntries lib entries path = .ok ()) :
    ∀ e ∈ entries, ¬D.Unsupported e.1 ∧ ∃ path, D.rejectUnsupportedFields lib e.2 path = .ok () := by
  induction entries with
  | nil => simp
  | cons e rest ih =>
    obtain ⟨key, value⟩ := e
    rw [rejectUnsupportedEntries] at h
    simp only [Except_bind_eq_ok] at h
    obtain ⟨⟨⟩, hkey, ⟨⟩, hvalue, hrest⟩ := h
    rw [List.forall_mem_cons]
    exact ⟨⟨supported_of_checkKey hkey, _, hvalue⟩, ih hrest⟩

theorem rejectUnsupportedItems_ok {items : List Yaml} {i : ℕ} {path : String}
    (h : D.rejectUnsupportedItems lib items i path = .ok ()) :
    ∀ t ∈ items, ∃ path, D.rejectUnsupportedFields lib t path = .ok () := by
  induction items generalizing i with
  | nil => simp
  | cons t rest ih =>
    rw [rejectUnsupportedItems] at h
    simp only [Except_bind_eq_ok] at h
    obtain ⟨⟨⟩, hitem, hrest⟩ := h
    rw [List.forall_mem_cons]
    exact ⟨⟨_, hitem⟩, ih hrest⟩

theorem rejectDuplicateEntries_ok {entries : List (String × Yaml)} {seen : List String}
    {path : String} (h : rejectDuplicateEntries lib entries seen path = .ok ()) :
    ((entries.map Prod.fst).Nodup ∧ ∀ key ∈ entries.map Prod.fst, key ∉ seen) ∧
      ∀ e ∈ entries, ∃ path, rejectDuplicateKeys lib e.2 path = .ok () := by
  induction entries generalizing seen with
  | nil => simp
  | cons e rest ih =>
    obtain ⟨key, value⟩ := e
    rw [rejectDuplicateEntries] at h
    simp only [Except_bind_eq_ok, require_eq_ok] at h
    obtain ⟨⟨⟩, hkey, ⟨⟩, hvalue, hrest⟩ := h
    obtain ⟨⟨hnodup, hfresh⟩, hvalues⟩ := ih hrest
    simp only [List.map_cons, List.nodup_cons, List.forall_mem_cons]
    refine ⟨⟨⟨?_, hnodup⟩, hkey, ?_⟩, ⟨_, hvalue⟩, hvalues⟩
    · intro hmem
      exact hfresh key hmem (List.mem_cons_self ..)
    · intro k hk hseen
      exact hfresh k hk (List.mem_cons_of_mem _ hseen)

theorem rejectDuplicateItems_ok {items : List Yaml} {i : ℕ} {path : String}
    (h : rejectDuplicateItems lib items i path = .ok ()) :
    ∀ t ∈ items, ∃ path, rejectDuplicateKeys lib t path = .ok () := by
  induction items generalizing i with
  | nil => simp
  | cons t rest ih =>
    rw [rejectDuplicateItems] at h
    simp only [Except_bind_eq_ok] at h
    obtain ⟨⟨⟩, hitem, hrest⟩ := h
    rw [List.forall_mem_cons]
    exact ⟨⟨_, hitem⟩, ih hrest⟩

theorem rejectDuplicateKeys_ok {t : Yaml} {path : String}
    (h : rejectDuplicateKeys lib t path = .ok ()) {entries : List (String × Yaml)}
    (hm : t.Reaches (.mapping entries)) : (entries.map Prod.fst).Nodup := by
  have hseen := hm.closed (P := fun t => ∃ path, rejectDuplicateKeys lib t path = .ok ())
    (by
      intro entries ⟨path, h⟩
      rw [rejectDuplicateKeys] at h
      exact (rejectDuplicateEntries_ok h).2)
    (by
      intro items ⟨path, h⟩
      rw [rejectDuplicateKeys] at h
      exact rejectDuplicateItems_ok h) ⟨path, h⟩
  obtain ⟨path', h'⟩ := hseen
  rw [rejectDuplicateKeys] at h'
  exact (rejectDuplicateEntries_ok h').1.1

theorem collectUnknownEntries_ok {entries : List (String × Yaml)} {path : String}
    {schema : SchemaNode} {ws ws' : List String}
    (h : D.collectUnknownEntries lib entries path schema ws = .ok ws') :
    ∀ e ∈ entries, ¬D.Unsupported e.1 ∧
      (schema.fields.lookup e.1 = none →
        ∃ path, D.rejectUnsupportedFields lib e.2 path = .ok ()) ∧
      ∀ child, schema.fields.lookup e.1 = some (some child) →
        ∃ path ws ws', D.collectUnknownFields lib e.2 path child ws = .ok ws' := by
  induction entries generalizing ws with
  | nil => simp
  | cons e rest ih =>
    obtain ⟨key, value⟩ := e
    rw [collectUnknownEntries] at h
    obtain ⟨⟨⟩, hkey, h⟩ := Except_bind_eq_ok.mp h
    have hkey := supported_of_checkKey hkey
    rw [List.forall_mem_cons]
    -- The key is unknown, a leaf of the schema, or a mapping of its own.
    split at h
    · rename_i hnone
      obtain ⟨⟨⟩, hvalue, hrest⟩ := Except_bind_eq_ok.mp h
      refine ⟨⟨hkey, fun _ => ⟨_, hvalue⟩, ?_⟩, ih hrest⟩
      intro child hchild
      rw [hnone] at hchild
      cases hchild
    · rename_i hleaf
      exact ⟨⟨hkey, by simp [hleaf], by simp [hleaf]⟩, ih h⟩
    · rename_i child hchild
      obtain ⟨ws₁, hvalue, hrest⟩ := Except_bind_eq_ok.mp h
      refine ⟨⟨hkey, by simp [hchild], ?_⟩, ih hrest⟩
      intro child' hchild'
      rw [hchild] at hchild'
      cases hchild'
      exact ⟨_, _, _, hvalue⟩

theorem fits_entries {entries : List (String × Yaml)} {fields : List (String × FieldType)}
    (h : (Yaml.mapping entries).fits (.record fields) = true) :
    ∀ e ∈ entries, ∀ type, fields.lookup e.1 = some type → e.2.fits type = true := by
  rw [Yaml.fits] at h
  induction entries with
  | nil => simp
  | cons e rest ih =>
    obtain ⟨key, value⟩ := e
    rw [Yaml.entriesFit, Bool.and_eq_true] at h
    rw [List.forall_mem_cons]
    refine ⟨?_, ih h.2⟩
    intro type htype
    simpa [htype] using h.1

theorem fits_items {items : List Yaml} (h : (Yaml.sequence items).fits .strings = true) :
    ∀ v ∈ items, v.fits .scalar = true := by
  rw [Yaml.fits] at h
  induction items with
  | nil => simp
  | cons v rest ih =>
    rw [Yaml.itemsFit, Bool.and_eq_true] at h
    rw [List.forall_mem_cons]
    exact ⟨h.1, ih h.2⟩

/-- Where a node of an accepted document stands: below an unknown field, at a mapping of the
schema, or at a field without fields, where the decoder has ruled out mappings. -/
def Covered (lib : HostLib) (D : Decoder) (t : Yaml) : Prop :=
  (∃ path, D.rejectUnsupportedFields lib t path = .ok ()) ∨
  (∃ fields path ws ws', t.fits (.record fields) = true ∧
    D.collectUnknownFields lib t path (.mk (FieldType.schema.fieldSchemas fields)) ws = .ok ws') ∨
  ∃ type : FieldType, type.schema = none ∧ t.fits type = true

theorem Covered.value {entries : List (String × Yaml)} (h : Covered lib D (.mapping entries)) :
    ∀ e ∈ entries, ¬D.Unsupported e.1 ∧ Covered lib D e.2 := by
  intro e he
  -- The mapping was walked without a schema or with one, or the decoder takes it for a scalar.
  rcases h with ⟨path, h⟩ | ⟨fields, path, ws, ws', hfits, h⟩ | ⟨type, htype, hfits⟩
  · rw [rejectUnsupportedFields] at h
    obtain ⟨hkey, hvalue⟩ := rejectUnsupportedEntries_ok h e he
    exact ⟨hkey, .inl hvalue⟩
  · rw [collectUnknownFields] at h
    obtain ⟨hkey, hunknown, hchild⟩ := collectUnknownEntries_ok h e he
    refine ⟨hkey, ?_⟩
    simp only [SchemaNode.fields, lookup_fieldSchemas] at hunknown hchild
    cases hl : fields.lookup e.1 with
    | none => exact .inl (hunknown (by rw [hl]; rfl))
    | some type =>
      have hfit := fits_entries hfits e he type hl
      cases hs : type.schema with
      | none => exact .inr (.inr ⟨type, hs, hfit⟩)
      | some child =>
        obtain ⟨path', ws₁, ws₂, hc⟩ := hchild child (by rw [hl, Option.map_some, hs])
        cases type with
        | record fields' =>
          cases hs
          exact .inr (.inl ⟨fields', path', ws₁, ws₂, hfit, hc⟩)
        | scalar => cases hs
        | strings => cases hs
  · cases type with
    | record fields => cases htype
    | scalar => simp [Yaml.fits] at hfits
    | strings => simp [Yaml.fits] at hfits

theorem Covered.item {items : List Yaml} (h : Covered lib D (.sequence items)) :
    ∀ v ∈ items, Covered lib D v := by
  rcases h with ⟨path, h⟩ | ⟨fields, path, ws, ws', hfits, h⟩ | ⟨type, htype, hfits⟩
  · rw [rejectUnsupportedFields] at h
    intro v hv
    exact .inl (rejectUnsupportedItems_ok h v hv)
  · simp [Yaml.fits] at hfits
  · cases type with
    | record fields => cases htype
    | scalar => simp [Yaml.fits] at hfits
    | strings =>
      intro v hv
      exact .inr (.inr ⟨.scalar, rfl, fits_items hfits v hv⟩)

theorem Covered.supported {t : Yaml} (h : Covered lib D t) {entries : List (String × Yaml)}
    (hm : t.Reaches (.mapping entries)) : ∀ e ∈ entries, ¬D.Unsupported e.1 := by
  have hc := hm.closed (fun _ h e he => (h.value e he).2) (fun _ h => h.item) h
  intro e he
  exact (hc.value e he).1

mutual

theorem collectUnknownFields_eq (t : Yaml) {path : String} {schema : SchemaNode}
    {ws ws' : List String} (h : D.collectUnknownFields lib t path schema ws = .ok ws') :
    ws' = ws ++ (unknownFields schema t).map fun keys =>
      unknownField (keys.foldl joinPath path) := by
  match t with
  | .mapping entries =>
    rw [collectUnknownFields] at h
    rw [unknownFields]
    exact collectUnknownEntries_eq entries h
  | .scalar _ _ | .sequence _ | .alias _ =>
    simp only [collectUnknownFields, Except.ok.injEq] at h
    simp [unknownFields, h]

theorem collectUnknownEntries_eq (entries : List (String × Yaml)) {path : String}
    {schema : SchemaNode} {ws ws' : List String}
    (h : D.collectUnknownEntries lib entries path schema ws = .ok ws') :
    ws' = ws ++ (unknownEntries schema entries).map fun keys =>
      unknownField (keys.foldl joinPath path) := by
  match entries with
  | [] =>
    simp only [collectUnknownEntries, Except.ok.injEq] at h
    simp [unknownEntries, h]
  | (key, value) :: rest =>
    rw [collectUnknownEntries] at h
    rw [unknownEntries]
    obtain ⟨⟨⟩, -, h⟩ := Except_bind_eq_ok.mp h
    split at h
    · obtain ⟨⟨⟩, -, hrest⟩ := Except_bind_eq_ok.mp h
      rw [collectUnknownEntries_eq rest hrest]
      simp
    · rw [collectUnknownEntries_eq rest h]
      simp
    · obtain ⟨ws₁, hvalue, hrest⟩ := Except_bind_eq_ok.mp h
      rw [collectUnknownEntries_eq rest hrest, collectUnknownFields_eq value hvalue]
      simp

end

def unknownAt (schema : SchemaNode) (e : String × Yaml) : List (List String) :=
  match schema.fields.lookup e.1 with
  | none => [[e.1]]
  | some none => []
  | some (some child) => (unknownFields child e.2).map (e.1 :: ·)

theorem unknownEntries_eq_flatMap (schema : SchemaNode) (entries : List (String × Yaml)) :
    unknownEntries schema entries = entries.flatMap (unknownAt schema) := by
  induction entries with
  | nil => rw [unknownEntries, List.flatMap_nil]
  | cons e rest ih => rw [unknownEntries, List.flatMap_cons, ih, unknownAt]

theorem head_of_mem_unknownAt {schema : SchemaNode} {e : String × Yaml} {keys : List String}
    (h : keys ∈ unknownAt schema e) : keys.head? = some e.1 := by
  unfold unknownAt at h
  split at h
  · rw [List.mem_singleton.mp h, List.head?_cons]
  · cases h
  · obtain ⟨tail, -, rfl⟩ := List.mem_map.mp h
    rw [List.head?_cons]

theorem mem_unknownFields {schema : SchemaNode} {t : Yaml} {keys : List String} :
    keys ∈ unknownFields schema t ↔ Unknown schema t keys := by
  constructor
  · intro h
    -- the walk follows the keys
    induction keys generalizing schema t with
    | nil =>
      cases t with
      | mapping entries =>
        rw [unknownFields, unknownEntries_eq_flatMap, List.mem_flatMap] at h
        obtain ⟨e, -, he⟩ := h
        cases head_of_mem_unknownAt he
      | _ => simp [unknownFields] at h
    | cons key rest ih =>
      cases t with
      | mapping entries =>
        rw [unknownFields, unknownEntries_eq_flatMap, List.mem_flatMap] at h
        obtain ⟨e, hmem, he⟩ := h
        unfold unknownAt at he
        split at he
        · rename_i hnone
          cases List.mem_singleton.mp he
          exact .here hmem hnone
        · cases he
        · rename_i child hchild
          obtain ⟨tail, htail, heq⟩ := List.mem_map.mp he
          cases heq
          exact .inside hmem hchild (ih htail)
      | _ => simp [unknownFields] at h
  · intro h
    induction h with
    | here hmem hnone =>
      rw [unknownFields, unknownEntries_eq_flatMap, List.mem_flatMap]
      exact ⟨_, hmem, by simp [unknownAt, hnone]⟩
    | inside hmem hchild _ ih =>
      rw [unknownFields, unknownEntries_eq_flatMap, List.mem_flatMap]
      exact ⟨_, hmem, by simpa [unknownAt, hchild] using ih⟩

mutual

theorem nodup_unknownFields (t : Yaml) (schema : SchemaNode)
    (h : ∀ entries, t.Reaches (.mapping entries) → (entries.map Prod.fst).Nodup) :
    (unknownFields schema t).Nodup := by
  match t with
  | .mapping entries =>
    rw [unknownFields]
    apply nodup_unknownEntries entries schema (h entries (.refl _))
    intro e he m hm
    exact h m (.value he hm)
  | .scalar _ _ | .sequence _ | .alias _ => simp [unknownFields]

theorem nodup_unknownEntries (entries : List (String × Yaml)) (schema : SchemaNode)
    (hkeys : (entries.map Prod.fst).Nodup)
    (h : ∀ e ∈ entries, ∀ m, e.2.Reaches (.mapping m) → (m.map Prod.fst).Nodup) :
    (unknownEntries schema entries).Nodup := by
  match entries with
  | [] => simp [unknownEntries]
  | (key, value) :: rest =>
    rw [List.map_cons, List.nodup_cons] at hkeys
    rw [List.forall_mem_cons] at h
    rw [unknownEntries]
    refine List.nodup_append.mpr ⟨?_, nodup_unknownEntries rest schema hkeys.2 h.2, ?_⟩
    · split
      · simp
      · simp
      · exact (nodup_unknownFields value _ h.1).map (List.cons_injective)
    · intro p hp q hq heq
      -- the paths of different entries start with different keys
      subst heq
      have hhead : p.head? = some key :=
        head_of_mem_unknownAt (show p ∈ unknownAt schema (key, value) from hp)
      rw [unknownEntries_eq_flatMap, List.mem_flatMap] at hq
      obtain ⟨e, he, hq⟩ := hq
      rw [head_of_mem_unknownAt hq] at hhead
      apply hkeys.1
      show key ∈ rest.map Prod.fst
      rw [← Option.some.inj hhead]
      exact List.mem_map_of_mem he

end

theorem not_reaches_of_isEmptyDocument {t : Yaml} (h : isEmptyDocument t = true)
    {entries : List (String × Yaml)} (hm : t.Reaches (.mapping entries)) : entries = [] := by
  cases hm with
  | refl => simpa [isEmptyDocument] using h
  | value he _ =>
    simp only [isEmptyDocument, List.isEmpty_iff] at h
    subst h
    cases he
  | item => cases h

theorem unknownFields_of_isEmptyDocument {t : Yaml} (h : isEmptyDocument t = true)
    (schema : SchemaNode) : unknownFields schema t = [] := by
  cases t with
  | mapping entries =>
    simp only [isEmptyDocument, List.isEmpty_iff] at h
    rw [h, unknownFields, unknownEntries]
  | _ => simp [unknownFields]

theorem parseDocument_ok {t : Yaml} {r : ParseResult} (h : D.parseDocument lib t = .ok r) :
    (isEmptyDocument t = true ∧ r.warnings = []) ∨
    ((∃ path, rejectDuplicateKeys lib t path = .ok ()) ∧ t.fits (.record configType) = true ∧
      ∃ ws, D.collectUnknownFields lib t "" rootSchema [] = .ok ws ∧
        r.warnings = ws.insertionSort (· ≤ ·)) := by
  unfold parseDocument at h
  split at h
  · rename_i hempty
    cases h
    exact .inl ⟨hempty, rfl⟩
  · split at h
    · rename_i entries _
      unfold parseMapping at h
      simp only [Except_bind_eq_ok, mapError_eq_ok, Except_pure_eq_ok] at h
      obtain ⟨⟨⟩, hdup, -, -, -, -, ws, hws, c, hdecode, -, -, rfl⟩ := h
      exact .inr ⟨⟨_, hdup⟩, D.decode_fits _ _ hdecode, ws, hws, rfl⟩
    · cases h

/-- A parsed configuration has its defaults and passes the checks. -/
theorem parse_valid {documents : List (Except String Yaml)} {r : ParseResult}
    (h : D.parse lib documents = .ok r) :
    lib.normalize r.config = r.config ∧ lib.validate r.config = .ok () := by
  have hdefault : lib.normalize lib.default = lib.default := lib.normalize_idem _
  unfold parse at h
  split at h
  · cases h
    exact ⟨hdefault, lib.validate_default⟩
  · cases h
  · unfold parseDocument at h
    split at h
    · cases h
      exact ⟨hdefault, lib.validate_default⟩
    · split at h
      · unfold parseMapping at h
        simp only [Except_bind_eq_ok, Except_pure_eq_ok] at h
        obtain ⟨-, -, -, -, -, -, -, -, c, -, ⟨⟩, hvalid, rfl⟩ := h
        exact ⟨lib.normalize_idem c, hvalid⟩
      · cases h
  · cases h
  · cases h

theorem supported_of_parseDocument {t : Yaml} {r : ParseResult}
    (h : D.parseDocument lib t = .ok r) {entries : List (String × Yaml)}
    (hm : t.Reaches (.mapping entries)) :
    (∀ e ∈ entries, ¬D.Unsupported e.1) ∧ (entries.map Prod.fst).Nodup := by
  rcases parseDocument_ok h with ⟨hempty, -⟩ | ⟨⟨path, hdup⟩, hfits, ws, hws, -⟩
  · rw [not_reaches_of_isEmptyDocument hempty hm]
    simp
  · have hcovered : Covered lib D t :=
      .inr (.inl ⟨configType, "", [], ws, hfits, by rw [← hws]; rfl⟩)
    exact ⟨hcovered.supported hm, rejectDuplicateKeys_ok hdup hm⟩

theorem warnings_of_parseDocument {t : Yaml} {r : ParseResult}
    (h : D.parseDocument lib t = .ok r) :
    r.warnings = ((unknownFields rootSchema t).map fun keys =>
      unknownField (keys.foldl joinPath "")).insertionSort (· ≤ ·) := by
  rcases parseDocument_ok h with ⟨hempty, hw⟩ | ⟨-, -, ws, hws, hw⟩
  · rw [hw, unknownFields_of_isEmptyDocument hempty]
    rfl
  · rw [hw, collectUnknownFields_eq t hws, List.nil_append]

/-- A document with a merge key, an unsupported field or a duplicate key anywhere is refused; the
warnings of an accepted one name its unknown fields, each once and in order. -/
theorem every_field_seen (lib : HostLib) (D : Decoder) (t : Yaml) :
    (∀ entries, t.Reaches (.mapping entries) →
      (∃ e ∈ entries, D.Unsupported e.1) ∨ ¬(entries.map Prod.fst).Nodup →
      ∃ err, D.parse lib [.ok t] = .error err) ∧
    ∀ r, D.parse lib [.ok t] = .ok r →
      ∃ fields : List (List String), fields.Nodup ∧
        (∀ keys, keys ∈ fields ↔ Unknown rootSchema t keys) ∧
        r.warnings.Perm (fields.map fun keys => unknownField (keys.foldl joinPath "")) ∧
        r.warnings.Pairwise (· ≤ ·) := by
  constructor
  · intro entries hm hbad
    cases h : D.parse lib [.ok t] with
    | error err => exact ⟨err, rfl⟩
    | ok r =>
      obtain ⟨hkeys, hnodup⟩ := supported_of_parseDocument h hm
      rcases hbad with ⟨e, he, hkey⟩ | hdup
      · exact absurd hkey (hkeys e he)
      · exact absurd hnodup hdup
  · intro r h
    refine ⟨unknownFields rootSchema t, ?_, fun _ => mem_unknownFields, ?_, ?_⟩
    · apply nodup_unknownFields
      intro entries hm
      exact (supported_of_parseDocument h hm).2
    · rw [warnings_of_parseDocument h]
      exact List.perm_insertionSort _ _
    · rw [warnings_of_parseDocument h]
      exact List.pairwise_insertionSort _ _

def scalarAt (entries : List (String × Yaml)) (key : String) : Option String :=
  match entries.lookup key with
  | some (.scalar _ value) => some value
  | _ => none

def decodeController (entries : List (String × Yaml)) : ControllerConfig where
  enabled := scalarAt entries "enabled" = some "true"
  allowedNodeCIDRs := match entries.lookup "allowed_node_cidrs" with
    | some (.sequence items) => some (items.map fun item => match item with
      | .scalar _ value => value
      | _ => "")
    | _ => none

def decodeConfig : Yaml → Config
  | .mapping entries =>
    { version := if scalarAt entries "version" = some "2" then 2 else 0
      setupRequired := scalarAt entries "setup_required" = some "true"
      controller := match entries.lookup "controller" with
        | some (.mapping fields) => some (decodeController fields)
        | _ => none }
  | _ => {}

/-- A decoder for these fields that knows one version; the other fields stay empty. -/
def plain : Decoder where
  lower := Char.toLower
  decodeInt s := if s = "2" then .ok 2 else .error "cannot unmarshal"
  decode t := do
    require (t.fits (.record configType) = true) "cannot unmarshal"
    return decodeConfig t
  decode_fits t c h := by
    simp only [Except_bind_eq_ok, require_eq_ok] at h
    obtain ⟨-, hfits, -⟩ := h
    exact hfits

def withUnknown (below : String) : Yaml :=
  .mapping [("version", .scalar "!!int" "2"), ("extra", .mapping [(below, .scalar "!!str" "x")]),
    ("storage", .mapping [("size", .scalar "!!int" "1")])]

/-- An unsupported field is found below an unknown one; without it the two unknown fields are
named. -/
theorem plain_fields_seen :
    (∃ err, plain.parse HostLib.plain [.ok (withUnknown "Mesh-With")] = .error err) ∧
    ∃ r, plain.parse HostLib.plain [.ok (withUnknown "note")] = .ok r ∧
      r.warnings = [unknownField "extra", unknownField "storage.size"] ∧
      ∃ fields : List (List String), fields.Nodup ∧
        (∀ keys, keys ∈ fields ↔ Unknown rootSchema (withUnknown "note") keys) ∧
        r.warnings.Perm (fields.map fun keys => unknownField (keys.foldl joinPath "")) := by
  constructor
  · refine (every_field_seen HostLib.plain plain _).1 [("Mesh-With", .scalar "!!str" "x")]
      (.value (List.mem_cons_of_mem _ List.mem_cons_self) (.refl _))
      (.inl ⟨_, List.mem_singleton.mpr rfl, .inr ?_⟩)
    decide +kernel
  · have hplay : (plain.parse HostLib.plain [.ok (withUnknown "note")]).toOption.map
        (·.warnings) = some [unknownField "extra", unknownField "storage.size"] := by
      decide +kernel
    obtain ⟨r, hr, hwarnings⟩ := Option.map_eq_some_iff.mp hplay
    rw [toOption_eq_some] at hr
    obtain ⟨fields, hnodup, hfields, hperm, -⟩ :=
      (every_field_seen HostLib.plain plain _).2 r hr
    exact ⟨r, hr, hwarnings, fields, hnodup, hfields, hperm⟩

end Decoder

end UniDERP
