import UniDERP.Library.Encode
import UniDERP.Library.Hex
import UniDERP.PolicySize

namespace UniDERP

def nodePublicHexPrefix : String := "nodekey:"

/-- `UnmarshalText` of `key.NodePublic`, whose 32 bytes are one number here. -/
def unmarshalNodePublic (text : String) : Option ℕ :=
  let digits := text.toList.drop 8
  if text.toList.take 8 = nodePublicHexPrefix.toList ∧ digits.length = 64 then readHex 0 digits
  else none

def nodePublicString (pub : ℕ) : String :=
  nodePublicHexPrefix ++ String.ofList (writeHex 64 pub)

theorem unmarshalNodePublic_string {text : String} {pub : ℕ}
    (h : unmarshalNodePublic text = some pub) :
    unmarshalNodePublic (nodePublicString pub) = some pub := by
  have hlt : pub < 16 ^ 64 := by
    simp only [unmarshalNodePublic, Option.ite_none_right_eq_some] at h
    obtain ⟨⟨-, hlength⟩, hread⟩ := h
    simpa [hlength] using readHex_lt hread
  have hlist : (nodePublicString pub).toList = nodePublicHexPrefix.toList ++ writeHex 64 pub := by
    rw [nodePublicString, String.toList_append, String.toList_ofList]
  have hlength : nodePublicHexPrefix.toList.length = 8 := rfl
  simp only [unmarshalNodePublic, hlist]
  rw [← hlength, List.take_left, List.drop_left, length_writeHex, readHex_writeHex,
    Nat.mod_eq_of_lt hlt]
  rfl

/-- The functions that read and write policy texts: parsers, an encoder that the parser inverts, a
digest without collisions, and what passes for the text of one, which is 64 hexadecimal digits. -/
structure Wire where
  unmarshalText : String → Option ℕ
  marshal : Policy → Bytes
  unmarshal : Bytes → Option Policy
  unmarshal_marshal : ∀ p, marshals p → unmarshal (marshal p) = some p
  sha256 : Bytes → String
  sha256_injective : Function.Injective sha256
  isDigest : String → Bool
  isDigest_sha256 : ∀ body, isDigest (sha256 body) = true

theorem Wire.marshal_inj {W : Wire} {p q : Policy} (hp : marshals p) (hq : marshals q)
    (h : W.marshal p = W.marshal q) : p = q := by
  have hpq := W.unmarshal_marshal p hp
  rw [h, W.unmarshal_marshal q hq] at hpq
  exact (Option.some.inj hpq).symm

deriving instance Countable for Stamp
deriving instance Countable for Group
deriving instance Countable for DeviceKey
deriving instance Countable for GrantPolicy
deriving instance Countable for TailnetQoS
deriving instance Countable for QoSPolicy
deriving instance Countable for Policy

/-- Texts of one byte for a few policies. -/
noncomputable def Wire.listing (ps : List Policy) : Wire where
  unmarshalText := unmarshalNodePublic
  marshal p :=
    if p ∈ ps.take 256 then [.ofNat ((ps.take 256).idxOf p)]
    else 0 :: 0 :: (exists_injective Policy Bytes).choose p
  unmarshal
    | [i] => ps[i.toNat]?
    | 0 :: 0 :: text => (exists_injective Policy Bytes).choose.partialInv text
    | _ => none
  unmarshal_marshal p _ := by
    by_cases hp : p ∈ ps.take 256
    · have hlt := List.idxOf_lt_length_of_mem hp
      have hsmall : (ps.take 256).idxOf p < 256 := hlt.trans_le (List.length_take_le _ _)
      have hget := List.getElem_idxOf hlt
      rw [List.getElem_take] at hget
      simp only [if_pos hp, UInt8.toNat_ofNat_of_lt' hsmall]
      rw [List.getElem?_eq_getElem (hlt.trans_le (List.length_take_le' _ _)), hget]
    · simp only [if_neg hp]
      exact Function.partialInv_left (exists_injective Policy Bytes).choose_spec _
  sha256 body := "0" ++ (exists_injective Bytes String).choose body
  sha256_injective a b h := (exists_injective Bytes String).choose_spec (by simpa using h)
  isDigest digest := digest ≠ ""
  isDigest_sha256 body := by simp

/-- `DecodePolicy` and `DecodeUniDERPPolicy`, which are the same text. -/
def Wire.decodePolicy (W : Wire) (body : Bytes) (clusterID nodeID : String) :
    Except String Policy := do
  require (body.length ≤ maxPolicyBytes) "policy unreadable or too large"
  let p ← orElse (W.unmarshal body) "decode policy"
  validatePolicy W.unmarshalText p clusterID nodeID
  pure p

theorem Wire.decodePolicy_eq_ok {W : Wire} {body : Bytes} {clusterID nodeID : String} {p : Policy} :
    W.decodePolicy body clusterID nodeID = .ok p ↔ body.length ≤ maxPolicyBytes ∧
      W.unmarshal body = some p ∧ WellFormed W.unmarshalText p clusterID nodeID := by
  simp only [Wire.decodePolicy, Except_bind_eq_ok, require_eq_ok, orElse_eq_ok, exists_const,
    validatePolicy_eq_ok, Except_pure_eq_ok]
  constructor
  · rintro ⟨hlen, q, hq, hw, rfl⟩
    exact ⟨hlen, hq, hw⟩
  · rintro ⟨hlen, hp, hw⟩
    exact ⟨hlen, p, hp, hw, rfl⟩

end UniDERP
