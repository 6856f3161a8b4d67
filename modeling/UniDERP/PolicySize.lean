import Mathlib.Data.Nat.Digits.Defs
import Mathlib.Data.Nat.Digits.Lemmas
import UniDERP.Policy

namespace UniDERP

abbrev Bytes := List UInt8

def maxPolicyBytes : ℕ := 8 * 2 ^ 20

/-- The bytes of one character of a JSON string, with the HTML characters escaped. -/
def charSize (c : Char) : ℕ :=
  if c ∈ ['"', '\\', '\x08', '\x0c', '\n', '\r', '\t'] then 2
  else if c < ' ' ∨ c ∈ ['<', '>', '&', '\u2028', '\u2029'] then 6
  else c.utf8Size

def stringSize (s : String) : ℕ := 2 + (s.toList.map charSize).sum

def numberSize (n : ℕ) : ℕ := max 1 (Nat.digits 10 n).length

/-- Digits left of `d` fractional digits once trailing zeros are dropped. -/
def fractionDigits : ℕ → ℕ → ℕ
  | 0, _ => 0
  | d + 1, n => if n % 10 = 0 then fractionDigits d (n / 10) else d + 1

def fractionSize (nanos : ℕ) : ℕ := if nanos = 0 then 0 else 1 + fractionDigits 9 nanos

def timeSize (t : Stamp) : ℕ :=
  21 + fractionSize (t.time % second).toNat + (if t.zone = 0 then 1 else 6)

/-- The times that have a JSON text: years 0 to 9999 where they are written. -/
def validTime (t : Stamp) : Bool :=
  let s := unix t.time + t.zone * 60
  decide (-62167219200 ≤ s ∧ s < 253402300800 ∧ t.zone.natAbs < 24 * 60)

def objectSize (fields : List (String × ℕ)) : ℕ :=
  2 + (fields.map fun f => f.1.utf8ByteSize + 3 + f.2).sum + (fields.length - 1)

def arraySize (items : List ℕ) : ℕ := 2 + items.sum + (items.length - 1)

def keySize (k : DeviceKey) : ℕ :=
  objectSize [("node_public", stringSize k.nodePublic), ("not_after", timeSize k.notAfter)]

def grantSize (g : GrantPolicy) : ℕ :=
  objectSize [("grant_id", stringSize g.grantID), ("grant_revision", numberSize g.grantRevision),
    ("tailnet_id", stringSize g.tailnetID),
    ("last_identity_success", timeSize (.utc g.lastIdentitySuccess)),
    ("identity_until", timeSize (.utc g.identityUntil)),
    ("control_until", timeSize (.utc g.controlUntil)),
    ("explicit_until", timeSize (.utc g.explicitUntil)), ("keys", arraySize (g.keys.map keySize))]

def Group.text : Group → String
  | .owner => "owner"
  | .shared => "shared"
  | .other name => name

def ruleSize (t : TailnetQoS) : ℕ :=
  objectSize [("tailnet_id", stringSize t.tailnetID), ("group", stringSize t.group.text),
    ("weight", numberSize t.weight), ("max_bps", numberSize t.maxBPS)]

def qosSize (q : QoSPolicy) : ℕ :=
  objectSize [("budget_bps", numberSize q.budgetBPS), ("owner_weight", numberSize q.ownerWeight),
    ("shared_weight", numberSize q.sharedWeight), ("shared_max_bps", numberSize q.sharedMaxBPS),
    ("tailnets", arraySize (q.tailnets.map ruleSize))]

def policySize (p : Policy) : ℕ :=
  objectSize [("cluster_id", stringSize p.clusterID), ("node_id", stringSize p.nodeID),
    ("revision", numberSize p.revision), ("generated_at", timeSize (.utc p.generatedAt)),
    ("grants", arraySize (p.grants.map grantSize)), ("qos", qosSize p.qos)]

def validTimes (g : GrantPolicy) : Bool :=
  validTime (.utc g.lastIdentitySuccess) && validTime (.utc g.identityUntil) &&
    validTime (.utc g.controlUntil) && validTime (.utc g.explicitUntil) &&
    g.keys.all fun k => validTime k.notAfter

/-- `json.Marshal` succeeds. -/
def marshals (p : Policy) : Bool := validTime (.utc p.generatedAt) && p.grants.all validTimes

theorem numberSize_succ_le (n : ℕ) : numberSize (n + 1) ≤ numberSize n + 1 := by
  have hn : n < 10 ^ (Nat.digits 10 n).length := Nat.lt_base_pow_length_digits (by omega)
  have hsucc : (Nat.digits 10 (n + 1)).length ≤ (Nat.digits 10 n).length + 1 := by
    rw [Nat.digits_length_le_iff (by omega), Nat.pow_succ]
    omega
  unfold numberSize
  omega

theorem fractionDigits_le (d n : ℕ) : fractionDigits d n ≤ d := by
  induction d generalizing n with
  | zero => simp [fractionDigits]
  | succ d ih =>
    rw [fractionDigits]
    split_ifs
    · exact (ih _).trans (Nat.le_succ d)
    · exact le_rfl

theorem timeSize_utc_le (t t' : Int) : timeSize (.utc t) ≤ timeSize (.utc t') + 10 := by
  have hfraction : fractionSize (t % second).toNat ≤ 10 := by
    unfold fractionSize
    have h := fractionDigits_le 9 (t % second).toNat
    split_ifs <;> omega
  simp only [timeSize, Stamp.utc]
  omega

theorem arraySize_le {xs ys : List ℕ} (h : xs.Sublist ys) : arraySize xs ≤ arraySize ys := by
  have hsum := h.sum_le_sum fun x _ => Nat.zero_le x
  have hlen := h.length_le
  unfold arraySize
  omega

theorem arraySize_add_le {m : ℕ} {xs ys : List ℕ} (h : xs.Sublist ys) (hlt : xs.length < ys.length)
    (hm : ∀ y ∈ ys, m ≤ y) : arraySize xs + m ≤ arraySize ys := by
  have hsum : xs.sum + m ≤ ys.sum := by
    induction h with
    | slnil => simp at hlt
    | @cons xs ys y h ih =>
      have hrest := h.sum_le_sum fun x _ => Nat.zero_le x
      have hy := hm y List.mem_cons_self
      rw [List.sum_cons]
      omega
    | @cons_cons xs ys y h ih =>
      have hrest := ih (by simpa using hlt) fun x hx => hm x (List.mem_cons_of_mem _ hx)
      rw [List.sum_cons, List.sum_cons]
      omega
  unfold arraySize
  omega

theorem grantSize_ge (g : GrantPolicy) : 33 ≤ grantSize g := by
  simp only [grantSize, objectSize, List.map_cons, List.sum_cons, List.map_nil, List.sum_nil,
    List.length_cons, List.length_nil]
  omega

theorem policySize_narrow {p q : Policy} (hcluster : q.clusterID = p.clusterID)
    (hnode : q.nodeID = p.nodeID) (hrevision : q.revision = p.revision + 1)
    (hgrants : q.grants.Sublist p.grants) (hfewer : q.grants.length < p.grants.length)
    (hqos : q.qos = { p.qos with tailnets := q.qos.tailnets })
    (htailnets : q.qos.tailnets.Sublist p.qos.tailnets) : policySize q ≤ policySize p := by
  have hnumber := numberSize_succ_le p.revision
  have htime := timeSize_utc_le q.generatedAt p.generatedAt
  have hgrantsSize := arraySize_add_le (m := 33) (hgrants.map grantSize) (by simpa using hfewer)
    (by simp [grantSize_ge])
  have hrules := arraySize_le (htailnets.map ruleSize)
  have hqosSize : qosSize q.qos ≤ qosSize p.qos := by
    rw [hqos]
    simp only [qosSize, objectSize, List.map_cons, List.sum_cons, List.map_nil, List.sum_nil,
      List.length_cons, List.length_nil]
    omega
  simp only [policySize, objectSize, List.map_cons, List.sum_cons, List.map_nil, List.sum_nil,
    List.length_cons, List.length_nil, hcluster, hnode, hrevision]
  omega

-- The policy of `testdata/policy.json`, whose text has 769 bytes.
example : policySize
    { clusterID := "cluster", nodeID := "node", revision := 7
      generatedAt := ofUnix 1790985600
      grants := [{
        grantID := "grant", grantRevision := 3, tailnetID := "tailnet"
        lastIdentitySuccess := ofUnix 1790985600, identityUntil := ofUnix 1791007200
        controlUntil := ofUnix 1790996400, explicitUntil := ofUnix 1791000000
        keys := [
          ⟨"nodekey:0101010101010101010101010101010101010101010101010101010101010101",
            .utc (ofUnix 1790992800)⟩,
          ⟨"nodekey:0202020202020202020202020202020202020202020202020202020202020202",
            .utc zeroTime⟩] }]
      qos := {
        budgetBPS := 100000000, ownerWeight := 8, sharedWeight := 2, sharedMaxBPS := 40000000
        tailnets := [⟨"tailnet", .owner, 2, 20000000⟩] } } = 769 := by decide +kernel

end UniDERP
