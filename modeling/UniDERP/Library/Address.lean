import Mathlib.Data.List.DropRight
import Mathlib.Tactic

namespace UniDERP

inductive Addr
  | invalid
  | v4 (bits : BitVec 32)
  | v6 (bits : BitVec 128) (zone : String)
  deriving DecidableEq, Repr

namespace Addr

def quad (a b c d : ℕ) : Addr := .v4 (.ofNat 32 (a * 2 ^ 24 + b * 2 ^ 16 + c * 2 ^ 8 + d))

def isValid : Addr → Bool
  | .invalid => false
  | _ => true

/-- An IPv4 address in IPv6 form, such as `::ffff:192.0.2.1`. -/
def is4In6 : Addr → Bool
  | .v6 bits _ => bits.toNat / 2 ^ 32 = 0xffff
  | _ => false

def mapped (bits : BitVec 32) : Addr := .v6 (.ofNat 128 (0xffff * 2 ^ 32 + bits.toNat)) ""

def unmap : Addr → Addr
  | .v6 bits zone => if (Addr.v6 bits zone).is4In6 then .v4 (.ofNat 32 bits.toNat) else .v6 bits zone
  | ip => ip

def isLoopback : Addr → Bool
  | .invalid => false
  | .v4 bits => bits.toNat / 2 ^ 24 = 127
  | .v6 bits _ => bits.toNat = 1

def isMulticast : Addr → Bool
  | .invalid => false
  | .v4 bits => bits.toNat / 2 ^ 28 = 0xe
  | .v6 bits _ => bits.toNat / 2 ^ 120 = 0xff

def isLinkLocalUnicast : Addr → Bool
  | .invalid => false
  | .v4 bits => bits.toNat / 2 ^ 16 = 0xa9fe
  | .v6 bits _ => bits.toNat / 2 ^ 118 = 0x3fa

def isPrivate : Addr → Bool
  | .invalid => false
  | .v4 bits => bits.toNat / 2 ^ 24 = 10 || bits.toNat / 2 ^ 20 = 0xac1 ||
      bits.toNat / 2 ^ 16 = 0xc0a8
  | .v6 bits _ => bits.toNat / 2 ^ 121 = 0x7e

/-- Neither unspecified nor broadcast, loopback, multicast or link-local. -/
def isGlobalUnicast (ip : Addr) : Bool :=
  ip.isValid && ip ≠ quad 0 0 0 0 && ip ≠ quad 255 255 255 255 && ip ≠ .v6 0 "" &&
    !ip.isLoopback && !ip.isMulticast && !ip.isLinkLocalUnicast

theorem unmap_v6 {bits : BitVec 128} {zone : String} (h : bits.toNat / 2 ^ 32 ≠ 0xffff) :
    (Addr.v6 bits zone).unmap = .v6 bits zone :=
  if_neg (by simpa only [is4In6, decide_eq_true_eq] using h)

theorem unmap_of_not_is4In6 {ip : Addr} (h : ip.is4In6 = false) : ip.unmap = ip := by
  cases ip with
  | invalid => rfl
  | v4 bits => rfl
  | v6 bits zone => exact if_neg (by simp [h])

theorem unmap_mapped (bits : BitVec 32) : (mapped bits).unmap = .v4 bits := by
  have hlt := bits.isLt
  have hnat : (0xffff * 2 ^ 32 + bits.toNat) % 2 ^ 128 = 0xffff * 2 ^ 32 + bits.toNat :=
    Nat.mod_eq_of_lt (by omega)
  have hfour : (mapped bits).is4In6 = true := by
    simp only [mapped, is4In6, BitVec.toNat_ofNat, hnat, decide_eq_true_eq]
    omega
  have hlow : BitVec.ofNat 32 (0xffff * 2 ^ 32 + bits.toNat) = bits := by
    apply BitVec.eq_of_toNat_eq
    rw [BitVec.toNat_ofNat]
    omega
  rw [mapped] at hfour ⊢
  rw [unmap, if_pos hfour, BitVec.toNat_ofNat, hnat, hlow]

end Addr

structure Cidr where
  addr : Addr
  bits : ℕ
  deriving DecidableEq, Repr

def Cidr.contains : Cidr → Addr → Bool
  | ⟨.v4 net, n⟩, .v4 ip => n ≤ 32 && ip.toNat / 2 ^ (32 - n) = net.toNat / 2 ^ (32 - n)
  | ⟨.v6 net _, n⟩, .v6 ip zone =>
    n ≤ 128 && zone = "" && ip.toNat / 2 ^ (128 - n) = net.toNat / 2 ^ (128 - n)
  | _, _ => false

/-- What is before and after the last `a`. -/
def cutLast {α : Type} [DecidableEq α] (a : α) (l : List α) : Option (List α × List α) :=
  if a ∈ l then some ((l.rdropWhile (· ≠ a)).dropLast, l.rtakeWhile (· ≠ a)) else none

/-- `net.SplitHostPort`: the port follows the last colon, and a host with colons stands in
brackets. -/
def splitHostPort (hostport : String) : Option (String × String) :=
  match cutLast ':' hostport.toList with
  | none => none
  | some (before, port) =>
    if before.head? = some '[' then
      let host := (before.drop 1).dropLast
      if before.getLast? = some ']' ∧ ']' ∉ host ∧ '[' ∉ host ∧ '[' ∉ port ∧ ']' ∉ port then
        some (.ofList host, .ofList port)
      else none
    else if ':' ∉ before ∧ '[' ∉ before ++ port ∧ ']' ∉ before ++ port then
      some (.ofList before, .ofList port)
    else none

def joinHostPort (host port : String) : String :=
  if host.toList.contains ':' then "[" ++ host ++ "]:" ++ port else host ++ ":" ++ port

example : splitHostPort "[::1]:443" = some ("::1", "443") ∧ splitHostPort "::1:443" = none ∧
    splitHostPort "relay:" = some ("relay", "") := by decide +kernel

end UniDERP
