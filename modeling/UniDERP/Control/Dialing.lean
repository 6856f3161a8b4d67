import UniDERP.Library.Address
import UniDERP.Control.DomainNames

/-!
# Connections to node domains

The controller connects to domains that the owners of nodes choose, with answers of name servers
that may change from one lookup to the next.  Every connection goes to an address of one answer
that was checked as a whole, and the remote end is compared with it.
-/

namespace UniDERP

structure Conn where
  remote : String
  deriving DecidableEq, Repr

/-- A verifier with what it calls: the text forms of addresses, what each lookup answers, how each
dial ends, and whether the STUN exchange on a connection succeeds. -/
structure DomainVerifier where
  names : NameRules
  allowedCIDRs : List Cidr
  addrString : Addr → String
  parseAddr : String → Option Addr
  lookup : ℕ → String → String → Option (List Addr)
  dial : ℕ → String → String → Option Conn
  exchange : ℕ → Conn → Bool

/-- What has been looked up, and the networks and targets that have been dialed. -/
structure Traffic where
  lookups : List String
  dials : List (String × String)
  deriving DecidableEq, Repr

inductive DialErr
  | invalid
  | failed (text : String)
  deriving DecidableEq, Repr

def restrictedNodeRanges : List Cidr := [
  ⟨.quad 0 0 0 0, 8⟩, ⟨.quad 100 64 0 0, 10⟩, ⟨.quad 192 0 0 0, 24⟩, ⟨.quad 192 0 2 0, 24⟩,
  ⟨.quad 198 18 0 0, 15⟩, ⟨.quad 198 51 100 0, 24⟩, ⟨.quad 203 0 113 0, 24⟩,
  ⟨.v6 0x20010db8000000000000000000000000 "", 32⟩,
  ⟨.v6 0xfec00000000000000000000000000000 "", 10⟩]

/-- `100.100.100.200` and `fd00:ec2::254`. -/
def metadataAddrs : List Addr :=
  [.quad 100 100 100 200, .v6 0xfd000ec2000000000000000000000254 ""]

namespace DomainVerifier

def allowed (v : DomainVerifier) (ip : Addr) : Bool :=
  let ip := ip.unmap
  if !ip.isValid || !ip.isGlobalUnicast || ip.isLoopback || ip.isLinkLocalUnicast ||
      metadataAddrs.contains ip then false
  else
    let restricted := ip.isPrivate || restrictedNodeRanges.any (·.contains ip)
    if !restricted then true else v.allowedCIDRs.any (·.contains ip)

def resolve (v : DomainVerifier) (domain : String) (t : Traffic) :
    Traffic × Except DialErr (List Addr) :=
  match v.names.normalize domain with
  | none => (t, .error .invalid)
  | some _ =>
    let t' := { t with lookups := t.lookups ++ [domain] }
    match v.lookup t.lookups.length "ip" domain with
    | none | some [] => (t', .error (.failed "node domain cannot be resolved"))
    | some ips =>
      if ips.all v.allowed then (t', .ok ips)
      else (t', .error (.failed "node domain resolves to a disallowed address"))

def sameTarget (v : DomainVerifier) (conn : Conn) (ip : Addr) (port : String) : Bool :=
  match splitHostPort conn.remote with
  | none => false
  | some (host, remotePort) =>
    match v.parseAddr host with
    | none => false
    | some remote => remote.unmap = ip.unmap && remotePort = port && v.allowed remote

/-- The loop of `dialDomainPort` and of `probeSTUN`: they give up when a connection leads elsewhere,
and go on to the next address when `use` has no result. -/
def dialEach {α : Type} (v : DomainVerifier) (network port changed failed : String)
    (use : ℕ → Conn → Option α) : List Addr → Traffic → Traffic × Except DialErr α
  | [], t => (t, .error (.failed failed))
  | ip :: ips, t =>
    let target := joinHostPort (v.addrString ip) port
    let t' := { t with dials := t.dials ++ [(network, target)] }
    match v.dial t.dials.length network target with
    | none => v.dialEach network port changed failed use ips t'
    | some conn =>
      if !v.sameTarget conn ip port then (t', .error (.failed changed))
      else
        match use t.dials.length conn with
        | none => v.dialEach network port changed failed use ips t'
        | some a => (t', .ok a)

def dialDomainPort (v : DomainVerifier) (network address expectedPort : String) (t : Traffic) :
    Traffic × Except DialErr Conn :=
  match splitHostPort address with
  | none => (t, .error .invalid)
  | some (domain, port) =>
    if network ≠ "tcp" ∨ port ≠ expectedPort then (t, .error .invalid)
    else
      match v.resolve domain t with
      | (t, .error e) => (t, .error e)
      | (t, .ok ips) =>
        v.dialEach "tcp" port "node connection target changed" "node domain connection failed"
          (fun _ conn => some conn) ips t

def dialDomain (v : DomainVerifier) (network address : String) (t : Traffic) :
    Traffic × Except DialErr Conn :=
  v.dialDomainPort network address "443" t

def probeSTUN (v : DomainVerifier) (domain : String) (port : ℕ) (t : Traffic) :
    Traffic × Except DialErr Unit :=
  match v.resolve domain t with
  | (t, .error e) => (t, .error e)
  | (t, .ok ips) =>
    v.dialEach "udp" (toString port) "STUN target changed" "STUN probe failed"
      (fun i conn => if v.exchange i conn then some () else none) ips t

end DomainVerifier

/-- What `verify` and `probe` are made of: `verify` resolves the domain and lets its HTTP client
dial, `probeDERP` lets its client dial with the port of the node. -/
inductive VerifierCall
  | resolve (domain : String)
  | dialDomain (network address : String)
  | dialDomainPort (network address expectedPort : String)
  | probeSTUN (domain : String) (port : ℕ)
  deriving DecidableEq, Repr

def VerifierCall.traffic (v : DomainVerifier) : VerifierCall → Traffic → Traffic
  | .resolve domain, t => (v.resolve domain t).1
  | .dialDomain network address, t => (v.dialDomain network address t).1
  | .dialDomainPort network address port, t => (v.dialDomainPort network address port t).1
  | .probeSTUN domain port, t => (v.probeSTUN domain port t).1

def DomainVerifier.traffic (v : DomainVerifier) (calls : List VerifierCall) : Traffic :=
  calls.foldl (fun t call => call.traffic v t) ⟨[], []⟩

/-- Loopback, link-local, multicast, unspecified and cloud metadata addresses. -/
def forbiddenRanges : List Cidr := [
  ⟨.quad 127 0 0 0, 8⟩, ⟨.v6 1 "", 128⟩,
  ⟨.quad 169 254 0 0, 16⟩, ⟨.v6 0xfe800000000000000000000000000000 "", 10⟩,
  ⟨.quad 224 0 0 0, 4⟩, ⟨.v6 0xff000000000000000000000000000000 "", 8⟩,
  ⟨.quad 0 0 0 0, 32⟩, ⟨.v6 0 "", 128⟩,
  ⟨.quad 100 100 100 200, 32⟩, ⟨.v6 0xfd000ec2000000000000000000000254 "", 128⟩]

def privateRanges : List Cidr := [
  ⟨.quad 10 0 0 0, 8⟩, ⟨.quad 172 16 0 0, 12⟩, ⟨.quad 192 168 0 0, 16⟩,
  ⟨.v6 0xfc000000000000000000000000000000 "", 7⟩]

/-- The address is in the range, in its own form or as an IPv4 address in IPv6 form. -/
def Cidr.Covers (range : Cidr) (ip : Addr) : Prop :=
  range.contains ip ∨ ∃ bits, ip = .mapped bits ∧ range.contains (.v4 bits)

section Allowed

variable {v : DomainVerifier} {ip : Addr} {range : Cidr}

/-- The tests of `allowed`, on the address without its IPv6 form. -/
theorem DomainVerifier.allowed_iff : v.allowed ip ↔
    ip.unmap.isGlobalUnicast ∧ ip.unmap ∉ metadataAddrs ∧
      ((ip.unmap.isPrivate ∨ ∃ range ∈ restrictedNodeRanges, range.contains ip.unmap) →
        ∃ cidr ∈ v.allowedCIDRs, cidr.contains ip.unmap) := by
  have hglobal : ip.unmap.isGlobalUnicast → ip.unmap.isValid ∧ ip.unmap.isLoopback = false ∧
      ip.unmap.isLinkLocalUnicast = false := by
    simp only [Addr.isGlobalUnicast, Bool.and_eq_true, Bool.not_eq_true']
    tauto
  unfold DomainVerifier.allowed
  cases hg : ip.unmap.isGlobalUnicast with
  | false => simp [hg]
  | true =>
    obtain ⟨hvalid, hloop, hlink⟩ := hglobal hg
    by_cases hm : ip.unmap ∈ metadataAddrs
    · simp [hm]
    · simp only [hg, hvalid, hloop, hlink, hm, List.contains_eq_mem, decide_false, Bool.not_true,
        Bool.or_self, Bool.false_eq_true, if_false, not_false_eq_true, true_and]
      by_cases hr : ip.unmap.isPrivate ∨ ∃ range ∈ restrictedNodeRanges, range.contains ip.unmap
      · have hrestricted : (ip.unmap.isPrivate ||
            restrictedNodeRanges.any (·.contains ip.unmap)) = true := by
          simpa only [Bool.or_eq_true, List.any_eq_true] using hr
        simp [hrestricted, hr]
      · have hrestricted : (ip.unmap.isPrivate ||
            restrictedNodeRanges.any (·.contains ip.unmap)) = false := by
          rw [← Bool.not_eq_true]
          simpa only [Bool.or_eq_true, List.any_eq_true] using hr
        simp [hrestricted, hr]

theorem Cidr.unmap_of_contains {net ip : BitVec 128} {zone zone' : String} {n : ℕ} (hn : n ≤ 96)
    (hne : net.toNat / 2 ^ (128 - n) ≠ 0xffff / 2 ^ (96 - n))
    (h : Cidr.contains ⟨.v6 net zone, n⟩ (.v6 ip zone')) :
    (Addr.v6 ip zone').unmap = .v6 ip zone' := by
  simp only [Cidr.contains, Bool.and_eq_true, decide_eq_true_eq] at h
  have hfour : ip.toNat / 2 ^ 32 ≠ 0xffff := by
    intro hmap
    have hpow : 2 ^ (128 - n) = 2 ^ 32 * 2 ^ (96 - n) := by
      rw [← pow_add]
      congr 1
      omega
    rw [← h.2, hpow, ← Nat.div_div_eq_div_mul, hmap] at hne
    exact hne rfl
  exact Addr.unmap_v6 hfour

theorem Cidr.unmap_of_contains_host {net ip : BitVec 128} {zone zone' : String}
    (hne : net.toNat / 2 ^ 32 ≠ 0xffff) (h : Cidr.contains ⟨.v6 net zone, 128⟩ (.v6 ip zone')) :
    (Addr.v6 ip zone').unmap = .v6 ip zone' := by
  simp only [Cidr.contains, Bool.and_eq_true, decide_eq_true_eq, Nat.sub_self, pow_zero,
    Nat.div_one] at h
  apply Addr.unmap_v6
  rwa [h.2]

/-- The ranges of IPv6 addresses that are checked are apart from the IPv4 addresses. -/
def Cidr.apart : Cidr → Bool
  | ⟨.invalid, _⟩ => true
  | ⟨.v4 _, _⟩ => true
  | ⟨.v6 net _, n⟩ =>
    (n ≤ 96 && net.toNat / 2 ^ (128 - n) ≠ 0xffff / 2 ^ (96 - n)) ||
      (n = 128 && net.toNat / 2 ^ 32 ≠ 0xffff)

theorem Cidr.Covers.unmap (hr : range.apart) (h : range.Covers ip) : range.contains ip.unmap := by
  rcases h with h | ⟨bits, rfl, h⟩
  · have hsame : ip.unmap = ip := by
      obtain ⟨addr, n⟩ := range
      cases ip with
      | invalid => rfl
      | v4 bits => rfl
      | v6 bits zone =>
        cases addr with
        | invalid => cases h
        | v4 net => cases h
        | v6 net zone' =>
          simp only [Cidr.apart, Bool.or_eq_true, Bool.and_eq_true, decide_eq_true_eq] at hr
          rcases hr with ⟨hn, hne⟩ | ⟨rfl, hne⟩
          · exact Cidr.unmap_of_contains hn hne h
          · exact Cidr.unmap_of_contains_host hne h
    rwa [hsame]
  · rwa [Addr.unmap_mapped]

theorem apart_of_mem (hr : range ∈ forbiddenRanges ++ privateRanges ++ restrictedNodeRanges) :
    range.apart := by
  revert range
  decide +kernel

/-- No forbidden range has an address that is global unicast and not listed. -/
theorem not_global_of_forbidden {a : Addr} (hr : range ∈ forbiddenRanges) (h : range.contains a) :
    a.isGlobalUnicast = false ∨ a ∈ metadataAddrs := by
  have hloop : a.isLoopback → a.isGlobalUnicast = false := by simp +contextual [Addr.isGlobalUnicast]
  have hmulti : a.isMulticast → a.isGlobalUnicast = false := by
    simp +contextual [Addr.isGlobalUnicast]
  have hlink : a.isLinkLocalUnicast → a.isGlobalUnicast = false := by
    simp +contextual [Addr.isGlobalUnicast]
  simp only [forbiddenRanges, List.mem_cons, List.not_mem_nil, or_false] at hr
  cases a with
  | invalid => exact .inl rfl
  | v4 bits =>
    -- The ranges of the other family hold no IPv4 address.
    rcases hr with rfl | rfl | rfl | rfl | rfl | rfl | rfl | rfl | rfl | rfl <;>
      simp [Cidr.contains, Addr.quad] at h
    · exact .inl (hloop (by simpa [Addr.isLoopback] using h))
    · exact .inl (hlink (by simpa [Addr.isLinkLocalUnicast] using h))
    · exact .inl (hmulti (by simpa [Addr.isMulticast] using h))
    · obtain rfl : bits = 0 := BitVec.eq_of_toNat_eq h
      exact .inl (by decide)
    · obtain rfl : bits = .ofNat 32 1684301000 := BitVec.eq_of_toNat_eq h
      exact .inr (by decide)
  | v6 bits zone =>
    rcases hr with rfl | rfl | rfl | rfl | rfl | rfl | rfl | rfl | rfl | rfl <;>
      simp [Cidr.contains, Addr.quad] at h <;> obtain ⟨rfl, h⟩ := h
    · exact .inl (hloop (by simpa [Addr.isLoopback] using h))
    · exact .inl (hlink (by simpa [Addr.isLinkLocalUnicast] using h))
    · exact .inl (hmulti (by simpa [Addr.isMulticast] using h))
    · obtain rfl : bits = 0 := BitVec.eq_of_toNat_eq h
      exact .inl (by decide)
    · obtain rfl : bits = .ofNat 128 336294982257581694735330614659971547732 :=
        BitVec.eq_of_toNat_eq h
      exact .inr (by decide)

theorem not_allowed_of_forbidden (hr : range ∈ forbiddenRanges) (h : range.Covers ip) :
    v.allowed ip = false := by
  have hcontains := h.unmap (apart_of_mem (by simp [hr]))
  rw [← Bool.not_eq_true, DomainVerifier.allowed_iff]
  rintro ⟨hglobal, hlisted, -⟩
  rcases not_global_of_forbidden hr hcontains with hg | hm
  · simp [hg] at hglobal
  · exact hlisted hm

theorem isPrivate_of_private {a : Addr} (hr : range ∈ privateRanges) (h : range.contains a) :
    a.isPrivate := by
  simp only [privateRanges, List.mem_cons, List.not_mem_nil, or_false] at hr
  cases a with
  | invalid =>
    rcases hr with rfl | rfl | rfl | rfl <;> cases h
  | v4 bits =>
    rcases hr with rfl | rfl | rfl | rfl <;> simp [Cidr.contains, Addr.quad] at h <;>
      simp [Addr.isPrivate, h]
  | v6 bits zone =>
    rcases hr with rfl | rfl | rfl | rfl <;> simp [Cidr.contains, Addr.quad] at h
    simp [Addr.isPrivate, h]

theorem listed_of_allowed (hr : range ∈ privateRanges ++ restrictedNodeRanges)
    (h : range.Covers ip) (ha : v.allowed ip) : ∃ cidr ∈ v.allowedCIDRs, cidr.contains ip.unmap := by
  have hcontains := h.unmap (apart_of_mem (by
    rw [List.append_assoc]
    exact List.mem_append_right _ hr))
  obtain ⟨-, -, hlisted⟩ := DomainVerifier.allowed_iff.mp ha
  rcases List.mem_append.mp hr with hp | hp
  · exact hlisted (.inl (isPrivate_of_private hp hcontains))
  · exact hlisted (.inr ⟨range, hp, hcontains⟩)

end Allowed

section Dials

variable {v : DomainVerifier} {t t' : Traffic}

def DomainVerifier.target (v : DomainVerifier) (network port : String) (ip : Addr) :
    String × String :=
  (network, joinHostPort (v.addrString ip) port)

/-- The connection leads to the address, up to its IPv6 form, and to the port. -/
structure LeadsTo (v : DomainVerifier) (conn : Conn) (ip : Addr) (port : String) : Prop where
  target : ∃ host remote, splitHostPort conn.remote = some (host, port) ∧
    v.parseAddr host = some remote ∧ remote.unmap = ip.unmap ∧ v.allowed remote ∧
      (remote.is4In6 = false → ip.is4In6 = false → remote = ip)

theorem LeadsTo.of_sameTarget {conn : Conn} {ip : Addr} {port : String}
    (h : v.sameTarget conn ip port) : LeadsTo v conn ip port := by
  unfold DomainVerifier.sameTarget at h
  split at h
  · cases h
  rename_i host remotePort hsplit
  split at h
  · cases h
  rename_i remote hparse
  simp only [Bool.and_eq_true, decide_eq_true_eq] at h
  obtain ⟨⟨hsame, rfl⟩, hallowed⟩ := h
  refine ⟨host, remote, hsplit, hparse, hsame, hallowed, fun hr hi => ?_⟩
  rwa [Addr.unmap_of_not_is4In6 hr, Addr.unmap_of_not_is4In6 hi] at hsame

/-- An answer is used only as a whole. -/
theorem DomainVerifier.resolve_spec {domain : String} {r : Except DialErr (List Addr)}
    (h : v.resolve domain t = (t', r)) :
    t'.dials = t.dials ∧ (∃ more, t'.lookups = t.lookups ++ more) ∧
      ∀ ips, r = .ok ips → t'.lookups = t.lookups ++ [domain] ∧
        v.lookup t.lookups.length "ip" domain = some ips ∧ ∀ ip ∈ ips, v.allowed ip := by
  unfold DomainVerifier.resolve at h
  split at h
  · cases h
    exact ⟨rfl, ⟨[], by simp⟩, fun _ hr => by cases hr⟩
  split at h
  · cases h
    exact ⟨rfl, ⟨[domain], rfl⟩, fun _ hr => by cases hr⟩
  · cases h
    exact ⟨rfl, ⟨[domain], rfl⟩, fun _ hr => by cases hr⟩
  rename_i ips _ hlookup
  split_ifs at h with hall
  · cases h
    refine ⟨rfl, ⟨[domain], rfl⟩, fun _ hr => ?_⟩
    cases hr
    exact ⟨rfl, hlookup, List.all_eq_true.mp hall⟩
  · cases h
    exact ⟨rfl, ⟨[domain], rfl⟩, fun _ hr => by cases hr⟩

/-- The addresses were dialed in turn, some of them, and what is returned comes from the last. -/
structure Dialed {α : Type} (v : DomainVerifier) (network port : String)
    (use : ℕ → Conn → Option α) (ips : List Addr) (t t' : Traffic) (r : Except DialErr α) :
    Prop where
  lookups : t'.lookups = t.lookups
  dials : ∃ dialed rest, ips = dialed ++ rest ∧
    t'.dials = t.dials ++ dialed.map (v.target network port) ∧
    ∀ a, r = .ok a → ∃ before ip conn, dialed = before ++ [ip] ∧
      v.dial (t.dials.length + before.length) network (v.target network port ip).2 = some conn ∧
      LeadsTo v conn ip port ∧ use (t.dials.length + before.length) conn = some a

section Loop

variable {α : Type} {network port changed failed : String} {use : ℕ → Conn → Option α}
  {ip : Addr} {ips : List Addr} {r : Except DialErr α}

theorem Dialed.cons {next : Traffic} (h : Dialed v network port use ips next t' r)
    (hlookups : next.lookups = t.lookups)
    (hdials : next.dials = t.dials ++ [v.target network port ip]) :
    Dialed v network port use (ip :: ips) t t' r := by
  obtain ⟨hl, dialed, rest, hips, hd, hok⟩ := h
  refine ⟨hl.trans hlookups, ip :: dialed, rest, by rw [hips, List.cons_append], ?_, ?_⟩
  · rw [hd, hdials]
    simp
  · intro a ha
    obtain ⟨before, last, conn, hlast, hdial, hleads, huse⟩ := hok a ha
    have hlen : next.dials.length + before.length = t.dials.length + (ip :: before).length := by
      rw [hdials]
      simp only [List.length_append, List.length_cons, List.length_nil]
      omega
    rw [hlen] at hdial huse
    exact ⟨ip :: before, last, conn, by rw [hlast, List.cons_append], hdial, hleads, huse⟩

theorem DomainVerifier.dialEach_spec
    (h : v.dialEach network port changed failed use ips t = (t', r)) :
    Dialed v network port use ips t t' r := by
  induction ips generalizing t with
  | nil =>
    cases h
    exact ⟨rfl, [], [], rfl, by simp, fun _ hr => by cases hr⟩
  | cons ip ips ih =>
    rw [DomainVerifier.dialEach] at h
    split at h
    · exact (ih h).cons rfl rfl
    rename_i conn hdial
    split_ifs at h with hsame
    · cases h
      exact ⟨rfl, [ip], ips, rfl, rfl, fun _ hr => by cases hr⟩
    split at h
    · exact (ih h).cons rfl rfl
    rename_i a huse
    cases h
    refine ⟨rfl, [ip], ips, rfl, rfl, fun b hb => ?_⟩
    cases hb
    exact ⟨[], ip, conn, rfl, hdial, .of_sameTarget (by simpa using hsame), huse⟩

end Loop

/-- A call that dials goes through one answer, all of which is allowed. -/
theorem DomainVerifier.dialDomainPort_spec {network address expectedPort : String}
    {r : Except DialErr Conn} (h : v.dialDomainPort network address expectedPort t = (t', r)) :
    (t'.dials = t.dials ∧ (∀ conn, r ≠ .ok conn) ∧ ∃ more, t'.lookups = t.lookups ++ more) ∨
    ∃ domain ips mid, network = "tcp" ∧ splitHostPort address = some (domain, expectedPort) ∧
      v.lookup t.lookups.length "ip" domain = some ips ∧ (∀ ip ∈ ips, v.allowed ip) ∧
      mid.dials = t.dials ∧ mid.lookups = t.lookups ++ [domain] ∧
      Dialed v "tcp" expectedPort (fun _ conn => some conn) ips mid t' r := by
  unfold DomainVerifier.dialDomainPort at h
  split at h
  · cases h
    exact .inl ⟨rfl, by simp, [], by simp⟩
  rename_i domain port hsplit
  split_ifs at h with hguard
  · cases h
    exact .inl ⟨rfl, by simp, [], by simp⟩
  push Not at hguard
  obtain ⟨rfl, rfl⟩ := hguard
  split at h
  · rename_i mid e hresolve
    cases h
    obtain ⟨hdials, hlookups, -⟩ := DomainVerifier.resolve_spec hresolve
    exact .inl ⟨hdials, by simp, hlookups⟩
  · rename_i mid ips hresolve
    obtain ⟨hdials, -, hok⟩ := DomainVerifier.resolve_spec hresolve
    obtain ⟨hlookups, hlookup, hall⟩ := hok ips rfl
    exact .inr ⟨domain, ips, mid, rfl, hsplit, hlookup, hall, hdials, hlookups,
      DomainVerifier.dialEach_spec h⟩

theorem DomainVerifier.probeSTUN_spec {domain : String} {port : ℕ} {r : Except DialErr Unit}
    (h : v.probeSTUN domain port t = (t', r)) :
    (t'.dials = t.dials ∧ ∃ more, t'.lookups = t.lookups ++ more) ∨
    ∃ ips mid, v.lookup t.lookups.length "ip" domain = some ips ∧ (∀ ip ∈ ips, v.allowed ip) ∧
      mid.dials = t.dials ∧ mid.lookups = t.lookups ++ [domain] ∧
      Dialed v "udp" (toString port) (fun i conn => if v.exchange i conn then some () else none)
        ips mid t' r := by
  unfold DomainVerifier.probeSTUN at h
  split at h
  · rename_i mid e hresolve
    cases h
    obtain ⟨hdials, hlookups, -⟩ := DomainVerifier.resolve_spec hresolve
    exact .inl ⟨hdials, hlookups⟩
  · rename_i mid ips hresolve
    obtain ⟨hdials, -, hok⟩ := DomainVerifier.resolve_spec hresolve
    obtain ⟨hlookups, hlookup, hall⟩ := hok ips rfl
    exact .inr ⟨ips, mid, hlookup, hall, hdials, hlookups, DomainVerifier.dialEach_spec h⟩

/-- The target is an address of the answer of an earlier lookup, all of which was allowed. -/
def Vetted (v : DomainVerifier) (t : Traffic) (target : String × String) : Prop :=
  ∃ i domain ips ip port, t.lookups[i]? = some domain ∧ v.lookup i "ip" domain = some ips ∧
    (∀ a ∈ ips, v.allowed a) ∧ ip ∈ ips ∧ target = v.target target.1 port ip

theorem Vetted.mono {target : String × String} {more : List String} (h : Vetted v t target)
    (hlookups : t'.lookups = t.lookups ++ more) : Vetted v t' target := by
  obtain ⟨i, domain, ips, ip, port, hi, hrest⟩ := h
  refine ⟨i, domain, ips, ip, port, ?_, hrest⟩
  rw [hlookups, List.getElem?_append_left (List.getElem?_eq_some_iff.mp hi).1, hi]

theorem Dialed.vetted {α : Type} {network port domain : String} {use : ℕ → Conn → Option α}
    {ips : List Addr} {mid : Traffic} {r : Except DialErr α}
    (h : Dialed v network port use ips mid t' r)
    (hlookup : v.lookup t.lookups.length "ip" domain = some ips) (hall : ∀ ip ∈ ips, v.allowed ip)
    (hdials : mid.dials = t.dials) (hlookups : mid.lookups = t.lookups ++ [domain])
    (ht : ∀ d ∈ t.dials, Vetted v t d) : ∀ d ∈ t'.dials, Vetted v t' d := by
  obtain ⟨hl, dialed, rest, rfl, hd, -⟩ := h
  have hafter : t'.lookups = t.lookups ++ [domain] := hl.trans hlookups
  intro d hmem
  rw [hd, hdials, List.mem_append] at hmem
  rcases hmem with hmem | hmem
  · exact (ht d hmem).mono hafter
  · obtain ⟨ip, hip, rfl⟩ := List.mem_map.mp hmem
    exact ⟨t.lookups.length, domain, _, ip, port, by simp [hafter], hlookup, hall,
      List.mem_append_left _ hip, rfl⟩

theorem VerifierCall.vetted (call : VerifierCall) (ht : ∀ d ∈ t.dials, Vetted v t d) :
    ∀ d ∈ (call.traffic v t).dials, Vetted v (call.traffic v t) d := by
  have hkept : ∀ {t' : Traffic} {more}, t'.dials = t.dials → t'.lookups = t.lookups ++ more →
      ∀ d ∈ t'.dials, Vetted v t' d := by
    intro t' more hd hl d hmem
    exact (ht d (hd ▸ hmem)).mono hl
  -- A dial without an earlier lookup of its own is none: the refusal comes before it.
  have hdial : ∀ network address port, ∀ d ∈ (v.dialDomainPort network address port t).1.dials,
      Vetted v (v.dialDomainPort network address port t).1 d := by
    intro network address port
    rcases h : v.dialDomainPort network address port t with ⟨t', r⟩
    rcases DomainVerifier.dialDomainPort_spec h with
      ⟨hd, -, more, hl⟩ | ⟨domain, ips, mid, -, -, hlookup, hall, hd, hl, hdialed⟩
    · exact hkept hd hl
    · exact hdialed.vetted hlookup hall hd hl ht
  cases call with
  | resolve domain =>
    rw [VerifierCall.traffic]
    rcases h : v.resolve domain t with ⟨t', r⟩
    obtain ⟨hd, ⟨more, hl⟩, -⟩ := DomainVerifier.resolve_spec h
    exact hkept hd hl
  | dialDomain network address => exact hdial network address "443"
  | dialDomainPort network address port => exact hdial network address port
  | probeSTUN domain port =>
    rw [VerifierCall.traffic]
    rcases h : v.probeSTUN domain port t with ⟨t', r⟩
    rcases DomainVerifier.probeSTUN_spec h with
      ⟨hd, more, hl⟩ | ⟨ips, mid, hlookup, hall, hd, hl, hdialed⟩
    · exact hkept hd hl
    · exact hdialed.vetted hlookup hall hd hl ht

theorem DomainVerifier.traffic_vetted (v : DomainVerifier) (calls : List VerifierCall) :
    ∀ d ∈ (v.traffic calls).dials, Vetted v (v.traffic calls) d := by
  induction calls using List.reverseRecOn with
  | nil => simp [DomainVerifier.traffic]
  | append_singleton calls call ih =>
    rw [DomainVerifier.traffic, List.foldl_append]
    exact call.vetted ih

end Dials

/-- A domain's connections go to addresses of one answer, all of them allowed, and a connection is
used only if it leads to the address and the port that were dialed; loopback, link-local, multicast,
unspecified and metadata addresses are never allowed, private and restricted ones only by the
list. -/
theorem DomainVerifier.dials_only_allowed (v : DomainVerifier) :
    (∀ network address expectedPort t t' r,
      v.dialDomainPort network address expectedPort t = (t', r) →
      (t'.dials = t.dials ∧ ∀ conn, r ≠ .ok conn) ∨
      ∃ domain ips dialed rest, splitHostPort address = some (domain, expectedPort) ∧
        v.lookup t.lookups.length "ip" domain = some ips ∧ (∀ ip ∈ ips, v.allowed ip) ∧
        t'.lookups = t.lookups ++ [domain] ∧ ips = dialed ++ rest ∧
        t'.dials = t.dials ++ dialed.map (v.target "tcp" expectedPort) ∧
        ∀ conn, r = .ok conn → ∃ before ip, dialed = before ++ [ip] ∧
          v.dial (t.dials.length + before.length) "tcp" (v.target "tcp" expectedPort ip).2 =
            some conn ∧ LeadsTo v conn ip expectedPort) ∧
    (∀ calls, ∀ d ∈ (v.traffic calls).dials, Vetted v (v.traffic calls) d) ∧
    (∀ range ∈ forbiddenRanges, ∀ ip, range.Covers ip → v.allowed ip = false) ∧
    ∀ range ∈ privateRanges ++ restrictedNodeRanges, ∀ ip, range.Covers ip → v.allowed ip →
      ∃ cidr ∈ v.allowedCIDRs, cidr.contains ip.unmap := by
  refine ⟨fun network address expectedPort t t' r h => ?_, v.traffic_vetted,
    fun range hr ip hc => not_allowed_of_forbidden hr hc,
    fun range hr ip hc ha => listed_of_allowed hr hc ha⟩
  rcases DomainVerifier.dialDomainPort_spec h with
    ⟨hd, hr, -⟩ | ⟨domain, ips, mid, -, hsplit, hlookup, hall, hd, hl, hdialed⟩
  · exact .inl ⟨hd, hr⟩
  · obtain ⟨hl', dialed, rest, hips, hd', hok⟩ := hdialed
    rw [hd] at hd' hok
    refine .inr ⟨domain, ips, dialed, rest, hsplit, hlookup, hall, hl'.trans hl, hips, hd', ?_⟩
    intro conn hconn
    obtain ⟨before, ip, conn', hlast, hdial, hleads, huse⟩ := hok conn hconn
    cases huse
    exact ⟨before, ip, hlast, hdial, hleads⟩

def DomainVerifier.plain : DomainVerifier where
  names := .plain
  allowedCIDRs := []
  addrString _ := "8.8.8.8"
  parseAddr s := if s = "8.8.8.8" then some (.quad 8 8 8 8) else none
  lookup _ _ _ := some [.quad 8 8 8 8]
  dial _ _ _ := some ⟨"8.8.8.8:443"⟩
  exchange _ _ := true

theorem DomainVerifier.plain_dials_allowed : ∃ t' conn,
    plain.dialDomainPort "tcp" "relay.example:443" "443" ⟨[], []⟩ = (t', .ok conn) ∧
      ∃ ip, plain.allowed ip ∧ LeadsTo plain conn ip "443" := by
  have hrun : plain.dialDomainPort "tcp" "relay.example:443" "443" ⟨[], []⟩ =
      (⟨["relay.example"], [("tcp", "8.8.8.8:443")]⟩, .ok ⟨"8.8.8.8:443"⟩) := by
    decide +kernel
  refine ⟨_, _, hrun, ?_⟩
  obtain ⟨hdials, -⟩ := DomainVerifier.dials_only_allowed plain
  rcases hdials _ _ _ _ _ _ hrun with
    ⟨-, herror⟩ | ⟨domain, ips, dialed, rest, -, -, hall, -, hips, -, hok⟩
  · exact absurd rfl (herror _)
  · obtain ⟨before, ip, rfl, -, hleads⟩ := hok _ rfl
    exact ⟨ip, hall ip (by simp [hips]), hleads⟩

end UniDERP
