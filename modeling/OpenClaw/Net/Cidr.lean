import Mathlib.Data.Fin.VecNotation
import Mathlib.Tactic.Common
import OpenClaw.Net.IpAddress

/-! Addresses in networks.

An IPv4 address and its IPv4-mapped form are one point of the IPv6 addresses, and a network
is the points that agree with its base on a prefix. The code folds mapped addresses to IPv4
and compares addresses of one kind only. -/
namespace OpenClaw.Net
open Foundation EcmaString

def Ipv6.high (a : Ipv6) : BitVec 96 := a 0 ++ a 1 ++ a 2 ++ a 3 ++ a 4 ++ a 5

def Ipv6.bits (a : Ipv6) : BitVec 128 := a.high ++ decodeIpv4FromHextets (a 6) (a 7)

/-- The first bits of an IPv4-mapped address. -/
def mappedPrefix : BitVec 96 := 0xffff

/-- The address package with its networks. -/
structure CidrJs extends IpaddrJs where
  parseCIDR : String → Option (ParsedIpAddress × Nat)
  mapped_iff : ∀ a, rangeIpv6 a = .ipv4Mapped ↔ a.high = mappedPrefix
  prefix_le : ∀ text base n, parseCIDR text = some (base, n) →
    n ≤ match base with
      | .ipv4 _ => 32
      | .ipv6 _ => 128

variable (js : CidrJs)

def normalizeIpv4MappedAddress : ParsedIpAddress → ParsedIpAddress
  | .ipv4 a => .ipv4 a
  | .ipv6 a => if js.rangeIpv6 a = .ipv4Mapped then .ipv4 (decodeIpv4FromHextets (a 6) (a 7)) else .ipv6 a

/-- `match` of the package: of more bits than an address has, all are compared. -/
def matchBits {w : Nat} (a b : BitVec w) (cidrBits : Nat) : Bool := a >>> (w - cidrBits) = b >>> (w - cidrBits)

/-- The kinds and the texts are the same. -/
def sameAddress : ParsedIpAddress → ParsedIpAddress → Bool
  | .ipv4 a, .ipv4 b => a = b
  | .ipv6 a, .ipv6 b => a.bits = b.bits
  | _, _ => false

def matchAddress (ip base : ParsedIpAddress) (prefixLength : Nat) : Bool :=
  match ip, base with
  | .ipv4 a, .ipv4 b => matchBits a b prefixLength
  | .ipv6 a, .ipv6 b => matchBits a.bits b.bits prefixLength
  | _, _ => false

def isIpInCidr (ip cidr : String) : Bool :=
  match parseCanonicalIpAddress js.toIpaddrJs ip with
  | none => false
  | some normalizedIp =>
    let candidate := trim cidr
    let comparableIp := normalizeIpv4MappedAddress js normalizedIp
    if candidate = "" then false
    else if '/' ∉ candidate.toList then
      match parseCanonicalIpAddress js.toIpaddrJs candidate with
      | none => false
      | some exact => sameAddress comparableIp (normalizeIpv4MappedAddress js exact)
    else
      match js.parseCIDR candidate with
      | none => false
      | some (baseAddress, prefixLength) =>
        matchAddress comparableIp (normalizeIpv4MappedAddress js baseAddress) prefixLength

/-! ### Points and networks -/

namespace ParsedIpAddress

def point : ParsedIpAddress → BitVec 128
  | .ipv4 a => mappedPrefix ++ a
  | .ipv6 a => a.bits

/-- The address is an IPv4 one, mapped or not. -/
def IsIpv4 : ParsedIpAddress → Prop
  | .ipv4 _ => True
  | .ipv6 a => a.high = mappedPrefix

/-- The network is written in IPv6, around a mapped address. -/
def IsMapped : ParsedIpAddress → Prop
  | .ipv4 _ => False
  | .ipv6 a => a.high = mappedPrefix

/-- Of this many bits of its point the network is the prefix. -/
def pointBits : ParsedIpAddress → Nat → Nat
  | .ipv4 _, prefixLength => 96 + prefixLength
  | .ipv6 _, prefixLength => prefixLength

def InNetwork (ip base : ParsedIpAddress) (prefixLength : Nat) : Prop :=
  ip.point >>> (128 - base.pointBits prefixLength) = base.point >>> (128 - base.pointBits prefixLength)

end ParsedIpAddress

open ParsedIpAddress

theorem InNetwork_mono {ip base : ParsedIpAddress} {n m : Nat} (hnm : n ≤ m) (h : ip.InNetwork base m) :
    ip.InNetwork base n := by
  have hbits : base.pointBits n ≤ base.pointBits m := by cases base <;> simp [pointBits, hnm]
  obtain ⟨j, hj⟩ := Nat.exists_eq_add_of_le (Nat.sub_le_sub_left hbits 128)
  unfold InNetwork at h ⊢
  rw [hj, BitVec.shiftRight_add, BitVec.shiftRight_add, h]

/-- What follows the first bits is compared on its own. -/
theorem shiftRight_append (h h' : BitVec 96) (a b : BitVec 32) {k : Nat} (hk : k ≤ 32) :
    (h ++ a : BitVec 128) >>> k = (h' ++ b : BitVec 128) >>> k ↔ h = h' ∧ a >>> k = b >>> k := by
  obtain ⟨j, hj⟩ := Nat.exists_eq_add_of_le' hk
  have hlow : ∀ x : BitVec 32, x.toNat / 2 ^ k < 2 ^ j := fun x =>
    Nat.div_lt_of_lt_mul (by rw [Nat.mul_comm, ← Nat.pow_add, ← hj]; exact x.isLt)
  have hdiv : ∀ (y : BitVec 96) (x : BitVec 32), (y ++ x : BitVec 128).toNat / 2 ^ k = 2 ^ j * y.toNat + x.toNat / 2 ^ k := by
    intro y x
    rw [BitVec.toNat_append, ← Nat.shiftLeft_add_eq_or_of_lt x.isLt, Nat.shiftLeft_eq,
      show 2 ^ 32 = 2 ^ j * 2 ^ k by rw [← Nat.pow_add, ← hj], ← Nat.mul_assoc, Nat.add_comm,
      Nat.add_mul_div_right _ _ (Nat.two_pow_pos k), Nat.add_comm, Nat.mul_comm]
  simp only [← BitVec.toNat_inj, BitVec.toNat_ushiftRight, Nat.shiftRight_eq_div_pow, hdiv]
  refine ⟨fun heq => ?_, fun ⟨hh, hx⟩ => by rw [hh, hx]⟩
  have hhigh := congrArg (· / 2 ^ j) heq
  simp only [Nat.mul_add_div (Nat.two_pow_pos j), Nat.div_eq_of_lt (hlow _), Nat.add_zero] at hhigh
  rw [hhigh] at heq
  exact ⟨hhigh, Nat.add_left_cancel heq⟩

variable {ip base : ParsedIpAddress}

theorem normalize_ipv4 (h : ip.IsIpv4) :
    ∃ a, normalizeIpv4MappedAddress js ip = .ipv4 a ∧ ip.point = mappedPrefix ++ a := by
  cases ip with
  | ipv4 a => exact ⟨a, rfl, rfl⟩
  | ipv6 a => exact ⟨_, if_pos ((js.mapped_iff a).mpr h), congrArg (· ++ _) h⟩

theorem normalize_ipv6 (h : ¬ip.IsIpv4) :
    ∃ a : Ipv6, normalizeIpv4MappedAddress js ip = .ipv6 a ∧ ip = .ipv6 a ∧
      ∃ low : BitVec 32, ip.point = a.high ++ low ∧ a.high ≠ mappedPrefix := by
  cases ip with
  | ipv4 a => exact absurd trivial h
  | ipv6 a => exact ⟨a, if_neg fun hmapped => h ((js.mapped_iff a).mp hmapped), rfl, _, rfl, h⟩

theorem sameAddress_iff :
    sameAddress (normalizeIpv4MappedAddress js ip) (normalizeIpv4MappedAddress js base) = true ↔ ip.point = base.point := by
  have happend := fun h h' a b => shiftRight_append h h' a b (Nat.zero_le 32)
  simp only [BitVec.ushiftRight_zero] at happend
  by_cases hip : ip.IsIpv4
  · obtain ⟨a, ha, hpa⟩ := normalize_ipv4 js hip
    by_cases hbase : base.IsIpv4
    · obtain ⟨b, hb, hpb⟩ := normalize_ipv4 js hbase
      simp [ha, hb, hpa, hpb, sameAddress, happend]
    · obtain ⟨b, hb, -, low, hpb, hhigh⟩ := normalize_ipv6 js hbase
      simp [ha, hb, hpa, hpb, sameAddress, happend, Ne.symm hhigh]
  · obtain ⟨a, ha, rfl, low, hpa, hhigh⟩ := normalize_ipv6 js hip
    by_cases hbase : base.IsIpv4
    · obtain ⟨b, hb, hpb⟩ := normalize_ipv4 js hbase
      simp [ha, hb, hpa, hpb, sameAddress, happend, hhigh]
    · obtain ⟨b, hb, rfl, -⟩ := normalize_ipv6 js hbase
      simp [ha, hb, sameAddress, point]

theorem matchAddress_iff {n : Nat} (hmapped : ¬base.IsMapped) (hn : base.pointBits n ≤ 128) :
    matchAddress (normalizeIpv4MappedAddress js ip) (normalizeIpv4MappedAddress js base) n = true ↔
      ip.InNetwork base n ∧ (base.IsIpv4 ∨ ¬ip.IsIpv4) := by
  cases base with
  | ipv4 b =>
    have hk : 128 - (ipv4 b).pointBits n = 32 - n := by simp only [pointBits] at hn ⊢; omega
    have happend := fun h a => shiftRight_append h mappedPrefix a b (Nat.sub_le 32 n)
    rw [InNetwork, hk, show (ipv4 b).point = mappedPrefix ++ b from rfl,
      and_iff_left (show (ipv4 b).IsIpv4 ∨ ¬ip.IsIpv4 from .inl trivial)]
    have hb : normalizeIpv4MappedAddress js (.ipv4 b) = .ipv4 b := rfl
    by_cases hip : ip.IsIpv4
    · obtain ⟨a, ha, hpa⟩ := normalize_ipv4 js hip
      simp [ha, hb, hpa, matchAddress, matchBits, happend]
    · obtain ⟨a, ha, -, low, hpa, hhigh⟩ := normalize_ipv6 js hip
      simp [ha, hb, hpa, matchAddress, happend, hhigh]
  | ipv6 b =>
    have hb : normalizeIpv4MappedAddress js (.ipv6 b) = .ipv6 b := if_neg fun h => hmapped ((js.mapped_iff b).mp h)
    by_cases hip : ip.IsIpv4
    · obtain ⟨a, ha, -⟩ := normalize_ipv4 js hip
      rw [ha, hb]
      exact iff_of_false nofun fun h => h.2.elim hmapped fun hnot => hnot hip
    · obtain ⟨a, ha, rfl, -⟩ := normalize_ipv6 js hip
      rw [ha, hb, and_iff_left (.inr hip)]
      exact decide_eq_true_iff

/-- The package on the texts `10.1.2.3`, `10.0.0.0/8` and `::ffff:10.0.0.0/104`. -/
def tenCidrJs : CidrJs where
  parseIpv4 text := if text = "10.1.2.3" then some 0x0A010203 else none
  isValidFourPartDecimal text := text = "10.1.2.3"
  parseIpv6 _ := none
  rangeIpv4 _ := .private
  rangeIpv6 a := if a.high = mappedPrefix then .ipv4Mapped else .unicast
  parseCIDR text :=
    if text = "10.0.0.0/8" then some (.ipv4 0x0A000000, 8)
    else if text = "::ffff:10.0.0.0/104" then some (.ipv6 ![0, 0, 0, 0, 0, 0xffff, 0x0A00, 0], 104) else none
  mapped_iff a := by by_cases h : a.high = mappedPrefix <;> simp [h]
  prefix_le text base n h := by
    split_ifs at h <;> cases h <;> decide

end OpenClaw.Net
