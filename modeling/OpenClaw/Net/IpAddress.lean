import Mathlib.Data.List.Basic
import OpenClaw.Foundation.EcmaString

/-! IP addresses: parsing, and the special-use ranges that are blocked.

The parser and the range tables are those of the `ipaddr.js` package (`IpaddrJs`). What
this file adds to them is here: the choice of ranges, the IPv4 addresses embedded in IPv6
ones, and the literals that a canonical parse does not take. -/
namespace OpenClaw.Net
open Foundation EcmaString

/-! ### The address package -/

instance neZeroParts : @NeZero Nat Zero.ofOfNat0 8 := ⟨Nat.succ_ne_zero 7⟩

abbrev Ipv4 := BitVec 32

/-- The eight parts of an IPv6 address. -/
abbrev Ipv6 := Fin 8 → BitVec 16

/-- The ranges the code asks for. -/
inductive IpRange where
  | unicast | unspecified | broadcast | multicast | linkLocal | loopback | carrierGradeNat | «private»
  | reserved | uniqueLocal | benchmarking | discard | orchid2 | ipv4Mapped | rfc6145 | rfc6052
  | other (name : String)
  deriving Repr, DecidableEq

structure IpaddrJs where
  /-- `IPv4.parse`, where `IPv4.isValid`. -/
  parseIpv4 : String → Option Ipv4
  isValidFourPartDecimal : String → Bool
  /-- `IPv6.parse`, where `IPv6.isValid`. -/
  parseIpv6 : String → Option Ipv6
  rangeIpv4 : Ipv4 → IpRange
  rangeIpv6 : Ipv6 → IpRange

inductive ParsedIpAddress where
  | ipv4 (address : Ipv4)
  | ipv6 (address : Ipv6)

/-! ### Blocked ranges -/

def BLOCKED_IPV4_SPECIAL_USE_RANGES : List IpRange :=
  [.unspecified, .broadcast, .multicast, .linkLocal, .loopback, .carrierGradeNat, .private, .reserved]

def BLOCKED_IPV6_SPECIAL_USE_RANGES : List IpRange :=
  [.unspecified, .loopback, .linkLocal, .uniqueLocal, .multicast, .reserved, .benchmarking, .discard, .orchid2]

/-- 198.18.0.0/15. -/
def inRfc2544BenchmarkRange (address : Ipv4) : Bool := address >>> 17 == (0xC6120000#32) >>> 17

section Ranges
variable (ip : IpaddrJs)

def isBlockedSpecialUseIpv4Address (address : Ipv4) (allowRfc2544BenchmarkRange : Bool) : Bool :=
  if inRfc2544BenchmarkRange address && allowRfc2544BenchmarkRange then false
  else BLOCKED_IPV4_SPECIAL_USE_RANGES.contains (ip.rangeIpv4 address) || inRfc2544BenchmarkRange address

/-- The deprecated site-local addresses are blocked as well. -/
def isBlockedSpecialUseIpv6Address (address : Ipv6) : Bool :=
  BLOCKED_IPV6_SPECIAL_USE_RANGES.contains (ip.rangeIpv6 address) || address 0 &&& 0xffc0 == 0xfec0

/-! ### Embedded IPv4 addresses -/

structure EmbeddedIpv4Rule where
  isMatch : Ipv6 → Bool
  toHextets : Ipv6 → BitVec 16 × BitVec 16

def EMBEDDED_IPV4_SENTINEL_RULES : List EmbeddedIpv4Rule := [
  -- IPv4-compatible
  ⟨fun parts => parts 0 == 0 && parts 1 == 0 && parts 2 == 0 && parts 3 == 0 && parts 4 == 0 && parts 5 == 0,
    fun parts => (parts 6, parts 7)⟩,
  -- NAT64 for local use
  ⟨fun parts => parts 0 == 0x0064 && parts 1 == 0xff9b && parts 2 == 0x0001 && parts 3 == 0 && parts 4 == 0 &&
      parts 5 == 0,
    fun parts => (parts 6, parts 7)⟩,
  -- 6to4
  ⟨fun parts => parts 0 == 0x2002, fun parts => (parts 1, parts 2)⟩,
  -- Teredo
  ⟨fun parts => parts 0 == 0x2001 && parts 1 == 0x0000, fun parts => (parts 6 ^^^ 0xffff, parts 7 ^^^ 0xffff)⟩,
  -- ISATAP
  ⟨fun parts => parts 4 &&& 0xfcff == 0 && parts 5 == 0x5efe, fun parts => (parts 6, parts 7)⟩]

def decodeIpv4FromHextets (high low : BitVec 16) : Ipv4 := high ++ low

def extractEmbeddedIpv4FromIpv6 (address : Ipv6) : Option Ipv4 :=
  if ip.rangeIpv6 address ∈ [.ipv4Mapped, .rfc6145, .rfc6052] then
    some (decodeIpv4FromHextets (address 6) (address 7))
  else
    (EMBEDDED_IPV4_SENTINEL_RULES.find? fun rule => rule.isMatch address).map fun rule =>
      decodeIpv4FromHextets (rule.toHextets address).1 (rule.toHextets address).2

/-! ### Literals -/

/-- `value.slice(1, -1)` between brackets. -/
def stripIpv6Brackets (value : String) : String :=
  if startsWith value "[" && endsWith value "]" then String.ofList (value.toList.tail.dropLast) else value

/-- Every caller takes an empty rest for nothing. -/
def normalizeIpParseInput (raw : String) : Option String :=
  ((trimmed raw).map stripIpv6Brackets).filter (· ≠ "")

/-- `split(".")`. -/
def splitDots (l : List Char) : List (List Char) :=
  l.foldr (fun c parts => if c = '.' then [] :: parts else parts.modifyHead (c :: ·)) [[]]

/-- `/^[0-9]+$/`. -/
def isDigits (l : List Char) : Bool := !l.isEmpty && l.all Char.isDigit

def isHexDigit (c : Char) : Bool := c.isDigit || ('a' ≤ c && c ≤ 'f') || ('A' ≤ c && c ≤ 'F')

/-- `Number.parseInt(part, 10)` of a part that is digits. -/
def decimalValue (l : List Char) : Nat := l.foldl (fun n c => n * 10 + (c.toNat - '0'.toNat)) 0

/-- `/^0x/i`. -/
def startsHex : List Char → Bool
  | '0' :: c :: _ => c = 'x' || c = 'X'
  | _ => false

def isNumericIpv4LiteralPart (l : List Char) : Bool :=
  isDigits l || startsHex l && !(l.drop 2).isEmpty && (l.drop 2).all isHexDigit

/-- An IPv6 literal that ends in a dotted IPv4 address, and in a zone perhaps: the dotted
part is written as two hextets. -/
def parseIpv6WithEmbeddedIpv4 (raw : String) : Option Ipv6 :=
  let chars := raw.toList
  let tail := (chars.reverse.takeWhile (· ≠ ':')).reverse
  let front := chars.take (chars.length - tail.length)
  let embeddedIpv4 := tail.takeWhile (· ≠ '%')
  let zone := tail.dropWhile (· ≠ '%')
  let isZone := zone.isEmpty || (zone.tail ≠ [] && zone.tail.all Char.isAlphanum)
  if ':' ∈ chars ∧ '.' ∈ chars ∧ isZone = true ∧ ip.isValidFourPartDecimal (String.ofList embeddedIpv4) = true then
    match (splitDots embeddedIpv4).map decimalValue with
    | [a, b, c, d] =>
      let high := Nat.toDigits 16 (a * 256 + b)
      let low := Nat.toDigits 16 (c * 256 + d)
      ip.parseIpv6 (String.ofList (front ++ high ++ [':'] ++ low ++ zone))
    | _ => none
  else none

def parseCanonicalIpAddress (raw : String) : Option ParsedIpAddress :=
  (normalizeIpParseInput raw).bind fun normalized =>
    match ip.parseIpv4 normalized with
    | some address => if ip.isValidFourPartDecimal normalized then some (.ipv4 address) else none
    | none =>
      match ip.parseIpv6 normalized with
      | some address => some (.ipv6 address)
      | none => (parseIpv6WithEmbeddedIpv4 ip normalized).map .ipv6

def parseLooseIpAddress (raw : String) : Option ParsedIpAddress :=
  (normalizeIpParseInput raw).bind fun normalized =>
    match ip.parseIpv6 normalized, ip.parseIpv4 normalized with
    | some address, _ => some (.ipv6 address)
    | none, some address => some (.ipv4 address)
    | none, none => (parseIpv6WithEmbeddedIpv4 ip normalized).map .ipv6

def isCanonicalDottedDecimalIPv4 (raw : String) : Bool :=
  (normalizeIpParseInput raw).any ip.isValidFourPartDecimal

/-- One to four numbers, decimal or hexadecimal, that are not the canonical four. -/
def isLegacyIpv4Literal (raw : String) : Bool :=
  (normalizeIpParseInput raw).any fun normalized =>
    let parts := splitDots normalized.toList
    !(':' ∈ normalized.toList) && !isCanonicalDottedDecimalIPv4 ip normalized &&
      parts.length ≤ 4 && parts.all fun part => !part.isEmpty && isNumericIpv4LiteralPart part

end Ranges

end OpenClaw.Net
