import OpenClaw.Foundation.LowerCase
import OpenClaw.Net.IpAddress

/-! The guard against requests to private addresses.

`resolvePinnedHostnameWithPolicy` checks the name, asks for its addresses, checks those,
and gives a lookup that is pinned to them. A lookup keeps the index of its round robin, so
a call gives the next lookup beside the answer; for another name it asks the lookup behind
it, in the end the resolver of the system, which is a function `Dns`. -/
namespace OpenClaw.Net
open Foundation EcmaString

section Names
variable (cases : CaseTables)

/-- `replace(/\.$/, "")`. -/
def dropTrailingDot (s : String) : String := if endsWith s "." then dropEnd s 1 else s

def normalizeHostname (hostname : String) : String :=
  stripIpv6Brackets (dropTrailingDot (cases.toLowerCase (trim hostname)))

/-! ### Policies -/

structure SsrFPolicy where
  allowPrivateNetwork : Bool := false
  dangerouslyAllowPrivateNetwork : Bool := false
  allowRfc2544BenchmarkRange : Bool := false
  allowedHostnames : List String := []
  hostnameAllowlist : List String := []
  deriving Repr, DecidableEq

def BLOCKED_HOSTNAMES : List String := ["localhost", "localhost.localdomain", "metadata.google.internal"]

def normalizeHostnameSet (values : List String) : List String :=
  (values.map (normalizeHostname cases)).filter (· ≠ "")

def normalizeHostnameAllowlist (values : List String) : List String :=
  (values.map (normalizeHostname cases)).filter fun value => value ≠ "*" && value ≠ "*." && value ≠ ""

def isPrivateNetworkAllowedByPolicy (policy : SsrFPolicy) : Bool :=
  policy.dangerouslyAllowPrivateNetwork || policy.allowPrivateNetwork

def shouldSkipPrivateNetworkChecks (hostname : String) (policy : SsrFPolicy) : Bool :=
  isPrivateNetworkAllowedByPolicy policy || hostname ∈ normalizeHostnameSet cases policy.allowedHostnames

def isHostnameAllowedByPattern (hostname pattern : String) : Bool :=
  if startsWith pattern "*." then
    let suffix := String.ofList (pattern.toList.drop 2)
    if suffix = "" || hostname = suffix then false else endsWith hostname ("." ++ suffix)
  else hostname = pattern

def matchesHostnameAllowlist (hostname : String) (allowlist : List String) : Bool :=
  allowlist.isEmpty || allowlist.any (isHostnameAllowedByPattern hostname)

/-! ### What is blocked -/

/-- Numbers that no parser takes, or an empty part. -/
def looksLikeUnsupportedIpv4Literal (address : String) : Bool :=
  let parts := splitDots address.toList
  if parts.length > 4 then false
  else if parts.any List.isEmpty then true
  else parts.all fun part => isDigits part || startsHex part

variable (ip : IpaddrJs)

def isPrivateIpAddress (address : String) (policy : SsrFPolicy) : Bool :=
  let normalized := stripIpv6Brackets (cases.toLowerCase (trim address))
  if normalized = "" then false
  else
    match parseCanonicalIpAddress ip normalized with
    | some (.ipv4 strictIp) => isBlockedSpecialUseIpv4Address ip strictIp policy.allowRfc2544BenchmarkRange
    | some (.ipv6 strictIp) =>
      isBlockedSpecialUseIpv6Address ip strictIp ||
        (extractEmbeddedIpv4FromIpv6 ip strictIp).any fun embeddedIpv4 =>
          isBlockedSpecialUseIpv4Address ip embeddedIpv4 policy.allowRfc2544BenchmarkRange
    | none =>
      -- A literal that does not parse is blocked.
      ':' ∈ normalized.toList && (parseLooseIpAddress ip normalized).isNone ||
        !isCanonicalDottedDecimalIPv4 ip normalized && isLegacyIpv4Literal ip normalized ||
        looksLikeUnsupportedIpv4Literal normalized

def isBlockedHostnameNormalized (normalized : String) : Bool :=
  normalized ∈ BLOCKED_HOSTNAMES || endsWith normalized ".localhost" || endsWith normalized ".local" ||
    endsWith normalized ".internal"

def isBlockedHostnameOrIp (hostname : String) (policy : SsrFPolicy) : Bool :=
  let normalized := normalizeHostname cases hostname
  normalized ≠ "" && (isBlockedHostnameNormalized normalized || isPrivateIpAddress cases ip normalized policy)

end Names

/-! ### Pinned lookups -/

structure LookupAddress where
  address : String
  family : Nat
  deriving Repr, DecidableEq

inductive LookupOptions where
  | absent
  | number (requested : Nat)
  | object (all : Bool) (family : Option Nat)
  deriving Repr, DecidableEq

def LookupOptions.requestedFamily : LookupOptions → Nat
  | .absent => 0
  | .number requested => requested
  | .object _ requested => requested.getD 0

def LookupOptions.all : LookupOptions → Bool
  | .object all _ => all
  | _ => false

/-- What the callback is given. -/
inductive LookupAnswer where
  | error (code : String)
  | one (address : LookupAddress)
  | all (addresses : List LookupAddress)
  deriving Repr, DecidableEq

def LookupAnswer.addresses : LookupAnswer → List String
  | .error _ => []
  | .one address => [address.address]
  | .all addresses => addresses.map LookupAddress.address

abbrev Dns := String → LookupOptions → LookupAnswer

/-- The record of an address that is known by its text. -/
def toRecord (address : String) : LookupAddress := ⟨address, if ':' ∈ address.toList then 6 else 4⟩

inductive Lookup where
  | system
  | pinned (normalizedHost : String) (records : List LookupAddress) (index : Nat) (fallback : Lookup)
  deriving Repr

def usableRecords (records : List LookupAddress) (requestedFamily : Nat) : List LookupAddress :=
  let candidates := if requestedFamily = 4 ∨ requestedFamily = 6 then
    records.filter (·.family = requestedFamily) else records
  if candidates.isEmpty then records else candidates

/-- A call, with what the resolver of the system answers at that time. -/
structure LookupCall where
  host : String
  options : LookupOptions := .absent
  dns : Dns

section Lookups
variable (cases : CaseTables)

/-- `createPinnedLookup` throws without an address. -/
def createPinnedLookup (hostname : String) (addresses : List String) (fallback : Lookup) : Option Lookup :=
  if addresses.isEmpty then none
  else some (.pinned (normalizeHostname cases hostname) (addresses.map toRecord) 0 fallback)

def Lookup.call (call : LookupCall) : Lookup → LookupAnswer × Lookup
  | .system => (call.dns call.host call.options, .system)
  | .pinned normalizedHost records index fallback =>
    let normalized := normalizeHostname cases call.host
    if normalized = "" ∨ normalized ≠ normalizedHost then
      let (answer, fallback) := fallback.call call
      (answer, .pinned normalizedHost records index fallback)
    else
      let usable := usableRecords records call.options.requestedFamily
      if call.options.all then (.all usable, .pinned normalizedHost records index fallback)
      else
        match usable[index % usable.length]? with
        | some chosen => (.one chosen, .pinned normalizedHost records (index + 1) fallback)
        | none => (.error "undefined", .pinned normalizedHost records (index + 1) fallback)

/-- One call after the other. -/
def Lookup.answers : Lookup → List LookupCall → List LookupAnswer
  | _, [] => []
  | lookup, call :: rest => (lookup.call cases call).1 :: Lookup.answers (lookup.call cases call).2 rest

/-! ### Resolution -/

structure PinnedHostname where
  hostname : String
  addresses : List String
  lookup : Lookup
  deriving Repr

structure PinnedHostnameOverride where
  hostname : String
  addresses : List String
  deriving Repr, DecidableEq

inductive SsrfError where
  /-- `Invalid hostname`. -/
  | invalidHostname
  /-- `Blocked hostname (not in allowlist): …`. -/
  | notInAllowlist (hostname : String)
  /-- `Blocked hostname or private/internal/special-use IP address`. -/
  | blockedHostOrIp
  /-- The lookup was rejected. -/
  | lookupFailed
  /-- `Unable to resolve hostname: …`. -/
  | unableToResolve (hostname : String)
  /-- `Blocked: resolves to private/internal/special-use IP address`. -/
  | blockedResolvedIp
  /-- `Pinned lookup requires at least one address for …`. -/
  | noPinnedAddress (hostname : String)
  /-- `Pinned dispatcher override hostname mismatch: expected …, got …`. -/
  | overrideMismatch (expected got : String)
  deriving Repr, DecidableEq

/-- IPv4 addresses first, each address once. -/
def dedupeAndPreferIpv4 (results : List LookupAddress) : List String :=
  let kept := results.foldl (fun kept entry =>
    if kept.any (·.address = entry.address) then kept else kept ++ [entry]) []
  (kept.filter (·.family = 4) ++ kept.filter (·.family ≠ 4)).map LookupAddress.address

variable (ip : IpaddrJs)

def resolvePinnedHostnameWithPolicy (hostname : String) (policy : SsrFPolicy)
    (lookupFn : String → Option (List LookupAddress)) : Except SsrfError PinnedHostname :=
  let normalized := normalizeHostname cases hostname
  let skipPrivateNetworkChecks := shouldSkipPrivateNetworkChecks cases normalized policy
  if normalized = "" then .error .invalidHostname
  else if !matchesHostnameAllowlist normalized (normalizeHostnameAllowlist cases policy.hostnameAllowlist) then
    .error (.notInAllowlist hostname)
  -- The name is checked before anyone is asked for it, and the answer after that.
  else if !skipPrivateNetworkChecks && isBlockedHostnameOrIp cases ip normalized policy then .error .blockedHostOrIp
  else
    match lookupFn normalized with
    | none => .error .lookupFailed
    | some results =>
      if results.isEmpty then .error (.unableToResolve hostname)
      else if !skipPrivateNetworkChecks &&
          results.any (fun entry => isBlockedHostnameOrIp cases ip entry.address policy) then
        .error .blockedResolvedIp
      else
        let addresses := dedupeAndPreferIpv4 results
        match createPinnedLookup cases normalized addresses .system with
        | none => .error (.unableToResolve hostname)
        | some lookup => .ok ⟨normalized, addresses, lookup⟩

def resolvePinnedDispatcherLookup (pinned : PinnedHostname) (override : Option PinnedHostnameOverride)
    (policy : SsrFPolicy) : Except SsrfError Lookup :=
  match override with
  | none => .ok pinned.lookup
  | some override =>
    let normalizedOverrideHost := normalizeHostname cases override.hostname
    if normalizedOverrideHost = "" ∨ normalizedOverrideHost ≠ pinned.hostname then
      .error (.overrideMismatch pinned.hostname override.hostname)
    else if !shouldSkipPrivateNetworkChecks cases pinned.hostname policy &&
        override.addresses.any (fun address => isBlockedHostnameOrIp cases ip address policy) then
      .error .blockedResolvedIp
    else
      match createPinnedLookup cases pinned.hostname override.addresses pinned.lookup with
      | none => .error (.noPinnedAddress pinned.hostname)
      | some lookup => .ok lookup

end Lookups

end OpenClaw.Net
