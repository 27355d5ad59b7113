import OpenClaw.Foundation.EcmaString
import OpenClaw.Foundation.InsertionMap
import OpenClaw.Foundation.Lockout
import OpenClaw.Foundation.Run

/-! The rate limiter of failed authentication attempts.

Attempts are counted by scope and client address, within a sliding window; with too
many of them the key is locked out for a while. Times are whole milliseconds, the
settings any numbers. `AddressHost` stands for the parsing of addresses. `failures`
is the history: every failure recorded, by key. -/
namespace OpenClaw.Gateway
open Foundation

/-! ### Data -/

structure RateLimitConfig where
  maxAttempts : ℚ := 10
  windowMs : ℚ := 60000
  lockoutMs : ℚ := 300000
  exemptLoopback : Bool := true

def RateLimitConfig.budget (config : RateLimitConfig) : Budget where
  limit := config.maxAttempts
  window := config.windowMs
  lockout := config.lockoutMs

def AUTH_RATE_LIMIT_SCOPE_DEFAULT : String := "default"
def BROWSER_ORIGIN_RATE_LIMIT_KEY_PREFIX : String := "browser-origin:"

/-- Addresses, as the library that parses them reads them. -/
structure AddressHost where
  resolveClientIp : Option String → Option String
  isLoopbackAddress : String → Bool

structure RateLimitEntry where
  attempts : List Nat := []
  lockedUntil : Option ℚ := none
  deriving DecidableEq

structure RateLimitCheckResult where
  allowed : Bool
  remaining : ℚ
  retryAfterMs : ℚ
  deriving DecidableEq

structure RateLimiter where
  entries : InsertionMap String RateLimitEntry := ∅
  /-- The time of the last call. -/
  clock : Nat := 0
  failures : List (String × Nat) := []

/-! ### Keys -/

section Keys
variable (host : AddressHost)

def normalizeRateLimitClientIp (ip : Option String) : String :=
  match ip with
  | some text =>
    if EcmaString.startsWith text BROWSER_ORIGIN_RATE_LIMIT_KEY_PREFIX then text
    else (host.resolveClientIp ip).getD "unknown"
  | none => (host.resolveClientIp none).getD "unknown"

def normalizeScope (scope : Option String) : String :=
  (EcmaString.trimmed (scope.getD AUTH_RATE_LIMIT_SCOPE_DEFAULT)).getD AUTH_RATE_LIMIT_SCOPE_DEFAULT

def resolveKey (rawIp rawScope : Option String) : String :=
  normalizeScope rawScope ++ ":" ++ normalizeRateLimitClientIp host rawIp

def RateLimitConfig.isExempt (config : RateLimitConfig) (rawIp : Option String) : Bool :=
  config.exemptLoopback && host.isLoopbackAddress (normalizeRateLimitClientIp host rawIp)

end Keys

/-! ### Entries -/

namespace RateLimitEntry

/-- A lockout has been set: the number is there, and not zero. -/
def lockout (entry : RateLimitEntry) : Option ℚ := entry.lockedUntil.filter (· ≠ 0)

def isLocked (now : Nat) (entry : RateLimitEntry) : Bool := entry.lockout.any fun ends => (now : ℚ) < ends

def lockoutExpired (now : Nat) (entry : RateLimitEntry) : Bool := entry.lockout.any fun ends => ends ≤ (now : ℚ)

def slideWindow (config : RateLimitConfig) (now : Nat) (entry : RateLimitEntry) : RateLimitEntry :=
  {entry with attempts := entry.attempts.filter fun ts => (now : ℚ) - config.windowMs < ts}

end RateLimitEntry

/-! ### Operations -/

section Operations
variable (config : RateLimitConfig)

/-- `check` of an entry that is not locked: what becomes of it. -/
def checkedEntry (now : Nat) (entry : RateLimitEntry) : RateLimitEntry :=
  (if entry.lockoutExpired now then {attempts := [], lockedUntil := none} else entry).slideWindow config now

namespace RateLimiter

/-- `check` past the exemption, with the entries it leaves. -/
def checkKey (key : String) (now : Nat) (s : RateLimiter) : RateLimitCheckResult × RateLimiter :=
  match s.entries.get? key with
  | none => (⟨true, config.maxAttempts, 0⟩, s)
  | some entry =>
    if entry.isLocked now then (⟨false, 0, entry.lockedUntil.getD 0 - now⟩, s)
    else
      let entry := checkedEntry config now entry
      let remaining := max 0 (config.maxAttempts - entry.attempts.length)
      (⟨decide (0 < remaining), remaining, 0⟩, {s with entries := s.entries.set key entry})

/-- `recordFailure` past the exemption. -/
def recordKey (key : String) (now : Nat) (s : RateLimiter) : RateLimiter :=
  let entry := (s.entries.get? key).getD {}
  let s := {s with failures := s.failures ++ [(key, now)]}
  if entry.isLocked now then {s with entries := s.entries.set key entry}
  else
    let slid := entry.slideWindow config now
    let pushed := {slid with attempts := slid.attempts ++ [now]}
    let entry := if config.maxAttempts ≤ pushed.attempts.length then
        {pushed with lockedUntil := some (now + config.lockoutMs)}
      else pushed
    {s with entries := s.entries.set key entry}

def prune (now : Nat) (s : RateLimiter) : RateLimiter :=
  let slid := s.entries.mapValues fun _ entry =>
    if entry.isLocked now then entry else entry.slideWindow config now
  {s with entries := slid.keepValues fun entry => entry.isLocked now || !entry.attempts.isEmpty}

end RateLimiter

variable (host : AddressHost)

def check (rawIp rawScope : Option String) (now : Nat) (s : RateLimiter) : RateLimitCheckResult × RateLimiter :=
  if config.isExempt host rawIp then (⟨true, config.maxAttempts, 0⟩, s)
  else s.checkKey config (resolveKey host rawIp rawScope) now

def recordFailure (rawIp rawScope : Option String) (now : Nat) (s : RateLimiter) : RateLimiter :=
  if config.isExempt host rawIp then s else s.recordKey config (resolveKey host rawIp rawScope) now

end Operations

/-! ### Steps -/

inductive RateLimitEvent
  | check (rawIp rawScope : Option String) (now : Nat)
  | recordFailure (rawIp rawScope : Option String) (now : Nat)
  | prune (now : Nat)
  deriving DecidableEq

def RateLimitEvent.time : RateLimitEvent → Nat
  | .check _ _ now | .recordFailure _ _ now | .prune now => now

/-- Calls at times that do not decrease. -/
def rateLimitStep (config : RateLimitConfig) (host : AddressHost) : Machine RateLimiter RateLimitEvent
  | e, s =>
    if e.time < s.clock then none
    else
      let s' := match e with
        | .check rawIp rawScope now => (check config host rawIp rawScope now s).2
        | .recordFailure rawIp rawScope now => recordFailure config host rawIp rawScope now s
        | .prune now => s.prune config now
      some {s' with clock := e.time}

end OpenClaw.Gateway
