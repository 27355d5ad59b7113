import Mathlib.Data.Rat.Cast.Order
import OpenClaw.Foundation.EcmaString
import OpenClaw.Foundation.Run

/-! When an auth profile is in cooldown.

Failures open two windows. Most open the cooldown, which remembers the model of a rate
limit so that the other models may go on; billing and permanent auth failures open the
disable window, which holds for every model. Each window keeps its end while it is open.
`held` says what a failure holds back: its own window until its end, and a window that it
only found open as far as that one reached. The scope of an open cooldown only widens, so
what is held stays held. -/
namespace OpenClaw.Agents
open Option

open Foundation (Machine)
open Foundation.EcmaString (trim)

inductive AuthProfileFailureReason where
  | auth_permanent
  | auth
  | billing
  | format
  | model_not_found
  | overloaded
  | timeout
  | rate_limit
  | unknown
  deriving Repr, DecidableEq

/-- Times and durations are milliseconds; an absent counter counts as zero. -/
structure ProfileUsageStats where
  lastUsed : Option ℚ := none
  cooldownUntil : Option ℚ := none
  cooldownReason : Option AuthProfileFailureReason := none
  cooldownModel : Option String := none
  disabledUntil : Option ℚ := none
  disabledReason : Option AuthProfileFailureReason := none
  errorCount : Nat := 0
  failureCounts : AuthProfileFailureReason → Nat := fun _ => 0
  lastFailureAt : Option ℚ := none

/-! ### Providers and their settings -/

section Settings
variable (toLowerCase : String → String)

def normalizeProviderId (provider : String) : String :=
  let normalized := toLowerCase (trim provider)
  if normalized ∈ ["modelstudio", "qwencloud"] then "qwen"
  else if normalized ∈ ["z.ai", "z-ai"] then "zai"
  else if normalized = "opencode-zen" then "opencode"
  else if normalized = "opencode-go-auth" then "opencode-go"
  else if normalized ∈ ["kimi", "kimi-code", "kimi-coding"] then "kimi"
  else if normalized ∈ ["bedrock", "aws-bedrock"] then "amazon-bedrock"
  else if normalized ∈ ["bytedance", "doubao"] then "volcengine"
  else normalized

def isAuthCooldownBypassedForProvider (provider : String) : Bool :=
  normalizeProviderId toLowerCase provider ∈ ["openrouter", "kilocode"]

def shouldProbeWhamForFailure (provider : String) (reason : AuthProfileFailureReason) : Bool :=
  normalizeProviderId toLowerCase provider = "openai-codex" && (reason = .rate_limit || reason = .unknown)

/-- `cfg.auth.cooldowns`. -/
structure AuthCooldowns where
  billingBackoffHours : Option ℚ := none
  billingBackoffHoursByProvider : List (String × ℚ) := []
  billingMaxHours : Option ℚ := none
  authPermanentBackoffMinutes : Option ℚ := none
  authPermanentMaxMinutes : Option ℚ := none
  failureWindowHours : Option ℚ := none

structure ResolvedAuthCooldownConfig where
  billingBackoffMs : ℚ
  billingMaxMs : ℚ
  authPermanentBackoffMs : ℚ
  authPermanentMaxMs : ℚ
  failureWindowMs : ℚ

def resolvePositiveNumber (value : Option ℚ) (fallback : ℚ) : ℚ := (value.filter (0 < ·)).getD fallback

def resolveAuthCooldownConfig (cooldowns : AuthCooldowns) (providerId : String) : ResolvedAuthCooldownConfig :=
  let billingOverride := (cooldowns.billingBackoffHoursByProvider.find? fun e =>
    normalizeProviderId toLowerCase e.1 = providerId).map Prod.snd
  let billingBackoffHours := resolvePositiveNumber (billingOverride.or cooldowns.billingBackoffHours) 5
  let billingMaxHours := resolvePositiveNumber cooldowns.billingMaxHours 24
  let authPermanentBackoffMinutes := resolvePositiveNumber cooldowns.authPermanentBackoffMinutes 10
  let authPermanentMaxMinutes := resolvePositiveNumber cooldowns.authPermanentMaxMinutes 60
  let failureWindowHours := resolvePositiveNumber cooldowns.failureWindowHours 24
  { billingBackoffMs := billingBackoffHours * 60 * 60 * 1000
    billingMaxMs := billingMaxHours * 60 * 60 * 1000
    authPermanentBackoffMs := authPermanentBackoffMinutes * 60 * 1000
    authPermanentMaxMs := authPermanentMaxMinutes * 60 * 1000
    failureWindowMs := failureWindowHours * 60 * 60 * 1000 }

end Settings

/-! ### Windows -/

/-- The later end of the two windows. -/
def resolveProfileUnusableUntil (stats : ProfileUsageStats) : Option ℚ :=
  (([stats.cooldownUntil, stats.disabledUntil].filterMap id).filter (0 < ·)).max?

def isActiveUnusableWindow (windowEnd : Option ℚ) (now : ℚ) : Bool := windowEnd.any fun e => 0 < e && now < e

/-- A present text that is not empty. -/
def truthy (s : Option String) : Option String := s.filter (· ≠ "")

def shouldBypassModelScopedCooldown (stats : ProfileUsageStats) (now : ℚ) (forModel : Option String) : Bool :=
  (truthy forModel).isSome && stats.cooldownReason = some .rate_limit && (truthy stats.cooldownModel).isSome &&
    stats.cooldownModel ≠ forModel && !isActiveUnusableWindow stats.disabledUntil now

def calculateAuthProfileCooldownMs (errorCount : Nat) : ℚ :=
  let normalized := max 1 errorCount
  if normalized ≤ 1 then 30000 else if normalized ≤ 2 then 60000 else 5 * 60000

def calculateDisabledLaneBackoffMs (errorCount : Nat) (baseMs maxMs : ℚ) : ℚ :=
  let normalized := max 1 errorCount
  let baseMs := max 60000 baseMs
  let maxMs := max baseMs maxMs
  let exponent := min (normalized - 1) 10
  min maxMs (baseMs * 2 ^ exponent)

/-- The reasons that disable the profile, with their own backoff. -/
def disabledFailureBackoffPolicy (cfg : ResolvedAuthCooldownConfig) : AuthProfileFailureReason → Option (ℚ × ℚ)
  | .billing => some (cfg.billingBackoffMs, cfg.billingMaxMs)
  | .auth_permanent => some (cfg.authPermanentBackoffMs, cfg.authPermanentMaxMs)
  | _ => none

def keepActiveWindowOrRecompute (existingUntil : Option ℚ) (now recomputedUntil : ℚ) : ℚ :=
  match existingUntil with
  | some existing => if now < existing then existing else recomputedUntil
  | none => recomputedUntil

/-- The model of the cooldown after another failure. -/
def nextCooldownModel (existing : ProfileUsageStats) (now : ℚ) (reason : AuthProfileFailureReason)
    (modelId : Option String) : Option String :=
  if existing.cooldownUntil.any (now < ·) then
    if (truthy existing.cooldownModel).isSome && (truthy modelId).isSome && existing.cooldownModel ≠ modelId then none
    else if reason = .rate_limit && (truthy modelId).isNone && (truthy existing.cooldownModel).isSome then none
    else if reason ≠ .rate_limit then none
    else existing.cooldownModel
  else if reason = .rate_limit then modelId
  else none

def computeNextProfileUsageStats (existing : ProfileUsageStats) (now : ℚ) (reason : AuthProfileFailureReason)
    (cfgResolved : ResolvedAuthCooldownConfig) (modelId : Option String) : ProfileUsageStats :=
  let windowExpired := existing.lastFailureAt.any fun last => 0 < last && cfgResolved.failureWindowMs < now - last
  let previousCooldownExpired := (resolveProfileUnusableUntil existing).any (· ≤ now)
  let shouldResetCounters := windowExpired || previousCooldownExpired
  let nextErrorCount := (if shouldResetCounters then 0 else existing.errorCount) + 1
  let counts := if shouldResetCounters then fun _ => 0 else existing.failureCounts
  let failureCounts := fun r => if r = reason then counts r + 1 else counts r
  let updatedStats := {existing with errorCount := nextErrorCount, failureCounts, lastFailureAt := some now}
  match disabledFailureBackoffPolicy cfgResolved reason with
  | some (baseMs, maxMs) =>
    let backoffMs := calculateDisabledLaneBackoffMs (failureCounts reason) baseMs maxMs
    { updatedStats with
      disabledUntil := some (keepActiveWindowOrRecompute existing.disabledUntil now (now + backoffMs))
      disabledReason := some reason }
  | none =>
    let backoffMs := calculateAuthProfileCooldownMs nextErrorCount
    { updatedStats with
      cooldownUntil := some (keepActiveWindowOrRecompute existing.cooldownUntil now (now + backoffMs))
      cooldownReason := some reason
      cooldownModel := nextCooldownModel existing now reason modelId }

/-- The answer of the usage probe takes the place of the backoff. -/
def applyWhamCooldownResult (existing computed : ProfileUsageStats) (now cooldownMs : ℚ) : ProfileUsageStats :=
  let existingActiveCooldownUntil := (existing.cooldownUntil.filter (now < ·)).getD 0
  {computed with cooldownUntil := some (max existingActiveCooldownUntil (now + cooldownMs))}

def resetUsageStats (existing : Option ProfileUsageStats) : ProfileUsageStats :=
  { existing.getD {} with
    errorCount := 0
    cooldownUntil := none
    cooldownReason := none
    cooldownModel := none
    disabledUntil := none
    disabledReason := none
    failureCounts := fun _ => 0 }

/-- `clearExpiredCooldowns`, for one profile. -/
def clearExpired (stats : ProfileUsageStats) (now : ℚ) : ProfileUsageStats :=
  let expired := fun (e : ℚ) => decide (0 < e) && decide (e ≤ now)
  let cooldownExpired := stats.cooldownUntil.any expired
  let disabledExpired := stats.disabledUntil.any expired
  let stats := if cooldownExpired then {stats with cooldownUntil := none, cooldownReason := none, cooldownModel := none}
    else stats
  let stats := if disabledExpired then {stats with disabledUntil := none, disabledReason := none} else stats
  if (cooldownExpired || disabledExpired) && (resolveProfileUnusableUntil stats).isNone then
    {stats with errorCount := 0, failureCounts := fun _ => 0}
  else stats

/-! ### Runs -/

structure Failure where
  reason : AuthProfileFailureReason
  modelId : Option String
  cooldowns : AuthCooldowns
  /-- What the usage probe answered, if it was asked. -/
  whamResult : Option ℚ

inductive UsageEvent where
  | failure (f : Failure)
  | used
  | cleared
  | sweep

/-- One profile's usage stats, and the time of the last event. -/
structure UsageState where
  usage : Option ProfileUsageStats := none
  clock : ℚ := 0

section Profile
variable (toLowerCase : String → String) (provider : String)

def isProfileInCooldown (usage : Option ProfileUsageStats) (now : ℚ) (forModel : Option String) : Bool :=
  if isAuthCooldownBypassedForProvider toLowerCase provider then false
  else
    match usage with
    | none => false
    | some stats =>
      if shouldBypassModelScopedCooldown stats now forModel then false
      else (resolveProfileUnusableUntil stats).any (now < ·)

def markAuthProfileFailure (f : Failure) (now : ℚ) (usage : Option ProfileUsageStats) : Option ProfileUsageStats :=
  if isAuthCooldownBypassedForProvider toLowerCase provider then usage
  else
    let existing := usage.getD {}
    let cfgResolved := resolveAuthCooldownConfig toLowerCase f.cooldowns (normalizeProviderId toLowerCase provider)
    let computed := computeNextProfileUsageStats existing now f.reason cfgResolved f.modelId
    match f.whamResult.filter fun _ => shouldProbeWhamForFailure toLowerCase provider f.reason with
    | some cooldownMs => some (applyWhamCooldownResult existing computed now cooldownMs)
    | none => some computed

def applyUsageEvent (e : UsageEvent) (now : ℚ) (usage : Option ProfileUsageStats) : Option ProfileUsageStats :=
  match e with
  | .failure f => markAuthProfileFailure toLowerCase provider f now usage
  | .used => some {resetUsageStats usage with lastUsed := some now}
  | .cleared => usage.map fun stats => resetUsageStats (some stats)
  | .sweep => usage.map (clearExpired · now)

/-- Events happen at times that do not decrease. -/
def usageMachine : Machine UsageState (UsageEvent × ℚ) := fun (e, now) s =>
  if s.clock ≤ now then some ⟨applyUsageEvent toLowerCase provider e now s.usage, now⟩ else none

end Profile

def UsageEvent.resets : UsageEvent → Bool
  | .used | .cleared => true
  | _ => false

/-- The failure is one of this model, of an unknown one, or no rate limit. -/
def Failure.concerns (f : Failure) (m : String) : Bool :=
  truthy f.modelId = some m || (truthy f.modelId).isNone || f.reason ≠ .rate_limit

/-- The failure opens the disable window and not the cooldown. -/
def Failure.disables (f : Failure) : Bool := f.reason = .billing || f.reason = .auth_permanent

/-- The cooldown is not scoped to another model. -/
def ProfileUsageStats.covers (stats : ProfileUsageStats) (m : String) : Bool :=
  (truthy stats.cooldownModel).isNone || stats.cooldownModel = some m

/-- The ends of the windows that hold the model back after a failure: the disable window, and
the cooldown, unless a disabling failure found it scoped to another model. -/
def held (f : Failure) (m : String) (stats : ProfileUsageStats) (windowEnd : ℚ) : Prop :=
  stats.disabledUntil = some windowEnd ∨
    stats.cooldownUntil = some windowEnd ∧ (f.disables = true → stats.covers m = true)

/-! ### What the windows say -/

variable {stats : ProfileUsageStats} {m : String} {w : ℚ} {usage : Option ProfileUsageStats} {s t : UsageState}

theorem lt_resolveProfileUnusableUntil {e now : ℚ} (h0 : 0 ≤ now) (hnow : now < e)
    (h : stats.cooldownUntil = some e ∨ stats.disabledUntil = some e) :
    (resolveProfileUnusableUntil stats).any (now < ·) = true := by
  unfold resolveProfileUnusableUntil
  have hmem : e ∈ ([stats.cooldownUntil, stats.disabledUntil].filterMap id).filter (0 < ·) := by
    rw [List.mem_filter, List.mem_filterMap]
    refine ⟨⟨some e, ?_, rfl⟩, by simpa using lt_of_le_of_lt h0 hnow⟩
    rcases h with h | h <;> simp [h]
  generalize ([stats.cooldownUntil, stats.disabledUntil].filterMap id).filter (0 < ·) = ends at hmem
  cases hmax : ends.max? with
  | none =>
    rw [List.max?_eq_none_iff] at hmax
    rw [hmax] at hmem
    cases hmem
  | some last =>
    rw [any_some, decide_eq_true_eq]
    exact lt_of_lt_of_le hnow ((List.max?_eq_some_iff.mp hmax).2 e hmem)

theorem bypass_of_covers (h : stats.covers m = true) (now : ℚ) :
    shouldBypassModelScopedCooldown stats now (some m) = false := by
  unfold shouldBypassModelScopedCooldown
  rcases Bool.or_eq_true _ _ ▸ h with h | h
  · simp [h]
  · simp [h]

theorem bypass_of_disabled {e now : ℚ} (h0 : 0 ≤ now) (hnow : now < e) (h : stats.disabledUntil = some e)
    (forModel : Option String) :
    shouldBypassModelScopedCooldown stats now forModel = false := by
  have hactive : isActiveUnusableWindow stats.disabledUntil now = true := by
    rw [h, isActiveUnusableWindow, any_some, Bool.and_eq_true, decide_eq_true_eq, decide_eq_true_eq]
    exact ⟨lt_of_le_of_lt h0 hnow, hnow⟩
  rw [shouldBypassModelScopedCooldown, hactive, Bool.not_true, Bool.and_false]

/-- The cooldown reaches this far for the model. -/
def CooldownHeld (m : String) (windowEnd : ℚ) (usage : Option ProfileUsageStats) : Prop :=
  ∃ stats e, usage = some stats ∧ stats.cooldownUntil = some e ∧ windowEnd ≤ e ∧ stats.covers m = true

/-- The disable window reaches this far. -/
def DisableHeld (windowEnd : ℚ) (usage : Option ProfileUsageStats) : Prop :=
  ∃ stats e, usage = some stats ∧ stats.disabledUntil = some e ∧ windowEnd ≤ e

section Profile
variable {toLowerCase : String → String} {provider : String}
  (hprovider : isAuthCooldownBypassedForProvider toLowerCase provider = false)
include hprovider

theorem inCooldown_of_cooldownHeld {now : ℚ} (h0 : 0 ≤ now) (hnow : now < w) (h : CooldownHeld m w usage) :
    isProfileInCooldown toLowerCase provider usage now (some m) = true := by
  obtain ⟨stats, e, rfl, he, hle, hcovers⟩ := h
  unfold isProfileInCooldown
  rw [hprovider, if_neg Bool.false_ne_true]
  dsimp only
  rw [bypass_of_covers hcovers, if_neg Bool.false_ne_true]
  exact lt_resolveProfileUnusableUntil h0 (lt_of_lt_of_le hnow hle) (.inl he)

theorem inCooldown_of_disableHeld {forModel : Option String} {now : ℚ} (h0 : 0 ≤ now) (hnow : now < w)
    (h : DisableHeld w usage) :
    isProfileInCooldown toLowerCase provider usage now forModel = true := by
  obtain ⟨stats, e, rfl, he, hle⟩ := h
  have hlt := lt_of_lt_of_le hnow hle
  unfold isProfileInCooldown
  rw [hprovider, if_neg Bool.false_ne_true]
  dsimp only
  rw [bypass_of_disabled h0 hlt he, if_neg Bool.false_ne_true]
  exact lt_resolveProfileUnusableUntil h0 hlt (.inr he)

end Profile

/-! ### One failure -/

theorem keepActiveWindow_of_active {e now recomputed : ℚ} (h : now < e) :
    keepActiveWindowOrRecompute (some e) now recomputed = e := if_pos h

theorem policy_eq_none {cfg : ResolvedAuthCooldownConfig} {reason : AuthProfileFailureReason} :
    disabledFailureBackoffPolicy cfg reason = none ↔ reason ≠ .billing ∧ reason ≠ .auth_permanent := by
  cases reason <;> simp [disabledFailureBackoffPolicy]

theorem disables_iff {f : Failure} : f.disables = true ↔ f.reason = .billing ∨ f.reason = .auth_permanent := by
  rw [Failure.disables, Bool.or_eq_true, decide_eq_true_eq, decide_eq_true_eq]

theorem not_disables_iff {f : Failure} :
    f.disables = false ↔ f.reason ≠ .billing ∧ f.reason ≠ .auth_permanent := by
  rw [← Bool.not_eq_true, disables_iff, not_or]

section Compute
variable (existing : ProfileUsageStats) (now : ℚ) (reason : AuthProfileFailureReason)
  (cfg : ResolvedAuthCooldownConfig) (modelId : Option String)

/-- A disabling failure leaves the cooldown as it is. -/
theorem compute_disabling (h : reason = .billing ∨ reason = .auth_permanent) :
    let next := computeNextProfileUsageStats existing now reason cfg modelId
    next.cooldownUntil = existing.cooldownUntil ∧ next.cooldownReason = existing.cooldownReason ∧
      next.cooldownModel = existing.cooldownModel ∧
      ∃ recomputed, next.disabledUntil = some (keepActiveWindowOrRecompute existing.disabledUntil now recomputed) := by
  rcases h with rfl | rfl <;> exact ⟨rfl, rfl, rfl, _, rfl⟩

/-- Any other failure leaves the disable window as it is. -/
theorem compute_cooling (h : reason ≠ .billing ∧ reason ≠ .auth_permanent) :
    let next := computeNextProfileUsageStats existing now reason cfg modelId
    next.disabledUntil = existing.disabledUntil ∧ next.cooldownReason = some reason ∧
      next.cooldownModel = nextCooldownModel existing now reason modelId ∧
      ∃ recomputed, next.cooldownUntil = some (keepActiveWindowOrRecompute existing.cooldownUntil now recomputed) := by
  unfold computeNextProfileUsageStats
  rw [policy_eq_none.mpr h]
  exact ⟨rfl, rfl, rfl, _, rfl⟩

end Compute

theorem covers_of_none (h : stats.cooldownModel = none) (m : String) :
    stats.covers m = true := by
  rw [ProfileUsageStats.covers, h]
  rfl

/-- The scope of the cooldown after a failure that is no disabling one. -/
theorem nextCooldownModel_cases (existing : ProfileUsageStats) (now : ℚ) (reason : AuthProfileFailureReason)
    (modelId : Option String) :
    nextCooldownModel existing now reason modelId = none ∨
      (reason = .rate_limit ∧ existing.cooldownUntil.any (now < ·) = true ∧
        nextCooldownModel existing now reason modelId = existing.cooldownModel ∧
        ((truthy existing.cooldownModel).isNone = true ∨ existing.cooldownModel = modelId)) ∨
      (reason = .rate_limit ∧ existing.cooldownUntil.any (now < ·) = false ∧
        nextCooldownModel existing now reason modelId = modelId) := by
  unfold nextCooldownModel
  by_cases hactive : existing.cooldownUntil.any (now < ·) = true
  · rw [if_pos hactive]
    split
    · exact .inl rfl
    · next hdifferent =>
      split
      · exact .inl rfl
      · next hunknown =>
        split
        · exact .inl rfl
        · next hreason =>
          rw [ne_eq, not_not] at hreason
          refine .inr (.inl ⟨hreason, hactive, rfl, ?_⟩)
          rw [hreason] at hunknown
          cases hexisting : truthy existing.cooldownModel with
          | none => exact .inl rfl
          | some x =>
            cases hmodel : truthy modelId with
            | none => simp [hexisting, hmodel] at hunknown
            | some y =>
              right
              simpa [hexisting, hmodel] using hdifferent
  · rw [if_neg hactive]
    by_cases hreason : reason = .rate_limit
    · rw [if_pos hreason]
      exact .inr (.inr ⟨hreason, Bool.not_eq_true _ ▸ hactive, rfl⟩)
    · rw [if_neg hreason]
      exact .inl rfl

section Failure
variable {toLowerCase : String → String} {provider : String}
  (hprovider : isAuthCooldownBypassedForProvider toLowerCase provider = false)
include hprovider

/-- What a failure leaves: the windows and the scope that were computed, and where the probe
was asked a cooldown that ends no earlier than an open one did. -/
theorem markAuthProfileFailure_next (f : Failure) (now : ℚ) (usage : Option ProfileUsageStats) :
    ∃ cfg next, markAuthProfileFailure toLowerCase provider f now usage = some next ∧
      let computed := computeNextProfileUsageStats (usage.getD {}) now f.reason cfg f.modelId
      next.disabledUntil = computed.disabledUntil ∧ next.cooldownModel = computed.cooldownModel ∧
        (next.cooldownUntil = computed.cooldownUntil ∨
          f.whamResult ≠ none ∧ f.disables = false ∧
            ∃ e, next.cooldownUntil = some e ∧ ∀ e₀, (usage.getD {}).cooldownUntil = some e₀ → now < e₀ →
              e₀ ≤ e) := by
  unfold markAuthProfileFailure
  rw [hprovider, if_neg Bool.false_ne_true]
  dsimp only
  cases hprobe : f.whamResult.filter fun _ => shouldProbeWhamForFailure toLowerCase provider f.reason with
  | none => exact ⟨_, _, rfl, rfl, rfl, .inl rfl⟩
  | some cooldownMs =>
    obtain ⟨hwham, hask⟩ := filter_eq_some_iff.mp hprobe
    refine ⟨_, _, rfl, rfl, rfl, .inr ⟨by rw [hwham]; exact nofun, ?_, _, rfl, ?_⟩⟩
    · unfold shouldProbeWhamForFailure at hask
      unfold Failure.disables
      rw [Bool.and_eq_true, Bool.or_eq_true, decide_eq_true_eq, decide_eq_true_eq, decide_eq_true_eq] at hask
      rcases hask.2 with h | h <;> rw [h] <;> rfl
    · intro e₀ hopen hlt
      rw [hopen, filter_some, if_pos (decide_eq_true hlt), getD_some]
      exact le_max_left _ _

/-- An open cooldown ends no earlier after a failure, and its scope only widens. -/
theorem failure_cooldownHeld (f : Failure) {now : ℚ} (hnow : now < w) (h : CooldownHeld m w usage) :
    CooldownHeld m w (markAuthProfileFailure toLowerCase provider f now usage) := by
  obtain ⟨stats, e, rfl, he, hle, hcovers⟩ := h
  have hlt := lt_of_lt_of_le hnow hle
  obtain ⟨cfg, next, hnext, -, hmodel, hend⟩ := markAuthProfileFailure_next hprovider f now (some stats)
  rw [getD_some] at hmodel hend
  cases hd : f.disables with
  | true =>
    obtain ⟨hend', -, hmodel', -⟩ := compute_disabling stats now f.reason cfg f.modelId (disables_iff.mp hd)
    have hsame : next.cooldownUntil = some e := by
      rcases hend with hend | ⟨-, hnot, -⟩
      · rw [hend, hend', he]
      · rw [hd] at hnot
        cases hnot
    refine ⟨next, e, hnext, hsame, hle, ?_⟩
    rw [ProfileUsageStats.covers, hmodel, hmodel']
    exact hcovers
  | false =>
    obtain ⟨-, -, hmodel', recomputed, hend'⟩ :=
      compute_cooling stats now f.reason cfg f.modelId (not_disables_iff.mp hd)
    have hlater : ∃ e', next.cooldownUntil = some e' ∧ e ≤ e' := by
      rcases hend with hend | ⟨-, -, e', he', hopen⟩
      · rw [hend, hend', he, keepActiveWindow_of_active hlt]
        exact ⟨e, rfl, le_rfl⟩
      · exact ⟨e', he', hopen e he hlt⟩
    obtain ⟨e', he', hle'⟩ := hlater
    refine ⟨next, e', hnext, he', hle.trans hle', ?_⟩
    rw [hmodel'] at hmodel
    rcases nextCooldownModel_cases stats now f.reason f.modelId with hscope | ⟨-, -, hscope, -⟩ | ⟨-, hclosed, -⟩
    · exact covers_of_none (hmodel.trans hscope) m
    · rw [ProfileUsageStats.covers, hmodel, hscope]
      exact hcovers
    · rw [he, any_some, decide_eq_false_iff_not] at hclosed
      exact absurd hlt hclosed

/-- An open disable window ends no earlier after a failure. -/
theorem failure_disableHeld (f : Failure) {now : ℚ} (hnow : now < w) (h : DisableHeld w usage) :
    DisableHeld w (markAuthProfileFailure toLowerCase provider f now usage) := by
  obtain ⟨stats, e, rfl, he, hle⟩ := h
  have hlt := lt_of_lt_of_le hnow hle
  obtain ⟨cfg, next, hnext, hend, -⟩ := markAuthProfileFailure_next hprovider f now (some stats)
  rw [getD_some] at hend
  cases hd : f.disables with
  | true =>
    obtain ⟨-, -, -, recomputed, hend'⟩ := compute_disabling stats now f.reason cfg f.modelId (disables_iff.mp hd)
    rw [hend', he, keepActiveWindow_of_active hlt] at hend
    exact ⟨next, e, hnext, hend, hle⟩
  | false =>
    obtain ⟨hend', -⟩ := compute_cooling stats now f.reason cfg f.modelId (not_disables_iff.mp hd)
    rw [hend', he] at hend
    exact ⟨next, e, hnext, hend, hle⟩

/-- Right after a failure that concerns the model, what it holds back is held back. -/
theorem failure_held (f : Failure) (hm : f.concerns m = true) {now : ℚ} {next : ProfileUsageStats}
    (hnext : markAuthProfileFailure toLowerCase provider f now usage = some next) (h : held f m next w) :
    CooldownHeld m w (some next) ∨ DisableHeld w (some next) := by
  rcases h with h | ⟨h, hscope⟩
  · exact .inr ⟨next, w, rfl, h, le_rfl⟩
  · refine .inl ⟨next, w, rfl, h, le_rfl, ?_⟩
    cases hd : f.disables with
    | true => exact hscope hd
    | false =>
      obtain ⟨cfg, next', hnext', -, hmodel, -⟩ := markAuthProfileFailure_next hprovider f now usage
      cases hnext.symm.trans hnext'
      obtain ⟨-, -, hmodel', -⟩ :=
        compute_cooling (usage.getD {}) now f.reason cfg f.modelId (not_disables_iff.mp hd)
      rw [hmodel'] at hmodel
      -- a rate limit scopes the cooldown to its own model, if that is known
      have hown : f.reason = .rate_limit → next.cooldownModel = f.modelId → next.covers m = true := by
        intro hreason hmodelId
        rw [ProfileUsageStats.covers, hmodelId]
        unfold Failure.concerns at hm
        simp only [hreason, ne_eq, not_true_eq_false, decide_false, Bool.or_false, Bool.or_eq_true,
          decide_eq_true_eq] at hm ⊢
        rcases hm with hm | hm
        · exact .inr (filter_eq_some_iff.mp hm).1
        · exact .inl hm
      rcases nextCooldownModel_cases (usage.getD {}) now f.reason f.modelId with
        hnone | ⟨hreason, -, hkept, hkept' | hsame⟩ | ⟨hreason, -, hset⟩
      · exact covers_of_none (hmodel.trans hnone) m
      · rw [ProfileUsageStats.covers, hmodel, hkept, hkept', Bool.true_or]
      · exact hown hreason (hmodel.trans (hkept.trans hsame))
      · exact hown hreason (hmodel.trans hset)

end Failure

/-! ### Sweeps and runs -/

theorem clearExpired_keeps {now : ℚ} :
    (∀ e, stats.cooldownUntil = some e → now < e →
      (clearExpired stats now).cooldownUntil = some e ∧
        (clearExpired stats now).cooldownModel = stats.cooldownModel) ∧
      ∀ e, stats.disabledUntil = some e → now < e → (clearExpired stats now).disabledUntil = some e := by
  have hopen : ∀ e : ℚ, now < e → (decide (0 < e) && decide (e ≤ now)) = false := by
    intro e hlt
    rw [Bool.and_eq_false_iff, decide_eq_false_iff_not, decide_eq_false_iff_not]
    exact .inr (not_le.mpr hlt)
  constructor
  · intro e he hlt
    unfold clearExpired
    simp only [he, any_some, hopen e hlt, Bool.false_eq_true, if_false]
    split <;> split <;> simp [he]
  · intro e he hlt
    unfold clearExpired
    simp only [he, any_some, hopen e hlt, Bool.false_eq_true, if_false]
    split <;> split <;> simp [he]

theorem usageMachine_some {toLowerCase : String → String} {provider : String} {e : UsageEvent × ℚ} :
    usageMachine toLowerCase provider e s = some t ↔
      s.clock ≤ e.2 ∧ ⟨applyUsageEvent toLowerCase provider e.1 e.2 s.usage, e.2⟩ = t := by
  obtain ⟨e, now⟩ := e
  rw [usageMachine]
  by_cases h : s.clock ≤ now <;> simp [h]

section Run
variable {toLowerCase : String → String} {provider : String}
  (hprovider : isAuthCooldownBypassedForProvider toLowerCase provider = false)
include hprovider

/-- **What is held back stays held back until its end**, whatever happens but a success or a
manual clear. -/
theorem step_held {e : UsageEvent} {now : ℚ} (he : e.resets = false)
    (hstep : usageMachine toLowerCase provider (e, now) s = some t)
    (h : s.clock < w → CooldownHeld m w s.usage ∨ DisableHeld w s.usage) :
    t.clock < w → CooldownHeld m w t.usage ∨ DisableHeld w t.usage := by
  obtain ⟨hclock, rfl⟩ := usageMachine_some.mp hstep
  intro hnow
  have hheld := h (lt_of_le_of_lt hclock hnow)
  cases e with
  | failure f => exact hheld.imp (failure_cooldownHeld hprovider f hnow) (failure_disableHeld hprovider f hnow)
  | sweep =>
    rcases hheld with ⟨stats, e, hstats, hend, hle, hcovers⟩ | ⟨stats, e, hstats, hend, hle⟩
    · obtain ⟨hend', hmodel⟩ := clearExpired_keeps.1 e hend (lt_of_lt_of_le hnow hle)
      refine .inl ⟨clearExpired stats now, e, congrArg (Option.map (clearExpired · now)) hstats, hend', hle, ?_⟩
      rw [ProfileUsageStats.covers, hmodel]
      exact hcovers
    · exact .inr ⟨clearExpired stats now, e, congrArg (Option.map (clearExpired · now)) hstats,
        clearExpired_keeps.2 e hend (lt_of_lt_of_le hnow hle), hle⟩
  | _ => cases he

omit hprovider in
theorem run_clock {events : List (UsageEvent × ℚ)} (hr : (usageMachine toLowerCase provider).run events s = some t) :
    s.clock ≤ t.clock := by
  induction events generalizing s with
  | nil =>
    cases hr
    exact le_rfl
  | cons e rest ih =>
    obtain ⟨u, hu, ht⟩ := (Machine.run_cons_some _).mp hr
    obtain ⟨hclock, rfl⟩ := usageMachine_some.mp hu
    exact hclock.trans (ih ht)

theorem run_held {events : List (UsageEvent × ℚ)} (hevents : ∀ e ∈ events, e.1.resets = false)
    (hr : (usageMachine toLowerCase provider).run events s = some t)
    (h : s.clock < w → CooldownHeld m w s.usage ∨ DisableHeld w s.usage) :
    t.clock < w → CooldownHeld m w t.usage ∨ DisableHeld w t.usage := by
  induction events generalizing s with
  | nil =>
    cases hr
    exact h
  | cons e rest ih =>
    obtain ⟨u, hu, ht⟩ := (Machine.run_cons_some _).mp hr
    exact ih (fun e' he' => hevents e' (List.mem_cons_of_mem _ he')) ht
      (step_held hprovider (hevents e (List.mem_cons_self ..)) hu h)

end Run

/-- A failure without a probe leaves the end of an open window as it is. -/
theorem failure_keeps_windows (toLowerCase : String → String) (provider : String) (f : Failure)
    (hwham : f.whamResult = none) (now : ℚ) (stats : ProfileUsageStats) {next : ProfileUsageStats}
    (hnext : markAuthProfileFailure toLowerCase provider f now (some stats) = some next) :
    (∀ e, stats.cooldownUntil = some e → now < e → next.cooldownUntil = some e) ∧
      ∀ e, stats.disabledUntil = some e → now < e → next.disabledUntil = some e := by
  cases hprovider : isAuthCooldownBypassedForProvider toLowerCase provider with
  | true =>
    unfold markAuthProfileFailure at hnext
    rw [hprovider, if_pos rfl] at hnext
    cases hnext
    exact ⟨fun e he _ => he, fun e he _ => he⟩
  | false =>
    obtain ⟨cfg, next', hnext', hdisabled, -, hcooldown⟩ := markAuthProfileFailure_next hprovider f now (some stats)
    cases hnext.symm.trans hnext'
    rw [getD_some] at hdisabled hcooldown
    have hcooldown := hcooldown.resolve_right fun hand => hand.1 hwham
    cases hd : f.disables with
    | true =>
      obtain ⟨hend, -, -, recomputed, hend'⟩ := compute_disabling stats now f.reason cfg f.modelId (disables_iff.mp hd)
      rw [hend] at hcooldown
      rw [hend'] at hdisabled
      refine ⟨fun e he _ => hcooldown.trans he, fun e he hlt => ?_⟩
      rw [hdisabled, he, keepActiveWindow_of_active hlt]
    | false =>
      obtain ⟨hend, -, -, recomputed, hend'⟩ :=
        compute_cooling stats now f.reason cfg f.modelId (not_disables_iff.mp hd)
      rw [hend'] at hcooldown
      rw [hend] at hdisabled
      refine ⟨fun e he hlt => ?_, fun e he _ => hdisabled.trans he⟩
      rw [hcooldown, he, keepActiveWindow_of_active hlt]

/-- **A failing model is not let through**: after a failure that concerns it the profile is in
cooldown for the model until every window the failure holds has passed or a success or a manual
clear came; and without a probe no failure moves the end of an open window. -/
theorem failing_model_in_cooldown (toLowerCase : String → String) (provider : String)
    (hprovider : isAuthCooldownBypassedForProvider toLowerCase provider = false) :
    (∀ (s t u : UsageState) (f : Failure) (failedAt : ℚ) (after : List (UsageEvent × ℚ)) (m : String)
        (next : ProfileUsageStats) (w now : ℚ),
      0 ≤ s.clock → f.concerns m = true →
      usageMachine toLowerCase provider (.failure f, failedAt) s = some t → t.usage = some next → held f m next w →
      (∀ e ∈ after, e.1.resets = false) → (usageMachine toLowerCase provider).run after t = some u →
      u.clock ≤ now → now < w → isProfileInCooldown toLowerCase provider u.usage now (some m) = true) ∧
    ∀ (f : Failure) (now : ℚ) (stats next : ProfileUsageStats), f.whamResult = none →
      markAuthProfileFailure toLowerCase provider f now (some stats) = some next →
      (∀ e, stats.cooldownUntil = some e → now < e → next.cooldownUntil = some e) ∧
        ∀ e, stats.disabledUntil = some e → now < e → next.disabledUntil = some e := by
  refine ⟨?_, fun f now stats next hwham hnext => failure_keeps_windows _ _ f hwham now stats hnext⟩
  intro s t u f failedAt after m next w now h0 hm hstep hnext hheld hafter hr hclock hnow
  obtain ⟨hfailed, rfl⟩ := usageMachine_some.mp hstep
  have hstart := failure_held hprovider f hm hnext hheld
  rw [← hnext] at hstart
  have hend := run_held hprovider hafter hr (fun _ => hstart) (lt_of_le_of_lt hclock hnow)
  have h0' : 0 ≤ now := h0.trans (hfailed.trans ((run_clock hr).trans hclock))
  exact hend.elim (inCooldown_of_cooldownHeld hprovider h0' hnow) (inCooldown_of_disableHeld hprovider h0' hnow)

def rateLimited (model : String) : Failure := ⟨.rate_limit, some model, {}, none⟩

def authRevoked : Failure := ⟨.auth_permanent, none, {}, none⟩

/-- After a rate limit of one model another failure without a model holds back every model. -/
theorem failing_model_in_cooldown_unknown :
    ∃ s t next u, (usageMachine id "anthropic").run [(.failure (rateLimited "sonnet"), 1000)] {} = some s ∧
      usageMachine id "anthropic" (.failure ⟨.rate_limit, none, {}, none⟩, 2000) s = some t ∧
      t.usage = some next ∧ next.cooldownUntil = some 31000 ∧
      (usageMachine id "anthropic").run [(.failure (rateLimited "sonnet"), 3000), (.sweep, 4000)] t = some u ∧
      isProfileInCooldown id "anthropic" u.usage 30000 (some "opus") = true := by
  refine ⟨_, _, _, _, rfl, rfl, rfl, by decide +kernel, rfl, ?_⟩
  refine (failing_model_in_cooldown id "anthropic" (by decide)).1
    ⟨applyUsageEvent id "anthropic" (.failure (rateLimited "sonnet")) 1000 none, 1000⟩ _ _
    ⟨.rate_limit, none, {}, none⟩ 2000 [(.failure (rateLimited "sonnet"), 3000), (.sweep, 4000)] "opus" _ 31000 30000
    ?_ ?_ rfl rfl (.inr ⟨?_, nofun⟩) ?_ rfl ?_ ?_
  all_goals decide +kernel

/-- A revoked key disables the profile for ten minutes. It found the cooldown of another model
open, and that one ends later: in between the profile may be used again. -/
theorem model_let_through_after_disable :
    ∃ s t next, (usageMachine id "anthropic").run
        [(.failure authRevoked, 0), (.failure (rateLimited "sonnet"), 590000)] {} = some s ∧
      usageMachine id "anthropic" (.failure authRevoked, 595000) s = some t ∧ t.usage = some next ∧
      authRevoked.concerns "opus" = true ∧ next.cooldownUntil = some 650000 ∧
      isProfileInCooldown id "anthropic" t.usage 610000 (some "opus") = false :=
  ⟨_, _, _, rfl, rfl, rfl, by decide +kernel, by decide +kernel, by decide +kernel⟩

end OpenClaw.Agents
