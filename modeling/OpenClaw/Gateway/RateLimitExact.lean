import OpenClaw.Gateway.AuthRateLimit

/-! What the rate limiter counts.

By the failures recorded for a key alone, its standing is that of `Budget.standing`:
counting within the window, or locked. The entries of the limiter come to the same
(`Tracks`), whatever checks and prunings came between, as long as no failure is
recorded on top of a lockout that has ended and that no check has cleared
(`RecordsClear`). Only `check` clears it: a failure recorded before that is counted
with those from before the lockout, or wiped by the next check
(`stale_failure_shows`). -/
namespace OpenClaw.Gateway
open Foundation List InsertionMap Option

/-! ### The standing of an entry -/

def RateLimitEntry.standing (config : RateLimitConfig) (now : Nat) (entry : RateLimitEntry) : Standing :=
  if entry.isLocked now then .locked (entry.lockedUntil.getD 0)
  else if entry.lockoutExpired now then .counting []
  else .counting (config.budget.recent now entry.attempts)

/-- The standing of a key, by its entry. -/
def RateLimiter.standing (config : RateLimitConfig) (key : String) (now : Nat) (s : RateLimiter) : Standing :=
  ((s.entries.get? key).map (RateLimitEntry.standing config now)).getD (.counting [])

/-- What `check` answers at a standing. -/
def checkResult (config : RateLimitConfig) (now : Nat) : Standing → RateLimitCheckResult
  | .locked ends => ⟨false, 0, ends - now⟩
  | .counting times =>
    let remaining := max 0 (config.maxAttempts - times.length)
    ⟨decide (0 < remaining), remaining, 0⟩

section Entries
variable {config : RateLimitConfig} {now later : Nat} {entry : RateLimitEntry}

/-- An entry is locked, or its lockout has ended, or it has none. -/
theorem lockout_cases (entry : RateLimitEntry) (now : Nat) :
    (∃ ends, entry.lockout = some ends ∧ entry.lockedUntil = some ends ∧ (now : ℚ) < ends) ∨
    (∃ ends, entry.lockout = some ends ∧ ends ≤ (now : ℚ)) ∨ entry.lockout = none := by
  cases h : entry.lockout with
  | none => exact .inr (.inr rfl)
  | some ends =>
    rcases lt_or_ge (now : ℚ) ends with hlt | hge
    · exact .inl ⟨ends, rfl, (filter_eq_some_iff.mp h).1, hlt⟩
    · exact .inr (.inl ⟨ends, rfl, hge⟩)

theorem standing_of_locked {ends : ℚ} (h : entry.lockout = some ends) (hlt : (now : ℚ) < ends) :
    entry.standing config now = .locked ends := by
  have huntil : entry.lockedUntil = some ends := (filter_eq_some_iff.mp h).1
  simp [RateLimitEntry.standing, RateLimitEntry.isLocked, h, hlt, huntil]

theorem standing_of_ended {ends : ℚ} (h : entry.lockout = some ends) (hle : ends ≤ (now : ℚ)) :
    entry.standing config now = .counting [] := by
  simp [RateLimitEntry.standing, RateLimitEntry.isLocked, RateLimitEntry.lockoutExpired, h, hle]

theorem standing_of_none (h : entry.lockout = none) :
    entry.standing config now = .counting (config.budget.recent now entry.attempts) := by
  simp [RateLimitEntry.standing, RateLimitEntry.isLocked, RateLimitEntry.lockoutExpired, h]

theorem slideWindow_attempts : (entry.slideWindow config now).attempts = config.budget.recent now entry.attempts := rfl

theorem slideWindow_lockout : (entry.slideWindow config now).lockout = entry.lockout := rfl

/-- Sliding the window of an entry leaves its standing later on. -/
theorem standing_slideWindow (h : now ≤ later) :
    (entry.slideWindow config now).standing config later = entry.standing config later := by
  rcases lockout_cases entry later with ⟨ends, hlock, -, hlt⟩ | ⟨ends, hlock, hle⟩ | hnone
  · rw [standing_of_locked hlock hlt, standing_of_locked (slideWindow_lockout.trans hlock) hlt]
  · rw [standing_of_ended hlock hle, standing_of_ended (slideWindow_lockout.trans hlock) hle]
  · rw [standing_of_none hnone, standing_of_none (slideWindow_lockout.trans hnone), slideWindow_attempts,
      Budget.recent_recent h]

/-- So does a check. -/
theorem standing_checkedEntry (h : now ≤ later) :
    (checkedEntry config now entry).standing config later = entry.standing config later := by
  unfold checkedEntry
  rw [standing_slideWindow h]
  split_ifs with hexpired
  · simp only [RateLimitEntry.lockoutExpired, Option.any_eq_true] at hexpired
    obtain ⟨ends, hlock, hle⟩ := hexpired
    have hle' : ends ≤ (later : ℚ) := le_trans (of_decide_eq_true hle) (by exact_mod_cast h)
    rw [standing_of_ended hlock hle', standing_of_none rfl, Budget.recent_nil]
  · rfl

/-- An entry that is not locked and counts nothing stands as no entry does. -/
theorem standing_of_empty (hlocked : entry.isLocked now = false) (hempty : (entry.slideWindow config now).attempts = [])
    (h : now ≤ later) : entry.standing config later = .counting [] := by
  rw [slideWindow_attempts] at hempty
  rcases lockout_cases entry now with ⟨ends, hlock, -, hlt⟩ | ⟨ends, hlock, hle⟩ | hnone
  · simp [RateLimitEntry.isLocked, hlock, hlt] at hlocked
  · exact standing_of_ended hlock (le_trans hle (by exact_mod_cast h))
  · rw [standing_of_none hnone, ← Budget.recent_recent h, hempty, Budget.recent_nil]

end Entries

/-! ### Checks -/

section Checks
variable {config : RateLimitConfig} {key : String} {now : Nat} {s : RateLimiter}

theorem checkKey_result (hmax : 1 ≤ config.maxAttempts) :
    (s.checkKey config key now).1 = checkResult config now (s.standing config key now) := by
  unfold RateLimiter.checkKey RateLimiter.standing
  cases hget : s.entries.get? key with
  | none =>
    have hpos : 0 < config.maxAttempts := by linarith
    simp [checkResult, max_eq_right hpos.le, hpos]
  | some entry =>
    simp only [map_some, getD_some]
    by_cases hlocked : entry.isLocked now = true
    · simp [RateLimitEntry.standing, hlocked, checkResult]
    · by_cases hexpired : entry.lockoutExpired now = true
      · simp [RateLimitEntry.standing, hlocked, hexpired, checkedEntry, checkResult, RateLimitEntry.slideWindow]
      · simp [RateLimitEntry.standing, hlocked, hexpired, checkedEntry, checkResult, slideWindow_attempts]

theorem checkKey_frame (config : RateLimitConfig) (key : String) (now : Nat) (s : RateLimiter) :
    ∃ entries, (s.checkKey config key now).2 = {s with entries := entries} ∧
    ∀ k later, now ≤ later → ((entries.get? k).map (RateLimitEntry.standing config later)).getD (.counting []) =
      s.standing config k later := by
  unfold RateLimiter.checkKey
  cases hget : s.entries.get? key with
  | none => exact ⟨s.entries, rfl, fun _ _ _ => rfl⟩
  | some entry =>
    by_cases hlocked : entry.isLocked now = true
    · refine ⟨s.entries, by simp [hlocked], fun _ _ _ => rfl⟩
    · refine ⟨s.entries.set key (checkedEntry config now entry), by simp [hlocked], fun k later hlater => ?_⟩
      rw [get?_set]
      split_ifs with hk
      · subst hk
        simp [RateLimiter.standing, hget, standing_checkedEntry hlater]
      · rfl

theorem prune_standing {later : Nat} (hlater : now ≤ later) :
    (s.prune config now).standing config key later = s.standing config key later := by
  unfold RateLimiter.prune RateLimiter.standing
  simp only [get?_keepValues, get?_mapValues]
  cases hget : s.entries.get? key with
  | none => rfl
  | some entry =>
    by_cases hlocked : entry.isLocked now = true
    · simp [hlocked, Option.filter]
    · have hlocked' : (entry.slideWindow config now).isLocked now = false := by
        simpa [RateLimitEntry.isLocked, slideWindow_lockout] using hlocked
      simp only [map_some, if_neg hlocked, Option.filter, hlocked', Bool.false_or, getD_some]
      split_ifs with hempty
      · simp [standing_slideWindow hlater]
      · have hnil : (entry.slideWindow config now).attempts = [] := by simpa using hempty
        simp [standing_of_empty (by simpa using hlocked) hnil hlater]

end Checks

/-! ### Failures -/

/-- The times of the failures recorded for a key. -/
def RateLimiter.failuresOf (key : String) (s : RateLimiter) : List Nat :=
  (s.failures.filter fun f => f.1 = key).map Prod.snd

/-- If the step records a failure, no lockout of the key has ended without a check
having cleared it. With a limit of one the failure locks the key in any case. -/
def recordsClear (config : RateLimitConfig) (host : AddressHost) : RateLimitEvent → RateLimiter → Bool
  | .recordFailure rawIp rawScope now, s =>
    config.maxAttempts ≤ 1 || config.isExempt host rawIp ||
      (s.entries.get? (resolveKey host rawIp rawScope)).all fun entry => !entry.lockoutExpired now
  | _, _ => true

abbrev RecordsClear (config : RateLimitConfig) (host : AddressHost) (e : RateLimitEvent) (s : RateLimiter) : Prop :=
  recordsClear config host e s = true

/-- The entries stand as the failures say. -/
structure Tracks (config : RateLimitConfig) (s : RateLimiter) : Prop where
  standing : ∀ key now, s.clock ≤ now →
    s.standing config key now = config.budget.age now (config.budget.standing (s.failuresOf key))
  past : ∀ f ∈ s.failures, f.2 ≤ s.clock

section Failures
variable {config : RateLimitConfig} {key : String} {now : Nat} {s : RateLimiter}

/-- What a failure makes of an entry that is not locked. -/
def failedEntry (config : RateLimitConfig) (now : Nat) (entry : RateLimitEntry) : RateLimitEntry :=
  let slid := entry.slideWindow config now
  let pushed := {slid with attempts := slid.attempts ++ [now]}
  if config.maxAttempts ≤ pushed.attempts.length then {pushed with lockedUntil := some (now + config.lockoutMs)}
  else pushed

theorem recordKey_eq : s.recordKey config key now = {s with
    failures := s.failures ++ [(key, now)]
    entries := s.entries.set key (if ((s.entries.get? key).getD {}).isLocked now then (s.entries.get? key).getD {}
      else failedEntry config now ((s.entries.get? key).getD {}))} := by
  simp only [RateLimiter.recordKey, failedEntry]
  split <;> rfl

theorem failedEntry_of_le {entry : RateLimitEntry}
    (h : config.maxAttempts ≤ (config.budget.recent now entry.attempts ++ [now]).length) :
    failedEntry config now entry =
      ⟨config.budget.recent now entry.attempts ++ [now], some (now + config.lockoutMs)⟩ :=
  if_pos h

theorem failedEntry_of_lt {entry : RateLimitEntry}
    (h : ¬ config.maxAttempts ≤ (config.budget.recent now entry.attempts ++ [now]).length) :
    failedEntry config now entry = {entry with attempts := config.budget.recent now entry.attempts ++ [now]} :=
  if_neg h

theorem count_of_le {times : List Nat} (h : config.maxAttempts ≤ (times ++ [now]).length) :
    config.budget.count times now = .locked (now + config.lockoutMs) :=
  if_pos h

theorem count_of_lt {times : List Nat} (h : ¬ config.maxAttempts ≤ (times ++ [now]).length) :
    config.budget.count times now = .counting (times ++ [now]) :=
  if_neg h

/-- A failure that locks an entry locks it for the length of a lockout. -/
theorem failedEntry_locks {entry : RateLimitEntry} {later : Nat} (hl : 0 < config.lockoutMs)
    (hlimit : config.maxAttempts ≤ (config.budget.recent now entry.attempts ++ [now]).length) :
    (failedEntry config now entry).standing config later =
      config.budget.age later (.locked (now + config.lockoutMs)) := by
  have hpos : (0 : ℚ) < now + config.lockoutMs := by positivity
  have hlock : (failedEntry config now entry).lockout = some (now + config.lockoutMs) := by
    rw [failedEntry_of_le hlimit]
    simp [RateLimitEntry.lockout, Option.filter, hpos.ne']
  rcases lt_or_ge (later : ℚ) (now + config.lockoutMs) with hlt | hge
  · rw [standing_of_locked hlock hlt, Budget.age, if_pos hlt]
  · rw [standing_of_ended hlock hge, Budget.age, if_neg (not_lt.mpr hge)]

theorem failedEntry_standing {entry : RateLimitEntry} {later : Nat} (hl : 0 < config.lockoutMs)
    (hnone : entry.lockout = none) : (failedEntry config now entry).standing config later =
      config.budget.age later (config.budget.count (config.budget.recent now entry.attempts) now) := by
  by_cases hlimit : config.maxAttempts ≤ (config.budget.recent now entry.attempts ++ [now]).length
  · rw [failedEntry_locks hl hlimit, count_of_le hlimit]
  · rw [count_of_lt hlimit, failedEntry_of_lt hlimit]
    exact standing_of_none hnone

theorem Tracks.record (hs : Tracks config s) (hl : 0 < config.lockoutMs)
    (hnow : s.clock ≤ now) (hclear : config.maxAttempts ≤ 1 ∨
      ∀ entry, s.entries.get? key = some entry → entry.lockoutExpired now = false) :
    Tracks config {s.recordKey config key now with clock := now} := by
  rw [recordKey_eq]
  refine ⟨fun k later hlater => ?_, ?_⟩
  · have hold := hs.standing k later (le_trans hnow hlater)
    rcases eq_or_ne k key with rfl | hne
    · have hfailures : ({s with failures := s.failures ++ [(k, now)]} : RateLimiter).failuresOf k =
          s.failuresOf k ++ [now] := by simp [RateLimiter.failuresOf, filter_append]
      have hstanding : config.budget.standing (s.failuresOf k ++ [now]) =
          config.budget.fail (config.budget.standing (s.failuresOf k)) now := by
        simp [Budget.standing, foldl_append]
      have haged := hs.standing k now hnow
      show ((((s.entries.set k _).get? k).map (RateLimitEntry.standing config later)).getD (.counting [])) =
        config.budget.age later (config.budget.standing
          (({s with failures := s.failures ++ [(k, now)]} : RateLimiter).failuresOf k))
      rw [hfailures, hstanding, Budget.fail, ← haged, get?_set_self]
      simp only [map_some, getD_some]
      -- A key without an entry stands as one with an empty entry.
      have hentry : ∀ at', s.standing config k at' = ((s.entries.get? k).getD {}).standing config at' := by
        intro at'
        cases hget : s.entries.get? k with
        | none =>
          simp only [RateLimiter.standing, hget, map_none, getD_none]
          rw [standing_of_none rfl, Budget.recent_nil]
        | some entry => simp [RateLimiter.standing, hget]
      have hclear' : config.maxAttempts ≤ 1 ∨ ((s.entries.get? k).getD {}).lockoutExpired now = false := by
        rcases hclear with h | h
        · exact .inl h
        · cases hget : s.entries.get? k with
          | none => exact .inr rfl
          | some entry => exact .inr (h entry hget)
      rw [hentry now]
      generalize (s.entries.get? k).getD {} = entry at hclear' ⊢
      rcases lockout_cases entry now with ⟨ends, hlock, -, hlt⟩ | ⟨ends, hlock, hle⟩ | hnone
      · have hlocked : entry.isLocked now = true := by simp [RateLimitEntry.isLocked, hlock, hlt]
        rw [if_pos hlocked, standing_of_locked hlock hlt]
        simp only [Budget.age]
        split_ifs with h
        · exact standing_of_locked hlock h
        · exact standing_of_ended hlock (not_lt.mp h)
      · have hlocked : entry.isLocked now = false := by simp [RateLimitEntry.isLocked, hlock, hle]
        have hone : config.maxAttempts ≤ 1 := by
          refine hclear'.resolve_right fun h => ?_
          simp [RateLimitEntry.lockoutExpired, hlock, hle] at h
        have hlimit : ∀ l : List Nat, config.maxAttempts ≤ (l ++ [now]).length := by
          intro l
          refine le_trans hone ?_
          simp
        rw [if_neg (by simp [hlocked]), standing_of_ended hlock hle, failedEntry_locks hl (hlimit _)]
        exact congrArg _ (count_of_le (hlimit [])).symm
      · have hlocked : entry.isLocked now = false := by simp [RateLimitEntry.isLocked, hnone]
        rw [if_neg (by simp [hlocked]), standing_of_none hnone]
        exact failedEntry_standing hl hnone
    · have hfailures : ({s with failures := s.failures ++ [(key, now)]} : RateLimiter).failuresOf k =
          s.failuresOf k := by simp [RateLimiter.failuresOf, filter_append, hne.symm]
      show ((((s.entries.set key _).get? k).map (RateLimitEntry.standing config later)).getD (.counting [])) =
        config.budget.age later (config.budget.standing
          (({s with failures := s.failures ++ [(key, now)]} : RateLimiter).failuresOf k))
      rw [hfailures, get?_set_ne _ hne]
      exact hold
  · intro f hf
    rcases mem_append.mp hf with hf | hf
    · exact le_trans (hs.past f hf) hnow
    · rw [mem_singleton.mp hf]

/-- What leaves the standings and the failures keeps track. -/
theorem Tracks.frame {t : RateLimiter} (hs : Tracks config s) (hnow : s.clock ≤ now) (hclock : t.clock = now)
    (hfailures : t.failures = s.failures)
    (hstanding : ∀ k later, now ≤ later → t.standing config k later = s.standing config k later) : Tracks config t := by
  refine ⟨fun k later hlater => ?_, fun f hf => ?_⟩
  · rw [hclock] at hlater
    rw [hstanding k later hlater, hs.standing k later (le_trans hnow hlater), RateLimiter.failuresOf,
      RateLimiter.failuresOf, hfailures]
  · rw [hfailures] at hf
    rw [hclock]
    exact le_trans (hs.past f hf) hnow

end Failures

/-! ### Runs -/

section Runs
variable {config : RateLimitConfig} {host : AddressHost}

theorem tracks_empty : Tracks config {} := by
  refine ⟨fun key now _ => rfl, fun f hf => ?_⟩
  cases hf

theorem Tracks.step {e : RateLimitEvent} {s t : RateLimiter} (hmax : 1 ≤ config.maxAttempts)
    (hl : 0 < config.lockoutMs) (hs : Tracks config s) (hclear : RecordsClear config host e s)
    (h : rateLimitStep config host e s = some t) : Tracks config t := by
  simp only [rateLimitStep] at h
  split_ifs at h with htime
  have hnow : s.clock ≤ e.time := not_lt.mp htime
  cases h
  cases e with
  | check rawIp rawScope now =>
    by_cases hexempt : config.isExempt host rawIp = true
    · exact hs.frame hnow rfl (by simp [check, hexempt]) fun k later _ => by simp [check, hexempt]; rfl
    · obtain ⟨entries, heq, hstanding⟩ := checkKey_frame config (resolveKey host rawIp rawScope) now s
      refine hs.frame hnow rfl ?_ fun k later hlater => ?_
      · simp [check, hexempt, heq]
      · simp only [check, hexempt, Bool.false_eq_true, if_false, heq]
        exact hstanding k later hlater
  | recordFailure rawIp rawScope now =>
    by_cases hexempt : config.isExempt host rawIp = true
    · exact hs.frame hnow rfl (by simp [recordFailure, hexempt]) fun k later _ => by
        simp [recordFailure, hexempt]; rfl
    · simp only [recordFailure, hexempt]
      refine hs.record hl hnow ?_
      simp only [RecordsClear, recordsClear, hexempt, Bool.or_false, Bool.or_eq_true, decide_eq_true_eq] at hclear
      refine hclear.imp_right fun h entry hentry => ?_
      rw [hentry] at h
      simpa using h
  | prune now => exact hs.frame hnow rfl rfl fun k later hlater => prune_standing hlater

theorem tracks_run {events : List RateLimitEvent} {s : RateLimiter} (hmax : 1 ≤ config.maxAttempts)
    (hl : 0 < config.lockoutMs) (hw : (rateLimitStep config host).Within (RecordsClear config host) events {})
    (h : (rateLimitStep config host).run events {} = some s) : Tracks config s :=
  (rateLimitStep config host).run_within_invariant (fun _ _ _ hs hc => hs.step hmax hl hc) events tracks_empty hw h

/-- The call records a failure. -/
def RateLimitEvent.isRecord : RateLimitEvent → Bool
  | .recordFailure .. => true
  | _ => false

/-- The failure a call records, by its key. -/
def RateLimitEvent.recorded (config : RateLimitConfig) (host : AddressHost) : RateLimitEvent → Option (String × Nat)
  | .recordFailure rawIp rawScope now =>
    if config.isExempt host rawIp then none else some (resolveKey host rawIp rawScope, now)
  | _ => none

theorem failures_step {e : RateLimitEvent} {s t : RateLimiter} (h : rateLimitStep config host e s = some t) :
    t.failures = s.failures ++ (e.recorded config host).toList := by
  simp only [rateLimitStep] at h
  split_ifs at h
  cases h
  cases e with
  | check rawIp rawScope now =>
    by_cases hexempt : config.isExempt host rawIp = true
    · simp [check, hexempt, RateLimitEvent.recorded]
    · obtain ⟨entries, heq, -⟩ := checkKey_frame config (resolveKey host rawIp rawScope) now s
      simp [check, hexempt, heq, RateLimitEvent.recorded]
  | recordFailure rawIp rawScope now =>
    by_cases hexempt : config.isExempt host rawIp = true
    · simp [recordFailure, hexempt, RateLimitEvent.recorded]
    · simp [recordFailure, hexempt, recordKey_eq, RateLimitEvent.recorded]
  | prune now => simp [RateLimiter.prune, RateLimitEvent.recorded]

theorem failures_run {events : List RateLimitEvent} {s t : RateLimiter}
    (h : (rateLimitStep config host).run events s = some t) :
    t.failures = s.failures ++ (events.filter RateLimitEvent.isRecord).filterMap (·.recorded config host) := by
  induction events generalizing s with
  | nil =>
    cases h
    simp
  | cons e rest ih =>
    obtain ⟨u, hu, ht⟩ := ((rateLimitStep config host).run_cons_some).mp h
    rw [ih ht, failures_step hu, append_assoc]
    congr 1
    cases e with
    | recordFailure rawIp rawScope now =>
      rw [filter_cons_of_pos rfl, filterMap_cons]
      cases (RateLimitEvent.recordFailure rawIp rawScope now).recorded config host <;> rfl
    | _ => rfl

theorem check_result {s : RateLimiter} (hs : Tracks config s) (hmax : 1 ≤ config.maxAttempts) {rawIp : Option String}
    (hexempt : config.isExempt host rawIp = false) (rawScope : Option String) {now : Nat} (hnow : s.clock ≤ now) :
    (check config host rawIp rawScope now s).1 = checkResult config now
      (config.budget.age now (config.budget.standing (s.failuresOf (resolveKey host rawIp rawScope)))) := by
  simp only [check, hexempt, Bool.false_eq_true, if_false]
  rw [checkKey_result hmax, hs.standing _ now hnow]

/-- A failure recorded on top of a lockout that has ended and is not cleared shows: the
next check answers otherwise than the failures say. -/
theorem stale_failure_shows {s : RateLimiter} (hs : Tracks config s) (hmax : 1 < config.maxAttempts)
    (hw : 0 < config.windowMs) (hl : 0 < config.lockoutMs) {rawIp : Option String}
    (hexempt : config.isExempt host rawIp = false) {rawScope : Option String} {now : Nat} (hnow : s.clock ≤ now)
    {entry : RateLimitEntry} (hentry : s.entries.get? (resolveKey host rawIp rawScope) = some entry)
    (hended : entry.lockoutExpired now = true) :
    (check config host rawIp rawScope now (recordFailure config host rawIp rawScope now s)).1 ≠
      checkResult config now (config.budget.age now
        (config.budget.standing (s.failuresOf (resolveKey host rawIp rawScope) ++ [now]))) := by
  obtain ⟨ends, hlock, hle⟩ : ∃ ends, entry.lockout = some ends ∧ ends ≤ (now : ℚ) := by
    obtain ⟨ends, hlock, hle⟩ := (Option.any_eq_true _ _).mp hended
    exact ⟨ends, hlock, of_decide_eq_true hle⟩
  generalize hkey : resolveKey host rawIp rawScope = key at hentry
  -- By the failures alone, this one is the first since the lockout.
  have hold : config.budget.age now (config.budget.standing (s.failuresOf key)) = .counting [] := by
    rw [← hs.standing key now hnow, RateLimiter.standing, hentry]
    exact standing_of_ended hlock hle
  have hcount : config.budget.count [] now = .counting [now] := count_of_lt (by simpa using hmax)
  have hself : config.budget.age now (.counting [now]) = .counting [now] := by
    simp [Budget.age, Budget.recent, RateLimitConfig.budget, hw]
  have hspec : config.budget.age now (config.budget.standing (s.failuresOf key ++ [now])) = .counting [now] := by
    rw [Budget.standing, foldl_append, ← Budget.standing, foldl_cons, foldl_nil, Budget.fail, hold]
    simp only [hcount, hself]
  have hlocked : entry.isLocked now = false := by simp [RateLimitEntry.isLocked, hlock, hle]
  have hcode : (check config host rawIp rawScope now (recordFailure config host rawIp rawScope now s)).1 =
      checkResult config now ((failedEntry config now entry).standing config now) := by
    simp only [check, recordFailure, hexempt, Bool.false_eq_true, if_false, hkey]
    rw [checkKey_result hmax.le, recordKey_eq]
    simp [RateLimiter.standing, hentry, hlocked]
  rw [hspec, hcode]
  have hpos : 0 < config.maxAttempts - 1 := by linarith
  by_cases hlimit : config.maxAttempts ≤ (config.budget.recent now entry.attempts ++ [now]).length
  · have hlt : (now : ℚ) < now + config.lockoutMs := by linarith
    rw [failedEntry_locks hl hlimit, Budget.age, if_pos hlt]
    simp [checkResult, max_eq_right hpos.le, hmax]
  · have hstale : (failedEntry config now entry).standing config now = .counting [] := by
      rw [failedEntry_of_lt hlimit]
      exact standing_of_ended hlock hle
    have hmax' : 0 ≤ config.maxAttempts := by linarith
    rw [hstale]
    intro heq
    have hremaining := congrArg RateLimitCheckResult.remaining heq
    simp only [checkResult, length_nil, length_singleton, Nat.cast_zero, Nat.cast_one, sub_zero,
      max_eq_right hpos.le, max_eq_right hmax'] at hremaining
    linarith

end Runs

/-! ### The limiter -/

section Limiter
variable {config : RateLimitConfig} {host : AddressHost}

/-- Fewer failures are counted than begin a lockout. -/
theorem standing_length (hmax : 1 ≤ config.maxAttempts) {times counted : List Nat}
    (h : config.budget.standing times = .counting counted) : (counted.length : ℚ) < config.maxAttempts := by
  have hpos : (0 : ℚ) < config.maxAttempts := by linarith
  rcases eq_nil_or_concat times with rfl | ⟨earlier, last, rfl⟩
  · cases h
    simpa using hpos
  · rw [concat_eq_append, Budget.standing, foldl_append, foldl_cons, foldl_nil, Budget.fail] at h
    cases haged : config.budget.age last (earlier.foldl config.budget.fail (.counting [])) with
    | locked ends => simp [haged] at h
    | counting l =>
      simp only [haged] at h
      by_cases hlimit : config.maxAttempts ≤ (l ++ [last]).length
      · rw [count_of_le hlimit] at h
        cases h
      · rw [count_of_lt hlimit] at h
        cases h
        exact not_le.mp hlimit

/-- A check is denied when the key is locked, and only then. -/
theorem checkResult_allowed (hmax : 1 ≤ config.maxAttempts) (times : List Nat) (now : Nat) :
    (checkResult config now (config.budget.age now (config.budget.standing times))).allowed =
      !(config.budget.age now (config.budget.standing times)).isLocked := by
  cases hstanding : config.budget.standing times with
  | locked ends =>
    have hpos : 0 < config.maxAttempts := by linarith
    rw [Budget.age]
    split_ifs
    · rfl
    · simp [checkResult, Standing.isLocked, hpos]
  | counting counted =>
    have hlt := standing_length hmax hstanding
    have hle : ((config.budget.recent now counted).length : ℚ) ≤ counted.length := by
      exact_mod_cast length_filter_le _ _
    have hpos : 0 < config.maxAttempts - (config.budget.recent now counted).length := by linarith
    simp [Budget.age, checkResult, Standing.isLocked, lt_of_le_of_lt hle hlt]

/-- The limiter locks out exactly, as long as no failure is recorded on top of a lockout
that has ended and is not cleared. A check answers what the failures of its key come
to; as many as the limit, close to each other, from when the key is not locked and with
no lockout between them, lock it from the last of them for the length of a lockout; those
from before a lockout do not count after it; and two runs that record the same failures
have the same checks. -/
theorem limiter_exact {events : List RateLimitEvent} {s : RateLimiter} (hmax : 1 ≤ config.maxAttempts)
    (hl : 0 < config.lockoutMs) (hwithin : (rateLimitStep config host).Within (RecordsClear config host) events {})
    (hrun : (rateLimitStep config host).run events {} = some s) {rawIp : Option String}
    (hexempt : config.isExempt host rawIp = false) (rawScope : Option String) :
    let key := resolveKey host rawIp rawScope
    let standing := config.budget.standing
    (∀ now, s.clock ≤ now →
      (check config host rawIp rawScope now s).1 =
        checkResult config now (config.budget.age now (standing (s.failuresOf key))) ∧
      (check config host rawIp rawScope now s).1.allowed =
        !(config.budget.age now (standing (s.failuresOf key))).isLocked) ∧
    (∀ (earlier times later : List Nat) (hne : times ≠ []),
      s.failuresOf key = earlier ++ times ++ later → config.maxAttempts ≤ times.length →
      (∀ x ∈ times, ∀ y ∈ times, (y : ℚ) - x < config.windowMs) →
      (∀ first ∈ times.head?, (config.budget.age first (standing earlier)).isLocked = false) →
      (∀ p q, times = p ++ q → p ≠ [] → q ≠ [] → (standing (earlier ++ p)).isLocked = false) →
      ∀ now, s.clock ≤ now → (now : ℚ) < (times.getLast hne : Nat) + config.lockoutMs →
        (check config host rawIp rawScope now s).1 =
          ⟨false, 0, (times.getLast hne : Nat) + config.lockoutMs - now⟩) ∧
    (∀ earlier later ends, s.failuresOf key = earlier ++ later → standing earlier = .locked ends →
      (∀ t ∈ later, ends ≤ (t : ℚ)) → ∀ now, s.clock ≤ now → ends ≤ now →
        (check config host rawIp rawScope now s).1 =
          checkResult config now (config.budget.age now (standing later))) ∧
    (∀ events' s', (rateLimitStep config host).Within (RecordsClear config host) events' {} →
      (rateLimitStep config host).run events' {} = some s' →
      events'.filter RateLimitEvent.isRecord = events.filter RateLimitEvent.isRecord →
      ∀ now, s.clock ≤ now → s'.clock ≤ now →
        (check config host rawIp rawScope now s').1 = (check config host rawIp rawScope now s).1) := by
  intro key standing
  have hs := tracks_run hmax hl hwithin hrun
  have hresult : ∀ now, s.clock ≤ now → (check config host rawIp rawScope now s).1 =
      checkResult config now (config.budget.age now (standing (s.failuresOf key))) :=
    fun now hnow => check_result hs hmax hexempt rawScope hnow
  have hunlocked : ∀ st : Standing, st.isLocked = false → ∃ l, st = .counting l := by
    intro st h
    cases st with
    | counting l => exact ⟨l, rfl⟩
    | locked ends => cases h
  refine ⟨fun now hnow => ⟨hresult now hnow, ?_⟩, ?_, ?_, ?_⟩
  · rw [hresult now hnow]
    exact checkResult_allowed hmax _ now
  · intro earlier times later hne hsplit hlimit hclose hopen hcounting now hnow hlt
    have hlocks : times.foldl config.budget.fail (standing earlier) =
        .locked ((times.getLast hne : Nat) + config.lockoutMs) := by
      refine Budget.foldl_locks hne (fun x hx y hy => ?_) (fun first hfirst => hunlocked _ (hopen first hfirst))
        (fun p q hpq hp hq => hunlocked _ ?_) hlimit
      · have h := hclose x hx y hy
        show (y : ℚ) - config.windowMs < x
        linarith
      · have h := hcounting p q hpq hp hq
        rwa [show standing (earlier ++ p) = p.foldl config.budget.fail (standing earlier) from
          foldl_append] at h
    have hpast : ∀ t ∈ later, (t : ℚ) < (times.getLast hne : Nat) + config.lockoutMs := by
      intro t ht
      have hmem : t ∈ s.failuresOf key := by
        rw [hsplit]
        exact mem_append_right _ ht
      obtain ⟨f, hf, rfl⟩ := List.mem_map.mp hmem
      have hle : f.2 ≤ now := le_trans (hs.past f (mem_filter.mp hf).1) hnow
      exact lt_of_le_of_lt (by exact_mod_cast hle) hlt
    have hstanding : standing (s.failuresOf key) = .locked ((times.getLast hne : Nat) + config.lockoutMs) := by
      rw [hsplit]
      show (earlier ++ times ++ later).foldl config.budget.fail (.counting []) = _
      rw [foldl_append, foldl_append, ← Budget.standing]
      rw [show times.foldl config.budget.fail (config.budget.standing earlier) = _ from hlocks]
      exact Budget.foldl_locked hpast
    rw [hresult now hnow, hstanding, Budget.age, if_pos hlt]
    rfl
  · intro earlier later ends hsplit hlocked hafter now hnow hended
    have hstanding : standing (s.failuresOf key) = later.foldl config.budget.fail (.locked ends) := by
      rw [hsplit, ← hlocked]
      exact foldl_append
    rw [hresult now hnow, hstanding]
    by_cases hlater : later = []
    · subst hlater
      rw [foldl_nil, Budget.age, if_neg (not_lt.mpr hended)]
      rfl
    · rw [Budget.foldl_unlocked hlater hafter]
  · intro events' s' hwithin' hrun' hsame now hnow hnow'
    have hfailures : s'.failures = s.failures := by
      rw [failures_run hrun, failures_run hrun', hsame]
    rw [hresult now hnow, check_result (tracks_run hmax hl hwithin' hrun') hmax hexempt rawScope hnow',
      RateLimiter.failuresOf, hfailures]
    rfl

end Limiter

/-! ### One address -/

/-- Addresses as they are given, with one of loopback. -/
def plainAddresses : AddressHost where
  resolveClientIp := id
  isLoopbackAddress ip := ip == "127.0.0.1"

def twoAttempts (windowMs : ℚ) : RateLimitConfig where
  maxAttempts := 2
  windowMs := windowMs
  lockoutMs := 60000

def failureAt (now : Nat) : RateLimitEvent := .recordFailure (some "10.0.0.7") none now

def checkAt (now : Nat) (config : RateLimitConfig) (s : RateLimiter) : RateLimitCheckResult :=
  (check config plainAddresses (some "10.0.0.7") none now s).1

theorem cleared_limiter_exact : ∃ s, (rateLimitStep (twoAttempts 600000) plainAddresses).run
    [failureAt 0, failureAt 1, .check (some "10.0.0.7") none 60001, failureAt 60002] {} = some s ∧
    checkAt 70000 (twoAttempts 600000) s = checkResult (twoAttempts 600000) 70000
      ((twoAttempts 600000).budget.age 70000 ((twoAttempts 600000).budget.standing [60002])) := by
  have hrun : ((rateLimitStep (twoAttempts 600000) plainAddresses).run
      [failureAt 0, failureAt 1, .check (some "10.0.0.7") none 60001, failureAt 60002] {}).any
      (fun s => s.clock = 60002 ∧ s.failuresOf "default:10.0.0.7" = [0, 1] ++ [60002]) = true := by decide +kernel
  obtain ⟨s, hs, hfailures⟩ := (Option.any_eq_true _ _).mp hrun
  obtain ⟨hclock, hfailures⟩ := of_decide_eq_true hfailures
  have hkey : resolveKey plainAddresses (some "10.0.0.7") none = "default:10.0.0.7" := by decide
  have hstanding : (twoAttempts 600000).budget.standing [0, 1] = .locked 60001 := by decide +kernel
  refine ⟨s, hs, ?_⟩
  refine (limiter_exact (by decide +kernel) (by decide +kernel) (by decide +kernel) hs (by decide +kernel) none).2.2.1
    [0, 1] [60002] 60001 (by rw [hkey]; exact hfailures) hstanding ?_ 70000 (by rw [hclock]; decide) (by norm_num)
  intro t ht
  rw [mem_singleton.mp ht]
  norm_num

/-- With a window as long as the lockout, a check between the lockout and the next
failure decides whether that failure counts. With a longer window the next failure
counts with those that began the lockout, and begins another. -/
theorem uncleared_lockout_counts :
    (∃ s s', (rateLimitStep (twoAttempts 60000) plainAddresses).run
        [failureAt 0, failureAt 1, failureAt 60002] {} = some s ∧
      (rateLimitStep (twoAttempts 60000) plainAddresses).run
        [failureAt 0, failureAt 1, .check (some "10.0.0.7") none 60001, failureAt 60002] {} = some s' ∧
      checkAt 60003 (twoAttempts 60000) s = ⟨true, 2, 0⟩ ∧ checkAt 60003 (twoAttempts 60000) s' = ⟨true, 1, 0⟩) ∧
    ∃ s, (rateLimitStep (twoAttempts 600000) plainAddresses).run
        [failureAt 0, failureAt 1, failureAt 70000] {} = some s ∧
      (twoAttempts 600000).budget.standing [0, 1] = .locked 60001 ∧
      checkAt 70001 (twoAttempts 600000) s = ⟨false, 0, 59999⟩ ∧
      checkResult (twoAttempts 600000) 70001
        ((twoAttempts 600000).budget.age 70001 ((twoAttempts 600000).budget.standing [70000])) = ⟨true, 1, 0⟩ := by
  have hwipes : ((rateLimitStep (twoAttempts 60000) plainAddresses).run
      [failureAt 0, failureAt 1, failureAt 60002] {}).any
      (fun s => checkAt 60003 (twoAttempts 60000) s = ⟨true, 2, 0⟩) = true := by decide +kernel
  have hkeeps : ((rateLimitStep (twoAttempts 60000) plainAddresses).run
      [failureAt 0, failureAt 1, .check (some "10.0.0.7") none 60001, failureAt 60002] {}).any
      (fun s => checkAt 60003 (twoAttempts 60000) s = ⟨true, 1, 0⟩) = true := by decide +kernel
  have hrelocks : ((rateLimitStep (twoAttempts 600000) plainAddresses).run
      [failureAt 0, failureAt 1, failureAt 70000] {}).any
      (fun s => checkAt 70001 (twoAttempts 600000) s = ⟨false, 0, 59999⟩) = true := by decide +kernel
  obtain ⟨s, hs, hcheck⟩ := (Option.any_eq_true _ _).mp hwipes
  obtain ⟨s', hs', hcheck'⟩ := (Option.any_eq_true _ _).mp hkeeps
  obtain ⟨t, ht, hdenied⟩ := (Option.any_eq_true _ _).mp hrelocks
  exact ⟨⟨s, s', hs, hs', of_decide_eq_true hcheck, of_decide_eq_true hcheck'⟩,
    t, ht, by decide +kernel, of_decide_eq_true hdenied, by decide +kernel⟩

theorem stale_failure_shows_late : ∃ s, checkAt 70000 (twoAttempts 9) (recordFailure (twoAttempts 9) plainAddresses
    (some "10.0.0.7") none 70000 s) ≠ checkResult (twoAttempts 9) 70000 ((twoAttempts 9).budget.age 70000
      ((twoAttempts 9).budget.standing (s.failuresOf "default:10.0.0.7" ++ [70000]))) := by
  have hrun : ((rateLimitStep (twoAttempts 9) plainAddresses).run [failureAt 0, failureAt 1] {}).any (fun s =>
      s.clock ≤ 70000 ∧ (s.entries.get? "default:10.0.0.7").any (·.lockoutExpired 70000)) = true := by decide +kernel
  obtain ⟨s, hs, hstate⟩ := (Option.any_eq_true _ _).mp hrun
  obtain ⟨hnow, hlocked⟩ := of_decide_eq_true hstate
  obtain ⟨entry, hentry, hended⟩ := (Option.any_eq_true _ _).mp hlocked
  have htracks := tracks_run (by decide +kernel) (by decide +kernel) (by decide +kernel) hs
  exact ⟨s, stale_failure_shows htracks (by decide +kernel) (by decide +kernel) (by decide +kernel) (by decide)
    hnow hentry hended⟩

end OpenClaw.Gateway
