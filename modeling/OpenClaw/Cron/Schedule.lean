import OpenClaw.Cron.Types

/-! When a job runs next.

A cron expression is evaluated by an engine that may throw; a one-shot's time is
parsed; an interval is counted from its anchor. `computeJobNextRunAtMs` is the
one question every operation of the service asks. -/
namespace OpenClaw.Cron
open Foundation.EcmaString

/-! ### Absolute times -/

/-- A trailing `Z` or a numeric offset. -/
def endsWithZone (raw : List Char) : Bool :=
  match raw.reverse with
  | 'Z' :: _ => true
  | 'z' :: _ => true
  | d :: c :: ':' :: b :: a :: sign :: _ =>
    a.isDigit && b.isDigit && c.isDigit && d.isDigit && (sign = '+' || sign = '-')
  | d :: c :: b :: a :: sign :: _ =>
    a.isDigit && b.isDigit && c.isDigit && d.isDigit && (sign = '+' || sign = '-')
  | _ => false

/-- What follows a date at the start, if there is one. -/
def afterIsoDate : List Char → Option (List Char)
  | y₁ :: y₂ :: y₃ :: y₄ :: '-' :: m₁ :: m₂ :: '-' :: d₁ :: d₂ :: rest =>
    if [y₁, y₂, y₃, y₄, m₁, m₂, d₁, d₂].all Char.isDigit then some rest else none
  | _ => none

/-- A time without a zone is taken in UTC. -/
def normalizeUtcIso (raw : List Char) : List Char :=
  if endsWithZone raw then raw
  else
    match afterIsoDate raw with
    | some [] => raw ++ "T00:00:00Z".toList
    | some ('T' :: _) => raw ++ ['Z']
    | _ => raw

def digitsValue (digits : List Char) : Nat :=
  digits.foldl (fun n c => 10 * n + (c.toNat - '0'.toNat)) 0

variable (env : CronEnv)

/-- Milliseconds in digits, or a date. -/
def parseAbsoluteTimeMs (input : String) : Option Int :=
  let raw := trimChars input.toList
  if raw = [] then none
  else if raw.all Char.isDigit ∧ 0 < digitsValue raw then some (digitsValue raw)
  else env.dateParse (String.ofList (normalizeUtcIso raw))

/-- The time of a one-shot: the legacy `atMs` first. -/
def resolveAtMs (time : Option String) (atMs : Option AtMs) : Option Int :=
  match atMs with
  | some (.number ms) => if 0 < ms then some ms else time.bind (parseAbsoluteTimeMs env)
  | some (.text s) => parseAbsoluteTimeMs env s
  | none => time.bind (parseAbsoluteTimeMs env)

/-! ### Cron expressions -/

def startOfNextUtcDay (nowMs : Int) : Int := (nowMs / 86400000 + 1) * 86400000

def startOfNextSecond (nowMs : Int) : Int := nowMs / 1000 * 1000 + 1000

def resolveCronTimezone (tz : Option String) : String := (trimmed? tz).getD env.timeZone

/-- The cron branch of `computeNextRunAtMs`. A time that is not in the future is
asked for again, from the next second and from the next day. -/
def computeCronNextRunAtMs (expr : String) (tz : Option String) (nowMs : Int) : Except String (Option Int) :=
  match trimmed expr with
  | none => .ok none
  | some expr => do
    let zone := resolveCronTimezone env tz
    match ← env.nextRun expr zone nowMs with
    | none => return none
    | some nextMs =>
      if nowMs < nextMs then return some nextMs
      let retry ← env.nextRun expr zone (startOfNextSecond nowMs)
      if retry.any (nowMs < ·) then return retry
      let retry2 ← env.nextRun expr zone (startOfNextUtcDay nowMs)
      if retry2.any (nowMs < ·) then return retry2
      return none

def computePreviousRunAtMs (expr : String) (tz : Option String) (nowMs : Int) : Except String (Option Int) :=
  match trimmed expr with
  | none => .ok none
  | some expr => do
    let previous ← env.previousRun expr (resolveCronTimezone env tz) nowMs
    return previous.filter (· < nowMs)

/-! ### Staggering -/

def DEFAULT_TOP_OF_HOUR_STAGGER_MS : Int := 5 * 60 * 1000

def isRecurringTopOfHourCronExpr (expr : String) : Bool :=
  match words expr.toList with
  | [minuteField, hourField, _, _, _] => minuteField = ['0'] && '*' ∈ hourField
  | [secondField, minuteField, hourField, _, _, _] =>
    secondField = ['0'] && minuteField = ['0'] && '*' ∈ hourField
  | _ => false

def normalizeCronStaggerMs (raw : Option Int) : Option Int := raw.map (max 0)

def resolveDefaultCronStaggerMs (expr : String) : Option Int :=
  if isRecurringTopOfHourCronExpr expr then some DEFAULT_TOP_OF_HOUR_STAGGER_MS else none

def resolveCronStaggerMs (expr : String) (staggerMs : Option Int) : Int :=
  ((normalizeCronStaggerMs staggerMs).or (resolveDefaultCronStaggerMs expr)).getD 0

def resolveStableCronOffsetMs (jobId : String) (staggerMs : Int) : Int :=
  if staggerMs ≤ 1 then 0 else (env.sha256Head jobId : Int) % staggerMs

/-- The loop of `computeStaggeredCronNextRunAtMs`; `attempts` is what is left of the four. -/
def staggeredNext (env : CronEnv) (expr : String) (tz : Option String) (offsetMs nowMs : Int) :
    Nat → Int → Except String (Option Int)
  | 0, _ => .ok none
  | attempts + 1, cursorMs => do
    match ← computeCronNextRunAtMs env expr tz cursorMs with
    | none => return none
    | some baseNext =>
      if nowMs < baseNext + offsetMs then return some (baseNext + offsetMs)
      staggeredNext env expr tz offsetMs nowMs attempts (max (cursorMs + 1) (baseNext + 1000))

def computeStaggeredCronNextRunAtMs (jobId expr : String) (tz : Option String) (staggerMs : Option Int)
    (nowMs : Int) : Except String (Option Int) :=
  let offsetMs := resolveStableCronOffsetMs env jobId (resolveCronStaggerMs expr staggerMs)
  if offsetMs ≤ 0 then computeCronNextRunAtMs env expr tz nowMs
  else staggeredNext env expr tz offsetMs nowMs 4 (max 0 (nowMs - offsetMs))

def staggeredPrevious (env : CronEnv) (expr : String) (tz : Option String) (offsetMs nowMs : Int) :
    Nat → Int → Except String (Option Int)
  | 0, _ => .ok none
  | attempts + 1, cursorMs => do
    match ← computePreviousRunAtMs env expr tz cursorMs with
    | none => return none
    | some basePrevious =>
      if basePrevious + offsetMs ≤ nowMs then return some (basePrevious + offsetMs)
      staggeredPrevious env expr tz offsetMs nowMs attempts (max 0 (basePrevious - 1000))

def computeStaggeredCronPreviousRunAtMs (jobId expr : String) (tz : Option String) (staggerMs : Option Int)
    (nowMs : Int) : Except String (Option Int) :=
  let offsetMs := resolveStableCronOffsetMs env jobId (resolveCronStaggerMs expr staggerMs)
  if offsetMs ≤ 0 then computePreviousRunAtMs env expr tz nowMs
  else staggeredPrevious env expr tz offsetMs nowMs 4 (max 0 (nowMs - offsetMs))

/-! ### Intervals -/

def resolveEveryAnchorMs (anchorMs : Option Int) (fallbackAnchorMs : Int) : Int :=
  max 0 (anchorMs.getD fallbackAnchorMs)

/-- The interval branch of `computeNextRunAtMs`: the first tick of the anchor not before now. -/
def computeEveryNextRunAtMs (everyMs anchorMs nowMs : Int) : Int :=
  let everyMs := max 1 everyMs
  let anchor := max 0 anchorMs
  if nowMs < anchor then anchor
  else anchor + max 1 ((nowMs - anchor + everyMs - 1) / everyMs) * everyMs

/-! ### Jobs -/

def isJobEnabled (job : CronJob) : Bool := job.enabled

/-- One-shots stay due until they finish with ok, and are re-armed by a later time. -/
def computeAtNextRunAtMs (state : CronJobState) (atMs : Option Int) : Option Int :=
  if state.lastStatus = some .ok ∧ state.lastRunAtMs.any (· ≠ 0) then
    atMs.filter fun ms => state.lastRunAtMs.any (· < ms)
  else atMs

def computeJobNextRunAtMs (job : CronJob) (nowMs : Int) : Except String (Option Int) :=
  if !isJobEnabled job then .ok none
  else
    match job.schedule with
    | .every everyMs anchorMs =>
      let nextFromLastRun := job.state.lastRunAtMs.map (· + max 1 everyMs)
      if nextFromLastRun.any (nowMs < ·) then .ok nextFromLastRun
      else .ok (some (computeEveryNextRunAtMs (max 1 everyMs) (resolveEveryAnchorMs anchorMs job.createdAtMs)
        nowMs))
    | .at time atMs => .ok (computeAtNextRunAtMs job.state (resolveAtMs env time atMs))
    | .cron expr tz staggerMs => do
      match ← computeStaggeredCronNextRunAtMs env job.id expr tz staggerMs nowMs with
      | some next => return some next
      | none => computeStaggeredCronNextRunAtMs env job.id expr tz staggerMs (startOfNextSecond nowMs)

/-- Only the evaluation of a cron expression throws. -/
theorem isCron_of_error {env : CronEnv} {job : CronJob} {nowMs : Int} {err : String}
    (h : computeJobNextRunAtMs env job nowMs = .error err) : job.schedule.isCron = true := by
  unfold computeJobNextRunAtMs at h
  split at h
  · cases h
  · cases hschedule : job.schedule with
    | «at» time atMs => simp [hschedule] at h
    | every everyMs anchorMs =>
      simp only [hschedule] at h
      split at h <;> cases h
    | cron expr tz staggerMs => rfl

def computeJobPreviousRunAtMs (job : CronJob) (nowMs : Int) : Except String (Option Int) :=
  if !isJobEnabled job then .ok none
  else
    match job.schedule with
    | .cron expr tz staggerMs => computeStaggeredCronPreviousRunAtMs env job.id expr tz staggerMs nowMs
    | _ => .ok none

end OpenClaw.Cron
