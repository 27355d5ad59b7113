import Mathlib.Data.Int.LeastGreatest
import Mathlib.Order.Bounds.Defs
import OpenClaw.Cron.Schedule

/-! A staggered cron expression and its shifted schedule.

A job with a stagger window runs at the occurrences of its expression, each later by the job's own
offset. The next run is asked for from a cursor moved back by the offset and never before zero, the
previous one from the same cursor. Over an engine that evaluates the expression to a set of
occurrences both are what the shifted set has next to the time; over any engine at all they are on
their side of it. -/
namespace OpenClaw.Cron
open Foundation.EcmaString

/-! ### Over any engine -/

variable {nowMs next previous offsetMs now o : Int}

section AnyEngine
variable {env : CronEnv} {expr : String} {tz : Option String}

theorem computeCronNextRunAtMs_gt (h : computeCronNextRunAtMs env expr tz nowMs = .ok (some next)) :
    nowMs < next := by
  unfold computeCronNextRunAtMs at h
  cases hexpr : trimmed expr with
  | none =>
    rw [hexpr] at h
    cases h
  | some e =>
    simp only [hexpr, bind, Except.bind, pure, Except.pure] at h
    cases hfirst : env.nextRun e (resolveCronTimezone env tz) nowMs with
    | error err => simp [hfirst] at h
    | ok first =>
      cases first with
      | none => simp [hfirst] at h
      | some nextMs =>
        simp only [hfirst] at h
        split at h
        · cases h
          assumption
        · -- The second and the third answer are taken only when they are in the future.
          cases hretry : env.nextRun e (resolveCronTimezone env tz) (startOfNextSecond nowMs) with
          | error err => simp [hretry] at h
          | ok retry =>
            simp only [hretry] at h
            split at h
            · rename_i hany
              cases h
              exact of_decide_eq_true hany
            · cases hlast : env.nextRun e (resolveCronTimezone env tz) (startOfNextUtcDay nowMs) with
              | error err => simp [hlast] at h
              | ok last =>
                simp only [hlast] at h
                split at h
                · rename_i hany
                  cases h
                  exact of_decide_eq_true hany
                · cases h

theorem computePreviousRunAtMs_lt (h : computePreviousRunAtMs env expr tz nowMs = .ok (some previous)) :
    previous < nowMs := by
  unfold computePreviousRunAtMs at h
  cases hexpr : trimmed expr with
  | none =>
    rw [hexpr] at h
    cases h
  | some e =>
    simp only [hexpr, bind, Except.bind, pure, Except.pure] at h
    cases hrun : env.previousRun e (resolveCronTimezone env tz) nowMs with
    | error err => simp [hrun] at h
    | ok run =>
      simp only [hrun, Except.ok.injEq, Option.filter_eq_some_iff, decide_eq_true_eq] at h
      exact h.2

/-- One attempt of the loop for the next run. -/
theorem staggeredNext_succ (offsetMs nowMs cursorMs : Int) (attempts : Nat) :
    staggeredNext env expr tz offsetMs nowMs (attempts + 1) cursorMs =
      match computeCronNextRunAtMs env expr tz cursorMs with
      | .error err => .error err
      | .ok none => .ok none
      | .ok (some baseNext) =>
        if nowMs < baseNext + offsetMs then .ok (some (baseNext + offsetMs))
        else staggeredNext env expr tz offsetMs nowMs attempts (max (cursorMs + 1) (baseNext + 1000)) := by
  show (computeCronNextRunAtMs env expr tz cursorMs >>= _) = _
  cases computeCronNextRunAtMs env expr tz cursorMs with
  | error err => rfl
  | ok base =>
    cases base with
    | _ => rfl

theorem staggeredPrevious_succ (offsetMs nowMs cursorMs : Int) (attempts : Nat) :
    staggeredPrevious env expr tz offsetMs nowMs (attempts + 1) cursorMs =
      match computePreviousRunAtMs env expr tz cursorMs with
      | .error err => .error err
      | .ok none => .ok none
      | .ok (some basePrevious) =>
        if basePrevious + offsetMs ≤ nowMs then .ok (some (basePrevious + offsetMs))
        else staggeredPrevious env expr tz offsetMs nowMs attempts (max 0 (basePrevious - 1000)) := by
  show (computePreviousRunAtMs env expr tz cursorMs >>= _) = _
  cases computePreviousRunAtMs env expr tz cursorMs with
  | error err => rfl
  | ok base =>
    cases base with
    | _ => rfl

theorem staggeredNext_gt (attempts : Nat) {cursorMs : Int}
    (h : staggeredNext env expr tz offsetMs nowMs attempts cursorMs = .ok (some next)) : nowMs < next := by
  induction attempts generalizing cursorMs with
  | zero => cases h
  | succ attempts ih =>
    rw [staggeredNext_succ] at h
    split at h
    · cases h
    · cases h
    · split at h
      · cases h
        assumption
      · exact ih h

theorem staggeredPrevious_le (attempts : Nat) {cursorMs : Int}
    (h : staggeredPrevious env expr tz offsetMs nowMs attempts cursorMs = .ok (some previous)) : previous ≤ nowMs := by
  induction attempts generalizing cursorMs with
  | zero => cases h
  | succ attempts ih =>
    rw [staggeredPrevious_succ] at h
    split at h
    · cases h
    · cases h
    · split at h
      · cases h
        assumption
      · exact ih h

theorem computeStaggeredCronNextRunAtMs_gt {jobId : String} {staggerMs : Option Int}
    (h : computeStaggeredCronNextRunAtMs env jobId expr tz staggerMs nowMs = .ok (some next)) : nowMs < next := by
  unfold computeStaggeredCronNextRunAtMs at h
  dsimp only at h
  split at h
  · exact computeCronNextRunAtMs_gt h
  · exact staggeredNext_gt 4 h

theorem computeStaggeredCronPreviousRunAtMs_le {jobId : String} {staggerMs : Option Int}
    (h : computeStaggeredCronPreviousRunAtMs env jobId expr tz staggerMs nowMs = .ok (some previous)) :
    previous ≤ nowMs := by
  unfold computeStaggeredCronPreviousRunAtMs at h
  dsimp only at h
  split at h
  · exact Int.le_of_lt (computePreviousRunAtMs_lt h)
  · exact staggeredPrevious_le 4 h

theorem startOfNextSecond_gt (nowMs : Int) : nowMs < startOfNextSecond nowMs := by
  unfold startOfNextSecond
  omega

end AnyEngine

/-! ### Over an engine that evaluates the expression -/

/-- What an expression stands for: positive whole seconds, without an end. -/
structure Occurrences (occ : Set Int) : Prop where
  positive : ∀ o ∈ occ, 0 < o
  whole : ∀ o ∈ occ, 1000 ∣ o
  unbounded : ∀ n, ∃ o ∈ occ, n < o

/-- The engine evaluates an expression to a set of occurrences. -/
structure Evaluates (env : CronEnv) (expr zone : String) (occ : Set Int) : Prop extends Occurrences occ where
  next : ∀ now o, IsLeast {x ∈ occ | now < x} o → env.nextRun expr zone now = .ok (some o)
  previous : ∀ now o, IsGreatest {x ∈ occ | x < now} o → env.previousRun expr zone now = .ok (some o)

section Engine
variable {env : CronEnv} {expr e : String} {tz : Option String} {occ : Set Int}

theorem Occurrences.exists_isLeast (h : Occurrences occ) (now : Int) : ∃ o, IsLeast {x ∈ occ | now < x} o := by
  obtain ⟨o, ho, hlater⟩ := h.unbounded now
  obtain ⟨least, hleast, hbound⟩ := Int.exists_least_of_bdd (P := fun x => x ∈ occ ∧ now < x)
    ⟨now, fun x hx => Int.le_of_lt hx.2⟩ ⟨o, ho, hlater⟩
  exact ⟨least, hleast, fun x hx => hbound x hx⟩

theorem exists_isGreatest (ho : o ∈ occ) (hbefore : o < now) :
    ∃ o, IsGreatest {x ∈ occ | x < now} o := by
  obtain ⟨greatest, hgreatest, hbound⟩ := Int.exists_greatest_of_bdd (P := fun x => x ∈ occ ∧ x < now)
    ⟨now, fun x hx => Int.le_of_lt hx.2⟩ ⟨o, ho, hbefore⟩
  exact ⟨greatest, hgreatest, fun x hx => hbound x hx⟩

section
variable (h : Evaluates env e (resolveCronTimezone env tz) occ) (hexpr : trimmed expr = some e)
include h hexpr

theorem Evaluates.cronNext (ho : IsLeast {x ∈ occ | now < x} o) :
    computeCronNextRunAtMs env expr tz now = .ok (some o) := by
  have hlater : now < o := ho.1.2
  unfold computeCronNextRunAtMs
  simp only [hexpr, bind, Except.bind, h.next now o ho, if_pos hlater]
  rfl

theorem Evaluates.cronPrevious (ho : IsGreatest {x ∈ occ | x < now} o) :
    computePreviousRunAtMs env expr tz now = .ok (some o) := by
  have hbefore : o < now := ho.1.2
  unfold computePreviousRunAtMs
  simp only [hexpr, bind, Except.bind, h.previous now o ho]
  show Except.ok ((some o).filter (· < now)) = _
  rw [Option.filter_some, if_pos (by simpa using hbefore)]

end

/-- A cursor that is kept at zero has the same occurrences after it and before it. -/
theorem Occurrences.max_zero (h : Occurrences occ) (cursor : Int) :
    {x ∈ occ | max 0 cursor < x} = {x ∈ occ | cursor < x} ∧ {x ∈ occ | x < max 0 cursor} = {x ∈ occ | x < cursor} := by
  constructor
  · ext x
    refine and_congr_right fun hx => ?_
    have := h.positive x hx
    omega
  · ext x
    refine and_congr_right fun hx => ?_
    have := h.positive x hx
    omega

/-- The occurrences of an expression, each later by the offset. -/
def shifted (occ : Set Int) (offsetMs : Int) : Set Int := {t | ∃ o ∈ occ, t = o + offsetMs}

theorem shifted_isLeast (ho : IsLeast {x ∈ occ | now - offsetMs < x} o) :
    IsLeast {t ∈ shifted occ offsetMs | now < t} (o + offsetMs) := by
  obtain ⟨⟨hmem, hlater⟩, hleast⟩ := ho
  refine ⟨⟨⟨o, hmem, rfl⟩, by omega⟩, ?_⟩
  rintro t ⟨⟨x, hx, rfl⟩, ht⟩
  have := hleast ⟨hx, by omega⟩
  omega

theorem shifted_isGreatest (ho : IsGreatest {x ∈ occ | x < now - offsetMs} o) :
    IsGreatest {t ∈ shifted occ offsetMs | t < now} (o + offsetMs) := by
  obtain ⟨⟨hmem, hbefore⟩, hgreatest⟩ := ho
  refine ⟨⟨⟨o, hmem, rfl⟩, by omega⟩, ?_⟩
  rintro t ⟨⟨x, hx, rfl⟩, ht⟩
  have := hgreatest ⟨hx, by omega⟩
  omega

variable {jobId : String} {staggerMs : Option Int}

/-- The offset of a job in its stagger window. -/
theorem resolveStableCronOffsetMs_window (env : CronEnv) (jobId : String) (staggerMs : Int) :
    0 ≤ resolveStableCronOffsetMs env jobId staggerMs ∧
      resolveStableCronOffsetMs env jobId staggerMs < max 1 staggerMs := by
  unfold resolveStableCronOffsetMs
  split
  · omega
  · have hpos : 0 < staggerMs := by omega
    have := Int.emod_nonneg (env.sha256Head jobId : Int) (Int.ne_of_gt hpos)
    have := Int.emod_lt_of_pos (env.sha256Head jobId : Int) hpos
    omega

section
variable (h : Evaluates env e (resolveCronTimezone env tz) occ) (hexpr : trimmed expr = some e)
include h hexpr

theorem Evaluates.staggeredNext
    (ho : IsLeast {x ∈ occ | now - resolveStableCronOffsetMs env jobId (resolveCronStaggerMs expr staggerMs) < x} o) :
    computeStaggeredCronNextRunAtMs env jobId expr tz staggerMs now =
      .ok (some (o + resolveStableCronOffsetMs env jobId (resolveCronStaggerMs expr staggerMs))) := by
  have hwindow := (resolveStableCronOffsetMs_window env jobId (resolveCronStaggerMs expr staggerMs)).1
  unfold computeStaggeredCronNextRunAtMs
  dsimp only
  generalize resolveStableCronOffsetMs env jobId (resolveCronStaggerMs expr staggerMs) = offset at ho hwindow ⊢
  by_cases hzero : offset ≤ 0
  · have hoffset : offset = 0 := by omega
    subst hoffset
    rw [if_pos hzero, Int.add_zero]
    rw [Int.sub_zero] at ho
    exact h.cronNext hexpr ho
  · have hlater : now < o + offset := by
      have : now - offset < o := ho.1.2
      omega
    rw [← (h.toOccurrences.max_zero (now - offset)).1] at ho
    rw [if_neg hzero, staggeredNext_succ, h.cronNext hexpr ho]
    exact if_pos hlater

theorem Evaluates.staggeredPrevious
    (ho : IsGreatest {x ∈ occ | x < now - resolveStableCronOffsetMs env jobId (resolveCronStaggerMs expr staggerMs)} o) :
    computeStaggeredCronPreviousRunAtMs env jobId expr tz staggerMs now =
      .ok (some (o + resolveStableCronOffsetMs env jobId (resolveCronStaggerMs expr staggerMs))) := by
  have hwindow := (resolveStableCronOffsetMs_window env jobId (resolveCronStaggerMs expr staggerMs)).1
  unfold computeStaggeredCronPreviousRunAtMs
  dsimp only
  generalize resolveStableCronOffsetMs env jobId (resolveCronStaggerMs expr staggerMs) = offset at ho hwindow ⊢
  by_cases hzero : offset ≤ 0
  · have hoffset : offset = 0 := by omega
    subst hoffset
    rw [if_pos hzero, Int.add_zero]
    rw [Int.sub_zero] at ho
    exact h.cronPrevious hexpr ho
  · have hbefore : o + offset ≤ now := by
      have : o < now - offset := ho.1.2
      omega
    rw [← (h.toOccurrences.max_zero (now - offset)).2] at ho
    rw [if_neg hzero, staggeredPrevious_succ, h.cronPrevious hexpr ho]
    exact if_pos hbefore

end

end Engine

/-! ### Jobs -/

section Jobs
variable {env : CronEnv} {job : CronJob} {expr : String} {tz : Option String} {staggerMs : Option Int}

section
variable (hschedule : job.schedule = .cron expr tz staggerMs)
include hschedule

theorem computeJobNextRunAtMs_cron (henabled : job.enabled = true) (now : Int) : computeJobNextRunAtMs env job now =
      match computeStaggeredCronNextRunAtMs env job.id expr tz staggerMs now with
      | .error err => .error err
      | .ok (some next) => .ok (some next)
      | .ok none => computeStaggeredCronNextRunAtMs env job.id expr tz staggerMs (startOfNextSecond now) := by
  unfold computeJobNextRunAtMs
  simp only [isJobEnabled, henabled, hschedule, Bool.not_true, Bool.false_eq_true, if_false]
  show (computeStaggeredCronNextRunAtMs env job.id expr tz staggerMs now >>= _) = _
  cases computeStaggeredCronNextRunAtMs env job.id expr tz staggerMs now with
  | error err => rfl
  | ok base => cases base <;> rfl

theorem cronNext_gt (h : computeJobNextRunAtMs env job now = .ok (some next)) : now < next := by
  by_cases henabled : job.enabled = true
  · rw [computeJobNextRunAtMs_cron hschedule henabled] at h
    split at h
    · cases h
    · rename_i next' hnext
      cases h
      exact computeStaggeredCronNextRunAtMs_gt hnext
    · exact Int.lt_trans (startOfNextSecond_gt now) (computeStaggeredCronNextRunAtMs_gt h)
  · unfold computeJobNextRunAtMs at h
    rw [if_pos (by simpa [isJobEnabled] using henabled)] at h
    cases h

theorem computeJobPreviousRunAtMs_cron (henabled : job.enabled = true) (now : Int) :
    computeJobPreviousRunAtMs env job now =
      computeStaggeredCronPreviousRunAtMs env job.id expr tz staggerMs now := by
  unfold computeJobPreviousRunAtMs
  simp only [isJobEnabled, henabled, hschedule, Bool.not_true, Bool.false_eq_true, if_false]

theorem cronPrevious_le (h : computeJobPreviousRunAtMs env job now = .ok (some previous)) : previous ≤ now := by
  by_cases henabled : job.enabled = true
  · rw [computeJobPreviousRunAtMs_cron hschedule henabled] at h
    exact computeStaggeredCronPreviousRunAtMs_le h
  · unfold computeJobPreviousRunAtMs at h
    rw [if_pos (by simpa [isJobEnabled] using henabled)] at h
    cases h

end

/-- The runs around a time, over any engine on their side of it, and over an engine that evaluates the
expression of an enabled job the ones of the shifted schedule. -/
theorem staggered_runs_agree (env : CronEnv) (job : CronJob) (expr : String) (tz : Option String)
    (staggerMs : Option Int) (hschedule : job.schedule = .cron expr tz staggerMs) (now : Int) :
    (∀ next, computeJobNextRunAtMs env job now = .ok (some next) → now < next) ∧
    (∀ previous, computeJobPreviousRunAtMs env job now = .ok (some previous) → previous ≤ now) ∧
    (job.enabled = true → ∀ e, trimmed expr = some e → ∀ occ, Evaluates env e (resolveCronTimezone env tz) occ →
      let offset := resolveStableCronOffsetMs env job.id (resolveCronStaggerMs expr staggerMs)
      (∃ next, computeJobNextRunAtMs env job now = .ok (some next) ∧
        IsLeast {t ∈ shifted occ offset | now < t} next) ∧
      ((∃ t ∈ shifted occ offset, t < now) → ∃ previous, computeJobPreviousRunAtMs env job now = .ok (some previous) ∧
        IsGreatest {t ∈ shifted occ offset | t < now} previous)) := by
  refine ⟨fun _ h => cronNext_gt hschedule h, fun _ h => cronPrevious_le hschedule h, ?_⟩
  intro henabled e hexpr occ heval offset
  constructor
  · obtain ⟨o, ho⟩ := heval.exists_isLeast (now - offset)
    refine ⟨o + offset, ?_, shifted_isLeast ho⟩
    rw [computeJobNextRunAtMs_cron hschedule henabled, heval.staggeredNext hexpr ho]
  · rintro ⟨t, ⟨x, hx, rfl⟩, hbefore⟩
    obtain ⟨o, ho⟩ := exists_isGreatest hx (show x < now - offset by omega)
    refine ⟨o + offset, ?_, shifted_isGreatest ho⟩
    rw [computeJobPreviousRunAtMs_cron hschedule henabled]
    exact heval.staggeredPrevious hexpr ho

end Jobs

/-! ### A disabled job -/

/-- An engine that finds an occurrence at every second. -/
def everySecondEnv : CronEnv where
  dateParse _ := none
  timeZone := "UTC"
  nextRun _ _ now := .ok (some (max 1000 (startOfNextSecond now)))
  previousRun _ _ now := .ok (if now ≤ 1000 then none else some ((now - 1) / 1000 * 1000))
  sha256Head _ := 250
  urlProtocol _ := none
  failoverReason _ := none

theorem everySecond_evaluates (expr zone : String) :
    Evaluates everySecondEnv expr zone {o | 0 < o ∧ (1000 : Int) ∣ o} where
  positive _ ho := ho.1
  whole _ ho := ho.2
  unbounded n := by
    refine ⟨max 1000 (startOfNextSecond n), ⟨by omega, ?_⟩, ?_⟩
    · unfold startOfNextSecond
      omega
    · have := startOfNextSecond_gt n
      omega
  next now o ho := by
    obtain ⟨⟨⟨hpos, hwhole⟩, hlater⟩, hleast⟩ := ho
    have hle : o ≤ max 1000 (startOfNextSecond now) := by
      refine hleast ⟨⟨by omega, ?_⟩, ?_⟩
      · unfold startOfNextSecond
        omega
      · have := startOfNextSecond_gt now
        omega
    show Except.ok (some (max 1000 (startOfNextSecond now))) = _
    unfold startOfNextSecond at hle ⊢
    have : max 1000 (now / 1000 * 1000 + 1000) = o := by omega
    rw [this]
  previous now o ho := by
    obtain ⟨⟨⟨hpos, hwhole⟩, hbefore⟩, hgreatest⟩ := ho
    have hlate : ¬now ≤ 1000 := by omega
    have hle : (now - 1) / 1000 * 1000 ≤ o := hgreatest ⟨⟨by omega, by omega⟩, by omega⟩
    show Except.ok (if now ≤ 1000 then none else some ((now - 1) / 1000 * 1000)) = _
    rw [if_neg hlate]
    have : (now - 1) / 1000 * 1000 = o := by omega
    rw [this]

/-- A job at every second, in a window of a minute. -/
def everySecondJob (enabled : Bool) : CronJob where
  id := "tick"
  name := "tick"
  enabled := enabled
  createdAtMs := 0
  updatedAtMs := 0
  schedule := .cron "* * * * * *" none (some 60000)
  sessionTarget := "main"
  wakeMode := .now
  payload := .systemEvent "tick"

theorem staggered_runs_agree_everySecond :
    (∃ next, computeJobNextRunAtMs everySecondEnv (everySecondJob true) 5000 = .ok (some next) ∧
      IsLeast {t ∈ shifted {o | 0 < o ∧ (1000 : Int) ∣ o} 250 | 5000 < t} next) :=
  ((staggered_runs_agree everySecondEnv (everySecondJob true) "* * * * * *" none (some 60000) rfl 5000).2.2 rfl
    "* * * * * *" (by decide) _ (everySecond_evaluates _ _)).1

/-- A disabled job has no next run, whatever its expression evaluates to. -/
theorem disabled_job_has_no_run :
    Evaluates everySecondEnv "* * * * * *" "UTC" {o | 0 < o ∧ (1000 : Int) ∣ o} ∧
      computeJobNextRunAtMs everySecondEnv (everySecondJob false) 5000 = .ok none :=
  ⟨everySecond_evaluates _ _, rfl⟩

end OpenClaw.Cron
