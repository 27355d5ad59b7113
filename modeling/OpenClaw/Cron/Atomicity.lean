import OpenClaw.Cron.Exclusion

/-! Edits that are refused.

`update` patches the job in the store field by field and checks in between, so an
edit that throws leaves what it wrote before. The store is unchanged exactly when
everything written before the check that failed was there already. -/
namespace OpenClaw.Cron
open Foundation.EcmaString

/-- The checks of an edit, in the order they are made. -/
inductive EditCheck where
  | name
  | payload
  | droppedDestination
  | jobSpec
  | mainSessionAgent
  | delivery
  | failureDestination
  | schedule
  deriving DecidableEq

section Given
variable (env : CronEnv) (patch : CronJobPatch) (job : CronJob)

/-! ### What a patch gives each field -/

def givenName : String := (patch.name.bind trimmed?).getD job.name

def givenPayload : CronPayload :=
  match patch.payload with
  | none => job.payload
  | some payload =>
    match mergeCronPayload job.payload payload with
    | .ok payload => payload
    | .error _ => job.payload

def givenSessionTarget : String := (patch.sessionTarget.filter (· ≠ "")).getD job.sessionTarget

def givenDelivery : Option CronDelivery :=
  (patch.delivery.map fun delivery => some (mergeCronDelivery job.delivery delivery)).getD job.delivery

/-- A main job keeps no delivery but a webhook. -/
def keptDelivery : Option CronDelivery :=
  if givenSessionTarget patch job = "main" ∧ (givenDelivery patch job).map CronDelivery.mode ≠ some .webhook then
    none
  else givenDelivery patch job

/-- A webhook's target as it is normalised. -/
def targetDelivery (delivery : Option CronDelivery) : Option CronDelivery :=
  delivery.map fun delivery =>
    match delivery.mode, normalizeHttpWebhookUrl env delivery.to with
    | .webhook, some target => {delivery with «to» := some target}
    | _, _ => delivery

/-- A failure destination's webhook target as it is normalised. -/
def destinationDelivery (delivery : Option CronDelivery) : Option CronDelivery :=
  delivery.map fun delivery =>
    match delivery.failureDestination with
    | none => delivery
    | some destination =>
      match destination.mode, normalizeHttpWebhookUrl env destination.to with
      | some .webhook, some target =>
        {delivery with failureDestination := some {destination with «to» := some target}}
      | _, _ => delivery

/-! ### What is left unwritten -/

/-- The fields up to the payload are given what they hold. -/
structure SameFields : Prop where
  name : givenName patch job = job.name
  description : (patch.description.map normalizeOptionalText).getD job.description = job.description
  enabled : patch.enabled.getD job.enabled = job.enabled
  deleteAfterRun : patch.deleteAfterRun.or job.deleteAfterRun = job.deleteAfterRun
  schedule : (patch.schedule.map (patchedSchedule job.schedule)).getD job.schedule = job.schedule
  sessionTarget : givenSessionTarget patch job = job.sessionTarget
  wakeMode : patch.wakeMode.getD job.wakeMode = job.wakeMode

/-- So are the payload and the alert. -/
structure SamePayload : Prop extends SameFields patch job where
  payload : givenPayload patch job = job.payload
  failureAlert : (patch.failureAlert.map (mergeCronFailureAlert job.failureAlert)).getD job.failureAlert =
    job.failureAlert

/-- So are the run state, the agent and the session. -/
structure SameState : Prop extends SamePayload patch job where
  state : (patch.state.map fun state => state.apply job.state).getD job.state = job.state
  agentId : (patch.agentId.map normalizeOptionalAgentId).getD job.agentId = job.agentId
  sessionKey : (patch.sessionKey.map normalizeOptionalSessionKey).getD job.sessionKey = job.sessionKey

/-- Everything that is written before a check is there already. -/
def Unwritten (now : Int) : EditCheck → Prop
  | .name => True
  | .payload => SameFields patch job
  | .droppedDestination => SamePayload patch job ∧ givenDelivery patch job = job.delivery
  | .jobSpec | .mainSessionAgent | .delivery => SameState patch job ∧ keptDelivery patch job = job.delivery
  | .failureDestination => SameState patch job ∧ targetDelivery env (keptDelivery patch job) = job.delivery
  | .schedule => SameState patch job ∧
      destinationDelivery env (targetDelivery env (keptDelivery patch job)) = job.delivery ∧ job.updatedAtMs = now

/-! ### The check that fails -/

/-- The job with the fields up to the payload written. -/
def withFields : CronJob := patchFields patch {job with name := givenName patch job}

def withGivenPayload : CronJob := {withFields patch job with payload := givenPayload patch job}

/-- With alert and delivery written. -/
def withPayload : CronJob := patchDelivery patch (withGivenPayload patch job)

/-- With all of the patch written. -/
def withPatch : CronJob := patchState patch (withPayload patch job)

/-- With the webhook target normalised. -/
def withTarget : CronJob := {withPatch patch job with delivery := targetDelivery env (keptDelivery patch job)}

/-- With the failure destination's target normalised. -/
def withDestination : CronJob :=
  {withPatch patch job with delivery := destinationDelivery env (targetDelivery env (keptDelivery patch job))}

/-- The edited job as its next run is asked for. -/
def edited (now : Int) : CronJob := {withAnchor patch now (withDestination env patch job) with updatedAtMs := now}

/-- Whether the next run is asked for. -/
def asksNextRun (job : CronJob) : Prop :=
  isJobEnabled job = true ∧ (patch.schedule.isSome = true ∨ patch.enabled.isSome = true ∨ job.state.nextRunAtMs = none)

instance (job : CronJob) : Decidable (asksNextRun patch job) := inferInstanceAs (Decidable (_ ∧ _))

def throws {α : Type} (x : Except String α) : Bool :=
  match x with
  | .ok _ => false
  | .error _ => true

/-- The check an edit fails at, with the writes before it made. -/
def failedCheck (defaultAgentId : Option String) (now : Int) : Option EditCheck :=
  if patch.name.any fun raw => throws (normalizeRequiredName raw) then some .name
  else if patch.payload.any fun payload => throws (mergeCronPayload job.payload payload) then some .payload
  else if refusesFailureDestination (withPayload patch job) then some .droppedDestination
  else if throws (assertSupportedJobSpec (withPatch patch job)) then some .jobSpec
  else if throws (assertMainSessionAgentId (withPatch patch job) defaultAgentId) then some .mainSessionAgent
  else if throws (assertDeliverySupport env (withPatch patch job)) then some .delivery
  else if throws (assertFailureDestinationSupport env (withTarget env patch job)) then some .failureDestination
  else if asksNextRun patch (edited env patch job now) ∧
      throws (computeJobNextRunAtMs env (edited env patch job now) now) then some .schedule
  else none

/-- The job as an edit leaves it that fails at a check. -/
def writtenBefore (now : Int) : EditCheck → CronJob
  | .name => job
  | .payload => withFields patch job
  | .droppedDestination => withPayload patch job
  | .jobSpec | .mainSessionAgent | .delivery => withPatch patch job
  | .failureDestination => withTarget env patch job
  | .schedule => edited env patch job now

end Given

/-! ### What an edit leaves -/

section Stages
variable {env : CronEnv} {patch : CronJobPatch} {job : CronJob}

theorem throws_eq_true {α : Type} {x : Except String α} (h : throws x = true) : ∃ message, x = .error message := by
  cases x with
  | ok a => cases h
  | error message => exact ⟨message, rfl⟩

theorem throws_eq_false {α : Type} {x : Except String α} (h : throws x = false) : ∃ a, x = .ok a := by
  cases x with
  | ok a => exact ⟨a, rfl⟩
  | error message => cases h

theorem checked_throws {result : Except String Unit} (h : throws result = true) :
    ∃ message, checked job result = .error ⟨message, job⟩ := by
  obtain ⟨message, rfl⟩ := throws_eq_true h
  exact ⟨message, rfl⟩

theorem checked_passes {result : Except String Unit} (h : throws result = false) : checked job result = .ok job := by
  obtain ⟨_, rfl⟩ := throws_eq_false h
  rfl

theorem checkedWrite_throws {result : Except String CronJob} (h : throws result = true) :
    ∃ message, checkedWrite job result = .error ⟨message, job⟩ := by
  obtain ⟨message, rfl⟩ := throws_eq_true h
  exact ⟨message, rfl⟩

theorem patchName_throws (h : (patch.name.any fun raw => throws (normalizeRequiredName raw)) = true) :
    ∃ message, patchName patch job = .error ⟨message, job⟩ := by
  unfold patchName
  cases hname : patch.name with
  | none =>
    rw [hname] at h
    cases h
  | some raw =>
    rw [hname] at h
    obtain ⟨message, hm⟩ := throws_eq_true h
    exact ⟨message, by dsimp only; rw [hm]; rfl⟩

theorem patchName_passes (h : (patch.name.any fun raw => throws (normalizeRequiredName raw)) = false) :
    patchName patch job = .ok {job with name := givenName patch job} := by
  unfold patchName givenName
  cases hname : patch.name with
  | none => rfl
  | some raw =>
    rw [hname] at h
    obtain ⟨name, hn⟩ := throws_eq_false h
    dsimp only
    rw [hn]
    unfold normalizeRequiredName at hn
    split at hn
    · rename_i hraw
      cases hn
      show Except.ok _ = Except.ok _
      rw [Option.bind_some, hraw]
      rfl
    · cases hn

theorem patchPayload_throws (job : CronJob)
    (h : (patch.payload.any fun payload => throws (mergeCronPayload job.payload payload)) = true) :
    ∃ message, patchPayload patch job = .error ⟨message, job⟩ := by
  unfold patchPayload
  cases hpayload : patch.payload with
  | none =>
    rw [hpayload] at h
    cases h
  | some payload =>
    rw [hpayload] at h
    obtain ⟨message, hm⟩ := throws_eq_true h
    exact ⟨message, by dsimp only; rw [hm]; rfl⟩

theorem patchPayload_passes
    (h : (patch.payload.any fun payload => throws (mergeCronPayload job.payload payload)) = false) :
    patchPayload patch job = .ok {job with payload := givenPayload patch job} := by
  unfold patchPayload givenPayload
  cases hpayload : patch.payload with
  | none => rfl
  | some payload =>
    rw [hpayload] at h
    obtain ⟨merged, hm⟩ := throws_eq_false h
    dsimp only
    rw [hm]
    rfl

theorem assertDeliverySupport_passes (h : throws (assertDeliverySupport env job) = false) :
    assertDeliverySupport env job = .ok {job with delivery := targetDelivery env job.delivery} := by
  unfold assertDeliverySupport at h ⊢
  unfold targetDelivery
  cases hd : job.delivery with
  | none =>
    show Except.ok job = .ok {job with delivery := none}
    rw [← hd]
  | some delivery =>
    have hsame : job = {job with delivery := some delivery} := by rw [← hd]
    rw [hd] at h
    dsimp only [Option.map_some] at h ⊢
    cases hm : delivery.mode with
    | none => exact congrArg Except.ok hsame
    | webhook =>
      rw [hm] at h
      dsimp only at h ⊢
      cases hu : normalizeHttpWebhookUrl env delivery.to with
      | none =>
        rw [hu] at h
        cases h
      | some target => rfl
    | _ =>
      rw [hm] at h
      dsimp only at h ⊢
      split at h
      · rename_i hi
        rw [if_pos hi]
        exact congrArg Except.ok hsame
      · cases h

theorem assertFailureDestinationSupport_passes (h : throws (assertFailureDestinationSupport env job) = false) :
    assertFailureDestinationSupport env job = .ok {job with delivery := destinationDelivery env job.delivery} := by
  unfold assertFailureDestinationSupport at h ⊢
  unfold destinationDelivery
  cases hd : job.delivery with
  | none =>
    show Except.ok job = .ok {job with delivery := none}
    rw [← hd]
  | some delivery =>
    have hsame : job = {job with delivery := some delivery} := by rw [← hd]
    rw [hd] at h
    dsimp only [Option.map_some] at h ⊢
    cases hf : delivery.failureDestination with
    | none => exact congrArg Except.ok hsame
    | some destination =>
      rw [hf] at h
      dsimp only at h ⊢
      split at h
      · cases h
      · rename_i hrefuses
        rw [if_neg hrefuses]
        cases hm : destination.mode with
        | none => exact congrArg Except.ok hsame
        | some mode =>
          cases mode with
          | announce => exact congrArg Except.ok hsame
          | webhook =>
            rw [if_pos hm] at h
            rw [if_pos rfl]
            cases hu : normalizeHttpWebhookUrl env destination.to with
            | none =>
              rw [hu] at h
              cases h
            | some target => rfl

theorem scheduleEditedJob_throws {now : Int} (hask : asksNextRun patch job)
    (h : throws (computeJobNextRunAtMs env job now) = true) :
    ∃ message, scheduleEditedJob env patch now job = .error ⟨message, job⟩ := by
  obtain ⟨message, hm⟩ := throws_eq_true h
  refine ⟨message, ?_⟩
  unfold scheduleEditedJob
  dsimp only
  rw [hm]
  split
  · exact if_pos hask.1
  · rename_i hgiven
    rw [not_or] at hgiven
    exact if_pos ⟨hask.1, (hask.2.resolve_left hgiven.1).resolve_left hgiven.2⟩

theorem scheduleEditedJob_passes {now : Int}
    (h : ¬(asksNextRun patch job ∧ throws (computeJobNextRunAtMs env job now) = true)) :
    ∃ next, scheduleEditedJob env patch now job = .ok next := by
  have hasked (he : isJobEnabled job = true)
      (hq : patch.schedule.isSome = true ∨ patch.enabled.isSome = true ∨ job.state.nextRunAtMs = none) :
      ∃ next, checkedWrite job ((computeJobNextRunAtMs env job now).map fun next =>
        {job with state := {job.state with nextRunAtMs := next}}) = .ok next := by
    cases hc : computeJobNextRunAtMs env job now with
    | ok next => exact ⟨_, rfl⟩
    | error message => exact absurd ⟨⟨he, hq⟩, by rw [hc]; rfl⟩ h
  unfold scheduleEditedJob
  dsimp only
  split
  · rename_i hgiven
    split
    · rename_i he
      exact hasked he (hgiven.imp id Or.inl)
    · exact ⟨_, rfl⟩
  · split
    · rename_i hmissing
      exact hasked hmissing.1 (.inr (.inr hmissing.2))
    · exact ⟨_, rfl⟩

/-- What an edit comes to: it is accepted, or throws with the writes before a
check made. -/
def Leaves (env : CronEnv) (patch : CronJobPatch) (job : CronJob) (now : Int) (result : Except FailedEdit CronJob) :
    Option EditCheck → Prop
  | none => ∃ next, result = .ok next
  | some check => ∃ message, result = .error ⟨message, writtenBefore env patch job now check⟩

theorem leaves_ite {now : Int} {result : Except FailedEdit CronJob} {check : EditCheck} {rest : Option EditCheck}
    {fails : Prop} [Decidable fails]
    (hfails : fails → ∃ message, result = .error ⟨message, writtenBefore env patch job now check⟩)
    (hpasses : ¬fails → Leaves env patch job now result rest) :
    Leaves env patch job now result (if fails then some check else rest) := by
  by_cases h : fails
  · rw [if_pos h]
    exact hfails h
  · rw [if_neg h]
    exact hpasses h

theorem bind_throws {x : Except FailedEdit CronJob} {f : CronJob → Except FailedEdit CronJob} {left : CronJob}
    (h : ∃ message, x = .error ⟨message, left⟩) : ∃ message, x >>= f = .error ⟨message, left⟩ := by
  obtain ⟨message, rfl⟩ := h
  exact ⟨message, rfl⟩

theorem bind_passes {x : Except FailedEdit CronJob} {f : CronJob → Except FailedEdit CronJob} {next : CronJob}
    (h : x = .ok next) : x >>= f = f next := by
  rw [h]
  rfl

/-- An edit fails at the check that fails first, with the writes before it made. -/
theorem editJob_leaves (defaultAgentId : Option String) (now : Int) :
    Leaves env patch job now (editJob env defaultAgentId patch now job)
      (failedCheck env patch job defaultAgentId now) := by
  unfold failedCheck editJob applyJobPatch
  simp only [bind_assoc]
  refine leaves_ite (fun hname => bind_throws (patchName_throws hname)) fun hname => ?_
  rw [Bool.not_eq_true] at hname
  rw [bind_passes (patchName_passes hname)]
  refine leaves_ite (fun hpayload => bind_throws (patchPayload_throws (withFields patch job) hpayload))
    fun hpayload => ?_
  rw [Bool.not_eq_true] at hpayload
  have hpaid : patchPayload patch (patchFields patch {job with name := givenName patch job}) =
      .ok (withGivenPayload patch job) := patchPayload_passes hpayload
  rw [bind_passes hpaid, show patchDelivery patch (withGivenPayload patch job) = withPayload patch job from rfl]
  refine leaves_ite (fun hrefuses => bind_throws ⟨FAILURE_DESTINATION_ERROR, ?_⟩) fun hrefuses => ?_
  · rw [if_pos hrefuses]
    rfl
  have hkept : checked (withPayload patch job)
      (if refusesFailureDestination (withPayload patch job) then .error FAILURE_DESTINATION_ERROR else .ok ()) =
        .ok (withPayload patch job) := by
    rw [if_neg hrefuses]
    rfl
  rw [bind_passes hkept, show patchState patch (withPayload patch job) = withPatch patch job from rfl]
  refine leaves_ite (fun hspec => bind_throws (checked_throws hspec)) fun hspec => ?_
  rw [bind_passes (checked_passes (Bool.eq_false_iff.mpr hspec))]
  refine leaves_ite (fun hagent => bind_throws (checked_throws hagent)) fun hagent => ?_
  rw [bind_passes (checked_passes (Bool.eq_false_iff.mpr hagent))]
  refine leaves_ite (fun hdelivery => bind_throws (checkedWrite_throws hdelivery)) fun hdelivery => ?_
  have htarget : checkedWrite (withPatch patch job) (assertDeliverySupport env (withPatch patch job)) =
      .ok (withTarget env patch job) := by
    rw [assertDeliverySupport_passes (Bool.eq_false_iff.mpr hdelivery)]
    rfl
  rw [bind_passes htarget]
  refine leaves_ite (fun hdestination => bind_throws (checkedWrite_throws hdestination)) fun hdestination => ?_
  have hdestined : checkedWrite (withTarget env patch job)
      (assertFailureDestinationSupport env (withTarget env patch job)) = .ok (withDestination env patch job) := by
    rw [assertFailureDestinationSupport_passes (Bool.eq_false_iff.mpr hdestination)]
    rfl
  rw [bind_passes hdestined]
  exact leaves_ite (fun hasks => scheduleEditedJob_throws hasks.1 hasks.2) fun hasks => scheduleEditedJob_passes hasks

end Stages

/-! ### What was written before -/

section Written
variable {env : CronEnv} {patch : CronJobPatch} {job : CronJob}

theorem withFields_eq_iff : withFields patch job = job ↔ SameFields patch job := by
  refine ⟨fun h => ?_, fun h => ?_⟩
  · exact ⟨congrArg CronJob.name h, congrArg CronJob.description h, congrArg CronJob.enabled h,
      congrArg CronJob.deleteAfterRun h, congrArg CronJob.schedule h, congrArg CronJob.sessionTarget h,
      congrArg CronJob.wakeMode h⟩
  · exact CronJob.ext rfl rfl rfl h.name h.description h.enabled h.deleteAfterRun rfl rfl h.schedule
      h.sessionTarget h.wakeMode rfl rfl rfl rfl

theorem withPayload_eq_iff :
    withPayload patch job = job ↔ SamePayload patch job ∧ givenDelivery patch job = job.delivery := by
  refine ⟨fun h => ?_, fun ⟨h, hdelivery⟩ => ?_⟩
  · exact ⟨⟨⟨congrArg CronJob.name h, congrArg CronJob.description h, congrArg CronJob.enabled h,
      congrArg CronJob.deleteAfterRun h, congrArg CronJob.schedule h, congrArg CronJob.sessionTarget h,
      congrArg CronJob.wakeMode h⟩, congrArg CronJob.payload h, congrArg CronJob.failureAlert h⟩,
      congrArg CronJob.delivery h⟩
  · exact CronJob.ext rfl rfl rfl h.name h.description h.enabled h.deleteAfterRun rfl rfl h.schedule
      h.sessionTarget h.wakeMode h.payload hdelivery h.failureAlert rfl

/-- With everything written, and a delivery and an edit time put in place. -/
theorem written_eq_iff {delivery : Option CronDelivery} {updatedAtMs : Int} :
    {withPatch patch job with delivery := delivery, updatedAtMs := updatedAtMs} = job ↔
      SameState patch job ∧ delivery = job.delivery ∧ job.updatedAtMs = updatedAtMs := by
  refine ⟨fun h => ?_, fun ⟨h, hdelivery, hupdated⟩ => ?_⟩
  · exact ⟨⟨⟨⟨congrArg CronJob.name h, congrArg CronJob.description h, congrArg CronJob.enabled h,
      congrArg CronJob.deleteAfterRun h, congrArg CronJob.schedule h, congrArg CronJob.sessionTarget h,
      congrArg CronJob.wakeMode h⟩, congrArg CronJob.payload h, congrArg CronJob.failureAlert h⟩,
      congrArg CronJob.state h, congrArg CronJob.agentId h, congrArg CronJob.sessionKey h⟩,
      congrArg CronJob.delivery h, (congrArg CronJob.updatedAtMs h).symm⟩
  · exact CronJob.ext rfl h.agentId h.sessionKey h.name h.description h.enabled h.deleteAfterRun rfl hupdated.symm
      h.schedule h.sessionTarget h.wakeMode h.payload hdelivery h.failureAlert h.state

/-- Only a cron schedule fails to give a next run. -/
theorem isCron_of_throws {now : Int} (h : throws (computeJobNextRunAtMs env job now) = true) :
    job.schedule.isCron = true := by
  obtain ⟨message, hm⟩ := throws_eq_true h
  exact isCron_of_error hm

/-- It needs no anchor. -/
theorem edited_of_isCron {now : Int} (h : (edited env patch job now).schedule.isCron = true) :
    edited env patch job now = {withDestination env patch job with updatedAtMs := now} := by
  have hanchor : (withAnchor patch now (withDestination env patch job)).schedule.isCron = true := h
  unfold edited
  unfold withAnchor at hanchor ⊢
  split
  · rename_i hschedule
    rw [hschedule] at hanchor
    cases hanchor
  · rfl

theorem later_check {fails : Prop} [Decidable fails] {check found : EditCheck} {rest : Option EditCheck}
    (h : (if fails then some check else rest) = some found) (hne : check ≠ found) : rest = some found := by
  split at h
  · exact absurd (Option.some.inj h) hne
  · exact h

theorem failedCheck_schedule {defaultAgentId : Option String} {now : Int}
    (h : failedCheck env patch job defaultAgentId now = some .schedule) :
    throws (computeJobNextRunAtMs env (edited env patch job now) now) = true := by
  unfold failedCheck at h
  have hlast := later_check (later_check (later_check (later_check (later_check (later_check (later_check h
    nofun) nofun) nofun) nofun) nofun) nofun) nofun
  split at hlast
  · rename_i hasks
    exact hasks.2
  · cases hlast

/-- An edit that fails at a check leaves the job as it was exactly when everything
written before it was there. -/
theorem writtenBefore_eq_iff {defaultAgentId : Option String} {now : Int} {check : EditCheck}
    (h : failedCheck env patch job defaultAgentId now = some check) :
    writtenBefore env patch job now check = job ↔ Unwritten env patch job now check := by
  cases check with
  | name => exact iff_of_true rfl trivial
  | payload => exact withFields_eq_iff
  | droppedDestination => exact withPayload_eq_iff
  | schedule =>
    show edited env patch job now = job ↔ _
    rw [edited_of_isCron (isCron_of_throws (failedCheck_schedule h))]
    have hwritten : ({withPatch patch job with
        delivery := destinationDelivery env (targetDelivery env (keptDelivery patch job))
        updatedAtMs := now} : CronJob) = job ↔ _ := written_eq_iff
    exact hwritten
  | _ => exact written_eq_iff.trans (and_congr_right fun _ => and_iff_left rfl)

/-- A write to the found job changes the store exactly when it changes the job. -/
theorem modifyJob_eq_iff {id : String} {jobs : List CronJob} {left : CronJob} (h : findJob id jobs = some job) :
    modifyJob id (fun _ => left) jobs = jobs ↔ left = job := by
  unfold findJob at h
  induction jobs with
  | nil => cases h
  | cons first rest ih =>
    unfold modifyJob
    by_cases hid : first.id = id
    · rw [List.find?_cons_of_pos (by simpa using hid)] at h
      cases h
      rw [if_pos hid]
      exact ⟨fun heq => (List.cons.inj heq).1, fun heq => by rw [heq]⟩
    · rw [List.find?_cons_of_neg (by simpa using hid)] at h
      rw [if_neg hid, List.cons_inj_right]
      exact ih h

end Written

/-! ### Refused edits -/

/-- An edit of a loaded store that throws leaves the jobs in memory as they were
exactly when no job has the id, or the job held everything that was written before
the check that failed. -/
theorem refused_edit_leaves_store (deps : CronDeps) (s : CronServiceState) (jobs : List CronJob) (id : String)
    (patch : CronJobPatch) (now : Int) (hloaded : s.store = some jobs)
    (hthrows : throws (updateJobs deps.env deps.config.defaultAgentId id patch now jobs).1 = true) :
    (updateJob deps id patch now s).store = some jobs ↔
      ∀ job, findJob id jobs = some job →
        ∃ check, failedCheck deps.env patch job deps.config.defaultAgentId now = some check ∧
          Unwritten deps.env patch job now check := by
  obtain ⟨message, hm⟩ := throws_eq_true hthrows
  have hsection : (updateJob deps id patch now s).store =
      some (updateJobs deps.env deps.config.defaultAgentId id patch now jobs).2 := by
    unfold updateJob CronServiceState.ensureLoaded CronServiceState.jobs
    simp only [hloaded, Option.isSome_some, if_true, Option.getD_some]
    generalize updateJobs deps.env deps.config.defaultAgentId id patch now jobs = answered at hm ⊢
    obtain ⟨answer, left⟩ := answered
    cases hm
    rfl
  rw [hsection, Option.some_inj]
  unfold updateJobs at hm ⊢
  cases hfound : findJob id jobs with
  | none =>
    dsimp only
    exact iff_of_true rfl fun job hjob => absurd hjob (Option.some_ne_none job).symm
  | some job =>
    rw [hfound] at hm
    dsimp only at hm ⊢
    have hleaves : Leaves deps.env patch job now (editJob deps.env deps.config.defaultAgentId patch now job)
        (failedCheck deps.env patch job deps.config.defaultAgentId now) := editJob_leaves _ now
    cases hcheck : failedCheck deps.env patch job deps.config.defaultAgentId now with
    | none =>
      rw [hcheck] at hleaves
      obtain ⟨next, hnext⟩ := hleaves
      rw [hnext] at hm
      cases hm
    | some check =>
      rw [hcheck] at hleaves
      obtain ⟨text, hleft⟩ := hleaves
      rw [hleft]
      dsimp only
      rw [modifyJob_eq_iff hfound, writtenBefore_eq_iff hcheck]
      refine ⟨fun h found hjob => ?_, fun h => ?_⟩
      · cases hjob
        exact ⟨check, hcheck, h⟩
      · obtain ⟨same, hsame, h⟩ := h job rfl
        rw [hcheck] at hsame
        cases hsame
        exact h

/-- A job of the main session cannot keep the payload of a report. -/
def toMainSession : CronJobPatch := {enabled := some false, sessionTarget := some "main"}

/-- The refused edit has disabled the job and moved it to the main session, and the
removal of another id writes that to the file. -/
theorem refused_edit_persisted :
    (updateJobs plainEnv none "report" toMainSession 2000 [hourlyJob true]).1 =
        .error "main cron jobs require payload.kind=\"systemEvent\"" ∧
      (updateJobs plainEnv none "report" toMainSession 2000 [hourlyJob true]).2 ≠ [hourlyJob true] ∧
      ((cronStep plainDeps).run [.read 1000, .update "report" toMainSession 2000, .remove "other" 3000]
          (.created [hourlyJob true])).map (fun s => s.file) =
        some [{hourlyJob true with enabled := false, sessionTarget := "main"}] := by
  refine ⟨?_, ?_, ?_⟩ <;> decide

/-- A system event without a text, in a patch that enables what is enabled. -/
def textless : CronJobPatch := {enabled := some true, payload := some (.systemEvent none)}

theorem refused_edit_leaves_store_textless :
    (updateJob plainDeps "report" textless 2000 {file := [], store := some [hourlyJob true]}).store =
      some [hourlyJob true] := by
  refine (refused_edit_leaves_store plainDeps _ [hourlyJob true] "report" textless 2000 rfl (by decide)).mpr ?_
  intro job hjob
  have hsame : hourlyJob true = job := Option.some.inj ((by decide : some (hourlyJob true) = _).trans hjob)
  subst hsame
  exact ⟨.payload, by decide, rfl, rfl, rfl, rfl, rfl, rfl, rfl⟩

end OpenClaw.Cron
