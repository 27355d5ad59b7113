import OpenClaw.Cron.Schedule

/-! Editing a job: normalisation, validation, and the patch of an update.

A patch is written field by field into the live job, with checks before, between
and after the writes. An edit that throws returns its message with the job as the
throw leaves it. -/
namespace OpenClaw.Cron
open Foundation.EcmaString
open Tasks (ThreadId)

/-! ### Normalisation -/

def normalizeRequiredName (raw : Option String) : Except String String :=
  match trimmed? raw with
  | some name => .ok name
  | none => .error "cron job name is required"

def normalizeOptionalText (raw : Option String) : Option String := trimmed? raw

def normalizeOptionalSessionKey (raw : Option String) : Option String := trimmed? raw

def DEFAULT_AGENT_ID : String := "main"

def isAgentIdChar (c : Char) : Bool :=
  let c := lowerAscii c
  ('a' ≤ c && c ≤ 'z') || c.isDigit || c = '_' || c = '-'

def isValidAgentId (id : List Char) : Bool :=
  match id with
  | [] => false
  | first :: rest =>
    isAgentIdChar first && first ≠ '_' && first ≠ '-' && rest.all isAgentIdChar && rest.length ≤ 63

/-- Lower case. Of the mappings outside ASCII only the two that give an ASCII
letter matter here. -/
def lowerCodes (c : Char) : List Char :=
  if c.toNat = 0x212A then ['k']
  else if c.toNat = 0x0130 then ['i', Char.ofNat 0x0307]
  else [lowerAscii c]

/-- `replace(/[^a-z0-9_-]+/g, "-")`, on lower case. -/
def collapseInvalid : Bool → List Char → List Char
  | _, [] => []
  | inRun, c :: rest =>
    if isAgentIdChar c && lowerAscii c = c then c :: collapseInvalid false rest
    else if inRun then collapseInvalid true rest
    else '-' :: collapseInvalid true rest

def normalizeAgentId (value : Option String) : String :=
  match trimmed? value with
  | none => DEFAULT_AGENT_ID
  | some id =>
    if isValidAgentId id.toList then String.ofList (id.toList.map lowerAscii)
    else
      let collapsed := collapseInvalid false (id.toList.flatMap lowerCodes)
      let stripped := ((collapsed.dropWhile (· = '-')).reverse.dropWhile (· = '-')).reverse.take 64
      if stripped = [] then DEFAULT_AGENT_ID else String.ofList stripped

def normalizeOptionalAgentId (raw : Option String) : Option String :=
  (trimmed? raw).map fun id => normalizeAgentId (some id)

/-! ### Validation -/

def isSessionTarget (sessionTarget : String) : Bool := startsWith sessionTarget "session:"

def isIsolatedLike (sessionTarget : String) : Bool :=
  sessionTarget = "isolated" || sessionTarget = "current" || isSessionTarget sessionTarget

def assertSafeCronSessionTargetId (sessionId : List Char) : Except String Unit :=
  let id := trimChars sessionId
  if id = [] || '/' ∈ id || '\\' ∈ id || Char.ofNat 0 ∈ id then
    .error "invalid cron sessionTarget session id"
  else .ok ()

def assertSupportedJobSpec (job : CronJob) : Except String Unit := do
  if isSessionTarget job.sessionTarget then assertSafeCronSessionTargetId (job.sessionTarget.toList.drop 8)
  if job.sessionTarget = "main" ∧ !job.payload.isSystemEvent then
    throw "main cron jobs require payload.kind=\"systemEvent\""
  if isIsolatedLike job.sessionTarget ∧ job.payload.isSystemEvent then
    throw "isolated/current/session cron jobs require payload.kind=\"agentTurn\""

def assertMainSessionAgentId (job : CronJob) (defaultAgentId : Option String) : Except String Unit :=
  match job.agentId.filter (· ≠ "") with
  | none => .ok ()
  | some agentId =>
    if job.sessionTarget = "main" ∧ normalizeAgentId (some agentId) ≠ normalizeAgentId defaultAgentId then
      .error ("cron: sessionTarget \"main\" is only valid for the default agent. Use sessionTarget \"isolated\" " ++
        "with payload.kind \"agentTurn\" for non-default agents (agentId: " ++ agentId ++ ")")
    else .ok ()

variable (env : CronEnv) (defaultAgentId : Option String) (patch : CronJobPatch)

def normalizeHttpWebhookUrl (value : Option String) : Option String :=
  (trimmed? value).filter fun url => env.urlProtocol url = some "http:" ∨ env.urlProtocol url = some "https:"

/-- A webhook target is stored as it was normalised. -/
def assertDeliverySupport (job : CronJob) : Except String CronJob :=
  match job.delivery with
  | none => .ok job
  | some delivery =>
    match delivery.mode with
    | .none => .ok job
    | .webhook =>
      match normalizeHttpWebhookUrl env delivery.to with
      | none => .error "cron webhook delivery requires delivery.to to be a valid http(s) URL"
      | some target => .ok {job with delivery := some {delivery with «to» := some target}}
    | _ =>
      if isIsolatedLike job.sessionTarget then .ok job
      else .error "cron channel delivery config is only supported for sessionTarget=\"isolated\""

/-- A failure destination of a main job that its delivery cannot carry. -/
def refusesFailureDestination (job : CronJob) : Bool :=
  job.sessionTarget = "main" && job.delivery.map CronDelivery.mode ≠ some .webhook &&
    (job.delivery.bind CronDelivery.failureDestination).isSome

def FAILURE_DESTINATION_ERROR : String :=
  "cron delivery.failureDestination is only supported for sessionTarget=\"isolated\" unless delivery.mode=\"webhook\""

def assertFailureDestinationSupport (job : CronJob) : Except String CronJob :=
  match job.delivery with
  | none => .ok job
  | some delivery =>
    match delivery.failureDestination with
    | none => .ok job
    | some destination =>
      if refusesFailureDestination job then .error FAILURE_DESTINATION_ERROR
      else if destination.mode = some .webhook then
        match normalizeHttpWebhookUrl env destination.to with
        | none =>
          .error ("cron failure destination webhook requires delivery.failureDestination.to to be " ++
            "a valid http(s) URL")
        | some target =>
          .ok {job with delivery := some {delivery with
            failureDestination := some {destination with «to» := some target}}}
      else .ok job

/-! ### Merging -/

def buildPayloadFromPatch (patch : CronPayloadPatch) : Except String CronPayload :=
  match patch with
  | .systemEvent text =>
    match text.filter (· ≠ "") with
    | none => .error "cron.update payload.kind=\"systemEvent\" requires text"
    | some text => .ok (.systemEvent text)
  | .agentTurn turn =>
    match turn.message.filter (· ≠ "") with
    | none => .error "cron.update payload.kind=\"agentTurn\" requires message"
    | some message =>
      .ok (.agentTurn {
        message := message
        model := turn.model
        fallbacks := turn.fallbacks
        toolsAllow := turn.toolsAllow.join
        thinking := turn.thinking
        timeoutSeconds := turn.timeoutSeconds
        lightContext := turn.lightContext
        allowUnsafeExternalContent := turn.allowUnsafeExternalContent })

/-- A patch of the same kind keeps what it does not name. -/
def mergeCronPayload (existing : CronPayload) (patch : CronPayloadPatch) : Except String CronPayload :=
  match existing, patch with
  | .systemEvent current, .systemEvent text => .ok (.systemEvent (text.getD current))
  | .agentTurn current, .agentTurn turn =>
    .ok (.agentTurn {current with
      message := turn.message.getD current.message
      model := turn.model.or current.model
      fallbacks := turn.fallbacks.or current.fallbacks
      toolsAllow := turn.toolsAllow.getD current.toolsAllow
      thinking := turn.thinking.or current.thinking
      timeoutSeconds := turn.timeoutSeconds.or current.timeoutSeconds
      lightContext := turn.lightContext.or current.lightContext
      allowUnsafeExternalContent := turn.allowUnsafeExternalContent.or current.allowUnsafeExternalContent})
  | _, patch => buildPayloadFromPatch patch

def normalizeOptionalThreadId (value : Option ThreadId) : Option ThreadId :=
  value.bind fun
    | .number n => some (.number n)
    | .text s => (trimmed s).map .text

def mergeFailureDestination (existing : Option CronFailureDestination) (patch : FailureDestinationPatch) :
    CronFailureDestination where
  channel := (patch.channel.map trimmed?).getD (existing.bind CronFailureDestination.channel)
  «to» := (patch.to.map trimmed?).getD (existing.bind CronFailureDestination.to)
  accountId := (patch.accountId.map trimmed?).getD (existing.bind CronFailureDestination.accountId)
  mode := patch.mode.getD (existing.bind CronFailureDestination.mode)

def mergeCronDelivery (existing : Option CronDelivery) (patch : CronDeliveryPatch) : CronDelivery where
  mode := (patch.mode.map fun mode => if mode = .deliver then .announce else mode).getD
    ((existing.map CronDelivery.mode).getD .none)
  channel := (patch.channel.map trimmed?).getD (existing.bind CronDelivery.channel)
  «to» := (patch.to.map trimmed?).getD (existing.bind CronDelivery.to)
  threadId := (patch.threadId.map normalizeOptionalThreadId).getD (existing.bind CronDelivery.threadId)
  accountId := (patch.accountId.map trimmed?).getD (existing.bind CronDelivery.accountId)
  bestEffort := patch.bestEffort.or (existing.bind CronDelivery.bestEffort)
  failureDestination :=
    match patch.failureDestination with
    | none => existing.bind CronDelivery.failureDestination
    | some none => none
    | some (some fd) => some (mergeFailureDestination (existing.bind CronDelivery.failureDestination) fd)

def mergeCronFailureAlert (existing : Option FailureAlertSetting) (patch : Option FailureAlertPatch) :
    Option FailureAlertSetting :=
  match patch with
  | none => existing
  | some .off => some .off
  | some (.on alert) =>
    let base : CronFailureAlert :=
      match existing with
      | some (.on base) => base
      | _ => {}
    some (.on {
      after := (alert.after.map fun after => after.filter (0 < ·)).getD base.after
      channel := (alert.channel.map trimmed?).getD base.channel
      «to» := (alert.to.map trimmed?).getD base.to
      cooldownMs := (alert.cooldownMs.map fun cooldown => cooldown.filter (0 ≤ ·)).getD base.cooldownMs
      mode := alert.mode.getD base.mode
      accountId := (alert.accountId.map trimmed?).getD base.accountId })

/-- The schedule of a patch; a cron schedule keeps or gets a stagger window. -/
def patchedSchedule (current patch : CronSchedule) : CronSchedule :=
  match patch with
  | .cron expr tz staggerMs =>
    match normalizeCronStaggerMs staggerMs with
    | some explicit => .cron expr tz (some explicit)
    | none =>
      match current with
      | .cron _ _ currentStagger => .cron expr tz currentStagger
      | _ => .cron expr tz ((resolveDefaultCronStaggerMs expr).or staggerMs)
  | schedule => schedule

/-! ### The patch -/

/-- An edit that threw: its message, and the job as it is left. -/
structure FailedEdit where
  message : String
  job : CronJob

/-- A check that writes nothing. -/
def checked (job : CronJob) (result : Except String Unit) : Except FailedEdit CronJob :=
  match result with
  | .error message => .error ⟨message, job⟩
  | .ok () => .ok job

/-- A check that may write what it normalised. -/
def checkedWrite (job : CronJob) (result : Except String CronJob) : Except FailedEdit CronJob :=
  match result with
  | .error message => .error ⟨message, job⟩
  | .ok next => .ok next

/-- The first writes of a patch, up to the payload. -/
def patchFields (job : CronJob) : CronJob :=
  {job with
    description := (patch.description.map normalizeOptionalText).getD job.description
    enabled := patch.enabled.getD job.enabled
    deleteAfterRun := patch.deleteAfterRun.or job.deleteAfterRun
    schedule := (patch.schedule.map (patchedSchedule job.schedule)).getD job.schedule
    sessionTarget := (patch.sessionTarget.filter (· ≠ "")).getD job.sessionTarget
    wakeMode := patch.wakeMode.getD job.wakeMode}

/-- The writes between the payload and the check of the failure destination. -/
def patchDelivery (job : CronJob) : CronJob :=
  {job with
    delivery := (patch.delivery.map fun delivery => some (mergeCronDelivery job.delivery delivery)).getD job.delivery
    failureAlert := (patch.failureAlert.map (mergeCronFailureAlert job.failureAlert)).getD job.failureAlert}

/-- The writes after that check. -/
def patchState (job : CronJob) : CronJob :=
  {job with
    delivery := if job.sessionTarget = "main" ∧ job.delivery.map CronDelivery.mode ≠ some .webhook then none
      else job.delivery
    state := (patch.state.map fun state => state.apply job.state).getD job.state
    agentId := (patch.agentId.map normalizeOptionalAgentId).getD job.agentId
    sessionKey := (patch.sessionKey.map normalizeOptionalSessionKey).getD job.sessionKey}

def patchName (job : CronJob) : Except FailedEdit CronJob :=
  match patch.name with
  | none => .ok job
  | some name => checkedWrite job ((normalizeRequiredName name).map fun name => {job with name := name})

def patchPayload (job : CronJob) : Except FailedEdit CronJob :=
  match patch.payload with
  | none => .ok job
  | some payload =>
    checkedWrite job ((mergeCronPayload job.payload payload).map fun payload => {job with payload := payload})

def applyJobPatch (job : CronJob) :
    Except FailedEdit CronJob := do
  let job ← patchName patch job
  let job ← patchPayload patch (patchFields patch job)
  let job := patchDelivery patch job
  let job ← checked job (if refusesFailureDestination job then .error FAILURE_DESTINATION_ERROR else .ok ())
  let job := patchState patch job
  let job ← checked job (assertSupportedJobSpec job)
  let job ← checked job (assertMainSessionAgentId job defaultAgentId)
  let job ← checkedWrite job (assertDeliverySupport env job)
  checkedWrite job (assertFailureDestinationSupport env job)

/-- An interval without an anchor gets one. -/
def withAnchor (now : Int) (job : CronJob) : CronJob :=
  match job.schedule with
  | .every everyMs none =>
    let fallbackAnchorMs := if patch.schedule.any CronSchedule.isEvery then now else job.createdAtMs
    {job with schedule := .every everyMs (some (max 0 fallbackAnchorMs))}
  | _ => job

/-- The next run of an edited job: an edit of the schedule or of `enabled` asks
for it anew; any other edit repairs a missing one. -/
def scheduleEditedJob (now : Int) (job : CronJob) : Except FailedEdit CronJob :=
  let asked : Except FailedEdit CronJob :=
    checkedWrite job ((computeJobNextRunAtMs env job now).map fun next =>
      {job with state := {job.state with nextRunAtMs := next}})
  if patch.schedule.isSome ∨ patch.enabled.isSome then
    if isJobEnabled job then asked
    else .ok {job with state := {job.state with nextRunAtMs := none, runningAtMs := none}}
  else if isJobEnabled job ∧ job.state.nextRunAtMs = none then asked
  else .ok job

/-- What `update` does to the job it found. -/
def editJob (now : Int) (job : CronJob) :
    Except FailedEdit CronJob := do
  let job ← applyJobPatch env defaultAgentId patch job
  scheduleEditedJob env patch now {withAnchor patch now job with updatedAtMs := now}

/-! ### What an edit leaves -/

/-- The job an edit leaves, whether it threw or not. -/
def leftJob : Except FailedEdit CronJob → CronJob
  | .ok job => job
  | .error failed => failed.job

section Left
variable {P : CronJob → Prop} {job : CronJob}

theorem left_bind {x : Except FailedEdit CronJob} {f : CronJob → Except FailedEdit CronJob}
    (hx : P (leftJob x)) (hf : ∀ next, P next → P (leftJob (f next))) : P (leftJob (x >>= f)) := by
  cases x with
  | error failed => exact hx
  | ok next => exact hf next hx

theorem left_checked {result : Except String Unit} (h : P job) : P (leftJob (checked job result)) := by
  cases result <;> exact h

theorem left_checkedWrite {result : Except String CronJob} (h : P job) (hw : ∀ next, result = .ok next → P next) :
    P (leftJob (checkedWrite job result)) := by
  cases result with
  | error message => exact h
  | ok next => exact hw next rfl

end Left

/-- The delivery checks write nothing but the delivery. -/
theorem assertDeliverySupport_writes {env : CronEnv} {job next : CronJob}
    (h : assertDeliverySupport env job = .ok next) : ∃ delivery, next = {job with delivery := delivery} := by
  unfold assertDeliverySupport at h
  split at h
  · cases h
    exact ⟨job.delivery, rfl⟩
  · split at h
    · cases h
      exact ⟨job.delivery, rfl⟩
    · split at h
      · cases h
      · cases h
        exact ⟨_, rfl⟩
    · split at h
      · cases h
        exact ⟨job.delivery, rfl⟩
      · cases h

theorem assertFailureDestinationSupport_writes {env : CronEnv} {job next : CronJob}
    (h : assertFailureDestinationSupport env job = .ok next) :
    ∃ delivery, next = {job with delivery := delivery} := by
  unfold assertFailureDestinationSupport at h
  split at h
  · cases h
    exact ⟨job.delivery, rfl⟩
  · split at h
    · cases h
      exact ⟨job.delivery, rfl⟩
    · split at h
      · cases h
      · split at h
        · split at h
          · cases h
          · cases h
            exact ⟨_, rfl⟩
        · cases h
          exact ⟨job.delivery, rfl⟩

theorem map_eq_ok {α β : Type} {x : Except String α} {f : α → β} {b : β} (h : x.map f = .ok b) :
    ∃ a, x = .ok a ∧ f a = b := by
  cases x with
  | error e => cases h
  | ok a => exact ⟨a, rfl, Except.ok.inj h⟩

/-- What every write of a patch keeps, the patch keeps, thrown or not. -/
theorem left_applyJobPatch {env : CronEnv} {defaultAgentId : Option String} {patch : CronJobPatch}
    {P : CronJob → Prop} {job : CronJob} (h : P job) (hname : ∀ j name, P j → P {j with name := name})
    (hfields : ∀ j, P j → P (patchFields patch j)) (hpayload : ∀ j payload, P j → P {j with payload := payload})
    (hdelivery : ∀ j, P j → P (patchDelivery patch j)) (hstate : ∀ j, P j → P (patchState patch j))
    (hto : ∀ j delivery, P j → P {j with delivery := delivery}) :
    P (leftJob (applyJobPatch env defaultAgentId patch job)) := by
  unfold applyJobPatch
  refine left_bind ?_ fun j hj => left_bind ?_ fun j hj => left_bind ?_ fun j hj => left_bind ?_ fun j hj =>
    left_bind ?_ fun j hj => left_bind ?_ fun j hj => ?_
  · unfold patchName
    split
    · exact h
    · refine left_checkedWrite h fun next hn => ?_
      obtain ⟨name, _, rfl⟩ := map_eq_ok hn
      exact hname _ _ h
  · unfold patchPayload
    split
    · exact hfields _ hj
    · refine left_checkedWrite (hfields _ hj) fun next hn => ?_
      obtain ⟨payload, _, rfl⟩ := map_eq_ok hn
      exact hpayload _ _ (hfields _ hj)
  · exact left_checked (hdelivery _ hj)
  · exact left_checked (hstate _ hj)
  · exact left_checked hj
  · refine left_checkedWrite hj fun next hn => ?_
    obtain ⟨delivery, rfl⟩ := assertDeliverySupport_writes hn
    exact hto _ _ hj
  · refine left_checkedWrite hj fun next hn => ?_
    obtain ⟨delivery, rfl⟩ := assertFailureDestinationSupport_writes hn
    exact hto _ _ hj

/-- An accepted patch makes all of its writes. -/
theorem applyJobPatch_ok {env : CronEnv} {defaultAgentId : Option String} {patch : CronJobPatch}
    {job next : CronJob} (h : applyJobPatch env defaultAgentId patch job = .ok next) :
    ∃ name payload delivery, next =
      {patchState patch (patchDelivery patch {patchFields patch {job with name := name} with payload := payload}) with
        delivery := delivery} := by
  have hbind {x : Except FailedEdit CronJob} {f : CronJob → Except FailedEdit CronJob} {j : CronJob}
      (hx : x >>= f = .ok j) : ∃ i, x = .ok i ∧ f i = .ok j := by
    cases x with
    | error failed => cases hx
    | ok i => exact ⟨i, rfl, hx⟩
  have hchecked {j i : CronJob} {r : Except String Unit} (hx : checked j r = .ok i) : i = j := by
    cases r with
    | error message => cases hx
    | ok u => exact (Except.ok.inj hx).symm
  have hwrite {j i : CronJob} {r : Except String CronJob} (hx : checkedWrite j r = .ok i) : r = .ok i := by
    cases r with
    | error message => cases hx
    | ok u => exact congrArg Except.ok (Except.ok.inj hx)
  unfold applyJobPatch at h
  obtain ⟨named, hnamed, h⟩ := hbind h
  obtain ⟨paid, hpaid, h⟩ := hbind h
  obtain ⟨j, hj, h⟩ := hbind h
  cases hchecked hj
  obtain ⟨j, hj, h⟩ := hbind h
  cases hchecked hj
  obtain ⟨j, hj, h⟩ := hbind h
  cases hchecked hj
  obtain ⟨j, hj, h⟩ := hbind h
  obtain ⟨d₁, rfl⟩ := assertDeliverySupport_writes (hwrite hj)
  obtain ⟨d₂, rfl⟩ := assertFailureDestinationSupport_writes (hwrite h)
  have hname : ∃ name, named = {job with name := name} := by
    unfold patchName at hnamed
    split at hnamed
    · cases hnamed
      exact ⟨job.name, rfl⟩
    · obtain ⟨name, _, rfl⟩ := map_eq_ok (hwrite hnamed)
      exact ⟨name, rfl⟩
  have hpayload : ∃ payload, paid = {patchFields patch named with payload := payload} := by
    unfold patchPayload at hpaid
    split at hpaid
    · cases hpaid
      exact ⟨_, rfl⟩
    · obtain ⟨payload, _, rfl⟩ := map_eq_ok (hwrite hpaid)
      exact ⟨payload, rfl⟩
  obtain ⟨name, rfl⟩ := hname
  obtain ⟨payload, rfl⟩ := hpayload
  exact ⟨name, payload, d₂, rfl⟩

theorem left_scheduleEditedJob {env : CronEnv} {patch : CronJobPatch} {P : CronJob → Prop} {now : Int} {job : CronJob}
    (h : P job) (hnext : ∀ next, P {job with state := {job.state with nextRunAtMs := next}})
    (hoff : patch.schedule.isSome ∨ patch.enabled.isSome → ¬ isJobEnabled job = true →
      P {job with state := {job.state with nextRunAtMs := none, runningAtMs := none}}) :
    P (leftJob (scheduleEditedJob env patch now job)) := by
  have hasked : P (leftJob (checkedWrite job ((computeJobNextRunAtMs env job now).map fun next =>
      {job with state := {job.state with nextRunAtMs := next}}))) := by
    refine left_checkedWrite h fun edited hn => ?_
    obtain ⟨next, _, rfl⟩ := map_eq_ok hn
    exact hnext next
  unfold scheduleEditedJob
  dsimp only
  split
  · rename_i hgiven
    split
    · exact hasked
    · exact hoff hgiven ‹_›
  · split
    · exact hasked
    · exact h

/-- An edit names the job as before. -/
theorem editJob_id (now : Int) (job : CronJob)
    : (leftJob (editJob env defaultAgentId patch now job)).id = job.id := by
  unfold editJob
  refine left_bind (P := fun j => j.id = job.id) ?_ fun j hj => ?_
  · exact left_applyJobPatch (P := fun j => j.id = job.id) rfl (fun _ _ h => h) (fun _ h => h) (fun _ _ h => h)
      (fun _ h => h) (fun _ h => h) fun _ _ h => h
  · have hanchor : (withAnchor patch now j).id = job.id := by
      unfold withAnchor
      split <;> exact hj
    exact left_scheduleEditedJob (P := fun j => j.id = job.id) hanchor (fun _ => hanchor) fun _ _ => hanchor

/-- What a patch must not do for an edit to leave the marker of a run: write it, or
disable the job. -/
def SparesMarker (job : CronJob) : Prop :=
  (∀ state, patch.state = some state → state.runningAtMs = none) ∧
    (patch.schedule.isSome ∨ patch.enabled.isSome → patch.enabled.getD job.enabled = true)

theorem editJob_runningAtMs {env : CronEnv} {defaultAgentId : Option String} {patch : CronJobPatch} {now : Int}
    {job : CronJob} (h : SparesMarker patch job) :
    (leftJob (editJob env defaultAgentId patch now job)).state.runningAtMs = job.state.runningAtMs := by
  have hpatch : (leftJob (applyJobPatch env defaultAgentId patch job)).state.runningAtMs =
      job.state.runningAtMs := by
    refine left_applyJobPatch (P := fun j => j.state.runningAtMs = job.state.runningAtMs) rfl (fun _ _ h => h)
      (fun _ h => h) (fun _ _ h => h) (fun _ h => h) (fun j hj => ?_) fun _ _ h => h
    unfold patchState
    cases hs : patch.state with
    | none => exact hj
    | some state =>
      show (state.apply j.state).runningAtMs = _
      unfold CronJobStatePatch.apply
      rw [h.1 state hs]
      exact hj
  unfold editJob
  cases hok : applyJobPatch env defaultAgentId patch job with
  | error failed =>
    rw [hok] at hpatch
    exact hpatch
  | ok next =>
    rw [hok] at hpatch
    obtain ⟨name, payload, delivery, hnext⟩ := applyJobPatch_ok hok
    have henabled : next.enabled = patch.enabled.getD job.enabled := by
      rw [hnext]
      rfl
    let edited : CronJob := {withAnchor patch now next with updatedAtMs := now}
    have hedited : edited.enabled = next.enabled ∧ edited.state = next.state := by
      show (withAnchor patch now next).enabled = _ ∧ (withAnchor patch now next).state = _
      unfold withAnchor
      split <;> exact ⟨rfl, rfl⟩
    have hrun : edited.state.runningAtMs = job.state.runningAtMs := by
      rw [hedited.2]
      exact hpatch
    refine left_scheduleEditedJob (P := fun j => j.state.runningAtMs = job.state.runningAtMs) hrun (fun _ => hrun)
      fun hgiven hoff => absurd ?_ hoff
    rw [isJobEnabled, hedited.1, henabled]
    exact h.2 hgiven

end OpenClaw.Cron
