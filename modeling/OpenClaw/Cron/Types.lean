import OpenClaw.Tasks.Types

/-! Cron jobs, their run state, and the patches an edit applies.

Times and durations are whole milliseconds. An optional field is an `Option`; a
field of a patch that may be given as absent is an `Option (Option _)`, not given,
cleared, or set. -/
namespace OpenClaw.Cron
open Tasks (ThreadId)

/-- The legacy `atMs` of a stored one-shot: a number, or a text that is parsed. -/
inductive AtMs where
  | number (ms : Int)
  | text (s : String)
  deriving DecidableEq

inductive CronSchedule where
  | «at» (time : Option String) (atMs : Option AtMs)
  | every (everyMs : Int) (anchorMs : Option Int)
  | cron (expr : String) (tz : Option String) (staggerMs : Option Int)
  deriving DecidableEq

def CronSchedule.isAt : CronSchedule → Bool
  | .at _ _ => true
  | _ => false

def CronSchedule.isEvery : CronSchedule → Bool
  | .every _ _ => true
  | _ => false

def CronSchedule.isCron : CronSchedule → Bool
  | .cron _ _ _ => true
  | _ => false

inductive CronWakeMode where
  | nextHeartbeat | now
  deriving DecidableEq

/-- `deliver` is a legacy name of `announce`. -/
inductive CronDeliveryMode where
  | none | announce | webhook | deliver
  deriving DecidableEq

inductive FailureMode where
  | announce | webhook
  deriving DecidableEq

structure CronFailureDestination where
  channel : Option String := none
  «to» : Option String := none
  accountId : Option String := none
  mode : Option FailureMode := none
  deriving DecidableEq

structure CronDelivery where
  mode : CronDeliveryMode
  channel : Option String := none
  «to» : Option String := none
  threadId : Option ThreadId := none
  accountId : Option String := none
  bestEffort : Option Bool := none
  failureDestination : Option CronFailureDestination := none
  deriving DecidableEq

structure FailureDestinationPatch where
  channel : Option (Option String) := none
  «to» : Option (Option String) := none
  accountId : Option (Option String) := none
  mode : Option (Option FailureMode) := none
  deriving DecidableEq

structure CronDeliveryPatch where
  mode : Option CronDeliveryMode := none
  channel : Option (Option String) := none
  «to» : Option (Option String) := none
  threadId : Option (Option ThreadId) := none
  accountId : Option (Option String) := none
  bestEffort : Option Bool := none
  failureDestination : Option (Option FailureDestinationPatch) := none
  deriving DecidableEq

structure CronFailureAlert where
  after : Option Int := none
  channel : Option String := none
  «to» : Option String := none
  cooldownMs : Option Int := none
  mode : Option FailureMode := none
  accountId : Option String := none
  deriving DecidableEq

/-- `false`, or an alert. -/
inductive FailureAlertSetting where
  | off
  | on (alert : CronFailureAlert)
  deriving DecidableEq

structure CronFailureAlertPatch where
  after : Option (Option Int) := none
  channel : Option (Option String) := none
  «to» : Option (Option String) := none
  cooldownMs : Option (Option Int) := none
  mode : Option (Option FailureMode) := none
  accountId : Option (Option String) := none
  deriving DecidableEq

inductive FailureAlertPatch where
  | off
  | on (alert : CronFailureAlertPatch)
  deriving DecidableEq

inductive ExternalContentSource where
  | gmail | webhook
  deriving DecidableEq

structure AgentTurn where
  message : String
  model : Option String := none
  fallbacks : Option (List String) := none
  thinking : Option String := none
  timeoutSeconds : Option Int := none
  allowUnsafeExternalContent : Option Bool := none
  externalContentSource : Option ExternalContentSource := none
  lightContext : Option Bool := none
  toolsAllow : Option (List String) := none
  deriving DecidableEq

inductive CronPayload where
  | systemEvent (text : String)
  | agentTurn (turn : AgentTurn)
  deriving DecidableEq

def CronPayload.isSystemEvent : CronPayload → Bool
  | .systemEvent _ => true
  | .agentTurn _ => false

structure AgentTurnPatch where
  message : Option String := none
  model : Option String := none
  fallbacks : Option (List String) := none
  thinking : Option String := none
  timeoutSeconds : Option Int := none
  allowUnsafeExternalContent : Option Bool := none
  lightContext : Option Bool := none
  toolsAllow : Option (Option (List String)) := none
  deriving DecidableEq

inductive CronPayloadPatch where
  | systemEvent (text : Option String)
  | agentTurn (turn : AgentTurnPatch)
  deriving DecidableEq

inductive CronRunStatus where
  | ok | error | skipped
  deriving DecidableEq

inductive CronDeliveryStatus where
  | delivered | notDelivered | unknown | notRequested
  deriving DecidableEq

structure CronJobState where
  nextRunAtMs : Option Int := none
  runningAtMs : Option Int := none
  lastRunAtMs : Option Int := none
  lastRunStatus : Option CronRunStatus := none
  lastStatus : Option CronRunStatus := none
  lastError : Option String := none
  lastErrorReason : Option String := none
  lastDurationMs : Option Int := none
  consecutiveErrors : Option Int := none
  lastFailureAlertAtMs : Option Int := none
  scheduleErrorCount : Option Int := none
  lastDeliveryStatus : Option CronDeliveryStatus := none
  lastDeliveryError : Option String := none
  lastDelivered : Option Bool := none
  deriving DecidableEq

/-- `Partial<CronJobState>`, each field not given, given as absent, or set. -/
structure CronJobStatePatch where
  nextRunAtMs : Option (Option Int) := none
  runningAtMs : Option (Option Int) := none
  lastRunAtMs : Option (Option Int) := none
  lastRunStatus : Option (Option CronRunStatus) := none
  lastStatus : Option (Option CronRunStatus) := none
  lastError : Option (Option String) := none
  lastErrorReason : Option (Option String) := none
  lastDurationMs : Option (Option Int) := none
  consecutiveErrors : Option (Option Int) := none
  lastFailureAlertAtMs : Option (Option Int) := none
  scheduleErrorCount : Option (Option Int) := none
  lastDeliveryStatus : Option (Option CronDeliveryStatus) := none
  lastDeliveryError : Option (Option String) := none
  lastDelivered : Option (Option Bool) := none
  deriving DecidableEq

/-- `{ ...state, ...patch }`. -/
def CronJobStatePatch.apply (patch : CronJobStatePatch) (state : CronJobState) : CronJobState where
  nextRunAtMs := patch.nextRunAtMs.getD state.nextRunAtMs
  runningAtMs := patch.runningAtMs.getD state.runningAtMs
  lastRunAtMs := patch.lastRunAtMs.getD state.lastRunAtMs
  lastRunStatus := patch.lastRunStatus.getD state.lastRunStatus
  lastStatus := patch.lastStatus.getD state.lastStatus
  lastError := patch.lastError.getD state.lastError
  lastErrorReason := patch.lastErrorReason.getD state.lastErrorReason
  lastDurationMs := patch.lastDurationMs.getD state.lastDurationMs
  consecutiveErrors := patch.consecutiveErrors.getD state.consecutiveErrors
  lastFailureAlertAtMs := patch.lastFailureAlertAtMs.getD state.lastFailureAlertAtMs
  scheduleErrorCount := patch.scheduleErrorCount.getD state.scheduleErrorCount
  lastDeliveryStatus := patch.lastDeliveryStatus.getD state.lastDeliveryStatus
  lastDeliveryError := patch.lastDeliveryError.getD state.lastDeliveryError
  lastDelivered := patch.lastDelivered.getD state.lastDelivered

@[ext] structure CronJob where
  id : String
  agentId : Option String := none
  sessionKey : Option String := none
  name : String
  description : Option String := none
  enabled : Bool := true
  deleteAfterRun : Option Bool := none
  createdAtMs : Int
  updatedAtMs : Int
  schedule : CronSchedule
  sessionTarget : String
  wakeMode : CronWakeMode
  payload : CronPayload
  delivery : Option CronDelivery := none
  failureAlert : Option FailureAlertSetting := none
  state : CronJobState := {}
  deriving DecidableEq

structure CronJobCreate where
  agentId : Option String := none
  sessionKey : Option String := none
  name : String
  description : Option String := none
  enabled : Option Bool := none
  deleteAfterRun : Option Bool := none
  schedule : CronSchedule
  sessionTarget : String
  wakeMode : CronWakeMode
  payload : CronPayload
  delivery : Option CronDelivery := none
  failureAlert : Option FailureAlertSetting := none
  state : CronJobState := {}
  deriving DecidableEq

structure CronJobPatch where
  name : Option (Option String) := none
  description : Option (Option String) := none
  enabled : Option Bool := none
  deleteAfterRun : Option Bool := none
  schedule : Option CronSchedule := none
  sessionTarget : Option String := none
  wakeMode : Option CronWakeMode := none
  payload : Option CronPayloadPatch := none
  delivery : Option CronDeliveryPatch := none
  failureAlert : Option (Option FailureAlertPatch) := none
  state : Option CronJobStatePatch := none
  agentId : Option (Option String) := none
  sessionKey : Option (Option String) := none
  deriving DecidableEq

/-- What an execution ends with. -/
structure CronRunOutcome where
  status : CronRunStatus
  error : Option String := none
  summary : Option String := none
  delivered : Option Bool := none
  deriving DecidableEq

/-! ### What the models take from outside -/

/-- Date parsing, the cron engine, hashing, URL parsing and error classification. -/
structure CronEnv where
  /-- `Date.parse`, none for an invalid date. -/
  dateParse : String → Option Int
  timeZone : String
  /-- `new Cron(expr, {timezone}).nextRun(now)`, which throws on an invalid expression. -/
  nextRun : String → String → Int → Except String (Option Int)
  previousRun : String → String → Int → Except String (Option Int)
  /-- The first 32 bits of the SHA-256 digest. -/
  sha256Head : String → Nat
  /-- The protocol of a URL, none where the URL does not parse. -/
  urlProtocol : String → Option String
  failoverReason : String → Option String

inductive CronRetryOn where
  | rateLimit | overloaded | network | timeout | serverError
  deriving DecidableEq

structure CronRetryConfig where
  maxAttempts : Option Int := none
  backoffMs : List Int := []
  retryOn : List CronRetryOn := []

structure CronFailureAlertConfig where
  enabled : Option Bool := none
  after : Option Int := none
  cooldownMs : Option Int := none

/-- The configuration of a service. -/
structure CronConfig where
  cronEnabled : Bool := true
  defaultAgentId : Option String := none
  maxConcurrentRuns : Option Int := none
  missedJobStaggerMs : Option Int := none
  maxMissedJobsPerRestart : Option Int := none
  retry : CronRetryConfig := {}
  failureAlert : Option CronFailureAlertConfig := none

end OpenClaw.Cron
