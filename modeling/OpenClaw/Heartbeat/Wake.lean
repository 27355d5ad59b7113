import OpenClaw.Foundation.EcmaString
import OpenClaw.Foundation.InsertionMap
import OpenClaw.Foundation.Run

/-! Heartbeat wakes: the pending map, the timer and the batches.

A wake asks for a heartbeat of a target. Wakes are collected in a map until a
timer fires; then the handler that is registered is invoked for each of them in
turn, as one batch. A batch is an asynchronous run: each invocation is awaited,
and other calls and timers may come in between. A wake the handler skips because
requests are in flight is asked for again, and so is a whole batch when the
handler throws.

The module state of the source is `State`, with the batches that are being
executed among it, and `step` takes the calls, the timer and the handler's
answers in any order. `invocations` and `requested` are the history: which
handler was invoked for what, and which requests the handler was not invoked for
since. -/
namespace OpenClaw.Heartbeat
open Foundation

/-! ### Reasons and targets -/

inductive HeartbeatReasonKind
  | retry | interval | manual | execEvent | wake | cron | hook | other
  deriving DecidableEq, Repr

def normalizeHeartbeatWakeReason (reason : Option String) : String :=
  (EcmaString.trimmed? reason).getD "requested"

def resolveHeartbeatReasonKind (reason : String) : HeartbeatReasonKind :=
  let trimmed := EcmaString.trim reason
  if trimmed = "retry" then .retry
  else if trimmed = "interval" then .interval
  else if trimmed = "manual" then .manual
  else if trimmed = "exec-event" then .execEvent
  else if trimmed = "wake" then .wake
  else if EcmaString.startsWith trimmed "acp:spawn:" then .wake
  else if EcmaString.startsWith trimmed "cron:" then .cron
  else if EcmaString.startsWith trimmed "hook:" then .hook
  else .other

def isHeartbeatActionWakeReason (reason : String) : Bool :=
  match resolveHeartbeatReasonKind reason with
  | .manual | .execEvent | .hook => true
  | _ => false

/-- `REASON_PRIORITY`: retry, interval, default, action. -/
def resolveReasonPriority (reason : String) : Nat :=
  match resolveHeartbeatReasonKind reason with
  | .retry => 0
  | .interval => 1
  | _ => if isHeartbeatActionWakeReason reason then 3 else 2

/-- The agent and the session a wake is for. -/
structure WakeTarget where
  agentId : Option String := none
  sessionKey : Option String := none
  deriving DecidableEq, Repr

def normalizeWakeTarget (target : WakeTarget) : WakeTarget :=
  ⟨EcmaString.trimmed? target.agentId, EcmaString.trimmed? target.sessionKey⟩

def getWakeTargetKey (target : WakeTarget) : String :=
  let target := normalizeWakeTarget target
  target.agentId.getD "" ++ "::" ++ target.sessionKey.getD ""

@[simp] theorem normalizeWakeTarget_idem (target : WakeTarget) :
    normalizeWakeTarget (normalizeWakeTarget target) = normalizeWakeTarget target := by
  simp [normalizeWakeTarget]

theorem normalizeHeartbeatWakeReason_idem (reason : Option String) :
    normalizeHeartbeatWakeReason (some (normalizeHeartbeatWakeReason reason)) =
      normalizeHeartbeatWakeReason reason := by
  unfold normalizeHeartbeatWakeReason
  cases h : EcmaString.trimmed? reason with
  | none => decide
  | some t =>
    have : EcmaString.trimmed? (some t) = some t := EcmaString.trimmed_trimmed? h
    simp [this]

/-- A wake as it is kept: reason and target normalized, the priority that of the
reason. -/
structure PendingWake where
  reason : String
  priority : Nat
  requestedAt : Int
  target : WakeTarget
  reason_normal : normalizeHeartbeatWakeReason (some reason) = reason
  priority_eq : priority = resolveReasonPriority reason
  target_normal : normalizeWakeTarget target = target
  deriving DecidableEq

/-- The wake of a request. -/
def PendingWake.of (reason : Option String) (target : WakeTarget) (requestedAt : Int) : PendingWake where
  reason := normalizeHeartbeatWakeReason reason
  priority := resolveReasonPriority (normalizeHeartbeatWakeReason reason)
  requestedAt := requestedAt
  target := normalizeWakeTarget target
  reason_normal := normalizeHeartbeatWakeReason_idem reason
  priority_eq := rfl
  target_normal := normalizeWakeTarget_idem target

@[simp] theorem PendingWake.of_target (reason : Option String) (target : WakeTarget) (now : Int) :
    (PendingWake.of reason target now).target = normalizeWakeTarget target := rfl

@[simp] theorem PendingWake.of_priority (reason : Option String) (target : WakeTarget) (now : Int) :
    (PendingWake.of reason target now).priority =
      resolveReasonPriority (normalizeHeartbeatWakeReason reason) := rfl

/-- Asking for a wake again asks for the same target with the same priority. -/
theorem PendingWake.of_again (w : PendingWake) (now : Int) :
    (PendingWake.of (some w.reason) w.target now).target = w.target ∧
      (PendingWake.of (some w.reason) w.target now).priority = w.priority := by
  rw [PendingWake.of_target, PendingWake.of_priority, w.reason_normal]
  exact ⟨w.target_normal, w.priority_eq.symm⟩

/-! ### State -/

/-- A number, as far as `Number.isFinite` and the delay need it. -/
inductive Millis
  | finite (ms : Int)
  | notFinite
  deriving DecidableEq, Repr

inductive WakeTimerKind
  | normal | retry
  deriving DecidableEq, Repr

/-- An armed timer: `timer`, `timerDueAt` and `timerKind`, and the delay its callback
was made with. -/
structure Timer where
  dueAt : Int
  kind : WakeTimerKind
  delay : Int
  deriving DecidableEq, Repr

/-- A batch being executed: the handler invoked for `current` is awaited, and
`waiting` is left to do. -/
structure BatchRun (η : Type*) where
  active : η
  pendingBatch : List PendingWake
  current : PendingWake
  waiting : List PendingWake
  delay : Int

/-- An invocation of `handler`, with what was registered when it started. -/
structure Invocation (η : Type*) where
  handler : η
  registered : Option η
  wake : PendingWake

structure State (η : Type*) where
  handler : Option η := none
  handlerGeneration : Nat := 0
  pendingWakes : InsertionMap String PendingWake := ∅
  scheduled : Bool := false
  running : Bool := false
  timer : Option Timer := none
  runs : List (BatchRun η) := []
  /-- What the disposers that were handed out captured. -/
  disposers : List (Nat × Option η) := []
  invocations : List (Invocation η) := []
  requested : List (WakeTarget × Nat) := []

def DEFAULT_COALESCE_MS : Int := 250
def DEFAULT_RETRY_MS : Int := 1000

variable {η : Type*}

/-- The wake that is kept for a target: the one of higher priority, the later one
among equals. -/
def mergeWake (previous : Option PendingWake) (next : PendingWake) : PendingWake :=
  match previous with
  | none => next
  | some previous =>
    if next.priority > previous.priority then next
    else if next.priority = previous.priority ∧ next.requestedAt ≥ previous.requestedAt then next
    else previous

def queuePendingWakeReason (reason : Option String) (target : WakeTarget) (now : Int) (s : State η) : State η :=
  let next := PendingWake.of reason target now
  let key := getWakeTargetKey next.target
  {s with
    pendingWakes := s.pendingWakes.set key (mergeWake (s.pendingWakes.get? key) next)
    requested := s.requested ++ [(next.target, next.priority)]}

/-- `Number.isFinite(coalesceMs) ? Math.max(0, coalesceMs) : DEFAULT_COALESCE_MS`. -/
def Millis.delay : Millis → Int
  | .finite ms => max 0 ms
  | .notFinite => DEFAULT_COALESCE_MS

theorem Millis.delay_nonneg (ms : Millis) : 0 ≤ ms.delay := by
  cases ms with
  | finite ms => exact Int.le_max_left 0 ms
  | notFinite => decide

/-- The timer there is, if it is a retry timer or fires no later than the next one. -/
def keepTimer (timer : Option Timer) (next : Timer) : Timer :=
  match timer with
  | some timer => if timer.kind = .retry ∨ timer.dueAt ≤ next.dueAt then timer else next
  | none => next

def schedule (coalesceMs : Millis) (kind : WakeTimerKind) (now : Int) (s : State η) : State η :=
  let delay := coalesceMs.delay
  {s with timer := some (keepTimer s.timer ⟨now + delay, kind, delay⟩)}

/-- The handler is invoked for a wake. -/
def invoke (active : η) (wake : PendingWake) (s : State η) : State η :=
  {s with
    invocations := s.invocations ++ [⟨active, s.handler, wake⟩]
    requested := s.requested.filter fun p => p.1 ≠ wake.target}

/-- The `finally` block of a batch. -/
def finishBatch (delay : Int) (now : Int) (s : State η) : State η :=
  let s := {s with running := false}
  if s.pendingWakes.size > 0 ∨ s.scheduled then schedule (.finite delay) .normal now s else s

/-- The callback of the timer. -/
def fireTimer (timer : Timer) (now : Int) (s : State η) : State η :=
  let s := {s with timer := none, scheduled := false}
  match s.handler with
  | none => s
  | some active =>
    if s.running then schedule (.finite timer.delay) timer.kind now {s with scheduled := true}
    else
      let s' := {s with pendingWakes := ∅, running := true}
      match s.pendingWakes.values with
      | [] => finishBatch timer.delay now s'
      | wake :: rest =>
        {invoke active wake s' with runs := s.runs ++ [⟨active, wake :: rest, wake, rest, timer.delay⟩]}

inductive HeartbeatRunResult
  | ran
  | skipped (reason : String)
  | failed (reason : String)
  deriving DecidableEq, Repr

/-- The main lane is busy. -/
def HeartbeatRunResult.busy : HeartbeatRunResult → Bool
  | .skipped reason => reason = "requests-in-flight"
  | _ => false

def requeue (now : Int) (s : State η) (wake : PendingWake) : State η :=
  queuePendingWakeReason (some wake.reason) wake.target now s

/-- The wake is asked for again, if the lane is busy. -/
def retryWake (result : HeartbeatRunResult) (wake : PendingWake) (now : Int) (s : State η) : State η :=
  if result.busy then schedule (.finite DEFAULT_RETRY_MS) .retry now (requeue now s wake) else s

/-- The awaited invocation of a batch answers, and the batch goes on. -/
def settleWake (k : Nat) (run : BatchRun η) (result : HeartbeatRunResult) (now : Int) (s : State η) : State η :=
  let s := retryWake result run.current now s
  match run.waiting with
  | wake :: rest => invoke run.active wake {s with runs := s.runs.set k {run with current := wake, waiting := rest}}
  | [] => finishBatch run.delay now {s with runs := s.runs.eraseIdx k}

/-- The awaited invocation of a batch throws. -/
def failWake (k : Nat) (run : BatchRun η) (now : Int) (s : State η) : State η :=
  let s := schedule (.finite DEFAULT_RETRY_MS) .retry now (run.pendingBatch.foldl (requeue now) s)
  finishBatch run.delay now {s with runs := s.runs.eraseIdx k}

/-- Timer and flags of an earlier lifecycle are cleared for a new handler. -/
def setHeartbeatWakeHandler (next : Option η) (now : Int) (s : State η) : State η :=
  let s := {s with
    handlerGeneration := s.handlerGeneration + 1
    handler := next
    disposers := s.disposers ++ [(s.handlerGeneration + 1, next)]}
  if next.isSome then
    let s := {s with timer := none, running := false, scheduled := false}
    if s.pendingWakes.size > 0 then schedule (.finite DEFAULT_COALESCE_MS) .normal now s else s
  else s

variable [DecidableEq η]

/-- The function `setHeartbeatWakeHandler` returned. -/
def dispose (generation : Nat) (next : Option η) (s : State η) : State η :=
  if s.handlerGeneration ≠ generation ∨ s.handler ≠ next then s
  else {s with handlerGeneration := s.handlerGeneration + 1, handler := none}

structure HeartbeatRequest where
  reason : Option String := none
  coalesceMs : Option Millis := none
  target : WakeTarget := {}

omit [DecidableEq η] in
def requestHeartbeatNow (r : HeartbeatRequest) (now : Int) (s : State η) : State η :=
  schedule (r.coalesceMs.getD (.finite DEFAULT_COALESCE_MS)) .normal now
    (queuePendingWakeReason r.reason r.target now s)

/-! ### Steps -/

inductive Event (η : Type*)
  | request (r : HeartbeatRequest) (now : Int)
  | setHandler (next : Option η) (now : Int)
  | dispose (k : Nat)
  /-- The timer fires, not before it is due. -/
  | fire (now : Int)
  /-- The awaited invocation of the `k`-th batch answers. -/
  | settle (k : Nat) (result : HeartbeatRunResult) (now : Int)
  /-- It throws. -/
  | fail (k : Nat) (now : Int)

def step : Machine (State η) (Event η)
  | .request r now, s => some (requestHeartbeatNow r now s)
  | .setHandler next now, s => some (setHeartbeatWakeHandler next now s)
  | .dispose k, s => s.disposers[k]?.map fun d => dispose d.1 d.2 s
  | .fire now, s => s.timer.bind fun timer => if timer.dueAt ≤ now then some (fireTimer timer now s) else none
  | .settle k result now, s => s.runs[k]?.map fun run => settleWake k run result now s
  | .fail k now, s => s.runs[k]?.map fun run => failWake k run now s

/-! ### What the operations leave -/

section Leaves
variable (s : State η) (reason : Option String) (target : WakeTarget) (wake : PendingWake) (now : Int)

omit [DecidableEq η]

theorem foldl_requeue_eq (batch : List PendingWake) : ∃ pending requested,
    batch.foldl (requeue now) s = {s with pendingWakes := pending, requested := requested} := by
  induction batch generalizing s with
  | nil => exact ⟨_, _, rfl⟩
  | cons w rest ih =>
    obtain ⟨pending, requested, h⟩ := ih (requeue now s w)
    exact ⟨pending, requested, h⟩

theorem retryWake_eq (result : HeartbeatRunResult) : ∃ pending requested timer,
    retryWake result wake now s = {s with pendingWakes := pending, requested := requested, timer := timer} := by
  unfold retryWake
  split_ifs
  · exact ⟨_, _, _, rfl⟩
  · exact ⟨s.pendingWakes, s.requested, s.timer, rfl⟩

theorem finishBatch_eq (delay : Int) : ∃ timer,
    finishBatch delay now s = {s with running := false, timer := timer} := by
  unfold finishBatch
  dsimp only
  split_ifs
  · exact ⟨_, rfl⟩
  · exact ⟨s.timer, rfl⟩

/-- What a firing timer does, with the case it does it in. -/
inductive Fired (timer : Timer) : State η → Prop
  | unregistered : s.handler = none → Fired timer {s with timer := none, scheduled := false}
  /-- A batch is being executed: the timer is armed again. -/
  | busy {active timer'} : s.handler = some active → s.running = true → now ≤ timer'.dueAt →
      Fired timer {s with timer := some timer', scheduled := true}
  /-- There is nothing to do. -/
  | nothing {active} : s.handler = some active → s.running = false → s.pendingWakes.values = [] →
      Fired timer {s with timer := none, scheduled := false, pendingWakes := ∅, running := false}
  /-- A batch is started. -/
  | start {active wake rest} : s.handler = some active → s.running = false →
      s.pendingWakes.values = wake :: rest →
      Fired timer {s with
        timer := none
        scheduled := false
        pendingWakes := ∅
        running := true
        runs := s.runs ++ [⟨active, wake :: rest, wake, rest, timer.delay⟩]
        invocations := s.invocations ++ [⟨active, s.handler, wake⟩]
        requested := s.requested.filter fun p => p.1 ≠ wake.target}

theorem fireTimer_fired (timer : Timer) : Fired s now timer (fireTimer timer now s) := by
  unfold fireTimer
  dsimp only
  split
  · rename_i hhandler
    exact .unregistered hhandler
  · rename_i active hhandler
    split_ifs with hrunning
    · refine .busy hhandler hrunning ?_
      have := (Millis.finite timer.delay).delay_nonneg
      simp only [keepTimer]
      omega
    · split
      · rename_i hvalues
        exact .nothing hhandler (by simpa using hrunning) hvalues
      · rename_i wake rest hvalues
        exact .start hhandler (by simpa using hrunning) hvalues

end Leaves

end OpenClaw.Heartbeat
