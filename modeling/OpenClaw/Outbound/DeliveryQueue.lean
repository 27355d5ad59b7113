import Mathlib.Data.List.Perm.Basic
import Mathlib.Data.List.Sort
import OpenClaw.Foundation.Run
import OpenClaw.Outbound.QueueStorage

/-! Live deliveries and recovery over one queue directory.

`deliverOutboundPayloads` writes an entry, sends it and takes it off the queue;
`recoverPendingDeliveries` lists the directory and sends again what it finds
there. Neither knows of the other: all they share are the files. A live call is
known by the id of its entry, a recovery pass by a number. Every event is one file
operation of one of them, the settling of one of their sends, or a crash, in any
order; `fault` is the error an operation throws.

The last fields of `State` are the history: which entries were put in the queue,
what was handed to a channel, which entries were renamed to `.delivered`, and for
which an acknowledgement returned after a send that succeeded. -/
namespace OpenClaw.Outbound
open Foundation

/-! ### Retries -/

def MAX_RETRIES : Nat := 5

/-- Milliseconds, by retry. -/
def BACKOFF_MS : List Nat := [5000, 25000, 120000, 600000]

def computeBackoffMs (retryCount : Nat) : Nat :=
  if retryCount = 0 then 0 else BACKOFF_MS.getD (min (retryCount - 1) (BACKOFF_MS.length - 1)) 0

inductive RetryEligibility
  | eligible
  | ineligible (remainingBackoffMs : Nat)
  deriving DecidableEq, Repr

def isEntryEligibleForRecoveryRetry {π : Type*} (entry : QueueFile π) (now : Nat) : RetryEligibility :=
  let backoff := computeBackoffMs (entry.retryCount + 1)
  if backoff = 0 then .eligible
  else if entry.retryCount = 0 ∧ entry.lastAttemptAt = none then .eligible
  else
    let nextEligibleAt := entry.attemptedAt.getD entry.enqueuedAt + backoff
    if nextEligibleAt ≤ now then .eligible else .ineligible (nextEligibleAt - now)

/-- The patterns, in lower case: the texts between the `.*` of each. -/
def PERMANENT_ERROR_PATTERNS : List (List String) := [
  ["no conversation reference found"],
  ["chat not found"],
  ["user not found"],
  ["bot", "not", "member"],
  ["bot was blocked by the user"],
  ["forbidden: bot was kicked"],
  ["chat_id is empty"],
  ["recipient is not a valid"],
  ["outbound not configured for channel"],
  ["ambiguous ", " recipient"],
  ["user ", " not in room"]]

/-- What a `.` does not match. -/
def isLineTerminator (c : Char) : Bool := c ∈ ['\n', '\r', '\u2028', '\u2029']

/-- What follows the first place where a text stands. -/
def afterFirst (text : List Char) : List Char → Option (List Char)
  | [] => if text = [] then some [] else none
  | c :: rest => if text.isPrefixOf (c :: rest) then some ((c :: rest).drop text.length) else afterFirst text rest

/-- The texts stand in a line one after the other. -/
def standInOrder : List (List Char) → List Char → Bool
  | [], _ => true
  | text :: texts, line => match afterFirst text line with
    | some rest => standInOrder texts rest
    | none => false

def isPermanentDeliveryError (error : String) : Bool :=
  let lines := (error.toList.map EcmaString.lowerAscii).splitOnP isLineTerminator
  PERMANENT_ERROR_PATTERNS.any fun texts => lines.any (standInOrder (texts.map String.toList))

/-! ### State -/

/-- Where a `deliverOutboundPayloads` call with a queue entry waits. -/
inductive LivePhase (π : Type*)
  /-- For the temporary file of its entry to be written. -/
  | writing (file : QueueFile π)
  /-- For that file to be renamed. -/
  | naming
  | sending
  /-- For an operation of `ackDelivery`, after a send that succeeded or was aborted. -/
  | acking (phase : AckPhase) (sent : Bool)
  | failing (phase : FailPhase π) (error : String)
  deriving DecidableEq

inductive SendOutcome
  | sent
  /-- Some payloads failed, their errors handled one by one (`bestEffort`). -/
  | incomplete
  | aborted
  | failed (error : String)
  deriving DecidableEq, Repr

structure RecoverySummary where
  recovered : Nat := 0
  failed : Nat := 0
  skippedMaxRetries : Nat := 0
  deferredBackoff : Nat := 0
  deriving DecidableEq, Repr

/-- Where a `recoverPendingDeliveries` call waits. -/
inductive PassPhase (π : Type*)
  /-- For the directory to be read. -/
  | listing
  /-- For the next of the markers it found to be removed. -/
  | cleaning (markers files : List String)
  /-- For the next of the files it found to be read. -/
  | loading (files : List String) (entries : List (QueuedDelivery π))
  /-- For a migrated entry to be written, then renamed. -/
  | migrating (entry : QueuedDelivery π) (written : Bool) (files : List String) (entries : List (QueuedDelivery π))
  /-- Before a turn of its loop. -/
  | looping (pending : List (QueuedDelivery π))
  | sending (entry : QueuedDelivery π) (rest : List (QueuedDelivery π))
  | acking (phase : AckPhase) (entry : QueuedDelivery π) (rest : List (QueuedDelivery π))
  | failing (phase : FailPhase π) (error : String) (entry : QueuedDelivery π) (rest : List (QueuedDelivery π))
  /-- For an entry to be moved to `failed/`. -/
  | moving (entry : QueuedDelivery π) (rest : List (QueuedDelivery π))
  /-- For the `failDelivery` of each remaining entry, side by side. -/
  | deferring (fails : InsertionMap String (FailPhase π))

structure Pass (π : Type*) where
  maxRecoveryMs : Nat
  deadline : Nat := 0
  summary : RecoverySummary := {}
  phase : PassPhase π := .listing

structure State (π : Type*) where
  disk : Disk π
  live : InsertionMap String (LivePhase π) := ∅
  passes : InsertionMap Nat (Pass π) := ∅
  /-- The ids drawn for entries so far. -/
  used : List String
  queued : List String
  handed : List String := []
  renamed : List String := []
  acknowledged : List String := []

variable {π : Type*}

/-- A gateway starts on a directory. -/
def State.start (d : Disk π) : State π where
  disk := d
  used := d.json.keys ++ d.delivered.keys ++ d.failed.keys
  queued := d.json.keys

variable (i : Nat) (id : String) (fault : Option String)

namespace State

def setLive (phase : LivePhase π) (s : State π) : State π := {s with live := s.live.set id phase}

/-- The live call is over. -/
def leave (s : State π) : State π := {s with live := s.live.erase id}

def setPass (p : Pass π) (s : State π) : State π := {s with passes := s.passes.set i p}

/-- The pass is over. -/
def endPass (s : State π) : State π := {s with passes := s.passes.erase i}

/-- The payload of an entry goes to its channel. -/
def hand (s : State π) : State π := {s with handed := s.handed ++ [id]}

/-- The files after an operation of `ackDelivery`. -/
def acked (renamed : Bool) (d : Disk π) (s : State π) : State π :=
  {s with disk := d, renamed := if renamed then id :: s.renamed else s.renamed}

def acknowledge (s : State π) : State π := {s with acknowledged := id :: s.acknowledged}

end State

/-! ### A live delivery -/

/-- The next file operation of a live call. -/
def liveOp (now : Nat) (s : State π) : LivePhase π → Option (State π)
  | .writing file =>
    if fault.isSome then some (s.leave id)
    else some (({s with disk := s.disk.writeTmp id file} : State π).setLive id .naming)
  | .naming => match fault, s.disk.renameTmp id with
    | none, some d => some ((({s with disk := d, queued := id :: s.queued} : State π).setLive id .sending).hand id)
    -- The message is sent without an entry.
    | _, _ => some (s.leave id)
  | .sending => none
  | .acking phase sent => match ackDelivery id fault s.disk phase with
    | (d, renamed, .marked) => some ((s.acked id renamed d).setLive id (.acking .cleanup sent))
    | (d, renamed, .returned) =>
      let s' := (s.acked id renamed d).leave id
      some (if sent then s'.acknowledge id else s')
    | (d, renamed, .threw _) => some ((s.acked id renamed d).leave id)
  | .failing phase error => match failDelivery id error now fault s.disk phase with
    | (d, some next) => some (({s with disk := d} : State π).setLive id (.failing next error))
    | (d, none) => some (({s with disk := d} : State π).leave id)

/-- The send of a live call settles. -/
def settleLive (outcome : SendOutcome) (s : State π) : State π :=
  match outcome with
  | .sent => s.setLive id (.acking .rename true)
  | .incomplete => s.setLive id (.failing .read "partial delivery failure (bestEffort)")
  | .aborted => s.setLive id (.acking .rename false)
  | .failed error => s.setLive id (.failing .read error)

/-! ### A recovery pass -/

/-- An attempt failed: the entry is given up, or noted for another try. -/
def afterError (p : Pass π) (error : String) (entry : QueuedDelivery π) (rest : List (QueuedDelivery π))
    (s : State π) : State π :=
  let summary := {p.summary with failed := p.summary.failed + 1}
  if isPermanentDeliveryError error then s.setPass i {p with summary, phase := .moving entry rest}
  else s.setPass i {p with summary, phase := .failing .read error entry rest}

/-- A turn of the loop. -/
def turn (now : Nat) (p : Pass π) (s : State π) : List (QueuedDelivery π) → State π
  | [] => s.endPass i
  | entry :: rest =>
    if p.deadline ≤ now then
      s.setPass i {p with phase := .deferring ((entry :: rest).foldl (fun m e => m.set e.id .read) ∅)}
    else if MAX_RETRIES ≤ entry.retryCount then
      s.setPass i {p with
        summary := {p.summary with skippedMaxRetries := p.summary.skippedMaxRetries + 1}
        phase := .moving entry rest}
    else match isEntryEligibleForRecoveryRetry entry.toQueueFile now with
      | .ineligible _ => s.setPass i {p with
          summary := {p.summary with deferredBackoff := p.summary.deferredBackoff + 1}
          phase := .looping rest}
      | .eligible => (s.setPass i {p with phase := .sending entry rest}).hand entry.id

/-- The next file of a listing is read. A file that cannot be is skipped. -/
def load (p : Pass π) (file : String) (files : List String) (entries : List (QueuedDelivery π))
    (s : State π) : State π :=
  match fault, s.disk.readQueueEntry file with
  | none, some entry =>
    let (entry, migrated) := normalizeLegacyQueuedDeliveryEntry entry
    if migrated then s.setPass i {p with phase := .migrating entry false files entries}
    else s.setPass i {p with phase := .loading files (entries ++ [entry])}
  | _, _ => s.setPass i {p with phase := .loading files entries}

/-- What a pass does next, up to its next wait. -/
def passOp (now : Nat) (s : State π) (p : Pass π) : Option (State π) :=
  match p.phase with
  | .listing => none
  | .cleaning [] files => some (s.setPass i {p with phase := .loading files []})
  | .cleaning (marker :: markers) files =>
    let disk := if fault.isSome then s.disk else s.disk.unlinkDelivered marker
    some (({s with disk} : State π).setPass i {p with phase := .cleaning markers files})
  | .loading (file :: files) entries => some (load i fault p file files entries s)
  | .loading [] [] => some (s.endPass i)
  | .loading [] entries => some (s.setPass i {p with
      deadline := now + p.maxRecoveryMs
      phase := .looping (entries.insertionSort fun a b => a.enqueuedAt ≤ b.enqueuedAt)})
  | .migrating entry false files entries =>
    if fault.isSome then some (s.setPass i {p with phase := .loading files entries})
    else some (({s with disk := s.disk.writeTmp entry.id entry.toQueueFile} : State π).setPass i
      {p with phase := .migrating entry true files entries})
  | .migrating entry true files entries => match fault, s.disk.renameTmp entry.id with
    | none, some d =>
      some (({s with disk := d} : State π).setPass i {p with phase := .loading files (entries ++ [entry])})
    | _, _ => some (s.setPass i {p with phase := .loading files entries})
  | .looping pending => some (turn i now p s pending)
  | .sending _ _ => none
  | .acking phase entry rest => match ackDelivery entry.id fault s.disk phase with
    | (d, renamed, .marked) => some ((s.acked entry.id renamed d).setPass i {p with phase := .acking .cleanup entry rest})
    | (d, renamed, .returned) => some (((s.acked entry.id renamed d).acknowledge entry.id).setPass i {p with
        summary := {p.summary with recovered := p.summary.recovered + 1}
        phase := .looping rest})
    | (d, renamed, .threw error) => some (afterError i p error entry rest (s.acked entry.id renamed d))
  | .failing phase error entry rest => match failDelivery entry.id error now fault s.disk phase with
    | (d, some next) => some (({s with disk := d} : State π).setPass i {p with phase := .failing next error entry rest})
    | (d, none) => some (({s with disk := d} : State π).setPass i {p with phase := .looping rest})
  | .moving entry rest =>
    let disk := if fault.isSome then s.disk else (s.disk.renameFailed entry.id).getD s.disk
    some (({s with disk} : State π).setPass i {p with phase := .looping rest})
  | .deferring fails => if fails.entries = [] then some (s.endPass i) else none

/-- The directory is read: the names come in any order. Where that fails, the pass
finds nothing or throws. -/
def listed (markers files : List String) (s : State π) (p : Pass π) : Option (State π) :=
  match p.phase with
  | .listing =>
    if fault.isSome then some (s.endPass i)
    else if files.Perm s.disk.json.keys ∧ markers.Perm s.disk.delivered.keys then
      some (s.setPass i {p with phase := .cleaning markers files})
    else none
  | _ => none

/-- The send of a pass settles. -/
def settlePass (error : Option String) (s : State π) (p : Pass π) : Option (State π) :=
  match p.phase with
  | .sending entry rest => match error with
    | none => some (s.setPass i {p with phase := .acking .rename entry rest})
    | some error => some (afterError i p error entry rest s)
  | _ => none

/-- The next operation for one of the deferred entries. -/
def deferredOp (now : Nat) (s : State π) (p : Pass π) : Option (State π) :=
  match p.phase with
  | .deferring fails => (fails.get? id).map fun phase =>
    match failDelivery id "recovery time budget exceeded" now fault s.disk phase with
    | (d, some next) => ({s with disk := d} : State π).setPass i {p with phase := .deferring (fails.set id next)}
    | (d, none) => ({s with disk := d} : State π).setPass i {p with phase := .deferring (fails.erase id)}
  | _ => none

/-! ### Steps -/

inductive Event (π : Type*)
  /-- A live call draws an id for its message. -/
  | enqueue (id : String) (payload : π) (now : Nat)
  | live (id : String) (fault : Option String) (now : Nat)
  | settleLive (id : String) (outcome : SendOutcome)
  | recover (i : Nat) (maxRecoveryMs : Nat)
  | list (i : Nat) (fault : Option String) (markers files : List String)
  | pass (i : Nat) (fault : Option String) (now : Nat)
  | settlePass (i : Nat) (error : Option String)
  | deferred (i : Nat) (id : String) (fault : Option String) (now : Nat)
  /-- The process dies, and another starts on its directory. -/
  | crash

def step : Machine (State π) (Event π)
  | .enqueue id payload now, s =>
    if id ∈ s.used then none
    else some (({s with used := id :: s.used} : State π).setLive id (.writing ⟨payload, now, 0, none, none⟩))
  | .live id fault now, s => (s.live.get? id).bind (liveOp id fault now s)
  | .settleLive id outcome, s => match s.live.get? id with
    | some .sending => some (settleLive id outcome s)
    | _ => none
  | .recover i maxRecoveryMs, s => match s.passes.get? i with
    | none => some (s.setPass i {maxRecoveryMs})
    | some _ => none
  | .list i fault markers files, s => (s.passes.get? i).bind (listed i fault markers files s)
  | .pass i fault now, s => (s.passes.get? i).bind (passOp i fault now s)
  | .settlePass i error, s => (s.passes.get? i).bind (settlePass i error s)
  | .deferred i id fault now, s => (s.passes.get? i).bind (deferredOp i id fault now s)
  | .crash, s => some {s with disk := s.disk.leftBehind, live := ∅, passes := ∅}

end OpenClaw.Outbound
