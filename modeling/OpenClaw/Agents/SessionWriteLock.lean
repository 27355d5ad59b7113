import OpenClaw.Foundation.Run
import Mathlib.Logic.Function.Basic

/-! The session write lock, for one session file.

`acquireSessionWriteLock` creates the lock file exclusively, writes its payload and enters the lock
in the `HELD_LOCKS` map of its process. Where the file is there already it reads the payload, decides
whether the lock is stale, and removes it or waits. Each of these is a step of its own, and the steps
of all processes and of all calls in them come in any order. `releaseHeldLock` takes the lock out of
the map in one step and removes the file in another.

Files and held locks are numbered in the order of creation; a held lock has the number of its file.
The calls on a file system other than the exclusive create are taken to succeed, except the write of
the payload. The watchdog does not come in: locks are released before `maxHoldMs`. -/
namespace OpenClaw.Agents
open Foundation

/-! ### Payloads and their inspection -/

structure LockFilePayload where
  pid : Option Nat
  createdAt : Option Nat
  starttime : Option Nat
  deriving DecidableEq, Repr

inductive StaleReason
  | missingPid
  | deadPid
  | recycledPid
  | invalidCreatedAt
  | tooOld
  | orphanSelfPid
  deriving DecidableEq, Repr

structure LockInspectionDetails where
  pid : Option Nat
  pidAlive : Bool
  createdAt : Option Nat
  ageMs : Option Nat
  staleReasons : List StaleReason
  deriving DecidableEq, Repr

def LockInspectionDetails.stale (details : LockInspectionDetails) : Bool := !details.staleReasons.isEmpty

/-- The pid is alive, but not with the start time that was recorded. -/
def pidRecycled (getProcessStartTime : Nat → Option Nat) (pidAlive : Bool) (pid storedStarttime : Option Nat) : Bool :=
  match pidAlive, pid, storedStarttime with
  | true, some pid, some stored =>
    match getProcessStartTime pid with
    | some current => current != stored
    | none => false
  | _, _, _ => false

def inspectLockPayload (isPidAlive : Nat → Bool) (getProcessStartTime : Nat → Option Nat)
    (payload : Option LockFilePayload) (staleMs nowMs : Nat) : LockInspectionDetails :=
  let pid := (payload.bind (·.pid)).filter (0 < ·)
  let pidAlive := pid.any isPidAlive
  let createdAt := payload.bind (·.createdAt)
  let ageMs := createdAt.map (nowMs - ·)
  let recycled := pidRecycled getProcessStartTime pidAlive pid (payload.bind (·.starttime))
  { pid := pid
    pidAlive := pidAlive
    createdAt := createdAt
    ageMs := ageMs
    staleReasons :=
      (if pid.isNone then [.missingPid]
        else if !pidAlive then [.deadPid]
        else if recycled then [.recycledPid]
        else []) ++
      match ageMs with
      | none => [.invalidCreatedAt]
      | some age => if staleMs < age then [.tooOld] else [] }

def lockInspectionNeedsMtimeStaleFallback (details : LockInspectionDetails) : Bool :=
  details.stale && details.staleReasons.all fun reason => reason == .missingPid || reason == .invalidCreatedAt

def shouldTreatAsOrphanSelfLock (ownPid : Nat) (heldLocksHas : Bool) (payload : Option LockFilePayload) : Bool :=
  if payload.bind (·.pid) != some ownPid then false
  else if (payload.bind (·.starttime)).isSome then false
  else !heldLocksHas

/-! ### Processes and calls -/

/-- What is fixed from outside: the process of each call and its options, and for each process its
pid and the start time that can be read of it, if any. Two processes with one pid have not the same
start time. -/
structure LockHost (π τ : Type) where
  proc : τ → π
  pid : π → Nat
  startTime : π → Option Nat
  allowReentrant : τ → Bool
  staleMs : τ → Nat
  pid_pos : ∀ p, 0 < pid p
  startTime_ne : ∀ p q, p ≠ q → pid p = pid q → startTime p = none ∨ startTime p ≠ startTime q

structure LockFile (π : Type) where
  id : Nat
  owner : π
  createdMs : Nat
  mtimeMs : Nat
  payload : Option LockFilePayload
  deriving DecidableEq, Repr

structure HeldLock where
  id : Nat
  count : Nat
  deriving DecidableEq, Repr

/-- Where a call is. -/
inductive LockPhase
  | idle
  | trying
  /-- The file is created, its payload not written. -/
  | created (id : Nat)
  /-- The payload is written, the lock not in the map. -/
  | written (id : Nat)
  | holding (id : Nat)
  /-- The create failed with `EEXIST`. -/
  | contended
  /-- The file that was there and its payload have been read. -/
  | readDone (snapshot : Option (Nat × Option LockFilePayload))
  /-- The payload says nothing; the modification time is to decide. -/
  | statting
  /-- The file is to be reclaimed, by what was read of the file with this number. -/
  | removing (id : Nat)
  | sleeping
  /-- The lock is out of the map, its file to be removed. -/
  | closing (id : Nat)
  | released (id : Nat)
  | failed
  deriving DecidableEq, Repr

structure LockState (π τ : Type) where
  now : Nat
  file : Option (LockFile π)
  nextId : Nat
  running : List π
  dead : List π
  held : π → Option HeldLock
  phase : τ → LockPhase

inductive LockAction (π τ : Type)
  | start (p : π)
  | crash (p : π)
  | tick (ms : Nat)
  | enter (t : τ)
  | openFile (t : τ)
  | writePayload (t : τ)
  | writeFails (t : τ)
  | setHeld (t : τ)
  | read (t : τ)
  | inspect (t : τ)
  | stat (t : τ)
  | remove (t : τ)
  | wake (t : τ)
  | timeout (t : τ)
  | release (t : τ)
  | closeFile (t : τ)

section Steps

variable {π τ : Type} [DecidableEq π] [DecidableEq τ] (host : LockHost π τ)

namespace LockState

def init : LockState π τ where
  now := 0
  file := none
  nextId := 0
  running := []
  dead := []
  held := fun _ => none
  phase := fun _ => .idle

variable (s : LockState π τ)

def setPhase (t : τ) (phase : LockPhase) : LockState π τ := {s with phase := Function.update s.phase t phase}

def setHeldLock (p : π) (held : Option HeldLock) : LockState π τ := {s with held := Function.update s.held p held}

def isPidAlive (pid : Nat) : Bool := s.running.any fun p => host.pid p == pid

def getProcessStartTime (pid : Nat) : Option Nat :=
  (s.running.find? fun p => host.pid p == pid).bind host.startTime

/-! ### The steps of a call -/

/-- The look at the map, before the loop. -/
def enterStep (t : τ) : LockState π τ :=
  match host.allowReentrant t, s.held (host.proc t) with
  | true, some held =>
    (s.setHeldLock (host.proc t) (some {held with count := held.count + 1})).setPhase t (.holding held.id)
  | _, _ => s.setPhase t .trying

/-- `fs.open(lockPath, "wx")`. -/
def openStep (t : τ) : LockState π τ :=
  match s.file with
  | none =>
    {s.setPhase t (.created s.nextId) with
      file := some ⟨s.nextId, host.proc t, s.now, s.now, none⟩
      nextId := s.nextId + 1}
  | some _ => s.setPhase t .contended

def lockPayload (p : π) : LockFilePayload := ⟨some (host.pid p), some s.now, host.startTime p⟩

/-- The write goes to the file that was created, also when it is no longer at the path. -/
def writeStep (t : τ) (id : Nat) : LockState π τ :=
  let file := s.file.map fun file =>
    if file.id = id then {file with payload := some (s.lockPayload host (host.proc t)), mtimeMs := s.now} else file
  {s.setPhase t (.written id) with file := file}

def setHeldStep (t : τ) (id : Nat) : LockState π τ :=
  (s.setHeldLock (host.proc t) (some ⟨id, 1⟩)).setPhase t (.holding id)

def readStep (t : τ) : LockState π τ :=
  s.setPhase t (.readDone (s.file.map fun file => (file.id, file.payload)))

def isOrphan (t : τ) (payload : Option LockFilePayload) : Bool :=
  shouldTreatAsOrphanSelfLock (host.pid (host.proc t)) (s.held (host.proc t)).isSome payload

/-- `reclaimDetails`. -/
def reclaimDetails (t : τ) (payload : Option LockFilePayload) : LockInspectionDetails :=
  let inspected := inspectLockPayload (s.isPidAlive host) (s.getProcessStartTime host) payload (host.staleMs t) s.now
  if s.isOrphan host t payload then {inspected with staleReasons := inspected.staleReasons ++ [.orphanSelfPid]}
  else inspected

/-- `shouldReclaimContendedLockFile`, up to the `stat`. -/
def inspectStep (t : τ) (snapshot : Option (Nat × Option LockFilePayload)) : LockState π τ :=
  let details := s.reclaimDetails host t (snapshot.bind (·.2))
  if !details.stale then s.setPhase t .sleeping
  else if lockInspectionNeedsMtimeStaleFallback details then s.setPhase t .statting
  else
    match snapshot with
    | some (id, _) => s.setPhase t (.removing id)
    | none => s.setPhase t .statting

def statStep (t : τ) : LockState π τ :=
  match s.file with
  | some file =>
    if host.staleMs t < s.now - file.mtimeMs then s.setPhase t (.removing file.id) else s.setPhase t .sleeping
  | none => s.setPhase t .sleeping

/-- `releaseHeldLock`, up to the removal of the file. -/
def releaseStep (t : τ) (id : Nat) : LockState π τ :=
  match s.held (host.proc t) with
  | some held =>
    if held.id = id then
      if 1 < held.count then
        (s.setHeldLock (host.proc t) (some {held with count := held.count - 1})).setPhase t (.released id)
      else
        (s.setHeldLock (host.proc t) none).setPhase t (.closing id)
    else s.setPhase t (.released id)
  | none => s.setPhase t (.released id)

def callStep (t : τ) (action : LockAction π τ) : Option (LockState π τ) :=
  match action, s.phase t with
  | .enter _, .idle => some (s.enterStep host t)
  | .openFile _, .trying => some (s.openStep host t)
  | .timeout _, .trying => some (s.setPhase t .failed)
  | .writePayload _, .created id => some (s.writeStep host t id)
  | .writeFails _, .created id => some (s.setPhase t (.closing id))
  | .setHeld _, .written id => some (s.setHeldStep host t id)
  | .read _, .contended => some (s.readStep t)
  | .inspect _, .readDone snapshot => some (s.inspectStep host t snapshot)
  | .stat _, .statting => some (s.statStep host t)
  | .remove _, .removing _ => some {s.setPhase t .trying with file := none}
  | .wake _, .sleeping => some (s.setPhase t .trying)
  | .release _, .holding id => some (s.releaseStep host t id)
  | .release _, .released id => some (s.releaseStep host t id)
  | .closeFile _, .closing id => some {s.setPhase t (.released id) with file := none}
  | _, _ => none

end LockState

/-- The call that takes a step; none for a step of a whole process or of the clock. -/
def LockAction.call? : LockAction π τ → Option τ
  | .start _ | .crash _ | .tick _ => none
  | .enter t | .openFile t | .writePayload t | .writeFails t | .setHeld t | .read t | .inspect t | .stat t | .remove t
  | .wake t | .timeout t | .release t | .closeFile t => some t

/-- A pid is given to one process at a time, and a process runs once. -/
def lockMachine : Machine (LockState π τ) (LockAction π τ) := fun action s =>
  match action with
  | .start p =>
    if p ∉ s.running ∧ p ∉ s.dead ∧ s.isPidAlive host (host.pid p) = false then
      some {s with running := p :: s.running}
    else none
  | .crash p => if p ∈ s.running then some {s with running := s.running.erase p, dead := p :: s.dead} else none
  | .tick ms => some {s with now := s.now + ms}
  | action =>
    match action.call? with
    | some t => if host.proc t ∈ s.running then s.callStep host t action else none
    | none => none

end Steps

end OpenClaw.Agents
