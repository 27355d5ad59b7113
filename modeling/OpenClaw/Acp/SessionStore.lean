import OpenClaw.Foundation.InsertionMap
import OpenClaw.Foundation.Run

/-! The sessions of ACP clients, in memory.

A session may have an active run, with the controller that aborts it; `runIdToSessionId`
leads from the run back to the session. Creating a session first reaps the ones that were
idle for too long, and at the limit evicts the one idle for longest. Times are whole
milliseconds, the limit a whole number; `κ` is the type of abort controllers. -/
namespace OpenClaw.Acp
open Foundation

structure AcpSession (κ : Type*) where
  sessionId : String
  sessionKey : String
  cwd : String
  createdAt : Int
  lastTouchedAt : Int
  abortController : Option κ
  activeRunId : Option String
  deriving Repr, DecidableEq

structure AcpSessionStoreOptions where
  maxSessions : Option Int := none
  idleTtlMs : Option Int := none

def DEFAULT_MAX_SESSIONS : Int := 5000

def DEFAULT_IDLE_TTL_MS : Int := 24 * 60 * 60 * 1000

def AcpSessionStoreOptions.sessionLimit (options : AcpSessionStoreOptions) : Int :=
  max 1 (options.maxSessions.getD DEFAULT_MAX_SESSIONS)

def AcpSessionStoreOptions.idleTtl (options : AcpSessionStoreOptions) : Int :=
  max 1000 (options.idleTtlMs.getD DEFAULT_IDLE_TTL_MS)

/-- `aborted` is the history of the controllers that were aborted. -/
structure AcpSessionStore (κ : Type*) where
  sessions : InsertionMap String (AcpSession κ) := ∅
  runIdToSessionId : InsertionMap String String := ∅
  aborted : List κ := []

section Store
variable {κ : Type*}

def touchSession (nowMs : Int) (session : AcpSession κ) : AcpSession κ := {session with lastTouchedAt := nowMs}

/-- `session.activeRunId || session.abortController`: an empty run id counts as none. -/
def AcpSession.isBusy (session : AcpSession κ) : Bool :=
  session.activeRunId.any (· ≠ "") || session.abortController.isSome

namespace AcpSessionStore
variable (s : AcpSessionStore κ)

/-- `if (session.activeRunId) runIdToSessionId.delete(session.activeRunId)`. -/
def forgetRun (session : AcpSession κ) : InsertionMap String String :=
  match session.activeRunId with
  | some runId => if runId ≠ "" then s.runIdToSessionId.erase runId else s.runIdToSessionId
  | none => s.runIdToSessionId

def removeSession (sessionId : String) : AcpSessionStore κ :=
  match s.sessions.get? sessionId with
  | none => s
  | some session =>
    {s with
      runIdToSessionId := s.forgetRun session
      aborted := s.aborted ++ session.abortController.toList
      sessions := s.sessions.erase sessionId}

/-- A session that a reap at this time removes. -/
def isReapable (options : AcpSessionStoreOptions) (nowMs : Int) (session : AcpSession κ) : Bool :=
  !session.isBusy && decide (session.lastTouchedAt ≤ nowMs - options.idleTtl)

def reapIdleSessions (options : AcpSessionStoreOptions) (nowMs : Int) : AcpSessionStore κ :=
  ((s.sessions.entries.filter fun e => isReapable options nowMs e.2).map Prod.fst).foldl removeSession s

/-- The loop of `evictOldestIdleSession`: the first of the idle sessions touched longest ago. -/
def oldestIdle : List (String × AcpSession κ) → Option (String × Int) → Option (String × Int)
  | [], oldest => oldest
  | (sessionId, session) :: rest, oldest =>
    if session.isBusy || oldest.any fun o => decide (o.2 ≤ session.lastTouchedAt) then oldestIdle rest oldest
    else oldestIdle rest (some (sessionId, session.lastTouchedAt))

/-- Whether a session was evicted, and the store after that; an empty id is taken for none. -/
def evictOldestIdleSession : Bool × AcpSessionStore κ :=
  match oldestIdle s.sessions.entries none with
  | some (sessionId, _) => if sessionId ≠ "" then (true, s.removeSession sessionId) else (false, s)
  | none => (false, s)

/-- The reap before a new session, and at the limit an eviction; false where that fails. -/
def makeRoom (options : AcpSessionStoreOptions) (nowMs : Int) : Bool × AcpSessionStore κ :=
  let reaped := s.reapIdleSessions options nowMs
  if options.sessionLimit ≤ reaped.sessions.size then reaped.evictOldestIdleSession else (true, reaped)

structure CreateSessionParams where
  sessionKey : String
  cwd : String
  sessionId : Option String := none

def limitReached (options : AcpSessionStoreOptions) : String :=
  "ACP session limit reached (max " ++ toString options.sessionLimit ++ "). Close idle ACP clients and retry."

/-- `uuid` is the id that is drawn where none is given. -/
def createSession (options : AcpSessionStoreOptions) (uuid : String) (nowMs : Int) (params : CreateSessionParams) :
    Except String (AcpSession κ) × AcpSessionStore κ :=
  let sessionId := params.sessionId.getD uuid
  match s.sessions.get? sessionId with
  | some existing =>
    let session := touchSession nowMs {existing with sessionKey := params.sessionKey, cwd := params.cwd}
    (.ok session, {s with sessions := s.sessions.set sessionId session})
  | none =>
    let room := s.makeRoom options nowMs
    if room.1 then
      let session : AcpSession κ :=
        { sessionId := sessionId, sessionKey := params.sessionKey, cwd := params.cwd, createdAt := nowMs,
          lastTouchedAt := nowMs, abortController := none, activeRunId := none }
      (.ok session, {room.2 with sessions := room.2.sessions.set sessionId session})
    else (.error (limitReached options), room.2)

def hasSession (sessionId : String) : Bool := (s.sessions.get? sessionId).isSome

def getSession (nowMs : Int) (sessionId : String) : Option (AcpSession κ) × AcpSessionStore κ :=
  match s.sessions.get? sessionId with
  | none => (none, s)
  | some session =>
    (some (touchSession nowMs session), {s with sessions := s.sessions.set sessionId (touchSession nowMs session)})

def getSessionByRunId (nowMs : Int) (runId : String) : Option (AcpSession κ) × AcpSessionStore κ :=
  match s.runIdToSessionId.get? runId with
  | none => (none, s)
  | some sessionId => if sessionId ≠ "" then s.getSession nowMs sessionId else (none, s)

def setActiveRun (nowMs : Int) (sessionId runId : String) (controller : κ) : AcpSessionStore κ :=
  match s.sessions.get? sessionId with
  | none => s
  | some session =>
    {s with
      sessions := s.sessions.set sessionId (touchSession nowMs
        {session with activeRunId := some runId, abortController := some controller})
      runIdToSessionId := s.runIdToSessionId.set runId sessionId}

/-- The session without its run. -/
def withoutRun (nowMs : Int) (session : AcpSession κ) : AcpSession κ :=
  touchSession nowMs {session with activeRunId := none, abortController := none}

def clearActiveRun (nowMs : Int) (sessionId : String) : AcpSessionStore κ :=
  match s.sessions.get? sessionId with
  | none => s
  | some session =>
    {s with
      runIdToSessionId := s.forgetRun session
      sessions := s.sessions.set sessionId (withoutRun nowMs session)}

def cancelActiveRun (nowMs : Int) (sessionId : String) : Bool × AcpSessionStore κ :=
  match s.sessions.get? sessionId with
  | none => (false, s)
  | some session =>
    match session.abortController with
    | none => (false, s)
    | some controller =>
      (true, {s with
        aborted := s.aborted ++ [controller]
        runIdToSessionId := s.forgetRun session
        sessions := s.sessions.set sessionId (withoutRun nowMs session)})

end AcpSessionStore

/-! ### Runs -/

inductive AcpCall (κ : Type*) where
  | createSession (params : AcpSessionStore.CreateSessionParams) (uuid : String)
  | getSession (sessionId : String)
  | getSessionByRunId (runId : String)
  | setActiveRun (sessionId runId : String) (controller : κ)
  | clearActiveRun (sessionId : String)
  | cancelActiveRun (sessionId : String)

/-- The store after a call at a time. -/
def AcpCall.apply (options : AcpSessionStoreOptions) (nowMs : Int) (s : AcpSessionStore κ) :
    AcpCall κ → AcpSessionStore κ
  | .createSession params uuid => (s.createSession options uuid nowMs params).2
  | .getSession sessionId => (s.getSession nowMs sessionId).2
  | .getSessionByRunId runId => (s.getSessionByRunId nowMs runId).2
  | .setActiveRun sessionId runId controller => s.setActiveRun nowMs sessionId runId controller
  | .clearActiveRun sessionId => s.clearActiveRun nowMs sessionId
  | .cancelActiveRun sessionId => (s.cancelActiveRun nowMs sessionId).2

/-- The store with the last time that was read, and the session each run id was used for. -/
structure AcpHistory (κ : Type*) where
  store : AcpSessionStore κ := {}
  clock : Option Int := none
  runs : List (String × String) := []

/-- Time does not go back, and a run id is used for one session only. -/
def acpStep (options : AcpSessionStoreOptions) : Machine (AcpHistory κ) (Int × AcpCall κ) := fun e h =>
  if h.clock.all (· ≤ e.1) then
    match e.2 with
    | .setActiveRun sessionId runId _ =>
      if h.runs.all fun r => decide (r.1 = runId → r.2 = sessionId) then
        some ⟨e.2.apply options e.1 h.store, some e.1, (runId, sessionId) :: h.runs⟩
      else none
    | call => some ⟨call.apply options e.1 h.store, some e.1, h.runs⟩
  else none

end Store

end OpenClaw.Acp
