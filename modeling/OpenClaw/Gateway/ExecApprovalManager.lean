import OpenClaw.Foundation.EcmaString
import OpenClaw.Foundation.InsertionMap
import OpenClaw.Foundation.Run

/-! Approvals of commands the gateway waits for.

`register` makes an entry for a record: a promise that is settled once a decision
is made, and a timer that lets the record expire. A decided entry stays for a
grace time, so that a late caller still finds it, and is then deleted by a timer
of its own. Entries are objects: `entries` holds every entry ever made, by number,
and `pending` which of them an id stands for. `ρ` is the type of requests.

`settled` of an entry is what its promise was settled with, call by call;
`consumed` are the entries whose one-time grant was spent. -/
namespace OpenClaw.Gateway
open Foundation

/-! ### Data -/

def RESOLVED_ENTRY_GRACE_MS : Nat := 15000

inductive ExecApprovalDecision
  | allowOnce | allowAlways | deny
  deriving DecidableEq, Repr

structure ExecApprovalRecord (ρ : Type*) where
  id : String
  request : ρ
  createdAtMs : Nat
  expiresAtMs : Nat
  resolvedAtMs : Option Nat := none
  decision : Option ExecApprovalDecision := none
  resolvedBy : Option String := none
  deriving DecidableEq, Repr

structure PendingEntry (ρ : Type*) where
  record : ExecApprovalRecord ρ
  /-- The timer that lets the record expire is armed. -/
  timer : Bool := true
  settled : List (Option ExecApprovalDecision) := []
  deriving DecidableEq, Repr

structure ExecApprovals (ρ : Type*) where
  entries : List (PendingEntry ρ) := []
  pending : InsertionMap String Nat := ∅
  /-- The entries whose grace timer is armed. -/
  graces : List Nat := []
  consumed : List Nat := []

variable {ρ : Type*}

/-! ### Operations -/

/-- The record of a request. `drawn` is the id it gets without one of its own. -/
def create (request : ρ) (timeoutMs : Nat) (id : Option String) (drawn : String) (now : Nat) : ExecApprovalRecord ρ where
  id := (EcmaString.trimmed? id).getD drawn
  request := request
  createdAtMs := now
  expiresAtMs := now + timeoutMs

namespace ExecApprovals

/-- The entry an id stands for, with its number. -/
def find (recordId : String) (s : ExecApprovals ρ) : Option (Nat × PendingEntry ρ) :=
  (s.pending.get? recordId).bind fun k => s.entries[k]?.map fun entry => (k, entry)

/-- The call, with the entry whose promise it returns, or the error it throws. -/
def register (record : ExecApprovalRecord ρ) (s : ExecApprovals ρ) : Except String Nat × ExecApprovals ρ :=
  match s.find record.id with
  | some (k, existing) =>
    if existing.record.resolvedAtMs.isNone then (.ok k, s)
    else (.error s!"approval id '{record.id}' already resolved", s)
  | none =>
    let k := s.entries.length
    (.ok k, {s with
      entries := s.entries ++ [{record}]
      pending := s.pending.set record.id k})

/-- The promise of an entry is settled, its timer cleared and its grace time begun. -/
def settle (k : Nat) (entry : PendingEntry ρ) (decision : Option ExecApprovalDecision) (resolvedBy : Option String)
    (now : Nat) (s : ExecApprovals ρ) : ExecApprovals ρ :=
  {s with
    entries := s.entries.set k
      { record := {entry.record with resolvedAtMs := some now, decision, resolvedBy}
        timer := false
        settled := entry.settled ++ [decision] }
    graces := k :: s.graces}

def resolve (recordId : String) (decision : ExecApprovalDecision) (resolvedBy : Option String) (now : Nat)
    (s : ExecApprovals ρ) : Bool × ExecApprovals ρ :=
  match s.find recordId with
  | none => (false, s)
  | some (k, entry) =>
    if entry.record.resolvedAtMs.isSome then (false, s) else (true, s.settle k entry (some decision) resolvedBy now)

def expire (recordId : String) (resolvedBy : Option String) (now : Nat) (s : ExecApprovals ρ) :
    Bool × ExecApprovals ρ :=
  match s.find recordId with
  | none => (false, s)
  | some (k, entry) =>
    if entry.record.resolvedAtMs.isSome then (false, s) else (true, s.settle k entry none resolvedBy now)

def consumeAllowOnce (recordId : String) (s : ExecApprovals ρ) : Bool × ExecApprovals ρ :=
  match s.find recordId with
  | none => (false, s)
  | some (k, entry) =>
    if entry.record.decision = some .allowOnce then
      (true, {s with
        entries := s.entries.set k {entry with record := {entry.record with decision := none}}
        consumed := k :: s.consumed})
    else (false, s)

/-- The entry whose promise is returned. -/
def awaitDecision (recordId : String) (s : ExecApprovals ρ) : Option Nat := (s.find recordId).map Prod.fst

/-- The timer of an entry fires. -/
def fireTimer (k : Nat) (entry : PendingEntry ρ) (now : Nat) (s : ExecApprovals ρ) : ExecApprovals ρ :=
  (({s with entries := s.entries.set k {entry with timer := false}} : ExecApprovals ρ).expire entry.record.id none now).2

/-- The grace timer of an entry fires: it is deleted if its id still stands for it. -/
def fireGrace (k : Nat) (entry : PendingEntry ρ) (s : ExecApprovals ρ) : ExecApprovals ρ :=
  {s with
    graces := s.graces.erase k
    pending := if s.pending.get? entry.record.id = some k then s.pending.erase entry.record.id else s.pending}

end ExecApprovals

/-! ### Steps -/

inductive ApprovalEvent (ρ : Type*)
  /-- A new record is made and registered. -/
  | register (request : ρ) (timeoutMs : Nat) (id : Option String) (drawn : String) (now : Nat)
  | resolve (recordId : String) (decision : ExecApprovalDecision) (resolvedBy : Option String) (now : Nat)
  | expire (recordId : String) (resolvedBy : Option String) (now : Nat)
  | consume (recordId : String)
  | timer (k : Nat) (now : Nat)
  | grace (k : Nat)

def approvalStep : Machine (ExecApprovals ρ) (ApprovalEvent ρ)
  | .register request timeoutMs id drawn now, s => some (s.register (create request timeoutMs id drawn now)).2
  | .resolve recordId decision resolvedBy now, s => some (s.resolve recordId decision resolvedBy now).2
  | .expire recordId resolvedBy now, s => some (s.expire recordId resolvedBy now).2
  | .consume recordId, s => some (s.consumeAllowOnce recordId).2
  | .timer k now, s => s.entries[k]?.bind fun entry => if entry.timer then some (s.fireTimer k entry now) else none
  | .grace k, s => if k ∈ s.graces then s.entries[k]?.map fun entry => s.fireGrace k entry else none

end OpenClaw.Gateway
