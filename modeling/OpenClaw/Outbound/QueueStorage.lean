import OpenClaw.Foundation.EcmaString
import OpenClaw.Foundation.InsertionMap

/-! The files of the outbound delivery queue.

Every message waits in a file of its own until its send is over: `<id>.json` is
written before the send, renamed to `<id>.delivered` and removed after it, or
renamed into `failed/`. A file is written under a temporary name first and
renamed into place, so a reader sees a whole entry or none. The functions of the
storage are sequences of single file operations; `AckPhase` and `FailPhase` name
the operation such a sequence does next. An operation that throws (`fault`, with
the text of the error) leaves the files as they are. -/
namespace OpenClaw.Outbound
open Foundation InsertionMap

/-! ### Entries -/

/-- What the file of an entry holds beside the id, which the file is named by.
`π` is the message: channel, target, payloads and options. -/
structure QueueFile (π : Type*) where
  payload : π
  enqueuedAt : Nat
  retryCount : Nat
  lastAttemptAt : Option Nat := none
  lastError : Option String := none
  deriving DecidableEq, Repr

structure QueuedDelivery (π : Type*) extends QueueFile π where
  id : String
  deriving DecidableEq, Repr

variable {π : Type*}

/-- The time of the last attempt, if there is a valid one. -/
def QueueFile.attemptedAt (entry : QueueFile π) : Option Nat := entry.lastAttemptAt.filter (0 < ·)

/-- Entries of earlier versions have no time of their last attempt. The flag says
whether one was filled in. -/
def normalizeLegacyQueuedDeliveryEntry (entry : QueuedDelivery π) : QueuedDelivery π × Bool :=
  if entry.attemptedAt.isSome ∨ entry.retryCount = 0 then (entry, false)
  else if entry.enqueuedAt = 0 then (entry, false)
  else ({entry with lastAttemptAt := some entry.enqueuedAt}, true)

@[simp] theorem normalizeLegacy_id (entry : QueuedDelivery π) :
    (normalizeLegacyQueuedDeliveryEntry entry).1.id = entry.id := by
  unfold normalizeLegacyQueuedDeliveryEntry
  split_ifs <;> rfl

/-! ### The directory -/

/-- The files of the queue, by the id they are named by. -/
structure Disk (π : Type*) where
  json : InsertionMap String (QueueFile π) := ∅
  /-- The temporary files of this process. -/
  tmp : InsertionMap String (QueueFile π) := ∅
  delivered : InsertionMap String (QueueFile π) := ∅
  failed : InsertionMap String (QueueFile π) := ∅

namespace Disk

def readQueueEntry (id : String) (d : Disk π) : Option (QueuedDelivery π) :=
  (d.json.get? id).map fun file => {file with id}

/-- First half of `writeQueueEntry`. -/
def writeTmp (id : String) (file : QueueFile π) (d : Disk π) : Disk π := {d with tmp := d.tmp.set id file}

/-- Second half of `writeQueueEntry`. A rename fails where its file is gone. -/
def renameTmp (id : String) (d : Disk π) : Option (Disk π) :=
  (d.tmp.get? id).map fun file => {d with json := d.json.set id file, tmp := d.tmp.erase id}

/-- First half of `ackDelivery`. -/
def renameDelivered (id : String) (d : Disk π) : Option (Disk π) :=
  (d.json.get? id).map fun file => {d with json := d.json.erase id, delivered := d.delivered.set id file}

/-- Second half of `ackDelivery`: a marker that is gone already is fine. -/
def unlinkDelivered (id : String) (d : Disk π) : Disk π := {d with delivered := d.delivered.erase id}

/-- `moveToFailed`. -/
def renameFailed (id : String) (d : Disk π) : Option (Disk π) :=
  (d.json.get? id).map fun file => {d with json := d.json.erase id, failed := d.failed.set id file}

/-- The entry has a file in the queue or among the failed ones. -/
def Present (d : Disk π) (id : String) : Prop := (d.json.get? id).isSome ∨ (d.failed.get? id).isSome

instance (d : Disk π) (id : String) : Decidable (d.Present id) :=
  inferInstanceAs (Decidable (_ ∨ _))

/-- What stays of the directory for another process: temporary files are named by
the process that writes them. -/
def leftBehind (d : Disk π) : Disk π := {d with tmp := ∅}

end Disk

/-- The next file operation of an `ackDelivery`. -/
inductive AckPhase
  | rename | cleanup
  deriving DecidableEq, Repr

inductive AckResult
  /-- The marker is to be removed. -/
  | marked
  | returned
  | threw (error : String)
  deriving DecidableEq, Repr

/-- An operation of `ackDelivery`, with the files it leaves and whether it renamed
the entry. -/
def ackDelivery (id : String) (fault : Option String) (d : Disk π) : AckPhase → Disk π × Bool × AckResult
  | .rename => match fault with
    | some error => (d, false, .threw error)
    | none => match d.renameDelivered id with
      | some d' => (d', true, .marked)
      -- `ENOENT`: an earlier acknowledgement may have left its marker.
      | none => (d, false, .marked)
  | .cleanup => (if fault.isSome then d else d.unlinkDelivered id, false, .returned)

/-- The next file operation of a `failDelivery`. -/
inductive FailPhase (π : Type*)
  | read
  | write (file : QueueFile π)
  | rename
  deriving DecidableEq, Repr

/-- An operation of `failDelivery`, with the files it leaves and what is next.
Every caller goes on alike whether it returns or throws. -/
def failDelivery (id error : String) (now : Nat) (fault : Option String) (d : Disk π) :
    FailPhase π → Disk π × Option (FailPhase π)
  | .read => match fault, d.readQueueEntry id with
    | none, some entry => (d, some (.write {entry.toQueueFile with
        retryCount := entry.retryCount + 1
        lastAttemptAt := some now
        lastError := some error}))
    | _, _ => (d, none)
  | .write file => if fault.isSome then (d, none) else (d.writeTmp id file, some .rename)
  | .rename => if fault.isSome then (d, none) else ((d.renameTmp id).getD d, none)

/-! ### What an operation does to the files -/

/-- What an operation on the files of one entry does to the directory. -/
inductive FileOp (id : String) (d : Disk π) : Disk π → Prop
  /-- Nothing a listing or a read of entries could tell. -/
  | aside {d'} : d'.json = d.json → d'.failed = d.failed → FileOp id d d'
  | put {d' file} : d'.json = d.json.set id file → d'.failed = d.failed → FileOp id d d'
  | move {d' file} : d.json.get? id = some file → d'.json = d.json.erase id →
      d'.failed = d.failed.set id file → FileOp id d d'

namespace FileOp

variable {id : String} {d d' : Disk π}

theorem refl (id : String) (d : Disk π) : FileOp id d d := .aside rfl rfl

/-- The files of other entries stay. -/
theorem json_ne (h : FileOp id d d') {k : String} (hk : k ≠ id) : d'.json.get? k = d.json.get? k := by
  cases h with
  | aside hj _ => rw [hj]
  | put hj _ => rw [hj, get?_set_ne _ hk]
  | move _ hj _ => rw [hj, get?_erase, if_neg hk]

theorem present (h : FileOp id d d') {k : String} (hp : d.Present k) : d'.Present k := by
  cases h with
  | aside hj hf => simpa [Disk.Present, hj, hf] using hp
  | put hj hf =>
    rcases eq_or_ne k id with rfl | hk
    · left
      simp [hj]
    · simpa [Disk.Present, hj, hf, get?_set_ne _ hk] using hp
  | move _ hj hf =>
    rcases eq_or_ne k id with rfl | hk
    · right
      simp [hf]
    · simpa [Disk.Present, hj, hf, get?_erase, get?_set_ne _ hk, hk] using hp

end FileOp

section Operations
variable {id error : String} {now : Nat} {fault : Option String} {d d' : Disk π}

theorem renameTmp_op (h : d.renameTmp id = some d') : FileOp id d d' ∧ (d'.json.get? id).isSome := by
  obtain ⟨file, -, rfl⟩ := Option.map_eq_some_iff.mp h
  exact ⟨.put rfl rfl, by simp⟩

theorem renameFailed_op (h : d.renameFailed id = some d') : FileOp id d d' := by
  obtain ⟨file, hfile, rfl⟩ := Option.map_eq_some_iff.mp h
  exact .move hfile rfl rfl

/-- The rename of an entry that is there throws or moves it. -/
theorem ackDelivery_rename (fault : Option String) (h : (d.json.get? id).isSome) :
    (∃ error, ackDelivery id fault d .rename = (d, false, .threw error)) ∨
      ∃ d', ackDelivery id fault d .rename = (d', true, .marked) ∧ d'.json = d.json.erase id := by
  obtain ⟨file, hfile⟩ := Option.isSome_iff_exists.mp h
  cases fault with
  | some error => exact .inl ⟨error, rfl⟩
  | none =>
    refine .inr ⟨{d with json := d.json.erase id, delivered := d.delivered.set id file}, ?_, rfl⟩
    simp [ackDelivery, Disk.renameDelivered, hfile]

theorem ackDelivery_cleanup (id : String) (fault : Option String) (d : Disk π) :
    ∃ d', ackDelivery id fault d .cleanup = (d', false, .returned) ∧ d'.json = d.json ∧ d'.failed = d.failed := by
  refine ⟨_, rfl, ?_, ?_⟩ <;> split_ifs <;> rfl

/-- An acknowledgement leaves every entry it does not rename where it was. -/
theorem ackDelivery_present (id : String) (fault : Option String) (phase : AckPhase) {k : String} (h : d.Present k) :
    (ackDelivery id fault d phase).1.Present k ∨ (ackDelivery id fault d phase).2.1 = true ∧ k = id := by
  cases phase with
  | cleanup =>
    obtain ⟨d', hd, hj, hf⟩ := ackDelivery_cleanup id fault d
    left
    simpa [hd, Disk.Present, hj, hf] using h
  | rename =>
    cases fault with
    | some error => exact .inl h
    | none =>
      cases hfile : d.json.get? id with
      | none =>
        left
        simpa [ackDelivery, Disk.renameDelivered, hfile] using h
      | some file =>
        rcases eq_or_ne k id with hk | hk
        · right
          simp [ackDelivery, Disk.renameDelivered, hfile, hk]
        · left
          simpa [ackDelivery, Disk.renameDelivered, hfile, Disk.Present, get?_erase, hk] using h

theorem failDelivery_op (id error : String) (now : Nat) (fault : Option String) (d : Disk π) (phase : FailPhase π) :
    FileOp id d (failDelivery id error now fault d phase).1 := by
  cases phase with
  | read =>
    simp only [failDelivery]
    split <;> exact .refl id d
  | write file =>
    simp only [failDelivery]
    split_ifs
    · exact .refl id d
    · exact .aside rfl rfl
  | rename =>
    simp only [failDelivery]
    split_ifs
    · exact .refl id d
    · cases h : d.renameTmp id with
      | none => exact .refl id d
      | some d' => exact (renameTmp_op h).1

/-- A failed attempt is noted in the file, and the file stays. -/
theorem failDelivery_keeps (error : String) (now : Nat) (fault : Option String) (phase : FailPhase π)
    (h : (d.json.get? id).isSome) :
    ((failDelivery id error now fault d phase).1.json.get? id).isSome := by
  cases phase with
  | read =>
    simp only [failDelivery]
    split <;> exact h
  | write file =>
    simp only [failDelivery]
    split_ifs <;> exact h
  | rename =>
    simp only [failDelivery]
    split_ifs
    · exact h
    · cases hd : d.renameTmp id with
      | none => exact h
      | some d' => exact (renameTmp_op hd).2

end Operations

end OpenClaw.Outbound
