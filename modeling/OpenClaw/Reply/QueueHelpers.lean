import Mathlib.Data.Rat.Floor
import OpenClaw.Foundation.EcmaString

/-! The queue helpers: cap, drop policy and overflow summary.

A queue at its cap makes room before it takes an item: the policy `new` refuses
the item, the others remove the oldest ones, and `summarize` counts what it
removes and keeps a line of each, at most as many lines as the cap. The summary
prompt is built from the count and the lines as they stand. The helpers are
generic in the items, as the source has them. -/
namespace OpenClaw.Reply
open Foundation

inductive QueueDropPolicy
  | summarize | old | new
  deriving DecidableEq, Repr

inductive QueueMode
  | steer | followup | collect | steerBacklog | interrupt | queue
  deriving DecidableEq, Repr

structure QueueSettings where
  mode : QueueMode
  cap : Option ℚ := none
  dropPolicy : Option QueueDropPolicy := none

structure QueueState (α : Type*) where
  items : List α
  cap : Nat
  dropPolicy : QueueDropPolicy
  droppedCount : Nat
  summaryLines : List String
  deriving DecidableEq

/-- What a summary prompt tells: the count and the lines at the time it is built. -/
structure QueueSummary where
  droppedCount : Nat
  summaryLines : List String
  deriving DecidableEq

/-! ### Texts -/

/-- The length of a text in UTF-16 units. -/
def utf16Length (l : List Char) : Nat := (l.map fun c => if c.toNat < 0x10000 then 1 else 2).sum

/-- `slice(0, n)`. Half a surrogate pair at the end is not kept. -/
def sliceUnits : Nat → List Char → List Char
  | _, [] => []
  | n, c :: rest =>
    let units := if c.toNat < 0x10000 then 1 else 2
    if units ≤ n then c :: sliceUnits (n - units) rest else []

def trimEnd (l : List Char) : List Char := (l.reverse.dropWhile EcmaString.isWhiteSpace).reverse

def elideQueueText (text : String) (limit : Nat) : String :=
  if utf16Length text.toList ≤ limit then text
  else String.ofList (trimEnd (sliceUnits (limit - 1) text.toList) ++ ['…'])

def buildQueueSummaryLine (text : String) : String :=
  elideQueueText (EcmaString.trim (EcmaString.collapseWhiteSpace text)) 160

/-! ### Settings -/

/-- The cap a setting asks for, or the one at hand. -/
def settledCap (cap : Option ℚ) (current : Nat) : Nat :=
  match cap with
  | some c => if 0 < c then ⌊c⌋.toNat else current
  | none => current

variable {α : Type*}

namespace QueueState

def clearQueueSummaryState (q : QueueState α) : QueueState α :=
  {q with droppedCount := 0, summaryLines := []}

/-- Whether the policy removes items to make room for one more. -/
def overflows (q : QueueState α) : Prop := 0 < q.cap ∧ q.cap ≤ q.items.length ∧ q.dropPolicy ≠ .new

instance (q : QueueState α) : Decidable q.overflows := by unfold overflows; infer_instance

/-- The items the policy removes to make room for one more. -/
def removed (q : QueueState α) : List α :=
  if q.overflows then q.items.take (q.items.length - q.cap + 1) else []

/-- What is left of the queue once the policy made room, and whether the item may
come in. -/
def applyQueueDropPolicy (summarize : α → String) (q : QueueState α) : Bool × QueueState α :=
  if q.cap = 0 ∨ q.items.length < q.cap then (true, q)
  else if q.dropPolicy = .new then (false, q)
  else
    let dropCount := q.items.length - q.cap + 1
    let dropped := q.items.take dropCount
    let q' := {q with items := q.items.drop dropCount}
    if q.dropPolicy = .summarize then
      let lines := q.summaryLines ++ dropped.map fun item => buildQueueSummaryLine (summarize item)
      (true, {q' with droppedCount := q.droppedCount + dropped.length, summaryLines := lines.rtake q.cap})
    else (true, q')

/-- The summary a prompt would tell, if there is one to tell. -/
def previewQueueSummary (q : QueueState α) : Option QueueSummary :=
  if q.dropPolicy = .summarize ∧ 0 < q.droppedCount then some ⟨q.droppedCount, q.summaryLines⟩ else none

/-- There is something left to drain. -/
def pending (q : QueueState α) : Prop := q.items ≠ [] ∨ 0 < q.droppedCount

instance (q : QueueState α) : Decidable q.pending :=
  decidable_of_iff (q.items.isEmpty = false ∨ 0 < q.droppedCount) (by simp [pending])

/-- What is left to drain: items waiting and drops not yet told. -/
def backlog (q : QueueState α) : Nat := q.items.length + q.droppedCount

end QueueState

def buildQueueSummaryPrompt (noun : String) (s : QueueSummary) : String :=
  let plural := if s.droppedCount = 1 then "" else "s"
  let title := "[Queue overflow] Dropped " ++ toString s.droppedCount ++ " " ++ noun ++ plural ++ " due to cap."
  let lines := if s.summaryLines = [] then [] else "Summary:" :: s.summaryLines.map ("- " ++ ·)
  "\n".intercalate (title :: lines)

def buildCollectPrompt (title : String) (items : List α) (summary : Option String)
    (renderItem : α → Nat → String) : String :=
  "\n\n".intercalate (title :: summary.toList ++ items.zipIdx.map fun p => renderItem p.1 p.2)

/-- Where an item comes from: a key, no key, or no single place to answer to. -/
structure ChannelKey where
  cross : Bool := false
  key : Option String := none

def hasCrossChannelItems (items : List α) (resolveKey : α → ChannelKey) : Bool :=
  let keys := items.filterMap fun item => (resolveKey item).key
  items.any (fun item => (resolveKey item).cross) ||
    (!keys.isEmpty && (items.any (fun item => (resolveKey item).key.isNone) || decide (1 < keys.dedup.length)))

/-! ### What the policy leaves -/

namespace QueueState
variable (summarize : α → String) (q : QueueState α)

theorem removed_eq (h : q.overflows) : q.removed = q.items.take (q.items.length - q.cap + 1) := if_pos h

theorem removed_of_not (h : ¬ q.overflows) : q.removed = [] := if_neg h

/-- A call without overflow leaves the queue as it is. -/
theorem applyQueueDropPolicy_of_not (h : ¬ q.overflows) : (q.applyQueueDropPolicy summarize).2 = q := by
  unfold applyQueueDropPolicy
  split_ifs with hroom hnew hsum
  · rfl
  · rfl
  · exact absurd ⟨by omega, by omega, hnew⟩ h
  · exact absurd ⟨by omega, by omega, hnew⟩ h

theorem applyQueueDropPolicy_old (h : q.overflows) (ho : q.dropPolicy ≠ .summarize) :
    q.applyQueueDropPolicy summarize = (true, {q with items := q.items.drop q.removed.length}) := by
  obtain ⟨hcap, hle, hnew⟩ := h
  have hlen : q.removed.length = q.items.length - q.cap + 1 := by
    rw [removed_eq q ⟨hcap, hle, hnew⟩, List.length_take]
    omega
  simp only [applyQueueDropPolicy, hlen]
  rw [if_neg (by omega), if_neg hnew, if_neg ho]

theorem applyQueueDropPolicy_summarize (h : q.overflows) (hs : q.dropPolicy = .summarize) :
    q.applyQueueDropPolicy summarize = (true, {q with
      items := q.items.drop q.removed.length
      droppedCount := q.droppedCount + q.removed.length
      summaryLines := (q.summaryLines ++
        q.removed.map fun item => buildQueueSummaryLine (summarize item)).rtake q.cap}) := by
  obtain ⟨hcap, hle, hnew⟩ := h
  have hremoved := removed_eq q ⟨hcap, hle, hnew⟩
  have hlen : q.removed.length = q.items.length - q.cap + 1 := by
    rw [hremoved, List.length_take]
    omega
  simp only [applyQueueDropPolicy, hlen, hremoved]
  rw [if_neg (by omega), if_neg hnew, if_pos hs, ← hremoved, hlen]

theorem removed_append_drop : q.removed ++ q.items.drop q.removed.length = q.items := by
  by_cases h : q.overflows
  · obtain ⟨hcap, hle, hnew⟩ := h
    rw [removed_eq q ⟨hcap, hle, hnew⟩, List.length_take, min_eq_left (by omega), List.take_append_drop]
  · simp [removed_of_not q h]

/-- The items left are those not removed. -/
theorem applyQueueDropPolicy_items :
    ((q.applyQueueDropPolicy summarize).2).items = q.items.drop q.removed.length := by
  by_cases h : q.overflows
  · by_cases hs : q.dropPolicy = .summarize
    · rw [applyQueueDropPolicy_summarize summarize q h hs]
    · rw [applyQueueDropPolicy_old summarize q h hs]
  · rw [applyQueueDropPolicy_of_not summarize q h, removed_of_not q h]
    rfl

@[simp] theorem applyQueueDropPolicy_cap : ((q.applyQueueDropPolicy summarize).2).cap = q.cap := by
  unfold applyQueueDropPolicy
  split_ifs <;> rfl

@[simp] theorem applyQueueDropPolicy_dropPolicy :
    ((q.applyQueueDropPolicy summarize).2).dropPolicy = q.dropPolicy := by
  unfold applyQueueDropPolicy
  split_ifs <;> rfl

/-- An item is refused only where the policy removes nothing. -/
theorem not_overflows_of_refused (h : (q.applyQueueDropPolicy summarize).1 = false) : ¬ q.overflows := by
  intro ho
  by_cases hs : q.dropPolicy = .summarize
  · rw [applyQueueDropPolicy_summarize summarize q ho hs] at h
    cases h
  · rw [applyQueueDropPolicy_old summarize q ho hs] at h
    cases h

theorem previewQueueSummary_some {sm : QueueSummary} :
    q.previewQueueSummary = some sm ↔
      q.dropPolicy = .summarize ∧ 0 < q.droppedCount ∧ sm = ⟨q.droppedCount, q.summaryLines⟩ := by
  simp only [previewQueueSummary]
  split_ifs with h
  · simp [h, eq_comm]
  · simp only [reduceCtorEq, false_iff]
    exact fun hsm => h ⟨hsm.1, hsm.2.1⟩

end QueueState

end OpenClaw.Reply
