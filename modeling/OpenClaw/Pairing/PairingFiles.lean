import OpenClaw.Foundation.InsertionMap
import OpenClaw.Foundation.EcmaString

/-! What the pairing stores share: pending requests under their id, their expiry
on load, the choice between refreshing a pending request and replacing it, and
the check of a presented token. -/
namespace OpenClaw.Pairing

open Foundation Foundation.EcmaString

variable {P : Type*}

/-- Entries older than the time to live are dropped. -/
def pruneExpiredPending (ts : P → Nat) (pendingById : InsertionMap String P) (nowMs ttlMs : Nat) :
    InsertionMap String P :=
  pendingById.keepValues fun req => !decide (nowMs > ts req + ttlMs)

theorem get?_pruneExpiredPending {ts : P → Nat} {pendingById : InsertionMap String P} {nowMs ttlMs : Nat}
    {id : String} {req : P} :
    (pruneExpiredPending ts pendingById nowMs ttlMs).get? id = some req ↔
      pendingById.get? id = some req ∧ nowMs ≤ ts req + ttlMs := by
  simp [pruneExpiredPending, InsertionMap.get?_keepValues, Option.filter_eq_some_iff]

structure PendingPairingRequestResult (P : Type*) where
  request : P
  created : Bool

/-- A single request that may be refreshed is written back where it stands; otherwise all of them
give way to one replacement. -/
def reconcilePendingPairingRequests (requestId : P → String) (pendingById : InsertionMap String P)
    (existing : List P) (canRefreshSingle : P → Bool) (refreshSingle : P → P) (buildReplacement : List P → P) :
    PendingPairingRequestResult P × InsertionMap String P :=
  let replace :=
    let request := buildReplacement existing
    let kept := existing.foldl (fun pendingById p => pendingById.erase (requestId p)) pendingById
    (⟨request, true⟩, kept.set (requestId request) request)
  match existing with
  | [single] =>
    if canRefreshSingle single then
      let refreshed := refreshSingle single
      (⟨refreshed, false⟩, pendingById.set (requestId refreshed) refreshed)
    else replace
  | _ => replace

/-- A request that is known is deleted. -/
def rejectPendingPairingRequest (pendingById : InsertionMap String P) (requestId : String) :
    Option (P × InsertionMap String P) :=
  (pendingById.get? requestId).map fun pending => (pending, pendingById.erase requestId)

/-- Texts are compared through their digests: equal texts and no others pass. -/
def verifyPairingToken (provided expected : String) : Bool :=
  if trim provided = "" || trim expected = "" then false else provided == expected

theorem verifyPairingToken_eq {provided expected : String} (h : verifyPairingToken provided expected = true) :
    provided = expected := by
  rw [verifyPairingToken] at h
  split at h
  · cases h
  · exact eq_of_beq h

/-- The two ways a request is reconciled: one pending request refreshed in place, or all of them
replaced by a new one. -/
theorem reconcile_cases {requestId : P → String} {pendingById : InsertionMap String P} {existing : List P}
    {canRefreshSingle : P → Bool} {refreshSingle : P → P} {buildReplacement : List P → P}
    {result : PendingPairingRequestResult P} {next : InsertionMap String P}
    (h : reconcilePendingPairingRequests requestId pendingById existing canRefreshSingle refreshSingle
      buildReplacement = (result, next)) :
    (∃ single, existing = [single] ∧ canRefreshSingle single = true ∧ result = ⟨refreshSingle single, false⟩ ∧
      next = pendingById.set (requestId (refreshSingle single)) (refreshSingle single)) ∨
    (result = ⟨buildReplacement existing, true⟩ ∧
      next = (existing.foldl (fun m p => m.erase (requestId p)) pendingById).set
        (requestId (buildReplacement existing)) (buildReplacement existing)) := by
  match existing, h with
  | [], h =>
    cases h
    exact .inr ⟨rfl, rfl⟩
  | [single], h =>
    by_cases hcan : canRefreshSingle single = true
    · simp only [reconcilePendingPairingRequests, hcan, if_true] at h
      cases h
      exact .inl ⟨single, rfl, hcan, rfl, rfl⟩
    · simp only [reconcilePendingPairingRequests, hcan, Bool.false_eq_true, if_false] at h
      cases h
      exact .inr ⟨rfl, rfl⟩
  | _ :: _ :: _, h =>
    cases h
    exact .inr ⟨rfl, rfl⟩

/-- Deleting a list of requests leaves those whose ids are not among theirs. -/
theorem get?_eraseAll {requestId : P → String} {existing : List P} {pendingById : InsertionMap String P}
    {id : String} {p : P} :
    (existing.foldl (fun m q => m.erase (requestId q)) pendingById).get? id = some p ↔
      pendingById.get? id = some p ∧ ∀ q ∈ existing, requestId q ≠ id := by
  induction existing generalizing pendingById with
  | nil => simp
  | cons q rest ih =>
    rw [List.foldl_cons, ih, InsertionMap.get?_erase]
    by_cases hq : id = requestId q
    · simp [hq]
    · simp [hq, Ne.symm hq]

end OpenClaw.Pairing
