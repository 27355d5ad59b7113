import Mathlib.Data.List.Lex
import Mathlib.Data.List.Sort
import OpenClaw.Foundation.EcmaString
import OpenClaw.Config.Json5String

/-! Scopes: what one list of scopes allows a role to ask for.

A scope list is read as the set of its trimmed, non-blank members. An operator's
scopes are ordered by `operatorScopeSatisfied`: the admin scope stands for every
operator scope and the write scope for the read scope. Any other role asks only
for scopes that carry its own name in front and stand in the list itself.
`operatorScopeSatisfied_of_covers` is what the pairing rests on: a list each of
whose operator scopes a second list allows asks for nothing the second refuses. -/
namespace OpenClaw.Pairing

open Foundation.EcmaString

/-! ### Sets of trimmed texts -/

/-- The members of a `Set` filled with the trimmed, non-blank texts, in the order of their first
appearance. -/
def trimmedSet (items : List String) : List String := (items.filterMap trimmed).eraseDups

variable {items granted allowed scopes : List String} {x scope role : String}

@[simp] theorem mem_trimmedSet :
    x ∈ trimmedSet items ↔ ∃ s ∈ items, trimmed s = some x := by
  simp [trimmedSet, List.mem_eraseDups]

theorem trimmed_of_mem_trimmedSet (h : x ∈ trimmedSet items) :
    trimmed x = some x := by
  obtain ⟨s, _, hs⟩ := mem_trimmedSet.mp h
  exact trimmed_trimmed hs

/-- A trimmed member is a member of the set as it stands. -/
theorem mem_trimmedSet_of_mem (h : x ∈ items) (hx : trimmed x = some x) :
    x ∈ trimmedSet items :=
  mem_trimmedSet.mpr ⟨x, h, hx⟩

/-- Reading a set again gives the same members. -/
theorem mem_trimmedSet_trimmedSet :
    x ∈ trimmedSet (trimmedSet items) ↔ x ∈ trimmedSet items := by
  constructor
  · intro h
    obtain ⟨s, hs, hx⟩ := mem_trimmedSet.mp h
    rw [trimmed_of_mem_trimmedSet hs] at hx
    cases hx
    exact hs
  · intro h
    exact mem_trimmedSet_of_mem h (trimmed_of_mem_trimmedSet h)

theorem trimmedSet_append_mem {a b : List String} :
    x ∈ trimmedSet (a ++ b) ↔ x ∈ trimmedSet a ∨ x ∈ trimmedSet b := by
  simp only [mem_trimmedSet, List.mem_append, or_and_right, exists_or]

/-- `toSorted()` on texts: by their code units. -/
def toSorted (items : List String) : List String :=
  items.insertionSort fun a b => Config.units a.toList ≤ Config.units b.toList

@[simp] theorem mem_toSorted : x ∈ toSorted items ↔ x ∈ items :=
  List.mem_insertionSort _

/-! ### The scopes of the gateway -/

def operatorRole : String := "operator"

def operatorAdminScope : String := "operator.admin"

def operatorReadScope : String := "operator.read"

def operatorWriteScope : String := "operator.write"

def operatorScopePrefix : String := "operator."

/-- A scope under the operator's name. -/
def isOperatorScope (scope : String) : Bool := startsWith scope operatorScopePrefix

def normalizeScopeList (scopes : List String) : List String := trimmedSet scopes

/-- `Set.add`. -/
def addScope (out : List String) (scope : String) : List String :=
  if out.contains scope then out else out ++ [scope]

@[simp] theorem mem_addScope {out : List String} :
    x ∈ addScope out scope ↔ x ∈ out ∨ x = scope := by
  rw [addScope]
  split
  · rename_i h
    refine ⟨.inl, fun hx => hx.elim id fun he => he ▸ List.contains_iff_mem.mp h⟩
  · simp

/-- Admin brings read and write along, write brings read. -/
def withImpliedScopes (out : List String) : List String :=
  if out.contains operatorAdminScope then addScope (addScope out operatorReadScope) operatorWriteScope
  else if out.contains operatorWriteScope then addScope out operatorReadScope
  else out

def normalizeDeviceAuthScopes (scopes : Option (List String)) : List String :=
  match scopes with
  | none => []
  | some scopes => toSorted (withImpliedScopes (trimmedSet scopes))

def operatorScopeSatisfied (requestedScope : String) (granted : List String) : Bool :=
  if !isOperatorScope requestedScope then false
  else if granted.contains operatorAdminScope then true
  else if requestedScope == operatorReadScope then
    granted.contains operatorReadScope || granted.contains operatorWriteScope
  else if requestedScope == operatorWriteScope then granted.contains operatorWriteScope
  else granted.contains requestedScope

def roleScopesAllow (role : String) (requestedScopes allowedScopes : List String) : Bool :=
  let requested := normalizeScopeList requestedScopes
  if requested.isEmpty then true
  else
    let allowed := normalizeScopeList allowedScopes
    if allowed.isEmpty then false
    else if trim role != operatorRole then
      requested.all fun scope => startsWith scope (trim role ++ ".") && allowed.contains scope
    else requested.all fun scope => operatorScopeSatisfied scope allowed

/-- The first requested scope the allowed ones refuse. -/
def resolveMissingRequestedScope (role : String) (requestedScopes allowedScopes : List String) : Option String :=
  requestedScopes.find? fun scope => !roleScopesAllow role [scope] allowedScopes

/-! ### The order on operator scopes -/

theorem operatorScopeSatisfied_iff :
    operatorScopeSatisfied scope granted = true ↔ isOperatorScope scope = true ∧
      (operatorAdminScope ∈ granted ∨ scope ∈ granted ∨
        (scope = operatorReadScope ∧ operatorWriteScope ∈ granted)) := by
  rw [operatorScopeSatisfied]
  by_cases hop : isOperatorScope scope = true
  · by_cases hadmin : operatorAdminScope ∈ granted
    · simp [hop, hadmin]
    · by_cases hread : scope = operatorReadScope
      · subst hread
        simp [hop, hadmin]
      · by_cases hwrite : scope = operatorWriteScope
        · subst hwrite
          simp [hop, hadmin, hread]
        · simp [hop, hadmin, hread, hwrite]
  · simp [hop]

theorem isOperatorScope_admin : isOperatorScope operatorAdminScope = true := by decide

theorem isOperatorScope_write : isOperatorScope operatorWriteScope = true := by decide

/-- An operator scope satisfies itself. -/
theorem operatorScopeSatisfied_of_mem (h : scope ∈ granted) (hop : isOperatorScope scope = true) :
    operatorScopeSatisfied scope granted = true :=
  operatorScopeSatisfied_iff.mpr ⟨hop, .inr (.inl h)⟩

/-- What the second list satisfies for each operator scope of the first, it satisfies for all the
first does. -/
theorem operatorScopeSatisfied_of_covers (h : operatorScopeSatisfied scope granted = true)
    (hcovers : ∀ s ∈ granted, isOperatorScope s = true → operatorScopeSatisfied s allowed = true) :
    operatorScopeSatisfied scope allowed = true := by
  obtain ⟨hop, hadmin | hmem | ⟨rfl, hwrite⟩⟩ := operatorScopeSatisfied_iff.mp h
  · obtain ⟨_, ha | ha | ⟨he, _⟩⟩ := operatorScopeSatisfied_iff.mp (hcovers _ hadmin isOperatorScope_admin)
    · exact operatorScopeSatisfied_iff.mpr ⟨hop, .inl ha⟩
    · exact operatorScopeSatisfied_iff.mpr ⟨hop, .inl ha⟩
    · exact absurd he (by decide)
  · exact hcovers scope hmem hop
  · obtain ⟨_, ha | ha | ⟨he, _⟩⟩ := operatorScopeSatisfied_iff.mp (hcovers _ hwrite isOperatorScope_write)
    · exact operatorScopeSatisfied_iff.mpr ⟨hop, .inl ha⟩
    · exact operatorScopeSatisfied_iff.mpr ⟨hop, .inr (.inr ⟨rfl, ha⟩)⟩
    · exact absurd he (by decide)

/-- A longer list satisfies what a shorter one does. -/
theorem operatorScopeSatisfied_mono (h : operatorScopeSatisfied scope granted = true)
    (hsub : ∀ s ∈ granted, s ∈ allowed) :
    operatorScopeSatisfied scope allowed = true :=
  operatorScopeSatisfied_of_covers h fun s hs hop => operatorScopeSatisfied_of_mem (hsub s hs) hop

/-- What is allowed to a role, one scope at a time. -/
def scopeAllowed (role scope : String) (allowed : List String) : Bool :=
  if trim role != operatorRole then startsWith scope (trim role ++ ".") && allowed.contains scope
  else operatorScopeSatisfied scope allowed

theorem roleScopesAllow_iff {requestedScopes allowedScopes : List String} :
    roleScopesAllow role requestedScopes allowedScopes = true ↔
      ∀ s ∈ trimmedSet requestedScopes, scopeAllowed role s (trimmedSet allowedScopes) = true := by
  by_cases hreq : trimmedSet requestedScopes = []
  · simp [roleScopesAllow, normalizeScopeList, hreq]
  · by_cases hallow : trimmedSet allowedScopes = []
    · obtain ⟨s, hs⟩ := List.exists_mem_of_ne_nil _ hreq
      have hnone : scopeAllowed role s [] = false := by
        by_cases hrole : trim role = operatorRole <;> simp [scopeAllowed, hrole, operatorScopeSatisfied]
      simp only [roleScopesAllow, normalizeScopeList, hreq, hallow, List.isEmpty_iff, if_true, if_false]
      exact ⟨fun h => absurd h Bool.false_ne_true, fun h => absurd ((h s hs).symm.trans hnone) nofun⟩
    · by_cases hrole : trim role = operatorRole <;>
        simp [roleScopesAllow, normalizeScopeList, scopeAllowed, hreq, hallow, hrole]

/-- A scope allowed to any role stands in the list or is satisfied by it as an operator scope. -/
theorem mem_or_satisfied_of_scopeAllowed (h : scopeAllowed role scope allowed = true) :
    scope ∈ allowed ∨ (trim role = operatorRole ∧ operatorScopeSatisfied scope allowed = true) := by
  rw [scopeAllowed] at h
  split at h
  · exact .inl (List.contains_iff_mem.mp (Bool.and_eq_true_iff.mp h).2)
  · rename_i hrole
    exact .inr ⟨by simpa using hrole, h⟩

/-- An operator scope allowed to any role is satisfied by the list. -/
theorem satisfied_of_scopeAllowed (h : scopeAllowed role scope allowed = true) (hop : isOperatorScope scope = true) :
    operatorScopeSatisfied scope allowed = true := by
  rcases mem_or_satisfied_of_scopeAllowed h with hmem | ⟨_, hsat⟩
  · exact operatorScopeSatisfied_of_mem hmem hop
  · exact hsat

/-! ### Normalized scopes -/

theorem mem_withImpliedScopes {out : List String} :
    x ∈ withImpliedScopes out ↔ x ∈ out ∨
      ((x = operatorReadScope ∨ x = operatorWriteScope) ∧ operatorAdminScope ∈ out) ∨
      (x = operatorReadScope ∧ operatorWriteScope ∈ out) := by
  rw [withImpliedScopes]
  by_cases hadmin : operatorAdminScope ∈ out
  · simp only [List.contains_iff_mem, hadmin, if_true, mem_addScope]
    by_cases hread : x = operatorReadScope <;> simp [hread, or_assoc]
  · by_cases hwrite : operatorWriteScope ∈ out <;> simp [hadmin, hwrite]

theorem mem_normalizeDeviceAuthScopes :
    x ∈ normalizeDeviceAuthScopes (some scopes) ↔ x ∈ withImpliedScopes (trimmedSet scopes) := by
  simp [normalizeDeviceAuthScopes]

theorem mem_normalizeDeviceAuthScopes_of_mem (h : x ∈ trimmedSet scopes) :
    x ∈ normalizeDeviceAuthScopes (some scopes) :=
  mem_normalizeDeviceAuthScopes.mpr (mem_withImpliedScopes.mpr (.inl h))

theorem trimmed_operatorReadScope : trimmed operatorReadScope = some operatorReadScope := by decide

theorem trimmed_operatorWriteScope : trimmed operatorWriteScope = some operatorWriteScope := by decide

/-- Normalized scopes are trimmed and not blank. -/
theorem trimmed_of_mem_normalizeDeviceAuthScopes {scopes : Option (List String)}
    (h : x ∈ normalizeDeviceAuthScopes scopes) : trimmed x = some x := by
  cases scopes with
  | none => cases h
  | some scopes =>
    rcases mem_withImpliedScopes.mp (mem_normalizeDeviceAuthScopes.mp h) with hx | ⟨rfl | rfl, _⟩ | ⟨rfl, _⟩
    · exact trimmed_of_mem_trimmedSet hx
    · exact trimmed_operatorReadScope
    · exact trimmed_operatorWriteScope
    · exact trimmed_operatorReadScope

theorem mem_trimmedSet_normalizeDeviceAuthScopes {scopes : Option (List String)} :
    x ∈ trimmedSet (normalizeDeviceAuthScopes scopes) ↔ x ∈ normalizeDeviceAuthScopes scopes := by
  constructor
  · intro h
    obtain ⟨s, hs, hx⟩ := mem_trimmedSet.mp h
    rw [trimmed_of_mem_normalizeDeviceAuthScopes hs] at hx
    cases hx
    exact hs
  · intro h
    exact mem_trimmedSet_of_mem h (trimmed_of_mem_normalizeDeviceAuthScopes h)

/-- What normalizing adds to the operator scopes was satisfied before. -/
theorem satisfied_of_mem_normalizeDeviceAuthScopes (h : x ∈ normalizeDeviceAuthScopes (some scopes))
    (hop : isOperatorScope x = true) :
    operatorScopeSatisfied x (trimmedSet scopes) = true := by
  rcases mem_withImpliedScopes.mp (mem_normalizeDeviceAuthScopes.mp h) with hx | ⟨_, hadmin⟩ | ⟨rfl, hwrite⟩
  · exact operatorScopeSatisfied_of_mem hx hop
  · exact operatorScopeSatisfied_iff.mpr ⟨hop, .inl hadmin⟩
  · exact operatorScopeSatisfied_iff.mpr ⟨hop, .inr (.inr ⟨rfl, hwrite⟩)⟩

end OpenClaw.Pairing
