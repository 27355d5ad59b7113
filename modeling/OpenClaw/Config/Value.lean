import Mathlib.Data.List.SplitOn
import Mathlib.Data.Rat.Defs
import OpenClaw.Foundation.EcmaString

/-! Config trees and the hints the redaction reads.

A config is a tree of JSON values; `undefined` stands for a value that is absent. An
object is the list of its own properties, and `assign` is an assignment to a fresh one:
assigning to `__proto__` sets the prototype and adds no property. -/
namespace OpenClaw.Config
open Foundation.EcmaString

inductive Value where
  | undefined
  | null
  | bool (b : Bool)
  | number (n : Rat)
  | string (s : String)
  | array (items : List Value)
  | object (entries : List (String × Value))
  deriving Repr

abbrev Entries := List (String × Value)

/-- `result[key] = value`. -/
def assign (key : String) (value : Value) (entries : Entries) : Entries :=
  if key = "__proto__" then entries else (key, value) :: entries

/-- `typeof value === "object" && value !== null`. -/
def Value.isObject : Value → Bool
  | .array _ | .object _ => true
  | _ => false

def Value.text? : Value → Option String
  | .string s => some s
  | _ => none

/-- `toObjectRecord`: an array, a scalar or nothing at all has no entries. -/
def toObjectRecord : Option Value → Entries
  | some (.object entries) => entries
  | _ => []

@[simp] theorem toObjectRecord_object (entries : Entries) :
    toObjectRecord (some (.object entries)) = entries := rfl

/-- `Array.isArray(value) ? value : []`. -/
def toItems : Option Value → List Value
  | some (.array items) => items
  | _ => []

/-- The field of an object, if it is a string. -/
def textField (entries : Entries) (key : String) : Option String := (entries.lookup key).bind Value.text?

/-! ### Well-formed trees -/

mutual

/-- No string of the tree is `s`. -/
def Value.lacks (s : String) : Value → Bool
  | .string t => t ≠ s
  | .array items => itemsLack s items
  | .object entries => entriesLack s entries
  | _ => true

def itemsLack (s : String) : List Value → Bool
  | [] => true
  | v :: rest => v.lacks s && itemsLack s rest

def entriesLack (s : String) : Entries → Bool
  | [] => true
  | (_, v) :: rest => v.lacks s && entriesLack s rest

end

mutual

/-- No object of the tree has a key twice. -/
def Value.distinct : Value → Bool
  | .array items => itemsDistinct items
  | .object entries => entriesDistinct entries && (entries.map Prod.fst).Nodup
  | _ => true

def itemsDistinct : List Value → Bool
  | [] => true
  | v :: rest => v.distinct && itemsDistinct rest

def entriesDistinct : Entries → Bool
  | [] => true
  | (_, v) :: rest => v.distinct && entriesDistinct rest

end

/-! ### Hints -/

/-- The part of a `ConfigUiHint` that the redaction reads. -/
structure ConfigUiHint where
  tags : Option (List String) := none
  sensitive : Option Bool := none
  deriving Repr, DecidableEq

/-- A record from config paths to hints; an absent one behaves as the empty one. -/
abbrev ConfigUiHints := List (String × ConfigUiHint)

def sensitiveUrlHintTag : String := "url-secret"

def hasSensitiveUrlHintTag (hint : ConfigUiHint) : Bool := hint.tags.any (sensitiveUrlHintTag ∈ ·)

def hasSensitiveUrlHintPath (hints : ConfigUiHints) (paths : List String) : Bool :=
  paths.any fun path => (hints.lookup path).any hasSensitiveUrlHintTag

def isExplicitlyNonSensitivePath (hints : ConfigUiHints) (paths : List String) : Bool :=
  paths.any fun path => (hints.lookup path).any (·.sensitive = some false)

/-- `hints[path]?.sensitive === true`. -/
def isHintedSensitive (hints : ConfigUiHints) (path : String) : Bool :=
  (hints.lookup path).any (·.sensitive = some true)

/-- The paths from the second part of a hint's path on. -/
def lookupTail (joinedPath : String) : List String → List String
  | [] => []
  | part :: rest =>
    let path := joinedPath ++ "." ++ part
    (if endsWith part "[]" then [joinedPath ++ "." ++ dropEnd part 2] else []) ++ path :: lookupTail path rest

def lookupPaths (path : String) : List String :=
  match (path.toList.splitOn '.').map String.ofList with
  | [] => []
  | first :: rest =>
    first :: (if endsWith first "[]" then [dropEnd first 2] else []) ++ lookupTail first rest

/-- Every path on the way to a sensitive hint. Arrays need two entries, as their first
lookup is done before the code knows that it is an array. -/
def buildRedactionLookup (hints : ConfigUiHints) : List String :=
  let result := hints.flatMap fun (path, hint) => if hint.sensitive = some true then lookupPaths path else []
  if result = [] then [] else "" :: result

example : buildRedactionLookup [("a.b[].c", {sensitive := some true})] = ["", "a", "a.b", "a.b[]", "a.b[].c"] := by
  decide

end OpenClaw.Config
