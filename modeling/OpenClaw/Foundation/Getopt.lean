import Mathlib.Data.List.Dedup
import Mathlib.Data.List.Infix
import OpenClaw.Foundation.EcmaString

/-! Reading the arguments of a program as `getopt_long` does.

Options and positional arguments may be mixed, up to a `--`. An option that takes a value
takes what is attached to it, or else the next argument whatever it is. A long option may
be cut short as long as only one begins that way. -/
namespace OpenClaw.Foundation.Getopt

abbrev Word := List Char

/-- The options a program knows. Flags carry their dashes. -/
structure Options where
  shorts : Char → Bool
  longs : List Word
  takesValue : Word → Bool

/-- What an argument is read as. -/
inductive Item where
  | option (flag : Word) (value : Option Word)
  /-- An option that takes no value, with one attached. -/
  | unexpectedValue (flag value : Word)
  /-- An option that takes a value, with nothing behind it. -/
  | missingValue (flag : Word)
  | unknownShort (c : Char)
  /-- A long option that is none, or that more than one begin like. -/
  | unknownLong (name : Word)
  | positional (word : Word)
  deriving Repr, DecidableEq

def Item.positional? : Item → Option Word
  | .positional word => some word
  | _ => none

/-- A name and the value attached to it. -/
def splitValue (token : Word) : Word × Option Word :=
  (token.takeWhile (· ≠ '='), if '=' ∈ token then some (token.dropWhile (· ≠ '=')).tail else none)

theorem splitValue_cons {c : Char} (hc : c ≠ '=') (rest : Word) :
    splitValue (c :: rest) = (c :: (splitValue rest).1, (splitValue rest).2) := by
  simp [splitValue, hc, Ne.symm hc]

namespace Options
variable (o : Options)

/-- The long option a name stands for. -/
def resolve (name : Word) : Option Word :=
  if name ∈ o.longs then some name
  else
    match (o.longs.filter name.isPrefixOf).dedup with
    | [flag] => some flag
    | _ => none

/-- What a long option is read as, and the flag that waits for the next argument. -/
def long (name : Word) (value : Option Word) : List Item × Option Word :=
  match o.resolve name with
  | none => ([.unknownLong name], none)
  | some flag =>
    match o.takesValue flag, value with
    | true, some value => ([.option flag (some value)], none)
    | true, none => ([], some flag)
    | false, some value => ([.unexpectedValue flag value], none)
    | false, none => ([.option flag none], none)

/-- What a cluster of short options is read as. -/
def cluster : Word → List Item × Option Word
  | [] => ([], none)
  | c :: rest =>
    if !o.shorts c then (.unknownShort c :: (cluster rest).1, (cluster rest).2)
    else if !o.takesValue ['-', c] then (.option ['-', c] none :: (cluster rest).1, (cluster rest).2)
    else if rest = [] then ([], some ['-', c])
    else ([.option ['-', c] (some rest)], none)

def token (word : Word) : List Item × Option Word :=
  match word with
  | '-' :: '-' :: _ => o.long (splitValue word).1 (splitValue word).2
  | '-' :: c :: rest => o.cluster (c :: rest)
  | _ => ([.positional word], none)

def read : List Word → List Item
  | [] => []
  | word :: rest =>
    if word = ['-', '-'] then rest.map .positional
    else
      (o.token word).1 ++
        match (o.token word).2 with
        | none => read rest
        | some flag =>
          match rest with
          | [] => [.missingValue flag]
          | value :: rest => .option flag (some value) :: read rest

/-! ### Reading step by step -/

theorem read_terminator (rest : List Word) : o.read (['-', '-'] :: rest) = rest.map .positional := by
  rw [read.eq_def]
  rfl

theorem read_done {word : Word} {items : List Item} (hword : word ≠ ['-', '-']) (h : o.token word = (items, none))
    (rest : List Word) : o.read (word :: rest) = items ++ o.read rest := by
  rw [read.eq_def]
  simp only [if_neg hword, h]

theorem read_pending {word flag : Word} {items : List Item} (hword : word ≠ ['-', '-'])
    (h : o.token word = (items, some flag)) (value : Word) (rest : List Word) :
    o.read (word :: value :: rest) = items ++ .option flag (some value) :: o.read rest := by
  rw [read.eq_def]
  simp only [if_neg hword, h]

theorem resolve_self {name : Word} (h : name ∈ o.longs) : o.resolve name = some name := if_pos h

/-- A name that only one option begins with stands for it. -/
theorem resolve_unique {name flag : Word} (hname : name ∉ o.longs) (hflag : flag ∈ o.longs) (hbegins : name <+: flag)
    (honly : ∀ other ∈ o.longs, name <+: other → other = flag) : o.resolve name = some flag := by
  have hcandidates : (o.longs.filter name.isPrefixOf).dedup = [flag] := by
    have hmem : ∀ other, other ∈ (o.longs.filter name.isPrefixOf).dedup ↔ other ∈ [flag] := by
      intro other
      rw [List.mem_dedup, List.mem_filter, List.isPrefixOf_iff_prefix, List.mem_singleton]
      constructor
      · rintro ⟨hother, hpre⟩
        exact honly other hother hpre
      · rintro rfl
        exact ⟨hflag, hbegins⟩
    exact List.perm_singleton.mp ((List.perm_ext_iff_of_nodup (List.nodup_dedup _) (List.nodup_singleton _)).mpr hmem)
  rw [resolve, if_neg hname, hcandidates]

end Options

end OpenClaw.Foundation.Getopt
