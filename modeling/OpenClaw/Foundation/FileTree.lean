import Mathlib.Data.List.Basic
import Mathlib.Data.List.Infix

/-! POSIX file trees and the walk along a path.

A path is absolute and normalised: the list of its names, with `/` as the empty list. A path text,
such as the text of a link, is its list of components between the slashes, where an empty
component is the same as a dot. The walk of the operating system goes from directory to directory,
takes `..` from the directory it is in, and expands at most `maxLinks` links. -/
namespace OpenClaw.Foundation.FileTree

abbrev Path := List String

inductive Component
  | here
  | parent
  | entry (name : String)
  deriving DecidableEq, Repr

structure PathText where
  absolute : Bool
  parts : List Component
  deriving DecidableEq, Repr

/-- One component taken lexically: `..` drops the last name, whatever that name is a link to. -/
def Component.lexical (cursor : Path) : Component → Path
  | .here => cursor
  | .parent => cursor.dropLast
  | .entry name => cursor ++ [name]

/-- The text resolved against a directory, without a look at the tree. -/
def PathText.resolve (base : Path) (text : PathText) : Path :=
  text.parts.foldl Component.lexical (if text.absolute then [] else base)

def Path.text (p : Path) : PathText := ⟨true, p.map .entry⟩

inductive Node
  | file
  | other
  | link (target : PathText)
  | dir (searchable : Bool) (entries : List (String × Node))

def Node.isLink : Node → Bool
  | .link _ => true
  | _ => false

theorem target_of_isLink {node : Node} (h : node.isLink = true) : ∃ target, node = .link target := by
  cases node with
  | link target => exact ⟨target, rfl⟩
  | _ => cases h

inductive Errno
  | enoent
  | enotdir
  | eacces
  | eloop
  | einval
  deriving DecidableEq, Repr

/-- What a walk comes to: an entry that is there, or a name missing from a directory. -/
inductive Place
  | existing (path : Path)
  | absent (dir : Path) (name : String)
  deriving DecidableEq, Repr

def Place.path : Place → Path
  | .existing p => p
  | .absent dir name => dir ++ [name]

def Place.Missing : Place → Prop
  | .existing _ => False
  | .absent _ _ => True

def nodeAt : Node → Path → Option Node
  | node, [] => some node
  | .dir _ entries, name :: rest => (entries.lookup name).bind (nodeAt · rest)
  | _, _ :: _ => none

section Walk

variable (root : Node)

/-- Why a walk cannot go on from a place that is not a directory it may search. -/
def refusal (cur : Path) : Option Errno :=
  match nodeAt root cur with
  | some (.dir true _) => none
  | some (.dir false _) => some .eacces
  | some _ => some .enotdir
  | none => some .enoent

/-- A walk along components from a directory; `follow` goes on from a link that is followed. -/
def walkWith (followLast : Bool) (follow : Path → List Component → Except Errno Place) :
    Path → List Component → Except Errno Place
  | cur, [] => .ok (.existing cur)
  | cur, c :: rest =>
    match refusal root cur with
    | some e => .error e
    | none =>
      match c with
      | .here => walkWith followLast follow cur rest
      | .parent => walkWith followLast follow cur.dropLast rest
      | .entry name =>
        match nodeAt root (cur ++ [name]) with
        | none => if rest.isEmpty then .ok (.absent cur name) else .error .enoent
        | some (.link target) =>
          if rest.isEmpty && !followLast then .ok (.existing (cur ++ [name]))
          else follow (if target.absolute then [] else cur) (target.parts ++ rest)
        | some _ => walkWith followLast follow (cur ++ [name]) rest

/-- The walk that expands at most so many links. -/
def walk (followLast : Bool) : Nat → Path → List Component → Except Errno Place
  | 0 => walkWith root followLast fun _ _ => .error .eloop
  | n + 1 => walkWith root followLast (walk followLast n)

end Walk

/-- A tree under its root directory, with the number of links a walk may expand. -/
structure Tree where
  searchable : Bool
  entries : List (String × Node)
  maxLinks : Nat

def Tree.root (tree : Tree) : Node := .dir tree.searchable tree.entries

/-- The walk from `/` along a path, with or without a link at its end followed. -/
def Tree.lookup (tree : Tree) (followLast : Bool) (p : Path) : Except Errno Place :=
  walk tree.root followLast tree.maxLinks [] (p.map .entry)

/-- The node at the place that a lookup comes to. -/
def Tree.nodeOf (tree : Tree) : Except Errno Place → Except Errno Node
  | .ok (.existing q) =>
    match nodeAt tree.root q with
    | some node => .ok node
    | none => .error .enoent
  | .ok (.absent _ _) => .error .enoent
  | .error e => .error e

def Tree.lstat (tree : Tree) (p : Path) : Except Errno Node := tree.nodeOf (tree.lookup false p)

def Tree.stat (tree : Tree) (p : Path) : Except Errno Node := tree.nodeOf (tree.lookup true p)

def Tree.realpath (tree : Tree) (p : Path) : Except Errno Path :=
  match tree.lookup true p with
  | .ok (.existing q) => .ok q
  | .ok (.absent _ _) => .error .enoent
  | .error e => .error e

def Tree.readlink (tree : Tree) (p : Path) : Except Errno PathText :=
  match tree.lstat p with
  | .ok (.link target) => .ok target
  | .ok _ => .error .einval
  | .error e => .error e

/-- The place that the operating system opens, creates or removes for a path. -/
def location (tree : Tree) (followLast : Bool) (p : Path) : Option Path :=
  match tree.lookup followLast p with
  | .ok place => some place.path
  | .error _ => none

@[simp] theorem resolve_text (base p : Path) : (Path.text p).resolve base = p := by
  have key : ∀ (names cursor : Path), (names.map Component.entry).foldl Component.lexical cursor =
      cursor ++ names := by
    intro names
    induction names with
    | nil =>
      intro cursor
      exact (List.append_nil cursor).symm
    | cons name rest ih =>
      intro cursor
      show (rest.map Component.entry).foldl Component.lexical (cursor ++ [name]) = cursor ++ name :: rest
      rw [ih, List.append_assoc]
      rfl
  exact key p []

end OpenClaw.Foundation.FileTree
