import OpenClaw.Foundation.FileTree
import OpenClaw.Foundation.EcmaString

/-! Boundary paths: where a path under a root leads, with its links resolved.

`resolveBoundaryPath` walks the path below the root one segment at a time, with a lexical cursor
that it reads and a canonical one that it returns. A link that leads somewhere is replaced by its
real path; a link that leads nowhere is read once, and what it names is resolved through the
nearest ancestor that exists. The asynchronous and the synchronous version differ in what they take
for existing: the first asks `lstat`, the second `existsSync`. Paths are POSIX paths, and the tree
does not change while a path is resolved. -/
namespace OpenClaw.Boundary
open Foundation.FileTree Foundation.EcmaString

/-! ### Path guards -/

def isNotFoundPathError : Errno → Bool
  | .enoent => true
  | .enotdir => true
  | _ => false

/-- `path.relative`, by segments. -/
def relative : Path → Path → List String
  | [], target => target
  | root, [] => root.map fun _ => ".."
  | a :: root, b :: target =>
    if a = b then relative root target else (a :: root).map (fun _ => "..") ++ b :: target

def isPathInside (root target : Path) : Bool :=
  match relative root target with
  | [] => true
  | first :: _ => !startsWith first ".."

/-! ### Parameters, results and errors -/

structure BoundaryPathAliasPolicy where
  allowFinalSymlinkForUnlink : Bool
  deriving DecidableEq, Repr

def BoundaryPathAliasPolicy.strict : BoundaryPathAliasPolicy := ⟨false⟩

def BoundaryPathAliasPolicy.unlinkTarget : BoundaryPathAliasPolicy := ⟨true⟩

/-- `rootCanonicalPath` is absent where the source has no text or an empty one. -/
structure ResolveBoundaryPathParams where
  absolutePath : PathText
  rootPath : PathText
  boundaryLabel : String
  policy : Option BoundaryPathAliasPolicy := none
  skipLexicalRootCheck : Bool := false
  rootCanonicalPath : Option PathText := none

inductive ResolvedBoundaryPathKind
  | missing
  | file
  | directory
  | symlink
  | other
  deriving DecidableEq, Repr

structure PathKind where
  found : Bool
  kind : ResolvedBoundaryPathKind
  deriving DecidableEq, Repr

structure ResolvedBoundaryPath where
  absolutePath : Path
  canonicalPath : Path
  rootPath : Path
  rootCanonicalPath : Path
  relativePath : Path
  found : Bool
  kind : ResolvedBoundaryPathKind
  deriving DecidableEq, Repr

inductive BoundaryPathError
  | system (errno : Errno)
  | resolvesOutside (boundaryLabel : String) (rootCanonicalPath absolutePath : Path)
  | pathEscape (boundaryLabel : String) (rootPath absolutePath : Path)
  | symlinkEscape (boundaryLabel : String) (rootCanonicalPath symlinkPath : Path)
  deriving DecidableEq, Repr

def pathString (p : Path) : String := "/" ++ "/".intercalate p

def shortPath (home value : String) : String :=
  if startsWith value home then "~" ++ String.ofList (value.toList.drop home.length) else value

/-- The message of an error of this module's own. -/
def BoundaryPathError.message (home : String) : BoundaryPathError → Option String
  | .system _ => none
  | .resolvesOutside label root absolutePath =>
    some ("Path resolves outside " ++ label ++ " (" ++ shortPath home (pathString root) ++ "): " ++
      shortPath home (pathString absolutePath))
  | .pathEscape label root absolutePath =>
    some ("Path escapes " ++ label ++ " (" ++ shortPath home (pathString root) ++ "): " ++
      shortPath home (pathString absolutePath))
  | .symlinkEscape label root symlinkPath =>
    some ("Symlink escapes " ++ label ++ " (" ++ shortPath home (pathString root) ++ "): " ++
      shortPath home (pathString symlinkPath))

def system {α : Type} : Except Errno α → Except BoundaryPathError α := Except.mapError .system

/-! ### The nearest ancestor that exists -/

section Ancestors

variable (tree : Tree) (cwd : Path)

def pathExists (p : Path) : Except Errno Bool :=
  match tree.lstat p with
  | .ok _ => .ok true
  | .error e => if isNotFoundPathError e then .ok false else .error e

def existsSync (p : Path) : Bool :=
  match tree.stat p with
  | .ok _ => true
  | .error _ => false

/-- The loop of both versions: the cursor, held from its last segment up, goes to its parent until
`test` finds it, and the segments it leaves are the missing suffix. -/
def existingAncestor (test : Path → Except Errno Bool) : List String → Path → Except Errno (Path × Path)
  | [], missingSuffix => .ok ([], missingSuffix)
  | name :: above, missingSuffix =>
    match test (name :: above).reverse with
    | .error e => .error e
    | .ok true => .ok ((name :: above).reverse, missingSuffix)
    | .ok false => existingAncestor test above (name :: missingSuffix)

def resolveFromAncestor (test : Path → Except Errno Bool) (normalized : Path) : Except Errno Path := do
  let (cursor, missingSuffix) ← existingAncestor test normalized.reverse []
  if ← test cursor then
    match tree.realpath cursor with
    | .ok resolvedAncestor => return resolvedAncestor ++ missingSuffix
    | .error _ => return normalized
  else
    return normalized

def resolvePathViaExistingAncestor (targetPath : PathText) : Except Errno Path :=
  resolveFromAncestor tree (pathExists tree) (targetPath.resolve cwd)

def resolvePathViaExistingAncestorSync (targetPath : PathText) : Except Errno Path :=
  resolveFromAncestor tree (fun p => .ok (existsSync tree p)) (targetPath.resolve cwd)

/-- Where a link leads: its real path, or what its text names when it leads nowhere. -/
def symlinkHopPath (viaExistingAncestor : PathText → Except Errno Path) (symlinkPath : Path) : Except Errno Path :=
  match tree.realpath symlinkPath with
  | .ok real => .ok real
  | .error e =>
    if isNotFoundPathError e then do
      let linkTarget ← tree.readlink symlinkPath
      viaExistingAncestor (Path.text (linkTarget.resolve symlinkPath.dropLast))
    else
      .error e

def resolveSymlinkHopPath : Path → Except Errno Path :=
  symlinkHopPath tree (resolvePathViaExistingAncestor tree cwd)

def resolveSymlinkHopPathSync : Path → Except Errno Path :=
  symlinkHopPath tree (resolvePathViaExistingAncestorSync tree cwd)

end Ancestors

/-! ### Kinds and results -/

def toResolvedKind : Node → ResolvedBoundaryPathKind
  | .file => .file
  | .dir _ _ => .directory
  | .link _ => .symlink
  | .other => .other

def getPathKind (tree : Tree) (absolutePath : Path) (preserveFinalSymlink : Bool) : Except Errno PathKind :=
  match if preserveFinalSymlink then tree.lstat absolutePath else tree.stat absolutePath with
  | .ok node => .ok ⟨true, toResolvedKind node⟩
  | .error e => if isNotFoundPathError e then .ok ⟨false, .missing⟩ else .error e

def relativeInsideRoot (rootPath targetPath : Path) : Path :=
  if isPathInside rootPath targetPath then relative rootPath targetPath else []

def assertInsideBoundary (boundaryLabel : String) (rootCanonicalPath candidatePath absolutePath : Path) :
    Except BoundaryPathError Unit :=
  if isPathInside rootCanonicalPath candidatePath then .ok ()
  else .error (.resolvesOutside boundaryLabel rootCanonicalPath absolutePath)

def buildResolvedBoundaryPath (absolutePath canonicalPath rootPath rootCanonicalPath : Path) (kind : PathKind) :
    ResolvedBoundaryPath where
  absolutePath := absolutePath
  canonicalPath := canonicalPath
  rootPath := rootPath
  rootCanonicalPath := rootCanonicalPath
  relativePath := relativeInsideRoot rootCanonicalPath canonicalPath
  found := kind.found
  kind := kind.kind

/-! ### The walk below the root -/

structure LexicalTraversalState where
  canonicalCursor : Path
  lexicalCursor : Path
  preserveFinalSymlink : Bool
  deriving DecidableEq, Repr

inductive LexicalStatDisposition
  | next
  | stop
  | resolveLink

section Traversal

variable (tree : Tree) (params : ResolveBoundaryPathParams) (rootPath rootCanonicalPath absolutePath : Path)

def allowFinalSymlink : Bool := params.policy.any (·.allowFinalSymlinkForUnlink)

/-- The canonical cursor moved along segments, as long as it stays inside. -/
def advanceCanonicalCursor (state : LexicalTraversalState) (segments : Path) :
    Except BoundaryPathError LexicalTraversalState := do
  let canonicalCursor := state.canonicalCursor ++ segments
  assertInsideBoundary params.boundaryLabel rootCanonicalPath canonicalCursor absolutePath
  return {state with canonicalCursor := canonicalCursor}

def applyMissingSuffixToCanonicalCursor (state : LexicalTraversalState) (missingSuffix : Path) :
    Except BoundaryPathError LexicalTraversalState :=
  advanceCanonicalCursor params rootCanonicalPath absolutePath state missingSuffix

def advanceCanonicalCursorForSegment (state : LexicalTraversalState) (segment : String) :
    Except BoundaryPathError LexicalTraversalState :=
  advanceCanonicalCursor params rootCanonicalPath absolutePath state [segment]

def handleLexicalStatDisposition (state : LexicalTraversalState) (isSymbolicLink : Bool) (segment : String)
    (isLast : Bool) : Except BoundaryPathError (LexicalTraversalState × LexicalStatDisposition) :=
  if !isSymbolicLink then do
    return (← advanceCanonicalCursorForSegment params rootCanonicalPath absolutePath state segment, .next)
  else if allowFinalSymlink params && isLast then do
    let state := {state with preserveFinalSymlink := true}
    return (← advanceCanonicalCursorForSegment params rootCanonicalPath absolutePath state segment, .stop)
  else
    return (state, .resolveLink)

def applyResolvedSymlinkHop (state : LexicalTraversalState) (linkCanonical : Path) :
    Except BoundaryPathError LexicalTraversalState :=
  if isPathInside rootCanonicalPath linkCanonical then
    .ok {state with canonicalCursor := linkCanonical, lexicalCursor := linkCanonical}
  else
    .error (.symlinkEscape params.boundaryLabel rootCanonicalPath state.lexicalCursor)

/-- The loop of both versions over the segments that are left. -/
def lexicalTraversal (resolveLinkCanonical : Path → Except Errno Path) :
    LexicalTraversalState → Path → Except BoundaryPathError LexicalTraversalState
  | state, [] => .ok state
  | state, segment :: rest => do
    let state := {state with lexicalCursor := state.lexicalCursor ++ [segment]}
    match tree.lstat state.lexicalCursor with
    | .error e =>
      -- nothing there: the rest of the path is taken as it is written
      if isNotFoundPathError e then
        applyMissingSuffixToCanonicalCursor params rootCanonicalPath absolutePath state (segment :: rest)
      else
        .error (.system e)
    | .ok stat =>
      let (state, disposition) ←
        handleLexicalStatDisposition params rootCanonicalPath absolutePath state stat.isLink segment rest.isEmpty
      match disposition with
      | .next => lexicalTraversal resolveLinkCanonical state rest
      | .stop => return state
      | .resolveLink =>
        let linkCanonical ← system (resolveLinkCanonical state.lexicalCursor)
        let state ← applyResolvedSymlinkHop params rootCanonicalPath state linkCanonical
        lexicalTraversal resolveLinkCanonical state rest

section Steps

variable {tree params rootCanonicalPath absolutePath} {resolveLinkCanonical : Path → Except Errno Path}
  {state : LexicalTraversalState} {segment : String} {rest : Path} {stat : Node} {e : Errno}

theorem lexicalTraversal_failed (h : tree.lstat (state.lexicalCursor ++ [segment]) = .error e) :
    lexicalTraversal tree params rootCanonicalPath absolutePath resolveLinkCanonical state (segment :: rest) =
      if isNotFoundPathError e then
        applyMissingSuffixToCanonicalCursor params rootCanonicalPath absolutePath
          {state with lexicalCursor := state.lexicalCursor ++ [segment]} (segment :: rest)
      else .error (.system e) := by
  rw [lexicalTraversal, h]

section
variable (h : tree.lstat (state.lexicalCursor ++ [segment]) = .ok stat)
include h

theorem lexicalTraversal_plain (hlink : stat.isLink = false) :
    lexicalTraversal tree params rootCanonicalPath absolutePath resolveLinkCanonical state (segment :: rest) =
      advanceCanonicalCursorForSegment params rootCanonicalPath absolutePath
          {state with lexicalCursor := state.lexicalCursor ++ [segment]} segment >>= fun state =>
        lexicalTraversal tree params rootCanonicalPath absolutePath resolveLinkCanonical state rest := by
  rw [lexicalTraversal, h]
  unfold handleLexicalStatDisposition
  simp only [hlink]
  cases advanceCanonicalCursorForSegment params rootCanonicalPath absolutePath
    {state with lexicalCursor := state.lexicalCursor ++ [segment]} segment <;> rfl

theorem lexicalTraversal_preserved (hlink : stat.isLink = true)
    (hlast : (allowFinalSymlink params && rest.isEmpty) = true) :
    lexicalTraversal tree params rootCanonicalPath absolutePath resolveLinkCanonical state (segment :: rest) =
      advanceCanonicalCursorForSegment params rootCanonicalPath absolutePath
        ⟨state.canonicalCursor, state.lexicalCursor ++ [segment], true⟩ segment := by
  rw [lexicalTraversal, h]
  unfold handleLexicalStatDisposition
  simp only [hlink, hlast]
  cases advanceCanonicalCursorForSegment params rootCanonicalPath absolutePath
    ⟨state.canonicalCursor, state.lexicalCursor ++ [segment], true⟩ segment <;> rfl

theorem lexicalTraversal_link (hlink : stat.isLink = true)
    (hlast : (allowFinalSymlink params && rest.isEmpty) = false) :
    lexicalTraversal tree params rootCanonicalPath absolutePath resolveLinkCanonical state (segment :: rest) =
      system (resolveLinkCanonical (state.lexicalCursor ++ [segment])) >>= fun linkCanonical =>
        applyResolvedSymlinkHop params rootCanonicalPath
            {state with lexicalCursor := state.lexicalCursor ++ [segment]} linkCanonical >>= fun state =>
          lexicalTraversal tree params rootCanonicalPath absolutePath resolveLinkCanonical state rest := by
  rw [lexicalTraversal, h]
  unfold handleLexicalStatDisposition
  simp only [hlink, hlast]
  rfl

end

end Steps

def finalizeLexicalResolution (state : LexicalTraversalState) (kind : PathKind) :
    Except BoundaryPathError ResolvedBoundaryPath := do
  assertInsideBoundary params.boundaryLabel rootCanonicalPath state.canonicalCursor absolutePath
  return buildResolvedBoundaryPath absolutePath state.canonicalCursor rootPath rootCanonicalPath kind

def lexicalResolution (resolveLinkCanonical : Path → Except Errno Path) :
    Except BoundaryPathError ResolvedBoundaryPath := do
  let state ← lexicalTraversal tree params rootCanonicalPath absolutePath resolveLinkCanonical
    ⟨rootCanonicalPath, rootPath, false⟩ (relative rootPath absolutePath)
  let kind ← system (getPathKind tree absolutePath state.preserveFinalSymlink)
  finalizeLexicalResolution params rootPath rootCanonicalPath absolutePath state kind

end Traversal

section Lexical

variable (tree : Tree) (cwd : Path) (params : ResolveBoundaryPathParams) (rootPath rootCanonicalPath absolutePath : Path)

def resolveBoundaryPathLexicalAsync : Except BoundaryPathError ResolvedBoundaryPath :=
  lexicalResolution tree params rootPath rootCanonicalPath absolutePath (resolveSymlinkHopPath tree cwd)

def resolveBoundaryPathLexicalSync : Except BoundaryPathError ResolvedBoundaryPath :=
  lexicalResolution tree params rootPath rootCanonicalPath absolutePath (resolveSymlinkHopPathSync tree cwd)

end Lexical

/-! ### The resolvers -/

structure BoundaryResolutionContext where
  rootPath : Path
  absolutePath : Path
  rootCanonicalPath : Path
  lexicalInside : Bool
  canonicalOutsideLexicalPath : Path

section Resolvers

variable (tree : Tree) (cwd : Path) (params : ResolveBoundaryPathParams)

def assertLexicalBoundaryOrCanonicalAlias (lexicalInside : Bool)
    (canonicalOutsideLexicalPath rootCanonicalPath rootPath absolutePath : Path) : Except BoundaryPathError Unit :=
  if params.skipLexicalRootCheck || lexicalInside then .ok ()
  else if isPathInside rootCanonicalPath canonicalOutsideLexicalPath then .ok ()
  else .error (.pathEscape params.boundaryLabel rootPath absolutePath)

def createBoundaryResolutionContext (rootPath absolutePath rootCanonicalPath : Path)
    (outsideLexicalCanonicalPath : Option Path) : Except BoundaryPathError BoundaryResolutionContext := do
  let lexicalInside := isPathInside rootPath absolutePath
  let canonicalOutsideLexicalPath := outsideLexicalCanonicalPath.getD absolutePath
  assertLexicalBoundaryOrCanonicalAlias params lexicalInside canonicalOutsideLexicalPath rootCanonicalPath rootPath
    absolutePath
  return ⟨rootPath, absolutePath, rootCanonicalPath, lexicalInside, canonicalOutsideLexicalPath⟩

def resolveOutsideBoundaryPath (context : BoundaryResolutionContext) :
    Except BoundaryPathError (Option ResolvedBoundaryPath) :=
  if context.lexicalInside then .ok none
  else do
    let kind ← system (getPathKind tree context.absolutePath false)
    assertInsideBoundary params.boundaryLabel context.rootCanonicalPath context.canonicalOutsideLexicalPath
      context.absolutePath
    return some (buildResolvedBoundaryPath context.absolutePath context.canonicalOutsideLexicalPath context.rootPath
      context.rootCanonicalPath kind)

def resolveOutsideLexicalCanonicalPath (viaExistingAncestor : PathText → Except Errno Path)
    (rootPath absolutePath : Path) : Except Errno (Option Path) :=
  if isPathInside rootPath absolutePath then .ok none
  else some <$> viaExistingAncestor (Path.text absolutePath)

def resolveRootCanonicalPath (viaExistingAncestor : PathText → Except Errno Path) (rootPath : Path) :
    Except BoundaryPathError Path :=
  match params.rootCanonicalPath with
  | some given => .ok (given.resolve cwd)
  | none => system (viaExistingAncestor (Path.text rootPath))

def resolveAgainstRoot (viaExistingAncestor : PathText → Except Errno Path)
    (lexical : Path → Path → Path → Except BoundaryPathError ResolvedBoundaryPath)
    (rootPath absolutePath rootCanonicalPath : Path) : Except BoundaryPathError ResolvedBoundaryPath := do
  let outside ← system (resolveOutsideLexicalCanonicalPath viaExistingAncestor rootPath absolutePath)
  let context ← createBoundaryResolutionContext params rootPath absolutePath rootCanonicalPath outside
  match ← resolveOutsideBoundaryPath tree params context with
  | some outsideResult => return outsideResult
  | none => lexical context.rootPath context.rootCanonicalPath context.absolutePath

/-- Both versions, given how a path is resolved through an existing ancestor and how one inside the
root is walked. -/
def resolveBoundaryPathVia (viaExistingAncestor : PathText → Except Errno Path)
    (lexical : Path → Path → Path → Except BoundaryPathError ResolvedBoundaryPath) :
    Except BoundaryPathError ResolvedBoundaryPath := do
  let rootCanonicalPath ← resolveRootCanonicalPath cwd params viaExistingAncestor (params.rootPath.resolve cwd)
  resolveAgainstRoot tree params viaExistingAncestor lexical (params.rootPath.resolve cwd)
    (params.absolutePath.resolve cwd) rootCanonicalPath

def resolveBoundaryPath : Except BoundaryPathError ResolvedBoundaryPath :=
  resolveBoundaryPathVia tree cwd params (resolvePathViaExistingAncestor tree cwd)
    (resolveBoundaryPathLexicalAsync tree cwd params)

def resolveBoundaryPathSync : Except BoundaryPathError ResolvedBoundaryPath :=
  resolveBoundaryPathVia tree cwd params (resolvePathViaExistingAncestorSync tree cwd)
    (resolveBoundaryPathLexicalSync tree cwd params)

end Resolvers

end OpenClaw.Boundary
