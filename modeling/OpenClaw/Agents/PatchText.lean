import Mathlib.Data.List.Sort
import Mathlib.Data.List.SplitOn
import OpenClaw.Foundation.EcmaString
import OpenClaw.Foundation.MapM

/-! The text of a patch, and what an update makes of a file.

A patch is read hunk by hunk; every hunk takes at least its own header, so reading ends.
An update finds the old lines of each chunk in the file, first literally and then more and
more leniently, and replaces them from the last to the first. -/
namespace OpenClaw.Agents
open Foundation (bind_ok_iff)
open Foundation.EcmaString

abbrev Text := List Char

/-! ### Hunks -/

structure UpdateFileChunk where
  changeContext : Option Text := none
  oldLines : List Text := []
  newLines : List Text := []
  isEndOfFile : Bool := false
  deriving Repr, DecidableEq

inductive Hunk where
  | add (path contents : Text)
  | delete (path : Text)
  | update (path : Text) (movePath : Option Text) (chunks : List UpdateFileChunk)
  deriving Repr, DecidableEq

def beginPatchMarker : Text := "*** Begin Patch".toList
def endPatchMarker : Text := "*** End Patch".toList
def addFileMarker : Text := "*** Add File: ".toList
def deleteFileMarker : Text := "*** Delete File: ".toList
def updateFileMarker : Text := "*** Update File: ".toList
def moveToMarker : Text := "*** Move to: ".toList
def eofMarker : Text := "*** End of File".toList
def changeContextMarker : Text := "@@ ".toList
def emptyChangeContextMarker : Text := "@@".toList

/-- `split(/\r?\n/)`. -/
def splitLines : Text → List Text
  | [] => [[]]
  | '\r' :: '\n' :: rest => [] :: splitLines rest
  | '\n' :: rest => [] :: splitLines rest
  | c :: rest =>
    match splitLines rest with
    | [] => [[c]]
    | line :: lines => (c :: line) :: lines

variable (lines : List Text)

/-- `lines.join("\n")`. -/
def joinLines : Text := ['\n'].intercalate lines

/-! ### Reading a patch -/

def checkPatchBoundariesStrict : Option String :=
  let firstLine := lines.head?.map trimChars
  let lastLine := lines.getLast?.map trimChars
  if firstLine = some beginPatchMarker ∧ lastLine = some endPatchMarker then none
  else if firstLine ≠ some beginPatchMarker then some "The first line of the patch must be '*** Begin Patch'"
  else some "The last line of the patch must be '*** End Patch'"

/-- The lines without a heredoc around them. -/
def checkPatchBoundariesLenient : Except String (List Text) :=
  match checkPatchBoundariesStrict lines with
  | none => .ok lines
  | some strictError =>
    if lines.length < 4 then .error strictError
    else
      let first := lines.headD []
      let last := lines.getLastD []
      if (first = "<<EOF".toList ∨ first = "<<'EOF'".toList ∨ first = "<<\"EOF\"".toList) ∧
          "EOF".toList.isSuffixOf last then
        let inner := (lines.drop 1).dropLast
        match checkPatchBoundariesStrict inner with
        | none => .ok inner
        | some innerError => .error innerError
      else .error strictError

/-- The lines of a chunk, up to the first that is none of its own. -/
def readChunkLines (lineNumber parsedLines : Nat) (chunk : UpdateFileChunk) :
    List Text → Except String (UpdateFileChunk × Nat)
  | [] => .ok (chunk, parsedLines)
  | line :: rest =>
    if line = eofMarker then
      if parsedLines = 0 then
        .error s!"Invalid patch hunk at line {lineNumber + 1}: Update hunk does not contain any lines"
      else .ok ({chunk with isEndOfFile := true}, parsedLines + 1)
    else
      match line with
      | [] =>
        readChunkLines lineNumber (parsedLines + 1)
          {chunk with oldLines := chunk.oldLines ++ [[]], newLines := chunk.newLines ++ [[]]} rest
      | ' ' :: content =>
        readChunkLines lineNumber (parsedLines + 1)
          {chunk with oldLines := chunk.oldLines ++ [content], newLines := chunk.newLines ++ [content]} rest
      | '+' :: content =>
        readChunkLines lineNumber (parsedLines + 1) {chunk with newLines := chunk.newLines ++ [content]} rest
      | '-' :: content =>
        readChunkLines lineNumber (parsedLines + 1) {chunk with oldLines := chunk.oldLines ++ [content]} rest
      | _ =>
        if parsedLines = 0 then
          .error (s!"Invalid patch hunk at line {lineNumber + 1}: Unexpected line found in update hunk: " ++
            s!"'{String.ofList line}'. Every line should start with ' ' (context line), '+' (added line), " ++
            "or '-' (removed line)")
        else .ok (chunk, parsedLines)

/-- The context marker of a chunk and the lines it takes. -/
def readChangeContext (first : Text) (lineNumber : Nat) (allowMissingContext : Bool) :
    Except String (Option Text × Nat) :=
  if first = emptyChangeContextMarker then .ok (none, 1)
  else if changeContextMarker.isPrefixOf first then .ok (some (first.drop changeContextMarker.length), 1)
  else if !allowMissingContext then
    .error (s!"Invalid patch hunk at line {lineNumber}: Expected update hunk to start with a @@ context marker, " ++
      s!"got: '{String.ofList first}'")
  else .ok (none, 0)

def parseUpdateFileChunk (lineNumber : Nat) (allowMissingContext : Bool) :
    Except String (UpdateFileChunk × Nat) :=
  if lines = [] then .error s!"Invalid patch hunk at line {lineNumber}: Update hunk does not contain any lines"
  else do
    let (changeContext, startIndex) ← readChangeContext (lines.headD []) lineNumber allowMissingContext
    if startIndex ≥ lines.length then
      .error s!"Invalid patch hunk at line {lineNumber + 1}: Update hunk does not contain any lines"
    else do
      let (chunk, parsedLines) ← readChunkLines lineNumber 0 {changeContext} (lines.drop startIndex)
      return (chunk, parsedLines + startIndex)

/-- The chunks of an update and the lines they take; `skip` lines were already read. -/
def readChunks (lineNumber : Nat) :
    Nat → Nat → List UpdateFileChunk → List Text → Except String (List UpdateFileChunk × Nat)
  | _, consumed, chunks, [] => .ok (chunks, consumed)
  | skip + 1, consumed, chunks, _ :: rest => readChunks lineNumber skip consumed chunks rest
  | 0, consumed, chunks, line :: rest =>
    if trimChars line = [] then readChunks lineNumber 0 (consumed + 1) chunks rest
    else if "***".toList.isPrefixOf line then .ok (chunks, consumed)
    else do
      let (chunk, chunkLines) ← parseUpdateFileChunk (line :: rest) (lineNumber + consumed) (chunks.length = 0)
      readChunks lineNumber (chunkLines - 1) (consumed + chunkLines) (chunks ++ [chunk]) rest

def parseOneHunk (lineNumber : Nat) : Except String (Hunk × Nat) :=
  match lines with
  | [] => .error s!"Invalid patch hunk at line {lineNumber}: empty hunk"
  | line :: rest =>
    let firstLine := trimChars line
    if addFileMarker.isPrefixOf firstLine then
      let added := rest.takeWhile fun l => l.head? = some '+'
      .ok (.add (firstLine.drop addFileMarker.length) (added.flatMap fun l => l.drop 1 ++ ['\n']), 1 + added.length)
    else if deleteFileMarker.isPrefixOf firstLine then .ok (.delete (firstLine.drop deleteFileMarker.length), 1)
    else if updateFileMarker.isPrefixOf firstLine then do
      let targetPath := firstLine.drop updateFileMarker.length
      let moveCandidate := (rest.head?.map trimChars).filter moveToMarker.isPrefixOf
      let movePath := moveCandidate.map (·.drop moveToMarker.length)
      let moved := if movePath.isSome then 1 else 0
      let (chunks, consumed) ← readChunks lineNumber 0 (1 + moved) [] (rest.drop moved)
      if chunks.length = 0 then
        .error (s!"Invalid patch hunk at line {lineNumber}: " ++
          s!"Update file hunk for path '{String.ofList targetPath}' is empty")
      else return (.update targetPath movePath chunks, consumed)
    else
      .error (s!"Invalid patch hunk at line {lineNumber}: '{String.ofList line}' is not a valid hunk header. " ++
        "Valid hunk headers: '*** Add File: \x7bpath\x7d', '*** Delete File: \x7bpath\x7d', " ++
        "'*** Update File: \x7bpath\x7d'")

/-- The hunks, one after the other; `skip` lines were already read. -/
def parseHunks : Nat → Nat → List Text → Except String (List Hunk)
  | _, _, [] => .ok []
  | skip + 1, lineNumber, _ :: rest => parseHunks skip lineNumber rest
  | 0, lineNumber, line :: rest => do
    let (hunk, consumed) ← parseOneHunk (line :: rest) lineNumber
    let hunks ← parseHunks (consumed - 1) (lineNumber + consumed) rest
    return hunk :: hunks

def parsePatchText (input : Text) : Except String (List Hunk) :=
  let trimmed := trimChars input
  if trimmed = [] then .error "Invalid patch: input is empty."
  else do
    let validated ← checkPatchBoundariesLenient (splitLines trimmed)
    parseHunks 0 2 (validated.drop 1).dropLast

/-! ### Every hunk takes lines -/

/-! ### Updating a file -/

/-- `trimEnd`. -/
def trimEndChars (l : Text) : Text := l.rdropWhile isWhiteSpace

/-- The plain spelling of a typographic character. -/
def normalizeChar (c : Char) : Char :=
  if c.toNat ∈ [0x2010, 0x2011, 0x2012, 0x2013, 0x2014, 0x2015, 0x2212] then '-'
  else if c.toNat ∈ [0x2018, 0x2019, 0x201A, 0x201B] then '\''
  else if c.toNat ∈ [0x201C, 0x201D, 0x201E, 0x201F] then '\u0022'
  else if c.toNat ∈ [0x00A0, 0x2002, 0x2003, 0x2004, 0x2005, 0x2006, 0x2007, 0x2008, 0x2009, 0x200A, 0x202F,
    0x205F, 0x3000] then ' '
  else c

def normalizePunctuation (value : Text) : Text := value.map normalizeChar

def linesMatch (pattern : List Text) (start : Nat) (normalize : Text → Text) : Bool :=
  ((lines.drop start).take pattern.length).map normalize = pattern.map normalize

/-- The places from `start` to `maxStart`, in order, that satisfy `p`. -/
def firstFrom (start maxStart : Nat) (p : Nat → Bool) : Option Nat :=
  (List.range' start (maxStart + 1 - start)).find? p

def seekSequence (pattern : List Text) (start : Nat) (eof : Bool) : Option Nat :=
  if pattern.length = 0 then some start
  else if pattern.length > lines.length then none
  else
    let maxStart := lines.length - pattern.length
    let searchStart := if eof then maxStart else start
    if searchStart > maxStart then none
    else
      (firstFrom searchStart maxStart fun i => linesMatch lines pattern i id).or
        ((firstFrom searchStart maxStart fun i => linesMatch lines pattern i trimEndChars).or
          ((firstFrom searchStart maxStart fun i => linesMatch lines pattern i trimChars).or
            (firstFrom searchStart maxStart fun i =>
              linesMatch lines pattern i fun value => normalizePunctuation (trimChars value))))

/-- Old lines from an index on, and the lines that take their place. -/
structure Replacement where
  start : Nat
  oldLen : Nat
  newLines : List Text
  deriving Repr, DecidableEq

/-- Where the old lines of a chunk are found; a last empty line may be missing in the file. -/
def findOldLines (originalLines : List Text) (chunk : UpdateFileChunk) (lineIndex : Nat) : Option Replacement :=
  match seekSequence originalLines chunk.oldLines lineIndex chunk.isEndOfFile with
  | some found => some ⟨found, chunk.oldLines.length, chunk.newLines⟩
  | none =>
    if chunk.oldLines.getLast? = some [] then
      let pattern := chunk.oldLines.dropLast
      let newSlice := if chunk.newLines.getLast? = some [] then chunk.newLines.dropLast else chunk.newLines
      (seekSequence originalLines pattern lineIndex chunk.isEndOfFile).map (⟨·, pattern.length, newSlice⟩)
    else none

/-- The replacements in the order of the chunks. -/
def findReplacements (originalLines : List Text) (filePath : Text) :
    Nat → List UpdateFileChunk → Except String (List Replacement)
  | _, [] => .ok []
  | lineIndex, chunk :: rest => do
    let lineIndex ←
      match chunk.changeContext.filter (· ≠ []) with
      | none => .ok lineIndex
      | some context =>
        match seekSequence originalLines [context] lineIndex false with
        | none => .error s!"Failed to find context '{String.ofList context}' in {String.ofList filePath}"
        | some ctxIndex => .ok (ctxIndex + 1)
    if chunk.oldLines.length = 0 then do
      let insertionIndex :=
        if originalLines.getLast? = some [] then originalLines.length - 1 else originalLines.length
      let others ← findReplacements originalLines filePath lineIndex rest
      return ⟨insertionIndex, 0, chunk.newLines⟩ :: others
    else
      match findOldLines originalLines chunk lineIndex with
      | none => .error s!"Failed to find expected lines in {String.ofList filePath}:\n{String.ofList (joinLines chunk.oldLines)}"
      | some found => do
        let others ← findReplacements originalLines filePath (found.start + found.oldLen) rest
        return found :: others

def computeReplacements (originalLines : List Text) (filePath : Text) (chunks : List UpdateFileChunk) :
    Except String (List Replacement) :=
  (findReplacements originalLines filePath 0 chunks).map (·.insertionSort fun a b => a.start ≤ b.start)

/-- The last replacement first, so that the places of the others stay valid. -/
def applyReplacements (replacements : List Replacement) : List Text :=
  replacements.foldr (fun r result => result.take r.start ++ r.newLines ++ result.drop (r.start + r.oldLen)) lines

def applyUpdateHunk (filePath : Text) (originalContents : Text) (chunks : List UpdateFileChunk) :
    Except String Text := do
  let originalLines := originalContents.splitOn '\n'
  let originalLines := if originalLines.getLast? = some [] then originalLines.dropLast else originalLines
  let replacements ← computeReplacements originalLines filePath chunks
  let newLines := applyReplacements originalLines replacements
  let newLines := if newLines.getLast? = some [] then newLines else newLines ++ [[]]
  return joinLines newLines

end OpenClaw.Agents
