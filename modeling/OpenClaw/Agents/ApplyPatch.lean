import Mathlib.Logic.Function.Basic
import OpenClaw.Agents.PatchText

/-! What a patch leaves in the files it touches.

The hunks of a patch run one after the other on the file system. A move writes the new
file and then removes the old one, also when both are the same file: whatever was written
is gone. `Relinquishes` says of a patch that this never comes last, and that is exactly
when every file ends up as the last hunk that touches it says (`applyPatch_leaves_iff`).

What belongs to the machine is a `PatchHost`: how a path is resolved, which file a resolved
path names, and what the system refuses. Two spellings may name one file; links are not
followed, as the default policy refuses a path through one. -/
namespace OpenClaw.Agents
open Foundation (bind_ok_iff)
variable {ι : Type} [DecidableEq ι]

/-- The files and their contents. -/
abbrev Files (ι : Type) := ι → Option Text

inductive PathAliasPolicy where
  | strict
  | unlinkTarget
  deriving Repr, DecidableEq

inductive FileOp where
  | resolve (policy : PathAliasPolicy)
  | mkdirp
  | read
  | write
  | remove
  deriving Repr, DecidableEq

structure PatchHost (ι : Type) where
  /-- The `resolved` path of `resolvePatchPath`. -/
  resolvePath : Text → Text
  /-- `toDisplayPath`. -/
  displayPath : Text → Text
  /-- The file a resolved path names. -/
  file : Text → ι
  /-- The error of an operation the system or a path check refuses. -/
  refuses : FileOp → Text → Files ι → Option String

structure ApplyPatchSummary where
  added : List Text := []
  modified : List Text := []
  deleted : List Text := []
  deriving Repr, DecidableEq

structure PatchTarget where
  resolved : Text
  display : Text
  deriving Repr, DecidableEq

variable {files files' final : Files ι} {hunk : Hunk} {summary last : ApplyPatchSummary}

section Host
variable (host : PatchHost ι)

def permit (op : FileOp) (path : Text) (files : Files ι) : Except String Unit :=
  match host.refuses op path files with
  | some error => .error error
  | none => .ok ()

def resolvePatchPath (filePath : Text) (files : Files ι) (policy : PathAliasPolicy) : Except String PatchTarget := do
  let resolved := host.resolvePath filePath
  permit host (.resolve policy) resolved files
  return {resolved, display := host.displayPath resolved}

def readFile (path : Text) (files : Files ι) : Except String Text := do
  permit host .read path files
  match files (host.file path) with
  | some contents => .ok contents
  | none => .error s!"ENOENT: no such file or directory, open '{String.ofList path}'"

def writeFile (path : Text) (contents : Text) (files : Files ι) : Except String (Files ι) := do
  permit host .write path files
  return Function.update files (host.file path) (some contents)

/-- Removing is not forced: the file must be there. -/
def removeFile (path : Text) (files : Files ι) : Except String (Files ι) := do
  permit host .remove path files
  match files (host.file path) with
  | some _ => return Function.update files (host.file path) none
  | none => .error s!"ENOENT: no such file or directory, rm '{String.ofList path}'"

/-- Each path is reported once. -/
def recordSummary (bucket : List Text) (value : Text) : List Text :=
  if value ∈ bucket then bucket else bucket ++ [value]

def applyUpdate (target : PatchTarget) (chunks : List UpdateFileChunk) (files : Files ι) : Except String Text := do
  let originalContents ←
    match readFile host target.resolved files with
    | .ok contents => Except.ok contents
    | .error err => .error s!"Failed to read file to update {String.ofList target.resolved}: {err}"
  applyUpdateHunk target.resolved originalContents chunks

def applyHunk (hunk : Hunk) (files : Files ι) (summary : ApplyPatchSummary) :
    Except String (Files ι × ApplyPatchSummary) :=
  match hunk with
  | .add path contents => do
    let target ← resolvePatchPath host path files .strict
    permit host .mkdirp target.resolved files
    let files ← writeFile host target.resolved contents files
    return (files, {summary with added := recordSummary summary.added target.display})
  | .delete path => do
    let target ← resolvePatchPath host path files .unlinkTarget
    let files ← removeFile host target.resolved files
    return (files, {summary with deleted := recordSummary summary.deleted target.display})
  | .update path movePath chunks => do
    let target ← resolvePatchPath host path files .strict
    let applied ← applyUpdate host target chunks files
    match movePath.filter (· ≠ []) with
    | some movePath => do
      let moveTarget ← resolvePatchPath host movePath files .strict
      permit host .mkdirp moveTarget.resolved files
      let files ← writeFile host moveTarget.resolved applied files
      let files ← removeFile host target.resolved files
      return (files, {summary with modified := recordSummary summary.modified moveTarget.display})
    | none => do
      let files ← writeFile host target.resolved applied files
      return (files, {summary with modified := recordSummary summary.modified target.display})

def applyHunks : List Hunk → Files ι → ApplyPatchSummary → Except String (Files ι × ApplyPatchSummary)
  | [], files, summary => .ok (files, summary)
  | hunk :: rest, files, summary => do
    let (files, summary) ← applyHunk host hunk files summary
    applyHunks rest files summary

def formatSummary (summary : ApplyPatchSummary) : String :=
  String.ofList (joinLines (["Success. Updated the following files:".toList] ++ summary.added.map ("A ".toList ++ ·) ++
    summary.modified.map ("M ".toList ++ ·) ++ summary.deleted.map ("D ".toList ++ ·)))

structure ApplyPatchResult where
  summary : ApplyPatchSummary
  text : String

def applyPatch (input : Text) (files : Files ι) : Except String (ApplyPatchResult × Files ι) := do
  let hunks ← parsePatchText input
  if hunks.length = 0 then .error "No files were modified."
  else do
    let (files, summary) ← applyHunks host hunks files {}
    return ({summary, text := formatSummary summary}, files)

/-! ### What the hunks say of a file -/

/-- The file a path of the patch names. -/
def fileAt (path : Text) : ι := host.file (host.resolvePath path)

/-- The file a hunk writes. -/
def writes : Hunk → Option ι
  | .add path _ => some (fileAt host path)
  | .delete _ => none
  | .update path movePath _ => some (fileAt host ((movePath.filter (· ≠ [])).getD path))

/-- The file a hunk deletes or moves away. -/
def removes : Hunk → Option ι
  | .add _ _ => none
  | .delete path => some (fileAt host path)
  | .update path movePath _ => (movePath.filter (· ≠ [])).map fun _ => fileAt host path

def Touches (hunk : Hunk) (x : ι) : Prop := writes host hunk = some x ∨ removes host hunk = some x

/-- What a hunk writes in these files. -/
def written (files : Files ι) : Hunk → Option Text
  | .add _ contents => some contents
  | .delete _ => none
  | .update path _ chunks =>
    let resolved := host.resolvePath path
    (applyUpdate host {resolved, display := host.displayPath resolved} chunks files).toOption

/-- The last hunk to touch the file says what becomes of it: absent if that hunk only removes
it, and otherwise what that hunk wrote when its turn came. -/
def LeftInPlace (hunks : List Hunk) (files final : Files ι) (x : ι) : Prop :=
  ∀ before hunk after, hunks = before ++ hunk :: after → Touches host hunk x →
    (∀ later ∈ after, ¬ Touches host later x) →
      (removes host hunk = some x ∧ writes host hunk ≠ some x → final x = none) ∧
      (writes host hunk = some x → ∃ here summary contents, applyHunks host before files {} = .ok (here, summary) ∧
        written host here hunk = some contents ∧ final x = some contents)

/-- A hunk that moves a file onto itself is not the last one to touch it. -/
def Relinquishes (hunks : List Hunk) : Prop :=
  ∀ before hunk after, hunks = before ++ hunk :: after → ∀ x, writes host hunk = some x →
    removes host hunk = some x → ∃ later ∈ after, Touches host later x

/-! ### One hunk -/

variable {host}

omit [DecidableEq ι] in
theorem resolvePatchPath_ok {filePath : Text} {policy : PathAliasPolicy} {target : PatchTarget}
    (h : resolvePatchPath host filePath files policy = .ok target) :
    target = ⟨host.resolvePath filePath, host.displayPath (host.resolvePath filePath)⟩ := by
  obtain ⟨_, -, h⟩ := bind_ok_iff.mp h
  exact (Except.ok.inj h).symm

theorem writeFile_ok {path : Text} {contents : Text} (h : writeFile host path contents files = .ok files') :
    files' = Function.update files (host.file path) (some contents) := by
  obtain ⟨_, -, h⟩ := bind_ok_iff.mp h
  exact (Except.ok.inj h).symm

theorem removeFile_ok {path : Text} (h : removeFile host path files = .ok files') :
    files' = Function.update files (host.file path) none := by
  obtain ⟨_, -, h⟩ := bind_ok_iff.mp h
  cases hf : files (host.file path) with
  | none => rw [hf] at h; cases h
  | some contents =>
    rw [hf] at h
    exact (Except.ok.inj h).symm

/-- **A hunk writes its one file and then removes its other one.** -/
theorem applyHunk_ok {summary' : ApplyPatchSummary} (h : applyHunk host hunk files summary = .ok (files', summary')) :
    (∀ x, writes host hunk = some x → ∃ contents, written host files hunk = some contents) ∧
      ∀ x, files' x = if removes host hunk = some x then none
        else if writes host hunk = some x then written host files hunk else files x := by
  cases hunk with
  | add path contents =>
    obtain ⟨target, htarget, h⟩ := bind_ok_iff.mp h
    obtain ⟨_, -, h⟩ := bind_ok_iff.mp h
    obtain ⟨files₁, hwrite, h⟩ := bind_ok_iff.mp h
    cases h
    cases resolvePatchPath_ok htarget
    cases writeFile_ok hwrite
    refine ⟨fun _ _ => ⟨contents, rfl⟩, fun x => ?_⟩
    rw [if_neg nofun, Function.update_apply]
    simp only [writes, written, fileAt, Option.some.injEq, eq_comm]
  | delete path =>
    obtain ⟨target, htarget, h⟩ := bind_ok_iff.mp h
    obtain ⟨files₁, hremove, h⟩ := bind_ok_iff.mp h
    cases h
    cases resolvePatchPath_ok htarget
    cases removeFile_ok hremove
    refine ⟨nofun, fun x => ?_⟩
    rw [Function.update_apply]
    simp [writes, removes, fileAt, eq_comm]
  | update path movePath chunks =>
    obtain ⟨target, htarget, h⟩ := bind_ok_iff.mp h
    obtain ⟨applied, happlied, h⟩ := bind_ok_iff.mp h
    cases resolvePatchPath_ok htarget
    have hwritten : written host files (.update path movePath chunks) = some applied := by
      rw [written, happlied]
      rfl
    refine ⟨fun _ _ => ⟨applied, hwritten⟩, fun x => ?_⟩
    rw [hwritten]
    cases hmove : movePath.filter (· ≠ []) with
    | some movePath' =>
      rw [hmove] at h
      obtain ⟨moveTarget, hmoveTarget, h⟩ := bind_ok_iff.mp h
      obtain ⟨_, -, h⟩ := bind_ok_iff.mp h
      obtain ⟨files₁, hwrite, h⟩ := bind_ok_iff.mp h
      obtain ⟨files₂, hremove, h⟩ := bind_ok_iff.mp h
      cases h
      cases resolvePatchPath_ok hmoveTarget
      cases writeFile_ok hwrite
      cases removeFile_ok hremove
      rw [Function.update_apply, Function.update_apply]
      simp only [writes, removes, fileAt, hmove, Option.map_some, Option.getD_some, Option.some.injEq, eq_comm]
    | none =>
      rw [hmove] at h
      obtain ⟨files₁, hwrite, h⟩ := bind_ok_iff.mp h
      cases h
      cases writeFile_ok hwrite
      rw [Function.update_apply]
      simp only [writes, removes, fileAt, hmove, Option.map_none, Option.getD_none, Option.some.injEq, reduceCtorEq,
        if_false, eq_comm]

/-! ### All hunks -/

theorem applyHunks_cons {rest : List Hunk} (h : applyHunks host (hunk :: rest) files summary = .ok (final, last)) :
    ∃ files' summary', applyHunk host hunk files summary = .ok (files', summary') ∧
      applyHunks host rest files' summary' = .ok (final, last) := by
  obtain ⟨⟨files', summary'⟩, hhunk, h⟩ := bind_ok_iff.mp h
  exact ⟨files', summary', hhunk, h⟩

theorem applyHunks_append {before after : List Hunk}
    (h : applyHunks host (before ++ after) files summary = .ok (final, last)) :
    ∃ here summary', applyHunks host before files summary = .ok (here, summary') ∧
      applyHunks host after here summary' = .ok (final, last) := by
  induction before generalizing files summary with
  | nil => exact ⟨files, summary, rfl, h⟩
  | cons hunk rest ih =>
    obtain ⟨files', summary', hhunk, h⟩ := applyHunks_cons h
    obtain ⟨here, summary'', hrest, hafter⟩ := ih h
    exact ⟨here, summary'', bind_ok_iff.mpr ⟨_, hhunk, hrest⟩, hafter⟩

/-- **A file that no hunk touches stays as it is.** -/
theorem applyHunks_untouched {hunks : List Hunk} (h : applyHunks host hunks files summary = .ok (final, last))
    {x : ι} (hx : ∀ hunk ∈ hunks, ¬ Touches host hunk x) :
    final x = files x := by
  induction hunks generalizing files summary with
  | nil =>
    cases h
    rfl
  | cons hunk rest ih =>
    obtain ⟨files', summary', hhunk, h⟩ := applyHunks_cons h
    have hnot := hx hunk (List.mem_cons_self ..)
    rw [ih h fun later hlater => hx later (List.mem_cons_of_mem _ hlater), (applyHunk_ok hhunk).2 x,
      if_neg fun hr => hnot (.inr hr), if_neg fun hw => hnot (.inl hw)]

/-- What the last hunk to touch a file leaves there. -/
theorem applyHunks_last {before after : List Hunk}
    (h : applyHunks host (before ++ hunk :: after) files summary = .ok (final, last)) {x : ι}
    (hx : ∀ later ∈ after, ¬ Touches host later x) :
    ∃ here summary', applyHunks host before files summary = .ok (here, summary') ∧
      (writes host hunk = some x → ∃ contents, written host here hunk = some contents) ∧
      final x = if removes host hunk = some x then none
        else if writes host hunk = some x then written host here hunk else here x := by
  obtain ⟨here, summary', hbefore, h⟩ := applyHunks_append h
  obtain ⟨files', summary'', hhunk, hafter⟩ := applyHunks_cons h
  obtain ⟨hwritten, hfiles⟩ := applyHunk_ok hhunk
  exact ⟨here, summary', hbefore, hwritten x, (applyHunks_untouched hafter hx).trans (hfiles x)⟩

theorem applyPatch_ok {input : Text} {result : ApplyPatchResult}
    (h : applyPatch host input files = .ok (result, final)) :
    ∃ hunks, parsePatchText input = .ok hunks ∧ applyHunks host hunks files {} = .ok (final, result.summary) := by
  obtain ⟨hunks, hparse, h⟩ := bind_ok_iff.mp h
  by_cases hlen : hunks.length = 0
  · rw [if_pos hlen] at h
    cases h
  · rw [if_neg hlen] at h
    obtain ⟨⟨files', summary⟩, hrun, h⟩ := bind_ok_iff.mp h
    cases h
    exact ⟨hunks, hparse, hrun⟩

/-- **A successful patch leaves every file as its last hunk says, exactly if no file's last
hunk moves it onto itself.** -/
theorem applyPatch_leaves_iff (host : PatchHost ι) (input : Text) (files final : Files ι) (result : ApplyPatchResult)
    (hunks : List Hunk) (hparse : parsePatchText input = .ok hunks)
    (h : applyPatch host input files = .ok (result, final)) :
    (∀ x, LeftInPlace host hunks files final x) ↔ Relinquishes host hunks := by
  obtain ⟨hunks', hparse', hrun⟩ := applyPatch_ok h
  cases hparse.symm.trans hparse'
  constructor
  · intro hleft before hunk after hsplit x hwrites hremoves
    by_contra hlast
    have hlast' : ∀ later ∈ after, ¬ Touches host later x := fun later hlater htouch => hlast ⟨later, hlater, htouch⟩
    obtain ⟨_, _, contents, -, -, hfinal⟩ := (hleft x before hunk after hsplit (.inl hwrites) hlast').2 hwrites
    rw [hsplit] at hrun
    obtain ⟨_, _, -, -, hfinal'⟩ := applyHunks_last hrun hlast'
    rw [if_pos hremoves, hfinal] at hfinal'
    cases hfinal'
  · intro hrel x before hunk after hsplit htouch hlast
    subst hsplit
    obtain ⟨here, summary, hbefore, hwritten, hfinal⟩ := applyHunks_last hrun hlast
    constructor
    · rintro ⟨hremoves, -⟩
      rw [hfinal, if_pos hremoves]
    · intro hwrites
      obtain ⟨contents, hcontents⟩ := hwritten hwrites
      have hremoves : removes host hunk ≠ some x := by
        intro hremoves
        obtain ⟨later, hlater, htouch'⟩ := hrel before hunk after rfl x hwrites hremoves
        exact hlast later hlater htouch'
      rw [if_neg hremoves, if_pos hwrites, hcontents] at hfinal
      exact ⟨here, summary, contents, hbefore, hcontents, hfinal⟩

end Host

/-! ### A move to another spelling of the same path -/

/-- A machine that drops a leading `./` and refuses nothing. -/
def workspaceHost : PatchHost Text where
  resolvePath path := if "./".toList.isPrefixOf path then path.drop 2 else path
  displayPath path := path
  file path := path
  refuses _ _ _ := none

def movePatch (destination : String) : Text :=
  "*** Begin Patch\n*** Update File: a.txt\n*** Move to: ".toList ++ destination.toList ++
    "\n@@\n-x\n+y\n*** End Patch".toList

/-- A file `a.txt` with one line. -/
def oneFile : Files Text := Function.update (fun _ => none) "a.txt".toList (some "x\n".toList)

/-- Moved to another file, it is in place. -/
theorem applyPatch_leaves_moved :
    ∃ hunks result final, parsePatchText (movePatch "b.txt") = .ok hunks ∧
      applyPatch workspaceHost (movePatch "b.txt") oneFile = .ok (result, final) ∧
      ∀ x, LeftInPlace workspaceHost hunks oneFile final x := by
  refine ⟨_, _, _, rfl, rfl, ?_⟩
  refine (applyPatch_leaves_iff workspaceHost (movePatch "b.txt") oneFile _ _ _ rfl rfl).mpr ?_
  intro before hunk after hsplit x hwrites hremoves
  obtain ⟨-, hlast⟩ | ⟨-, hnil⟩ := List.append_eq_singleton_iff.mp hsplit.symm
  swap
  · cases hnil
  cases hlast
  exact absurd (Option.some.inj (hwrites.trans hremoves.symm)) (by decide)

/-- Moved to itself, it is reported as modified, and it is gone. -/
theorem self_move_loses_file :
    ∃ hunks result final, parsePatchText (movePatch "./a.txt") = .ok hunks ∧
      applyPatch workspaceHost (movePatch "./a.txt") oneFile = .ok (result, final) ∧
      result.summary.modified = ["a.txt".toList] ∧ final "a.txt".toList = none ∧
      ¬ ∀ x, LeftInPlace workspaceHost hunks oneFile final x := by
  obtain ⟨hunks, result, final, hparse, hrun, hsummary, hgone, hhunks⟩ :
      ∃ hunks result final, parsePatchText (movePatch "./a.txt") = .ok hunks ∧
        applyPatch workspaceHost (movePatch "./a.txt") oneFile = .ok (result, final) ∧
        result.summary.modified = ["a.txt".toList] ∧ final "a.txt".toList = none ∧
        hunks = [.update "a.txt".toList (some "./a.txt".toList) [⟨none, ["x".toList], ["y".toList], false⟩]] :=
    ⟨_, _, _, rfl, rfl, by decide, by decide, rfl⟩
  refine ⟨hunks, result, final, hparse, hrun, hsummary, hgone, fun hleft => ?_⟩
  obtain ⟨_, _, contents, -, -, hfinal⟩ :=
    (hleft "a.txt".toList [] _ [] hhunks (.inl (by decide)) nofun).2 (by decide)
  cases hgone.symm.trans hfinal

end OpenClaw.Agents
