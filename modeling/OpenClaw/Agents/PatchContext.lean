import OpenClaw.Agents.PatchRanges
import OpenClaw.Foundation.Spaced

/-! What an update leaves of the lines a patch only mentions.

A chunk lists context lines, lines to remove and lines to add, but it is kept as old lines
and new lines: a context line is in both. Old lines are matched leniently, and the new ones
are written as the patch has them, so a context line stays as it was only if the patch spells
it as the file does. -/
namespace OpenClaw.Agents
open Foundation (bind_ok_iff Splice)
open Foundation.EcmaString List

inductive PatchLine where
  | context (text : Text)
  | removed (text : Text)
  | added (text : Text)
  deriving Repr, DecidableEq

namespace PatchLine

def read : Text → Option PatchLine
  | [] => some (.context [])
  | ' ' :: content => some (.context content)
  | '+' :: content => some (.added content)
  | '-' :: content => some (.removed content)
  | _ => none

def oldText : PatchLine → Option Text
  | .context text => some text
  | .removed text => some text
  | .added _ => none

def newText : PatchLine → Option Text
  | .context text => some text
  | .removed _ => none
  | .added text => some text

def isAdded : PatchLine → Bool
  | .added _ => true
  | _ => false

end PatchLine

/-- The lines of a chunk, up to the first that is none of its own. -/
def bodyOf : List Text → List PatchLine
  | [] => []
  | line :: rest =>
    match PatchLine.read line with
    | some l => l :: bodyOf rest
    | none => []

def oldLinesOf (body : List PatchLine) : List Text := body.filterMap PatchLine.oldText

def newLinesOf (body : List PatchLine) : List Text := body.filterMap PatchLine.newText

/-- The chunk was read from lines of the patch, and `body` is what they say. -/
def ReadFrom (patchLines : List Text) (chunk : UpdateFileChunk) (body : List PatchLine) : Prop :=
  ∃ lines lineNumber n, lines <:+: patchLines ∧
    readChunkLines lineNumber 0 {changeContext := chunk.changeContext} lines = .ok (chunk, n) ∧ body = bodyOf lines

/-! ### Chunks are read from the patch -/

variable {lineNumber n : Nat} {patchLines : List Text} {chunks : List UpdateFileChunk} {path : Text}
  {movePath : Option Text}

theorem readChunkLines_body {parsedLines : Nat} {chunk result : UpdateFileChunk} {lines : List Text}
    (h : readChunkLines lineNumber parsedLines chunk lines = .ok (result, n)) :
    result.changeContext = chunk.changeContext ∧ result.oldLines = chunk.oldLines ++ oldLinesOf (bodyOf lines) ∧
      result.newLines = chunk.newLines ++ newLinesOf (bodyOf lines) := by
  induction lines generalizing parsedLines chunk with
  | nil =>
    cases h
    exact ⟨rfl, (append_nil _).symm, (append_nil _).symm⟩
  | cons line rest ih =>
    unfold readChunkLines at h
    by_cases heof : line = eofMarker
    · rw [if_pos heof] at h
      have hbody : bodyOf (line :: rest) = [] := by rw [heof]; rfl
      rw [hbody]
      by_cases hp : parsedLines = 0
      · rw [if_pos hp] at h
        cases h
      · rw [if_neg hp] at h
        cases h
        exact ⟨rfl, (append_nil _).symm, (append_nil _).symm⟩
    · rw [if_neg heof] at h
      split at h
      · obtain ⟨hcontext, hold, hnew⟩ := ih h
        exact ⟨hcontext, by rw [hold, append_assoc]; rfl, by rw [hnew, append_assoc]; rfl⟩
      · obtain ⟨hcontext, hold, hnew⟩ := ih h
        exact ⟨hcontext, by rw [hold, append_assoc]; rfl, by rw [hnew, append_assoc]; rfl⟩
      · obtain ⟨hcontext, hold, hnew⟩ := ih h
        exact ⟨hcontext, hold, by rw [hnew, append_assoc]; rfl⟩
      · obtain ⟨hcontext, hold, hnew⟩ := ih h
        exact ⟨hcontext, by rw [hold, append_assoc]; rfl, hnew⟩
      · rename_i hnil hspace hplus hminus
        have hread : PatchLine.read line = none := by
          unfold PatchLine.read
          split
          · exact absurd rfl hnil
          · exact absurd rfl (hspace _)
          · exact absurd rfl (hplus _)
          · exact absurd rfl (hminus _)
          · rfl
        rw [bodyOf, hread]
        by_cases hp : parsedLines = 0
        · rw [if_pos hp] at h
          cases h
        · rw [if_neg hp] at h
          cases h
          exact ⟨rfl, (append_nil _).symm, (append_nil _).symm⟩

theorem ReadFrom.lines {chunk : UpdateFileChunk} {body : List PatchLine} (h : ReadFrom patchLines chunk body) :
    chunk.oldLines = oldLinesOf body ∧ chunk.newLines = newLinesOf body := by
  obtain ⟨lines, lineNumber, n, -, hread, rfl⟩ := h
  exact (readChunkLines_body hread).2

section
variable {lines : List Text} (hlines : lines <:+: patchLines)
include hlines

theorem parseUpdateFileChunk_readFrom {allowMissingContext : Bool} {chunk : UpdateFileChunk}
    (h : parseUpdateFileChunk lines lineNumber allowMissingContext = .ok (chunk, n)) :
    ∃ body, ReadFrom patchLines chunk body := by
  unfold parseUpdateFileChunk at h
  by_cases hnil : lines = []
  · rw [if_pos hnil] at h
    cases h
  rw [if_neg hnil] at h
  obtain ⟨⟨changeContext, startIndex⟩, -, h⟩ := bind_ok_iff.mp h
  dsimp only at h
  by_cases hlen : startIndex ≥ lines.length
  · rw [if_pos hlen] at h
    cases h
  rw [if_neg hlen] at h
  obtain ⟨⟨read, parsedLines⟩, hread, h⟩ := bind_ok_iff.mp h
  cases h
  have hcontext := (readChunkLines_body hread).1
  dsimp only at hcontext
  exact ⟨_, lines.drop startIndex, lineNumber, parsedLines, (drop_suffix ..).isInfix.trans hlines,
    by rw [hcontext, hread], rfl⟩

theorem readChunks_readFrom {skip consumed : Nat} {result : List UpdateFileChunk}
    (hchunks : ∀ chunk ∈ chunks, ∃ body, ReadFrom patchLines chunk body)
    (h : readChunks lineNumber skip consumed chunks lines = .ok (result, n)) :
    ∀ chunk ∈ result, ∃ body, ReadFrom patchLines chunk body := by
  induction lines generalizing skip consumed chunks with
  | nil =>
    unfold readChunks at h
    cases h
    exact hchunks
  | cons line rest ih =>
    have hrest : rest <:+: patchLines := (suffix_cons ..).isInfix.trans hlines
    cases skip with
    | succ skip => exact ih hrest hchunks (by rwa [readChunks] at h)
    | zero =>
      rw [readChunks] at h
      by_cases hblank : trimChars line = []
      · rw [if_pos hblank] at h
        exact ih hrest hchunks h
      rw [if_neg hblank] at h
      by_cases hstar : "***".toList.isPrefixOf line = true
      · rw [if_pos hstar] at h
        cases h
        exact hchunks
      rw [if_neg hstar] at h
      obtain ⟨⟨chunk, chunkLines⟩, hchunk, h⟩ := bind_ok_iff.mp h
      refine ih hrest (fun c hc => ?_) h
      rcases mem_append.mp hc with hc | hc
      · exact hchunks c hc
      · rw [mem_singleton.mp hc]
        exact parseUpdateFileChunk_readFrom hlines hchunk

theorem parseOneHunk_readFrom (h : parseOneHunk lines lineNumber = .ok (.update path movePath chunks, n)) :
    ∀ chunk ∈ chunks, ∃ body, ReadFrom patchLines chunk body := by
  unfold parseOneHunk at h
  cases lines with
  | nil => cases h
  | cons line rest =>
    dsimp only at h
    split at h
    · cases h
    · split at h
      · cases h
      · split at h
        · obtain ⟨⟨read, consumed⟩, hchunks, h⟩ := bind_ok_iff.mp h
          dsimp only at h
          split at h
          · cases h
          · cases h
            exact readChunks_readFrom ((drop_suffix ..).isInfix.trans ((suffix_cons ..).isInfix.trans hlines))
              (fun _ hc => absurd hc not_mem_nil) hchunks
        · cases h

theorem parseHunks_readFrom {skip : Nat} {hunks : List Hunk} (h : parseHunks skip lineNumber lines = .ok hunks)
    (hmem : .update path movePath chunks ∈ hunks) :
    ∀ chunk ∈ chunks, ∃ body, ReadFrom patchLines chunk body := by
  induction lines generalizing skip lineNumber hunks with
  | nil =>
    unfold parseHunks at h
    cases h
    exact absurd hmem not_mem_nil
  | cons line rest ih =>
    have hrest : rest <:+: patchLines := (suffix_cons ..).isInfix.trans hlines
    cases skip with
    | succ skip => exact ih hrest (by rwa [parseHunks] at h) hmem
    | zero =>
      rw [parseHunks] at h
      obtain ⟨⟨hunk, consumed⟩, hone, h⟩ := bind_ok_iff.mp h
      obtain ⟨others, hothers, h⟩ := bind_ok_iff.mp h
      cases h
      rcases mem_cons.mp hmem with rfl | hmem
      · exact parseOneHunk_readFrom hlines hone
      · exact ih hrest hothers hmem

end

theorem checkPatchBoundariesLenient_part {lines validated : List Text}
    (h : checkPatchBoundariesLenient lines = .ok validated) : validated <:+: lines := by
  unfold checkPatchBoundariesLenient at h
  split at h
  · cases h
    exact infix_refl _
  · split_ifs at h
    dsimp only at h
    split_ifs at h
    split at h
    · cases h
      exact ( dropLast_prefix _).isInfix.trans (drop_suffix ..).isInfix
    · cases h

/-- **Every chunk of an accepted patch was read from its lines.** -/
theorem parsePatchText_readFrom {input : Text} {hunks : List Hunk} (h : parsePatchText input = .ok hunks)
    (hmem : .update path movePath chunks ∈ hunks) :
    ∃ bodies, List.Forall₂ (ReadFrom (splitLines (trimChars input))) chunks bodies := by
  unfold parsePatchText at h
  dsimp only at h
  split_ifs at h
  obtain ⟨validated, hvalidated, h⟩ := bind_ok_iff.mp h
  have hall := parseHunks_readFrom ((( dropLast_prefix _).isInfix.trans (drop_suffix ..).isInfix).trans
    (checkPatchBoundariesLenient_part hvalidated)) h hmem
  clear hmem
  induction chunks with
  | nil => exact ⟨[], .nil⟩
  | cons chunk chunks ih =>
    obtain ⟨body, hbody⟩ := hall chunk mem_cons_self
    obtain ⟨bodies, hbodies⟩ := ih fun c hc => hall c (mem_cons_of_mem _ hc)
    exact ⟨body :: bodies, .cons hbody hbodies⟩

/-! ### What a chunk should leave -/

/-- What stands where a body was matched with lines of the file: its context lines as the file
has them, and the lines it adds. -/
def keptLines : List PatchLine → List Text → List Text
  | [], _ => []
  | .context _ :: body, file => file.take 1 ++ keptLines body (file.drop 1)
  | .removed _ :: body, file => keptLines body (file.drop 1)
  | .added text :: body, file => text :: keptLines body file

/-- The context lines spell the lines of the file. -/
def ContextsExact : List PatchLine → List Text → Prop
  | [], _ => True
  | .context text :: body, file => file.head? = some text ∧ ContextsExact body (file.drop 1)
  | .removed _ :: body, file => ContextsExact body (file.drop 1)
  | .added _ :: body, file => ContextsExact body file

instance decidableContextsExact : (body : List PatchLine) → (file : List Text) → Decidable (ContextsExact body file)
  | [], _ => inferInstanceAs (Decidable True)
  | .context text :: body, file =>
    have := decidableContextsExact body (file.drop 1)
    inferInstanceAs (Decidable (file.head? = some text ∧ ContextsExact body (file.drop 1)))
  | .removed _ :: body, file => decidableContextsExact body (file.drop 1)
  | .added _ :: body, file => decidableContextsExact body file

/-- Without the last line that is not added. -/
def dropLastOld (body : List PatchLine) : List PatchLine :=
  (body.rdropWhile PatchLine.isAdded).dropLast ++ body.rtakeWhile PatchLine.isAdded

/-- The lines of a body that were matched: all of them, or all but a last blank old line. -/
def matchedBody (body : List PatchLine) (s : Splice Text) : List PatchLine :=
  if s.oldLen = (oldLinesOf body).length then body else dropLastOld body

/-- A last blank line that the file does not have can be left out: as context, if only blank
lines are added behind it; as a line to remove, if the new lines do not end in a blank line. -/
def BlankLeftOut (body : List PatchLine) : Prop :=
  match (body.rdropWhile PatchLine.isAdded).getLast? with
  | some (.context _) => ∀ l ∈ body.rtakeWhile PatchLine.isAdded, l = .added []
  | _ => (newLinesOf body).getLast? ≠ some []

instance (body : List PatchLine) : Decidable (BlankLeftOut body) := by
  unfold BlankLeftOut
  split <;> infer_instance

theorem newLinesOf_append (a b : List PatchLine) : newLinesOf (a ++ b) = newLinesOf a ++ newLinesOf b :=
  filterMap_append ..

theorem length_keptLines {body : List PatchLine} {file : List Text} (h : (oldLinesOf body).length ≤ file.length) :
    (keptLines body file).length = (newLinesOf body).length := by
  induction body generalizing file with
  | nil => rfl
  | cons l body ih =>
    cases l with
    | context text =>
      have hlen : (oldLinesOf body).length + 1 ≤ file.length := h
      have hrest := @ih (file.drop 1) (by rw [length_drop]; omega)
      rw [keptLines, length_append, hrest, length_take, Nat.min_eq_left (by omega), Nat.add_comm]
      rfl
    | removed text =>
      have hlen : (oldLinesOf body).length + 1 ≤ file.length := h
      exact @ih (file.drop 1) (by rw [length_drop]; omega)
    | added text => exact congrArg (· + 1) (ih h)

/-- **The new lines of a body are what should stand there exactly if its context lines spell the
lines of the file.** -/
theorem newLinesOf_eq_keptLines_iff {body : List PatchLine} {file : List Text}
    (h : (oldLinesOf body).length ≤ file.length) : newLinesOf body = keptLines body file ↔ ContextsExact body file := by
  induction body generalizing file with
  | nil => exact iff_of_true rfl trivial
  | cons l body ih =>
    cases l with
    | context text =>
      have hlen : (oldLinesOf body).length + 1 ≤ file.length := h
      cases file with
      | nil =>
        rw [length_nil] at hlen
        omega
      | cons line file =>
        have hcons : newLinesOf (.context text :: body) = text :: newLinesOf body := rfl
        rw [hcons, keptLines, ContextsExact, head?_cons, Option.some_inj, eq_comm (a := line),
          ← ih (by rw [length_drop]; simp only [length_cons] at hlen ⊢; omega)]
        exact cons_eq_cons
    | removed text =>
      have hlen : (oldLinesOf body).length + 1 ≤ file.length := h
      exact ih (by rw [length_drop]; omega)
    | added text =>
      have hcons : newLinesOf (.added text :: body) = text :: newLinesOf body := rfl
      rw [hcons, keptLines, ContextsExact, ← ih h, cons_eq_cons, and_iff_right rfl]

theorem keptLines_append_added (body plus : List PatchLine) (file : List Text) (hplus : ∀ l ∈ plus, l.isAdded = true) :
    keptLines (body ++ plus) file = keptLines body file ++ newLinesOf plus := by
  induction body generalizing file with
  | nil =>
    induction plus with
    | nil => rfl
    | cons l plus ih =>
      cases l with
      | added text => exact congrArg (text :: ·) (ih fun l hl => hplus l (mem_cons_of_mem _ hl))
      | _ => exact absurd (hplus _ mem_cons_self) Bool.false_ne_true
  | cons l body ih =>
    cases l with
    | context text => rw [cons_append, keptLines, ih, keptLines, append_assoc]
    | removed text => exact ih _
    | added text => exact congrArg (text :: ·) (ih file)

theorem oldLinesOf_added {plus : List PatchLine} (hplus : ∀ l ∈ plus, l.isAdded = true) : oldLinesOf plus = [] := by
  rw [oldLinesOf, filterMap_eq_nil_iff]
  intro l hl
  cases l with
  | added text => rfl
  | _ => exact absurd (hplus _ hl) Bool.false_ne_true

theorem blank_of_cons_eq_concat {l : List Text} (h : [] :: l = l ++ [[]]) : ∀ line ∈ l, line = [] := by
  induction l with
  | nil => exact fun _ hline => absurd hline not_mem_nil
  | cons line l ih =>
    rw [cons_append] at h
    obtain ⟨rfl, hrest⟩ := cons_eq_cons.mp h
    exact forall_mem_cons.mpr ⟨rfl, ih hrest⟩

/-- Taking the last blank away gives back what came behind a first blank only if all is blank. -/
theorem dropLast_blank_cons_iff (l : List Text) :
    (if ([] :: l).getLast? = some ([] : Text) then ([] :: l).dropLast else [] :: l) = l ↔ ∀ line ∈ l, line = [] := by
  by_cases hlast : ([] :: l).getLast? = some ([] : Text)
  · rw [if_pos hlast]
    obtain ⟨init, hinit⟩ := getLast?_eq_some_iff.mp hlast
    constructor
    · intro hdrop
      rw [hinit, dropLast_concat] at hdrop
      exact blank_of_cons_eq_concat (hinit.trans (by rw [hdrop]))
    · intro hblank
      rw [eq_replicate_iff.mpr ⟨rfl, hblank⟩, ← replicate_succ, replicate_succ', dropLast_concat]
  · rw [if_neg hlast]
    refine iff_of_false (cons_ne_self _ _) fun hblank => hlast ?_
    rw [eq_replicate_iff.mpr ⟨rfl, hblank⟩, ← replicate_succ, getLast?_replicate, if_neg (Nat.succ_ne_zero _)]

/-- A body with a last blank old line: what is before it, the line, and added lines. -/
theorem split_last_blank {body : List PatchLine} (hblank : (oldLinesOf body).getLast? = some []) :
    ∃ pre last plus, (last = .context [] ∨ last = .removed []) ∧ (∀ l ∈ plus, l.isAdded = true) ∧
      body = pre ++ last :: plus ∧ dropLastOld body = pre ++ plus ∧
      (body.rdropWhile PatchLine.isAdded).getLast? = some last ∧ body.rtakeWhile PatchLine.isAdded = plus := by
  have hsplit := Foundation.rdropWhile_append_rtakeWhile (p := PatchLine.isAdded) body
  have hplus : ∀ l ∈ body.rtakeWhile PatchLine.isAdded, l.isAdded = true := Foundation.gap_rtakeWhile body
  have hold : oldLinesOf (body.rdropWhile PatchLine.isAdded) = oldLinesOf body := by
    conv_rhs => rw [← hsplit, oldLinesOf, filterMap_append, ← oldLinesOf, ← oldLinesOf, oldLinesOf_added hplus,
      append_nil]
  have hne : body.rdropWhile PatchLine.isAdded ≠ [] := by
    intro hnil
    rw [← hold, hnil] at hblank
    cases hblank
  have hnotAdded := rdropWhile_last_not PatchLine.isAdded body hne
  have hfront := dropLast_concat_getLast hne
  have hlast := getLast?_eq_some_getLast hne
  rw [dropLastOld]
  generalize body.rdropWhile PatchLine.isAdded = front at *
  generalize body.rtakeWhile PatchLine.isAdded = plus at *
  generalize front.getLast hne = last at *
  refine ⟨front.dropLast, last, plus, ?_, hplus, ?_, rfl, hlast, rfl⟩
  · have hcut : ∀ text, last.oldText = some text → (oldLinesOf front).getLast? = some text := fun text htext => by
      have htail : oldLinesOf [last] = [text] := by
        rw [oldLinesOf, filterMap_cons, htext]
        rfl
      rw [← hfront, oldLinesOf, filterMap_append, ← oldLinesOf, ← oldLinesOf, htail, getLast?_concat]
    rw [← hold] at hblank
    cases last with
    | added text => exact absurd rfl hnotAdded
    | context text => exact .inl (congrArg _ (Option.some_inj.mp ((hcut text rfl).symm.trans hblank)))
    | removed text => exact .inr (congrArg _ (Option.some_inj.mp ((hcut text rfl).symm.trans hblank)))
  · rw [← hsplit]
    conv_lhs => rw [← hfront]
    rw [append_assoc]
    rfl

theorem newLinesOf_added {plus : List PatchLine} (hplus : ∀ l ∈ plus, l.isAdded = true) :
    (∀ l ∈ plus, l = .added []) ↔ ∀ line ∈ newLinesOf plus, line = [] := by
  induction plus with
  | nil => exact iff_of_true (fun _ h => absurd h not_mem_nil) fun _ h => absurd h not_mem_nil
  | cons l plus ih =>
    have hrest := ih fun l hl => hplus l (mem_cons_of_mem _ hl)
    cases l with
    | added text =>
      have hcons : newLinesOf (.added text :: plus) = text :: newLinesOf plus := rfl
      rw [hcons, forall_mem_cons, forall_mem_cons, hrest, PatchLine.added.injEq]
    | _ => exact absurd (hplus _ mem_cons_self) Bool.false_ne_true

theorem append_eq_append_iff_of_length {a b c d : List Text} (h : a.length = c.length) :
    a ++ b = c ++ d ↔ a = c ∧ b = d :=
  ⟨fun heq => append_inj heq h, fun ⟨hac, hbd⟩ => hac ▸ hbd ▸ rfl⟩

section Chunk
variable {chunk : UpdateFileChunk} {body : List PatchLine} {s : Splice Text} {file : List Text}

/-- **A chunk puts in place what should stand there exactly if its context lines spell the lines of
the file**, and a last blank line that the file does not have could be left out. -/
theorem Stands.newLines_eq_iff (h : Stands chunk s) (hold : chunk.oldLines = oldLinesOf body)
    (hnew : chunk.newLines = newLinesOf body) (hfile : s.oldLen ≤ file.length) :
    s.newLines = keptLines (matchedBody body s) file ↔
      ContextsExact (matchedBody body s) file ∧ (s.oldLen ≠ (oldLinesOf body).length → BlankLeftOut body) := by
  rcases h with ⟨hlen, hlines⟩ | ⟨hblank, hlen, hlines⟩
  · rw [hold] at hlen
    rw [matchedBody, if_pos hlen, hlines, hnew, newLinesOf_eq_keptLines_iff (hlen ▸ hfile)]
    exact (and_iff_left fun hne => absurd hlen hne).symm
  · rw [hold] at hblank hlen
    rw [hnew] at hlines
    obtain ⟨pre, last, plus, hlast, hplus, hbody, hdrop, hfront, hback⟩ := split_last_blank hblank
    have hcount : (oldLinesOf body).length = (oldLinesOf pre).length + 1 := by
      have : oldLinesOf (last :: plus) = [[]] := by
        rcases hlast with rfl | rfl
        · exact congrArg ([] :: ·) (oldLinesOf_added hplus)
        · exact congrArg ([] :: ·) (oldLinesOf_added hplus)
      rw [hbody, oldLinesOf, filterMap_append, ← oldLinesOf, ← oldLinesOf, this, length_append]
      rfl
    rw [length_dropLast, hcount, Nat.add_sub_cancel] at hlen
    have hshort : s.oldLen ≠ (oldLinesOf body).length := by omega
    have hpre : (oldLinesOf (pre ++ plus)).length ≤ file.length := by
      rw [oldLinesOf, filterMap_append, ← oldLinesOf, ← oldLinesOf, oldLinesOf_added hplus, append_nil]
      omega
    have hpre' : (oldLinesOf pre).length ≤ file.length := by omega
    have hexact := newLinesOf_eq_keptLines_iff hpre
    rw [matchedBody, if_neg hshort, hdrop, ← hexact, BlankLeftOut, hfront, hback,
      keptLines_append_added _ _ _ hplus, newLinesOf_append, append_left_inj]
    have hsame := length_keptLines hpre'
    rcases hlast with rfl | rfl
    · -- the blank line is still among the new ones, before what is added behind it
      have hall : newLinesOf body = newLinesOf pre ++ [] :: newLinesOf plus := by
        rw [hbody, newLinesOf_append]
        rfl
      have hlast : (newLinesOf pre ++ [] :: newLinesOf plus).getLast? = ([] :: newLinesOf plus).getLast? :=
        getLast?_append_of_ne_nil _ (cons_ne_nil _ _)
      have hput : s.newLines = newLinesOf pre ++ (if ([] :: newLinesOf plus).getLast? = some ([] : Text) then
          ([] :: newLinesOf plus).dropLast else [] :: newLinesOf plus) := by
        rw [hlines, hall, hlast, dropLast_append_of_ne_nil (cons_ne_nil _ _)]
        split <;> rfl
      rw [hput, append_eq_append_iff_of_length hsame.symm, dropLast_blank_cons_iff, ← newLinesOf_added hplus]
      exact and_congr_right fun _ => ⟨fun h _ => h, fun h => h hshort⟩
    · have hall : newLinesOf body = newLinesOf pre ++ newLinesOf plus := by
        rw [hbody, newLinesOf_append]
        rfl
      rw [hlines, hall]
      by_cases hlast : (newLinesOf pre ++ newLinesOf plus).getLast? = some []
      · -- the file's own last line is taken away with it
        rw [if_pos hlast]
        refine iff_of_false (fun heq => ?_) fun h => h.2 hshort hlast
        have hlen := congrArg List.length heq
        have hpos : newLinesOf pre ++ newLinesOf plus ≠ [] := fun hnil => by rw [hnil] at hlast; cases hlast
        have := length_pos_iff.mpr hpos
        rw [length_dropLast, length_append, length_append, hsame] at hlen
        rw [length_append] at this
        omega
      · rw [if_neg hlast, append_left_inj]
        exact (and_iff_left fun _ => hlast).symm

end Chunk

/-! ### The updated file -/

/-- Where the chunks were found the file is left with the context lines it had, without the lines
that minus lines matched, and with the plus lines; the rest of it is as it was. -/
structure ChangesOnlyItsLines (lines : List Text) (filePath : Text) (chunks : List UpdateFileChunk)
    (bodies : List (List PatchLine)) (out : Text) : Prop where
  kept : List.Forall₂ (fun body s => s.newLines = keptLines (matchedBody body s) (lines.drop s.start)) bodies
    (placedChunks lines filePath chunks)
  clear : (touching (placedChunks lines filePath chunks)).Pairwise Splice.Clear
  text : out = unlines (Splice.spliced lines (placedChunks lines filePath chunks))

/-- Where a chunk was found, its context lines spell the lines of the file, and a last blank line
that is not there can be left out. -/
def SpellsTheFile (lines : List Text) (body : List PatchLine) (s : Splice Text) : Prop :=
  ContextsExact (matchedBody body s) (lines.drop s.start) ∧
    (s.oldLen ≠ (oldLinesOf body).length → BlankLeftOut body)

instance (lines : List Text) (body : List PatchLine) (s : Splice Text) : Decidable (SpellsTheFile lines body s) :=
  inferInstanceAs (Decidable (_ ∧ (_ → _)))

/-- Chunk by chunk, what is put in place is what should stand there. -/
theorem forall₂_kept_iff {lines : List Text} {bodies : List (List PatchLine)} {splices : List (Splice Text)}
    (hbodies : List.Forall₂ (ReadFrom patchLines) chunks bodies) (hstands : List.Forall₂ Stands chunks splices)
    (hstop : ∀ s ∈ splices, s.stop ≤ lines.length) :
    List.Forall₂ (fun body s => s.newLines = keptLines (matchedBody body s) (lines.drop s.start)) bodies splices ↔
      List.Forall₂ (SpellsTheFile lines) bodies splices := by
  induction hstands generalizing bodies with
  | nil =>
    cases hbodies
    exact iff_of_true .nil .nil
  | @cons chunk s chunks splices hs hstands ih =>
    cases hbodies with
    | @cons _ body _ bodies hbody hbodies =>
      have hfile : s.oldLen ≤ (lines.drop s.start).length := by
        have hstop := hstop s mem_cons_self
        rw [Splice.stop] at hstop
        rw [length_drop]
        omega
      rw [forall₂_cons, forall₂_cons, ih hbodies fun t ht => hstop t (mem_cons_of_mem _ ht),
        hs.newLines_eq_iff hbody.lines.1 hbody.lines.2 hfile]
      rfl

/-- **An update changes no lines but those a patch adds or removes exactly if its chunks keep clear
of each other and spell the lines they only mention as the file does**, and the file does not
come to end in a blank line. -/
theorem parsePatchText_changesOnlyItsLines_iff {input path : Text} {hunks : List Hunk} {movePath : Option Text}
    {chunks : List UpdateFileChunk} (hparse : parsePatchText input = .ok hunks)
    (hmem : .update path movePath chunks ∈ hunks) :
    (∃ bodies, List.Forall₂ (ReadFrom (splitLines (trimChars input))) chunks bodies) ∧
      ∀ bodies, List.Forall₂ (ReadFrom (splitLines (trimChars input))) chunks bodies →
        ∀ filePath contents out, applyUpdateHunk filePath contents chunks = .ok out →
          (ChangesOnlyItsLines (fileLines contents) filePath chunks bodies out ↔
            List.Forall₂ (SpellsTheFile (fileLines contents)) bodies
                (placedChunks (fileLines contents) filePath chunks) ∧
              KeepsClear (fileLines contents) ⟨0, 0, []⟩ chunks ∧
              (Splice.spliced (fileLines contents) (placedChunks (fileLines contents) filePath chunks)).getLast? ≠
                some []) := by
  refine ⟨parsePatchText_readFrom hparse hmem, fun bodies hbodies filePath contents out h => ?_⟩
  obtain ⟨hstands, hstop⟩ := placedChunks_stands h
  have hkept := forall₂_kept_iff hbodies hstands hstop
  constructor
  · intro hc
    exact ⟨hkept.mp hc.kept, (placedChunks_clear_iff h).mp hc.clear, (applyUpdateHunk_text_iff h hc.clear).mp hc.text⟩
  · rintro ⟨hspells, hkeeps, hlast⟩
    have hclear := (placedChunks_clear_iff h).mpr hkeeps
    exact ⟨hkept.mpr hspells, hclear, (applyUpdateHunk_text_iff h hclear).mpr hlast⟩

/-- A patch that spells the line before the one it replaces as the file does. -/
theorem parsePatchText_changesOnlyItsLines_indented :
    ChangesOnlyItsLines (fileLines "  b\nc\n".toList) "f".toList
      [{oldLines := ["  b".toList, "c".toList], newLines := ["  b".toList, "d".toList]}]
      [[.context "  b".toList, .removed "c".toList, .added "d".toList]] "  b\nd\n".toList :=
  have hparse : parsePatchText "*** Begin Patch\n*** Update File: f\n@@\n   b\n-c\n+d\n*** End Patch".toList = .ok
      [.update "f".toList none [{oldLines := ["  b".toList, "c".toList], newLines := ["  b".toList, "d".toList]}]] := by
    decide +kernel
  ((parsePatchText_changesOnlyItsLines_iff hparse mem_cons_self).2 _
    (.cons ⟨["   b".toList, "-c".toList, "+d".toList], 3, 3, by decide +kernel, by decide +kernel, rfl⟩ .nil)
    "f".toList "  b\nc\n".toList _ (by decide +kernel)).mpr (by decide +kernel)

/-- The context line was found without its indentation, and the file loses it. -/
theorem context_loses_indentation :
    parsePatchText "*** Begin Patch\n*** Update File: f\n@@\n b\n-c\n+d\n*** End Patch".toList = .ok
        [.update "f".toList none [{oldLines := ["b".toList, "c".toList], newLines := ["b".toList, "d".toList]}]] ∧
      applyUpdateHunk "f".toList "  b\nc\n".toList
        [{oldLines := ["b".toList, "c".toList], newLines := ["b".toList, "d".toList]}] = .ok "b\nd\n".toList ∧
      List.Forall₂ (ReadFrom (splitLines (trimChars
          "*** Begin Patch\n*** Update File: f\n@@\n b\n-c\n+d\n*** End Patch".toList)))
        [{oldLines := ["b".toList, "c".toList], newLines := ["b".toList, "d".toList]}]
        [[.context "b".toList, .removed "c".toList, .added "d".toList]] ∧
      ¬ ChangesOnlyItsLines (fileLines "  b\nc\n".toList) "f".toList
        [{oldLines := ["b".toList, "c".toList], newLines := ["b".toList, "d".toList]}]
        [[.context "b".toList, .removed "c".toList, .added "d".toList]] "b\nd\n".toList :=
  ⟨by decide +kernel, by decide +kernel,
    .cons ⟨[" b".toList, "-c".toList, "+d".toList], 3, 3, by decide +kernel, by decide +kernel, rfl⟩ .nil,
    fun h => absurd h.kept (by decide +kernel)⟩

end OpenClaw.Agents
