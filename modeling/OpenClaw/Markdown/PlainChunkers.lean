import OpenClaw.Markdown.Fences
import OpenClaw.Markdown.TextChunking

/-! The chunkers of plain text.

All three keep every unit that is no white space. `chunkText` and `chunkByParagraph` keep to
the limit as well. `chunkByNewline` caps the blank lines it puts before a line, but not those
it puts behind the last one: its last chunk fits exactly if they find room there
(`TrailingBlanksFit`). -/
namespace OpenClaw.Markdown
open Foundation (Gap Spaced gap_nil gap_takeWhile)
open Foundation.CodeUnits List

/-! ### By lines -/

structure ChunkByNewlineOptions where
  splitLongLines : Bool := true
  trimLines : Bool := true
  isSafeBreak : Nat → Bool := fun _ => true

/-- The text of a line, as its chunks hold it. -/
def ChunkByNewlineOptions.lineValue (opts : ChunkByNewlineOptions) (line : Text) : Text :=
  if opts.trimLines then trim line else line

/-- The lines from place `i` on. -/
def splitLinesFrom (isSafeBreak : Nat → Bool) : Nat → Text → List Text
  | _, [] => [[]]
  | i, c :: rest =>
    if c = newline ∧ isSafeBreak i then [] :: splitLinesFrom isSafeBreak (i + 1) rest
    else (splitLinesFrom isSafeBreak (i + 1) rest).modifyHead (c :: ·)

def splitByNewline (text : Text) (isSafeBreak : Nat → Bool) : List Text := splitLinesFrom isSafeBreak 0 text

/-- The blank lines before a line that stay with it. -/
def cappedBlankLines (maxLineLength pendingBlankLines : Nat) : Nat := min pendingBlankLines (maxLineLength - 1)

/-- The chunks of one line. -/
def lineChunks (maxLineLength : Nat) (opts : ChunkByNewlineOptions) (pendingBlankLines : Nat) (line : Text) : List Text :=
  let blankPrefix := List.replicate (cappedBlankLines maxLineLength pendingBlankLines) newline
  let lineValue := opts.lineValue line
  if !opts.splitLongLines || decide (lineValue.length + blankPrefix.length ≤ maxLineLength) then [blankPrefix ++ lineValue]
  else
    let firstLimit := max 1 (maxLineLength - blankPrefix.length)
    let remaining := lineValue.drop firstLimit
    (blankPrefix ++ lineValue.take firstLimit) :: if remaining = [] then [] else chunkText remaining maxLineLength

/-- The chunks of the lines, and the blank lines left over. -/
def newlineChunks (maxLineLength : Nat) (opts : ChunkByNewlineOptions) : Nat → List Text → List Text × Nat
  | pendingBlankLines, [] => ([], pendingBlankLines)
  | pendingBlankLines, line :: lines =>
    if trim line = [] then newlineChunks maxLineLength opts (pendingBlankLines + 1) lines
    else
      let (chunks, left) := newlineChunks maxLineLength opts 0 lines
      (lineChunks maxLineLength opts pendingBlankLines line ++ chunks, left)

/-- `chunks[chunks.length - 1] += suffix`, if there is one. -/
def appendToLast (chunks : List Text) (suffix : Text) : List Text :=
  match chunks.getLast? with
  | none => chunks
  | some last => chunks.dropLast ++ [last ++ suffix]

def chunkByNewline (text : Text) (maxLineLength : Nat) (opts : ChunkByNewlineOptions) : List Text :=
  if text = [] then []
  else if maxLineLength = 0 then (if trim text = [] then [] else [text])
  else
    let (chunks, pendingBlankLines) := newlineChunks maxLineLength opts 0 (splitByNewline text opts.isSafeBreak)
    if 0 < pendingBlankLines then appendToLast chunks (List.replicate pendingBlankLines newline) else chunks

/-! ### By paragraphs -/

/-- `replace(/\r\n?/g, "\n")`: a line feed behind a carriage return is part of the match. -/
def normalizeNewlinesFrom : Bool → Text → Text
  | _, [] => []
  | afterReturn, c :: rest =>
    if c = carriageReturn then newline :: normalizeNewlinesFrom true rest
    else if c = newline ∧ afterReturn then normalizeNewlinesFrom false rest
    else c :: normalizeNewlinesFrom false rest

def normalizeNewlines (text : Text) : Text := normalizeNewlinesFrom false text

def isTabOrSpace (c : UInt16) : Bool := c = tab || c = space

/-- How much `/\n[\t ]*\n+/` matches at the head of a text. -/
def paragraphBreakLength : Text → Option Nat
  | [] => none
  | c :: rest =>
    let newlines := (rest.dropWhile isTabOrSpace).takeWhile (· = newline)
    if c = newline ∧ newlines ≠ [] then some (1 + (rest.takeWhile isTabOrSpace).length + newlines.length) else none

/-- The matches from place `i` on, with `skip` units still in the last one. -/
def paragraphBreaks : Nat → Nat → Text → List (Nat × Nat)
  | _, _, [] => []
  | i, skip + 1, _ :: rest => paragraphBreaks (i + 1) skip rest
  | i, 0, c :: rest =>
    match paragraphBreakLength (c :: rest) with
    | some length => (i, length) :: paragraphBreaks (i + 1) (length - 1) rest
    | none => paragraphBreaks (i + 1) 0 rest

/-- The paragraphs between the breaks that no block has inside. -/
def paragraphParts (normalized : Text) (spans : List FenceSpan) : Nat → List (Nat × Nat) → List Text
  | lastIndex, [] => [normalized.drop lastIndex]
  | lastIndex, (idx, length) :: breaks =>
    if isSafeFenceBreak spans idx then
      (normalized.take idx).drop lastIndex :: paragraphParts normalized spans (idx + length) breaks
    else paragraphParts normalized spans lastIndex breaks

def paragraphChunks (limit : Nat) (splitLongParagraphs : Bool) (part : Text) : List Text :=
  let paragraph := trimEnd part
  if trim paragraph = [] then []
  else if paragraph.length ≤ limit || !splitLongParagraphs then [paragraph]
  else chunkText paragraph limit

def chunkByParagraph (text : Text) (limit : Nat) (splitLongParagraphs : Bool) : List Text :=
  if text = [] then []
  else if limit = 0 then [text]
  else
    let normalized := normalizeNewlines text
    let breaks := paragraphBreaks 0 0 normalized
    if breaks = [] then
      if normalized.length ≤ limit || !splitLongParagraphs then [normalized] else chunkText normalized limit
    else (paragraphParts normalized (parseFenceSpans normalized) 0 breaks).flatMap (paragraphChunks limit splitLongParagraphs)

/-! ### What a chunker owes -/

structure ChunksOf (limit : Nat) (text : Text) (chunks : List Text) : Prop where
  fits : ∀ c ∈ chunks, c.length ≤ limit
  keeps : visible chunks.flatten = visible text

/-- The last line with text and the blank lines before it, and the blank lines behind it. -/
def lastTextLine : Nat → Option (Nat × Text) → List Text → Option (Nat × Text) × Nat
  | pendingBlankLines, last, [] => (last, pendingBlankLines)
  | pendingBlankLines, last, line :: lines =>
    if trim line = [] then lastTextLine (pendingBlankLines + 1) last lines
    else lastTextLine 0 (some (pendingBlankLines, line)) lines

/-- How much of a line with `before` blank lines goes into its last chunk. -/
def lastCut (limit before : Nat) (line : Text) : Nat :=
  let blanks := cappedBlankLines limit before
  if line.length + blanks ≤ limit then blanks + line.length
  else ((chunkText (line.drop (limit - blanks)) limit).getLast?.map (·.length)).getD limit

/-- The blank lines at the end of the text find room behind its last line. -/
def TrailingBlanksFit (text : Text) (limit : Nat) (opts : ChunkByNewlineOptions) : Prop :=
  match lastTextLine 0 none (splitByNewline text opts.isSafeBreak) with
  | (none, _) => True
  | (some (before, line), behind) =>
    behind = 0 ∨ lastCut limit before (opts.lineValue line) + behind ≤ limit

instance (text : Text) (limit : Nat) (opts : ChunkByNewlineOptions) : Decidable (TrailingBlanksFit text limit opts) := by
  unfold TrailingBlanksFit
  split <;> infer_instance

theorem chunkText_chunksOf (text : Text) {limit : Nat} (hlimit : 0 < limit) :
    ChunksOf limit text (chunkText text limit) :=
  ⟨length_of_mem_chunkText hlimit, (chunkText_spaced text hlimit).filter_flatten⟩

/-! ### Paragraphs -/

section Paragraphs
variable {limit : Nat}

theorem visible_normalizeNewlinesFrom (afterReturn : Bool) (text : Text) :
    visible (normalizeNewlinesFrom afterReturn text) = visible text := by
  have hcr : isWhiteSpace carriageReturn = true := by decide
  have hnl : isWhiteSpace newline = true := by decide
  have hwhite {c : UInt16} (rest : Text) (hc : isWhiteSpace c = true) : visible (c :: rest) = visible rest := by
    rw [visible, filter_cons, hc]
    rfl
  induction text generalizing afterReturn with
  | nil => rfl
  | cons c rest ih =>
    unfold normalizeNewlinesFrom
    split_ifs with hc hn
    · rw [hc, hwhite _ hcr, hwhite _ hnl, ih]
    · rw [hn.1, hwhite _ hnl, ih]
    · rw [← singleton_append, ← singleton_append (l := rest), visible_append, visible_append, ih]

theorem isTabOrSpace_white {c : UInt16} (h : isTabOrSpace c = true) : isWhiteSpace c = true := by
  simp only [isTabOrSpace, Bool.or_eq_true, decide_eq_true_eq] at h
  rcases h with rfl | rfl <;> decide

/-- A break is white space. -/
theorem paragraphBreakLength_some {text : Text} {length : Nat} (h : paragraphBreakLength text = some length) :
    0 < length ∧ White (text.take length) := by
  cases text with
  | nil => cases h
  | cons c rest =>
    simp only [paragraphBreakLength] at h
    split at h
    · rename_i hc
      cases h
      refine ⟨by omega, ?_⟩
      have hrest : rest = rest.takeWhile isTabOrSpace ++ ((rest.dropWhile isTabOrSpace).takeWhile (· = newline) ++
          (rest.dropWhile isTabOrSpace).dropWhile (· = newline)) := by
        rw [takeWhile_append_dropWhile, takeWhile_append_dropWhile]
      have htake : rest.take ((rest.takeWhile isTabOrSpace).length +
          ((rest.dropWhile isTabOrSpace).takeWhile (· = newline)).length) =
          rest.takeWhile isTabOrSpace ++ (rest.dropWhile isTabOrSpace).takeWhile (· = newline) := by
        rw [← append_assoc] at hrest
        rw [← length_append]
        exact (prefix_iff_eq_take.mp ⟨_, hrest.symm⟩).symm
      rw [Nat.add_assoc, Nat.add_comm, take_succ_cons, htake]
      intro d hd
      simp only [mem_cons, mem_append] at hd
      rcases hd with rfl | hd | hd
      · rw [hc.1]
        rfl
      · exact isTabOrSpace_white (mem_takeWhile_imp hd)
      · have hd : d = newline := by simpa using mem_takeWhile_imp hd
        rw [hd]
        rfl
    · cases h

/-- The breaks lie behind one another, from a place on, and are white space. -/
def BreaksFrom (text : Text) : Nat → List (Nat × Nat) → Prop
  | _, [] => True
  | place, (idx, length) :: breaks =>
    place ≤ idx ∧ White ((text.drop idx).take length) ∧ BreaksFrom text (idx + length) breaks

theorem BreaksFrom.mono {text : Text} {a b : Nat} {breaks : List (Nat × Nat)} (h : BreaksFrom text b breaks)
    (hab : a ≤ b) : BreaksFrom text a breaks := by
  cases breaks with
  | nil => exact h
  | cons x breaks => exact ⟨hab.trans h.1, h.2⟩

theorem paragraphBreaks_from {text rest : Text} {i : Nat} (skip : Nat) (h : text.drop i = rest) :
    BreaksFrom text (i + skip) (paragraphBreaks i skip rest) := by
  induction rest generalizing i skip with
  | nil => cases skip <;> trivial
  | cons c rest ih =>
    have hnext : text.drop (i + 1) = rest := by rw [← drop_drop, h, drop_one, tail_cons]
    cases skip with
    | succ skip =>
      have hrest := ih skip hnext
      rwa [Nat.add_assoc, Nat.add_comm 1 skip] at hrest
    | zero =>
      rw [paragraphBreaks, Nat.add_zero]
      cases hlength : paragraphBreakLength (c :: rest) with
      | none => exact (ih 0 hnext).mono (Nat.le_succ i)
      | some length =>
        obtain ⟨hpos, hwhite⟩ := paragraphBreakLength_some hlength
        refine ⟨le_rfl, by rwa [h], ?_⟩
        have hrest := ih (length - 1) hnext
        rwa [show i + 1 + (length - 1) = i + length by omega] at hrest

theorem visible_paragraphParts {text : Text} (spans : List FenceSpan) {breaks : List (Nat × Nat)} {lastIndex place : Nat}
    (h : BreaksFrom text place breaks) (hle : lastIndex ≤ place) :
    visible (paragraphParts text spans lastIndex breaks).flatten = visible (text.drop lastIndex) := by
  induction breaks generalizing lastIndex place with
  | nil => rw [paragraphParts, flatten_singleton]
  | cons x breaks ih =>
    obtain ⟨idx, length⟩ := x
    obtain ⟨hidx, hwhite, hrest⟩ := h
    rw [paragraphParts]
    split
    · have hsplit : text.drop lastIndex =
          (text.take idx).drop lastIndex ++ ((text.drop idx).take length ++ text.drop (idx + length)) := by
        rw [← drop_drop, take_append_drop]
        conv_lhs => rw [← take_append_drop idx text]
        rcases le_or_gt idx text.length with hlen | hlen
        · rw [drop_append_of_le_length (by rw [length_take]; omega)]
        · rw [drop_eq_nil_of_le hlen.le, append_nil, append_nil]
      rw [flatten_cons, visible_append, ih hrest le_rfl, hsplit, visible_append, visible_append,
        white_iff.mp hwhite, nil_append]
    · exact ih hrest (hle.trans (hidx.trans (Nat.le_add_right ..)))

theorem paragraphChunks_chunksOf (hlimit : 0 < limit) (part : Text) :
    ChunksOf limit part (paragraphChunks limit true part) := by
  simp only [paragraphChunks]
  split_ifs with hnil hle
  · refine ⟨nofun, ?_⟩
    rw [← visible_trimEnd part, white_iff.mp (trim_eq_nil.mp hnil)]
    rfl
  · rw [Bool.not_true, Bool.or_false, decide_eq_true_eq] at hle
    refine ⟨fun c hc => by rwa [mem_singleton.mp hc], ?_⟩
    rw [flatten_singleton, visible_trimEnd]
  · obtain ⟨hfits, hkeeps⟩ := chunkText_chunksOf (trimEnd part) hlimit
    exact ⟨hfits, hkeeps.trans (visible_trimEnd part)⟩

theorem ChunksOf.flatMap {parts : List Text} {f : Text → List Text} (h : ∀ part ∈ parts, ChunksOf limit part (f part)) :
    ChunksOf limit parts.flatten (parts.flatMap f) := by
  refine ⟨fun c hc => ?_, ?_⟩
  · obtain ⟨part, hpart, hc⟩ := mem_flatMap.mp hc
    exact (h part hpart).fits c hc
  · induction parts with
    | nil => rfl
    | cons part parts ih =>
      rw [flatMap_cons, flatten_append, visible_append, flatten_cons, visible_append,
        (h part mem_cons_self).keeps, ih fun p hp => h p (mem_cons_of_mem _ hp)]

theorem chunkByParagraph_chunksOf (text : Text) (hlimit : 0 < limit) :
    ChunksOf limit text (chunkByParagraph text limit true) := by
  have hnormal : visible (normalizeNewlines text) = visible text := visible_normalizeNewlinesFrom false text
  simp only [chunkByParagraph, Bool.not_true, Bool.or_false, decide_eq_true_eq, if_neg hlimit.ne']
  split_ifs with htext hbreaks hle
  · rw [htext]
    exact ⟨nofun, rfl⟩
  · exact ⟨fun c hc => by rwa [mem_singleton.mp hc], by rw [flatten_singleton, hnormal]⟩
  · obtain ⟨hfits, hkeeps⟩ := chunkText_chunksOf (normalizeNewlines text) hlimit
    exact ⟨hfits, hkeeps.trans hnormal⟩
  · have hchunks := @ChunksOf.flatMap limit (paragraphParts (normalizeNewlines text)
      (parseFenceSpans (normalizeNewlines text)) 0 (paragraphBreaks 0 0 (normalizeNewlines text))) _
      fun part _ => paragraphChunks_chunksOf hlimit part
    have hparts := visible_paragraphParts (parseFenceSpans (normalizeNewlines text))
      (@paragraphBreaks_from (normalizeNewlines text) _ 0 0 rfl) le_rfl
    exact ⟨hchunks.fits, hchunks.keeps.trans (hparts.trans hnormal)⟩

end Paragraphs

/-! ### Lines -/

section Lines
variable {limit : Nat} {opts : ChunkByNewlineOptions}

theorem splitLinesFrom_ne_nil (isSafeBreak : Nat → Bool) (i : Nat) (text : Text) : splitLinesFrom isSafeBreak i text ≠ [] := by
  induction text generalizing i with
  | nil => nofun
  | cons c rest ih =>
    unfold splitLinesFrom
    split
    · nofun
    · obtain ⟨line, lines, h⟩ := exists_cons_of_ne_nil (ih (i + 1))
      rw [h]
      nofun

/-- Splitting takes line breaks away and nothing else. -/
theorem visible_splitLinesFrom (isSafeBreak : Nat → Bool) (i : Nat) (text : Text) :
    visible (splitLinesFrom isSafeBreak i text).flatten = visible text := by
  induction text generalizing i with
  | nil => rfl
  | cons c rest ih =>
    unfold splitLinesFrom
    split
    · rename_i hc
      have hnl : isWhiteSpace newline = true := by decide
      rw [flatten_cons, nil_append, ih, hc.1, visible, visible, filter_cons, hnl]
      rfl
    · obtain ⟨line, lines, h⟩ := exists_cons_of_ne_nil (splitLinesFrom_ne_nil isSafeBreak (i + 1) rest)
      have hrest := ih (i + 1)
      rw [h] at hrest ⊢
      rw [modifyHead_cons, flatten_cons, cons_append, ← flatten_cons, ← singleton_append,
        ← singleton_append (l := rest), visible_append, visible_append, hrest]

theorem cappedBlankLines_lt (hlimit : 0 < limit) (before : Nat) : cappedBlankLines limit before < limit := by
  unfold cappedBlankLines
  omega

theorem visible_lineValue (line : Text) : visible (opts.lineValue line) = visible line := by
  unfold ChunkByNewlineOptions.lineValue
  split
  · exact visible_trim line
  · rfl

section
variable (hlimit : 0 < limit) (hsplit : opts.splitLongLines = true) (before : Nat)
include hlimit hsplit before

/-- A line that fits is one chunk; else its first chunk is full and the rest is cut up. -/
theorem lineChunks_eq (line : Text) :
    lineChunks limit opts before line =
      let blanks := cappedBlankLines limit before
      if (opts.lineValue line).length + blanks ≤ limit then [List.replicate blanks newline ++ opts.lineValue line]
      else (List.replicate blanks newline ++ (opts.lineValue line).take (limit - blanks)) ::
        chunkText ((opts.lineValue line).drop (limit - blanks)) limit := by
  have hblanks := cappedBlankLines_lt hlimit before
  have hmax : max 1 (limit - cappedBlankLines limit before) = limit - cappedBlankLines limit before := by omega
  simp only [lineChunks, hsplit, Bool.not_true, Bool.false_or, decide_eq_true_eq, length_replicate, hmax]
  split
  · rfl
  · rename_i hlong
    have hne : (opts.lineValue line).drop (limit - cappedBlankLines limit before) ≠ [] := by
      rw [ne_eq, drop_eq_nil_iff]
      omega
    rw [if_neg hne]

theorem lineChunks_chunksOf (line : Text) :
    ChunksOf limit line (lineChunks limit opts before line) := by
  have hblanks := cappedBlankLines_lt hlimit before
  rw [lineChunks_eq hlimit hsplit]
  generalize cappedBlankLines limit before = blanks at hblanks
  have hwhite : visible (List.replicate blanks newline) = [] := white_iff.mp (white_newlines blanks)
  simp only
  split
  · rename_i hle
    refine ⟨fun c hc => ?_, ?_⟩
    · rw [mem_singleton.mp hc, length_append, length_replicate]
      omega
    · rw [flatten_singleton, visible_append, hwhite, visible_lineValue, nil_append]
  · obtain ⟨hfits, hkeeps⟩ := chunkText_chunksOf ((opts.lineValue line).drop (limit - blanks)) hlimit
    refine ⟨fun c hc => ?_, ?_⟩
    · rcases mem_cons.mp hc with rfl | hc
      · rw [length_append, length_replicate, length_take]
        omega
      · exact hfits c hc
    · rw [flatten_cons, visible_append, visible_append, hwhite, hkeeps, nil_append, ← visible_append,
        take_append_drop, visible_lineValue]

theorem getLast?_lineChunks (line : Text) :
    ∃ last, (lineChunks limit opts before line).getLast? = some last ∧
      last.length = lastCut limit before (opts.lineValue line) := by
  have hblanks := cappedBlankLines_lt hlimit before
  rw [lineChunks_eq hlimit hsplit, lastCut]
  generalize cappedBlankLines limit before = blanks at hblanks
  simp only
  split
  · refine ⟨_, getLast?_singleton, ?_⟩
    rw [length_append, length_replicate]
  · rename_i hlong
    cases hlast : (chunkText ((opts.lineValue line).drop (limit - blanks)) limit).getLast? with
    | none =>
      rw [getLast?_eq_none_iff.mp hlast]
      refine ⟨_, getLast?_singleton, ?_⟩
      rw [length_append, length_replicate, length_take, Option.map_none, Option.getD_none]
      omega
    | some last => exact ⟨last, by rw [getLast?_cons, hlast]; rfl, rfl⟩

theorem newlineChunks_chunksOf (lines : List Text) :
    ChunksOf limit lines.flatten (newlineChunks limit opts before lines).1 := by
  induction lines generalizing before with
  | nil => exact ⟨nofun, rfl⟩
  | cons line lines ih =>
    unfold newlineChunks
    split
    · rename_i hblank
      refine ⟨(ih (before + 1)).fits, ?_⟩
      rw [(ih (before + 1)).keeps, flatten_cons, visible_append, white_iff.mp (trim_eq_nil.mp hblank), nil_append]
    · obtain ⟨hfits, hkeeps⟩ := lineChunks_chunksOf hlimit hsplit before line
      refine ⟨fun c hc => ?_, ?_⟩
      · rcases mem_append.mp hc with hc | hc
        · exact hfits c hc
        · exact (ih 0).fits c hc
      · rw [flatten_append, visible_append, hkeeps, (ih 0).keeps, flatten_cons, visible_append]

/-- The last chunk is that of the last line with text. -/
theorem newlineChunks_last (last : Option (Nat × Text)) (lines : List Text) :
    (lastTextLine before last lines).2 = (newlineChunks limit opts before lines).2 ∧
      (((newlineChunks limit opts before lines).1 = [] ∧ (lastTextLine before last lines).1 = last) ∨
        ∃ n line, (lastTextLine before last lines).1 = some (n, line) ∧
          (newlineChunks limit opts before lines).1.getLast? = (lineChunks limit opts n line).getLast?) := by
  induction lines generalizing before last with
  | nil => exact ⟨rfl, .inl ⟨rfl, rfl⟩⟩
  | cons line lines ih =>
    unfold newlineChunks lastTextLine
    split
    · exact ih (before + 1) last
    · obtain ⟨hleft, hlast⟩ := ih 0 (some (before, line))
      refine ⟨hleft, .inr ?_⟩
      rcases hlast with ⟨hnil, hlast⟩ | ⟨n, line', hline, hlast⟩
      · refine ⟨before, line, hlast, ?_⟩
        simp only [hnil, append_nil]
      · refine ⟨n, line', hline, ?_⟩
        obtain ⟨c, hc, -⟩ := @getLast?_lineChunks limit opts hlimit hsplit n line'
        simp only [getLast?_append, hlast, hc, Option.some_or]

end

theorem appendToLast_of_getLast? {chunks : List Text} {last : Text} (h : chunks.getLast? = some last) (suffix : Text) :
    appendToLast chunks suffix = chunks.dropLast ++ [last ++ suffix] := by
  rw [appendToLast, h]

/-- Where the blank lines at the end go, and what they make of the last chunk. -/
theorem appendToLast_chunksOf {text : Text} {chunks : List Text} (h : ChunksOf limit text chunks) {last suffix : Text}
    (hlast : chunks.getLast? = some last) (hsuffix : White suffix) :
    ChunksOf limit text (appendToLast chunks suffix) ↔ last.length + suffix.length ≤ limit := by
  have hchunks : chunks = chunks.dropLast ++ [last] := by
    obtain ⟨init, hinit⟩ := getLast?_eq_some_iff.mp hlast
    rw [hinit, dropLast_concat]
  rw [appendToLast_of_getLast? hlast]
  constructor
  · intro hc
    have := hc.fits (last ++ suffix) (mem_append_right _ mem_cons_self)
    rwa [length_append] at this
  · intro hle
    refine ⟨fun c hc => ?_, ?_⟩
    · rcases mem_append.mp hc with hc | hc
      · exact h.fits c (hchunks ▸ mem_append_left _ hc)
      · rw [mem_singleton.mp hc, length_append]
        exact hle
    · rw [← h.keeps]
      conv_rhs => rw [hchunks]
      simp only [flatten_append, flatten_singleton, visible_append, white_iff.mp hsuffix, append_nil]

/-- **The chunks of the lines keep the text, and they keep to the limit exactly if the blank
lines at the end find room.** -/
theorem chunkByNewline_chunksOf_iff (text : Text) (hlimit : 0 < limit) (hsplit : opts.splitLongLines = true) :
    ChunksOf limit text (chunkByNewline text limit opts) ↔ TrailingBlanksFit text limit opts := by
  by_cases htext : text = []
  · subst htext
    exact ⟨fun _ => trivial, fun _ => ⟨nofun, rfl⟩⟩
  have hlines : visible (splitByNewline text opts.isSafeBreak).flatten = visible text := visible_splitLinesFrom _ 0 text
  have hchunks : ChunksOf limit text (newlineChunks limit opts 0 (splitByNewline text opts.isSafeBreak)).1 :=
    let h := @newlineChunks_chunksOf limit opts hlimit hsplit 0 (splitByNewline text opts.isSafeBreak)
    ⟨h.fits, h.keeps.trans hlines⟩
  obtain ⟨hleft, hlast⟩ := @newlineChunks_last limit opts hlimit hsplit 0 none (splitByNewline text opts.isSafeBreak)
  simp only [chunkByNewline, if_neg htext, if_neg hlimit.ne', TrailingBlanksFit]
  rw [← hleft]
  generalize (newlineChunks limit opts 0 (splitByNewline text opts.isSafeBreak)).1 = chunks at hchunks hlast
  generalize lastTextLine 0 none (splitByNewline text opts.isSafeBreak) = found at hlast
  obtain ⟨last, behind⟩ := found
  rcases hlast with ⟨rfl, rfl⟩ | ⟨before, line, rfl, hlast⟩
  · simp only [iff_true]
    split
    · exact hchunks
    · exact hchunks
  · obtain ⟨c, hc, hlength⟩ := @getLast?_lineChunks limit opts hlimit hsplit before line
    rw [hc] at hlast
    simp only [← hlength]
    split
    · rename_i hpos
      rw [appendToLast_chunksOf hchunks hlast (white_newlines behind), length_replicate, or_iff_right hpos.ne']
    · rename_i hzero
      exact ⟨fun _ => .inl (by omega), fun _ => hchunks⟩

end Lines

/-- **The three chunkers keep the text, and they keep to the limit exactly if the blank lines
at the end of the text find room behind its last line.** -/
theorem plainChunkers_chunksOf_iff (text : Text) (limit : Nat) (hlimit : 0 < limit) (opts : ChunkByNewlineOptions)
    (hsplit : opts.splitLongLines = true) :
    (ChunksOf limit text (chunkText text limit) ∧ ChunksOf limit text (chunkByParagraph text limit true) ∧
      ChunksOf limit text (chunkByNewline text limit opts)) ↔ TrailingBlanksFit text limit opts := by
  rw [chunkByNewline_chunksOf_iff text hlimit hsplit]
  exact ⟨fun h => h.2.2, fun h => ⟨chunkText_chunksOf text hlimit, chunkByParagraph_chunksOf text hlimit, h⟩⟩

theorem plainChunkers_chunksOf_room :
    (ChunksOf 6 (units "ab\ncd\n\n") (chunkText (units "ab\ncd\n\n") 6) ∧
      ChunksOf 6 (units "ab\ncd\n\n") (chunkByParagraph (units "ab\ncd\n\n") 6 true) ∧
      ChunksOf 6 (units "ab\ncd\n\n") (chunkByNewline (units "ab\ncd\n\n") 6 {})) :=
  (plainChunkers_chunksOf_iff (units "ab\ncd\n\n") 6 (by decide) {} rfl).mpr (by decide)

/-- Two line breaks behind a full line. -/
theorem trailing_blank_lines_overflow :
    ¬ (ChunksOf 2 (units "ab\n\n") (chunkText (units "ab\n\n") 2) ∧
      ChunksOf 2 (units "ab\n\n") (chunkByParagraph (units "ab\n\n") 2 true) ∧
      ChunksOf 2 (units "ab\n\n") (chunkByNewline (units "ab\n\n") 2 {})) := by
  intro h
  have hlong := h.2.2.fits (units "ab\n\n") (by decide)
  exact absurd hlong (by decide)

end OpenClaw.Markdown
