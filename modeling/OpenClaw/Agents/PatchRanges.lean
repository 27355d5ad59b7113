import OpenClaw.Agents.PatchText
import OpenClaw.Foundation.Splices

/-! Where the chunks of an update touch the file.

The chunks look for their old lines one after the other, each behind the place where the one
before it ended. Two kinds of chunk do not: a chunk for the end of the file is always looked
for in the last lines, and a chunk without old lines goes to the end whatever was matched
there. Apart from these two every chunk keeps clear of the ones before it, and the file
becomes its old lines with the chunks' new lines in their places. -/
namespace OpenClaw.Agents
open List

open Foundation (bind_ok_iff Splice)

/-! ### Looking for the lines of one chunk -/

variable {start lineIndex : Nat} {filePath contents out : Text} {rs : List Replacement}
  {chunks : List UpdateFileChunk}

theorem firstFrom_some {maxStart i : Nat} {p : Nat → Bool} (h : firstFrom start maxStart p = some i) :
    start ≤ i ∧ i ≤ maxStart := by
  have hmem := mem_of_find?_eq_some h
  rw [mem_range'_1] at hmem
  omega

/-- **Old lines are found in the file, from the cursor on or, for the end of the file, in the
last lines.** -/
theorem seekSequence_some {lines pattern : List Text} {found : Nat} {eof : Bool} (hpattern : pattern ≠ [])
    (h : seekSequence lines pattern start eof = some found) :
    found + pattern.length ≤ lines.length ∧
      (if eof = true then lines.length - pattern.length else start) ≤ found := by
  have hpos : pattern.length ≠ 0 := mt length_eq_zero_iff.mp hpattern
  unfold seekSequence at h
  rw [if_neg hpos] at h
  by_cases hlong : pattern.length > lines.length
  · rw [if_pos hlong] at h
    cases h
  rw [if_neg hlong] at h
  dsimp only at h
  generalize (if eof = true then lines.length - pattern.length else start) = searchStart at h ⊢
  split_ifs at h with hsearch
  simp only [Option.or_eq_some_iff] at h
  have hfound : searchStart ≤ found ∧ found ≤ lines.length - pattern.length := by
    rcases h with h | ⟨-, h | ⟨-, h | ⟨-, h⟩⟩⟩
    · exact firstFrom_some h
    · exact firstFrom_some h
    · exact firstFrom_some h
    · exact firstFrom_some h
  exact ⟨by omega, hfound.1⟩

theorem seekSequence_eof {lines pattern : List Text} {found : Nat} (hpattern : pattern ≠ [])
    (h : seekSequence lines pattern start true = some found) : found + pattern.length = lines.length := by
  obtain ⟨hle, hstart⟩ := seekSequence_some hpattern h
  rw [if_pos rfl] at hstart
  omega

def Replacement.splice (r : Replacement) : Splice Text := ⟨r.start, r.oldLen, r.newLines⟩

/-- Before the last line if that is blank. -/
def insertionIndex (lines : List Text) : Nat :=
  if lines.getLast? = some [] then lines.length - 1 else lines.length

/-- Where a chunk looks for its old lines. -/
def searchFrom (lines : List Text) (lineIndex : Nat) (chunk : UpdateFileChunk) : Option Nat :=
  match chunk.changeContext.filter (· ≠ []) with
  | none => some lineIndex
  | some context => (seekSequence lines [context] lineIndex false).map (· + 1)

def replacementOf (lines : List Text) (chunk : UpdateFileChunk) (lineIndex : Nat) : Option Replacement :=
  if chunk.oldLines.length = 0 then some ⟨insertionIndex lines, 0, chunk.newLines⟩
  else findOldLines lines chunk lineIndex

/-- A chunk without old lines leaves the cursor where it is. -/
def nextIndex (chunk : UpdateFileChunk) (lineIndex : Nat) (r : Replacement) : Nat :=
  if chunk.oldLines.length = 0 then lineIndex else r.start + r.oldLen

theorem replaced_from {lines : List Text} {chunk : UpdateFileChunk} {rest : List UpdateFileChunk}
    (hsearch : searchFrom lines lineIndex chunk = some cursor)
    (h : (if chunk.oldLines.length = 0 then
          (findReplacements lines filePath cursor rest).bind fun others =>
            .ok (⟨insertionIndex lines, 0, chunk.newLines⟩ :: others)
        else
          match findOldLines lines chunk cursor with
          | none => .error s!"Failed to find expected lines in {String.ofList filePath}:\n{String.ofList (joinLines chunk.oldLines)}"
          | some found =>
            (findReplacements lines filePath (found.start + found.oldLen) rest).bind fun others => .ok (found :: others)) =
        .ok rs) :
    ∃ cursor r others, searchFrom lines lineIndex chunk = some cursor ∧ replacementOf lines chunk cursor = some r ∧
      findReplacements lines filePath (nextIndex chunk cursor r) rest = .ok others ∧ rs = r :: others := by
  by_cases hold : chunk.oldLines.length = 0
  · rw [if_pos hold] at h
    obtain ⟨others, hothers, h⟩ := bind_ok_iff.mp h
    cases h
    exact ⟨cursor, _, others, hsearch, if_pos hold, by rwa [nextIndex, if_pos hold], rfl⟩
  · rw [if_neg hold] at h
    cases hfound : findOldLines lines chunk cursor with
    | none =>
      rw [hfound] at h
      cases h
    | some found =>
      rw [hfound] at h
      obtain ⟨others, hothers, h⟩ := bind_ok_iff.mp h
      cases h
      exact ⟨cursor, found, others, hsearch, by rwa [replacementOf, if_neg hold], by rwa [nextIndex, if_neg hold], rfl⟩

theorem findReplacements_cons {lines : List Text} {chunk : UpdateFileChunk} {rest : List UpdateFileChunk}
    (h : findReplacements lines filePath lineIndex (chunk :: rest) = .ok rs) :
    ∃ cursor r others, searchFrom lines lineIndex chunk = some cursor ∧ replacementOf lines chunk cursor = some r ∧
      findReplacements lines filePath (nextIndex chunk cursor r) rest = .ok others ∧ rs = r :: others := by
  unfold findReplacements at h
  cases hcontext : chunk.changeContext.filter (· ≠ []) with
  | none =>
    rw [hcontext] at h
    exact replaced_from (by rw [searchFrom, hcontext]) h
  | some context =>
    cases hseek : seekSequence lines [context] lineIndex false with
    | none =>
      simp only [hcontext, hseek] at h
      cases h
    | some found =>
      simp only [hcontext, hseek] at h
      exact replaced_from (by simp only [searchFrom, hcontext, hseek, Option.map_some]) h

theorem searchFrom_bounds {lines : List Text} {cursor : Nat} {chunk : UpdateFileChunk}
    (hle : lineIndex ≤ lines.length) (h : searchFrom lines lineIndex chunk = some cursor) :
    lineIndex ≤ cursor ∧ cursor ≤ lines.length := by
  unfold searchFrom at h
  split at h
  · cases h
    exact ⟨le_rfl, hle⟩
  · rename_i context _
    obtain ⟨found, hfound, rfl⟩ := Option.map_eq_some_iff.mp h
    obtain ⟨hend, hstart⟩ := seekSequence_some (cons_ne_nil context []) hfound
    rw [length_singleton] at hend
    rw [if_neg Bool.false_ne_true] at hstart
    omega

/-- What a chunk with old lines replaces: lines from the cursor on, unless the chunk is for
the end of the file; and if a shortened pattern is empty, none at the cursor. -/
theorem findOldLines_bounds {lines : List Text} {chunk : UpdateFileChunk} {cursor : Nat} {r : Replacement}
    (hold : chunk.oldLines.length ≠ 0) (hcursor : cursor ≤ lines.length) (h : findOldLines lines chunk cursor = some r) :
    r.start + r.oldLen ≤ lines.length ∧ (chunk.isEndOfFile = false → cursor ≤ r.start) ∧
      (r.oldLen = 0 → r.start = cursor) := by
  have hne : chunk.oldLines ≠ [] := fun heq => hold (heq ▸ rfl)
  unfold findOldLines at h
  split at h
  · rename_i found hfound
    cases h
    obtain ⟨hle, hstart⟩ := seekSequence_some hne hfound
    exact ⟨hle, fun heof => by rwa [heof, if_neg Bool.false_ne_true] at hstart, fun h => absurd h hold⟩
  · dsimp only at h
    generalize (if chunk.newLines.getLast? = some [] then chunk.newLines.dropLast else chunk.newLines) = newSlice at h
    split_ifs at h
    obtain ⟨found, hfound, rfl⟩ := Option.map_eq_some_iff.mp h
    by_cases hpattern : chunk.oldLines.dropLast = []
    · rw [hpattern, seekSequence, if_pos length_nil] at hfound
      cases hfound
      rw [hpattern]
      exact ⟨hcursor, fun _ => le_rfl, fun _ => rfl⟩
    · obtain ⟨hle, hstart⟩ := seekSequence_some hpattern hfound
      exact ⟨hle, fun heof => by rwa [heof, if_neg Bool.false_ne_true] at hstart,
        fun h => absurd (length_eq_zero_iff.mp h) hpattern⟩

theorem insertionIndex_le (lines : List Text) : insertionIndex lines ≤ lines.length := by
  unfold insertionIndex
  split <;> omega

theorem replacementOf_bounds {lines : List Text} {chunk : UpdateFileChunk} {cursor : Nat} {r : Replacement}
    (hcursor : cursor ≤ lines.length) (h : replacementOf lines chunk cursor = some r) :
    r.splice.stop ≤ lines.length ∧ nextIndex chunk cursor r ≤ lines.length := by
  unfold replacementOf at h
  unfold nextIndex
  split at h
  · rename_i hold
    cases h
    rw [if_pos hold]
    exact ⟨insertionIndex_le lines, hcursor⟩
  · rename_i hold
    rw [if_neg hold]
    have := (findOldLines_bounds hold hcursor h).1
    exact ⟨this, this⟩

/-- The old lines for the end of the file end there. -/
theorem findOldLines_eof {lines : List Text} {chunk : UpdateFileChunk} {cursor : Nat} {r : Replacement}
    (hold : chunk.oldLines.length ≠ 0) (heof : chunk.isEndOfFile = true) (h : findOldLines lines chunk cursor = some r)
    (hlen : r.oldLen ≠ 0) : r.start + r.oldLen = lines.length := by
  have hne : chunk.oldLines ≠ [] := fun heq => hold (heq ▸ rfl)
  unfold findOldLines at h
  rw [heof] at h
  split at h
  · rename_i found hfound
    cases h
    exact seekSequence_eof hne hfound
  · dsimp only at h
    generalize (if chunk.newLines.getLast? = some [] then chunk.newLines.dropLast else chunk.newLines) = newSlice at h
    split_ifs at h
    obtain ⟨found, hfound, rfl⟩ := Option.map_eq_some_iff.mp h
    exact seekSequence_eof (fun heq => hlen (heq ▸ rfl)) hfound

theorem nextIndex_of_matched {lines : List Text} {chunk : UpdateFileChunk} {cursor : Nat} {r : Replacement}
    (h : replacementOf lines chunk cursor = some r) (hlen : r.oldLen ≠ 0) :
    nextIndex chunk cursor r = r.start + r.oldLen := by
  unfold replacementOf at h
  split at h
  · cases h
    exact absurd rfl hlen
  · rename_i hold
    rw [nextIndex, if_neg hold]

theorem cursor_le_nextIndex {lines : List Text} {chunk : UpdateFileChunk} {cursor : Nat} {r : Replacement}
    (hcursor : cursor ≤ lines.length) (h : replacementOf lines chunk cursor = some r) (hlen : r.oldLen = 0) :
    cursor ≤ nextIndex chunk cursor r := by
  unfold replacementOf at h
  unfold nextIndex
  split at h
  · rename_i hold
    rw [if_pos hold]
  · rename_i hold
    rw [if_neg hold, (findOldLines_bounds hold hcursor h).2.2 hlen]
    exact Nat.le_add_right ..

/-! ### Chunk after chunk -/

/-- What the chunks so far have taken of the file. -/
structure Claimed where
  lineIndex : Nat
  /-- Where the last matched lines end. -/
  matched : Nat
  /-- Where lines were put in and none were matched. -/
  inserted : List Nat

def Claimed.take (s : Claimed) (chunk : UpdateFileChunk) (cursor : Nat) (r : Replacement) : Claimed where
  lineIndex := nextIndex chunk cursor r
  matched := if r.oldLen = 0 then s.matched else r.start + r.oldLen
  inserted := if r.oldLen = 0 ∧ r.newLines ≠ [] then r.start :: s.inserted else s.inserted

/-- New lines without old ones come behind all matched lines; the last lines of the file are not
matched twice; and no matched lines lie on both sides of lines put in before. -/
def Claimed.Leaves (s : Claimed) (chunk : UpdateFileChunk) (r : Replacement) : Prop :=
  if r.oldLen = 0 then chunk.oldLines = [] → r.newLines ≠ [] → s.matched ≤ r.start
  else (chunk.isEndOfFile = true → s.matched ≤ r.start) ∧
    ∀ place ∈ s.inserted, place ≤ r.start ∨ r.start + r.oldLen ≤ place

instance (s : Claimed) (chunk : UpdateFileChunk) (r : Replacement) : Decidable (s.Leaves chunk r) :=
  inferInstanceAs (Decidable (if r.oldLen = 0 then chunk.oldLines = [] → r.newLines ≠ [] → s.matched ≤ r.start
    else (chunk.isEndOfFile = true → s.matched ≤ r.start) ∧
      ∀ place ∈ s.inserted, place ≤ r.start ∨ r.start + r.oldLen ≤ place))

/-- Every chunk leaves what the chunks before it took. -/
def KeepsClear (lines : List Text) (s : Claimed) : List UpdateFileChunk → Prop
  | [] => True
  | chunk :: rest =>
    ∀ cursor ∈ searchFrom lines s.lineIndex chunk, ∀ r ∈ replacementOf lines chunk cursor,
      s.Leaves chunk r ∧ KeepsClear lines (s.take chunk cursor r) rest

instance decidableKeepsClear (lines : List Text) (s : Claimed) :
    (chunks : List UpdateFileChunk) → Decidable (KeepsClear lines s chunks)
  | [] => inferInstanceAs (Decidable True)
  | chunk :: rest =>
    have : ∀ s, Decidable (KeepsClear lines s rest) := fun s => decidableKeepsClear lines s rest
    inferInstanceAs (Decidable (∀ cursor ∈ searchFrom lines s.lineIndex chunk, ∀ r ∈ replacementOf lines chunk cursor,
      s.Leaves chunk r ∧ KeepsClear lines (s.take chunk cursor r) rest))

/-- The splices that touch anything. -/
def touching (splices : List (Splice Text)) : List (Splice Text) := splices.filter (! ·.idle)

theorem touching_append (a b : List (Splice Text)) : touching (a ++ b) = touching a ++ touching b :=
  filter_append ..

theorem mem_touching {s : Splice Text} {splices : List (Splice Text)} :
    s ∈ touching splices ↔ s ∈ splices ∧ (s.oldLen = 0 → s.newLines ≠ []) := by
  rw [touching, mem_filter, Bool.not_eq_true', ← Bool.not_eq_true, Splice.idle_iff, not_and]

/-- What is claimed is what the splices so far took. -/
structure Claimed.Tracks (s : Claimed) (lines : List Text) (done : List (Splice Text)) : Prop where
  cursor_le : s.lineIndex ≤ lines.length
  matched_le : s.matched ≤ s.lineIndex
  stop_le : ∀ a ∈ done, a.oldLen ≠ 0 → a.stop ≤ s.matched
  matched_eq : s.matched = 0 ∨ ∃ a ∈ done, a.oldLen ≠ 0 ∧ a.stop = s.matched
  inserted_iff : ∀ place, place ∈ s.inserted ↔ ∃ a ∈ done, a.oldLen = 0 ∧ a.newLines ≠ [] ∧ a.start = place

theorem Claimed.tracks_nil (lines : List Text) : Claimed.Tracks ⟨0, 0, []⟩ lines [] where
  cursor_le := Nat.zero_le _
  matched_le := le_rfl
  stop_le _ h := absurd h not_mem_nil
  matched_eq := .inl rfl
  inserted_iff _ := by simp

section Step
variable {s : Claimed} {lines : List Text} {done : List (Splice Text)} {chunk : UpdateFileChunk} {cursor : Nat}
  {r : Replacement}

/-- The matched lines never move back: either the cursor is behind them or they are the last ones. -/
theorem matched_forward (hmatched : s.matched ≤ cursor) (hbound : s.matched ≤ lines.length)
    (hcursor : cursor ≤ lines.length) (hr : replacementOf lines chunk cursor = some r) (hlen : r.oldLen ≠ 0) :
    s.matched ≤ r.start + r.oldLen := by
  unfold replacementOf at hr
  split at hr
  · cases hr
    exact absurd rfl hlen
  · rename_i hold
    cases heof : chunk.isEndOfFile with
    | false => exact hmatched.trans (((findOldLines_bounds hold hcursor hr).2.1 heof).trans (Nat.le_add_right ..))
    | true => rwa [findOldLines_eof hold heof hr hlen]

section
variable (h : s.Tracks lines done) (hsearch : searchFrom lines s.lineIndex chunk = some cursor)
  (hr : replacementOf lines chunk cursor = some r)
include h hsearch hr

theorem Claimed.Tracks.take : (s.take chunk cursor r).Tracks lines (done ++ [r.splice]) := by
  obtain ⟨hle, hcursor⟩ := searchFrom_bounds h.cursor_le hsearch
  have hmatched := h.matched_le.trans hle
  obtain ⟨hstop, hnext⟩ := replacementOf_bounds hcursor hr
  have hforward := matched_forward hmatched (hmatched.trans hcursor) hcursor hr
  refine ⟨hnext, ?_, fun a ha hlen => ?_, ?_, fun place => ?_⟩
  · simp only [Claimed.take]
    split
    · rename_i hlen
      exact hmatched.trans (cursor_le_nextIndex hcursor hr hlen)
    · rename_i hlen
      exact (nextIndex_of_matched hr hlen).ge
  · simp only [Claimed.take]
    rcases mem_append.mp ha with ha | ha
    · have := h.stop_le a ha hlen
      split
      · exact this
      · rename_i hlen
        exact this.trans (hforward hlen)
    · rw [mem_singleton] at ha
      subst ha
      exact (if_neg (show ¬ r.oldLen = 0 from hlen)).ge
  · simp only [Claimed.take]
    split
    · exact h.matched_eq.imp id fun ⟨a, ha, hlen, hstop⟩ => ⟨a, mem_append_left _ ha, hlen, hstop⟩
    · rename_i hlen
      exact .inr ⟨r.splice, mem_append_right _ mem_cons_self, hlen, rfl⟩
  · have hnew : (∃ a ∈ done ++ [r.splice], a.oldLen = 0 ∧ a.newLines ≠ [] ∧ a.start = place) ↔
        place ∈ s.inserted ∨ (r.oldLen = 0 ∧ r.newLines ≠ []) ∧ r.start = place := by
      rw [h.inserted_iff]
      simp only [mem_append, mem_singleton, or_and_right, exists_or, exists_eq_left, Replacement.splice,
        and_assoc]
    rw [hnew]
    simp only [Claimed.take]
    split
    · rename_i hins
      rw [mem_cons, or_comm, eq_comm (a := place), iff_true_intro hins, true_and]
    · rename_i hins
      rw [iff_false_intro hins, false_and, or_false]

/-- **A chunk keeps clear of the ones before it exactly if it leaves what they took.** -/
theorem Claimed.Tracks.clear_iff :
    (∀ a ∈ touching done, ∀ b ∈ touching [r.splice], a.Clear b) ↔ s.Leaves chunk r := by
  obtain ⟨hle, hcursor⟩ := searchFrom_bounds h.cursor_le hsearch
  have hmatched := h.matched_le.trans hle
  -- behind all matched lines comes behind each of them, and the last of them end where they all do
  have hbehind : ∀ place, (∀ a ∈ done, a.oldLen ≠ 0 → a.stop ≤ place) ↔ s.matched ≤ place := by
    intro place
    refine ⟨fun hall => ?_, fun hle a ha hlen => (h.stop_le a ha hlen).trans hle⟩
    rcases h.matched_eq with hzero | ⟨a, ha, hlen, hstop⟩
    · exact hzero ▸ Nat.zero_le _
    · exact hstop ▸ hall a ha hlen
  simp only [mem_touching, mem_singleton, Claimed.Leaves]
  split
  · rename_i hlen
    have hclear : ∀ a : Splice Text, a.Clear r.splice ↔ (a.oldLen ≠ 0 → a.stop ≤ r.start) := by
      intro a
      simp only [Splice.Clear, Splice.stop, Replacement.splice, hlen]
      omega
    constructor
    · intro hall hold hnew
      rw [← hbehind]
      exact fun a ha halen => (hclear a).mp (hall a ⟨ha, fun h0 => absurd h0 halen⟩ _ ⟨rfl, fun _ => hnew⟩) halen
    · rintro hleaves a ⟨ha, -⟩ b ⟨rfl, hnew⟩
      rw [hclear]
      intro halen
      refine (h.stop_le a ha halen).trans ?_
      unfold replacementOf at hr
      split at hr
      · rename_i hold
        exact hleaves (length_eq_zero_iff.mp hold) (hnew hlen)
      · rename_i hold
        rw [(findOldLines_bounds hold hcursor hr).2.2 hlen]
        exact hmatched
  · rename_i hlen
    have hfrom : chunk.isEndOfFile = false → s.matched ≤ r.start := fun heof => by
      unfold replacementOf at hr
      split at hr
      · cases hr
        exact absurd rfl hlen
      · rename_i hold
        exact hmatched.trans ((findOldLines_bounds hold hcursor hr).2.1 heof)
    constructor
    · intro hall
      refine ⟨fun _ => (hbehind _).mp fun a ha halen => ?_, fun place hplace => ?_⟩
      · exact (hall a ⟨ha, fun h0 => absurd h0 halen⟩ _ ⟨rfl, fun h0 => absurd h0 hlen⟩).resolve_right fun h => halen h.1
      · obtain ⟨a, ha, halen, hnew, rfl⟩ := (h.inserted_iff place).mp hplace
        have := hall a ⟨ha, fun _ => hnew⟩ _ ⟨rfl, fun h0 => absurd h0 hlen⟩
        simp only [Splice.Clear, Splice.stop, Replacement.splice, halen] at this
        omega
    · rintro ⟨heof, hplaces⟩ a ⟨ha, hnew⟩ b ⟨rfl, -⟩
      by_cases halen : a.oldLen = 0
      · have := hplaces a.start ((h.inserted_iff _).mpr ⟨a, ha, halen, hnew halen, rfl⟩)
        simp only [Splice.Clear, Splice.stop, Replacement.splice, halen, true_and]
        omega
      · refine .inl ((h.stop_le a ha halen).trans ?_)
        cases hend : chunk.isEndOfFile with
        | false => exact hfrom hend
        | true => exact heof hend

end

end Step

/-- The chunks keep clear of each other exactly if each leaves what the ones before it took. -/
theorem pairwise_clear_iff {lines : List Text} {s : Claimed} {done : List (Splice Text)} (h : s.Tracks lines done)
    (hdone : (touching done).Pairwise Splice.Clear)
    (hfound : findReplacements lines filePath s.lineIndex chunks = .ok rs) :
    (touching (done ++ rs.map Replacement.splice)).Pairwise Splice.Clear ↔ KeepsClear lines s chunks := by
  induction chunks generalizing s done rs with
  | nil =>
    cases hfound
    rw [map_nil, append_nil]
    exact iff_of_true hdone trivial
  | cons chunk rest ih =>
    obtain ⟨cursor, r, others, hsearch, hr, hothers, rfl⟩ := findReplacements_cons hfound
    have hkeeps : KeepsClear lines s (chunk :: rest) ↔
        s.Leaves chunk r ∧ KeepsClear lines (s.take chunk cursor r) rest := by
      simp only [KeepsClear, hsearch, hr, Option.mem_some_iff, forall_eq']
    rw [hkeeps]
    have hsplit : done ++ (r :: others).map Replacement.splice = done ++ [r.splice] ++ others.map Replacement.splice := by
      rw [map_cons, append_assoc]
      rfl
    have hone : (touching (done ++ [r.splice])).Pairwise Splice.Clear ↔ s.Leaves chunk r := by
      rw [touching_append, pairwise_append, ← h.clear_iff hsearch hr]
      refine ⟨fun h => h.2.2, fun h => ⟨hdone, ?_, h⟩⟩
      exact (pairwise_singleton ..).sublist filter_sublist
    rw [hsplit]
    by_cases hleaves : s.Leaves chunk r
    · rw [ih (h.take hsearch hr) (hone.mpr hleaves) hothers]
      exact (and_iff_right hleaves).symm
    · refine iff_of_false (fun hall => hleaves (hone.mp ?_)) fun h => hleaves h.1
      rw [touching_append, pairwise_append] at hall
      exact hall.1

theorem stop_le_of_mem {lines : List Text} (hle : lineIndex ≤ lines.length)
    (hfound : findReplacements lines filePath lineIndex chunks = .ok rs) : ∀ r ∈ rs, r.splice.stop ≤ lines.length := by
  induction chunks generalizing lineIndex rs with
  | nil =>
    cases hfound
    exact fun _ h => absurd h not_mem_nil
  | cons chunk rest ih =>
    obtain ⟨cursor, r, others, hsearch, hr, hothers, rfl⟩ := findReplacements_cons hfound
    obtain ⟨-, hcursor⟩ := searchFrom_bounds hle hsearch
    obtain ⟨hstop, hnext⟩ := replacementOf_bounds hcursor hr
    exact forall_mem_cons.mpr ⟨hstop, ih hnext hothers⟩

/-! ### The updated file -/

/-- The lines of a file; a last line break ends the last line. -/
def fileLines (contents : Text) : List Text :=
  let lines := contents.splitOn '\n'
  if lines.getLast? = some [] then lines.dropLast else lines

/-- Every line with its line break. -/
def unlines (lines : List Text) : Text := lines.flatMap (· ++ ['\n'])

/-- What the chunks put in the places of the lines they match. -/
def placedChunks (lines : List Text) (filePath : Text) (chunks : List UpdateFileChunk) : List (Splice Text) :=
  match findReplacements lines filePath 0 chunks with
  | .ok rs => rs.map Replacement.splice
  | .error _ => []

/-- As many lines as the chunk has old ones give way to its new lines; a last blank line the
file does not have may be left out of both. -/
def Stands (chunk : UpdateFileChunk) (s : Splice Text) : Prop :=
  s.oldLen = chunk.oldLines.length ∧ s.newLines = chunk.newLines ∨
    chunk.oldLines.getLast? = some [] ∧ s.oldLen = chunk.oldLines.dropLast.length ∧
      s.newLines = if chunk.newLines.getLast? = some [] then chunk.newLines.dropLast else chunk.newLines

/-- The chunks match lines one behind the other, and the file becomes its lines with the new
lines of every chunk in the place of the lines it matched. -/
structure TouchesInOrder (lines : List Text) (filePath : Text) (chunks : List UpdateFileChunk) (out : Text) : Prop where
  stands : List.Forall₂ Stands chunks (placedChunks lines filePath chunks)
  clear : (touching (placedChunks lines filePath chunks)).Pairwise Splice.Clear
  text : out = unlines (Splice.spliced lines (placedChunks lines filePath chunks))

theorem unlines_cons (line : Text) (lines : List Text) : unlines (line :: lines) = line ++ ['\n'] ++ unlines lines := rfl

theorem unlines_append (a b : List Text) : unlines (a ++ b) = unlines a ++ unlines b := flatMap_append ..

theorem joinLines_concat (lines : List Text) (last : Text) : joinLines (lines ++ [last]) = unlines lines ++ last := by
  induction lines with
  | nil => rw [nil_append, joinLines, intercalate_singleton, unlines, flatMap_nil, nil_append]
  | cons line lines ih =>
    rw [cons_append, joinLines, intercalate_cons_of_ne_nil (by simp), ← joinLines, ih, unlines_cons,
      ← append_assoc]

/-- The code joins lines behind which it puts a blank one, unless there is one: that takes the
line break of a blank last line away. -/
theorem joinLines_ended_iff (lines : List Text) :
    joinLines (if lines.getLast? = some [] then lines else lines ++ [[]]) = unlines lines ↔ lines.getLast? ≠ some [] := by
  by_cases hlast : lines.getLast? = some []
  · rw [if_pos hlast]
    refine iff_of_false (fun heq => ?_) (not_not.mpr hlast)
    obtain ⟨init, rfl⟩ := getLast?_eq_some_iff.mp hlast
    rw [joinLines_concat, unlines_append] at heq
    have := congrArg List.length heq
    simp [unlines] at this
  · rw [if_neg hlast, joinLines_concat, append_nil]
    exact iff_of_true rfl hlast

theorem applyReplacements_splices (lines : List Text) (rs : List Replacement) :
    applyReplacements lines rs = Splice.applyAll lines (rs.map Replacement.splice) := by
  rw [Splice.applyAll, foldr_map]
  rfl

theorem stands_of_replacementOf {lines : List Text} {chunk : UpdateFileChunk} {cursor : Nat} {r : Replacement}
    (h : replacementOf lines chunk cursor = some r) : Stands chunk r.splice := by
  unfold replacementOf at h
  split at h
  · rename_i hold
    cases h
    exact .inl ⟨hold.symm, rfl⟩
  · unfold findOldLines at h
    split at h
    · cases h
      exact .inl ⟨rfl, rfl⟩
    · by_cases hblank : chunk.oldLines.getLast? = some []
      · rw [if_pos hblank] at h
        obtain ⟨found, -, rfl⟩ := Option.map_eq_some_iff.mp h
        exact .inr ⟨hblank, rfl, rfl⟩
      · rw [if_neg hblank] at h
        cases h

theorem forall₂_stands {lines : List Text} (hfound : findReplacements lines filePath lineIndex chunks = .ok rs) :
    List.Forall₂ Stands chunks (rs.map Replacement.splice) := by
  induction chunks generalizing lineIndex rs with
  | nil =>
    cases hfound
    exact .nil
  | cons chunk rest ih =>
    obtain ⟨cursor, r, others, -, hr, hothers, rfl⟩ := findReplacements_cons hfound
    exact .cons (stands_of_replacementOf hr) (ih hothers)

section
variable (h : applyUpdateHunk filePath contents chunks = .ok out)
include h

theorem applyUpdateHunk_eq :
    ∃ rs, findReplacements (fileLines contents) filePath 0 chunks = .ok rs ∧
      (let newLines := Splice.applyAll (fileLines contents)
        ((rs.map Replacement.splice).insertionSort fun a b => a.start ≤ b.start)
      out = joinLines (if newLines.getLast? = some [] then newLines else newLines ++ [[]])) := by
  obtain ⟨sorted, hsorted, h⟩ := bind_ok_iff.mp h
  cases h
  unfold computeReplacements at hsorted
  cases hfound : findReplacements (fileLines contents) filePath 0 chunks with
  | error e =>
    rw [← fileLines, hfound] at hsorted
    cases hsorted
  | ok rs =>
    rw [← fileLines, hfound] at hsorted
    cases hsorted
    refine ⟨rs, rfl, ?_⟩
    have hsort : (rs.insertionSort fun a b => a.start ≤ b.start).map Replacement.splice =
        (rs.map Replacement.splice).insertionSort fun a b => a.start ≤ b.start :=
      map_insertionSort _ _ _ _ fun a _ b _ => Iff.rfl
    rw [← fileLines, applyReplacements_splices, hsort]

theorem placedChunks_stands :
    List.Forall₂ Stands chunks (placedChunks (fileLines contents) filePath chunks) ∧
      ∀ s ∈ placedChunks (fileLines contents) filePath chunks, s.stop ≤ (fileLines contents).length := by
  obtain ⟨rs, hfound, -⟩ := applyUpdateHunk_eq h
  rw [placedChunks, hfound]
  refine ⟨forall₂_stands hfound, fun s hs => ?_⟩
  obtain ⟨r, hr, rfl⟩ := mem_map.mp hs
  exact stop_le_of_mem (Nat.zero_le _) hfound r hr

theorem placedChunks_clear_iff :
    (touching (placedChunks (fileLines contents) filePath chunks)).Pairwise Splice.Clear ↔
      KeepsClear (fileLines contents) ⟨0, 0, []⟩ chunks := by
  obtain ⟨rs, hfound, -⟩ := applyUpdateHunk_eq h
  rw [placedChunks, hfound]
  exact pairwise_clear_iff (Claimed.tracks_nil (fileLines contents)) .nil hfound

/-- Once the chunks keep clear, only a blank last line can be missing. -/
theorem applyUpdateHunk_text_iff
    (hclear : (touching (placedChunks (fileLines contents) filePath chunks)).Pairwise Splice.Clear) :
    out = unlines (Splice.spliced (fileLines contents) (placedChunks (fileLines contents) filePath chunks)) ↔
      (Splice.spliced (fileLines contents) (placedChunks (fileLines contents) filePath chunks)).getLast? ≠ some [] := by
  obtain ⟨rs, hfound, hout⟩ := applyUpdateHunk_eq h
  have hplaced : placedChunks (fileLines contents) filePath chunks = rs.map Replacement.splice := by
    rw [placedChunks, hfound]
  rw [hout, ← hplaced, Splice.applyAll_insertionSort hclear (placedChunks_stands h).2]
  exact joinLines_ended_iff _

end

/-- **An update touches disjoint ranges in the order of its chunks exactly if every chunk leaves
what the chunks before it took**, and the file does not come to end in a blank line. -/
theorem applyUpdateHunk_touchesInOrder_iff {filePath contents out : Text} {chunks : List UpdateFileChunk}
    (h : applyUpdateHunk filePath contents chunks = .ok out) :
    TouchesInOrder (fileLines contents) filePath chunks out ↔
      KeepsClear (fileLines contents) ⟨0, 0, []⟩ chunks ∧
        (Splice.spliced (fileLines contents) (placedChunks (fileLines contents) filePath chunks)).getLast? ≠ some [] := by
  constructor
  · intro ht
    exact ⟨(placedChunks_clear_iff h).mp ht.clear, (applyUpdateHunk_text_iff h ht.clear).mp ht.text⟩
  · rintro ⟨hkeeps, hlast⟩
    have hclear := (placedChunks_clear_iff h).mpr hkeeps
    exact ⟨(placedChunks_stands h).1, hclear, (applyUpdateHunk_text_iff h hclear).mpr hlast⟩

/-- A chunk that changes the last line, after one that matched two lines before it. -/
theorem applyUpdateHunk_touchesInOrder_change :
    TouchesInOrder (fileLines "a\nb\nc\nd\n".toList) "f".toList
      [{oldLines := ["a".toList, "b".toList], newLines := ["x".toList]},
        {oldLines := ["d".toList], newLines := ["e".toList, "f".toList], isEndOfFile := true}] "x\nc\ne\nf\n".toList :=
  (applyUpdateHunk_touchesInOrder_iff (by decide)).mpr (by decide)

/-- The chunk for the end of the file matches a line that the chunk before it replaced, and its
own new line is lost. -/
theorem end_of_file_chunk_overlaps :
    applyUpdateHunk "f".toList "a\nb\nc\n".toList
        [{oldLines := ["b".toList, "c".toList], newLines := ["x".toList]},
          {oldLines := ["c".toList], newLines := ["d".toList], isEndOfFile := true}] = .ok "a\nx\n".toList ∧
      ¬ TouchesInOrder (fileLines "a\nb\nc\n".toList) "f".toList
        [{oldLines := ["b".toList, "c".toList], newLines := ["x".toList]},
          {oldLines := ["c".toList], newLines := ["d".toList], isEndOfFile := true}] "a\nx\n".toList :=
  ⟨by decide, fun h => absurd h.clear (by decide)⟩

end OpenClaw.Agents
