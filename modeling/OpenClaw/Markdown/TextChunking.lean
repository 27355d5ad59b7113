import OpenClaw.Foundation.CodeUnits

/-! Cutting a text at white space.

`chunkText` cuts off one chunk after the other. A chunk ends at a line break or a blank of the
window that stands outside parentheses, else where the window ends, and loses the white space
at its end; so does what is left at its start. A chunk of nothing else is dropped. -/
namespace OpenClaw.Markdown
open Foundation (Gap Spaced gap_nil gap_takeWhile gap_rtakeWhile rdropWhile_append_rtakeWhile)
open Foundation.CodeUnits List

/-! ### Where to break -/

/-- Absent for -1. -/
structure Breakpoints where
  lastNewline : Option Nat := none
  lastWhitespace : Option Nat := none
  deriving Repr, DecidableEq

structure ParenScan where
  found : Breakpoints := {}
  depth : Nat := 0
  deriving Repr, DecidableEq

def scanParenAwareUnit (isAllowed : Nat → Bool) (scan : ParenScan) (unit : UInt16 × Nat) : ParenScan :=
  let (char, i) := unit
  if !isAllowed i then scan
  else if char = openParen then { scan with depth := scan.depth + 1 }
  else if char = closeParen ∧ 0 < scan.depth then { scan with depth := scan.depth - 1 }
  else if scan.depth ≠ 0 then scan
  else if char = newline then { scan with found.lastNewline := some i }
  else if isWhiteSpace char then { scan with found.lastWhitespace := some i }
  else scan

def scanParenAwareBreakpoints (text : Text) (start stop : Nat) (isAllowed : Nat → Bool) : Breakpoints :=
  ((((text.drop start).take (stop - start)).zipIdx start).foldl (scanParenAwareUnit isAllowed) {}).found

/-! ### The chunks -/

/-- The candidate if it lies in the window, else the end of the window. -/
def breakIndex (limit : Nat) (candidateBreak : Option Nat) : Nat :=
  (candidateBreak.filter fun i => decide (0 < i ∧ i ≤ limit)).getD limit

theorem breakIndex_pos {limit : Nat} (hlimit : 0 < limit) (candidate : Option Nat) : 0 < breakIndex limit candidate := by
  unfold breakIndex
  cases h : candidate.filter fun i => decide (0 < i ∧ i ≤ limit) with
  | none => exact hlimit
  | some i => exact (of_decide_eq_true (Option.filter_eq_some_iff.mp h).2).1

theorem breakIndex_le (limit : Nat) (candidate : Option Nat) : breakIndex limit candidate ≤ limit := by
  unfold breakIndex
  cases h : candidate.filter fun i => decide (0 < i ∧ i ≤ limit) with
  | none => exact le_rfl
  | some i => exact (of_decide_eq_true (Option.filter_eq_some_iff.mp h).2).2

/-- Where the text goes on behind a break: a separator is passed over. -/
def afterBreak (text : Text) (breakIdx : Nat) : Nat :=
  min text.length (breakIdx + if whiteAt text breakIdx then 1 else 0)

theorem le_afterBreak {text : Text} {breakIdx : Nat} (h : breakIdx ≤ text.length) : breakIdx ≤ afterBreak text breakIdx :=
  le_min h (Nat.le_add_right ..)

/-- The loop over what remains of the text. -/
def cutChunks (limit : Nat) (hlimit : 0 < limit) (resolveBreakIndex : Text → Option Nat) (remaining : Text) : List Text :=
  if limit < remaining.length then
    let breakIdx := breakIndex limit (resolveBreakIndex (remaining.take limit))
    let chunk := trimEnd (remaining.take breakIdx)
    let chunks := cutChunks limit hlimit resolveBreakIndex (trimStart (remaining.drop (afterBreak remaining breakIdx)))
    if 0 < chunk.length then chunk :: chunks else chunks
  else if 0 < remaining.length then [remaining]
  else []
termination_by remaining.length
decreasing_by
  have hpos := breakIndex_pos hlimit (resolveBreakIndex (remaining.take limit))
  have hle := breakIndex_le limit (resolveBreakIndex (remaining.take limit))
  have hafter := @le_afterBreak remaining _ (hle.trans (by omega))
  refine (length_trimStart_le _).trans_lt ?_
  rw [List.length_drop]
  omega

def chunkTextByBreakResolver (text : Text) (limit : Nat) (resolveBreakIndex : Text → Option Nat) : List Text :=
  if text = [] then []
  else if hlimit : limit = 0 then [text]
  else if text.length ≤ limit then [text]
  else cutChunks limit (Nat.pos_of_ne_zero hlimit) resolveBreakIndex text

def resolveChunkEarlyReturn (text : Text) (limit : Nat) : Option (List Text) :=
  if text = [] then some []
  else if limit = 0 then some [text]
  else if text.length ≤ limit then some [text]
  else none

/-- A line break if there is one behind the first unit, else the last blank. -/
def resolveTextBreak (window : Text) : Option Nat :=
  let found := scanParenAwareBreakpoints window 0 window.length fun _ => true
  (found.lastNewline.filter (0 < ·)).or found.lastWhitespace

def chunkText (text : Text) (limit : Nat) : List Text :=
  (resolveChunkEarlyReturn text limit).getD (chunkTextByBreakResolver text limit resolveTextBreak)

example : chunkText (units "ab (c d) ef") 8 = [units "ab", units "(c d) ef"] := by decide +kernel

/-! ### One break -/

/-- What a break drops is white space: the end of the chunk, a separator and the start of the
rest. -/
theorem break_split (text : Text) {breakIdx : Nat} (h : breakIdx ≤ text.length) :
    ∃ gap, White gap ∧
      text = trimEnd (text.take breakIdx) ++ (gap ++ trimStart (text.drop (afterBreak text breakIdx))) := by
  have hsep : ∃ sep, White sep ∧ text.drop breakIdx = sep ++ text.drop (afterBreak text breakIdx) := by
    refine ⟨(text.drop breakIdx).take (afterBreak text breakIdx - breakIdx), ?_, ?_⟩
    · intro c hc
      by_cases hwhite : whiteAt text breakIdx = true
      · rw [whiteAt, Option.any_eq_true] at hwhite
        obtain ⟨d, hd, hwhite⟩ := hwhite
        have hlt := (List.getElem?_eq_some_iff.mp hd).1
        have hget : (text.drop breakIdx)[0]? = some d := by rw [getElem?_drop, Nat.add_zero, hd]
        have hone : (text.drop breakIdx).take 1 = [d] := by
          rw [take_one, head?_eq_getElem?, hget]
          rfl
        have hcount : afterBreak text breakIdx - breakIdx ≤ 1 := by
          unfold afterBreak
          split <;> omega
        have hmem : c ∈ (text.drop breakIdx).take 1 := (take_prefix_take_left hcount).subset hc
        rw [hone, mem_singleton] at hmem
        rw [hmem]
        exact hwhite
      · have hzero : afterBreak text breakIdx - breakIdx = 0 := by
          rw [afterBreak, if_neg hwhite]
          omega
        rw [hzero, take_zero] at hc
        cases hc
    · have hdrop : text.drop (afterBreak text breakIdx) =
          (text.drop breakIdx).drop (afterBreak text breakIdx - breakIdx) := by
        rw [drop_drop, Nat.add_sub_cancel' (le_afterBreak h)]
      rw [hdrop, take_append_drop]
  obtain ⟨sep, hsep, hdrop⟩ := hsep
  refine ⟨(text.take breakIdx).rtakeWhile isWhiteSpace ++
    (sep ++ (text.drop (afterBreak text breakIdx)).takeWhile isWhiteSpace),
    (gap_rtakeWhile _).append (hsep.append (gap_takeWhile _)), ?_⟩
  conv_lhs =>
    rw [← take_append_drop breakIdx text, hdrop, ← rdropWhile_append_rtakeWhile (p := isWhiteSpace) (text.take breakIdx),
      ← takeWhile_append_dropWhile (p := isWhiteSpace) (l := text.drop (afterBreak text breakIdx))]
  simp only [trimEnd, trimStart, append_assoc]

/-! ### All chunks -/

section Chunks
variable {limit : Nat} {hlimit : 0 < limit} {resolveBreakIndex : Text → Option Nat}

theorem cutChunks_of_le {remaining : Text} (h : remaining.length ≤ limit) :
    cutChunks limit hlimit resolveBreakIndex remaining = if remaining = [] then [] else [remaining] := by
  rw [cutChunks, if_neg (not_lt.mpr h)]
  simp only [length_pos_iff, ne_eq, ite_not]

/-- One chunk is cut off, or nothing but white space is. -/
theorem cutChunks_of_lt {remaining : Text} (h : limit < remaining.length) :
    ∃ chunk gap rest, chunk.length ≤ limit ∧ White gap ∧ remaining = chunk ++ (gap ++ trimStart rest) ∧
      (trimStart rest).length < remaining.length ∧
      chunk = trimEnd (remaining.take (breakIndex limit (resolveBreakIndex (remaining.take limit)))) ∧
      cutChunks limit hlimit resolveBreakIndex remaining =
        if chunk = [] then cutChunks limit hlimit resolveBreakIndex (trimStart rest)
        else chunk :: cutChunks limit hlimit resolveBreakIndex (trimStart rest) := by
  have hpos := breakIndex_pos hlimit (resolveBreakIndex (remaining.take limit))
  have hle := breakIndex_le limit (resolveBreakIndex (remaining.take limit))
  generalize hidx : breakIndex limit (resolveBreakIndex (remaining.take limit)) = breakIdx at hpos hle
  obtain ⟨gap, hgap, hsplit⟩ := @break_split remaining breakIdx (by omega)
  refine ⟨trimEnd (remaining.take breakIdx), gap, remaining.drop (afterBreak remaining breakIdx), ?_, hgap, hsplit, ?_, rfl, ?_⟩
  · exact (length_trimEnd_le _).trans ((length_take_le ..).trans hle)
  · have hafter := @le_afterBreak remaining breakIdx (by omega)
    refine (length_trimStart_le _).trans_lt ?_
    rw [length_drop]
    omega
  · rw [cutChunks, if_pos h, hidx]
    simp only [length_pos_iff, ne_eq, ite_not]

theorem cutChunks_spaced (remaining : Text) :
    Spaced isWhiteSpace (cutChunks limit hlimit resolveBreakIndex remaining) remaining := by
  induction hn : remaining.length using Nat.strong_induction_on generalizing remaining with
  | _ n ih =>
    by_cases h : limit < remaining.length
    · obtain ⟨chunk, gap, rest, -, hgap, hsplit, hlt, -, heq⟩ := @cutChunks_of_lt _ hlimit
        resolveBreakIndex _ h
      have hrest := ih _ (hn ▸ hlt) (trimStart rest) rfl
      rw [heq]
      conv => enter [3]; rw [hsplit]
      split
      · rename_i hnil
        rw [hnil, nil_append]
        exact hrest.gap_append hgap
      · exact Spaced.cons gap_nil hgap hrest
    · rw [cutChunks_of_le (not_lt.mp h)]
      split
      · rename_i hnil
        rw [hnil]
        exact .done gap_nil
      · exact .single remaining

theorem length_of_mem_cutChunks (remaining : Text) :
    ∀ c ∈ cutChunks limit hlimit resolveBreakIndex remaining, c.length ≤ limit := by
  induction hn : remaining.length using Nat.strong_induction_on generalizing remaining with
  | _ n ih =>
    intro c hc
    by_cases h : limit < remaining.length
    · obtain ⟨chunk, gap, rest, hle, -, -, hlt, -, heq⟩ := @cutChunks_of_lt _ hlimit
        resolveBreakIndex _ h
      have hrest := ih _ (hn ▸ hlt) (trimStart rest) rfl
      rw [heq] at hc
      split at hc
      · exact hrest c hc
      · rcases mem_cons.mp hc with rfl | hc
        · exact hle
        · exact hrest c hc
    · rw [cutChunks_of_le (not_lt.mp h)] at hc
      split at hc
      · cases hc
      · rw [mem_singleton.mp hc]
        exact not_lt.mp h

/-- What remains of a text begins without white space, and so does each of its chunks. -/
theorem startsVisible_of_mem_cutChunks {remaining : Text} (h : remaining = [] ∨ StartsVisible remaining) :
    ∀ c ∈ cutChunks limit hlimit resolveBreakIndex remaining, StartsVisible c := by
  induction hn : remaining.length using Nat.strong_induction_on generalizing remaining with
  | _ n ih =>
    intro c hc
    by_cases hlt : limit < remaining.length
    · obtain ⟨chunk, gap, rest, -, -, hsplit, hrest, -, heq⟩ := @cutChunks_of_lt _ hlimit
        resolveBreakIndex _ hlt
      have hchunks := ih _ (hn ▸ hrest) (or_iff_not_imp_left.mpr (@startsVisible_trimStart rest)) rfl
      rw [heq] at hc
      split at hc
      · exact hchunks c hc
      · rename_i hne
        rcases mem_cons.mp hc with rfl | hc
        · rcases h with hnil | h
          · rw [hnil] at hlt
            exact absurd hlt (Nat.not_lt_zero limit)
          · exact h.of_prefix ⟨_, hsplit.symm⟩ hne
        · exact hchunks c hc
    · rw [cutChunks_of_le (not_lt.mp hlt)] at hc
      split at hc
      · cases hc
      · rename_i hne
        rw [mem_singleton.mp hc]
        exact h.resolve_left hne

end Chunks

/-- The chunks are those of the loop, which is not entered for a text that fits. -/
theorem chunkText_eq (text : Text) {limit : Nat} (hlimit : 0 < limit) :
    chunkText text limit = cutChunks limit hlimit resolveTextBreak text := by
  unfold chunkText resolveChunkEarlyReturn chunkTextByBreakResolver
  have hne : limit ≠ 0 := hlimit.ne'
  by_cases htext : text = []
  · subst htext
    rw [if_pos rfl, Option.getD_some, cutChunks_of_le (Nat.zero_le _), if_pos rfl]
  · by_cases hle : text.length ≤ limit
    · rw [if_neg htext, if_neg hne, if_pos hle, Option.getD_some, cutChunks_of_le hle, if_neg htext]
    · simp only [if_neg htext, if_neg hne, if_neg hle, dif_neg hne, Option.getD_none]

theorem chunkText_spaced (text : Text) {limit : Nat} (hlimit : 0 < limit) :
    Spaced isWhiteSpace (chunkText text limit) text := by
  rw [chunkText_eq text hlimit]
  exact cutChunks_spaced text

theorem length_of_mem_chunkText {text : Text} {limit : Nat} (hlimit : 0 < limit) :
    ∀ c ∈ chunkText text limit, c.length ≤ limit := by
  rw [chunkText_eq text hlimit]
  exact length_of_mem_cutChunks text

end OpenClaw.Markdown
