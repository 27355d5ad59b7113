import OpenClaw.Foundation.Surrogates

/-! What an embedding model is sent.

A chunk whose text is longer than the model's limit is split. The limit counts bytes; a cut
is found by a binary search over the code units, and moved back by one where it would fall inside
a surrogate pair. -/
namespace OpenClaw.Memory

open List Foundation.CodeUnits

/-! ## The splitting -/

/-- The binary search for the longest prefix that fits; `low` is always `best + 1`. -/
def searchCut (fits : Nat → Bool) (best high : Nat) : Nat :=
  if best < high then
    let mid := (best + 1 + high) / 2
    if fits mid then searchCut fits mid high else searchCut fits best (mid - 1)
  else best
termination_by high - best

variable (max : Nat) (rest : Text)

/-- The longest prefix of the text behind the cursor that fits, or its first unit. -/
def bestCut : Nat :=
  let best := searchCut (fun n => utf8ByteLength (rest.take n) ≤ max) 0 (min rest.length max)
  if best = 0 then min rest.length 1 else best

/-- Where the text behind the cursor is cut. -/
def nextCut : Nat :=
  -- Avoid splitting inside a surrogate pair.
  if splitsPair (rest.take (bestCut max rest)) (rest.drop (bestCut max rest)) then bestCut max rest - 1
  else bestCut max rest

/-- The loop over the cursor. An empty part ends it. -/
def splitFrom (rest : Text) : List Text :=
  if rest = [] then []
  else if h : rest.take (nextCut max rest) = [] then []
  else rest.take (nextCut max rest) :: splitFrom (rest.drop (nextCut max rest))
termination_by rest.length
decreasing_by
  rw [take_eq_nil_iff, not_or] at h
  have := length_pos_of_ne_nil h.2
  rw [length_drop]
  omega

def splitTextToUtf8ByteLimit (text : Text) : List Text :=
  if max = 0 then [text]
  else if utf8ByteLength text ≤ max then [text]
  else splitFrom max text

/-! ## The chunks -/

inductive EmbeddingInputPart
  | text (text : Text)
  | inlineData (mimeType data : Text)

def EmbeddingInputPart.isInlineData : EmbeddingInputPart → Bool
  | .inlineData .. => true
  | .text _ => false

structure EmbeddingInput where
  text : Text
  parts : List EmbeddingInputPart := []

structure MemoryChunk where
  startLine : Nat
  endLine : Nat
  text : Text
  hash : String
  embeddingInput : Option EmbeddingInput

def hasNonTextEmbeddingParts (input : Option EmbeddingInput) : Bool :=
  input.any (·.parts.any EmbeddingInputPart.isInlineData)

/-- What one chunk becomes. -/
def enforceChunk (hashText : Text → String) (maxInputTokens : Nat) (chunk : MemoryChunk) : List MemoryChunk :=
  if hasNonTextEmbeddingParts chunk.embeddingInput then [chunk]
  else if utf8ByteLength chunk.text ≤ maxInputTokens then [chunk]
  else (splitTextToUtf8ByteLimit maxInputTokens chunk.text).map fun text =>
    ⟨chunk.startLine, chunk.endLine, text, hashText text, some ⟨text, []⟩⟩

def resolveMaxInputTokens (providerMaxInputTokens : Nat) (hardMaxInputTokens : Option Nat) : Nat :=
  match hardMaxInputTokens with
  | some hard => if 0 < hard then min providerMaxInputTokens hard else providerMaxInputTokens
  | none => providerMaxInputTokens

def enforceEmbeddingMaxInputTokens (hashText : Text → String) (providerMaxInputTokens : Nat)
    (chunks : List MemoryChunk) (hardMaxInputTokens : Option Nat) : List MemoryChunk :=
  chunks.flatMap (enforceChunk hashText (resolveMaxInputTokens providerMaxInputTokens hardMaxInputTokens))

/-! ## One cut -/

theorem searchCut_spec (fits : Nat → Bool) {top best high : Nat} (hle : best ≤ high)
    (hfits : best = 0 ∨ fits best = true) (htop : high = top ∨ fits (high + 1) = false) :
    (searchCut fits best high = 0 ∨ fits (searchCut fits best high) = true) ∧
      (searchCut fits best high = top ∨ fits (searchCut fits best high + 1) = false) := by
  fun_induction searchCut fits best high with
  | case1 best high hlt mid hmid ih => exact ih (by omega) (.inr hmid) htop
  | case2 best high hlt mid hmid ih =>
    refine ih (by omega) hfits (.inr ?_)
    rw [Nat.sub_add_cancel (by omega)]
    exact eq_false_of_ne_true hmid
  | case3 best high hlt =>
    obtain rfl : best = high := by omega
    exact ⟨hfits, htop⟩

variable {max} {rest}

theorem bestCut_spec (hmax : 0 < max) (hrest : rest ≠ []) : 0 < bestCut max rest ∧
    ((utf8ByteLength (rest.take (bestCut max rest)) ≤ max ∧ (bestCut max rest = min rest.length max ∨
        max < utf8ByteLength (rest.take (bestCut max rest + 1)))) ∨
      bestCut max rest = 1 ∧ max < utf8ByteLength (rest.take 1)) := by
  have hlen := length_pos_of_ne_nil hrest
  obtain ⟨hfits, htop⟩ := searchCut_spec (fun n => decide (utf8ByteLength (rest.take n) ≤ max))
    (Nat.zero_le (min rest.length max)) (.inl rfl) (.inl rfl)
  rw [decide_eq_true_eq] at hfits
  rw [decide_eq_false_iff_not, not_le] at htop
  rw [bestCut]
  split_ifs with h
  · rw [h] at htop
    rw [Nat.min_eq_right hlen]
    exact ⟨Nat.one_pos, .inr ⟨rfl, htop.resolve_left (by omega)⟩⟩
  · exact ⟨Nat.pos_of_ne_zero h, .inl ⟨hfits.resolve_left h, htop⟩⟩

/-- The cut is one unit before where that is inside a pair. -/
theorem nextCut_cases (max : Nat) (rest : Text) :
    (splitsPair (rest.take (bestCut max rest)) (rest.drop (bestCut max rest)) = false ∧
        nextCut max rest = bestCut max rest) ∨
      ∃ before high low after, rest = before ++ high :: low :: after ∧ isSurrogatePair high low = true ∧
        bestCut max rest = before.length + 1 ∧ nextCut max rest = before.length := by
  rw [nextCut]
  split_ifs with h
  · right
    obtain ⟨before, high, low, after, htake, hdrop, hpair⟩ := splitsPair_iff.mp h
    have hrest := take_append_drop (bestCut max rest) rest
    rw [htake, hdrop, append_assoc, singleton_append] at hrest
    have hlength := congrArg length htake
    have hwhole := congrArg length hrest
    rw [length_take, length_append, length_singleton] at hlength
    rw [length_append, length_cons, length_cons] at hwhole
    exact ⟨before, high, low, after, hrest.symm, hpair, by omega, by omega⟩
  · exact .inl ⟨eq_false_of_ne_true h, rfl⟩

theorem nextCut_keeps (max : Nat) (rest : Text) :
    splitsPair (rest.take (nextCut max rest)) (rest.drop (nextCut max rest)) = false := by
  obtain ⟨hkept, hcut⟩ | ⟨before, high, low, after, rfl, hpair, -, hcut⟩ := nextCut_cases max rest
  · rwa [hcut]
  · rw [hcut, take_left, drop_left]
    exact splitsPair_before hpair

/-- From four bytes on, a whole character fits. -/
theorem nextCut_fits (hmax : 4 ≤ max) (hrest : rest ≠ []) :
    0 < nextCut max rest ∧ utf8ByteLength (rest.take (nextCut max rest)) ≤ max := by
  obtain ⟨hpos, ⟨hfits, htop⟩ | ⟨hone, hover⟩⟩ := bestCut_spec (by omega : 0 < max) hrest
  · obtain ⟨-, hcut⟩ | ⟨before, high, low, after, rfl, hpair, hbest, hcut⟩ := nextCut_cases max rest
    · rw [hcut]
      exact ⟨hpos, hfits⟩
    · rw [hbest, take_length_add_append] at hfits
      rw [hcut, take_left]
      refine ⟨length_pos_iff.mpr ?_, (utf8ByteLength_le_append _ _).trans hfits⟩
      -- the pair itself is four bytes, so the search went past its first half
      rintro rfl
      rw [hbest] at htop
      have hfour : utf8ByteLength [high, low] = 4 := by rw [utf8ByteLength, if_pos hpair, utf8ByteLength]
      rcases htop with htop | htop
      · rw [nil_append, length_cons, length_cons, length_nil] at htop
        omega
      · exact absurd (htop.trans_eq hfour) (by omega)
  · obtain ⟨a, rest, rfl⟩ := exists_cons_of_ne_nil hrest
    have hunit := unitBytes_le a
    rw [take_succ_cons, take_zero, utf8ByteLength] at hover
    omega

/-- Below four bytes no part has room for a pair. -/
theorem pairFree_take (hmax : 0 < max) (hlt : max < 4) (hrest : rest ≠ []) :
    PairFree (rest.take (nextCut max rest)) := by
  have hbest : PairFree (rest.take (bestCut max rest)) := by
    obtain ⟨-, ⟨hfits, -⟩ | ⟨hone, -⟩⟩ := bestCut_spec hmax hrest
    · exact pairFree_of_bytes (by omega)
    · obtain ⟨a, rest, rfl⟩ := exists_cons_of_ne_nil hrest
      rw [hone]
      exact .singleton a
  obtain ⟨-, hcut⟩ | ⟨before, high, low, after, rfl, -, hlength, hcut⟩ := nextCut_cases max rest
  · rwa [hcut]
  · rw [hlength, take_length_add_append] at hbest
    rw [hcut, take_left]
    exact (pairFree_append.mp hbest).1

/-- The cut goes back to the cursor only from inside a pair. -/
theorem nextCut_pos (hmax : 0 < max) (hrest : rest ≠ []) (hfree : PairFree rest) : 0 < nextCut max rest := by
  obtain ⟨-, hcut⟩ | ⟨before, high, low, after, rfl, hpair, -, -⟩ := nextCut_cases max rest
  · rw [hcut]
    exact (bestCut_spec hmax hrest).1
  · have hafter := (pairFree_append.mp hfree).2.1
    rw [PairFree, isChain_cons_cons, hpair] at hafter
    cases hafter.1

/-! ## The whole loop -/

/-- The parts are the text where a pair fits, and where there is none. -/
theorem flatten_splitFrom (hmax : 0 < max) :
    (splitFrom max rest).flatten = rest ↔ 4 ≤ max ∨ PairFree rest := by
  fun_induction splitFrom max rest with
  | case1 => exact iff_of_true rfl (.inr .nil)
  | case2 rest hrest hpart =>
    rw [take_eq_nil_iff, or_iff_left hrest] at hpart
    refine iff_of_false (Ne.symm hrest) ?_
    rintro (hfour | hfree)
    · exact (nextCut_fits hfour hrest).1.ne' hpart
    · exact (nextCut_pos hmax hrest hfree).ne' hpart
  | case3 rest hrest hpart ih =>
    have hsplit := take_append_drop (nextCut max rest) rest
    have hfree : PairFree rest ↔ PairFree (rest.take (nextCut max rest)) ∧ PairFree (rest.drop (nextCut max rest)) := by
      conv_lhs => rw [← hsplit, pairFree_append, nextCut_keeps, eq_self, and_true]
    calc _ ↔ (splitFrom max (rest.drop (nextCut max rest))).flatten = rest.drop (nextCut max rest) := by
          rw [flatten_cons]
          exact ⟨fun h => append_cancel_left (h.trans hsplit.symm), fun h => by rw [h, hsplit]⟩
      _ ↔ 4 ≤ max ∨ PairFree (rest.drop (nextCut max rest)) := ih
      _ ↔ 4 ≤ max ∨ PairFree rest := by
          refine or_congr_right' fun hlt => ?_
          rw [hfree, and_iff_right (pairFree_take hmax (by omega) hrest)]

theorem mem_splitFrom (hmax : 4 ≤ max) {part : Text} (h : part ∈ splitFrom max rest) :
    part ≠ [] ∧ utf8ByteLength part ≤ max := by
  fun_induction splitFrom max rest with
  | case1 | case2 => cases h
  | case3 rest hrest hpart ih =>
    rcases mem_cons.mp h with rfl | h
    · exact ⟨hpart, (nextCut_fits hmax hrest).2⟩
    · exact ih h

/-- The first part begins as the text does. -/
theorem head_splitFrom {part : Text} (h : part ∈ (splitFrom max rest).head?) : part.head? = rest.head? := by
  rw [splitFrom] at h
  split_ifs at h with hrest hpart
  · cases h
  · cases h
  · obtain rfl := Option.some.inj h
    rw [take_eq_nil_iff, not_or] at hpart
    rw [head?_take, if_neg hpart.1]

theorem isChain_splitFrom (max : Nat) (rest : Text) :
    (splitFrom max rest).IsChain (splitsPair · · = false) := by
  fun_induction splitFrom max rest with
  | case1 | case2 => exact .nil
  | case3 rest hrest hpart ih =>
    refine isChain_cons.mpr ⟨fun next hnext => ?_, ih⟩
    rw [splitsPair, head_splitFrom hnext]
    exact nextCut_keeps max rest

/-! ## What holds of the parts -/

/-- The parts are the text; from four bytes on, where the text is over the limit, none is empty or over it and no
boundary is inside a pair. -/
def SplitsWhole (text : Text) (max : Nat) : Prop :=
  (splitTextToUtf8ByteLimit max text).flatten = text ∧
    (4 ≤ max → max < utf8ByteLength text →
      (∀ part ∈ splitTextToUtf8ByteLimit max text, part ≠ [] ∧ utf8ByteLength part ≤ max) ∧
        (splitTextToUtf8ByteLimit max text).IsChain (splitsPair · · = false))

/-- What is sent for a text chunk is its text, from four bytes on in parts within the limit. -/
def EnforcesLimit (hashText : Text → String) (max : Nat) (chunk : MemoryChunk) : Prop :=
  ((enforceChunk hashText max chunk).map MemoryChunk.text).flatten = chunk.text ∧
    (4 ≤ max → ∀ part ∈ enforceChunk hashText max chunk, utf8ByteLength part.text ≤ max)

theorem flatten_splitText (max : Nat) (text : Text) :
    (splitTextToUtf8ByteLimit max text).flatten = text ↔ max = 0 ∨ 4 ≤ max ∨ PairFree text := by
  rw [splitTextToUtf8ByteLimit]
  split_ifs with hzero hfits
  · exact iff_of_true flatten_singleton (.inl hzero)
  · refine iff_of_true flatten_singleton (.inr ?_)
    by_cases hfour : 4 ≤ max
    · exact .inl hfour
    · exact .inr (pairFree_of_bytes (by omega))
  · rw [or_iff_right hzero]
    exact flatten_splitFrom (Nat.pos_of_ne_zero hzero)

theorem mem_splitText (hmax : 4 ≤ max) {text part : Text} (h : part ∈ splitTextToUtf8ByteLimit max text) :
    utf8ByteLength part ≤ max := by
  rw [splitTextToUtf8ByteLimit, if_neg (by omega)] at h
  split_ifs at h with hfits
  · rwa [mem_singleton.mp h]
  · exact (mem_splitFrom hmax h).2

theorem splitsWhole_iff (max : Nat) (text : Text) : SplitsWhole text max ↔ max = 0 ∨ 4 ≤ max ∨ PairFree text := by
  rw [SplitsWhole, flatten_splitText, and_iff_left]
  intro hfour hover
  rw [splitTextToUtf8ByteLimit, if_neg (by omega), if_neg (by omega)]
  exact ⟨fun part h => mem_splitFrom hfour h, isChain_splitFrom max text⟩

theorem enforcesLimit_iff (hashText : Text → String) (max : Nat) {chunk : MemoryChunk}
    (htext : hasNonTextEmbeddingParts chunk.embeddingInput = false) :
    EnforcesLimit hashText max chunk ↔ max = 0 ∨ 4 ≤ max ∨ PairFree chunk.text := by
  have hchunk : (enforceChunk hashText max chunk).map MemoryChunk.text = splitTextToUtf8ByteLimit max chunk.text := by
    rw [enforceChunk, if_neg (by rw [htext]; nofun)]
    split_ifs with hfits
    · rw [splitTextToUtf8ByteLimit, if_pos hfits, ite_self]
      rfl
    · exact (map_map ..).trans (map_id _)
  rw [EnforcesLimit, hchunk, flatten_splitText, and_iff_left]
  intro hfour part hpart
  exact mem_splitText hfour (hchunk ▸ mem_map_of_mem hpart)

/-- **Nothing is lost exactly where a pair fits** or there is none, by the splitting and by what
is sent for each text chunk. -/
theorem splitting_exact (hashText : Text → String) :
    (∀ text max, SplitsWhole text max ↔ max = 0 ∨ 4 ≤ max ∨ PairFree text) ∧
    ∀ providerMaxInputTokens hardMaxInputTokens chunks,
      let max := resolveMaxInputTokens providerMaxInputTokens hardMaxInputTokens
      enforceEmbeddingMaxInputTokens hashText providerMaxInputTokens chunks hardMaxInputTokens =
        (chunks.map (enforceChunk hashText max)).flatten ∧
      ((∀ chunk ∈ chunks, hasNonTextEmbeddingParts chunk.embeddingInput = false → EnforcesLimit hashText max chunk) ↔
        ∀ chunk ∈ chunks, hasNonTextEmbeddingParts chunk.embeddingInput = false →
          max = 0 ∨ 4 ≤ max ∨ PairFree chunk.text) :=
  ⟨fun text max => splitsWhole_iff max text, fun _ _ _ => ⟨rfl, forall_congr' fun _ => forall_congr' fun _ =>
    forall_congr' fun htext => enforcesLimit_iff hashText _ htext⟩⟩

/-- The cut goes back to the cursor, and the empty part ends the loop. -/
theorem emoji_lost : splitTextToUtf8ByteLimit 3 (units "😀") = [] := by
  decide +kernel

end OpenClaw.Memory
