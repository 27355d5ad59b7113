import Mathlib.Data.List.Sort
import OpenClaw.Config.Json5String
import OpenClaw.Config.DeepEqual
import OpenClaw.Config.RedactionRoundTrip
import OpenClaw.Foundation.ReplaceAll

/-! Redacting the text a config was read from.

`redactConfigSnapshot` replaces every sensitive value in the raw text, longest first,
and hands the text out if restoring its parse gives the config back. The parser is a
parameter. A value that the text spells with escapes is not found, and then restoring
gives the config back all the same. -/
namespace OpenClaw.Config
open List

open Foundation (replaceAll)

variable {w : Walker} {base s : String} {v : Value} {path : List Step} {values : List String} {text : List Char}

section Raw
variable (parse : List Char → Option Value) (rules : Rules) (hints : ConfigUiHints)

/-! ### The snapshot -/

/-- `value.length`. -/
def utf16Length (s : String) : Nat := (units s.toList).length

/-- The values to replace: each once, none empty, the longest first. -/
def replacedValues (sensitiveValues : List String) : List String :=
  (sensitiveValues.eraseDups.filter (· ≠ "")).insertionSort fun a b => utf16Length b ≤ utf16Length a

def replaceSensitiveValuesInRaw (raw : List Char) (sensitiveValues : List String) : List Char :=
  (replacedValues sensitiveValues).foldl
    (fun result value => replaceAll value.toList redactedSentinel.toList result) raw

def redactRawText (raw : List Char) (config : Value) : List Char :=
  replaceSensitiveValuesInRaw raw (collectSensitiveValues rules hints config)

def shouldFallbackToStructuredRawRedaction (redactedRaw : List Char) (originalConfig : Value) : Bool :=
  match parse redactedRaw with
  | none => true
  | some parsed =>
    match restoreRedactedValues rules hints parsed originalConfig with
    | .error _ => true
    | .ok restored => !restored.deepEqual originalConfig

structure ConfigFileSnapshot where
  valid : Bool
  raw : Option (List Char)
  parsed : Option Value
  config : Value
  resolved : Value

def redactConfigSnapshot (snapshot : ConfigFileSnapshot) : ConfigFileSnapshot :=
  if !snapshot.valid then
    {snapshot with config := .object [], raw := none, parsed := none, resolved := .object []}
  else
    -- an empty text is no text
    let redactedRaw := (snapshot.raw.filter (· ≠ [])).map (redactRawText rules hints · snapshot.config)
    { snapshot with
      config := redactConfigObject rules hints snapshot.config
      parsed := snapshot.parsed.map (redactConfigObject rules hints)
      raw := redactedRaw.filter fun raw =>
        raw = [] || !shouldFallbackToStructuredRawRedaction parse rules hints raw snapshot.config
      resolved := redactConfigObject rules hints snapshot.resolved }

/-! ### Leaves -/

inductive Step where
  | key (key : String)
  | index (i : Nat)
  deriving Repr, DecidableEq

def valueAt : List Step → Value → Option Value
  | [], v => some v
  | .key key :: path, .object entries => (entries.lookup key).bind (valueAt path)
  | .index i :: path, .array items => items[i]?.bind (valueAt path)
  | _, _ => none

/-- The string at a path. -/
def leafAt (path : List Step) (v : Value) : Option String := (valueAt path v).bind Value.text?

/-- A string that redaction replaces by the sentinel. -/
def Replaced (config : Value) (path : List Step) (s : String) : Prop :=
  leafAt path config = some s ∧ leafAt path (redactConfigObject rules hints config) = some redactedSentinel ∧
    s ≠ redactedSentinel

/-! ### What is replaced is collected -/

/-- The secrets of one value, as its walker collects them. -/
def secretsOf (t : Treatment) (v : Value) : List String :=
  match t with
  | .keep => []
  | .hide secrets => secrets
  | .hideId id => [id]
  | .walk w base => (redactWith rules hints w base v).2

theorem redactEntries_secrets {key : String} {entries : Entries} (h : entries.lookup key = some v)
    (hs : s ∈ secretsOf rules hints (entryTreatment rules hints w base key v) v) :
    s ∈ (redactEntries rules hints w base entries).2 := by
  induction entries with
  | nil => cases h
  | cons e rest ih =>
    obtain ⟨k, u⟩ := e
    rw [redactEntries, mem_append]
    rw [lookup_cons] at h
    cases hk : key == k with
    | true =>
      rw [hk] at h
      cases h
      rw [← beq_iff_eq.mp hk]
      refine Or.inl ?_
      cases ht : entryTreatment rules hints w base key v <;> rw [ht] at hs <;> exact hs
    | false =>
      rw [hk] at h
      exact Or.inr (ih h)

theorem redactItems_secrets {hides : Bool} {path : String} {items : List Value} {i : Nat}
    (h : items[i]? = some v) (hs : s ∈ secretsOf rules hints (itemTreatment w hides path v) v) :
    s ∈ (redactItems rules hints w hides path items).2 := by
  induction items generalizing i with
  | nil => cases h
  | cons u rest ih =>
    rw [redactItems, mem_append]
    cases i with
    | zero =>
      cases h
      refine Or.inl ?_
      cases ht : itemTreatment w hides path v with
      | hideId id => exact absurd ht (itemTreatment_ne_hideId w hides path v id)
      | keep | hide | walk => rw [ht] at hs; exact hs
    | succ i => exact Or.inr (ih h)

theorem redactItems_getElem? {hides : Bool} {path : String} {items : List Value} {i : Nat} :
    (redactItems rules hints w hides path items).1[i]? =
      items[i]?.map fun v => redactedValue rules hints (itemTreatment w hides path v) v := by
  induction items generalizing i with
  | nil => rw [redactItems]; rfl
  | cons u rest ih =>
    rw [redactItems_cons]
    cases i with
    | zero => rfl
    | succ i => exact ih

theorem redactEntries_proto {entries : Entries} :
    (redactEntries rules hints w base entries).1.lookup "__proto__" = none := by
  induction entries with
  | nil => rw [redactEntries]; rfl
  | cons e rest ih =>
    obtain ⟨k, v⟩ := e
    rw [redactEntries_cons, assign]
    split
    · exact ih
    · rename_i hk
      have hne : ("__proto__" == k) = false := beq_eq_false_iff_ne.mpr (Ne.symm hk)
      rw [lookup_cons, hne]
      exact ih

/-- A string is hidden as a secret unless it is a placeholder. -/
theorem hidden_string {key : String} {secrets : List String}
    (h : entryTreatment rules hints w base key (.string s) = .hide secrets) (henv : isEnvVarPlaceholder s = false) :
    s ∈ secrets := by
  unfold entryTreatment at h
  cases w with
  | guessing =>
    simp only [guessingTreatment, treatUrl, henv] at h
    repeat' split at h
    all_goals cases h
    all_goals exact mem_singleton_self s
  | withLookup lookup =>
    dsimp only at h
    split at h
    · simp only [matchedTreatment, henv] at h
      cases h
      exact mem_singleton_self s
    · simp only [unmatchedTreatment, treatUrl, henv] at h
      repeat' split at h
      all_goals cases h
      all_goals exact mem_singleton_self s

/-- Redaction at a path of a value that it treats in some way. -/
theorem leaf_secret {t : Treatment}
    (hwalk : ∀ w base, t = .walk w base → leafAt path (redactWith rules hints w base v).1 = some redactedSentinel → s ∈ (redactWith rules hints w base v).2)
    (hhide : ∀ secrets, t = .hide secrets → v = .string s → s ∈ secrets)
    (hid : ∀ id, t = .hideId id → ∃ entries, v = .object entries ∧ textField entries "id" = some id)
    (hleaf : leafAt path v = some s) (hne : s ≠ redactedSentinel)
    (hredacted : leafAt path (redactedValue rules hints t v) = some redactedSentinel) :
    s ∈ secretsOf rules hints t v := by
  cases t with
  | keep =>
    rw [redactedValue, hleaf] at hredacted
    exact absurd (Option.some.inj hredacted) hne
  | hide secrets =>
    cases path with
    | nil =>
      cases v <;> cases hleaf
      exact hhide secrets rfl rfl
    | cons step path => cases step <;> cases hredacted
  | hideId id =>
    obtain ⟨entries, rfl, htext⟩ := hid id rfl
    cases path with
    | nil => cases hleaf
    | cons step path =>
      cases step with
      | index i => cases hleaf
      | key key =>
        rw [redactedValue, toObjectRecord_object] at hredacted
        simp only [leafAt, valueAt] at hleaf hredacted
        by_cases hkey : key = "id"
        · subst hkey
          obtain ⟨x, hx, hxt⟩ := Option.bind_eq_some_iff.mp htext
          rw [hx, Option.bind_some] at hleaf
          cases x <;> cases hxt
          cases path with
          | nil =>
            cases hleaf
            exact mem_singleton_self _
          | cons step path => cases step <;> cases hleaf
        · rw [withField_lookup_ne _ _ hkey, hleaf] at hredacted
          exact absurd (Option.some.inj hredacted) hne
  | walk w base => exact hwalk w base rfl hredacted

theorem replaced_collected (hleaf : leafAt path v = some s)
    (hredacted : leafAt path (redactWith rules hints w base v).1 = some redactedSentinel)
    (hne : s ≠ redactedSentinel) (henv : isEnvVarPlaceholder s = false) :
    s ∈ (redactWith rules hints w base v).2 := by
  induction path generalizing w base v with
  | nil =>
    cases v <;> cases hleaf
    exact absurd (by simpa [redactWith, leafAt, valueAt, Value.text?] using hredacted) hne
  | cons step path ih =>
    cases v with
    | undefined | null | bool | number | string => cases step <;> cases hleaf
    | array items =>
      cases step with
      | key key => cases hleaf
      | index i =>
        rw [redactWith] at hredacted ⊢
        simp only [leafAt, valueAt, redactItems_getElem?] at hleaf hredacted
        cases hv : items[i]? with
        | none => rw [hv] at hleaf; cases hleaf
        | some u =>
          rw [hv] at hleaf hredacted
          refine redactItems_secrets rules hints hv (leaf_secret rules hints ?_ ?_ ?_ hleaf hne hredacted)
          · exact fun w base _ h => ih hleaf h
          · intro secrets ht hstring
            subst hstring
            rw [itemTreatment] at ht
            split at ht
            · cases ht
              exact mem_singleton_self s
            · cases ht
          · exact fun id ht => absurd ht (itemTreatment_ne_hideId _ _ _ u id)
    | object entries =>
      cases step with
      | index i => cases hleaf
      | key key =>
        rw [redactWith] at hredacted ⊢
        simp only [leafAt, valueAt] at hleaf hredacted
        by_cases hk : key = "__proto__"
        · rw [hk, redactEntries_proto] at hredacted
          cases hredacted
        · rw [redactEntries_lookup rules hints hk] at hredacted
          cases hv : entries.lookup key with
          | none => rw [hv] at hleaf; cases hleaf
          | some u =>
            rw [hv] at hleaf hredacted
            refine redactEntries_secrets rules hints hv (leaf_secret rules hints ?_ ?_ ?_ hleaf hne hredacted)
            · exact fun w base _ h => ih hleaf h
            · intro secrets ht hstring
              subst hstring
              exact hidden_string rules hints ht henv
            · intro id ht
              obtain ⟨_, _, fields, -, -, rfl, -, htext⟩ := entryTreatment_hideId rules hints ht
              exact ⟨fields, rfl, htext⟩

/-! ### Where no secret survives -/

/-- Every string of a parsed tree is spelled by a literal of the text. -/
def ParsesLiterals : Prop :=
  ∀ text tree path s, parse text = some tree → leafAt path tree = some s → Spelled text s

/-- Every literal of the text that stands for the string is the string itself, unescaped. -/
def SpelledVerbatim (text : List Char) (s : String) : Prop :=
  ∀ quote body, (quote = '"' ∨ quote = '\'') → (quote :: body ++ [quote]) <:+: text →
    decodeBody quote body = some (units s.toList) → body = s.toList

/-- In a raw text that is handed out, no string that was to be replaced has its value still. -/
def RawHidesSecrets (snapshot : ConfigFileSnapshot) : Prop :=
  ∀ raw, (redactConfigSnapshot parse rules hints snapshot).raw = some raw →
    ∃ tree, parse raw = some tree ∧ ∀ path s, Replaced rules hints snapshot.config path s →
      isEnvVarPlaceholder s = false → s ≠ "" → leafAt path tree ≠ some s

theorem mem_replacedValues :
    s ∈ replacedValues values ↔ s ∈ values ∧ s ≠ "" := by
  rw [replacedValues, mem_insertionSort, mem_filter, mem_eraseDups]
  simp

theorem foldl_replaceAll (hvalues : ∀ v ∈ values, v ≠ "") {l : List Char}
    (hhead : ∀ c ∈ l.head?, c ∉ redactedSentinel.toList) (hlast : ∀ c ∈ l.getLast?, c ∉ redactedSentinel.toList)
    (h : l <:+: values.foldl (fun result v => replaceAll v.toList redactedSentinel.toList result) text) :
    redactedSentinel.toList <:+: l ∨ (l <:+: text ∧ ∀ v ∈ values, ¬ v.toList <:+: l) := by
  induction values generalizing text with
  | nil => exact Or.inr ⟨h, fun v hv => absurd hv not_mem_nil⟩
  | cons v rest ih =>
    rw [foldl_cons] at h
    rcases ih (fun u hu => hvalues u (mem_cons_of_mem _ hu)) h with hs | ⟨hl, hrest⟩
    · exact Or.inl hs
    · have hv : v.toList ≠ [] := fun he => hvalues v (mem_cons_self ..) (String.toList_eq_nil_iff.mp he)
      rcases Foundation.infix_replaceAll hv hhead hlast hl with hs | ⟨hl, hfree⟩
      · exact Or.inl hs
      · refine Or.inr ⟨hl, fun u hu => ?_⟩
        rcases mem_cons.mp hu with rfl | hu
        · exact hfree
        · exact hrest u hu

theorem sentinel_plain {quote : Char} (h : quote = '"' ∨ quote = '\'') :
    ∀ c ∈ redactedSentinel.toList, Plain quote c := by
  intro c hc
  have hall : redactedSentinel.toList.all
      (fun c => decide (c ≠ '\\' ∧ c ≠ '"' ∧ c ≠ '\'' ∧ c ≠ '\n' ∧ c ≠ '\r')) = true := by decide
  obtain ⟨hb, hd, hs, hn, hr⟩ := of_decide_eq_true (all_eq_true.mp hall c hc)
  exact ⟨hb, by rcases h with rfl | rfl <;> assumption, hn, hr⟩

/-- A sentinel inside a literal shows in what the literal stands for. -/
theorem sentinel_shows {quote : Char} {body : List Char} (hq : quote = '"' ∨ quote = '\'')
    (h : redactedSentinel.toList <:+: quote :: body ++ [quote])
    (hdecode : decodeBody quote body = some (units s.toList)) : redactedSentinel.toList <:+: s.toList := by
  have hmarker : redactedSentinel.toList = '_' :: redactedSentinel.toList.tail := by decide
  have hplain := sentinel_plain hq
  have hbody : redactedSentinel.toList <:+: body := by
    rw [cons_append, infix_cons_iff, infix_concat_iff] at h
    rcases h with h | h | h
    · rw [hmarker, cons_prefix_cons] at h
      exact absurd h.1 (hplain '_' (by decide)).noQuote
    · have hlast : quote ∈ redactedSentinel.toList := by
        obtain ⟨pre, hpre⟩ := h
        have := congrArg List.getLast? hpre
        rw [getLast?_append, getLast?_concat] at this
        have hsome : redactedSentinel.toList.getLast? = some '_' := by decide
        rw [hsome] at this
        cases this
        decide
      exact absurd rfl (hplain quote hlast).noQuote
    · exact h
  obtain ⟨pre, post, rfl⟩ := hbody
  rw [decodeBody, append_assoc, hmarker] at hdecode
  have hascii : redactedSentinel.toList.all (fun c => decide (c.toNat < 0x80)) = true := by decide
  refine infix_of_units (fun c hc => of_decide_eq_true (all_eq_true.mp hascii c hc)) ?_
  rw [hmarker]
  exact decodeFrom_shows (hmarker ▸ hplain) pre post hdecode

/-- A secret that the text spells verbatim only, and that does not hold the sentinel, is
spelled nowhere in the redacted text. -/
theorem not_spelled_in_redacted {raw : List Char} (hs : s ∈ values) (hne : s ≠ "")
    (hverbatim : SpelledVerbatim raw s) (hfree : ¬ redactedSentinel.toList <:+: s.toList) :
    ¬ Spelled (replaceSensitiveValuesInRaw raw values) s := by
  rintro ⟨quote, body, hq, hwithin, hdecode⟩
  have hquote : quote ∉ redactedSentinel.toList := fun hmem => (sentinel_plain hq quote hmem).noQuote rfl
  have hends : (∀ c ∈ (quote :: body ++ [quote]).head?, c ∉ redactedSentinel.toList) ∧
      ∀ c ∈ (quote :: body ++ [quote]).getLast?, c ∉ redactedSentinel.toList := by
    constructor
    · intro c hc
      cases hc
      exact hquote
    · intro c hc
      rw [getLast?_concat] at hc
      cases hc
      exact hquote
  have hvalues : ∀ v ∈ replacedValues values, v ≠ "" := fun v hv => (mem_replacedValues.mp hv).2
  rcases foldl_replaceAll hvalues hends.1 hends.2 hwithin with hmarked | ⟨hraw, hunreplaced⟩
  · exact hfree (sentinel_shows hq hmarked hdecode)
  · -- an untouched literal spells the secret verbatim, so it was replaced
    obtain rfl := hverbatim quote body hq hraw hdecode
    refine hunreplaced s (mem_replacedValues.mpr ⟨hs, hne⟩) ⟨[quote], [quote], ?_⟩
    simp

theorem foldl_replaceAll_self (h : ∀ v ∈ values, ¬ v.toList <:+: text) :
    values.foldl (fun result v => replaceAll v.toList redactedSentinel.toList result) text = text := by
  induction values with
  | nil => rfl
  | cons v rest ih =>
    rw [foldl_cons, Foundation.replaceAll_of_not_infix (h v (mem_cons_self ..))]
    exact ih fun u hu => h u (mem_cons_of_mem _ hu)

theorem foldl_replaceAll_ne_nil (h : text ≠ []) :
    values.foldl (fun result v => replaceAll v.toList redactedSentinel.toList result) text ≠ [] := by
  induction values generalizing text with
  | nil => exact h
  | cons v rest ih => exact ih (Foundation.replaceAll_ne_nil (by decide) h)

/-- A raw text that is handed out is the redacted one, and it parses. -/
theorem redactConfigSnapshot_raw {snapshot : ConfigFileSnapshot} {out : List Char}
    (h : (redactConfigSnapshot parse rules hints snapshot).raw = some out) :
    ∃ raw tree, snapshot.raw = some raw ∧ out = redactRawText rules hints raw snapshot.config ∧
      parse out = some tree := by
  unfold redactConfigSnapshot at h
  split at h
  · cases h
  · dsimp only at h
    obtain ⟨hmap, hkept⟩ := Option.filter_eq_some_iff.mp h
    obtain ⟨raw, hraw, rfl⟩ := Option.map_eq_some_iff.mp hmap
    obtain ⟨hraw, hne⟩ := Option.filter_eq_some_iff.mp hraw
    rw [Bool.or_eq_true, decide_eq_true_eq] at hkept
    rcases hkept with he | hkept
    · exact absurd he (foldl_replaceAll_ne_nil (by simpa using hne))
    · rw [shouldFallbackToStructuredRawRedaction] at hkept
      split at hkept
      · cases hkept
      · rename_i tree htree
        exact ⟨raw, tree, hraw, rfl, htree⟩

/-- A text without any secret in it is handed out as it is. -/
theorem redactConfigSnapshot_untouched {snapshot : ConfigFileSnapshot} {raw : List Char}
    (hvalid : snapshot.valid = true) (hraw : snapshot.raw = some raw) (hne : raw ≠ [])
    (hparse : parse raw = some snapshot.config) (hobject : snapshot.config.isObject = true)
    (hl : snapshot.config.lacks redactedSentinel = true) (hd : snapshot.config.distinct = true)
    (hproto : snapshot.config.protoFree = true)
    (h : ∀ s ∈ collectSensitiveValues rules hints snapshot.config, s ≠ "" → ¬ s.toList <:+: raw) :
    (redactConfigSnapshot parse rules hints snapshot).raw = some raw := by
  have hout : redactRawText rules hints raw snapshot.config = raw :=
    foldl_replaceAll_self fun v hv => (mem_replacedValues.mp hv).elim (h v)
  have hrestored : restoreRedactedValues rules hints snapshot.config snapshot.config = .ok snapshot.config := by
    rw [restoreRedactedValues_of_isObject rules hints hobject, mapError_eq_ok,
      restoreChecked_eq_ok rules hints hl, restoreWith_lacking rules hints _ _ _ _ hl]
    exact hproto
  have hkept : shouldFallbackToStructuredRawRedaction parse rules hints raw snapshot.config = false := by
    rw [shouldFallbackToStructuredRawRedaction, hparse]
    dsimp only
    rw [hrestored]
    dsimp only
    rw [deepEqual_refl snapshot.config hd]
    rfl
  simp [redactConfigSnapshot, hvalid, hraw, hne, hout, hkept]

end Raw

/-- A text without a backslash spells every string verbatim. -/
theorem spelledVerbatim_of_no_backslash (h : '\\' ∉ text) (s : String) :
    SpelledVerbatim text s := by
  intro quote body _ hwithin hdecode
  have hb : '\\' ∉ body := fun hm => h (hwithin.subset (mem_append_left _ (mem_cons_of_mem _ hm)))
  exact (units_injective (decodeBody_verbatim hb hdecode)).symm

/-! ### A token in the config -/

/-- A parser that knows one text. -/
def parsesOnly (text : List Char) (tree : Value) : List Char → Option Value :=
  fun t => if t = text then some tree else none

def tokenConfig : Value := .object [("token", .string "abc")]

def tokenHints : ConfigUiHints := [("token", {sensitive := some true})]

def tokenSnapshot (raw : List Char) : ConfigFileSnapshot :=
  { valid := true, raw := some raw, parsed := some tokenConfig, config := tokenConfig, resolved := tokenConfig }

theorem tokenConfig_leaf (h : leafAt path tokenConfig = some s) : s = "abc" := by
  cases path with
  | nil => cases h
  | cons step path =>
    cases step with
    | index i => cases h
    | key key =>
      rw [leafAt, tokenConfig, valueAt, lookup_cons] at h
      cases hk : key == "token" with
      | false => rw [hk] at h; cases h
      | true =>
        rw [hk] at h
        cases path with
        | nil => exact (Option.some.inj h).symm
        | cons step path => cases step <;> cases h

theorem parsesOnly_literals (h : Spelled text "abc") :
    ParsesLiterals (parsesOnly text tokenConfig) := by
  intro t tree path s hparse hleaf
  rw [parsesOnly] at hparse
  split at hparse
  · rename_i ht
    cases hparse
    rw [ht, tokenConfig_leaf hleaf]
    exact h
  · cases hparse

/-- The text `{token:"abc"}`. -/
def plainRaw : List Char := "\x7btoken:\"abc\"\x7d".toList

/-- The text `{token:"\x61bc"}`. -/
def escapedRaw : List Char := "\x7btoken:\"\\x61bc\"\x7d".toList

end OpenClaw.Config
