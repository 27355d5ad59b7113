import OpenClaw.Exec.SafeBins
import OpenClaw.Foundation.Getopt

/-! Accepted arguments of a safe bin, read as `getopt_long` reads them.

The scan and the option parser see the same tokens in the same places: what the one takes
for a value the other does, and a long flag that is cut short stands for the same flag in
both. So nothing that the scan denies is hidden from it. -/
namespace OpenClaw.Exec
open Foundation List
open Foundation.Getopt (Item)

/-! ### Flags that are cut short -/

/-- A long flag begins like this. -/
def Begins (start flag : Text) : Prop := ['-', '-'] <+: flag ∧ 3 ≤ start.length ∧ start <+: flag

instance (start flag : Text) : Decidable (Begins start flag) := inferInstanceAs (Decidable (_ ∧ _ ∧ _))

theorem take_inj {flag : Text} {l m : Nat} (hl : l ≤ flag.length) (hm : m ≤ flag.length) (h : flag.take l = flag.take m) :
    l = m := by
  have := congrArg List.length h
  simp only [length_take] at this
  omega

theorem get?_foldl_addPrefix {flag : Text} (lengths : List Nat) (hnodup : lengths.Nodup)
    (hle : ∀ l ∈ lengths, l ≤ flag.length) (m : InsertionMap Text (Option Text)) (start : Text) :
    (lengths.foldl (addPrefix flag) m).get? start =
      if ∃ l ∈ lengths, start = flag.take l then some (sharePrefix flag (m.get? start)) else m.get? start := by
  induction lengths generalizing m with
  | nil => simp
  | cons l lengths ih =>
    obtain ⟨hl, hrest⟩ := nodup_cons.mp hnodup
    rw [foldl_cons, ih hrest (fun k hk => hle k (mem_cons_of_mem _ hk)), addPrefix, InsertionMap.get?_set]
    by_cases hstart : start = flag.take l
    · have hlater : ¬∃ k ∈ lengths, start = flag.take k := by
        rintro ⟨k, hk, heq⟩
        have hkl := take_inj (hle k (mem_cons_of_mem _ hk)) (hle l mem_cons_self) (heq.symm.trans hstart)
        exact hl (hkl ▸ hk)
      rw [if_neg hlater, if_pos hstart, if_pos ⟨l, mem_cons_self, hstart⟩, hstart]
    · simp [hstart]

theorem get?_addPrefixes (m : InsertionMap Text (Option Text)) (flag start : Text) :
    (addPrefixes m flag).get? start =
      if Begins start flag then some (sharePrefix flag (m.get? start)) else m.get? start := by
  unfold addPrefixes
  by_cases hshort : ¬['-', '-'].isPrefixOf flag || flag.length ≤ 2
  · rw [if_pos hshort]
    have hnot : ¬Begins start flag := by
      rintro ⟨hlong, hlen, hstart⟩
      have := hstart.length_le
      simp only [Bool.or_eq_true, decide_eq_true_eq, isPrefixOf_iff_prefix] at hshort
      rcases hshort with h | h
      · exact h hlong
      · omega
    rw [if_neg hnot]
  · rw [if_neg hshort]
    simp only [Bool.or_eq_true, decide_eq_true_eq, isPrefixOf_iff_prefix, not_or, not_not, not_le] at hshort
    obtain ⟨hlong, hlen⟩ := hshort
    rw [get?_foldl_addPrefix _ nodup_range' (fun l hl => by simp only [mem_range'_1] at hl; omega)]
    apply if_congr ?_ rfl rfl
    simp only [mem_range'_1, Begins, hlong, true_and]
    constructor
    · rintro ⟨l, hl, rfl⟩
      exact ⟨by simp only [length_take]; omega, take_prefix _ _⟩
    · rintro ⟨hthree, hstart⟩
      exact ⟨start.length, by have := hstart.length_le; omega, prefix_iff_eq_take.mp hstart⟩

/-- What the map says of a prefix, when these flags have been added. -/
def PrefixesOf (flags : List Text) (m : InsertionMap Text (Option Text)) : Prop :=
  ∀ start, (m.get? start = none → ∀ flag ∈ flags, ¬Begins start flag) ∧
    ∀ flag, m.get? start = some (some flag) →
      flag ∈ flags ∧ Begins start flag ∧ ∀ other ∈ flags, Begins start other → other = flag

theorem prefixesOf_add {flags : List Text} {m : InsertionMap Text (Option Text)} (h : PrefixesOf flags m) (flag : Text) :
    PrefixesOf (flags ++ [flag]) (addPrefixes m flag) := by
  intro start
  obtain ⟨hnone, hsome⟩ := h start
  rw [get?_addPrefixes]
  by_cases hb : Begins start flag
  · rw [if_pos hb]
    refine ⟨fun hget => (by cases hget), fun found hget => ?_⟩
    have hshare : sharePrefix flag (m.get? start) = some found := Option.some.inj hget
    have hfound : found = flag ∧ ∀ other ∈ flags, Begins start other → other = flag := by
      cases hold : m.get? start with
      | none =>
        rw [hold] at hshare
        exact ⟨(Option.some.inj hshare).symm, fun other hmem hother => absurd hother (hnone hold other hmem)⟩
      | some existing =>
        rw [hold, sharePrefix] at hshare
        split at hshare
        · rename_i he
          subst he
          exact ⟨(Option.some.inj hshare).symm, (hsome flag hold).2.2⟩
        · cases hshare
    obtain ⟨rfl, hothers⟩ := hfound
    refine ⟨by simp, hb, fun other hmem hother => ?_⟩
    rcases mem_append.mp hmem with hmem | hmem
    · exact hothers other hmem hother
    · exact mem_singleton.mp hmem
  · rw [if_neg hb]
    refine ⟨fun hget other hmem => ?_, fun found hget => ?_⟩
    · rcases mem_append.mp hmem with hmem | hmem
      · exact hnone hget other hmem
      · rwa [mem_singleton.mp hmem]
    · obtain ⟨hmem, hbegins, honly⟩ := hsome found hget
      refine ⟨mem_append_left _ hmem, hbegins, fun other hother hb' => ?_⟩
      rcases mem_append.mp hother with hother | hother
      · exact honly other hother hb'
      · exact absurd (mem_singleton.mp hother ▸ hb') hb

theorem prefixesOf_build (knownLongFlags : List Text) :
    PrefixesOf knownLongFlags (buildLongFlagPrefixMap knownLongFlags) := by
  have hfold : ∀ (flags done : List Text) (m : InsertionMap Text (Option Text)), PrefixesOf done m →
      PrefixesOf (done ++ flags) (flags.foldl addPrefixes m) := by
    intro flags
    induction flags with
    | nil =>
      intro done m h
      simpa using h
    | cons flag flags ih =>
      intro done m h
      have := ih (done ++ [flag]) (addPrefixes m flag) (prefixesOf_add h flag)
      simpa using this
  exact hfold knownLongFlags [] ∅ fun start => ⟨fun _ _ hmem => absurd hmem (by simp), fun _ hget => by simp at hget⟩

/-! ### One token -/

/-- A text without glob characters that is not like a path. -/
def Plain (value : Text) : Prop := hasGlobToken value = false ∧ isPathLikeToken value = false

theorem plain_of_safe {value : Text} (h : isSafeLiteralToken value = true) : Plain value := by
  unfold isSafeLiteralToken at h
  split at h
  · rename_i hempty
    simp only [Bool.or_eq_true, decide_eq_true_eq] at hempty
    rcases hempty with rfl | rfl <;> exact ⟨by decide, by decide⟩
  · simpa [Plain] using h

theorem plain_of_valid {value : Option Text} (h : isInvalidValueToken value = false) :
    ∃ text, value = some text ∧ Plain text := by
  cases value with
  | none => cases h
  | some text =>
    simp only [isInvalidValueToken, Bool.or_eq_false_iff, Bool.not_eq_false'] at h
    exact ⟨text, rfl, plain_of_safe h.2⟩

/-- What may be found among the arguments. -/
def ArgumentAllowed (profile : SafeBinProfile) : Item → Prop
  | .option flag value => flag ∉ profile.denied ∧ ∀ text ∈ value, Plain text
  | .unexpectedValue _ _ => False
  | .missingValue _ => False
  | .unknownShort _ => True
  | .unknownLong _ => False
  | .positional word => Plain word

/-- The options of the program, as far as the profile knows them. Whether a denied flag takes
a value is not known. -/
def SafeBinProfile.options (profile : SafeBinProfile) (deniedTakesValue : Text → Bool) : Getopt.Options where
  shorts c := ['-', c] ∈ profile.allowed ++ profile.denied
  longs := profile.known
  takesValue flag := if flag ∈ profile.denied then deniedTakesValue flag else flag ∈ profile.allowed

/-- The option parser reads this argument as allowed options, which leave nothing to be taken,
or take a plain value from the next argument. -/
def ReadAs (profile : SafeBinProfile) (token : List Item × Option Text)
    (next : Option Text) (taken : Nat) : Prop :=
  (∀ item ∈ token.1, ArgumentAllowed profile item ∧ item.positional? = none) ∧
    (taken = 0 ∧ token.2 = none ∨
      taken = 1 ∧ ∃ flag value, token.2 = some flag ∧ flag ∉ profile.denied ∧ next = some value ∧ Plain value)

section
variable {profile : SafeBinProfile} {deniedTakesValue : Text → Bool}

theorem knownSet_eq (profile : SafeBinProfile) : profile.knownSet = profile.known := by
  unfold SafeBinProfile.knownSet
  cases h : profile.knownLongFlagsSet with
  | none => rfl
  | some s => exact profile.set_eq s h

theorem prefixMap_eq (profile : SafeBinProfile) : profile.prefixMap = buildLongFlagPrefixMap profile.known := by
  unfold SafeBinProfile.prefixMap
  cases h : profile.longFlagPrefixMap with
  | none => rfl
  | some m => exact profile.map_eq m h

/-- The scan and the option parser take a long flag for the same one. -/
theorem resolve_canonical {flag canonicalFlag : Text}
    (h : resolveCanonicalLongFlag profile flag = some canonicalFlag) :
    (profile.options deniedTakesValue).resolve flag = some canonicalFlag := by
  unfold resolveCanonicalLongFlag at h
  rw [knownSet_eq, prefixMap_eq] at h
  split at h
  · cases h
  split at h
  · rename_i hknown
    obtain rfl := Option.some.inj h
    exact Getopt.Options.resolve_self _ hknown
  · rename_i hlong hunknown
    obtain ⟨hmem, hbegins, honly⟩ := (prefixesOf_build profile.known flag).2 canonicalFlag (Option.join_eq_some_iff.mp h)
    refine Getopt.Options.resolve_unique _ hunknown hmem hbegins.2.2 fun other hother hstart => ?_
    refine honly other hother ⟨?_, hbegins.2.1, hstart⟩
    have hdashes : ['-', '-'] <+: flag := by
      simp only [Bool.or_eq_true, decide_eq_true_eq, isPrefixOf_iff_prefix, not_or, not_not] at hlong
      exact hlong.1
    exact hdashes.trans hstart

theorem takesValue_of_allowed {flag : Text} (hdenied : flag ∉ profile.denied) :
    (profile.options deniedTakesValue).takesValue flag = decide (flag ∈ profile.allowed) :=
  if_neg hdenied

/-- One allowed option, with its value if it has one. -/
theorem readAs_option {flag : Text} {value : Option Text} (hdenied : flag ∉ profile.denied)
    (hplain : ∀ text ∈ value, Plain text) (next : Option Text) :
    ReadAs profile ([.option flag value], none) next 0 := by
  refine ⟨?_, .inl ⟨rfl, rfl⟩⟩
  intro item hitem
  obtain rfl := mem_singleton.mp hitem
  exact ⟨⟨hdenied, hplain⟩, rfl⟩

/-- An allowed option whose value is the next argument. -/
theorem readAs_pending {flag : Text} {next : Option Text} (hdenied : flag ∉ profile.denied)
    (hvalid : isInvalidValueToken next = false) : ReadAs profile ([], some flag) next 1 := by
  obtain ⟨value, hvalue, hplain⟩ := plain_of_valid hvalid
  exact ⟨fun item hitem => absurd hitem not_mem_nil,
    .inr ⟨rfl, flag, value, rfl, hdenied, hvalue, hplain⟩⟩

theorem long_readAs {next : Option Text} {flag : Text} {inlineValue : Option Text} {taken : Nat}
    (h : consumeLongOptionToken profile next flag inlineValue = some taken) :
    ReadAs profile ((profile.options deniedTakesValue).long flag inlineValue) next taken := by
  unfold consumeLongOptionToken at h
  cases hflag : resolveCanonicalLongFlag profile flag with
  | none => simp [hflag] at h
  | some canonicalFlag =>
    simp only [hflag] at h
    split at h
    · cases h
    rename_i hdenied
    rw [Getopt.Options.long, resolve_canonical hflag]
    dsimp only
    rw [takesValue_of_allowed hdenied]
    by_cases hallowed : canonicalFlag ∈ profile.allowed
    · simp only [hallowed, not_true_eq_false, if_false, decide_true] at h ⊢
      cases inlineValue with
      | some text =>
        dsimp only at h ⊢
        split at h
        · rename_i hsafe
          obtain rfl := Option.some.inj h
          refine readAs_option hdenied ?_ _
          rintro _ ⟨⟩
          exact plain_of_safe hsafe
        · cases h
      | none =>
        dsimp only at h ⊢
        split at h
        · cases h
        · rename_i hvalid
          obtain rfl := Option.some.inj h
          exact readAs_pending hdenied (by simpa using hvalid)
    · simp only [hallowed, not_false_eq_true, if_true, decide_false] at h ⊢
      cases inlineValue with
      | some text => cases h
      | none =>
        obtain rfl := Option.some.inj h
        exact readAs_option hdenied (by simp) _

theorem cluster_readAs {next : Option Text} {cluster : Text} {taken : Nat}
    (h : consumeShortOptionClusterToken profile next cluster = some taken) :
    ReadAs profile ((profile.options deniedTakesValue).cluster cluster) next taken := by
  induction cluster with
  | nil => cases h
  | cons ch rest ih =>
    unfold consumeShortOptionClusterToken at h
    split at h
    · cases h
    rename_i hdenied
    split at h
    · -- a flag that is not known takes nothing, and the cluster goes on
      rename_i hunknown
      obtain ⟨hitems, hpending⟩ := ih h
      have hshort : (profile.options deniedTakesValue).shorts ch = false := by
        simp [SafeBinProfile.options, hdenied, hunknown]
      rw [Getopt.Options.cluster, hshort]
      refine ⟨?_, hpending⟩
      rintro item hitem
      rcases mem_cons.mp hitem with rfl | hitem
      · exact ⟨trivial, rfl⟩
      · exact hitems item hitem
    · rename_i hallowed
      rw [not_not] at hallowed
      have hshort : (profile.options deniedTakesValue).shorts ch = true := by
        simp [SafeBinProfile.options, hallowed]
      rw [Getopt.Options.cluster, hshort, takesValue_of_allowed hdenied]
      simp only [hallowed, decide_true, Bool.not_true, Bool.false_eq_true, if_false]
      by_cases hrest : rest = []
      · rw [if_neg (by simp [hrest])] at h
        rw [if_pos hrest]
        split at h
        · cases h
        · rename_i hvalid
          obtain rfl := Option.some.inj h
          exact readAs_pending hdenied (by simpa using hvalid)
      · rw [if_pos hrest] at h
        rw [if_neg hrest]
        split at h
        · rename_i hsafe
          obtain rfl := Option.some.inj h
          refine readAs_option hdenied ?_ _
          rintro _ ⟨⟩
          exact plain_of_safe hsafe
        · cases h

end

/-! ### The whole list -/

section
variable {profile : SafeBinProfile} {deniedTakesValue : Text → Bool}

theorem splitValue_eq (raw : Text) :
    Getopt.splitValue raw =
      match raw.findIdx? (· = '=') with
      | some eqIndex => (raw.take eqIndex, some (raw.drop (eqIndex + 1)))
      | none => (raw, none) := by
  induction raw with
  | nil => rfl
  | cons c rest ih =>
    rw [findIdx?_cons]
    by_cases hc : c = '='
    · simp [Getopt.splitValue, hc]
    · rw [Getopt.splitValue_cons hc, ih]
      cases rest.findIdx? (· = '=') <;> simp [hc]

theorem parse_long (c : Char) (rest : Text) :
    parseExecArgvToken ('-' :: '-' :: c :: rest) =
      .long (Getopt.splitValue ('-' :: '-' :: c :: rest)).1 (Getopt.splitValue ('-' :: '-' :: c :: rest)).2 := by
  rw [splitValue_eq]
  simp only [parseExecArgvToken, isPrefixOf_cons_cons_self, isPrefixOf_nil_left, not_true_eq_false]
  simp only [cons_ne_nil, if_false, List.cons.injEq, and_false, if_true]
  cases hfind : ('-' :: '-' :: c :: rest).findIdx? (· = '=') with
  | none => rfl
  | some eqIndex =>
    have hpos : 0 < eqIndex := by
      rw [findIdx?_cons] at hfind
      obtain ⟨k, -, rfl⟩ := Option.map_eq_some_iff.mp hfind
      omega
    simp [hpos]

theorem parse_cluster {c : Char} (hc : c ≠ '-') (rest : Text) :
    parseExecArgvToken ('-' :: c :: rest) = .shortCluster (c :: rest) := by
  simp [parseExecArgvToken, hc, Ne.symm hc]

theorem parse_positional {c : Char} (hc : c ≠ '-') (rest : Text) :
    parseExecArgvToken (c :: rest) = .positional (c :: rest) := by
  simp [parseExecArgvToken, hc, Ne.symm hc]

theorem token_cluster (o : Getopt.Options) {c : Char} (hc : c ≠ '-') (rest : Text) :
    o.token ('-' :: c :: rest) = o.cluster (c :: rest) := by
  unfold Getopt.Options.token
  split
  · rename_i heq
    cases heq
    exact absurd rfl hc
  · rename_i heq
    cases heq
    rfl
  · rename_i hnone
    exact absurd rfl (hnone c rest)

theorem token_positional (o : Getopt.Options) {c : Char} (hc : c ≠ '-') (rest : Text) :
    o.token (c :: rest) = ([.positional (c :: rest)], none) := by
  unfold Getopt.Options.token
  split
  · rename_i heq
    cases heq
    exact absurd rfl hc
  · rename_i heq
    cases heq
    exact absurd rfl hc
  · rfl

/-- The positional arguments that count. -/
def countedPositionals (items : List Item) : List Text :=
  (items.filterMap Item.positional?).filter fun word => word ≠ [] ∧ word ≠ ['-']

theorem countedPositionals_append (l r : List Item) :
    countedPositionals (l ++ r) = countedPositionals l ++ countedPositionals r := by
  simp [countedPositionals]

theorem countedPositionals_nil {items : List Item} (h : ∀ item ∈ items, item.positional? = none) :
    countedPositionals items = [] := by
  simp only [countedPositionals, filterMap_eq_nil_iff.mpr h, filter_nil]

theorem countedPositionals_counted {word : Text} (h : word ≠ [] ∧ word ≠ ['-']) (items : List Item) :
    countedPositionals (.positional word :: items) = word :: countedPositionals items := by
  simp [countedPositionals, Item.positional?, h]

theorem countedPositionals_skipped {word : Text} (h : word = [] ∨ word = ['-']) (items : List Item) :
    countedPositionals (.positional word :: items) = countedPositionals items := by
  rcases h with rfl | rfl <;> simp [countedPositionals, Item.positional?]

/-- What the scan has found, when the option parser reads these items. -/
def Found (profile : SafeBinProfile) (items : List Item) (positional : List Text) : Prop :=
  (∀ item ∈ items, ArgumentAllowed profile item) ∧ countedPositionals items = positional

theorem found_skip {word : Text} (hword : word = [] ∨ word = ['-']) {items : List Item} {positional : List Text}
    (h : Found profile items positional) : Found profile (.positional word :: items) positional := by
  refine ⟨?_, (countedPositionals_skipped hword items).trans h.2⟩
  rintro item hitem
  rcases mem_cons.mp hitem with rfl | hitem
  · rcases hword with rfl | rfl <;> exact ⟨by decide, by decide⟩
  · exact h.1 item hitem

theorem found_positional {word : Text} (hword : word ≠ [] ∧ word ≠ ['-']) {items : List Item}
    {found : Option (List Text)} {positional : List Text} (htake : consumePositionalToken word found = some positional)
    (h : ∀ others, found = some others → Found profile items others) :
    Found profile (.positional word :: items) positional := by
  unfold consumePositionalToken at htake
  split at htake
  · rename_i hsafe
    obtain ⟨others, hothers, rfl⟩ := Option.map_eq_some_iff.mp htake
    obtain ⟨hallowed, hcounted⟩ := h others hothers
    refine ⟨?_, (countedPositionals_counted hword items).trans (by rw [hcounted])⟩
    rintro item hitem
    rcases mem_cons.mp hitem with rfl | hitem
    · exact plain_of_safe hsafe
    · exact hallowed item hitem
  · cases htake

theorem collectRest_sound {args positional : List Text} (h : collectRest args = some positional) :
    Found profile (args.map .positional) positional := by
  induction args generalizing positional with
  | nil =>
    obtain rfl := Option.some.inj h
    exact ⟨by simp, rfl⟩
  | cons word rest ih =>
    rw [collectRest] at h
    split at h
    · rename_i hskip
      exact found_skip (by simpa using hskip) (ih h)
    · rename_i hcounts
      exact found_positional (by simpa using hcounts) h fun others hothers => ih hothers

theorem found_append {items more : List Item} {positional : List Text}
    (hitems : ∀ item ∈ items, ArgumentAllowed profile item ∧ item.positional? = none)
    (h : Found profile more positional) : Found profile (items ++ more) positional := by
  refine ⟨?_, ?_⟩
  · intro item hitem
    rcases mem_append.mp hitem with hitem | hitem
    · exact (hitems item hitem).1
    · exact h.1 item hitem
  · rw [countedPositionals_append, countedPositionals_nil fun item hitem => (hitems item hitem).2]
    exact h.2

/-- An option of the scan, and what the option parser reads from there. -/
theorem found_option {word : Text} (hword : word ≠ ['-', '-']) {args positional : List Text} {taken : Nat}
    (hread : ReadAs profile ((profile.options deniedTakesValue).token word) args.head? taken)
    (hcollect : collectFrom profile taken args = some positional)
    (ih : ∀ rest, rest.length ≤ args.length → collectFrom profile 0 rest = some positional →
      Found profile ((profile.options deniedTakesValue).read rest) positional) :
    Found profile ((profile.options deniedTakesValue).read (word :: args)) positional := by
  obtain ⟨hitems, ⟨rfl, hpending⟩ | ⟨rfl, flag, value, hpending, hdenied, hnext, hplain⟩⟩ := hread
  · rw [Getopt.Options.read_done _ hword (Prod.ext rfl hpending)]
    exact found_append hitems (ih args (Nat.le_refl _) hcollect)
  · cases args with
    | nil => cases hnext
    | cons next rest =>
      obtain rfl : next = value := Option.some.inj hnext
      rw [Getopt.Options.read_pending _ hword (Prod.ext rfl hpending)]
      refine found_append hitems (@found_append profile [_] _ _ ?_ (ih rest (by simp) hcollect))
      rintro item hitem
      obtain rfl := mem_singleton.mp hitem
      refine ⟨⟨hdenied, ?_⟩, rfl⟩
      rintro _ ⟨⟩
      exact hplain

/-- The scan and the option parser go through the arguments together. -/
theorem collectFrom_sound {args positional : List Text} (h : collectFrom profile 0 args = some positional) :
    Found profile ((profile.options deniedTakesValue).read args) positional := by
  induction hlen : args.length using Nat.strong_induction_on generalizing args positional with
  | _ len ih =>
    subst hlen
    cases args with
    | nil =>
      obtain rfl := Option.some.inj h
      exact ⟨by simp [Getopt.Options.read], rfl⟩
    | cons word args =>
      have hshorter : ∀ rest positional, rest.length ≤ args.length → collectFrom profile 0 rest = some positional →
          Found profile ((profile.options deniedTakesValue).read rest) positional := fun rest positional hle hrest =>
        ih rest.length (Nat.lt_succ_of_le hle) hrest rfl
      have hdone : ∀ {word : Text}, word ≠ ['-', '-'] →
          (profile.options deniedTakesValue).token word = ([.positional word], none) →
          (profile.options deniedTakesValue).read (word :: args) =
            .positional word :: (profile.options deniedTakesValue).read args :=
        fun hword htoken => Getopt.Options.read_done _ hword htoken args
      unfold collectFrom at h
      rcases word with _ | ⟨c, word⟩
      · rw [hdone (by simp) rfl]
        exact found_skip (.inl rfl) (hshorter args positional (Nat.le_refl _) h)
      by_cases hc : c = '-'
      · subst hc
        rcases word with _ | ⟨d, word⟩
        · rw [hdone (by simp) rfl]
          exact found_skip (.inr rfl) (hshorter args positional (Nat.le_refl _) h)
        by_cases hd : d = '-'
        · subst hd
          rcases word with _ | ⟨e, word⟩
          · rw [Getopt.Options.read_terminator]
            exact collectRest_sound h
          · rw [parse_long] at h
            dsimp only at h
            split at h
            · cases h
            · rename_i taken htaken
              exact found_option (by simp) (long_readAs htaken) h fun rest => hshorter rest positional
        · rw [parse_cluster hd] at h
          dsimp only at h
          split at h
          · cases h
          · rename_i taken htaken
            refine found_option (by simp [hd]) ?_ h fun rest => hshorter rest positional
            rw [token_cluster _ hd]
            exact cluster_readAs htaken
      · rw [parse_positional hc] at h
        rw [hdone (by simp [hc]) (token_positional _ hc word)]
        exact found_positional ⟨by simp, by simp [hc]⟩ h fun others => hshorter args others (Nat.le_refl _)

end

/-- **Accepted arguments hide nothing**: read as `getopt_long` reads them, whatever the denied
flags take, they hold no denied flag, no value where none is taken, no value or positional
argument that is a pattern or like a path, and as many positional arguments as the profile
allows. -/
theorem validateSafeBinArgv_sound (host : Host) (args : List Text) (profile : SafeBinProfile) (binName : Option Text)
    (deniedTakesValue : Text → Bool) (h : validateSafeBinArgv host args profile binName = true) :
    let items := (profile.options deniedTakesValue).read args
    (∀ item ∈ items, ArgumentAllowed profile item) ∧
      profile.minPositional.getD 0 ≤ (countedPositionals items).length ∧
      ∀ maxPositional ∈ profile.maxPositional, ((countedPositionals items).length : Int) ≤ maxPositional := by
  intro items
  cases hcollect : collectPositionalTokens profile args with
  | none => simp [validateSafeBinArgv, hcollect] at h
  | some positional =>
    obtain ⟨hitems, hpositional⟩ := @collectFrom_sound profile deniedTakesValue args positional hcollect
    have hcount : validatePositionalCount profile positional = true := by
      simp only [validateSafeBinArgv, hcollect, Bool.and_eq_true] at h
      exact h.1
    simp only [validatePositionalCount, Bool.and_eq_true, Bool.not_eq_true', decide_eq_false_iff_not, Int.not_lt,
      Option.any_eq_false, gt_iff_lt] at hcount
    refine ⟨hitems, ?_, ?_⟩
    · rw [hpositional]
      exact hcount.1
    · intro maxPositional hmax
      rw [hpositional]
      exact hcount.2 maxPositional hmax

def headProfile : SafeBinProfile :=
  compileSafeBinProfile {maxPositional := some 0, allowedValueFlags := texts ["--lines", "--bytes", "-n", "-c"]}

theorem validateSafeBinArgv_sound_head :
    let items := (headProfile.options fun _ => false).read (texts ["-n", "5", "--lin=3", "-"])
    (∀ item ∈ items, ArgumentAllowed headProfile item) ∧
      headProfile.minPositional.getD 0 ≤ (countedPositionals items).length ∧
      ∀ maxPositional ∈ headProfile.maxPositional, ((countedPositionals items).length : Int) ≤ maxPositional :=
  validateSafeBinArgv_sound windowsHost.toHost (texts ["-n", "5", "--lin=3", "-"]) headProfile (some "head".toList)
    (fun _ => false) (by decide)

end OpenClaw.Exec
