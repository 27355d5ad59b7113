import OpenClaw.Agents.ToolPolicy
import OpenClaw.Foundation.MapM

/-! Tool policies only narrow, and deny wins.

A policy is compiled entry by entry: its patterns are the patterns of its entries
(`list_patterns`). So a step with a policy is a filter, the pipeline is the filter of all
steps, and what may go wrong goes wrong for a single entry: that it does not cover a tool
it names, because an expansion has replaced it, or covers one it does not name. -/
namespace OpenClaw.Agents
open Foundation EcmaString List
open Option hiding any_eq_true all_eq_true filter_filter

variable {l : List ToolName} {patterns : List CompiledGlobPattern} {list : Option (List String)} {s e : String}

section Patterns
variable (cases : CaseTables) (groups : PluginToolGroups)

/-- A pattern that a name compiles to. -/
def PatternOf (name : ToolName) (p : CompiledGlobPattern) : Prop :=
  p ≠ .exact "" ∧ ∃ n, name.normalize cases = some n ∧ n.truthy = true ∧
    ∃ x ∈ expandName n, compileGlobPattern cases x = some p

/-- Nothing throws on the way to the patterns of the name. -/
def Compiles (name : ToolName) : Prop :=
  ∃ n, name.normalize cases = some n ∧
    (n.truthy = true → ∀ x ∈ expandName n, ∃ p, compileGlobPattern cases x = some p)

variable {cases}

theorem mem_normalizeToolList {names : List ToolName} (h : normalizeToolList cases l = some names) {n : ToolName} :
    n ∈ names ↔ n.truthy = true ∧ ∃ m ∈ l, m.normalize cases = some n := by
  obtain ⟨all, hall, rfl⟩ := map_eq_some_iff.mp h
  rw [mem_filter, mem_of_mapM_some hall, and_comm]

theorem compileList_mem (h : compileList cases (some l) = some patterns) {p : CompiledGlobPattern} :
    p ∈ patterns ↔ ∃ m ∈ l, PatternOf cases m p := by
  obtain ⟨expanded, hexpanded, hpatterns⟩ := bind_eq_some_iff.mp h
  obtain ⟨names, hnames, rfl⟩ := map_eq_some_iff.mp hexpanded
  obtain ⟨all, hall, rfl⟩ := map_eq_some_iff.mp hpatterns
  simp only [mem_filter, mem_of_mapM_some hall, mem_eraseDups, mem_flatMap,
    mem_normalizeToolList hnames, decide_eq_true_eq]
  constructor
  · rintro ⟨⟨x, ⟨n, ⟨htruthy, m, hm, hn⟩, hx⟩, hp⟩, hne⟩
    exact ⟨m, hm, hne, n, hn, htruthy, x, hx, hp⟩
  · rintro ⟨m, hm, hne, n, hn, htruthy, x, hx, hp⟩
    exact ⟨⟨x, ⟨n, ⟨htruthy, m, hm, hn⟩, hx⟩, hp⟩, hne⟩

theorem compileList_some_iff :
    (∃ patterns, compileList cases (some l) = some patterns) ↔ ∀ m ∈ l, Compiles cases m := by
  constructor
  · rintro ⟨patterns, h⟩ m hm
    obtain ⟨expanded, hexpanded, hpatterns⟩ := bind_eq_some_iff.mp h
    obtain ⟨names, hnames, rfl⟩ := map_eq_some_iff.mp hexpanded
    obtain ⟨all, hall, -⟩ := map_eq_some_iff.mp hpatterns
    obtain ⟨normalized, hnormalized, -⟩ := map_eq_some_iff.mp hnames
    obtain ⟨n, hn⟩ := exists_mapM_some_iff.mp ⟨normalized, hnormalized⟩ m hm
    refine ⟨n, hn, fun htruthy x hx => exists_mapM_some_iff.mp ⟨all, hall⟩ x ?_⟩
    exact mem_eraseDups.mpr (mem_flatMap.mpr
      ⟨n, (mem_normalizeToolList hnames).mpr ⟨htruthy, m, hm, hn⟩, hx⟩)
  · intro h
    obtain ⟨normalized, hnormalized⟩ := exists_mapM_some_iff.mpr fun m hm =>
      let ⟨n, hn, _⟩ := h m hm
      ⟨n, hn⟩
    have hnames : normalizeToolList cases l = some (normalized.filter ToolName.truthy) := by
      unfold normalizeToolList
      rw [hnormalized]
      rfl
    have hexpanded : expandToolGroups cases l =
        some (((normalized.filter ToolName.truthy).flatMap expandName).eraseDups) := by
      unfold expandToolGroups
      rw [hnames]
      rfl
    obtain ⟨all, hall⟩ : ∃ all, (((normalized.filter ToolName.truthy).flatMap expandName).eraseDups).mapM
        (compileGlobPattern cases) = some all := by
      refine exists_mapM_some_iff.mpr fun x hx => ?_
      obtain ⟨n, hn, hx⟩ := mem_flatMap.mp (mem_eraseDups.mp hx)
      obtain ⟨htruthy, m, hm, hnormal⟩ := (mem_normalizeToolList hnames).mp hn
      obtain ⟨n', hn', hcompiles⟩ := h m hm
      rw [hnormal] at hn'
      cases hn'
      exact hcompiles htruthy x hx
    refine ⟨all.filter (· ≠ .exact ""), ?_⟩
    unfold compileList compileGlobPatterns
    rw [getD_some, hexpanded, bind_some, hall]
    rfl

/-! ### Entries -/

variable (cases)

def EntryPattern (e : String) (p : CompiledGlobPattern) : Prop :=
  ∃ m ∈ expandPluginEntry cases groups e, PatternOf cases m p

/-- No name that the entry stands for throws. -/
def EntryCompiles (e : String) : Prop := ∀ m ∈ expandPluginEntry cases groups e, Compiles cases m

/-- The patterns of the entry match the name, or `write` where it is `apply_patch`. -/
def EntryCovers (e : String) (n : ToolName) : Prop :=
  (∃ p, EntryPattern cases groups e p ∧ p.matches n = true) ∨
    n = .text "apply_patch" ∧ ∃ p, EntryPattern cases groups e p ∧ p.matches (.text "write") = true

variable {cases groups}

/-- The patterns of a list are those of its entries. -/
theorem list_patterns (h : compileList cases (expandPluginGroups cases list groups) = some patterns)
    {p : CompiledGlobPattern} :
    p ∈ patterns ↔ ∃ e ∈ list.getD [], EntryPattern cases groups e p := by
  cases list with
  | none =>
    cases h
    simp
  | some list =>
    rw [compileList_mem h]
    simp only [mem_eraseDups, mem_flatMap, getD_some]
    constructor
    · rintro ⟨m, ⟨e, he, hm⟩, hp⟩
      exact ⟨e, he, m, hm, hp⟩
    · rintro ⟨e, he, m, hm, hp⟩
      exact ⟨m, ⟨e, he, hm⟩, hp⟩

theorem list_compiles_iff :
    (∃ patterns, compileList cases (expandPluginGroups cases list groups) = some patterns) ↔
      ∀ e ∈ list.getD [], EntryCompiles cases groups e := by
  cases list with
  | none =>
    constructor
    · intro _ e he
      cases he
    · exact fun _ => ⟨_, rfl⟩
  | some list =>
    show (∃ patterns, compileList cases (some _) = some patterns) ↔ _
    rw [compileList_some_iff]
    simp only [mem_eraseDups, mem_flatMap, getD_some]
    exact ⟨fun h e he m hm => h m ⟨e, he, hm⟩, fun h m ⟨e, he, hm⟩ => h e he m hm⟩

theorem matchesTool_iff (h : compileList cases (expandPluginGroups cases list groups) = some patterns)
    {n : ToolName} :
    matchesTool n patterns = true ↔ ∃ e ∈ list.getD [], EntryCovers cases groups e n := by
  simp only [matchesTool, matchesAnyGlobPattern, Bool.or_eq_true, Bool.and_eq_true, any_eq_true,
    decide_eq_true_eq, list_patterns h]
  constructor
  · rintro (⟨p, ⟨e, he, hp⟩, hm⟩ | ⟨hn, p, ⟨e, he, hp⟩, hm⟩)
    · exact ⟨e, he, .inl ⟨p, hp, hm⟩⟩
    · exact ⟨e, he, .inr ⟨hn, p, hp, hm⟩⟩
  · rintro ⟨e, he, ⟨p, hp, hm⟩ | ⟨hn, p, hp, hm⟩⟩
    · exact .inl ⟨p, ⟨e, he, hp⟩, hm⟩
    · exact .inr ⟨hn, p, ⟨e, he, hp⟩, hm⟩

end Patterns

/-! ### Normal names -/

section Normal
variable {cases : CaseTables}

theorem toLowerCase_plain (h : s.toList.all (fun c => c.toNat < 128 && lowerAscii c = c && !isWhiteSpace c) = true) :
    cases.toLowerCase (trim s) = s := by
  rw [all_eq_true] at h
  simp only [Bool.and_eq_true, decide_eq_true_eq, Bool.not_eq_true'] at h
  have htrim : trim s = s := by
    unfold trim
    rw [trimChars_eq_self (fun c hc => (h c (mem_of_mem_head? hc)).2)
      (fun c hc => (h c (mem_of_mem_getLast? hc)).2), String.ofList_toList]
  rw [htrim]
  unfold CaseTables.toLowerCase
  rw [CaseTables.toLowerChars_of_lower fun c hc => CaseTables.isLower_of_ascii (h c hc).1.1 (h c hc).1.2,
    String.ofList_toList]

theorem toLowerCase_trim_idem (s : String) :
    cases.toLowerCase (trim (cases.toLowerCase (trim s))) = cases.toLowerCase (trim s) := by
  have htrim : trim (cases.toLowerCase (trim s)) = cases.toLowerCase (trim s) := by
    simp only [trim, CaseTables.toLowerCase, String.toList_ofList]
    rw [CaseTables.trimChars_toLowerChars (trimChars_trimChars s.toList)]
  rw [htrim]
  simp only [CaseTables.toLowerCase, String.toList_ofList, CaseTables.toLowerChars_toLowerChars]

/-- An alias stands for a plain name that has none. -/
theorem alias_cases {n : String} (h : TOOL_NAME_ALIASES n = some (.text s)) : s = "exec" ∨ s = "apply_patch" := by
  unfold TOOL_NAME_ALIASES at h
  split at h
  · cases h
    exact .inl rfl
  · cases h
    exact .inr rfl
  all_goals cases h

theorem normalizeToolName_of_plain
    (h : s.toList.all (fun c => c.toNat < 128 && lowerAscii c = c && !isWhiteSpace c) = true)
    (halias : TOOL_NAME_ALIASES s = none) : normalizeToolName cases s = .text s := by
  unfold normalizeToolName
  rw [toLowerCase_plain h, halias]
  rfl

/-- A normal name stays as it is. -/
theorem normalizeToolName_idem (h : normalizeToolName cases e = .text s) :
    normalizeToolName cases s = .text s := by
  unfold normalizeToolName at h
  cases halias : TOOL_NAME_ALIASES (cases.toLowerCase (trim e)) with
  | none =>
    rw [halias, getD_none, ToolName.text.injEq] at h
    subst h
    unfold normalizeToolName
    rw [toLowerCase_trim_idem, halias]
    rfl
  | some target =>
    rw [halias, getD_some] at h
    subst h
    obtain rfl | rfl := alias_cases halias
    · exact normalizeToolName_of_plain (by decide) rfl
    · exact normalizeToolName_of_plain (by decide) rfl

theorem normalizeToolName_core {id : String} (h : id ∈ CORE_TOOL_DEFINITIONS.map CoreToolDefinition.id) :
    normalizeToolName cases id = .text id := by
  have hplain : (CORE_TOOL_DEFINITIONS.map CoreToolDefinition.id).all (fun id =>
      id.toList.all (fun c => c.toNat < 128 && lowerAscii c = c && !isWhiteSpace c) &&
        TOOL_NAME_ALIASES id = none) = true := by
    decide
  have hid := all_eq_true.mp hplain id h
  simp only [Bool.and_eq_true, decide_eq_true_eq] at hid
  exact normalizeToolName_of_plain hid.1 hid.2

theorem mem_of_group {id : String} {ids : List String} (h : TOOL_GROUPS s = some ids) (hid : id ∈ ids) :
    id ∈ CORE_TOOL_DEFINITIONS.map CoreToolDefinition.id := by
  unfold TOOL_GROUPS at h
  split at h
  · cases h
  · cases h
    obtain ⟨tool, htool, rfl⟩ := List.mem_map.mp hid
    refine List.mem_map_of_mem ?_
    unfold groupTools at htool
    split at htool <;> exact mem_of_mem_filter htool

theorem compileGlobPattern_text {t : String} (h : normalizeToolName cases s = .text t) :
    ∃ p, compileGlobPattern cases (.text s) = some p := by
  simp only [compileGlobPattern, ToolName.normalize, bind_some, h]
  repeat' split
  all_goals exact ⟨_, rfl⟩

/-- A normal name compiles, and so do the names of its group. -/
theorem compiles_text (h : normalizeToolName cases s = .text s) : Compiles cases (.text s) := by
  refine ⟨.text s, by rw [ToolName.normalize, h], fun _ x hx => ?_⟩
  unfold expandName at hx
  cases hgroup : TOOL_GROUPS s with
  | none =>
    simp only [hgroup, map_none, getD_none, mem_singleton] at hx
    rw [hx]
    exact compileGlobPattern_text h
  | some ids =>
    simp only [hgroup, map_some, getD_some] at hx
    obtain ⟨id, hid, rfl⟩ := List.mem_map.mp hx
    exact compileGlobPattern_text (normalizeToolName_core (mem_of_group hgroup hid))

end Normal

/-! ### Steps -/

section Steps
variable {T : Type} {cases : CaseTables} {name : T → String} {toolMeta : T → Option String}
  {groups : PluginToolGroups} {coreTools : List ToolName} {tools : List T}

/-- What a step lets pass. -/
def stepAdmits (cases : CaseTables) (name : T → String) (groups : PluginToolGroups)
    (step : ToolPolicyPipelineStep) (tool : T) : Bool :=
  match step.policy with
  | none => true
  | some policy =>
    (isToolAllowedByPolicyName cases (name tool) (expandPolicyWithPluginGroups cases policy groups)).getD false

/-- The entries of the step's policy. -/
def ToolPolicyPipelineStep.entries (step : ToolPolicyPipelineStep) : List String :=
  match step.policy with
  | none => []
  | some policy => policy.allow.getD [] ++ policy.deny.getD []

theorem isToolAllowed_iff {policy : ToolPolicyLike}
    (hallow : ∀ e ∈ policy.allow.getD [], EntryCompiles cases groups e)
    (hdeny : ∀ e ∈ policy.deny.getD [], EntryCompiles cases groups e) (s : String) :
    ∃ allowed, isToolAllowedByPolicyName cases s (expandPolicyWithPluginGroups cases policy groups) = some allowed ∧
      (allowed = true ↔ (∀ e ∈ policy.deny.getD [], ¬ EntryCovers cases groups e (normalizeToolName cases s)) ∧
        ((∀ e ∈ policy.allow.getD [], ∀ p, ¬ EntryPattern cases groups e p) ∨
          ∃ e ∈ policy.allow.getD [], EntryCovers cases groups e (normalizeToolName cases s))) := by
  obtain ⟨deny, hd⟩ := list_compiles_iff.mpr hdeny
  obtain ⟨allow, ha⟩ := list_compiles_iff.mpr hallow
  have hempty : allow.isEmpty = true ↔ ∀ e ∈ policy.allow.getD [], ∀ p, ¬ EntryPattern cases groups e p := by
    rw [List.isEmpty_iff, eq_nil_iff_forall_not_mem]
    simp only [list_patterns ha]
    constructor
    · exact fun h e he p hp => h p ⟨e, he, hp⟩
    · rintro h p ⟨e, he, hp⟩
      exact h e he p hp
  refine ⟨if matchesTool (normalizeToolName cases s) deny then false
    else allow.isEmpty || matchesTool (normalizeToolName cases s) allow, ?_, ?_⟩
  · simp only [isToolAllowedByPolicyName, expandPolicyWithPluginGroups, hd, ha, bind_some, map_some]
  · by_cases hmatch : matchesTool (normalizeToolName cases s) deny = true
    · rw [if_pos hmatch]
      obtain ⟨e, he, hcovers⟩ := (matchesTool_iff hd).mp hmatch
      constructor
      · intro h
        cases h
      · exact fun h => absurd hcovers (h.1 e he)
    · rw [if_neg hmatch, Bool.or_eq_true, hempty, matchesTool_iff ha]
      constructor
      · exact fun h => ⟨fun e he hcovers => hmatch ((matchesTool_iff hd).mpr ⟨e, he, hcovers⟩), h⟩
      · exact fun h => h.2

theorem filterToolsByPolicy_some {policy : ExpandedPolicy} {p : T → Bool}
    (h : ∀ tool ∈ tools, isToolAllowedByPolicyName cases (name tool) policy = some (p tool)) :
    filterToolsByPolicy cases name policy tools = some (tools.filter p) := by
  induction tools with
  | nil => rfl
  | cons tool rest ih =>
    rw [filterToolsByPolicy, h tool mem_cons_self, bind_some,
      ih fun t ht => h t (mem_cons_of_mem _ ht), map_some, filter_cons]

theorem normalize_text (s : String) : (ToolName.text s).normalize cases = some (normalizeToolName cases s) := rfl

/-- The analysis of an allow list throws for an entry that is not a string only. -/
theorem analyzeEntry_some {resolution : AllowlistResolution} {s : String} :
    ∃ resolution', analyzeEntry cases groups coreTools resolution (.text s) = some resolution' := by
  unfold analyzeEntry
  split
  · exact ⟨_, rfl⟩
  · exact ⟨_, rfl⟩

theorem foldlM_analyze_some {entries : List ToolName} (h : ∀ e ∈ entries, ∃ s, e = .text s)
    (resolution : AllowlistResolution) :
    ∃ resolution', entries.foldlM (analyzeEntry cases groups coreTools) resolution = some resolution' := by
  induction entries generalizing resolution with
  | nil => exact ⟨resolution, rfl⟩
  | cons e rest ih =>
    obtain ⟨s, rfl⟩ := h e mem_cons_self
    obtain ⟨next, hnext⟩ := @analyzeEntry_some cases groups coreTools resolution s
    obtain ⟨last, hlast⟩ := ih (fun e he => h e (mem_cons_of_mem _ he)) next
    refine ⟨last, ?_⟩
    rw [foldlM_cons, hnext]
    exact hlast

/-- An entry that compiles is a string. -/
theorem text_of_compiles (h : EntryCompiles cases groups e) :
    ∃ s, normalizeToolName cases e = .text s := by
  cases he : normalizeToolName cases e with
  | text s => exact ⟨s, rfl⟩
  | inherited key =>
    have hmem : ToolName.inherited key ∈ expandPluginEntry cases groups e := by
      simp only [expandPluginEntry, he, mem_singleton]
    obtain ⟨n, hn, -⟩ := h _ hmem
    cases hn

theorem analyze_some {policy : ToolPolicyLike} (h : ∀ e ∈ policy.allow.getD [], EntryCompiles cases groups e) :
    ∃ resolution, analyzeAllowlistByToolType cases policy groups coreTools = some resolution := by
  obtain ⟨normalized, hnormalized⟩ : ∃ normalized,
      normalizeToolList cases ((policy.allow.getD []).map ToolName.text) = some normalized := by
    obtain ⟨all, hall⟩ := exists_mapM_some_iff.mpr fun (m : ToolName)
        (hm : m ∈ (policy.allow.getD []).map ToolName.text) =>
      let ⟨e, _, he⟩ := List.mem_map.mp hm
      ⟨normalizeToolName cases e, he ▸ normalize_text e⟩
    exact ⟨_, map_eq_some_iff.mpr ⟨all, hall, rfl⟩⟩
  unfold analyzeAllowlistByToolType
  rw [hnormalized, bind_some]
  split
  · exact ⟨_, rfl⟩
  · refine foldlM_analyze_some (fun n hn => ?_) _
    obtain ⟨-, m, hm, hnormal⟩ := (mem_normalizeToolList hnormalized).mp hn
    obtain ⟨e, he, rfl⟩ := List.mem_map.mp hm
    obtain ⟨s, hs⟩ := text_of_compiles (h e he)
    rw [normalize_text, hs] at hnormal
    cases hnormal
    exact ⟨s, rfl⟩

/-- A step whose entries compile is a filter. -/
theorem applyStep_some {step : ToolPolicyPipelineStep} (h : ∀ e ∈ step.entries, EntryCompiles cases groups e)
    (filtered : List T) :
    applyStep cases name groups coreTools filtered step =
      some (filtered.filter (stepAdmits cases name groups step)) := by
  unfold applyStep
  cases hpolicy : step.policy with
  | none =>
    have hall : stepAdmits cases name groups step = fun _ => true := by
      funext tool
      unfold stepAdmits
      rw [hpolicy]
    simp only [hall, filter_true]
  | some policy =>
    simp only [ToolPolicyPipelineStep.entries, hpolicy, mem_append] at h
    obtain ⟨resolution, hresolution⟩ : ∃ resolution, (if step.stripPluginOnlyAllowlist then
        analyzeAllowlistByToolType cases policy groups coreTools else some {}) = some resolution := by
      split
      · exact analyze_some fun e he => h e (.inl he)
      · exact ⟨_, rfl⟩
    simp only [hresolution, bind_some]
    refine filterToolsByPolicy_some fun tool _ => ?_
    obtain ⟨allowed, hallowed, -⟩ :=
      isToolAllowed_iff (fun e he => h e (.inl he)) (fun e he => h e (.inr he)) (name tool)
    simp only [stepAdmits, hpolicy, hallowed, getD_some]

/-- The pipeline is the filter of all its steps. -/
theorem foldlM_filter {steps : List ToolPolicyPipelineStep} {run : List T → ToolPolicyPipelineStep → Option (List T)}
    {p : ToolPolicyPipelineStep → T → Bool}
    (h : ∀ step ∈ steps, ∀ filtered, run filtered step = some (filtered.filter (p step))) :
    steps.foldlM run tools = some (tools.filter fun tool => steps.all fun step => p step tool) := by
  induction steps generalizing tools with
  | nil => simp
  | cons step rest ih =>
    rw [foldlM_cons, h step mem_cons_self, bind_eq_bind, bind_some,
      ih fun s hs => h s (mem_cons_of_mem _ hs), filter_filter]
    congr 1
    refine filter_congr fun tool _ => ?_
    rw [all_cons, Bool.and_comm]

/-! ### What an entry names -/

/-- A star stands for any run of characters, every other character for itself. -/
inductive GlobNames : List Char → List Char → Prop where
  | nil : GlobNames [] []
  | star (pattern run rest : List Char) : GlobNames pattern rest → GlobNames ('*' :: pattern) (run ++ rest)
  | char (c : Char) (pattern rest : List Char) :
    c ≠ '*' → GlobNames pattern rest → GlobNames (c :: pattern) (c :: rest)

/-- A name trimmed, in lower case, and without aliases. -/
def normalText (cases : CaseTables) (s : String) : String :=
  match normalizeToolName cases s with
  | .text t => t
  | .inherited key => key

/-- The entry names what has this name. -/
def NamesText (cases : CaseTables) (e s : String) : Prop :=
  s = normalText cases e ∨ GlobNames (normalText cases e).toList s.toList ∨
    s ∈ (TOOL_GROUPS (normalText cases e)).getD []

/-- The entry names the tool, by its name or by its plugin. -/
def Names (cases : CaseTables) (name : T → String) (toolMeta : T → Option String) (e : String) (tool : T) : Prop :=
  NamesText cases e (normalText cases (name tool)) ∨
    ∃ pluginId, toolMeta tool = some pluginId ∧
      (pluginKey cases pluginId = normalText cases e ∨ normalText cases e = "group:plugins")

/-- The tool is `apply_patch`, and the entry names `write`. -/
def NamesWriteFor (cases : CaseTables) (name : T → String) (toolMeta : T → Option String) (tools : List T)
    (e : String) (tool : T) : Prop :=
  normalText cases (name tool) = "apply_patch" ∧
    (NamesText cases e "write" ∨ ∃ w ∈ tools, normalText cases (name w) = "write" ∧ Names cases name toolMeta e w)

/-! ### The property -/

/-- The run returns, in order, the tools that each step lets pass on its own, whatever the
order of the steps; no tool that an entry of a deny list names; and with an allow list that
has an entry, only tools that an entry of it names. -/
structure OnlyNarrows (cases : CaseTables) (name : T → String) (toolMeta : T → Option String) (tools : List T)
    (steps : List ToolPolicyPipelineStep) (admits : ToolPolicyPipelineStep → T → Bool) : Prop where
  returned : applyToolPolicyPipeline cases name toolMeta tools steps =
    some (tools.filter fun tool => steps.all fun step => admits step tool)
  alone : ∀ step ∈ steps, applyToolPolicyPipeline cases name toolMeta tools [step] = some (tools.filter (admits step))
  anyOrder : ∀ steps', (∀ step, step ∈ steps' ↔ step ∈ steps) →
    applyToolPolicyPipeline cases name toolMeta tools steps' =
      applyToolPolicyPipeline cases name toolMeta tools steps
  denied : ∀ step ∈ steps, ∀ policy, step.policy = some policy → ∀ e ∈ policy.deny.getD [], ∀ tool ∈ tools,
    Names cases name toolMeta e tool → tool ∉ tools.filter fun tool => steps.all fun step => admits step tool
  allowed : ∀ step ∈ steps, ∀ policy, step.policy = some policy → policy.allow.getD [] ≠ [] →
    ∀ tool ∈ tools.filter (admits step), ∃ e ∈ policy.allow.getD [],
      Names cases name toolMeta e tool ∨ NamesWriteFor cases name toolMeta tools e tool

/-- What the code makes of an entry: it does not throw, its patterns cover every tool that
the entry names, and they cover no other, nor are there none of them when there is a tool
the entry does not name. -/
structure CleanEntry (cases : CaseTables) (name : T → String) (toolMeta : T → Option String) (tools : List T)
    (e : String) : Prop where
  compiles : EntryCompiles cases (buildPluginToolGroups cases name toolMeta tools) e
  covers : ∀ tool ∈ tools, Names cases name toolMeta e tool →
    EntryCovers cases (buildPluginToolGroups cases name toolMeta tools) e (normalizeToolName cases (name tool))
  only : ∀ tool ∈ tools,
    EntryCovers cases (buildPluginToolGroups cases name toolMeta tools) e (normalizeToolName cases (name tool)) ∨
      (∀ p, ¬ EntryPattern cases (buildPluginToolGroups cases name toolMeta tools) e p) →
    Names cases name toolMeta e tool ∨ NamesWriteFor cases name toolMeta tools e tool

theorem onlyNarrows_of_clean {steps : List ToolPolicyPipelineStep}
    (h : ∀ step ∈ steps, ∀ e ∈ step.entries, CleanEntry cases name toolMeta tools e) :
    OnlyNarrows cases name toolMeta tools steps
      (stepAdmits cases name (buildPluginToolGroups cases name toolMeta tools)) := by
  have hrun (steps' : List ToolPolicyPipelineStep) (hsub : ∀ step ∈ steps', step ∈ steps) :
      applyToolPolicyPipeline cases name toolMeta tools steps' = some (tools.filter fun tool => steps'.all fun step =>
        stepAdmits cases name (buildPluginToolGroups cases name toolMeta tools) step tool) :=
    foldlM_filter fun step hstep filtered =>
      applyStep_some (fun e he => (h step (hsub step hstep) e he).compiles) filtered
  have hadmits (step : ToolPolicyPipelineStep) (hstep : step ∈ steps) (policy : ToolPolicyLike)
      (hpolicy : step.policy = some policy) (tool : T) :
      stepAdmits cases name (buildPluginToolGroups cases name toolMeta tools) step tool = true ↔
        (∀ e ∈ policy.deny.getD [], ¬ EntryCovers cases (buildPluginToolGroups cases name toolMeta tools) e
          (normalizeToolName cases (name tool))) ∧
        ((∀ e ∈ policy.allow.getD [], ∀ p,
            ¬ EntryPattern cases (buildPluginToolGroups cases name toolMeta tools) e p) ∨
          ∃ e ∈ policy.allow.getD [], EntryCovers cases (buildPluginToolGroups cases name toolMeta tools) e
            (normalizeToolName cases (name tool))) := by
    have hentries := h step hstep
    simp only [ToolPolicyPipelineStep.entries, hpolicy, mem_append] at hentries
    obtain ⟨allowed, hallowed, hiff⟩ := isToolAllowed_iff (fun e he => (hentries e (.inl he)).compiles)
      (fun e he => (hentries e (.inr he)).compiles) (name tool)
    simp only [stepAdmits, hpolicy, hallowed, getD_some, hiff]
  refine ⟨hrun steps fun _ hs => hs, fun step hstep => ?_, fun steps' hsame => ?_, ?_, ?_⟩
  · rw [hrun [step] (fun s hs => by rw [mem_singleton.mp hs]; exact hstep)]
    simp
  · rw [hrun steps fun _ hs => hs, hrun steps' fun s hs => (hsame s).mp hs]
    congr 1
    refine filter_congr fun tool _ => ?_
    rw [Bool.eq_iff_iff, all_eq_true, all_eq_true]
    exact ⟨fun hall s hs => hall s ((hsame s).mpr hs), fun hall s hs => hall s ((hsame s).mp hs)⟩
  · intro step hstep policy hpolicy e he tool htool hnames hmem
    have hpass := all_eq_true.mp (mem_filter.mp hmem).2 step hstep
    have hclean := h step hstep e (by
      simp only [ToolPolicyPipelineStep.entries, hpolicy, mem_append]
      exact .inr he)
    exact ((hadmits step hstep policy hpolicy tool).mp hpass).1 e he (hclean.covers tool htool hnames)
  · intro step hstep policy hpolicy hne tool hmem
    obtain ⟨htool, hpass⟩ := mem_filter.mp hmem
    have hclean (e : String) (he : e ∈ policy.allow.getD []) := h step hstep e (by
      simp only [ToolPolicyPipelineStep.entries, hpolicy, mem_append]
      exact .inl he)
    obtain hnone | ⟨e, he, hcovers⟩ := ((hadmits step hstep policy hpolicy tool).mp hpass).2
    · obtain ⟨e, he⟩ := exists_mem_of_ne_nil _ hne
      exact ⟨e, he, (hclean e he).only tool htool (.inr (hnone e he))⟩
    · exact ⟨e, he, (hclean e he).only tool htool (.inl hcovers)⟩

/-! ### Exactly which entries -/

def denyStep (e : String) : ToolPolicyPipelineStep := {policy := some {deny := some [e]}}

def allowStep (e : String) : ToolPolicyPipelineStep :=
  {policy := some {allow := some [e]}, stripPluginOnlyAllowlist := true}

section
variable {admits admits' : ToolPolicyPipelineStep → T → Bool}
  (hdeny : OnlyNarrows cases name toolMeta tools [denyStep e] admits)
  (hallow : OnlyNarrows cases name toolMeta tools [allowStep e] admits')
include hdeny hallow

/-- A step that runs has compiled its entry, or there was no tool. -/
theorem compiles_of_run :
    EntryCompiles cases (buildPluginToolGroups cases name toolMeta tools) e := by
  cases tools with
  | nil =>
    -- Without tools nothing is compiled, but the analysis has asked for a string.
    have hrun := hallow.alone (allowStep e) mem_cons_self
    cases he : normalizeToolName cases e with
    | text s =>
      intro m hm
      have hm' : m = .text s := by
        simp only [expandPluginEntry, he] at hm
        split at hm <;> exact mem_singleton.mp hm
      rw [hm']
      exact compiles_text (normalizeToolName_idem he)
    | inherited key =>
      have hthrows : analyzeAllowlistByToolType cases {allow := some [e]}
          (buildPluginToolGroups cases name toolMeta []) (coreToolNames cases name toolMeta []) = none := by
        have hlist : normalizeToolList cases [.text e] = some [.inherited key] := by
          simp only [normalizeToolList, mapM_cons, mapM_nil, normalize_text, he]
          rfl
        show (normalizeToolList cases [.text e]).bind _ = none
        rw [hlist]
        rfl
      simp only [applyToolPolicyPipeline, foldlM_cons, applyStep, allowStep, if_true, hthrows] at hrun
      cases hrun
  | cons tool rest =>
    have hrun := hdeny.alone (denyStep e) mem_cons_self
    cases hcompile : compileList cases (expandPluginGroups cases (some [e])
        (buildPluginToolGroups cases name toolMeta (tool :: rest))) with
    | some patterns =>
      exact list_compiles_iff.mp ⟨patterns, hcompile⟩ e mem_cons_self
    | none =>
      simp only [applyToolPolicyPipeline, foldlM_cons, applyStep, denyStep, filterToolsByPolicy,
        isToolAllowedByPolicyName, expandPolicyWithPluginGroups, hcompile] at hrun
      cases hrun

theorem clean_of_onlyNarrows :
    CleanEntry cases name toolMeta tools e := by
  have hcompiles := compiles_of_run hdeny hallow
  -- What the two steps let pass, tool by tool.
  have hpass (step : ToolPolicyPipelineStep) (hentries : step.entries = [e])
      {admits : ToolPolicyPipelineStep → T → Bool} (h : OnlyNarrows cases name toolMeta tools [step] admits) (tool : T) :
      tool ∈ tools.filter (admits step) ↔
        tool ∈ tools ∧ stepAdmits cases name (buildPluginToolGroups cases name toolMeta tools) step tool = true := by
    have hrun : applyToolPolicyPipeline cases name toolMeta tools [step] =
        some (tools.filter (stepAdmits cases name (buildPluginToolGroups cases name toolMeta tools) step)) := by
      unfold applyToolPolicyPipeline
      rw [foldlM_cons, applyStep_some]
      · rfl
      · intro e' he'
        rw [hentries] at he'
        rw [mem_singleton.mp he']
        exact hcompiles
    rw [h.alone step mem_cons_self, Option.some.injEq] at hrun
    rw [hrun, mem_filter]
  refine ⟨hcompiles, fun tool htool hnames => ?_, fun tool htool hcovered => ?_⟩
  · by_contra hcovers
    refine hdeny.denied (denyStep e) mem_cons_self _ rfl e mem_cons_self tool htool hnames ?_
    simp only [all_cons, all_nil, Bool.and_true]
    refine (hpass (denyStep e) rfl hdeny tool).mpr ⟨htool, ?_⟩
    obtain ⟨allowed, hallowed, hiff⟩ := @isToolAllowed_iff cases (buildPluginToolGroups cases name toolMeta tools)
      {deny := some [e]} (fun e' he' => (by cases he'))
      (fun e' he' => (by rw [mem_singleton.mp he']; exact hcompiles)) (name tool)
    simp only [stepAdmits, denyStep, hallowed, getD_some, hiff]
    refine ⟨fun e' he' => ?_, .inl fun e' he' => by cases he'⟩
    rw [mem_singleton.mp he']
    exact hcovers
  · have hmem : tool ∈ tools.filter (admits' (allowStep e)) := by
      refine (hpass (allowStep e) rfl hallow tool).mpr ⟨htool, ?_⟩
      obtain ⟨allowed, hallowed, hiff⟩ := @isToolAllowed_iff cases (buildPluginToolGroups cases name toolMeta tools)
        {allow := some [e]} (fun e' he' => by rw [mem_singleton.mp he']; exact hcompiles)
        (fun e' he' => by cases he') (name tool)
      simp only [stepAdmits, allowStep, hallowed, getD_some, hiff]
      refine ⟨fun e' he' => (by cases he'), ?_⟩
      obtain hcovers | hnone := hcovered
      · exact .inr ⟨e, mem_cons_self, hcovers⟩
      · refine .inl fun e' he' => ?_
        rw [mem_singleton.mp he']
        exact hnone
    obtain ⟨e', he', h⟩ := hallow.allowed (allowStep e) mem_cons_self _ rfl (by simp) tool hmem
    rwa [mem_singleton.mp he'] at h

end

end Steps

end OpenClaw.Agents
