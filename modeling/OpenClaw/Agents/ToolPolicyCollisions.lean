import OpenClaw.Agents.ToolPolicyPipeline

/-! Entries and tools without collisions.

Where every tool has a plain name, that is no glob and no group, an entry is clean when it
is not blank and a plugin it stands for has its tools to itself: no tool outside the plugin
has the name of one of them, or is named by the entry in another way. -/
namespace OpenClaw.Agents
open Foundation EcmaString List Option

section Collisions
variable {T : Type} {cases : CaseTables} {name : T → String} {toolMeta : T → Option String} {tools : List T}

/-! ### What the groups hold -/

/-- The tool is of the plugin with this key. -/
def OfPlugin (cases : CaseTables) (toolMeta : T → Option String) (key : String) (tool : T) : Prop :=
  ∃ pluginId, toolMeta tool = some pluginId ∧ pluginKey cases pluginId = key

/-- The groups of the tools seen so far. -/
structure GroupsOf (cases : CaseTables) (name : T → String) (toolMeta : T → Option String) (seen : List T)
    (groups : PluginToolGroups) : Prop where
  all : ∀ m, m ∈ groups.all ↔
    ∃ tool ∈ seen, (toolMeta tool).isSome = true ∧ m = normalizeToolName cases (name tool)
  byPlugin : ∀ key m, m ∈ (groups.byPlugin.get? key).getD [] ↔
    key ≠ "" ∧ ∃ tool ∈ seen, OfPlugin cases toolMeta key tool ∧ m = normalizeToolName cases (name tool)

theorem GroupsOf.add {seen : List T} {groups : PluginToolGroups} (h : GroupsOf cases name toolMeta seen groups)
    (tool : T) : GroupsOf cases name toolMeta (seen ++ [tool]) (addToGroups cases name toolMeta groups tool) := by
  unfold addToGroups
  cases hmeta : toolMeta tool with
  | none =>
    refine ⟨fun m => ?_, fun key m => ?_⟩
    · simp [h.all m, mem_append, or_and_right, exists_or, hmeta]
    · simp [h.byPlugin key m, mem_append, or_and_right, exists_or, OfPlugin, hmeta]
  | some pluginId =>
    have hall (m : ToolName) : m ∈ groups.all ++ [normalizeToolName cases (name tool)] ↔
        ∃ t ∈ seen ++ [tool], (toolMeta t).isSome = true ∧ m = normalizeToolName cases (name t) := by
      simp [h.all m, mem_append, or_and_right, exists_or, hmeta]
    by_cases hkey : pluginKey cases pluginId = ""
    · simp only [hkey, if_true]
      refine ⟨hall, fun key m => ?_⟩
      rw [h.byPlugin key m]
      refine and_congr_right fun hne => ?_
      simp [mem_append, or_and_right, exists_or, OfPlugin, hmeta, hkey, Ne.symm hne]
    · simp only [hkey, if_false]
      refine ⟨hall, fun key m => ?_⟩
      rw [InsertionMap.get?_set]
      by_cases hsame : key = pluginKey cases pluginId
      · subst hsame
        simp [h.byPlugin _ m, mem_append, or_and_right, exists_or, OfPlugin, hmeta, hkey]
      · rw [if_neg hsame, h.byPlugin key m]
        refine and_congr_right fun _ => ?_
        simp [mem_append, or_and_right, exists_or, OfPlugin, hmeta, Ne.symm hsame]

theorem groupsOf_build (tools : List T) :
    GroupsOf cases name toolMeta tools (buildPluginToolGroups cases name toolMeta tools) := by
  have hfold (seen rest : List T) (groups : PluginToolGroups) (h : GroupsOf cases name toolMeta seen groups) :
      GroupsOf cases name toolMeta (seen ++ rest) (rest.foldl (addToGroups cases name toolMeta) groups) := by
    induction rest generalizing seen groups with
    | nil => rwa [append_nil]
    | cons tool rest ih =>
      have := ih (seen ++ [tool]) _ (h.add tool)
      rwa [append_assoc] at this
  refine hfold [] tools ⟨[], ∅⟩ ⟨fun m => ?_, fun key m => ?_⟩
  · simp
  · simp

/-! ### Globs -/

theorem takesAfterStar_iff {rest : List Char → Bool} {s : List Char} : takesAfterStar rest s = true ↔
    ∃ run tail, s = run ++ tail ∧ (∀ c ∈ run, isLineTerminator c = false) ∧ rest tail = true := by
  induction s with
  | nil =>
    constructor
    · exact fun h => ⟨[], [], rfl, fun _ hc => (by cases hc), h⟩
    · rintro ⟨run, tail, hs, -, h⟩
      obtain ⟨-, rfl⟩ := append_eq_nil_iff.mp hs.symm
      exact h
  | cons c s ih =>
    rw [takesAfterStar, Bool.or_eq_true, Bool.and_eq_true, Bool.not_eq_true', ih]
    constructor
    · rintro (h | ⟨hc, run, tail, rfl, hrun, h⟩)
      · exact ⟨[], c :: s, rfl, fun _ hc => (by cases hc), h⟩
      · exact ⟨c :: run, tail, rfl, forall_mem_cons.mpr ⟨hc, hrun⟩, h⟩
    · rintro ⟨run, tail, hs, hrun, h⟩
      cases run with
      | nil =>
        left
        rw [nil_append] at hs
        rwa [hs]
      | cons d run =>
        cases hs
        obtain ⟨hc, hrun⟩ := forall_mem_cons.mp hrun
        exact .inr ⟨hc, run, tail, rfl, hrun, h⟩

theorem globNames_char {c : Char} {g s : List Char} (hne : c ≠ '*') :
    GlobNames (c :: g) s ↔ ∃ rest, s = c :: rest ∧ GlobNames g rest := by
  constructor
  · intro h
    generalize hg : c :: g = glob at h
    cases h with
    | nil => cases hg
    | star =>
      cases hg
      exact absurd rfl hne
    | char d pattern rest _ h =>
      cases hg
      exact ⟨rest, rfl, h⟩
  · rintro ⟨rest, rfl, h⟩
    exact .char c g rest hne h

/-- On a text of one line the regular expression is the glob. -/
theorem globMatches_iff {g s : List Char} (hs : ∀ c ∈ s, isLineTerminator c = false) :
    globMatches g s = true ↔ GlobNames g s := by
  induction g generalizing s with
  | nil =>
    show s.isEmpty = true ↔ _
    rw [List.isEmpty_iff]
    constructor
    · rintro rfl
      exact .nil
    · intro h
      cases h
      rfl
  | cons c g ih =>
    by_cases hstar : c = '*'
    · subst hstar
      show takesAfterStar (globMatches g) s = true ↔ _
      rw [takesAfterStar_iff]
      constructor
      · rintro ⟨run, tail, rfl, -, h⟩
        exact .star g run tail ((ih fun d hd => hs d (mem_append_right _ hd)).mp h)
      · intro h
        cases h with
        | star _ run tail h =>
          exact ⟨run, tail, rfl, fun d hd => hs d (mem_append_left _ hd),
            (ih fun d hd => hs d (mem_append_right _ hd)).mpr h⟩
        | char _ _ _ hne => exact absurd rfl hne
    · rw [globNames_char hstar]
      cases s with
      | nil => simp [globMatches, hstar]
      | cons d s =>
        simp only [globMatches, hstar, if_false, Bool.and_eq_true, decide_eq_true_eq,
          ih fun x hx => hs x (mem_cons_of_mem _ hx)]
        constructor
        · rintro ⟨rfl, h⟩
          exact ⟨s, rfl, h⟩
        · rintro ⟨rest, hcons, h⟩
          cases hcons
          exact ⟨rfl, h⟩

theorem GlobNames.refl (g : List Char) : GlobNames g g := by
  induction g with
  | nil => exact .nil
  | cons c g ih =>
    by_cases hstar : c = '*'
    · subst hstar
      exact .star g ['*'] g ih
    · exact .char c g g hstar ih

/-- Without a star a glob names itself only. -/
theorem GlobNames.eq_of_plain {g s : List Char} (h : GlobNames g s) (hg : '*' ∉ g) : s = g := by
  induction h with
  | nil => rfl
  | star => exact absurd mem_cons_self hg
  | char c pattern rest _ _ ih => rw [ih fun hmem => hg (mem_cons_of_mem _ hmem)]

/-! ### What one name matches -/

/-- Neither blank nor a group nor a glob, and on one line. -/
structure PlainName (t : String) : Prop where
  ne_empty : t ≠ ""
  no_star : '*' ∉ t.toList
  one_line : ∀ c ∈ t.toList, isLineTerminator c = false
  no_group : TOOL_GROUPS t = none

theorem patternOf_single {n : String} (hn : normalizeToolName cases n = .text n) (hne : n ≠ "")
    (hgroup : TOOL_GROUPS n = none) {p : CompiledGlobPattern} : PatternOf cases (.text n) p ↔
      p = if n = "*" then .all else if '*' ∈ n.toList then .regex n else .exact n := by
  unfold PatternOf
  simp only [normalize_text, hn, Option.some.injEq]
  constructor
  · rintro ⟨-, _, rfl, -, x, hx, hp⟩
    simp only [expandName, hgroup, map_none, getD_none, mem_singleton] at hx
    subst hx
    simp only [compileGlobPattern, normalize_text, hn, bind_some, hne, if_false] at hp
    split at hp
    · cases hp
      rename_i hall
      rw [if_pos hall]
    · rename_i hall
      rw [if_neg hall]
      split at hp
      · cases hp
        rename_i hstar
        rw [if_pos hstar]
      · cases hp
        rename_i hstar
        rw [if_neg hstar]
  · rintro rfl
    refine ⟨?_, .text n, rfl, by simp [ToolName.truthy, hne], .text n, ?_, ?_⟩
    · repeat' split
      · rintro ⟨⟩
      · rintro ⟨⟩
      · simpa using hne
    · simp [expandName, hgroup]
    · simp only [compileGlobPattern, normalize_text, hn, bind_some, hne, if_false]
      repeat' split
      all_goals rfl

theorem patternOf_plain {t : String} (hn : normalizeToolName cases t = .text t) (ht : PlainName t)
    {p : CompiledGlobPattern} : PatternOf cases (.text t) p ↔ p = .exact t := by
  have hall : ¬ t = "*" := by
    rintro rfl
    exact ht.no_star mem_cons_self
  rw [patternOf_single hn ht.ne_empty ht.no_group, if_neg hall, if_neg ht.no_star]

/-- A name that is no group matches what its glob names. -/
theorem single_matches {n t : String} (hn : normalizeToolName cases n = .text n) (hne : n ≠ "")
    (hgroup : TOOL_GROUPS n = none) (ht : ∀ c ∈ t.toList, isLineTerminator c = false) :
    (∃ p, PatternOf cases (.text n) p ∧ p.matches (.text t) = true) ↔ GlobNames n.toList t.toList := by
  simp only [patternOf_single hn hne hgroup, exists_eq_left]
  by_cases hall : n = "*"
  · subst hall
    rw [if_pos rfl]
    refine iff_of_true rfl ?_
    have := GlobNames.star [] t.toList [] .nil
    rwa [append_nil] at this
  · rw [if_neg hall]
    by_cases hstar : '*' ∈ n.toList
    · rw [if_pos hstar]
      exact globMatches_iff ht
    · rw [if_neg hstar]
      simp only [CompiledGlobPattern.matches, ToolName.text.injEq, decide_eq_true_eq]
      constructor
      · rintro rfl
        exact .refl _
      · exact fun h => String.toList_inj.mp (h.eq_of_plain hstar)

theorem core_compiles {id : String} (h : id ∈ CORE_TOOL_DEFINITIONS.map CoreToolDefinition.id) :
    compileGlobPattern cases (.text id) = some (.exact id) ∧ id ≠ "" := by
  have hplain : (CORE_TOOL_DEFINITIONS.map CoreToolDefinition.id).all (fun id =>
      id ≠ "" && id ≠ "*" && !(id.toList.contains '*')) = true := by
    decide
  have hid := List.all_eq_true.mp hplain id h
  simp only [Bool.and_eq_true, decide_eq_true_eq, Bool.not_eq_true', contains_eq_mem,
    decide_eq_false_iff_not] at hid
  obtain ⟨⟨hne, hall⟩, hstar⟩ := hid
  refine ⟨?_, hne⟩
  simp only [compileGlobPattern, normalize_text, normalizeToolName_core h, bind_some, hne, hall, hstar,
    if_false]

theorem patternOf_group {n : String} (hn : normalizeToolName cases n = .text n) (hne : n ≠ "") {ids : List String}
    (hgroup : TOOL_GROUPS n = some ids) {p : CompiledGlobPattern} :
    PatternOf cases (.text n) p ↔ ∃ id ∈ ids, p = .exact id := by
  unfold PatternOf
  simp only [normalize_text, hn, Option.some.injEq]
  constructor
  · rintro ⟨-, _, rfl, -, x, hx, hp⟩
    simp only [expandName, hgroup, map_some, getD_some] at hx
    obtain ⟨id, hid, rfl⟩ := List.mem_map.mp hx
    rw [(core_compiles (mem_of_group hgroup hid)).1] at hp
    cases hp
    exact ⟨id, hid, rfl⟩
  · rintro ⟨id, hid, rfl⟩
    obtain ⟨hcompiles, hid'⟩ := @core_compiles cases id (mem_of_group hgroup hid)
    refine ⟨by simpa using hid', .text n, rfl, by simp [ToolName.truthy, hne], .text id, ?_, hcompiles⟩
    simp only [expandName, hgroup, map_some, getD_some]
    exact List.mem_map_of_mem hid

/-- The name of a group has no star. -/
theorem no_star_of_group {n : String} {ids : List String} (h : TOOL_GROUPS n = some ids) : '*' ∉ n.toList := by
  have hplain :
      CORE_TOOL_DEFINITIONS.all (fun tool => !(("group:" ++ tool.sectionId).toList.contains '*')) = true := by
    decide
  unfold TOOL_GROUPS at h
  split at h
  · cases h
  rename_i hne
  obtain ⟨tool, htool⟩ := exists_mem_of_ne_nil _ hne
  unfold groupTools at htool
  split at htool
  · rename_i hopenclaw
    rw [hopenclaw]
    decide
  · obtain ⟨hmem, hsection⟩ := mem_filter.mp htool
    have := List.all_eq_true.mp hplain tool hmem
    simp only [decide_eq_true_eq] at hsection
    rw [hsection] at this
    simpa using this

/-- On plain names a normal name matches what it names. -/
theorem text_matches {e n t : String} (he : normalizeToolName cases e = .text n) (hne : n ≠ "") (ht : PlainName t) :
    (∃ p, PatternOf cases (.text n) p ∧ p.matches (.text t) = true) ↔ NamesText cases e t := by
  have hn := normalizeToolName_idem he
  have hnormal : normalText cases e = n := by
    unfold normalText
    rw [he]
  unfold NamesText
  rw [hnormal]
  cases hgroup : TOOL_GROUPS n with
  | none =>
    rw [single_matches hn hne hgroup ht.one_line]
    constructor
    · exact fun h => .inr (.inl h)
    · rintro (rfl | h | h)
      · exact .refl _
      · exact h
      · cases h
  | some ids =>
    simp only [patternOf_group hn hne hgroup, getD_some]
    have hother : ¬ t = n := by
      rintro rfl
      rw [ht.no_group] at hgroup
      cases hgroup
    constructor
    · rintro ⟨p, ⟨id, hid, rfl⟩, hp⟩
      simp only [CompiledGlobPattern.matches, ToolName.text.injEq, decide_eq_true_eq] at hp
      exact .inr (.inr (hp ▸ hid))
    · rintro (h | h | h)
      · exact absurd h hother
      · exact absurd (String.toList_inj.mp (h.eq_of_plain (no_star_of_group hgroup))) hother
      · exact ⟨_, ⟨t, h, rfl⟩, by simp [CompiledGlobPattern.matches]⟩

/-! ### Entries -/

/-- The tool is of the plugin, or of some plugin, that the name stands for. -/
def ProvidedAs (cases : CaseTables) (toolMeta : T → Option String) (n : String) (tool : T) : Prop :=
  ∃ pluginId, toolMeta tool = some pluginId ∧ (pluginKey cases pluginId = n ∨ n = "group:plugins")

theorem expandPluginEntry_cases {e n : String} (he : normalizeToolName cases e = .text n) (hne : n ≠ "") :
    (expandPluginEntry cases (buildPluginToolGroups cases name toolMeta tools) e = [.text n] ∧
      ∀ tool ∈ tools, ¬ ProvidedAs cases toolMeta n tool) ∨
    (∃ tool ∈ tools, ProvidedAs cases toolMeta n tool) ∧
      ∀ m, m ∈ expandPluginEntry cases (buildPluginToolGroups cases name toolMeta tools) e ↔
        ∃ tool ∈ tools, ProvidedAs cases toolMeta n tool ∧ m = normalizeToolName cases (name tool) := by
  have hgroups := @groupsOf_build T cases name toolMeta tools
  -- The names that the entry is replaced by, if there are any.
  obtain ⟨names, hnames, hexpand⟩ : ∃ names : List ToolName,
      (∀ m, m ∈ names ↔ ∃ tool ∈ tools, ProvidedAs cases toolMeta n tool ∧ m = normalizeToolName cases (name tool)) ∧
      expandPluginEntry cases (buildPluginToolGroups cases name toolMeta tools) e =
        if names = [] then [.text n] else names := by
    unfold expandPluginEntry
    simp only [he]
    by_cases hplugins : n = "group:plugins"
    · refine ⟨(buildPluginToolGroups cases name toolMeta tools).all, fun m => ?_,
        by simp only [hplugins, if_true, List.isEmpty_iff]⟩
      rw [hgroups.all m]
      refine exists_congr fun tool => and_congr_right fun _ => and_congr_left fun _ => ?_
      simp [ProvidedAs, hplugins, isSome_iff_exists]
    · refine ⟨((buildPluginToolGroups cases name toolMeta tools).byPlugin.get? n).getD [], fun m => ?_, ?_⟩
      · rw [hgroups.byPlugin n m]
        simp [ProvidedAs, OfPlugin, hplugins, hne]
      · simp only [hplugins, if_false]
        cases (buildPluginToolGroups cases name toolMeta tools).byPlugin.get? n with
        | none => rfl
        | some list => cases list <;> rfl
  by_cases hnil : names = []
  · left
    refine ⟨by rw [hexpand, if_pos hnil], fun tool htool hprovided => ?_⟩
    have := (hnames _).mpr ⟨tool, htool, hprovided, rfl⟩
    rw [hnil] at this
    cases this
  · right
    obtain ⟨m, hm⟩ := exists_mem_of_ne_nil _ hnil
    obtain ⟨tool, htool, hprovided, -⟩ := (hnames m).mp hm
    exact ⟨⟨tool, htool, hprovided⟩, fun m => by rw [hexpand, if_neg hnil, hnames m]⟩

/-- Every tool has a plain name. -/
def PlainTools (cases : CaseTables) (name : T → String) (tools : List T) : Prop :=
  ∀ tool ∈ tools, ∃ t, normalizeToolName cases (name tool) = .text t ∧ PlainName t

/-- The entry is not blank, and the tools of the plugin it stands for share no name with
others and are all that it names. -/
structure SeparateEntry (cases : CaseTables) (name : T → String) (toolMeta : T → Option String) (tools : List T)
    (e n : String) : Prop where
  normal : normalizeToolName cases e = .text n
  ne_empty : n ≠ ""
  separate : ∀ tool ∈ tools, ProvidedAs cases toolMeta n tool → ∀ other ∈ tools,
    NamesText cases e (normalText cases (name other)) ∨
      normalizeToolName cases (name other) = normalizeToolName cases (name tool) →
    ProvidedAs cases toolMeta n other

theorem cleanEntry_of_separate (htools : PlainTools cases name tools) {e n : String}
    (h : SeparateEntry cases name toolMeta tools e n) : CleanEntry cases name toolMeta tools e := by
  obtain ⟨he, hne, hseparate⟩ := h
  have hnormal : normalText cases e = n := by
    unfold normalText
    rw [he]
  have hnames (tool : T) : Names cases name toolMeta e tool ↔
      NamesText cases e (normalText cases (name tool)) ∨ ProvidedAs cases toolMeta n tool := by
    unfold Names ProvidedAs
    rw [hnormal]
  have hline : "write".toList.all (fun c => !isLineTerminator c) = true := by decide
  have hwrite : PlainName "write" :=
    ⟨by decide, by decide, fun c hc => by simpa using List.all_eq_true.mp hline c hc, by decide⟩
  obtain ⟨hsingle, hnone⟩ | ⟨⟨provided, hprovided, hof⟩, hmem⟩ :=
    @expandPluginEntry_cases T cases name toolMeta tools e n he hne
  · -- The entry stands for its own name.
    have hcovers {t : String} (ht : PlainName t) :
        (∃ p, EntryPattern cases (buildPluginToolGroups cases name toolMeta tools) e p ∧ p.matches (.text t) = true) ↔
          NamesText cases e t := by
      rw [← text_matches he hne ht]
      simp only [EntryPattern, hsingle, mem_singleton, exists_eq_left]
    refine ⟨fun m hm => ?_, fun tool htool hnamed => ?_, fun tool htool hcovered => ?_⟩
    · rw [hsingle, mem_singleton] at hm
      rw [hm]
      exact compiles_text (normalizeToolName_idem he)
    · obtain ⟨t, ht, hplain⟩ := htools tool htool
      obtain hnamed | hof := (hnames tool).mp hnamed
      · simp only [normalText, ht] at hnamed
        left
        rw [ht]
        exact (hcovers hplain).mpr hnamed
      · exact absurd hof (hnone tool htool)
    · obtain ⟨t, ht, hplain⟩ := htools tool htool
      have htext : normalText cases (name tool) = t := by
        unfold normalText
        rw [ht]
      obtain (hcovered | ⟨hpatch, hcovered⟩) | hempty := hcovered
      · rw [ht] at hcovered
        refine .inl ((hnames tool).mpr (.inl ?_))
        rw [htext]
        exact (hcovers hplain).mp hcovered
      · refine .inr ⟨?_, .inl ((hcovers hwrite).mp hcovered)⟩
        rw [ht, ToolName.text.injEq] at hpatch
        rw [htext, hpatch]
      · -- A name that is not blank has a pattern.
        exfalso
        have hn := normalizeToolName_idem he
        cases hgroup : TOOL_GROUPS n with
        | none =>
          refine hempty _ ⟨.text n, ?_, (patternOf_single hn hne hgroup).mpr rfl⟩
          rw [hsingle]
          exact mem_singleton_self _
        | some ids =>
          obtain ⟨id, hid⟩ : ∃ id, id ∈ ids := by
            unfold TOOL_GROUPS at hgroup
            split at hgroup
            · cases hgroup
            · rename_i hsome
              cases hgroup
              obtain ⟨tool, htool⟩ := exists_mem_of_ne_nil _ hsome
              exact ⟨tool.id, List.mem_map_of_mem htool⟩
          refine hempty _ ⟨.text n, ?_, (patternOf_group hn hne hgroup).mpr ⟨id, hid, rfl⟩⟩
          rw [hsingle]
          exact mem_singleton_self _
  · -- The entry stands for the tools of its plugin.
    have hpattern {p : CompiledGlobPattern} :
        EntryPattern cases (buildPluginToolGroups cases name toolMeta tools) e p ↔
          ∃ w ∈ tools, ProvidedAs cases toolMeta n w ∧
            ∃ t, normalizeToolName cases (name w) = .text t ∧ p = .exact t := by
      constructor
      · rintro ⟨m, hm, hp⟩
        obtain ⟨w, hw, hof, hname⟩ := (hmem m).mp hm
        obtain ⟨t, ht, hplain⟩ := htools w hw
        rw [hname, ht] at hp
        exact ⟨w, hw, hof, t, ht, (patternOf_plain (normalizeToolName_idem ht) hplain).mp hp⟩
      · rintro ⟨w, hw, hof, t, ht, rfl⟩
        obtain ⟨t', ht', hplain⟩ := htools w hw
        rw [ht] at ht'
        cases ht'
        exact ⟨.text t, (hmem _).mpr ⟨w, hw, hof, ht.symm⟩,
          (patternOf_plain (normalizeToolName_idem ht) hplain).mpr rfl⟩
    have hcovers {t : String} :
        (∃ p, EntryPattern cases (buildPluginToolGroups cases name toolMeta tools) e p ∧ p.matches (.text t) = true) ↔
          ∃ w ∈ tools, ProvidedAs cases toolMeta n w ∧ normalizeToolName cases (name w) = .text t := by
      constructor
      · rintro ⟨p, hp, hmatch⟩
        obtain ⟨w, hw, hof, t', ht', rfl⟩ := hpattern.mp hp
        simp only [CompiledGlobPattern.matches, ToolName.text.injEq, decide_eq_true_eq] at hmatch
        exact ⟨w, hw, hof, by rw [ht', hmatch]⟩
      · rintro ⟨w, hw, hof, ht⟩
        exact ⟨.exact t, hpattern.mpr ⟨w, hw, hof, t, ht, rfl⟩, by simp [CompiledGlobPattern.matches]⟩
    refine ⟨fun m hm => ?_, fun tool htool hnamed => ?_, fun tool htool hcovered => ?_⟩
    · obtain ⟨w, hw, -, hname⟩ := (hmem m).mp hm
      obtain ⟨t, ht, -⟩ := htools w hw
      rw [hname, ht]
      exact compiles_text (normalizeToolName_idem ht)
    · have hof' : ProvidedAs cases toolMeta n tool := by
        obtain hnamed | hof' := (hnames tool).mp hnamed
        · exact hseparate provided hprovided hof tool htool (.inl hnamed)
        · exact hof'
      obtain ⟨t, ht, -⟩ := htools tool htool
      left
      rw [ht]
      exact hcovers.mpr ⟨tool, htool, hof', ht⟩
    · obtain ⟨t, ht, hplain⟩ := htools tool htool
      have htext : normalText cases (name tool) = t := by
        unfold normalText
        rw [ht]
      obtain (hcovered | ⟨hpatch, hcovered⟩) | hempty := hcovered
      · rw [ht] at hcovered
        obtain ⟨w, hw, hof, hsame⟩ := hcovers.mp hcovered
        exact .inl ((hnames tool).mpr (.inr (hseparate w hw hof tool htool (.inr (ht.trans hsame.symm)))))
      · obtain ⟨w, hw, hof, hwrite⟩ := hcovers.mp hcovered
        rw [ht, ToolName.text.injEq] at hpatch
        refine .inr ⟨by rw [htext, hpatch], .inr ⟨w, hw, ?_, (hnames w).mpr (.inr hof)⟩⟩
        unfold normalText
        rw [hwrite]
      · obtain ⟨t', ht', -⟩ := htools provided hprovided
        exact absurd (hpattern.mpr ⟨provided, hprovided, hof, t', ht', rfl⟩) (hempty _)

theorem cleanEntry_of_separate_read : CleanEntry asciiTables Prod.fst Prod.snd [("read", none), ("open", some "web")]
    "read" := by
  refine cleanEntry_of_separate (n := "read") ?_ ⟨by decide, by decide, ?_⟩
  · intro tool htool
    simp only [mem_cons, not_mem_nil, or_false] at htool
    rcases htool with rfl | rfl
    · exact ⟨"read", by decide, by decide, by decide, by simp [isLineTerminator], by decide⟩
    · exact ⟨"open", by decide, by decide, by decide, by simp [isLineTerminator], by decide⟩
  · intro tool htool hprovided
    simp only [mem_cons, not_mem_nil, or_false] at htool
    rcases htool with rfl | rfl <;> simp [ProvidedAs] at hprovided
    exact absurd hprovided (by decide)

end Collisions

end OpenClaw.Agents
