import OpenClaw.Exec.DurableApproval

/-! Preludes, and the skills they are on the way to.

A prelude is let through for the sake of a skill that is run behind it. The pass over the
chain goes from the last part to the first and collects the skills that are run; it starts
again behind a part that is no skill's, but not behind a skill's own part that is followed
by `;` or `||`. The skills run behind such a part are carried over to the preludes before
it, which do not lead to them. -/
namespace OpenClaw.Exec

open List

section
variable (rules : AllowlistRules)

/-- The skills that a part runs. -/
def AllowlistRules.trusted (entry : ChainEvaluation) : List Text :=
  rules.resolveTrustedSkillExecutionIds entry.analysis entry.evaluation

/-- A part that only shows skills, and would not be satisfied otherwise. -/
def AllowlistRules.IsPrelude (entry : ChainEvaluation) : Prop :=
  rules.trusted entry = [] ∧ entry.evaluation.allowlistSatisfied = false ∧
    rules.isSkillPreludeOnlyEvaluation entry.analysis.segments = true

/-- The skills that a prelude reads. -/
def AllowlistRules.reads (entry : ChainEvaluation) : List Text := rules.resolveSkillPreludeIds entry.analysis.segments

/-- The parts with their marks. -/
def markedParts (entries : List ChainEvaluation) : List (ChainEvaluation × Bool) :=
  entries.zip (allowSkillPreludes rules entries).2

/-- From here on, `&&` leads past marked preludes and skills to one of the wanted skills. -/
inductive LeadsTo (wanted : Text → Prop) : List (ChainEvaluation × Bool) → Prop
  | here {entry : ChainEvaluation} {mark : Bool} {rest : List (ChainEvaluation × Bool)} {skill : Text}
      (hskill : skill ∈ rules.trusted entry) (hwanted : wanted skill) : LeadsTo wanted ((entry, mark) :: rest)
  | past {entry : ChainEvaluation} {mark : Bool} {rest : List (ChainEvaluation × Bool)}
      (hpassed : mark = true ∨ rules.trusted entry ≠ []) (hop : entry.opToNext = some .and)
      (hrest : LeadsTo wanted rest) : LeadsTo wanted ((entry, mark) :: rest)

/-- Every marked part leads to a skill that it reads, or to any if it reads none. -/
def PreludesLead (entries : List ChainEvaluation) : Prop :=
  ∀ before entry rest, markedParts rules entries = before ++ (entry, true) :: rest →
    entry.opToNext = some .and ∧
      LeadsTo rules (fun skill => rules.reads entry = [] ∨ skill ∈ rules.reads entry) rest

/-- A skill is run from here on, with only skills and preludes in between. A skill that is run
in between may have to be followed by `&&`, as every prelude has. -/
inductive RunBehind (contiguous : Bool) : List ChainEvaluation → Text → Prop
  | here {entry : ChainEvaluation} {rest : List ChainEvaluation} {skill : Text}
      (hskill : skill ∈ rules.trusted entry) : RunBehind contiguous (entry :: rest) skill
  | pastSkill {entry : ChainEvaluation} {rest : List ChainEvaluation} {skill : Text}
      (htrusted : rules.trusted entry ≠ []) (hop : contiguous = true → entry.opToNext = some .and)
      (hrest : RunBehind contiguous rest skill) : RunBehind contiguous (entry :: rest) skill
  | pastMarker {entry : ChainEvaluation} {rest : List ChainEvaluation} {skill : Text}
      (hprelude : rules.IsPrelude entry) (hop : entry.opToNext = some .and) (hreads : rules.reads entry = [])
      (hrest : RunBehind contiguous rest skill) : RunBehind contiguous (entry :: rest) skill
  | pastPrelude {entry : ChainEvaluation} {rest : List ChainEvaluation} {skill shown : Text}
      (hprelude : rules.IsPrelude entry) (hop : entry.opToNext = some .and) (hreads : shown ∈ rules.reads entry)
      (hshown : RunBehind contiguous rest shown) (hrest : RunBehind contiguous rest skill) :
      RunBehind contiguous (entry :: rest) skill

/-- A prelude that reads a skill run somewhere behind it reads one that `&&` leads to. -/
def NoneCarriedOver (entries : List ChainEvaluation) : Prop :=
  ∀ before entry rest, entries = before ++ entry :: rest → rules.IsPrelude entry → entry.opToNext = some .and →
    ∀ skill ∈ rules.reads entry, RunBehind rules false rest skill →
      ∃ shown ∈ rules.reads entry, RunBehind rules true rest shown

end

variable {entry : ChainEvaluation} {rest entries : List ChainEvaluation} {skill : Text}

section
variable {rules : AllowlistRules}

/-! ### The pass, part by part -/

theorem skillPreludes_trusted (h : rules.trusted entry ≠ []) (rest : List ChainEvaluation) :
    allowSkillPreludes rules (entry :: rest) =
      ((allowSkillPreludes rules rest).1 ++ rules.trusted entry, false :: (allowSkillPreludes rules rest).2) := by
  rw [allowSkillPreludes]
  exact if_pos h

variable (rules) in
/-- What the pass marks a part for. -/
def Reaches (entry : ChainEvaluation) (reachable : List Text) : Prop :=
  entry.opToNext = some .and ∧
    (rules.reads entry = [] ∧ reachable ≠ [] ∨ ∃ skill ∈ rules.reads entry, skill ∈ reachable)

open Classical in
theorem skillPreludes_untrusted (htrusted : rules.trusted entry = []) (rest : List ChainEvaluation) :
    allowSkillPreludes rules (entry :: rest) =
      if rules.IsPrelude entry ∧ Reaches rules entry (allowSkillPreludes rules rest).1 then
        ((allowSkillPreludes rules rest).1, true :: (allowSkillPreludes rules rest).2)
      else ([], false :: (allowSkillPreludes rules rest).2) := by
  have htrusted' : ¬rules.resolveTrustedSkillExecutionIds entry.analysis entry.evaluation ≠ [] := not_not.mpr htrusted
  rw [allowSkillPreludes]
  dsimp only
  rw [if_neg htrusted']
  apply if_congr ?_ rfl rfl
  cases hprelude : (!entry.evaluation.allowlistSatisfied &&
      rules.isSkillPreludeOnlyEvaluation entry.analysis.segments) with
  | false =>
    have hnot : ¬rules.IsPrelude entry := by
      rintro ⟨-, hsatisfied, honly⟩
      simp [hsatisfied, honly] at hprelude
    simp [hnot]
  | true =>
    have his : rules.IsPrelude entry := by
      simp only [Bool.and_eq_true, Bool.not_eq_true'] at hprelude
      exact ⟨htrusted, hprelude⟩
    by_cases hreads : rules.resolveSkillPreludeIds entry.analysis.segments = []
    · simp [his, Reaches, AllowlistRules.reads, hreads]
    · simp [his, Reaches, AllowlistRules.reads, hreads]

/-- What the pass finds at a part. -/
theorem skillPreludes_cases (entry : ChainEvaluation) (rest : List ChainEvaluation) :
    rules.trusted entry ≠ [] ∧ allowSkillPreludes rules (entry :: rest) =
        ((allowSkillPreludes rules rest).1 ++ rules.trusted entry, false :: (allowSkillPreludes rules rest).2) ∨
      (rules.IsPrelude entry ∧ Reaches rules entry (allowSkillPreludes rules rest).1) ∧
        allowSkillPreludes rules (entry :: rest) =
          ((allowSkillPreludes rules rest).1, true :: (allowSkillPreludes rules rest).2) ∨
      (rules.trusted entry = [] ∧ ¬(rules.IsPrelude entry ∧ Reaches rules entry (allowSkillPreludes rules rest).1)) ∧
        allowSkillPreludes rules (entry :: rest) = ([], false :: (allowSkillPreludes rules rest).2) := by
  by_cases htrusted : rules.trusted entry = []
  · have huntrusted := skillPreludes_untrusted htrusted rest
    by_cases hmarked : rules.IsPrelude entry ∧ Reaches rules entry (allowSkillPreludes rules rest).1
    · rw [if_pos hmarked] at huntrusted
      exact .inr (.inl ⟨hmarked, huntrusted⟩)
    · rw [if_neg hmarked] at huntrusted
      exact .inr (.inr ⟨⟨htrusted, hmarked⟩, huntrusted⟩)
  · exact .inl ⟨htrusted, skillPreludes_trusted htrusted rest⟩

/-- The skills that the pass has collected are those run behind. -/
theorem mem_reachable_iff (entries : List ChainEvaluation) (skill : Text) :
    skill ∈ (allowSkillPreludes rules entries).1 ↔ RunBehind rules false entries skill := by
  induction entries generalizing skill with
  | nil => exact iff_of_false not_mem_nil (by rintro ⟨⟩)
  | cons entry rest ih =>
    rcases skillPreludes_cases entry rest with ⟨htrusted, heq⟩ | ⟨⟨hprelude, hop, hreach⟩, heq⟩ | ⟨⟨htrusted, hnot⟩, heq⟩
    · rw [heq, mem_append, ih]
      constructor
      · rintro (h | h)
        · exact .pastSkill htrusted (by simp) h
        · exact .here h
      · rintro (⟨h⟩ | ⟨-, -, h⟩ | ⟨hprelude, -⟩ | ⟨hprelude, -⟩)
        · exact .inr ‹_›
        · exact .inl ‹_›
        · exact absurd hprelude.1 htrusted
        · exact absurd hprelude.1 htrusted
    · rw [heq, ih]
      constructor
      · intro h
        rcases hreach with ⟨hreads, -⟩ | ⟨shown, hshown, hmem⟩
        · exact .pastMarker hprelude hop hreads h
        · exact .pastPrelude hprelude hop hshown ((ih shown).mp hmem) h
      · rintro (⟨h⟩ | ⟨htrusted, -, h⟩ | ⟨-, -, -, h⟩ | ⟨-, -, -, -, h⟩)
        · rw [hprelude.1] at *
          contradiction
        · exact absurd hprelude.1 htrusted
        · assumption
        · assumption
    · rw [heq]
      refine iff_of_false not_mem_nil ?_
      rintro (⟨h⟩ | ⟨hne, -, h⟩ | ⟨hprelude, hop, hreads, h⟩ | ⟨hprelude, hop, hreads, hshown, h⟩)
      · rw [htrusted] at *
        contradiction
      · exact hne htrusted
      · exact hnot ⟨hprelude, hop, .inl ⟨hreads, ne_nil_of_mem ((ih skill).mpr h)⟩⟩
      · exact hnot ⟨hprelude, hop, .inr ⟨_, hreads, (ih _).mpr hshown⟩⟩

/-! ### The marks -/

theorem markedParts_cons {reachable : List Text} {mark : Bool}
    (h : allowSkillPreludes rules (entry :: rest) = (reachable, mark :: (allowSkillPreludes rules rest).2)) :
    markedParts rules (entry :: rest) = (entry, mark) :: markedParts rules rest := by
  rw [markedParts, h]
  rfl

/-- A part is marked if it is a prelude that reaches a skill. -/
theorem markedParts_mark (entry : ChainEvaluation) (rest : List ChainEvaluation) :
    ∃ mark, markedParts rules (entry :: rest) = (entry, mark) :: markedParts rules rest ∧
      (mark = true ↔ rules.IsPrelude entry ∧ Reaches rules entry (allowSkillPreludes rules rest).1) := by
  rcases skillPreludes_cases entry rest with ⟨htrusted, heq⟩ | ⟨hmarked, heq⟩ | ⟨⟨-, hnot⟩, heq⟩
  · refine ⟨false, markedParts_cons heq, ?_⟩
    simp only [Bool.false_eq_true, false_iff]
    rintro ⟨hprelude, -⟩
    exact htrusted hprelude.1
  · exact ⟨true, markedParts_cons heq, iff_of_true rfl hmarked⟩
  · exact ⟨false, markedParts_cons heq, iff_of_false (by simp) hnot⟩

theorem NoneCarriedOver.tail (h : NoneCarriedOver rules (entry :: rest)) : NoneCarriedOver rules rest :=
  fun before entry' rest' heq => h (entry :: before) entry' rest' (by rw [heq, cons_append])

theorem PreludesLead.tail (h : PreludesLead rules (entry :: rest)) : PreludesLead rules rest := by
  obtain ⟨mark, hcons, -⟩ := @markedParts_mark rules entry rest
  exact fun before entry' rest' heq => h ((entry, mark) :: before) entry' rest' (by rw [hcons, heq, cons_append])

/-- What `&&` leads to is run behind. -/
theorem RunBehind.anywhere (h : RunBehind rules true entries skill) :
    RunBehind rules false entries skill := by
  induction h with
  | here hskill => exact .here hskill
  | pastSkill htrusted _ _ ih => exact .pastSkill htrusted (by simp) ih
  | pastMarker hprelude hop hreads _ ih => exact .pastMarker hprelude hop hreads ih
  | pastPrelude hprelude hop hreads _ _ ihshown ih => exact .pastPrelude hprelude hop hreads ihshown ih

/-- The marks let a skill be led to. -/
theorem leadsTo_of_runBehind {wanted : Text → Prop} (h : RunBehind rules true entries skill)
    (hwanted : wanted skill) :
    LeadsTo rules wanted (markedParts rules entries) := by
  induction h with
  | @here entry rest _ hskill =>
    obtain ⟨mark, hcons, -⟩ := @markedParts_mark rules entry rest
    rw [hcons]
    exact .here hskill hwanted
  | @pastSkill entry rest _ htrusted hop _ ih =>
    obtain ⟨mark, hcons, -⟩ := @markedParts_mark rules entry rest
    rw [hcons]
    exact .past (.inr htrusted) (hop rfl) (ih hwanted)
  | @pastMarker entry rest skill hprelude hop hreads hrest ih =>
    obtain ⟨mark, hcons, hmark⟩ := @markedParts_mark rules entry rest
    have hreachable := (mem_reachable_iff rest skill).mpr hrest.anywhere
    rw [hcons]
    exact .past (.inl (hmark.mpr ⟨hprelude, hop, .inl ⟨hreads, ne_nil_of_mem hreachable⟩⟩)) hop (ih hwanted)
  | @pastPrelude entry rest skill shown hprelude hop hreads hshown _ _ ih =>
    obtain ⟨mark, hcons, hmark⟩ := @markedParts_mark rules entry rest
    have hreachable := (mem_reachable_iff rest shown).mpr hshown.anywhere
    rw [hcons]
    exact .past (.inl (hmark.mpr ⟨hprelude, hop, .inr ⟨shown, hreads, hreachable⟩⟩)) hop (ih hwanted)

/-- Where every marked part leads on, so does what they lead past. -/
theorem runBehind_of_leadsTo (hlead : PreludesLead rules entries) {wanted : Text → Prop}
    (h : LeadsTo rules wanted (markedParts rules entries)) :
    ∃ skill, wanted skill ∧ RunBehind rules true entries skill := by
  induction entries generalizing wanted with
  | nil => cases h
  | cons entry rest ih =>
    obtain ⟨mark, hcons, hmark⟩ := @markedParts_mark rules entry rest
    have hhere := hlead [] entry (markedParts rules rest)
    rw [hcons] at h hhere
    cases h with
    | @here _ _ _ skill hskill hwanted => exact ⟨skill, hwanted, .here hskill⟩
    | past hpassed hop hrest =>
      obtain ⟨skill, hwanted, hskill⟩ := ih hlead.tail hrest
      by_cases htrusted : rules.trusted entry = []
      · have hmarked : mark = true := hpassed.resolve_right (not_not.mpr htrusted)
        subst hmarked
        obtain ⟨hprelude, -, -⟩ := hmark.mp rfl
        obtain ⟨shown, hshown, hrun⟩ := ih hlead.tail (hhere rfl).2
        rcases hshown with hreads | hreads
        · exact ⟨skill, hwanted, .pastMarker hprelude hop hreads hskill⟩
        · exact ⟨skill, hwanted, .pastPrelude hprelude hop hreads hrun hskill⟩
      · exact ⟨skill, hwanted, .pastSkill htrusted (fun _ => hop) hskill⟩

/-- Where nothing is carried over, something that is run behind is led to. -/
theorem exists_runBehind (hcarried : NoneCarriedOver rules entries) (h : RunBehind rules false entries skill) :
    ∃ other, RunBehind rules true entries other := by
  induction h with
  | here hskill => exact ⟨_, .here hskill⟩
  | @pastSkill entry rest _ htrusted _ _ _ =>
    obtain ⟨other, hother⟩ := exists_mem_of_ne_nil _ htrusted
    exact ⟨other, .here hother⟩
  | pastMarker hprelude hop hreads _ ih =>
    obtain ⟨other, hother⟩ := ih hcarried.tail
    exact ⟨other, .pastMarker hprelude hop hreads hother⟩
  | @pastPrelude entry rest _ shown hprelude hop hreads hshown _ _ ih =>
    obtain ⟨other, hother⟩ := ih hcarried.tail
    obtain ⟨led, hled, hrun⟩ := hcarried [] entry rest rfl hprelude hop shown hreads hshown
    exact ⟨other, .pastPrelude hprelude hop hled hrun hother⟩

/-- A part that is marked, and the parts behind it. -/
theorem marked_split {before : List (ChainEvaluation × Bool)} {mark : Bool} {rest : List (ChainEvaluation × Bool)}
    (h : markedParts rules entries = before ++ (entry, mark) :: rest) :
    ∃ before' rest', entries = before' ++ entry :: rest' ∧ rest = markedParts rules rest' ∧
      (mark = true ↔ rules.IsPrelude entry ∧ Reaches rules entry (allowSkillPreludes rules rest').1) := by
  induction entries generalizing before with
  | nil => simp [markedParts] at h
  | cons first others ih =>
    obtain ⟨mark', hcons, hmark⟩ := @markedParts_mark rules first others
    rw [hcons] at h
    cases before with
    | nil =>
      obtain ⟨hpair, rfl⟩ := List.cons.inj h
      obtain ⟨rfl, rfl⟩ := Prod.mk.inj hpair
      exact ⟨[], others, rfl, rfl, hmark⟩
    | cons pair before =>
      obtain ⟨before', rest', rfl, hrest, hmark'⟩ := ih (List.cons.inj h).2
      exact ⟨first :: before', rest', rfl, hrest, hmark'⟩

theorem NoneCarriedOver.suffix {before : List ChainEvaluation} (h : NoneCarriedOver rules (before ++ rest)) :
    NoneCarriedOver rules rest := by
  induction before with
  | nil => exact h
  | cons entry before ih => exact ih h.tail

theorem PreludesLead.suffix {before : List ChainEvaluation} (h : PreludesLead rules (before ++ rest)) :
    PreludesLead rules rest := by
  induction before with
  | nil => exact h
  | cons entry before ih => exact ih h.tail

/-- The pass marks only preludes that lead to their skill exactly if it carries nothing over. -/
theorem preludesLead_iff (entries : List ChainEvaluation) :
    PreludesLead rules entries ↔ NoneCarriedOver rules entries := by
  constructor
  · rintro hlead before entry rest rfl hprelude hop skill hreads hskill
    obtain ⟨mark, hcons, hmark⟩ := @markedParts_mark rules entry rest
    have hmarked : mark = true :=
      hmark.mpr ⟨hprelude, hop, .inr ⟨skill, hreads, (mem_reachable_iff rest skill).mpr hskill⟩⟩
    subst hmarked
    have hsuffix := hlead.suffix
    obtain ⟨shown, hshown, hrun⟩ := runBehind_of_leadsTo hsuffix.tail (hsuffix [] entry _ hcons).2
    exact ⟨shown, hshown.resolve_left (ne_nil_of_mem hreads), hrun⟩
  · rintro hcarried before entry rest heq
    obtain ⟨before', rest', rfl, rfl, hmark⟩ := marked_split heq
    obtain ⟨hprelude, hop, hreach⟩ := hmark.mp rfl
    refine ⟨hop, ?_⟩
    rcases hreach with ⟨hreads, hne⟩ | ⟨skill, hreads, hmem⟩
    · obtain ⟨skill, hmem⟩ := exists_mem_of_ne_nil _ hne
      obtain ⟨other, hother⟩ := exists_runBehind hcarried.suffix.tail ((mem_reachable_iff rest' skill).mp hmem)
      exact leadsTo_of_runBehind hother (.inl hreads)
    · obtain ⟨shown, hshown, hrun⟩ := hcarried before' entry rest' rfl hprelude hop skill hreads
        ((mem_reachable_iff rest' skill).mp hmem)
      exact leadsTo_of_runBehind hrun (.inr hshown)

end

/-! ### The command -/

/-- The parts of a command, each analysed and judged, where it is a chain that can be. -/
def chainEvaluations (host : PathHost) (context : ExecAllowlistContext) (command : Text) : List ChainEvaluation :=
  if hasShellLineContinuation command || context.platform.any isWindowsPlatform then []
  else
    match splitCommandChainWithOperators command with
    | none => []
    | some parts =>
      match parts.mapM (evaluateChainPart host.toHost (allowlistRules host context)) with
      | .error _ => []
      | .ok entries => entries

/-- **The preludes of a command that are let through are on the way to their own skill,
exactly if no prelude reads only skills that are carried over to it.** -/
theorem skill_preludes_lead_iff (host : PathHost) (context : ExecAllowlistContext) (command : Text) :
    PreludesLead (allowlistRules host context) (chainEvaluations host context command) ↔
      NoneCarriedOver (allowlistRules host context) (chainEvaluations host context command) :=
  preludesLead_iff _

/-- Two skills, allowed by their wrappers. -/
def twoSkills : ExecAllowlistContext where
  allowlist := [{pattern := "/usr/bin/a-wrapper".toList}, {pattern := "/usr/bin/b-wrapper".toList}]
  safeBins := []

def carriedCommand : Text := "cat /skills/b/SKILL.md && a-wrapper ; b-wrapper".toList

/-- The prelude of the one skill is let through on the way to the other. -/
theorem prelude_leads_elsewhere :
    ¬PreludesLead (allowlistRules usrBinPaths twoSkills) (chainEvaluations usrBinPaths twoSkills carriedCommand) := by
  have hparts : (chainEvaluations usrBinPaths twoSkills carriedCommand).map (fun entry =>
      ((allowlistRules usrBinPaths twoSkills).trusted entry, (allowlistRules usrBinPaths twoSkills).reads entry,
        entry.opToNext)) =
      [([], texts ["b"], some .and), (texts ["a"], [], some .semicolon), (texts ["b"], [], none)] := by decide +kernel
  have hmarks : (allowSkillPreludes (allowlistRules usrBinPaths twoSkills)
      (chainEvaluations usrBinPaths twoSkills carriedCommand)).2 = [true, false, false] := by decide +kernel
  generalize chainEvaluations usrBinPaths twoSkills carriedCommand = entries at hparts hmarks ⊢
  obtain ⟨first, others, rfl, hfirst, hothers⟩ := map_eq_cons_iff.mp hparts
  obtain ⟨second, others, rfl, hsecond, hothers⟩ := map_eq_cons_iff.mp hothers
  intro h
  obtain ⟨-, hlead⟩ := h [] first (((second, false) :: others.zip [false])) (by rw [markedParts, hmarks]; rfl)
  simp only [Prod.mk.injEq] at hfirst hsecond
  cases hlead with
  | here hskill hwanted =>
    rw [hsecond.1] at hskill
    rw [hfirst.2.1] at hwanted
    revert hskill hwanted
    simp +contextual [texts]
  | past hpassed hop hrest =>
    rw [hsecond.2.2] at hop
    cases hop

end OpenClaw.Exec
