import OpenClaw.Exec.Allowlist
import OpenClaw.Foundation.InsertionMap

/-! The stored approvals of each agent, and adding an entry to an agent's allowlist.

An entry is known by its pattern together with its argument pattern: one executable may
be approved several times, each time for other arguments. -/
namespace OpenClaw.Exec
open Foundation EcmaString List

inductive ExecSecurity where
  | deny
  | allowlist
  | full
  deriving Repr, DecidableEq

inductive ExecAsk where
  | off
  | onMiss
  | always
  deriving Repr, DecidableEq

structure ExecApprovalsDefaults where
  security : Option ExecSecurity := none
  ask : Option ExecAsk := none
  askFallback : Option ExecSecurity := none
  autoAllowSkills : Option Bool := none
  deriving Repr, DecidableEq

structure ExecApprovalsAgent extends ExecApprovalsDefaults where
  allowlist : Option (List ExecAllowlistEntry) := none
  deriving Repr, DecidableEq

structure ExecApprovalsFile where
  agents : Option (InsertionMap Text ExecApprovalsAgent)

def DEFAULT_AGENT_ID : Text := "main".toList

/-- What an entry is known by. -/
def ExecAllowlistEntry.pair (entry : ExecAllowlistEntry) : Text × Option Text :=
  (entry.pattern, entry.argPattern)

def ExecApprovalsFile.agent (file : ExecApprovalsFile) (target : Text) : ExecApprovalsAgent :=
  ((file.agents.getD ∅).get? target).getD {}

def ExecApprovalsFile.allowlist (file : ExecApprovalsFile) (target : Text) : List ExecAllowlistEntry :=
  (file.agent target).allowlist.getD []

def ExecApprovalsFile.setAllowlist (file : ExecApprovalsFile) (target : Text)
    (nextAllowlist : List ExecAllowlistEntry) : ExecApprovalsFile :=
  {file with agents := some ((file.agents.getD ∅).set target
    {file.agent target with allowlist := some nextAllowlist})}

/-- The pair an entry is asked for, as it is stored. -/
def trimmedPair (pattern : Text) (argPattern : Option Text) : Text × Option Text :=
  (trimChars pattern, (argPattern.map trimChars).filter (· ≠ []))

/-- The entry of the list that an added one is taken to be. -/
def findExisting (allowlist : List ExecAllowlistEntry) (pair : Text × Option Text) :
    Option ExecAllowlistEntry :=
  allowlist.find? fun entry => entry.pattern = pair.1 && entry.argPattern = pair.2

def rewriteEntry (pair : Text × Option Text) (source : Option ExecAllowlistSource) (now : Int)
    (entry : ExecAllowlistEntry) : ExecAllowlistEntry :=
  if entry.pattern = pair.1 then
    {entry with argPattern := pair.2, source := source.or entry.source, lastUsedAt := some now}
  else entry

/-- The file after an entry is added, at a time and with a fresh identifier for a new entry. -/
def addAllowlistEntry (approvals : ExecApprovalsFile) (agentId : Option Text) (pattern : Text)
    (argPattern : Option Text) (source : Option ExecAllowlistSource) (id : Text) (now : Int) :
    ExecApprovalsFile :=
  let target := agentId.getD DEFAULT_AGENT_ID
  let allowlist := approvals.allowlist target
  let pair := trimmedPair pattern argPattern
  if pair.1 = [] then approvals
  else
    match findExisting allowlist pair with
    | some existingEntry =>
      if source = none ∨ existingEntry.source = source then approvals
      else approvals.setAllowlist target (allowlist.map (rewriteEntry pair source now))
    | none =>
      approvals.setAllowlist target (allowlist ++
        [{ id := some id, pattern := pair.1, argPattern := pair.2, source := source,
           lastUsedAt := some now }])

/-! ### What the other entries see of it -/

/-- Only the entries known by a pair differ between two files, and of these there are as many
as before, or one where there was none. -/
structure OnlyAffects (target : Text) (pair : Text × Option Text) (before after : ExecApprovalsFile) :
    Prop where
  kept : (after.allowlist target).filter (·.pair ≠ pair) = (before.allowlist target).filter (·.pair ≠ pair)
  settings : (after.agent target).toExecApprovalsDefaults = (before.agent target).toExecApprovalsDefaults
  others : ∀ other ≠ target, (after.agents.getD ∅).get? other = (before.agents.getD ∅).get? other
  count : (after.allowlist target).countP (·.pair = pair) = (before.allowlist target).countP (·.pair = pair) ∨
    (before.allowlist target).countP (·.pair = pair) = 0 ∧ (after.allowlist target).countP (·.pair = pair) = 1
  added : pair.1 ≠ [] → ∃ entry ∈ after.allowlist target, entry.pair = pair

/-- The entry is stored already under another source, and its executable is also stored for
other arguments. -/
def RewritesOthers (allowlist : List ExecAllowlistEntry) (pair : Text × Option Text)
    (source : Option ExecAllowlistSource) : Prop :=
  pair.1 ≠ [] ∧ source ≠ none ∧ (∃ existing, findExisting allowlist pair = some existing ∧ existing.source ≠ source) ∧
    ∃ entry ∈ allowlist, entry.pattern = pair.1 ∧ entry.argPattern ≠ pair.2

section
variable (file : ExecApprovalsFile) (target : Text) (next : List ExecAllowlistEntry)

theorem agent_setAllowlist :
    (file.setAllowlist target next).agent target = {file.agent target with allowlist := some next} := by
  simp [ExecApprovalsFile.agent, ExecApprovalsFile.setAllowlist]

theorem allowlist_setAllowlist : (file.setAllowlist target next).allowlist target = next := by
  rw [ExecApprovalsFile.allowlist, agent_setAllowlist]
  rfl

theorem get?_setAllowlist_ne {other : Text} (h : other ≠ target) :
    ((file.setAllowlist target next).agents.getD ∅).get? other = (file.agents.getD ∅).get? other :=
  InsertionMap.get?_set_ne _ h _

end

section
variable {pair : Text × Option Text} {allowlist : List ExecAllowlistEntry}
  {source : Option ExecAllowlistSource} {now : Int}

theorem findExisting_some {existing : ExecAllowlistEntry} (h : findExisting allowlist pair = some existing) :
    existing ∈ allowlist ∧ existing.pair = pair := by
  refine ⟨mem_of_find?_eq_some h, ?_⟩
  have hfound := find?_some h
  simp only [Bool.and_eq_true, decide_eq_true_eq] at hfound
  exact Prod.ext hfound.1 hfound.2

theorem findExisting_none (h : findExisting allowlist pair = none) : ∀ entry ∈ allowlist, entry.pair ≠ pair := by
  intro entry hmem heq
  refine find?_eq_none.mp h entry hmem ?_
  simp [← heq, ExecAllowlistEntry.pair]

/-- An entry that is known by the pair is rewritten to one that is. -/
theorem rewriteEntry_pair {entry : ExecAllowlistEntry} (h : entry.pattern = pair.1) :
    (rewriteEntry pair source now entry).pair = pair := by
  rw [rewriteEntry, if_pos h]
  exact Prod.ext h rfl

theorem rewriteEntry_other {entry : ExecAllowlistEntry} (h : entry.pattern ≠ pair.1) :
    rewriteEntry pair source now entry = entry :=
  if_neg h

/-- Where no entry has the pattern for other arguments, the others are left as they are. -/
theorem rewriteEntry_of_ne {entry : ExecAllowlistEntry}
    (hargs : entry.pattern = pair.1 → entry.argPattern = pair.2) (h : entry.pair ≠ pair) :
    rewriteEntry pair source now entry = entry :=
  rewriteEntry_other fun hpattern => h (Prod.ext hpattern (hargs hpattern))

theorem rewriteEntry_pair_iff {entry : ExecAllowlistEntry}
    (hargs : entry.pattern = pair.1 → entry.argPattern = pair.2) :
    (rewriteEntry pair source now entry).pair = pair ↔ entry.pair = pair := by
  by_cases hpair : entry.pair = pair
  · simp only [hpair, iff_true]
    exact rewriteEntry_pair (congrArg Prod.fst hpair)
  · rw [rewriteEntry_of_ne hargs hpair]

/-- An entry of the pattern for other arguments does not survive the rewriting. -/
theorem rewritten_lost {entry : ExecAllowlistEntry} (hpattern : entry.pattern = pair.1)
    (hargs : entry.argPattern ≠ pair.2) : entry ∉ allowlist.map (rewriteEntry pair source now) := by
  intro hmem
  obtain ⟨old, -, rfl⟩ := mem_map.mp hmem
  by_cases hold : old.pattern = pair.1
  · exact hargs (congrArg Prod.snd (rewriteEntry_pair hold))
  · rw [rewriteEntry_other hold] at hpattern
    exact hold hpattern

end

/-- Replacing the allowlist of an agent touches nothing but its entries. -/
theorem onlyAffects_setAllowlist {file : ExecApprovalsFile} {target : Text} {pair : Text × Option Text}
    {next : List ExecAllowlistEntry}
    (kept : next.filter (·.pair ≠ pair) = (file.allowlist target).filter (·.pair ≠ pair))
    (count : next.countP (·.pair = pair) = (file.allowlist target).countP (·.pair = pair) ∨
      (file.allowlist target).countP (·.pair = pair) = 0 ∧ next.countP (·.pair = pair) = 1)
    (added : ∃ entry ∈ next, entry.pair = pair) :
    OnlyAffects target pair file (file.setAllowlist target next) := by
  refine ⟨?_, ?_, fun other hother => get?_setAllowlist_ne file target next hother, ?_, fun _ => ?_⟩
  · rw [allowlist_setAllowlist]
    exact kept
  · rw [agent_setAllowlist]
  · rw [allowlist_setAllowlist]
    exact count
  · rw [allowlist_setAllowlist]
    exact added

theorem onlyAffects_append {file : ExecApprovalsFile} {target : Text} {entry : ExecAllowlistEntry}
    (hnew : ∀ old ∈ file.allowlist target, old.pair ≠ entry.pair) :
    OnlyAffects target entry.pair file (file.setAllowlist target (file.allowlist target ++ [entry])) := by
  have hnone : (file.allowlist target).countP (·.pair = entry.pair) = 0 := by
    rw [countP_eq_zero]
    intro old hold
    simpa using hnew old hold
  refine onlyAffects_setAllowlist ?_ (Or.inr ⟨hnone, ?_⟩) ⟨entry, by simp, rfl⟩
  · simp [filter_append]
  · rw [countP_append, hnone]
    simp

theorem onlyAffects_rewrite {file : ExecApprovalsFile} {target : Text} {pair : Text × Option Text}
    {source : Option ExecAllowlistSource} {now : Int} {existing : ExecAllowlistEntry}
    (hexisting : existing ∈ file.allowlist target ∧ existing.pair = pair)
    (hargs : ∀ entry ∈ file.allowlist target, entry.pattern = pair.1 → entry.argPattern = pair.2) :
    OnlyAffects target pair file
      (file.setAllowlist target ((file.allowlist target).map (rewriteEntry pair source now))) := by
  obtain ⟨hmem, hpair⟩ := hexisting
  refine onlyAffects_setAllowlist ?_ (Or.inl ?_)
    ⟨_, mem_map_of_mem hmem, rewriteEntry_pair (congrArg Prod.fst hpair)⟩
  · have hsame : (file.allowlist target).filter ((fun e => decide (e.pair ≠ pair)) ∘ rewriteEntry pair source now) =
        (file.allowlist target).filter (·.pair ≠ pair) := by
      apply filter_congr
      intro entry hentry
      simp [rewriteEntry_pair_iff (hargs entry hentry)]
    rw [filter_map, hsame]
    refine (map_congr_left fun entry hentry => ?_).trans (map_id _)
    obtain ⟨hin, hne⟩ := mem_filter.mp hentry
    exact rewriteEntry_of_ne (hargs entry hin) (by simpa using hne)
  · rw [countP_map]
    apply countP_congr
    intro entry hentry
    simpa using rewriteEntry_pair_iff (hargs entry hentry)

/-- **Adding an entry affects only that entry, unless it rewrites the entries of the same
executable for other arguments.** -/
theorem addAllowlistEntry_onlyAffects (file : ExecApprovalsFile) (agentId : Option Text) (pattern : Text)
    (argPattern : Option Text) (source : Option ExecAllowlistSource) (id : Text) (now : Int) :
    OnlyAffects (agentId.getD DEFAULT_AGENT_ID) (trimmedPair pattern argPattern) file
        (addAllowlistEntry file agentId pattern argPattern source id now) ↔
      ¬RewritesOthers (file.allowlist (agentId.getD DEFAULT_AGENT_ID)) (trimmedPair pattern argPattern) source := by
  unfold addAllowlistEntry
  generalize agentId.getD DEFAULT_AGENT_ID = target
  generalize trimmedPair pattern argPattern = pair
  dsimp only
  by_cases hblank : pair.1 = []
  · rw [if_pos hblank]
    refine iff_of_true ⟨rfl, rfl, fun _ _ => rfl, .inl rfl, fun h => absurd hblank h⟩ ?_
    rintro ⟨hne, -⟩
    exact hne hblank
  rw [if_neg hblank]
  cases hfind : findExisting (file.allowlist target) pair with
  | none =>
    refine iff_of_true ?_ ?_
    · exact @onlyAffects_append file target ⟨some id, pair.1, source, none, pair.2, some now, none, none⟩
        (findExisting_none hfind)
    · rintro ⟨-, -, ⟨existing, hexisting, -⟩, -⟩
      cases hfind.symm.trans hexisting
  | some existing =>
    dsimp only
    have hexisting := findExisting_some hfind
    by_cases hsame : source = none ∨ existing.source = source
    · rw [if_pos hsame]
      refine iff_of_true ⟨rfl, rfl, fun _ _ => rfl, .inl rfl, fun _ => ⟨existing, hexisting⟩⟩ ?_
      rintro ⟨-, hsource, ⟨existing', hexisting', hother⟩, -⟩
      obtain rfl : existing = existing' := Option.some.inj (hfind.symm.trans hexisting')
      exact hsame.elim hsource hother
    rw [if_neg hsame]
    obtain ⟨hsource, hother⟩ := not_or.mp hsame
    constructor
    · rintro ⟨hkept, -⟩ ⟨-, -, -, entry, hmem, hpattern, hargs⟩
      rw [allowlist_setAllowlist] at hkept
      have hentry : entry ∈ (file.allowlist target).filter (·.pair ≠ pair) := by
        refine mem_filter.mpr ⟨hmem, ?_⟩
        simpa using fun h => hargs (congrArg Prod.snd h)
      rw [← hkept] at hentry
      exact rewritten_lost hpattern hargs (mem_filter.mp hentry).1
    · intro hnot
      refine onlyAffects_rewrite hexisting fun entry hmem hpattern => ?_
      by_contra hargs
      exact hnot ⟨hblank, hsource, ⟨existing, hfind, hother⟩, entry, hmem, hpattern, hargs⟩

/-- Two approvals of one executable, each for a script of its own. -/
def twoScripts : List ExecAllowlistEntry :=
  [{pattern := "C:\\python.exe".toList, argPattern := some "^a\\.py\x00$".toList},
   {pattern := "C:\\python.exe".toList, argPattern := some "^b\\.py\x00$".toList}]

/-- Approving the first script for good makes the second entry one for the first script too. -/
theorem adding_rewrites_another_script :
    ¬∀ (file : ExecApprovalsFile) (agentId : Option Text) (pattern : Text) (argPattern : Option Text)
      (source : Option ExecAllowlistSource) (id : Text) (now : Int),
      OnlyAffects (agentId.getD DEFAULT_AGENT_ID) (trimmedPair pattern argPattern) file
        (addAllowlistEntry file agentId pattern argPattern source id now) := by
  intro h
  have hkept := (h ⟨some (InsertionMap.empty.set DEFAULT_AGENT_ID {allowlist := some twoScripts})⟩ none "C:\\python.exe".toList (some "^a\\.py\x00$".toList)
    (some .allowAlways) "1".toList 0).kept
  exact absurd hkept (by decide)

end OpenClaw.Exec
