import OpenClaw.Gateway.ExecApprovalManager

/-! Approvals are decided once, and one-time grants spent once.

`Sound` is what holds of the entries at any time: an undecided entry is the one its
id stands for, with its timer armed and its promise open; a decided one has a
promise settled with one decision, and its record still shows it unless it was a
one-time grant that was spent. Each operation leaves all entries alone, or adds
one, decides an undecided one, spends a grant, or deletes a decided one
(`ApprovalChange`). -/
namespace OpenClaw.Gateway
open Foundation List InsertionMap

variable {ρ : Type*}

structure Sound (s : ExecApprovals ρ) : Prop where
  mapped : ∀ id k, s.pending.get? id = some k → ∃ entry, s.entries[k]? = some entry ∧ entry.record.id = id
  waiting : ∀ k entry, s.entries[k]? = some entry → entry.record.resolvedAtMs = none →
    entry.timer = true ∧ entry.settled = [] ∧ entry.record.decision = none ∧
      s.pending.get? entry.record.id = some k
  decided : ∀ k entry, s.entries[k]? = some entry → entry.record.resolvedAtMs.isSome →
    entry.timer = false ∧ ∃ decision, entry.settled = [decision] ∧
      (k ∉ s.consumed → entry.record.decision = decision) ∧
      (k ∈ s.consumed → decision = some .allowOnce ∧ entry.record.decision = none)
  graces : ∀ k ∈ s.graces, ∃ entry, s.entries[k]? = some entry ∧ entry.record.resolvedAtMs.isSome
  spent : ∀ k ∈ s.consumed, ∃ entry, s.entries[k]? = some entry ∧ entry.record.resolvedAtMs.isSome
  spentOnce : s.consumed.Nodup

/-! ### What an operation does -/

/-- The one-time grant of an entry is spent. -/
def ExecApprovals.spend (k : Nat) (entry : PendingEntry ρ) (s : ExecApprovals ρ) : ExecApprovals ρ :=
  {s with
    entries := s.entries.set k {entry with record := {entry.record with decision := none}}
    consumed := k :: s.consumed}

inductive ApprovalChange (s : ExecApprovals ρ) : ExecApprovals ρ → Prop
  | same : ApprovalChange s s
  | added {record} : s.pending.get? record.id = none → record.resolvedAtMs = none → record.decision = none →
      ApprovalChange s {s with
        entries := s.entries ++ [{record := record}]
        pending := s.pending.set record.id s.entries.length}
  | decided {k entry decision resolvedBy now} : s.entries[k]? = some entry → entry.record.resolvedAtMs = none →
      ApprovalChange s (s.settle k entry decision resolvedBy now)
  | spent {k entry} : s.entries[k]? = some entry → entry.record.decision = some .allowOnce →
      ApprovalChange s (s.spend k entry)
  | deleted {k entry} : k ∈ s.graces → s.entries[k]? = some entry → ApprovalChange s (s.fireGrace k entry)

section Operations
variable {s : ExecApprovals ρ} {id : String}

theorem find_eq_some {k : Nat} {entry : PendingEntry ρ} :
    s.find id = some (k, entry) ↔ s.pending.get? id = some k ∧ s.entries[k]? = some entry := by
  simp only [ExecApprovals.find, Option.bind_eq_some_iff, Option.map_eq_some_iff, Prod.mk.injEq]
  constructor
  · rintro ⟨k', hk, e, he, rfl, rfl⟩
    exact ⟨hk, he⟩
  · rintro ⟨hk, he⟩
    exact ⟨k, hk, entry, he, rfl, rfl⟩

/-- An id stands for an entry or for nothing. -/
theorem Sound.find_eq_none (hs : Sound s) : s.find id = none ↔ s.pending.get? id = none := by
  constructor
  · intro h
    cases hk : s.pending.get? id with
    | none => rfl
    | some k =>
      obtain ⟨entry, hentry, -⟩ := hs.mapped id k hk
      rw [find_eq_some.mpr ⟨hk, hentry⟩] at h
      cases h
  · intro h
    simp [ExecApprovals.find, h]

/-- A decision is made for the undecided entry an id stands for, and for no other. -/
theorem resolve_cases (s : ExecApprovals ρ) (id : String) (decision : ExecApprovalDecision) (resolvedBy : Option String)
    (now : Nat) :
    s.resolve id decision resolvedBy now = (false, s) ∧
      (∀ k entry, s.find id = some (k, entry) → entry.record.resolvedAtMs.isSome) ∨
    ∃ k entry, s.find id = some (k, entry) ∧ entry.record.resolvedAtMs = none ∧
      s.resolve id decision resolvedBy now = (true, s.settle k entry (some decision) resolvedBy now) := by
  unfold ExecApprovals.resolve
  cases hfind : s.find id with
  | none => exact .inl ⟨rfl, nofun⟩
  | some p =>
    obtain ⟨k, entry⟩ := p
    cases hat : entry.record.resolvedAtMs with
    | none => exact .inr ⟨k, entry, rfl, hat, by simp [hat]⟩
    | some at' =>
      refine .inl ⟨by simp [hat], fun k' entry' h => ?_⟩
      cases h
      simp [hat]

theorem expire_cases (s : ExecApprovals ρ) (id : String) (resolvedBy : Option String) (now : Nat) :
    s.expire id resolvedBy now = (false, s) ∧
      (∀ k entry, s.find id = some (k, entry) → entry.record.resolvedAtMs.isSome) ∨
    ∃ k entry, s.find id = some (k, entry) ∧ entry.record.resolvedAtMs = none ∧
      s.expire id resolvedBy now = (true, s.settle k entry none resolvedBy now) := by
  unfold ExecApprovals.expire
  cases hfind : s.find id with
  | none => exact .inl ⟨rfl, nofun⟩
  | some p =>
    obtain ⟨k, entry⟩ := p
    cases hat : entry.record.resolvedAtMs with
    | none => exact .inr ⟨k, entry, rfl, hat, by simp [hat]⟩
    | some at' =>
      refine .inl ⟨by simp [hat], fun k' entry' h => ?_⟩
      cases h
      simp [hat]

theorem consume_cases (s : ExecApprovals ρ) (id : String) : s.consumeAllowOnce id = (false, s) ∨
    ∃ k entry, s.find id = some (k, entry) ∧ entry.record.decision = some .allowOnce ∧
      s.consumeAllowOnce id = (true, s.spend k entry) := by
  unfold ExecApprovals.consumeAllowOnce
  cases hfind : s.find id with
  | none => exact .inl rfl
  | some p =>
    obtain ⟨k, entry⟩ := p
    by_cases hgrant : entry.record.decision = some .allowOnce
    · exact .inr ⟨k, entry, rfl, hgrant, by simp [hgrant, ExecApprovals.spend]⟩
    · exact .inl (by simp [hgrant])

/-- The timer of an entry expires that entry. -/
theorem Sound.fireTimer_eq (hs : Sound s) {k : Nat} {entry : PendingEntry ρ} (hk : s.entries[k]? = some entry)
    (htimer : entry.timer = true) (now : Nat) :
    entry.record.resolvedAtMs = none ∧ s.fireTimer k entry now = s.settle k entry none none now := by
  have hopen : entry.record.resolvedAtMs = none := by
    by_contra h
    have := (hs.decided k entry hk (Option.isSome_iff_ne_none.mpr h)).1
    rw [htimer] at this
    cases this
  refine ⟨hopen, ?_⟩
  have hlt : k < s.entries.length := (List.getElem?_eq_some_iff.mp hk).1
  have hfind : ({s with entries := s.entries.set k {entry with timer := false}} : ExecApprovals ρ).find
      entry.record.id = some (k, {entry with timer := false}) := by
    refine find_eq_some.mpr ⟨(hs.waiting k entry hk hopen).2.2.2, ?_⟩
    simp [hlt]
  unfold ExecApprovals.fireTimer ExecApprovals.expire
  rw [hfind]
  simp [hopen, ExecApprovals.settle]

theorem Sound.step_change (hs : Sound s) {e : ApprovalEvent ρ} {t : ExecApprovals ρ} (h : approvalStep e s = some t) :
    ApprovalChange s t := by
  cases e with
  | register request timeoutMs id drawn now =>
    cases h
    simp only [ExecApprovals.register]
    cases hfind : s.find (create request timeoutMs id drawn now).id with
    | some p =>
      obtain ⟨k, existing⟩ := p
      cases hat : existing.record.resolvedAtMs <;> simp only [hat] <;> exact .same
    | none => exact .added (hs.find_eq_none.mp hfind) rfl rfl
  | resolve recordId decision resolvedBy now =>
    cases h
    rcases resolve_cases s recordId decision resolvedBy now with ⟨h, -⟩ | ⟨k, entry, hfind, hopen, h⟩
    · rw [h]
      exact .same
    · rw [h]
      exact .decided (find_eq_some.mp hfind).2 hopen
  | expire recordId resolvedBy now =>
    cases h
    rcases expire_cases s recordId resolvedBy now with ⟨h, -⟩ | ⟨k, entry, hfind, hopen, h⟩
    · rw [h]
      exact .same
    · rw [h]
      exact .decided (find_eq_some.mp hfind).2 hopen
  | consume recordId =>
    cases h
    rcases consume_cases s recordId with h | ⟨k, entry, hfind, hgrant, h⟩
    · rw [h]
      exact .same
    · rw [h]
      exact .spent (find_eq_some.mp hfind).2 hgrant
  | timer k now =>
    obtain ⟨entry, hk, h⟩ := Option.bind_eq_some_iff.mp h
    split_ifs at h with htimer
    cases h
    obtain ⟨hopen, heq⟩ := hs.fireTimer_eq hk htimer now
    rw [heq]
    exact .decided hk hopen
  | grace k =>
    simp only [approvalStep] at h
    split_ifs at h with hgrace
    obtain ⟨entry, hk, rfl⟩ := Option.map_eq_some_iff.mp h
    exact .deleted hgrace hk

end Operations

/-! ### The invariant -/

section Changes
variable {s t : ExecApprovals ρ}

/-- A grace timer deletes its own entry only. -/
theorem fireGrace_pending {k j : Nat} {entry : PendingEntry ρ} {id : String} (hne : j ≠ k)
    (hj : s.pending.get? id = some j) : (s.fireGrace k entry).pending.get? id = some j := by
  simp only [ExecApprovals.fireGrace]
  split_ifs with hstands
  · rw [get?_erase, if_neg]
    · exact hj
    · rintro rfl
      rw [hj] at hstands
      exact hne (Option.some.inj hstands)
  · exact hj

theorem set_cases {α : Type*} {l : List α} {k j : Nat} {new e : α} (hj : (l.set k new)[j]? = some e) :
    j = k ∧ e = new ∨ j ≠ k ∧ l[j]? = some e := by
  rw [getElem?_set] at hj
  grind

theorem snoc_cases {α : Type*} {l : List α} {k : Nat} {new e : α} (hk : (l ++ [new])[k]? = some e) :
    l[k]? = some e ∨ k = l.length ∧ e = new := by
  rw [getElem?_append] at hk
  grind

/-- What is said of an entry that is replaced is said of its replacement. -/
theorem exists_set {α : Type*} {P : α → Prop} {l : List α} {k j : Nat} {old new : α} (hk : l[k]? = some old)
    (hnew : P old → P new) (h : ∃ e, l[j]? = some e ∧ P e) : ∃ e, (l.set k new)[j]? = some e ∧ P e := by
  obtain ⟨e, he, hP⟩ := h
  grind

theorem exists_snoc {α : Type*} {P : α → Prop} {l : List α} {k : Nat} (new : α) (h : ∃ e, l[k]? = some e ∧ P e) :
    ∃ e, (l ++ [new])[k]? = some e ∧ P e := by
  obtain ⟨e, he, hP⟩ := h
  exact ⟨e, by rwa [getElem?_append_left (List.getElem?_eq_some_iff.mp he).1], hP⟩

/-- A grant on a record is a decision its promise was settled with, and was not spent. -/
theorem Sound.granted (hs : Sound s) {k : Nat} {entry : PendingEntry ρ} (hk : s.entries[k]? = some entry)
    (hgrant : entry.record.decision = some .allowOnce) : entry.record.resolvedAtMs.isSome ∧ k ∉ s.consumed ∧
      entry.timer = false ∧ entry.settled = [some .allowOnce] := by
  have hresolved : entry.record.resolvedAtMs.isSome := by
    by_contra hopen
    have := (hs.waiting k entry hk (by simpa using hopen)).2.2.1
    rw [hgrant] at this
    cases this
  obtain ⟨htimer, decision, hsettled, hshown, hgone⟩ := hs.decided k entry hk hresolved
  have hnot : k ∉ s.consumed := by
    intro hmem
    have := (hgone hmem).2
    rw [hgrant] at this
    cases this
  exact ⟨hresolved, hnot, htimer, by rw [hsettled, ← hshown hnot, hgrant]⟩

theorem Sound.next (hs : Sound s) (h : ApprovalChange s t) : Sound t := by
  cases h with
  | same => exact hs
  | @added record hnone hat hdecision =>
    refine ⟨?_, ?_, ?_, fun k hk => exists_snoc _ (hs.graces k hk), fun k hk => exists_snoc _ (hs.spent k hk),
      hs.spentOnce⟩
    · intro id k hk
      rcases eq_or_ne id record.id with rfl | hne
      · rw [get?_set_self] at hk
        cases hk
        exact ⟨{record := record}, by simp, rfl⟩
      · rw [get?_set_ne _ hne] at hk
        exact exists_snoc _ (hs.mapped id k hk)
    · intro k entry hk hopen
      rcases snoc_cases hk with hk | ⟨rfl, rfl⟩
      · obtain ⟨htimer, hsettled, hd, hpending⟩ := hs.waiting k entry hk hopen
        have hne : entry.record.id ≠ record.id := by
          intro heq
          rw [heq, hnone] at hpending
          cases hpending
        exact ⟨htimer, hsettled, hd, (get?_set_ne _ hne _).trans hpending⟩
      · exact ⟨rfl, rfl, hdecision, get?_set_self _ _ _⟩
    · intro k entry hk hresolved
      rcases snoc_cases hk with hk | ⟨rfl, rfl⟩
      · exact hs.decided k entry hk hresolved
      · simp [hat] at hresolved
  | @decided k entry decision resolvedBy now hk hopen =>
    obtain ⟨-, hsettled, -, -⟩ := hs.waiting k entry hk hopen
    -- The entry was not decided, so not spent either.
    have hnot : k ∉ s.consumed := by
      intro hmem
      obtain ⟨e, he, hresolved⟩ := hs.spent k hmem
      rw [hk] at he
      cases he
      simp [hopen] at hresolved
    refine ⟨fun id j hj => exists_set hk (fun h => h) (hs.mapped id j hj), ?_, ?_, ?_,
      fun j hj => exists_set hk (fun _ => rfl) (hs.spent j hj), hs.spentOnce⟩
    · intro j e hj hopen'
      rcases set_cases hj with ⟨rfl, rfl⟩ | ⟨-, hj⟩
      · cases hopen'
      · exact hs.waiting j e hj hopen'
    · intro j e hj hresolved
      rcases set_cases hj with ⟨rfl, rfl⟩ | ⟨-, hj⟩
      · exact ⟨rfl, decision, by simp [hsettled], fun _ => rfl, fun hspent => absurd hspent hnot⟩
      · exact hs.decided j e hj hresolved
    · intro j hj
      rcases mem_cons.mp hj with rfl | hj
      · exact ⟨_, getElem?_set_self (List.getElem?_eq_some_iff.mp hk).1, rfl⟩
      · exact exists_set hk (fun _ => rfl) (hs.graces j hj)
  | @spent k entry hk hgrant =>
    obtain ⟨hresolved, hnot, htimer, hsettled⟩ := hs.granted hk hgrant
    refine ⟨fun id j hj => exists_set hk (fun h => h) (hs.mapped id j hj), ?_, ?_,
      fun j hj => exists_set hk (fun h => h) (hs.graces j hj), ?_, nodup_cons.mpr ⟨hnot, hs.spentOnce⟩⟩
    · intro j e hj hopen
      rcases set_cases hj with ⟨rfl, rfl⟩ | ⟨-, hj⟩
      · simp only at hopen
        simp [hopen] at hresolved
      · exact hs.waiting j e hj hopen
    · intro j e hj hres
      rcases set_cases hj with ⟨rfl, rfl⟩ | ⟨hjk, hj⟩
      · exact ⟨htimer, _, hsettled, fun h => absurd mem_cons_self h, fun _ => ⟨rfl, rfl⟩⟩
      · obtain ⟨ht, d, hd, hshown, hgone⟩ := hs.decided j e hj hres
        exact ⟨ht, d, hd, fun h => hshown fun hm => h (mem_cons_of_mem _ hm),
          fun h => hgone ((mem_cons.mp h).resolve_left hjk)⟩
    · intro j hj
      refine exists_set hk (fun h => h) ?_
      rcases mem_cons.mp hj with rfl | hj
      · exact ⟨entry, hk, hresolved⟩
      · exact hs.spent j hj
  | @deleted k entry hgrace hk =>
    obtain ⟨e, he, hresolved⟩ := hs.graces k hgrace
    rw [hk] at he
    cases he
    refine ⟨fun id j hj => hs.mapped id j ?_, ?_, hs.decided, fun j hj => hs.graces j (mem_of_mem_erase hj),
      hs.spent, hs.spentOnce⟩
    · simp only [ExecApprovals.fireGrace] at hj
      split_ifs at hj
      · rw [get?_erase] at hj
        split_ifs at hj
        exact hj
      · exact hj
    · intro j e hj hopen
      obtain ⟨htimer, hsettled, hd, hpending⟩ := hs.waiting j e hj hopen
      refine ⟨htimer, hsettled, hd, fireGrace_pending ?_ hpending⟩
      -- Else the entry that is deleted would be undecided.
      rintro rfl
      have hj' : s.entries[j]? = some e := hj
      rw [hk] at hj'
      cases hj'
      simp [hopen] at hresolved

end Changes

/-! ### Runs -/

/-- An entry stays, with its outcome once it has one; its decision stays on the
record unless it was a grant that was spent. -/
structure KeepsEntry (k : Nat) (entry entry' : PendingEntry ρ) (t : ExecApprovals ρ) : Prop where
  id : entry'.record.id = entry.record.id
  outcome : entry.record.resolvedAtMs.isSome → entry'.record.resolvedAtMs = entry.record.resolvedAtMs ∧
    entry'.record.resolvedBy = entry.record.resolvedBy ∧ entry'.settled = entry.settled ∧
    (entry'.record.decision = entry.record.decision ∨ k ∈ t.consumed ∧ entry'.record.decision = none)

section Runs
variable {s t : ExecApprovals ρ}

theorem KeepsEntry.refl {k : Nat} {entry : PendingEntry ρ} : KeepsEntry k entry entry t :=
  ⟨rfl, fun _ => ⟨rfl, rfl, rfl, .inl rfl⟩⟩

theorem KeepsEntry.trans {k : Nat} {a b c : PendingEntry ρ} {u : ExecApprovals ρ} (hab : KeepsEntry k a b t)
    (hbc : KeepsEntry k b c u) (hspent : ∀ j ∈ t.consumed, j ∈ u.consumed) : KeepsEntry k a c u := by
  refine ⟨hbc.id.trans hab.id, fun hresolved => ?_⟩
  obtain ⟨hat, hby, hsettled, hdecision⟩ := hab.outcome hresolved
  obtain ⟨hat', hby', hsettled', hdecision'⟩ := hbc.outcome (by rwa [hat])
  refine ⟨hat'.trans hat, hby'.trans hby, hsettled'.trans hsettled, ?_⟩
  rcases hdecision' with hsame | hnone
  · rcases hdecision with hsame' | ⟨hk, hnone'⟩
    · exact .inl (hsame.trans hsame')
    · exact .inr ⟨hspent k hk, hsame.trans hnone'⟩
  · exact .inr hnone

theorem ApprovalChange.consumed_mono (h : ApprovalChange s t) : ∀ k ∈ s.consumed, k ∈ t.consumed := by
  intro k hk
  cases h with
  | spent _ _ => exact mem_cons_of_mem _ hk
  | same | added _ _ _ | decided _ _ | deleted _ _ => exact hk

theorem ApprovalChange.keeps (h : ApprovalChange s t) {k : Nat} {entry : PendingEntry ρ}
    (hk : s.entries[k]? = some entry) : ∃ entry', t.entries[k]? = some entry' ∧ KeepsEntry k entry entry' t := by
  cases h with
  | added _ _ _ => exact exists_snoc _ ⟨entry, hk, .refl⟩
  | @decided j other decision resolvedBy now hj hopen =>
    refine exists_set hj ?_ ⟨entry, hk, .refl⟩
    refine fun hkept => ⟨hkept.id, fun h => ?_⟩
    -- An entry that had its outcome is not decided again.
    have := (hkept.outcome h).1
    rw [hopen] at this
    rw [← this] at h
    cases h
  | @spent j other hj hgrant =>
    rcases eq_or_ne k j with rfl | hne
    · rw [hj] at hk
      cases hk
      exact ⟨_, getElem?_set_self (List.getElem?_eq_some_iff.mp hj).1, rfl,
        fun _ => ⟨rfl, rfl, rfl, .inr ⟨mem_cons_self, rfl⟩⟩⟩
    · refine ⟨entry, ?_, .refl⟩
      simpa [ExecApprovals.spend, getElem?_set_ne hne.symm] using hk
  | _ => exact ⟨entry, hk, .refl⟩

theorem empty_sound : Sound ({} : ExecApprovals ρ) := by constructor <;> simp

theorem run_sound {events : List (ApprovalEvent ρ)} (hs : Sound s) (hr : approvalStep.run events s = some t) :
    Sound t :=
  Machine.run_invariant approvalStep (fun _ _ _ hs h => hs.next (hs.step_change h)) events hs hr

/-- What a decided entry shows stays so through every later run. -/
theorem run_keeps {later : List (ApprovalEvent ρ)} (hs : Sound s) (hr : approvalStep.run later s = some t) {k : Nat}
    {entry : PendingEntry ρ} (hk : s.entries[k]? = some entry) :
    ∃ entry', t.entries[k]? = some entry' ∧ KeepsEntry k entry entry' t := by
  let Kept (u : ExecApprovals ρ) : Prop :=
    Sound u ∧ ∃ entry', u.entries[k]? = some entry' ∧ KeepsEntry k entry entry' u
  have hstep : ∀ (e : ApprovalEvent ρ) u v, Kept u → approvalStep e u = some v → Kept v := by
    rintro e u v ⟨hu, b, hb, hab⟩ h
    have hchange := hu.step_change h
    obtain ⟨c, hc, hbc⟩ := hchange.keeps hb
    exact ⟨hu.next hchange, c, hc, hab.trans hbc hchange.consumed_mono⟩
  exact (Machine.run_invariant approvalStep hstep later ⟨hs, entry, hk, .refl⟩ hr).2

end Runs

/-- In every state a run reaches: an entry is undecided, with its promise open, its
timer armed and its id standing for it, or decided, with its promise settled once;
`resolve` and `expire` decide an undecided entry or return false and change nothing;
what a decided entry shows stays, but for the decision of a grant that is spent; a
grant is spent once, and only where the promise was settled with it; an id that
stands for an entry is not registered again; and a grace timer deletes its own entry
only. -/
theorem approvals_decided_once {events : List (ApprovalEvent ρ)} {s : ExecApprovals ρ}
    (hr : approvalStep.run events {} = some s) :
    (∀ k entry, s.entries[k]? = some entry →
      (entry.record.resolvedAtMs = none ∧ entry.settled = [] ∧ entry.timer = true ∧
        s.pending.get? entry.record.id = some k) ∨
      (entry.record.resolvedAtMs.isSome ∧ ∃ decision, entry.settled = [decision])) ∧
    (∀ id decision resolvedBy now,
      s.resolve id decision resolvedBy now = (false, s) ∧
        (∀ k entry, s.find id = some (k, entry) → entry.record.resolvedAtMs.isSome) ∨
      ∃ k entry, s.find id = some (k, entry) ∧ entry.record.resolvedAtMs = none ∧
        s.resolve id decision resolvedBy now = (true, s.settle k entry (some decision) resolvedBy now)) ∧
    (∀ id resolvedBy now,
      s.expire id resolvedBy now = (false, s) ∧
        (∀ k entry, s.find id = some (k, entry) → entry.record.resolvedAtMs.isSome) ∨
      ∃ k entry, s.find id = some (k, entry) ∧ entry.record.resolvedAtMs = none ∧
        s.expire id resolvedBy now = (true, s.settle k entry none resolvedBy now)) ∧
    (∀ k now t, approvalStep (.timer k now) s = some t → ∃ entry, s.entries[k]? = some entry ∧
      entry.record.resolvedAtMs = none ∧ t = s.settle k entry none none now) ∧
    (∀ later t, approvalStep.run later s = some t → ∀ k entry, s.entries[k]? = some entry →
      ∃ entry', t.entries[k]? = some entry' ∧ KeepsEntry k entry entry' t) ∧
    (s.consumed.Nodup ∧ ∀ id, (s.consumeAllowOnce id).1 = true → ∃ k entry, s.find id = some (k, entry) ∧
      entry.settled = [some .allowOnce] ∧ k ∉ s.consumed ∧ (s.consumeAllowOnce id).2.consumed = k :: s.consumed) ∧
    (∀ record k entry, s.find record.id = some (k, entry) → (s.register record).2 = s ∧
      (s.register record).1 = if entry.record.resolvedAtMs.isNone then .ok k
        else .error s!"approval id '{record.id}' already resolved") ∧
    ∀ k t, approvalStep (.grace k) s = some t → t.entries = s.entries ∧
      ∀ id j, j ≠ k → s.pending.get? id = some j → t.pending.get? id = some j := by
  have hs : Sound s := run_sound empty_sound hr
  refine ⟨?_, fun id d by' now => resolve_cases s id d by' now, fun id by' now => expire_cases s id by' now, ?_,
    fun later t hr' k entry hk => run_keeps hs hr' hk, ⟨hs.spentOnce, ?_⟩, ?_, ?_⟩
  · intro k entry hk
    cases hat : entry.record.resolvedAtMs with
    | none =>
      obtain ⟨htimer, hsettled, -, hpending⟩ := hs.waiting k entry hk hat
      exact .inl ⟨rfl, hsettled, htimer, hpending⟩
    | some at' =>
      obtain ⟨-, decision, hsettled, -⟩ := hs.decided k entry hk (by simp [hat])
      exact .inr ⟨rfl, decision, hsettled⟩
  · intro k now t h
    obtain ⟨entry, hk, h⟩ := Option.bind_eq_some_iff.mp h
    split_ifs at h with htimer
    cases h
    obtain ⟨hopen, heq⟩ := hs.fireTimer_eq hk htimer now
    exact ⟨entry, hk, hopen, heq⟩
  · intro id hspent
    rcases consume_cases s id with h | ⟨k, entry, hfind, hgrant, h⟩
    · rw [h] at hspent
      cases hspent
    obtain ⟨-, hnot, -, hsettled⟩ := hs.granted (find_eq_some.mp hfind).2 hgrant
    exact ⟨k, entry, hfind, hsettled, hnot, by rw [h]; rfl⟩
  · intro record k entry hfind
    simp only [ExecApprovals.register, hfind]
    split_ifs <;> exact ⟨rfl, rfl⟩
  · intro k t h
    simp only [approvalStep] at h
    split_ifs at h
    obtain ⟨entry, hk, rfl⟩ := Option.map_eq_some_iff.mp h
    exact ⟨rfl, fun id j hne hj => fireGrace_pending hne hj⟩

/-- An approval is granted once and spent; after its grace time its id is registered
again, and the second registration expires. -/
def grantedRun : List (ApprovalEvent Unit) :=
  [.register () 60000 (some "a") "x" 0, .register () 60000 (some "a") "y" 1, .resolve "a" .allowOnce (some "op") 5,
    .expire "a" none 6, .consume "a", .consume "a", .grace 0, .register () 60000 (some "a") "z" 20000, .timer 1 80000]

theorem granted_decided_once : ∃ s, approvalStep.run grantedRun {} = some s ∧
    s.entries.map PendingEntry.settled = [[some .allowOnce], [none]] ∧ s.consumed = [0] ∧
    ∀ k entry, s.entries[k]? = some entry →
      (entry.record.resolvedAtMs = none ∧ entry.settled = [] ∧ entry.timer = true ∧
        s.pending.get? entry.record.id = some k) ∨
      (entry.record.resolvedAtMs.isSome ∧ ∃ decision, entry.settled = [decision]) := by
  have hrun : (approvalStep.run grantedRun {}).any (fun s =>
      s.entries.map PendingEntry.settled = [[some .allowOnce], [none]] ∧ s.consumed = [0]) = true := by
    decide
  obtain ⟨s, hs, hv⟩ := (Option.any_eq_true _ _).mp hrun
  obtain ⟨hsettled, hconsumed⟩ := of_decide_eq_true hv
  exact ⟨s, hs, hsettled, hconsumed, (approvals_decided_once hs).1⟩

end OpenClaw.Gateway
