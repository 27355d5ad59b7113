import OpenClaw.Sessions.DurableSave

/-! The spellings of a session key.

A session is looked up under any spelling of its key, letter case apart. The lookup
takes the entry updated last among all spellings, the normal one first among equals,
and a save leaves the normal spelling alone: no other is there to be found again. -/
namespace OpenClaw.Sessions
open Foundation List InsertionMap

variable {ρ τ : Type*} {cases : CaseTables}

theorem toLowerCase_toLowerCase (s : String) : cases.toLowerCase (cases.toLowerCase s) = cases.toLowerCase s := by
  simp only [CaseTables.toLowerCase, String.toList_ofList, CaseTables.toLowerChars_toLowerChars]

/-! ### The freshest of a list -/

section Freshest
variable {α : Type*} (stamp : α → Int)

/-- The choice between the entry at hand and the next candidate. -/
def newer (existing : Option α) (candidate : α) : Option α :=
  match existing with
  | none => some candidate
  | some entry => if stamp entry < stamp candidate then some candidate else existing

/-- The entry is the freshest of the one at hand and those listed, the one at hand
among equals. -/
structure Freshest (first : Option α) (l : List α) (e : α) : Prop where
  mem : first = some e ∨ e ∈ l
  le_first : ∀ b, first = some b → stamp b ≤ stamp e
  le : ∀ b ∈ l, stamp b ≤ stamp e
  ties : ∀ a, first = some a → (∀ b ∈ l, stamp b ≤ stamp a) → e = a

theorem newer_freshest (first : Option α) (c : α) : ∃ d, newer stamp first c = some d ∧ Freshest stamp first [c] d := by
  cases first with
  | none => exact ⟨c, rfl, .inr mem_cons_self, by simp, by simp, by simp⟩
  | some a =>
    by_cases hlt : stamp a < stamp c
    · exact ⟨c, if_pos hlt, .inr mem_cons_self, by simp [Int.le_of_lt hlt], by simp, by simp [hlt]⟩
    · exact ⟨a, if_neg hlt, .inl rfl, by simp, by simp [Int.not_lt.mp hlt], by simp⟩

theorem foldl_newer (l : List α) (first : Option α) :
    (l.foldl (newer stamp) first = none → first = none ∧ l = []) ∧
      ∀ e, l.foldl (newer stamp) first = some e → Freshest stamp first l e := by
  induction l generalizing first with
  | nil =>
    refine ⟨fun h => ⟨h, rfl⟩, fun e h => ⟨.inl h, fun b hb => ?_, by simp, fun a ha _ => ?_⟩⟩
    · rw [Option.some.inj (h.symm.trans hb)]
    · exact Option.some.inj (h.symm.trans ha)
  | cons c rest ih =>
    obtain ⟨hnone, hsome⟩ := ih (newer stamp first c)
    obtain ⟨d, hd, hmem, hfirst, hc, hties⟩ := newer_freshest stamp first c
    refine ⟨fun h => ?_, fun e he => ?_⟩
    · exact absurd (hd.symm.trans (hnone h).1) (Option.some_ne_none d)
    · obtain ⟨mem, le_first, le, ties⟩ := hsome e he
      have hde := le_first d hd
      refine ⟨?_, fun b hb => (hfirst b hb).trans hde, fun b hb => ?_, fun a ha hall => ?_⟩
      · rcases mem with hm | hm
        · obtain rfl := Option.some.inj (hd.symm.trans hm)
          exact hmem.imp_right fun h => by simp [mem_singleton.mp h]
        · exact .inr (mem_cons_of_mem _ hm)
      · rcases mem_cons.mp hb with rfl | hb
        · exact (hc b mem_cons_self).trans hde
        · exact le b hb
      · obtain rfl := hties a ha (by simpa using hall c mem_cons_self)
        exact ties d hd fun b hb => hall b (mem_cons_of_mem _ hb)

end Freshest

/-! ### Looking up -/

variable (cases) (store : Store ρ) (sessionKey : String)

theorem resolve_normalizedKey :
    (resolveSessionStoreEntry cases store sessionKey).normalizedKey = normalizeStoreSessionKey cases sessionKey := by
  show normalizeStoreSessionKey cases (EcmaString.trim sessionKey) = _
  rw [normalizeStoreSessionKey, normalizeStoreSessionKey, EcmaString.trim_trim]

theorem toLowerCase_trim :
    cases.toLowerCase (EcmaString.trim sessionKey) = (resolveSessionStoreEntry cases store sessionKey).normalizedKey :=
  (resolve_normalizedKey cases store sessionKey).symm

theorem toLowerCase_normalizedKey :
    cases.toLowerCase (resolveSessionStoreEntry cases store sessionKey).normalizedKey =
      (resolveSessionStoreEntry cases store sessionKey).normalizedKey := by
  rw [← toLowerCase_trim, toLowerCase_toLowerCase]

theorem mem_legacyKeys (key : String) :
    key ∈ (resolveSessionStoreEntry cases store sessionKey).legacyKeys ↔
      key ≠ (resolveSessionStoreEntry cases store sessionKey).normalizedKey ∧
        cases.toLowerCase key = (resolveSessionStoreEntry cases store sessionKey).normalizedKey ∧
        (store.get? key).isSome := by
  have htrim := toLowerCase_trim cases store sessionKey
  simp only [resolveSessionStoreEntry, mem_eraseDups, mem_append] at htrim ⊢
  constructor
  · rintro (h | h)
    · split_ifs at h with hhas
      · rw [mem_singleton.mp h]
        exact ⟨hhas.1, htrim, hhas.2⟩
      · cases h
    · obtain ⟨⟨k, e⟩, hmem, rfl⟩ := mem_map.mp h
      obtain ⟨hmem, hp⟩ := mem_filter.mp hmem
      obtain ⟨hne, hlow⟩ := of_decide_eq_true hp
      exact ⟨hne, hlow, by rw [(store.get?_eq_some k e).mpr hmem]; rfl⟩
  · rintro ⟨hne, hlow, hsome⟩
    obtain ⟨e, he⟩ := Option.isSome_iff_exists.mp hsome
    exact .inr (mem_map.mpr ⟨(key, e), mem_filter.mpr ⟨(store.get?_eq_some key e).mp he,
      decide_eq_true ⟨hne, hlow⟩⟩, rfl⟩)

def stamp (entry : SessionEntry ρ) : Int := entry.updatedAt.getD 0

theorem newer_stamp : newer (@stamp ρ) = fun existing candidate =>
    match existing with
    | none => some candidate
    | some entry => if entry.updatedAt.getD 0 < candidate.updatedAt.getD 0 then some candidate else existing := by
  funext existing candidate
  cases existing with
  | _ => rfl

/-- The entries under other spellings than the normal one. -/
def legacyEntries (normalizedKey : String) : List (SessionEntry ρ) :=
  (store.entries.filter fun p => p.1 ≠ normalizedKey ∧ cases.toLowerCase p.1 = normalizedKey).map Prod.snd

/-- The entry the lookup starts from. -/
def firstEntry (normalizedKey trimmedKey : String) : Option (SessionEntry ρ) :=
  store.get? normalizedKey <|>
    if trimmedKey ≠ normalizedKey ∧ (store.get? trimmedKey).isSome then store.get? trimmedKey else none

theorem resolve_existing :
    let resolved := resolveSessionStoreEntry cases store sessionKey
    resolved.existing = (legacyEntries cases store resolved.normalizedKey).foldl (newer stamp)
      (firstEntry store resolved.normalizedKey (EcmaString.trim sessionKey)) := by
  rw [newer_stamp]
  simp only [resolveSessionStoreEntry, legacyEntries, firstEntry]
  congr 1

theorem mem_legacyEntries (normalizedKey : String) (e : SessionEntry ρ) :
    e ∈ legacyEntries cases store normalizedKey ↔
      ∃ key, key ≠ normalizedKey ∧ cases.toLowerCase key = normalizedKey ∧ store.get? key = some e := by
  simp only [legacyEntries, mem_map, mem_filter, decide_eq_true_eq, Prod.exists, exists_eq_right,
    get?_eq_some]
  exact ⟨fun ⟨k, hm, hne, hl⟩ => ⟨k, hne, hl, hm⟩, fun ⟨k, hne, hl, hm⟩ => ⟨k, hm, hne, hl⟩⟩

/-- What is found is the entry updated last under any spelling of the normal key, the
normal spelling's among equals, and nothing only if there is nothing under any. -/
structure FindsFreshest (normalizedKey : String) (found : Option (SessionEntry ρ)) : Prop where
  fresh : ∀ e, found = some e →
    (∃ key, cases.toLowerCase key = normalizedKey ∧ store.get? key = some e) ∧
    ∀ key b, cases.toLowerCase key = normalizedKey → store.get? key = some b → stamp b ≤ stamp e
  nothing : found = none → ∀ key, cases.toLowerCase key = normalizedKey → store.get? key = none
  ties : ∀ a, store.get? normalizedKey = some a →
    (∀ key b, cases.toLowerCase key = normalizedKey → store.get? key = some b → stamp b ≤ stamp a) → found = some a

theorem resolve_findsFreshest :
    FindsFreshest cases store (resolveSessionStoreEntry cases store sessionKey).normalizedKey
      (resolveSessionStoreEntry cases store sessionKey).existing := by
  have hlower := toLowerCase_normalizedKey cases store sessionKey
  have htrim := toLowerCase_trim cases store sessionKey
  rw [resolve_existing]
  generalize (resolveSessionStoreEntry cases store sessionKey).normalizedKey = normal at hlower htrim ⊢
  generalize EcmaString.trim sessionKey = trimmed at htrim ⊢
  have hspelled : ∀ a, firstEntry store normal trimmed = some a →
      ∃ key, cases.toLowerCase key = normal ∧ store.get? key = some a := by
    intro a ha
    cases h : store.get? normal with
    | some c =>
      simp only [firstEntry, h] at ha
      exact ⟨_, hlower, h.trans ha⟩
    | none =>
      simp only [firstEntry, h] at ha
      exact ⟨trimmed, htrim, (Option.ite_none_right_eq_some.mp ha).2⟩
  have hnormal : ∀ a, store.get? normal = some a → firstEntry store normal trimmed = some a := fun a ha => by
    simp only [firstEntry, ha]
    rfl
  have hcover : ∀ key b, cases.toLowerCase key = normal → store.get? key = some b →
      firstEntry store normal trimmed = some b ∨ b ∈ legacyEntries cases store normal := by
    intro key b hl hb
    by_cases hne : key = normal
    · exact .inl (hnormal b (hne ▸ hb))
    · exact .inr ((mem_legacyEntries cases store normal b).mpr ⟨key, hne, hl, hb⟩)
  obtain ⟨hnone, hsome⟩ := foldl_newer stamp (legacyEntries cases store normal) (firstEntry store normal trimmed)
  refine ⟨fun e he => ⟨?_, fun key b hl hb => ?_⟩, fun h key hl => ?_, fun a ha hall => ?_⟩
  · rcases (hsome e he).mem with h | h
    · exact hspelled e h
    · obtain ⟨key, -, hl, hk⟩ := (mem_legacyEntries cases store normal e).mp h
      exact ⟨key, hl, hk⟩
  · exact (hcover key b hl hb).elim ((hsome e he).le_first b) ((hsome e he).le b)
  · obtain ⟨h₁, h₂⟩ := hnone h
    refine Option.eq_none_iff_forall_ne_some.mpr fun b hb => ?_
    rcases hcover key b hl hb with hm | hm
    · exact Option.some_ne_none b (hm.symm.trans h₁)
    · rw [h₂] at hm
      cases hm
  · cases h : (legacyEntries cases store normal).foldl (newer stamp) (firstEntry store normal trimmed) with
    | none => exact absurd ((hnormal a ha).symm.trans (hnone h).1) (Option.some_ne_none a)
    | some e =>
      refine congrArg some ((hsome e h).ties a (hnormal a ha) fun b hb => ?_)
      obtain ⟨key, -, hl, hk⟩ := (mem_legacyEntries cases store normal b).mp hb
      exact hall key b hl hk

/-! ### Saving -/

theorem get?_deleteAll (keys : List String) (store : Store ρ) (key : String) :
    (deleteAll keys store).get? key = if key ∈ keys then none else store.get? key := by
  induction keys generalizing store with
  | nil => simp [deleteAll]
  | cons k rest ih =>
    rw [deleteAll, foldl_cons, ← deleteAll, ih, get?_erase]
    by_cases hk : key = k <;> simp [hk]

/-- The entry saved is found under the normal spelling and under no other, and other
sessions are as they were. -/
theorem get?_persist (next : SessionEntry ρ) (key : String) :
    let resolved := resolveSessionStoreEntry cases store sessionKey
    (resolved.persist next store).get? key =
      if key = resolved.normalizedKey then some next
      else if cases.toLowerCase key = resolved.normalizedKey then none else store.get? key := by
  intro resolved
  have hlegacy := mem_legacyKeys cases store sessionKey key
  rw [ResolvedEntry.persist, get?_deleteAll, get?_set]
  by_cases hn : key = resolved.normalizedKey
  · rw [if_neg fun h => (hlegacy.mp h).1 hn, if_pos hn, if_pos hn]
  · rw [if_neg hn, if_neg hn]
    by_cases hl : cases.toLowerCase key = resolved.normalizedKey
    · rw [if_pos hl]
      cases hk : store.get? key with
      | none => exact ite_self _
      | some e => rw [if_pos (hlegacy.mpr ⟨hn, hl, by rw [hk]; rfl⟩)]
    · rw [if_neg hl, if_neg fun h => hl (hlegacy.mp h).2.1]

/-- An entry as a save writes it. -/
def normalEntry (host : SessionHost ρ τ) (entry : SessionEntry ρ) : SessionEntry ρ :=
  normalizeSessionEntryDelivery host.normalizeMessageChannel (normalizeSessionRuntimeModelFields entry)

/-- The disk budget only takes entries out. -/
def OnlyRemoves (evict : Store ρ → Store ρ) : Prop :=
  ∀ store key entry, (evict store).get? key = some entry → store.get? key = some entry

theorem maintained_unenforced (host : SessionHost ρ τ) {opts : SaveOptions ρ} (h : SessionFiles.enforced opts = none)
    (clock : Clock) (key : String) :
    (SessionFiles.maintained host store opts clock).get? key = (store.get? key).map (normalEntry host) := by
  simp only [SessionFiles.maintained, h]
  exact get?_mapValues _ store key

theorem capEntryCount_some {maxEntries : Nat} {key : String} {v : SessionEntry ρ}
    (h : (capEntryCount maxEntries store).get? key = some v) : store.get? key = some v := by
  unfold capEntryCount at h
  split at h
  · exact h
  · rw [get?_deleteAll] at h
    exact (Option.ite_none_left_eq_some.mp h).2

theorem maintained_some (host : SessionHost ρ τ) {opts : SaveOptions ρ} (hevict : OnlyRemoves opts.evict)
    {clock : Clock} {key : String} {v : SessionEntry ρ}
    (h : (SessionFiles.maintained host store opts clock).get? key = some v) :
    ∃ e, store.get? key = some e ∧ normalEntry host e = v := by
  have hnormal : (normalizeSessionStore host.normalizeMessageChannel store).get? key = some v := by
    unfold SessionFiles.maintained at h
    split at h
    · exact h
    · have hpruned := capEntryCount_some _ (hevict _ _ _ h)
      rw [pruneStaleEntries, get?_keepValues, Option.filter_eq_some_iff] at hpruned
      exact hpruned.1
  rw [normalizeSessionStore, get?_mapValues] at hnormal
  exact Option.map_eq_some_iff.mp hnormal

variable [DecidableEq τ]

/-- **The spellings of a session collapse**: the lookup finds the freshest entry, the
saved store has the new one under the normal spelling alone, other sessions are as they
were but for what the maintenance removes, and any spelling finds the new entry. -/
theorem persisted_spellings_collapse (host : SessionHost ρ τ) (next : SessionEntry ρ) (opts : SaveOptions ρ)
    (hevict : OnlyRemoves opts.evict) (clock : Clock) (s : SessionFiles ρ τ) :
    let resolved := resolveSessionStoreEntry host.cases store sessionKey
    FindsFreshest host.cases store resolved.normalizedKey resolved.existing ∧
    ∃ saved, (s.saveSessionStoreUnlocked host (resolved.persist next store) opts clock).saved = some saved ∧
      (∀ key v, saved.get? key = some v →
        if host.cases.toLowerCase key = resolved.normalizedKey then key = resolved.normalizedKey ∧ normalEntry host next = v
        else ∃ e, store.get? key = some e ∧ normalEntry host e = v) ∧
      (SessionFiles.enforced opts = none → saved.get? resolved.normalizedKey = some (normalEntry host next) ∧
        ∀ key, host.cases.toLowerCase key ≠ resolved.normalizedKey →
          saved.get? key = (store.get? key).map (normalEntry host)) ∧
      ∀ spelling, normalizeStoreSessionKey host.cases spelling = resolved.normalizedKey →
        (resolveSessionStoreEntry host.cases saved spelling).existing = saved.get? resolved.normalizedKey := by
  intro resolved
  have hlower : host.cases.toLowerCase resolved.normalizedKey = resolved.normalizedKey :=
    toLowerCase_normalizedKey host.cases store sessionKey
  have hpersist : ∀ key, (resolved.persist next store).get? key = if key = resolved.normalizedKey then some next
      else if host.cases.toLowerCase key = resolved.normalizedKey then none else store.get? key :=
    get?_persist host.cases store sessionKey next
  have hfound : FindsFreshest host.cases store resolved.normalizedKey resolved.existing :=
    resolve_findsFreshest host.cases store sessionKey
  clear_value resolved
  have halone : ∀ key v, (SessionFiles.maintained host (resolved.persist next store) opts clock).get? key = some v →
      if host.cases.toLowerCase key = resolved.normalizedKey then key = resolved.normalizedKey ∧ normalEntry host next = v
      else ∃ e, store.get? key = some e ∧ normalEntry host e = v := by
    intro key v hv
    obtain ⟨e, he, hev⟩ := maintained_some _ host hevict hv
    rw [hpersist key] at he
    by_cases hn : key = resolved.normalizedKey
    · rw [if_pos hn] at he
      rw [if_pos (hn ▸ hlower), Option.some.inj he]
      exact ⟨hn, hev⟩
    · rw [if_neg hn] at he
      obtain ⟨hl, he⟩ := Option.ite_none_left_eq_some.mp he
      rw [if_neg hl]
      exact ⟨e, he, hev⟩
  refine ⟨hfound, _, rfl, halone, fun hnone => ⟨?_, fun key hkey => ?_⟩,
    fun spelling hspelling => ?_⟩
  · rw [maintained_unenforced _ host hnone, hpersist, if_pos rfl]
    rfl
  · rw [maintained_unenforced _ host hnone, hpersist, if_neg fun h : key = _ => hkey (by rw [h, hlower]), if_neg hkey]
  · generalize SessionFiles.maintained host (resolved.persist next store) opts clock = saved at halone
    obtain ⟨hfresh, -, hties⟩ := resolve_findsFreshest host.cases saved spelling
    rw [resolve_normalizedKey, hspelling] at hfresh hties
    cases hn : saved.get? resolved.normalizedKey with
    | some v =>
      refine hties v hn fun key b hl hb => ?_
      have hkey := halone key b hb
      rw [if_pos hl] at hkey
      rw [hkey.1, hn] at hb
      rw [Option.some.inj hb]
    | none =>
      refine Option.eq_none_iff_forall_ne_some.mpr fun e he => ?_
      obtain ⟨key, hl, hk⟩ := (hfresh e he).1
      have hkey := halone key e hk
      rw [if_pos hl] at hkey
      rw [hkey.1, hn] at hk
      cases hk

/-- A session under two spellings, and another that is old. -/
def spelledStore : Store Unit :=
  ((InsertionMap.set ∅ "Main" {sessionId := "s", updatedAt := some 9}).set "main"
    {sessionId := "t", updatedAt := some 8}).set "old" {sessionId := "u", updatedAt := some 1}

theorem persisted_spellings_collapse_spelled :
    ((resolveSessionStoreEntry smallHost.cases spelledStore " MAIN").existing.map SessionEntry.sessionId) = some "s" ∧
    ∀ next, ∃ saved, ((({} : SessionFiles Unit _).saveSessionStoreUnlocked smallHost
      ((resolveSessionStoreEntry smallHost.cases spelledStore " MAIN").persist next spelledStore) {} ⟨9, 9⟩).saved =
        some saved) ∧ (resolveSessionStoreEntry smallHost.cases saved "maiN").existing = some (normalEntry smallHost next) := by
  refine ⟨by decide, fun next => ?_⟩
  obtain ⟨-, saved, hsaved, -, hkeeps, hany⟩ := persisted_spellings_collapse spelledStore " MAIN" smallHost next {}
    (fun _ _ _ h => h) ⟨9, 9⟩ {}
  exact ⟨saved, hsaved, (hany "maiN" (by decide)).trans (hkeeps rfl).1⟩

/-- Saving a session under an enforced maintenance removes another that is old. -/
theorem persisting_removes_old :
    let saved := ({} : SessionFiles Unit _).saveSessionStoreUnlocked smallHost
      ((resolveSessionStoreEntry smallHost.cases spelledStore "main").persist {sessionId := "v", updatedAt := some 10}
        spelledStore) {maintenance := some ⟨.enforce, 5, 500, 1000⟩} ⟨10, 10⟩
    (spelledStore.get? "old").isSome ∧ smallHost.cases.toLowerCase "old" ≠ "main" ∧
      saved.saved.any (fun store => (store.get? "old").isNone) = true := by
  decide

end OpenClaw.Sessions
