import OpenClaw.Sessions.SessionStore

/-! What a save of the session store leaves on disk.

A save that writes leaves the text of the store in the file, and the caches as they would
be read from it. A save may skip the write when the text is the one it remembers; it is
then on disk only if the file still holds it and the same save has not moved it aside.
Under that condition a load after a save returns what was saved, from the file and from
the cache. -/
namespace OpenClaw.Sessions
open Foundation

variable {ρ τ : Type*} [DecidableEq τ] (host : SessionHost ρ τ)

/-- The store is on disk: the file exists, and a load returns the store, from the file or
through the cache. -/
structure OnDisk (store : Store ρ) (s : SessionFiles ρ τ) : Prop where
  file : s.file.isSome = true
  fresh : ∀ expired, (s.loadSessionStore host true expired).1 = store
  cached : ∀ expired, (s.loadSessionStore host false expired).1 = store

/-- Migrating and normalizing once more changes nothing. -/
def Settled (store : Store ρ) : Prop :=
  normalizeSessionStore host.normalizeMessageChannel (applySessionStoreMigrations store) = store

/-- The save moves the file aside. -/
def Rotates (opts : SaveOptions ρ) (s : SessionFiles ρ τ) : Prop :=
  ∃ m, SessionFiles.enforced opts = some m ∧ ∃ f, s.file = some f ∧ m.rotateBytes < host.bytes f.text

/-- Where the text to be saved is the one remembered, the file holds it and is not moved
aside; and what is saved is settled. -/
def SaveKeeps (store : Store ρ) (opts : SaveOptions ρ) (clock : Clock) (s : SessionFiles ρ τ) : Prop :=
  let store := SessionFiles.maintained host store opts clock
  (s.serialized = some (host.stringify store) →
    ¬Rotates host opts s ∧ s.file.map StoreFile.text = some (host.stringify store)) ∧ Settled host store

/-- The condition on the save of a call, after its load. -/
def StoreEvent.Keeps : StoreEvent ρ τ → SessionFiles ρ τ → Prop
  | .saveSessionStore store opts clock, s => SaveKeeps host store opts clock s
  | .updateSessionStore mutator opts clock, s =>
    let (store, s) := s.loadSessionStore host true false
    SaveKeeps host (preserveExistingAcpMetadata host.cases store opts.allowDropAcpMetaSessionKeys (mutator store))
      opts clock s
  | .updateSessionStoreEntry sessionKey update opts clock, s =>
    let (store, s) := s.loadSessionStore host true false
    let resolved := resolveSessionStoreEntry host.cases store sessionKey
    ∀ next, resolved.existing.bind update = some next → SaveKeeps host (resolved.persist next store) opts clock s
  | .updateLastRoute sessionKey route expired opts clock, s =>
    let (store, s) := s.loadSessionStore host false expired
    let resolved := resolveSessionStoreEntry host.cases store sessionKey
    SaveKeeps host (resolved.persist (route resolved.existing) store) opts clock s
  | .loadSessionStore _ _, _ | .foreign _ _, _ => True

/-! ### The invariant -/

/-- The file holds what was saved, and a cached store of that file is it. -/
def Kept (s : SessionFiles ρ τ) : Prop :=
  ∀ store, s.saved = some store →
    Settled host store ∧ (∃ f, s.file = some f ∧ f.text = host.stringify store) ∧
      ∀ c, s.cached = some c → s.stat host = c.stat → c.store = store

variable {host} {s : SessionFiles ρ τ}

omit [DecidableEq τ] in
theorem readStore_saved {store : Store ρ} {f : StoreFile τ} (hfile : s.file = some f)
    (htext : f.text = host.stringify store) : s.readStore host = (some (host.stringify store), store) := by
  rw [SessionFiles.readStore, hfile]
  dsimp only
  rw [htext, host.parse_stringify]

/-- What is loaded from a file that holds a saved store. -/
theorem loadFromDisk_saved {store : Store ρ} {f : StoreFile τ} (hsettled : Settled host store)
    (hfile : s.file = some f) (htext : f.text = host.stringify store) (skipCache : Bool) :
    (s.loadFromDisk host skipCache).1 = store := by
  rw [SessionFiles.loadFromDisk, readStore_saved hfile htext]
  exact hsettled

theorem loadFromDisk_kept (h : Kept host s) (skipCache : Bool) : Kept host (s.loadFromDisk host skipCache).2 := by
  intro store hsaved
  have hsaved' : s.saved = some store := by
    rw [← hsaved, SessionFiles.loadFromDisk]
    dsimp only
    split <;> rfl
  obtain ⟨hsettled, ⟨f, hfile, htext⟩, hcached⟩ := h store hsaved'
  have hstore := loadFromDisk_saved hsettled hfile htext skipCache
  rw [SessionFiles.loadFromDisk] at hstore ⊢
  dsimp only at hstore ⊢
  split
  · refine ⟨hsettled, ⟨f, hfile, htext⟩, ?_⟩
    rintro c ⟨⟩ _
    exact hstore
  · exact ⟨hsettled, ⟨f, hfile, htext⟩, hcached⟩

omit [DecidableEq τ] in
/-- What a look into the cache can do. -/
theorem readSessionStoreCache_cases (expired : Bool) (s : SessionFiles ρ τ) :
    (∃ c, s.cached = some c ∧ s.stat host = c.stat ∧ s.readSessionStoreCache host expired = (some c.store, s)) ∨
      ∃ s', s.readSessionStoreCache host expired = (none, s') ∧ s'.file = s.file ∧ s'.saved = s.saved ∧
        (s'.cached = none) := by
  cases hc : s.cached with
  | none => exact .inr ⟨s, by simp [SessionFiles.readSessionStoreCache, hc], rfl, rfl, hc⟩
  | some c =>
    cases expired with
    | true => exact .inr ⟨{s with cached := none}, by simp [SessionFiles.readSessionStoreCache, hc], rfl, rfl, rfl⟩
    | false =>
      by_cases hstat : s.stat host = c.stat
      · exact .inl ⟨c, rfl, hstat, by simp [SessionFiles.readSessionStoreCache, hc, hstat]⟩
      · exact .inr ⟨{s with cached := none, serialized := none},
          by simp [SessionFiles.readSessionStoreCache, hc, hstat], rfl, rfl, rfl⟩

/-- A load returns what was saved, and what was saved stays. -/
theorem loadSessionStore_kept (h : Kept host s) (skipCache expired : Bool) :
    (∀ store, s.saved = some store → (s.loadSessionStore host skipCache expired).1 = store) ∧
      Kept host (s.loadSessionStore host skipCache expired).2 := by
  have hdisk : ∀ s' : SessionFiles ρ τ, s'.file = s.file → s'.saved = s.saved → Kept host s' →
      (∀ store, s.saved = some store → (s'.loadFromDisk host skipCache).1 = store) ∧
        Kept host (s'.loadFromDisk host skipCache).2 := by
    intro s' hfile _ hs'
    refine ⟨fun store hsaved => ?_, loadFromDisk_kept hs' skipCache⟩
    obtain ⟨hsettled, ⟨f, hf, htext⟩, _⟩ := h store hsaved
    exact loadFromDisk_saved hsettled (hfile.trans hf) htext skipCache
  rw [SessionFiles.loadSessionStore]
  split
  · rcases @readSessionStoreCache_cases _ _ host expired s with
      ⟨c, hc, hstat, hread⟩ | ⟨s', hread, hfile, hsaved, hnone⟩
    · rw [hread]
      exact ⟨fun store hsaved => (h store hsaved).2.2 c hc hstat, h⟩
    · rw [hread]
      apply hdisk s' hfile hsaved
      intro store hs
      obtain ⟨hsettled, ⟨f, hf, htext⟩, _⟩ := h store (hsaved ▸ hs)
      refine ⟨hsettled, ⟨f, hfile.trans hf, htext⟩, ?_⟩
      intro c hc
      simp [hnone] at hc
  · exact hdisk s rfl rfl h

theorem Kept.onDisk (h : Kept host s) {store : Store ρ} (hsaved : s.saved = some store) : OnDisk host store s := by
  obtain ⟨_, ⟨f, hfile, _⟩, _⟩ := h store hsaved
  refine ⟨by simp [hfile], ?_, ?_⟩
  · intro expired
    exact (loadSessionStore_kept h true expired).1 store hsaved
  · intro expired
    exact (loadSessionStore_kept h false expired).1 store hsaved

/-! ### Saving -/

omit [DecidableEq τ] in
/-- A rotation that does not move the file aside does nothing. -/
theorem rotateForSave_kept (opts : SaveOptions ρ) (clock : Clock) (hrotates : ¬Rotates host opts s) :
    s.rotateForSave host opts clock = s := by
  rw [SessionFiles.rotateForSave]
  cases hm : SessionFiles.enforced opts with
  | none => rfl
  | some m =>
    dsimp only
    rw [SessionFiles.rotateSessionFile]
    cases hf : s.file with
    | none => rfl
    | some f =>
      have hle : host.bytes f.text ≤ m.rotateBytes := by
        by_contra hlt
        exact hrotates ⟨m, hm, f, hf, by omega⟩
      simp [hle]

omit [DecidableEq τ] in
theorem rotateForSave_serialized (opts : SaveOptions ρ) (clock : Clock) :
    (s.rotateForSave host opts clock).serialized = s.serialized := by
  rw [SessionFiles.rotateForSave]
  cases SessionFiles.enforced opts with
  | none => rfl
  | some m =>
    dsimp only
    rw [SessionFiles.rotateSessionFile]
    split
    · rfl
    · split <;> rfl

omit [DecidableEq τ] in
/-- The caches written once the file holds the text. -/
theorem updateSessionStoreWriteCaches_kept {store : Store ρ} {f : StoreFile τ} (hfile : s.file = some f)
    (htext : f.text = host.stringify store) (hsettled : Settled host store) :
    Kept host {s.updateSessionStoreWriteCaches host store (host.stringify store) with saved := some store} := by
  rintro _ ⟨⟩
  refine ⟨hsettled, ⟨f, hfile, htext⟩, ?_⟩
  intro c hc _
  dsimp only [SessionFiles.updateSessionStoreWriteCaches] at hc
  split at hc
  · cases hc
    rfl
  · cases hc

theorem saveSessionStoreUnlocked_kept {store : Store ρ} {opts : SaveOptions ρ} {clock : Clock}
    (h : SaveKeeps host store opts clock s) : Kept host (s.saveSessionStoreUnlocked host store opts clock) := by
  obtain ⟨hremembered, hsettled⟩ := h
  rw [SessionFiles.saveSessionStoreUnlocked]
  split
  · rename_i hskip
    rw [rotateForSave_serialized] at hskip
    obtain ⟨hrotates, hheld⟩ := hremembered hskip
    obtain ⟨f, hfile, htext⟩ := Option.map_eq_some_iff.mp hheld
    rw [rotateForSave_kept opts clock hrotates]
    exact updateSessionStoreWriteCaches_kept hfile htext hsettled
  · exact updateSessionStoreWriteCaches_kept rfl rfl hsettled

theorem storeStep_kept (e : StoreEvent ρ τ) (s t : SessionFiles ρ τ) (h : Kept host s) (hkeeps : e.Keeps host s)
    (hstep : storeStep host e s = some t) : Kept host t := by
  cases e with
  | updateSessionStoreEntry sessionKey update opts clock =>
    cases hstep
    have hload := (loadSessionStore_kept h true false).2
    rw [SessionFiles.updateSessionStoreEntry]
    dsimp only
    cases hnext : (resolveSessionStoreEntry host.cases (s.loadSessionStore host true false).1 sessionKey).existing.bind
        update with
    | none => exact hload
    | some next => exact saveSessionStoreUnlocked_kept (hkeeps next hnext)
  | loadSessionStore skipCache expired =>
    cases hstep
    exact (loadSessionStore_kept h skipCache expired).2
  | foreign text mtimeMs =>
    cases hstep
    rintro _ ⟨⟩
  | _ =>
    cases hstep
    exact saveSessionStoreUnlocked_kept hkeeps

/-- In every run whose saves keep to the condition, what was saved last is on disk. -/
theorem saved_store_on_disk {events : List (StoreEvent ρ τ)} {s : SessionFiles ρ τ}
    (hc : (storeStep host).Within (StoreEvent.Keeps host) events {})
    (hr : (storeStep host).run events {} = some s) {store : Store ρ} (hsaved : s.saved = some store) :
    OnDisk host store s := by
  have h : Kept host s := Machine.run_within_invariant (storeStep host) storeStep_kept events
    (by rintro _ ⟨⟩) hc hr
  exact h.onDisk hsaved

/-! ### Runs -/

section Deciding
variable [DecidableEq ρ] (host)

instance : DecidableEq (Store ρ) := fun a b => by
  refine decidable_of_iff (a.entries = b.entries) ⟨fun h => ?_, fun h => h ▸ rfl⟩
  obtain ⟨entries, _⟩ := a
  obtain ⟨_, _⟩ := b
  obtain rfl : entries = _ := h
  rfl

instance (store : Store ρ) : Decidable (Settled host store) := by
  unfold Settled
  infer_instance

omit [DecidableEq τ] [DecidableEq ρ] in
theorem rotates_iff (opts : SaveOptions ρ) (s : SessionFiles ρ τ) : Rotates host opts s ↔
    ((SessionFiles.enforced opts).any fun m => s.file.any fun f => m.rotateBytes < host.bytes f.text) = true := by
  simp [Rotates, Option.any_eq_true]

instance (opts : SaveOptions ρ) (s : SessionFiles ρ τ) : Decidable (Rotates host opts s) :=
  decidable_of_iff _ (rotates_iff host opts s).symm

instance (store : Store ρ) (opts : SaveOptions ρ) (clock : Clock) (s : SessionFiles ρ τ) :
    Decidable (SaveKeeps host store opts clock s) := by
  unfold SaveKeeps
  infer_instance

instance (e : StoreEvent ρ τ) (s : SessionFiles ρ τ) : Decidable (e.Keeps host s) := by
  unfold StoreEvent.Keeps
  cases e <;> infer_instance

end Deciding

/-- Entries with a key of four letters and ids and times of one: such texts have 58 bytes
for each entry and two more. -/
def smallHost : SessionHost Unit (List (String × SessionEntry Unit)) where
  normalizeMessageChannel raw := (EcmaString.trimmed? (some raw)).map asciiTables.toLowerCase
  cases := asciiTables
  stringify store := store.entries
  parse entries := if h : (entries.map Prod.fst).Nodup then some ⟨entries, h⟩ else none
  bytes entries := 58 * entries.length + 2
  isSessionStoreCacheEnabled := true
  parse_stringify store := by simp [store.nodup]

def mainStore : Store Unit := InsertionMap.set ∅ "main" {sessionId := "s", updatedAt := some 1}

/-- Maintenance that moves a file of more than 50 bytes aside. -/
def rotatingAt50 : SaveOptions Unit := {maintenance := some ⟨.enforce, 1000, 500, 50⟩}

/-- A save, an update that adds an entry and rotates, and one that changes nothing and does not. -/
def rotatingRun : List (StoreEvent Unit (List (String × SessionEntry Unit))) :=
  [.saveSessionStore mainStore rotatingAt50 ⟨2, 2⟩, .loadSessionStore false false,
    .updateSessionStore (fun store => store.set "next" {sessionId := "t", updatedAt := some 3}) rotatingAt50 ⟨3, 3⟩,
    .updateSessionStore id {} ⟨4, 4⟩]

theorem saved_store_on_disk_rotating :
    ∃ s, (storeStep smallHost).run rotatingRun {} = some s ∧ s.backups.size = 1 ∧
      ∀ store, s.saved = some store → OnDisk smallHost store s := by
  have hrun : ((storeStep smallHost).run rotatingRun {}).any (fun s => s.backups.size = 1) = true := by
    decide
  obtain ⟨s, hs, hv⟩ := (Option.any_eq_true _ _).mp hrun
  exact ⟨s, hs, of_decide_eq_true hv, fun store hsaved => saved_store_on_disk (by decide) hs hsaved⟩

/-- A save, and an update that changes nothing but rotates. -/
def unchangedRun : List (StoreEvent Unit (List (String × SessionEntry Unit))) :=
  [.saveSessionStore mainStore rotatingAt50 ⟨2, 2⟩, .updateSessionStore id rotatingAt50 ⟨3, 3⟩]

/-- The file is moved aside and not written again, and the next update finds no entries. -/
theorem unchanged_store_rotated_away :
    ∃ s, (storeStep smallHost).run unchangedRun {} = some s ∧ s.saved = some mainStore ∧ s.file = none ∧
      ¬OnDisk smallHost mainStore s ∧ (s.loadSessionStore smallHost true false).1.entries = [] := by
  have hrun : ((storeStep smallHost).run unchangedRun {}).any (fun s => s.saved = some mainStore ∧ s.file = none ∧
      (s.loadSessionStore smallHost true false).1.entries = []) = true := by decide
  obtain ⟨s, hs, hv⟩ := (Option.any_eq_true _ _).mp hrun
  obtain ⟨hsaved, hfile, hempty⟩ := of_decide_eq_true hv
  refine ⟨s, hs, hsaved, hfile, fun hdisk => ?_, hempty⟩
  have := hdisk.file
  simp [hfile] at this

end OpenClaw.Sessions
