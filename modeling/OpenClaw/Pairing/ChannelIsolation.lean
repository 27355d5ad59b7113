import OpenClaw.Pairing.ChannelStore

/-! Approvals stay within their channel and account.

The history keeps every entry that was added or approved, with the channel and
the account it was meant for. `Sourced` says of an id that it comes from such an
entry of one channel and account, through the normalization of that channel. It
holds of what the files of a channel and account list as long as no operation of
the run opens one of these files for another channel or account (`KeepsApart`):
file names are all the separation there is, and different ids can have one name.
`shared_name_leaks` is a run in which they do. -/
namespace OpenClaw.Pairing

open Foundation Foundation.EcmaString List InsertionMap

/-! ### Histories -/

inductive ChannelCall where
  | upsert (params : UpsertParams) (draws : List String)
  | approve (channel code : String) (accountId : Option String)
  | add (channel entry : String) (accountId : Option String)
  | remove (channel entry : String) (accountId : Option String)
  | read (channel : String) (accountId : Option String) (sameScoped sameLegacy : Bool)

structure ChannelEvent where
  now : Nat
  call : ChannelCall

/-- An entry put on an allow-from list, and what it was meant for. -/
structure Addition where
  channel : String
  accountId : Option String
  entry : String

structure ChannelHistory where
  store : ChannelStore := {}
  additions : List Addition := []

/-- What an event adds: the entry of an addition, the sender of an approved request. -/
def addition (host : ChannelHost) (e : ChannelEvent) (st : ChannelStore) : Option Addition :=
  match e.call with
  | .add channel entry accountId => some ⟨channel, accountId, entry⟩
  | .approve channel code accountId =>
    match (approveChannelPairingCode host channel code accountId e.now st).1 with
    | .ok (some entry) => some ⟨channel, approvalAccount accountId entry, entry.id⟩
    | _ => none
  | _ => none

def ChannelEvent.after (host : ChannelHost) (e : ChannelEvent) (st : ChannelStore) : ChannelStore :=
  match e.call with
  | .upsert params draws => (upsertChannelPairingRequest host params draws e.now st).2
  | .approve channel code accountId => (approveChannelPairingCode host channel code accountId e.now st).2
  | .add channel entry accountId => (addChannelAllowFromStoreEntry host channel entry accountId st).2
  | .remove channel entry accountId => (removeChannelAllowFromStoreEntry host channel entry accountId st).2
  | .read channel accountId sameScoped sameLegacy =>
    (readChannelAllowFromStore host channel accountId sameScoped sameLegacy st).2

def channelPairing (host : ChannelHost) : Machine ChannelHistory ChannelEvent :=
  fun e h => some ⟨e.after host h.store, h.additions ++ (addition host e h.store).toList⟩

/-! ### What an operation is for -/

/-- The same channel up to case and surrounding space. -/
def SameChannel (host : ChannelHost) (channel other : String) : Prop :=
  host.toLowerCase (trim channel) = host.toLowerCase (trim other)

/-- A channel and an account, or none. -/
abbrev Target := String × Option String

/-- A target is the channel and account of a read: the same channel, and the same account up to
case and surrounding space, or no account where the read is of the default account. -/
def Meant (host : ChannelHost) (channel : String) (accountId : Option String) (target : Target) : Prop :=
  SameChannel host target.1 channel ∧
    if trim (target.2.getD "") = "" then resolveAllowFromAccountId host accountId = defaultAccountId
    else normalizePairingAccountId host target.2 = resolveAllowFromAccountId host accountId

/-- The files a read of a channel and account opens. -/
def Opens (host : ChannelHost) (channel : String) (accountId : Option String) (path : String) : Prop :=
  resolveAllowFromPath host channel (some (resolveAllowFromAccountId host accountId)) = .ok path ∨
    (shouldIncludeLegacyAllowFromEntries (resolveAllowFromAccountId host accountId) = true ∧
      resolveAllowFromPath host channel none = .ok path)

/-- The targets whose lists an event opens. -/
def targets (host : ChannelHost) (e : ChannelEvent) (st : ChannelStore) : List Target :=
  match e.call with
  | .upsert _ _ => []
  | .approve _ _ _ => ((addition host e st).map fun a => (a.channel, a.accountId)).toList
  | .add channel _ accountId => [(channel, accountId)]
  | .remove channel _ accountId => [(channel, accountId)]
  | .read channel accountId _ _ =>
    let resolved := resolveAllowFromAccountId host accountId
    (channel, some resolved) ::
      if shouldIncludeLegacyAllowFromEntries resolved then [(channel, none)] else []

/-- No file of a channel and account is opened for another one. -/
def KeepsApart (host : ChannelHost) (channel : String) (accountId : Option String) (e : ChannelEvent)
    (h : ChannelHistory) : Prop :=
  ∀ target ∈ targets host e h.store, ∀ path, resolveAllowFromPath host target.1 target.2 = .ok path →
    Opens host channel accountId path → Meant host channel accountId target

/-- An id that the normalization of a channel makes of an entry, once on the way in and again on
later reads. -/
inductive Derived (host : ChannelHost) (channel entry : String) : String → Prop
  | entered {c : String} : SameChannel host c channel → normalizeAllowEntry host c (trim entry) ≠ "" →
      Derived host channel entry (normalizeAllowEntry host c (trim entry))
  | again {c id : String} : SameChannel host c channel → Derived host channel entry id →
      normalizeAllowEntry host c id ≠ "" → Derived host channel entry (normalizeAllowEntry host c id)

/-- An id that comes from an entry added for a channel and account. -/
def Sourced (host : ChannelHost) (channel : String) (accountId : Option String) (additions : List Addition)
    (id : String) : Prop :=
  ∃ a ∈ additions, Meant host channel accountId (a.channel, a.accountId) ∧ Derived host channel a.entry id

/-! ### Lists -/

theorem normalizeAllowEntry_trimmed {host : ChannelHost} {channel entry : String}
    (h : normalizeAllowEntry host channel entry ≠ "") :
    trimmed (normalizeAllowEntry host channel entry) = some (normalizeAllowEntry host channel entry) := by
  have htrim : trim (normalizeAllowEntry host channel entry) = normalizeAllowEntry host channel entry := by
    simp only [normalizeAllowEntry]
    split
    · decide
    · split
      · decide
      · exact trim_trim _
  rw [trimmed, htrim, if_neg h]

theorem mem_normalizeAllowFromList {host : ChannelHost} {channel : String} {allowFrom : List String} {id : String} :
    id ∈ normalizeAllowFromList host channel allowFrom ↔
      ∃ v ∈ allowFrom, normalizeAllowEntry host channel v = id ∧ id ≠ "" := by
  simp only [normalizeAllowFromList, dedupePreserveOrder, mem_trimmedSet, mem_filter, mem_map,
    decide_eq_true_eq]
  constructor
  · rintro ⟨s, ⟨⟨v, hv, rfl⟩, hne⟩, hs⟩
    rw [normalizeAllowEntry_trimmed hne] at hs
    cases hs
    exact ⟨v, hv, rfl, hne⟩
  · rintro ⟨v, hv, rfl, hne⟩
    exact ⟨_, ⟨⟨v, hv, rfl⟩, hne⟩, normalizeAllowEntry_trimmed hne⟩

/-- An id that a file or the cache of a path lists. -/
def Listed (st : ChannelStore) (path id : String) : Prop :=
  (∃ allowFrom, st.allowFrom.get? path = some allowFrom ∧ id ∈ allowFrom) ∨
    ∃ cached, st.cache.get? path = some cached ∧ id ∈ cached.entries

/-- An id that a path lists, or that normalizing a listed one gives. -/
def ListedOrNormal (host : ChannelHost) (channel : String) (st : ChannelStore) (path id : String) : Prop :=
  Listed st path id ∨ ∃ v, Listed st path v ∧ normalizeAllowEntry host channel v = id ∧ id ≠ ""

theorem normal_of_file {host : ChannelHost} {channel path id : String} {st : ChannelStore} {allowFrom : List String}
    (hfile : st.allowFrom.get? path = some allowFrom) (h : id ∈ normalizeAllowFromList host channel allowFrom) :
    ListedOrNormal host channel st path id := by
  obtain ⟨v, hv, hnorm⟩ := mem_normalizeAllowFromList.mp h
  exact .inr ⟨v, .inl ⟨allowFrom, hfile, hv⟩, hnorm⟩

/-! ### Reads -/

/-- A read returns what its path lists, and changes no list but for normalizing that one. -/
theorem readPath_listed {host : ChannelHost} {channel path : String} {sameStat : Bool} {st next : ChannelStore}
    {entries : List String} (h : readAllowFromStateForPath host channel path sameStat st = (entries, next)) :
    (∀ id ∈ entries, ListedOrNormal host channel st path id) ∧
    (∀ other id, other ≠ path → Listed next other id → Listed st other id) ∧
    (∀ id, Listed next path id → ListedOrNormal host channel st path id) := by
  simp only [readAllowFromStateForPath] at h
  split at h
  · rename_i cached hcached
    cases h
    obtain ⟨hget, _⟩ := Option.filter_eq_some_iff.mp hcached
    exact ⟨fun id hid => .inl (.inr ⟨cached, hget, hid⟩), fun _ _ _ hl => hl, fun _ hl => .inl hl⟩
  · cases h
    refine ⟨fun _ hid => absurd hid not_mem_nil, ?_, ?_⟩
    · rintro other id hne (hfile | ⟨cached, hcached, hid⟩)
      · exact .inl hfile
      · rw [get?_set_ne _ hne] at hcached
        exact .inr ⟨cached, hcached, hid⟩
    · rintro id (hfile | ⟨cached, hcached, hid⟩)
      · exact .inl (.inl hfile)
      · rw [get?_set_self] at hcached
        cases hcached
        exact absurd hid not_mem_nil
  · rename_i allowFrom _ hfile
    cases h
    refine ⟨fun id hid => normal_of_file hfile hid, ?_, ?_⟩
    · rintro other id hne (hfile | ⟨cached, hcached, hid⟩)
      · exact .inl hfile
      · rw [get?_set_ne _ hne] at hcached
        exact .inr ⟨cached, hcached, hid⟩
    · rintro id (hlist | ⟨cached, hcached, hid⟩)
      · exact .inl (.inl hlist)
      · rw [get?_set_self] at hcached
        cases hcached
        exact normal_of_file hfile hid

/-! ### Updates -/

theorem get?_ensureJsonFile {α : Type} {path : String} {fallback value : α} {files next : InsertionMap String α}
    (h : ensureJsonFile path fallback files = (value, next)) :
    next.get? path = some value ∧ (files.get? path = some value ∨ (files.get? path = none ∧ value = fallback)) ∧
      ∀ other, other ≠ path → next.get? other = files.get? other := by
  simp only [ensureJsonFile] at h
  split at h
  · rename_i found hfound
    cases h
    exact ⟨hfound, .inl hfound, fun _ _ => rfl⟩
  · rename_i hnone
    cases h
    exact ⟨get?_set_self _ _ _, .inr ⟨hnone, rfl⟩, fun _ hne => get?_set_ne _ hne _⟩

/-- An update changes the list of its own path only: to what that path listed and, where it adds,
the entry normalized. -/
theorem update_listed {host : ChannelHost} {channel entry : String} {accountId : Option String}
    {apply : List String → String → Option (List String)} {adds : Prop} {st next : ChannelStore}
    {result : Except String AllowFromUpdate}
    (happly : ∀ current n updated, apply current n = some updated → ∀ id ∈ updated, id ∈ current ∨ (adds ∧ id = n))
    (h : updateAllowFromStoreEntry host channel entry accountId apply st = (result, next)) {path id : String}
    (hlisted : Listed next path id) :
    Listed st path id ∨ (resolveAllowFromPath host channel accountId = .ok path ∧
      (ListedOrNormal host channel st path id ∨
        (adds ∧ id = normalizeAllowEntry host channel (trim entry) ∧ id ≠ ""))) := by
  simp only [updateAllowFromStoreEntry] at h
  split at h
  · cases h
    exact .inl hlisted
  · rename_i filePath hpath
    generalize hensure : ensureJsonFile filePath [] st.allowFrom = ensured at h
    obtain ⟨value, files⟩ := ensured
    obtain ⟨hfile, hvalue, hother⟩ := get?_ensureJsonFile hensure
    -- What the file is created with is empty, so what it lists was listed.
    have hcreated : ∀ {p i allowFrom}, files.get? p = some allowFrom → i ∈ allowFrom →
        Listed st p i := by
      intro p i allowFrom hget hi
      by_cases hp : p = filePath
      · subst hp
        rw [hfile] at hget
        cases hget
        rcases hvalue with hfound | ⟨_, rfl⟩
        · exact .inl ⟨_, hfound, hi⟩
        · exact absurd hi not_mem_nil
      · rw [hother p hp] at hget
        exact .inl ⟨_, hget, hi⟩
    have hkept : Listed { st with allowFrom := files } path id → Listed st path id := by
      rintro (⟨allowFrom, hget, hi⟩ | hcached)
      · exact hcreated hget hi
      · exact .inr hcached
    split at h
    · cases h
      exact .inl (hkept hlisted)
    · rename_i hnonblank
      split at h
      · cases h
        exact .inl (hkept hlisted)
      · rename_i updated hupdated
        cases h
        by_cases hp : path = filePath
        · subst hp
          have hmem : id ∈ updated := by
            rcases hlisted with ⟨allowFrom, hget, hi⟩ | ⟨cached, hget, hi⟩
            · rw [get?_set_self] at hget
              cases hget
              exact hi
            · rw [get?_set_self] at hget
              cases hget
              exact hi
          refine .inr ⟨hpath, ?_⟩
          rcases happly _ _ _ hupdated id hmem with hcurrent | ⟨hadds, hid⟩
          · obtain ⟨v, hv, hnorm⟩ := mem_normalizeAllowFromList.mp hcurrent
            exact .inl (.inr ⟨v, hcreated hfile hv, hnorm⟩)
          · exact .inr ⟨hadds, hid, fun he => hnonblank (hid.symm.trans he)⟩
        · refine .inl (hkept ?_)
          rcases hlisted with ⟨allowFrom, hget, hi⟩ | ⟨cached, hget, hi⟩
          · rw [get?_set_ne _ hp] at hget
            exact .inl ⟨allowFrom, hget, hi⟩
          · rw [get?_set_ne _ hp] at hget
            exact .inr ⟨cached, hget, hi⟩

theorem addEntry_mem (current : List String) (n : String) (updated : List String)
    (h : addEntry current n = some updated) : ∀ id ∈ updated, id ∈ current ∨ (True ∧ id = n) := by
  intro id hid
  rw [addEntry] at h
  split at h
  · cases h
  · cases h
    rcases mem_append.mp hid with hid | hid
    · exact .inl hid
    · exact .inr ⟨trivial, mem_singleton.mp hid⟩

theorem removeEntry_mem (current : List String) (n : String) (updated : List String)
    (h : removeEntry current n = some updated) : ∀ id ∈ updated, id ∈ current ∨ (False ∧ id = n) := by
  intro id hid
  simp only [removeEntry] at h
  split at h
  · cases h
  · cases h
    exact .inl (mem_of_mem_filter hid)

/-- An approval that goes through is an addition for its channel and account; no other touches a
list. -/
theorem approve_lists {host : ChannelHost} {channel code : String} {accountId : Option String} {now : Nat}
    {st next : ChannelStore} {result : Except String (Option PairingRequest)}
    (h : approveChannelPairingCode host channel code accountId now st = (result, next)) :
    (next.allowFrom = st.allowFrom ∧ next.cache = st.cache) ∨
    ∃ entry update written, result = .ok (some entry) ∧ written.allowFrom = st.allowFrom ∧
      written.cache = st.cache ∧
      addChannelAllowFromStoreEntry host channel entry.id (approvalAccount accountId entry) written =
        (.ok update, next) := by
  simp only [approveChannelPairingCode] at h
  split at h
  · cases h
    exact .inl ⟨rfl, rfl⟩
  · split at h
    · cases h
      exact .inl ⟨rfl, rfl⟩
    · split at h
      · cases h
        exact .inl ⟨rfl, rfl⟩
      · split at h
        · cases h
          exact .inl ⟨rfl, rfl⟩
        · split at h
          · rename_i error added hadd
            cases h
            simp only [addChannelAllowFromStoreEntry, updateAllowFromStoreEntry] at hadd
            split at hadd
            · cases hadd
              exact .inl ⟨rfl, rfl⟩
            · split at hadd
              · cases (Prod.mk.inj hadd).1
              · split at hadd <;> cases (Prod.mk.inj hadd).1
          · rename_i entry _ _ update added hadd
            cases h
            refine .inr ⟨entry, update, _, rfl, ?_, ?_, hadd⟩
            · rfl
            · rfl

theorem upsert_lists {host : ChannelHost} {params : UpsertParams} {draws : List String} {now : Nat}
    {st : ChannelStore} :
    (upsertChannelPairingRequest host params draws now st).2.allowFrom = st.allowFrom ∧
      (upsertChannelPairingRequest host params draws now st).2.cache = st.cache := by
  simp only [upsertChannelPairingRequest]
  split
  · exact ⟨rfl, rfl⟩
  · split
    · split <;> exact ⟨rfl, rfl⟩
    · split
      · exact ⟨rfl, rfl⟩
      · split <;> exact ⟨rfl, rfl⟩

/-! ### One operation -/

variable {host : ChannelHost} {channel : String} {accountId : Option String}

/-- Every id that the files of a channel and account list was added for them. -/
def SourcedStore (host : ChannelHost) (channel : String) (accountId : Option String) (h : ChannelHistory) : Prop :=
  ∀ path, Opens host channel accountId path → ∀ id, Listed h.store path id →
    Sourced host channel accountId h.additions id

theorem Sourced.append {additions more : List Addition} {id : String} (h : Sourced host channel accountId additions id) :
    Sourced host channel accountId (additions ++ more) id := by
  obtain ⟨a, ha, hmeant, hderived⟩ := h
  exact ⟨a, mem_append_left _ ha, hmeant, hderived⟩

theorem Sourced.trimmed {additions : List Addition} {id : String} (h : Sourced host channel accountId additions id) :
    EcmaString.trimmed id = some id := by
  obtain ⟨_, _, _, hderived⟩ := h
  cases hderived with
  | entered _ hne | again _ _ hne => exact normalizeAllowEntry_trimmed hne

section
variable {h : ChannelHistory} (hs : SourcedStore host channel accountId h)
include hs

/-- What a channel makes of a listed id comes from where the id came from. -/
theorem SourcedStore.normal {path : String} (hopens : Opens host channel accountId path) {c id : String}
    (hsame : SameChannel host c channel) (hid : ListedOrNormal host c h.store path id) :
    Sourced host channel accountId h.additions id := by
  rcases hid with hlisted | ⟨v, hlisted, rfl, hne⟩
  · exact hs path hopens id hlisted
  · obtain ⟨a, ha, hmeant, hderived⟩ := hs path hopens v hlisted
    exact ⟨a, ha, hmeant, .again hsame hderived hne⟩

/-- An update for a target that shares no file with others keeps every list sourced. -/
theorem SourcedStore.update {store next : ChannelStore} (hfiles : store.allowFrom = h.store.allowFrom)
    (hcache : store.cache = h.store.cache) {c entry : String} {account : Option String}
    {apply : List String → String → Option (List String)} {adds : Prop} {result : Except String AllowFromUpdate}
    {more : List Addition}
    (happly : ∀ current n updated, apply current n = some updated → ∀ id ∈ updated, id ∈ current ∨ (adds ∧ id = n))
    (hmore : adds → ⟨c, account, entry⟩ ∈ more)
    (hapart : ∀ path, resolveAllowFromPath host c account = .ok path → Opens host channel accountId path → Meant host channel accountId (c, account))
    (hupdate : updateAllowFromStoreEntry host c entry account apply store = (result, next)) :
    SourcedStore host channel accountId ⟨next, h.additions ++ more⟩ := by
  intro path hopens id hlisted
  have hsame : ∀ {p i}, Listed store p i → Listed h.store p i := by
    rintro p i (⟨allowFrom, hget, hi⟩ | ⟨cached, hget, hi⟩)
    · exact .inl ⟨allowFrom, hfiles ▸ hget, hi⟩
    · exact .inr ⟨cached, hcache ▸ hget, hi⟩
  rcases update_listed happly hupdate hlisted with hold | ⟨hpath, hnew⟩
  · exact (hs path hopens id (hsame hold)).append
  · have hmeant := hapart path hpath hopens
    rcases hnew with hnormal | ⟨hadds, hid, hne⟩
    · have hnormal' : ListedOrNormal host c h.store path id := by
        rcases hnormal with hl | ⟨v, hl, hv⟩
        · exact .inl (hsame hl)
        · exact .inr ⟨v, hsame hl, hv⟩
      exact (hs.normal hopens hmeant.1 hnormal').append
    · rw [hid] at hne ⊢
      exact ⟨⟨c, account, entry⟩, mem_append_right _ (hmore hadds), hmeant, .entered hmeant.1 hne⟩

/-- A read for a target that shares no file with others keeps every list sourced. -/
theorem SourcedStore.readPath {c path : String} {sameStat : Bool} {entries : List String} {next : ChannelStore}
    (hapart : Opens host channel accountId path → SameChannel host c channel)
    (hread : readAllowFromStateForPath host c path sameStat h.store = (entries, next)) :
    SourcedStore host channel accountId { h with store := next } := by
  obtain ⟨_, hother, hself⟩ := readPath_listed hread
  intro p hopens id hlisted
  by_cases hp : p = path
  · subst hp
    exact hs.normal hopens (hapart hopens) (hself id hlisted)
  · exact hs p hopens id (hother p id hp hlisted)

/-- Stores that list the same ids are sourced alike. -/
theorem SourcedStore.same {next : ChannelStore} (hfiles : next.allowFrom = h.store.allowFrom)
    (hcache : next.cache = h.store.cache) :
    SourcedStore host channel accountId { h with store := next } := by
  rintro path hopens id (⟨allowFrom, hget, hi⟩ | ⟨cached, hget, hi⟩)
  · exact hs path hopens id (.inl ⟨allowFrom, hfiles ▸ hget, hi⟩)
  · exact hs path hopens id (.inr ⟨cached, hcache ▸ hget, hi⟩)

end

/-- The reads of a whole channel and account, scoped file first. -/
theorem read_cases {c : String} {account : Option String} {sameScoped sameLegacy : Bool} {st next : ChannelStore}
    {result : Except String (List String)}
    (h : readChannelAllowFromStore host c account sameScoped sameLegacy st = (result, next)) :
    (next = st ∧ ∃ error, result = .error error) ∨ ∃ scopedPath entries between,
      resolveAllowFromPath host c (some (resolveAllowFromAccountId host account)) = .ok scopedPath ∧
      readAllowFromStateForPath host c scopedPath sameScoped st = (entries, between) ∧
      ((next = between ∧ ∀ ids, result = .ok ids → ids = entries) ∨
        ∃ legacyPath legacyEntries,
          shouldIncludeLegacyAllowFromEntries (resolveAllowFromAccountId host account) = true ∧
          resolveAllowFromPath host c none = .ok legacyPath ∧
          readAllowFromStateForPath host c legacyPath sameLegacy between = (legacyEntries, next) ∧
          result = .ok (dedupePreserveOrder (entries ++ legacyEntries))) := by
  simp only [readChannelAllowFromStore] at h
  split at h
  · cases h
    exact .inl ⟨rfl, _, rfl⟩
  · rename_i scopedPath hscoped
    generalize hread : readAllowFromStateForPath host c scopedPath sameScoped st = scopedRead at h
    obtain ⟨entries, between⟩ := scopedRead
    refine .inr ⟨scopedPath, entries, between, hscoped, hread, ?_⟩
    split at h
    · cases h
      exact .inl ⟨rfl, fun ids hids => (Except.ok.inj hids).symm⟩
    · rename_i hlegacy
      split at h
      · cases h
        exact .inl ⟨rfl, fun ids hids => by cases hids⟩
      · rename_i legacyPath hpath
        generalize hread' : readAllowFromStateForPath host c legacyPath sameLegacy between = legacyRead at h
        obtain ⟨legacyEntries, after⟩ := legacyRead
        cases h
        exact .inr ⟨legacyPath, legacyEntries, by simpa using hlegacy, hpath, hread', rfl⟩

theorem step_sourced {e : ChannelEvent} {h : ChannelHistory} (hs : SourcedStore host channel accountId h)
    (hapart : KeepsApart host channel accountId e h) :
    SourcedStore host channel accountId
      ⟨e.after host h.store, h.additions ++ (addition host e h.store).toList⟩ := by
  obtain ⟨now, call⟩ := e
  cases call with
  | upsert params draws =>
    rw [show (addition host ⟨now, .upsert params draws⟩ h.store).toList = [] from rfl, append_nil]
    exact hs.same upsert_lists.1 upsert_lists.2
  | add c entry account =>
    exact hs.update rfl rfl addEntry_mem (fun _ => mem_singleton_self _)
      (hapart (c, account) (mem_singleton_self _)) rfl
  | remove c entry account =>
    exact hs.update rfl rfl removeEntry_mem False.elim (hapart (c, account) (mem_singleton_self _)) rfl
  | approve c code account =>
    generalize hresult : approveChannelPairingCode host c code account now h.store = result
    obtain ⟨result, next⟩ := result
    have hafter : ChannelEvent.after host ⟨now, .approve c code account⟩ h.store = next := by
      simp only [ChannelEvent.after, hresult]
    rw [hafter]
    rcases approve_lists hresult with ⟨hfiles, hcache⟩ | ⟨entry, update, written, rfl, hfiles, hcache, hadd⟩
    · intro path hopens id hlisted
      exact (hs.same hfiles hcache path hopens id hlisted).append
    · have hadded : addition host ⟨now, .approve c code account⟩ h.store =
          some ⟨c, approvalAccount account entry, entry.id⟩ := by
        simp only [addition, hresult]
      rw [hadded]
      refine hs.update hfiles hcache addEntry_mem (fun _ => mem_singleton_self _) ?_ hadd
      refine hapart (c, approvalAccount account entry) ?_
      simp [targets, hadded]
  | read c account sameScoped sameLegacy =>
    rw [show (addition host ⟨now, .read c account sameScoped sameLegacy⟩ h.store).toList = [] from rfl,
      append_nil]
    generalize hresult : readChannelAllowFromStore host c account sameScoped sameLegacy h.store = result
    obtain ⟨result, next⟩ := result
    have hafter : ChannelEvent.after host ⟨now, .read c account sameScoped sameLegacy⟩ h.store = next := by
      simp only [ChannelEvent.after, hresult]
    rw [hafter]
    rcases read_cases hresult with ⟨rfl, _⟩ | ⟨scopedPath, entries, between, hscoped, hread, hrest⟩
    · exact hs
    · have hbetween : SourcedStore host channel accountId { h with store := between } :=
        hs.readPath (fun hopens => (hapart (c, some (resolveAllowFromAccountId host account))
          mem_cons_self scopedPath hscoped hopens).1) hread
      rcases hrest with ⟨rfl, _⟩ | ⟨legacyPath, legacyEntries, hinclude, hlegacy, hread', _⟩
      · exact hbetween
      · refine @SourcedStore.readPath _ _ _ { h with store := between } hbetween _ _ _ _ _ (fun hopens => ?_) hread'
        refine (hapart (c, none) ?_ legacyPath hlegacy hopens).1
        simp [targets, hinclude]

/-! ### Runs -/

/-- Along every run in which no operation opens a file of a channel and account for another one,
each id that a read of them returns was added or approved for that channel and account. -/
theorem allowed_ids_sourced {events : List ChannelEvent} {h : ChannelHistory}
    (hrun : (channelPairing host).run events {} = some h)
    (hapart : (channelPairing host).Within (KeepsApart host channel accountId) events {})
    {sameScoped sameLegacy : Bool} {ids : List String}
    (hread : (readChannelAllowFromStore host channel accountId sameScoped sameLegacy h.store).1 = .ok ids) :
    ∀ id ∈ ids, Sourced host channel accountId h.additions id := by
  have hempty : SourcedStore host channel accountId {} := by
    rintro path _ id (⟨_, hget, _⟩ | ⟨_, hget, _⟩) <;> cases hget
  have hs : SourcedStore host channel accountId h := (channelPairing host).run_within_invariant
    (fun _ _ _ hs hc he => Option.some.inj he ▸ step_sourced hs hc) events hempty hapart hrun
  generalize hresult : readChannelAllowFromStore host channel accountId sameScoped sameLegacy h.store = result at hread
  obtain ⟨result, next⟩ := result
  obtain rfl : result = .ok ids := hread
  have hown : SameChannel host channel channel := rfl
  rcases read_cases hresult with ⟨_, _, hids⟩ | ⟨scopedPath, entries, between, hscoped, hread, hrest⟩
  · cases hids
  · have hscopedIds : ∀ id ∈ entries, Sourced host channel accountId h.additions id :=
      fun id hid => hs.normal (.inl hscoped) hown ((readPath_listed hread).1 id hid)
    rcases hrest with ⟨_, hids⟩ | ⟨legacyPath, legacyEntries, hinclude, hlegacy, hread', hids⟩
    · rw [hids ids rfl]
      exact hscopedIds
    · cases hids
      have hbetween : SourcedStore host channel accountId { h with store := between } :=
        hs.readPath (fun _ => hown) hread
      have hlegacyIds : ∀ id ∈ legacyEntries, Sourced host channel accountId h.additions id :=
        fun id hid => hbetween.normal (.inr ⟨hinclude, hlegacy⟩) hown ((readPath_listed hread').1 id hid)
      intro id hid
      obtain ⟨listed, hlisted, htrim⟩ := mem_trimmedSet.mp hid
      have hsourced : Sourced host channel accountId h.additions listed :=
        (mem_append.mp hlisted).elim (hscopedIds listed) (hlegacyIds listed)
      rw [hsourced.trimmed] at htrim
      cases htrim
      exact hsourced

/-! ### Names that keep targets apart -/

/-- The channel has no hyphen, and neither id has a character that is replaced. -/
structure PlainTarget (host : ChannelHost) (target : Target) : Prop where
  channel : sanitizeName (host.toLowerCase (trim target.1)) = host.toLowerCase (trim target.1)
  account : trim (target.2.getD "") ≠ "" →
    sanitizeName (host.toLowerCase (trim (target.2.getD ""))) = host.toLowerCase (trim (target.2.getD ""))
  hyphen : '-' ∉ (host.toLowerCase (trim target.1)).toList

theorem safeKey_ok {error value key : String} (h : safeKey host error value = .ok key) :
    key = sanitizeName (host.toLowerCase (trim value)) := by
  simp only [safeKey] at h
  split at h
  · cases h
  · split at h
    · cases h
    · exact (Except.ok.inj h).symm

/-- The name of a plain target: its channel up to the first hyphen, then its account if it has one. -/
theorem allowFromPath_plain {target : Target} {path : String} (hplain : PlainTarget host target)
    (h : resolveAllowFromPath host target.1 target.2 = .ok path) :
    path.toList = (host.toLowerCase (trim target.1)).toList ++ '-' ::
      ((if trim (target.2.getD "") = "" then [] else (host.toLowerCase (trim (target.2.getD ""))).toList ++ ['-']) ++
        "allowFrom.json".toList) := by
  simp only [resolveAllowFromPath] at h
  split at h
  · cases h
  · rename_i base hbase
    have hchannel := (safeKey_ok hbase).trans hplain.channel
    split at h
    · rename_i hblank
      cases h
      rw [if_pos hblank, String.toList_append, hchannel]
      rfl
    · rename_i hnonblank
      obtain ⟨account, haccount, rfl⟩ : ∃ account, safeAccountKey host (trim (target.2.getD "")) = .ok account ∧
          base ++ "-" ++ account ++ "-allowFrom.json" = path := by
        cases hkey : safeAccountKey host (trim (target.2.getD "")) with
        | error error =>
          rw [hkey] at h
          cases h
        | ok account =>
          rw [hkey] at h
          exact ⟨account, rfl, Except.ok.inj h⟩
      have hname := safeKey_ok haccount
      rw [trim_trim, hplain.account hnonblank] at hname
      rw [if_neg hnonblank, hname, hchannel]
      simp

/-- What stands before the first separator is the same in equal texts. -/
theorem append_cons_inj_of_first {a : Char} : ∀ {x x' z z' : List Char}, a ∉ x → a ∉ x' →
    x ++ a :: z = x' ++ a :: z' → x = x' ∧ z = z'
  | [], [], _, _, _, _, h => ⟨rfl, (List.cons.inj h).2⟩
  | [], b :: x', _, _, _, hx', h => absurd ((List.cons.inj h).1 ▸ List.mem_cons_self) hx'
  | b :: x, [], _, _, hx, _, h => absurd ((List.cons.inj h).1 ▸ List.mem_cons_self) hx
  | b :: x, b' :: x', _, _, hx, hx', h => by
    obtain ⟨rfl, htail⟩ := List.cons.inj h
    obtain ⟨rfl, hz⟩ := append_cons_inj_of_first (not_mem_of_not_mem_cons hx)
      (not_mem_of_not_mem_cons hx') htail
    exact ⟨rfl, hz⟩

/-- Plain targets with one file name are one channel and one account. -/
theorem allowFromPath_inj {target other : Target} {path : String} (hplain : PlainTarget host target)
    (hplain' : PlainTarget host other) (h : resolveAllowFromPath host target.1 target.2 = .ok path)
    (h' : resolveAllowFromPath host other.1 other.2 = .ok path) :
    SameChannel host target.1 other.1 ∧
      ((trim (target.2.getD "") = "" ∧ trim (other.2.getD "") = "") ∨
        (trim (target.2.getD "") ≠ "" ∧ trim (other.2.getD "") ≠ "" ∧
          normalizePairingAccountId host target.2 = normalizePairingAccountId host other.2)) := by
  have hpath := (allowFromPath_plain hplain h).symm.trans (allowFromPath_plain hplain' h')
  obtain ⟨hbase, hrest⟩ := append_cons_inj_of_first hplain.hyphen hplain'.hyphen hpath
  have haccount := append_cancel_right hrest
  refine ⟨String.toList_inj.mp hbase, ?_⟩
  by_cases hblank : trim (target.2.getD "") = "" <;> by_cases hblank' : trim (other.2.getD "") = ""
  · exact .inl ⟨hblank, hblank'⟩
  · rw [if_pos hblank, if_neg hblank'] at haccount
    simp at haccount
  · rw [if_neg hblank, if_pos hblank'] at haccount
    simp at haccount
  · rw [if_neg hblank, if_neg hblank'] at haccount
    exact .inr ⟨hblank, hblank', String.toList_inj.mp (append_cancel_right haccount)⟩

/-- A run over plain targets keeps them apart. -/
theorem keepsApart_of_plain {e : ChannelEvent} {h : ChannelHistory}
    (hread : PlainTarget host (channel, some (resolveAllowFromAccountId host accountId)))
    (hnonblank : trim (resolveAllowFromAccountId host accountId) ≠ "")
    (hlower : normalizePairingAccountId host (some (resolveAllowFromAccountId host accountId)) =
      resolveAllowFromAccountId host accountId)
    (hplain : ∀ target ∈ targets host e h.store, PlainTarget host target) :
    KeepsApart host channel accountId e h := by
  rintro target htarget path hpath (hscoped | ⟨hinclude, hlegacy⟩)
  · obtain ⟨hsame, ⟨_, hblank⟩ | ⟨hne, _, haccount⟩⟩ :=
      allowFromPath_inj (hplain target htarget) hread hpath hscoped
    · exact absurd hblank hnonblank
    · exact ⟨hsame, by rw [if_neg hne]; exact haccount.trans hlower⟩
  · have hunscoped : PlainTarget host (channel, none) := ⟨hread.channel, fun hne => absurd rfl hne, hread.hyphen⟩
    obtain ⟨hsame, ⟨hblank, _⟩ | ⟨_, hne, _⟩⟩ := allowFromPath_inj (hplain target htarget) hunscoped hpath hlegacy
    · refine ⟨hsame, ?_⟩
      rw [if_pos hblank]
      rcases Bool.or_eq_true _ _ ▸ hinclude with he | he
      · rw [eq_of_beq he] at hnonblank
        exact absurd rfl hnonblank
      · exact eq_of_beq he
    · exact absurd rfl hne

/-! ### A name shared -/

/-- A host that knows ASCII letters and has no adapters. -/
def asciiHost : ChannelHost where
  toLowerCase s := String.ofList (s.toList.map lowerAscii)
  toUpperCase s := String.ofList (s.toList.map fun c => if 'a' ≤ c ∧ c ≤ 'z' then Char.ofNat (c.toNat - 32) else c)
  normalizeAllowEntry _ := none

/-- A sender allowed for the account `work/eu`. -/
def slashRun : List ChannelEvent := [⟨0, .add "signal" "+4915" (some "work/eu")⟩]

/-- Allowed for `work/eu`, a sender is allowed for `work_eu` too. -/
theorem shared_name_leaks : ∃ h, (channelPairing asciiHost).run slashRun {} = some h ∧
    (readChannelAllowFromStore asciiHost "signal" (some "work_eu") true true h.store).1.toOption = some ["+4915"] ∧
    ¬ Sourced asciiHost "signal" (some "work_eu") h.additions "+4915" := by
  refine ⟨_, rfl, by decide +kernel, ?_⟩
  rintro ⟨a, ha, ⟨_, haccount⟩, _⟩
  obtain rfl : a = ⟨"signal", some "work/eu", "+4915"⟩ := mem_singleton.mp ha
  exact absurd haccount (by decide)

/-- Allowed for ` Work `, read for `work`. -/
def spacedRun : List ChannelEvent := [⟨0, .add "Signal" "+4915" (some " Work ")⟩]

def spacedHistory : ChannelHistory :=
  ⟨(addChannelAllowFromStoreEntry asciiHost "Signal" "+4915" (some " Work ") {}).2,
    [⟨"Signal", some " Work ", "+4915"⟩]⟩

theorem spaced_account_sourced :
    Sourced asciiHost "signal" (some "work") spacedHistory.additions "+4915" := by
  have hread : (readChannelAllowFromStore asciiHost "signal" (some "work") true true spacedHistory.store).1.toOption =
      some ["+4915"] := by decide +kernel
  have hok : (readChannelAllowFromStore asciiHost "signal" (some "work") true true spacedHistory.store).1 =
      .ok ["+4915"] := by
    cases hres : (readChannelAllowFromStore asciiHost "signal" (some "work") true true spacedHistory.store).1 with
    | error error =>
      rw [hres] at hread
      cases hread
    | ok ids =>
      rw [hres] at hread
      exact congrArg Except.ok (Option.some.inj hread)
  refine allowed_ids_sourced (show (channelPairing asciiHost).run spacedRun {} = some spacedHistory from rfl)
    ⟨keepsApart_of_plain ⟨by decide +kernel, fun _ => by decide +kernel, by decide +kernel⟩ (by decide +kernel)
      (by decide) ?_, fun _ _ => trivial⟩ hok "+4915" (mem_singleton_self _)
  intro target htarget
  obtain rfl : target = ("Signal", some " Work ") := mem_singleton.mp htarget
  exact ⟨by decide, fun _ => by decide, by decide⟩

end OpenClaw.Pairing
