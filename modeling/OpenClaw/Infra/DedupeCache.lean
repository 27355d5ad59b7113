import Mathlib.Data.List.Induction
import Mathlib.Data.Finset.Dedup
import Mathlib.Data.Finset.Order
import Mathlib.Data.Rat.Floor
import Mathlib.Tactic.Linarith
import OpenClaw.Foundation.InsertionMap

/-! The dedupe cache against its purpose: a set of recent keys.

The cache is a map from key to the time of its last touch, kept in the order of
the touches. What a caller may rely on is said over the history of calls alone:
a key is remembered while its last touch is younger than the time to live and,
at every moment since, fewer keys than the limit were touched after it and still
held (`Remembered`). Keys deleted in between leave room, so the count is of held
keys and not of all keys seen (`deleted_key_leaves_room`). -/
namespace OpenClaw.Infra
open Foundation List InsertionMap

structure DedupeCacheOptions where
  ttlMs : ℚ
  maxSize : ℚ

abbrev Cache := InsertionMap String ℚ

inductive Call
  | check (key : Option String) (now : ℚ)
  | peek (key : Option String) (now : ℚ)
  | delete (key : Option String)
  | clear

/-- `!key`: neither a missing key nor the empty one is looked at. -/
def named (key : Option String) : Option String := key.filter (· ≠ "")

namespace DedupeCacheOptions
variable (o : DedupeCacheOptions)

def ttl : ℚ := max 0 o.ttlMs

def limit : Nat := (max 0 ⌊o.maxSize⌋).toNat

end DedupeCacheOptions

def touch (key : String) (now : ℚ) (cache : Cache) : Cache := (cache.erase key).set key now

/-- The loop of `pruneMapToMaxSize`: the oldest entry goes while there are too many. -/
def dropOldest (limit : Nat) : List (String × ℚ) → List (String × ℚ)
  | [] => []
  | e :: rest => if (e :: rest).length > limit then dropOldest limit rest else e :: rest

variable (limit : Nat) (l : List (String × ℚ))

theorem dropOldest_eq_drop :
    dropOldest limit l = l.drop (l.length - limit) := by
  induction l with
  | nil => simp [dropOldest]
  | cons e rest ih =>
    rw [dropOldest]
    split
    · rename_i h
      have hcount : (e :: rest).length - limit = rest.length - limit + 1 := by
        simp only [length_cons] at h ⊢
        omega
      rw [ih, hcount, drop_succ_cons]
    · rename_i h
      rw [Nat.sub_eq_zero_of_le (Nat.le_of_not_lt h), drop_zero]

def pruneMapToMaxSize (cache : Cache) : Cache :=
  ⟨dropOldest limit cache.entries, by
    rw [dropOldest_eq_drop]
    exact cache.nodup.sublist ((List.drop_sublist _ _).map Prod.fst)⟩

def prune (o : DedupeCacheOptions) (now : ℚ) (cache : Cache) : Cache :=
  let kept := if 0 < o.ttl then cache.keepValues fun t => !(t < now - o.ttl) else cache
  if o.limit = 0 then ∅ else pruneMapToMaxSize o.limit kept

def hasUnexpired (o : DedupeCacheOptions) (key : String) (now : ℚ) (touchOnRead : Bool)
    (cache : Cache) : Bool × Cache :=
  match cache.get? key with
  | none => (false, cache)
  | some existing =>
    if 0 < o.ttl ∧ o.ttl ≤ now - existing then (false, cache.erase key)
    else (true, if touchOnRead then touch key now cache else cache)

/-- One call: what it answers and the cache it leaves. -/
def perform (o : DedupeCacheOptions) (cache : Cache) : Call → Bool × Cache
  | .check key now =>
    match named key with
    | none => (false, cache)
    | some k =>
      match hasUnexpired o k now true cache with
      | (true, found) => (true, found)
      | (false, missed) => (false, prune o now (touch k now missed))
  | .peek key now =>
    match named key with
    | none => (false, cache)
    | some k => hasUnexpired o k now false cache
  | .delete key =>
    match named key with
    | none => (false, cache)
    | some k => (false, cache.erase k)
  | .clear => (false, ∅)

def answer (o : DedupeCacheOptions) (cache : Cache) (call : Call) : Bool := (perform o cache call).1

def run (o : DedupeCacheOptions) (calls : List Call) : Cache :=
  calls.foldl (fun cache call => (perform o cache call).2) ∅

/-! ### The history -/

inductive Event
  | touch (key : String) (time : ℚ)
  | drop (key : String)
  | clear
  deriving DecidableEq

/-- A check touches its key, found or not; a peek leaves no trace. -/
def Call.events : Call → List Event
  | .check key now => (named key).toList.map (.touch · now)
  | .peek _ _ => []
  | .delete key => (named key).toList.map .drop
  | .clear => [.clear]

def events (calls : List Call) : List Event := calls.flatMap Call.events

def Call.time? : Call → Option ℚ
  | .check _ now => some now
  | .peek _ now => some now
  | _ => none

def InOrder (calls : List Call) : Prop := (calls.filterMap Call.time?).Pairwise (· ≤ ·)

/-- Events that touch a key anew or forget it. -/
def Event.About (k : String) : Event → Prop
  | .touch x _ => x = k
  | .drop x => x = k
  | .clear => True

/-- The keys held at the end of a history, the last touched last. -/
def Event.hold (held : List String) : Event → List String
  | .touch x _ => held.filter (· ≠ x) ++ [x]
  | .drop x => held.filter (· ≠ x)
  | .clear => []

def heldBy (evs : List Event) : List String := evs.foldl Event.hold []

/-- The last touch of `k` was at `t`, the keys held since are `held`, and they
were never as many as the limit. -/
def HeldSince (evs : List Event) (k : String) (t : ℚ) (held : List String) : Prop :=
  ∃ before after, evs = before ++ .touch k t :: after ∧ (∀ e ∈ after, ¬ e.About k) ∧ held = heldBy after ∧
    ∀ p, p <+: after → (heldBy p).length < limit

def Remembered (o : DedupeCacheOptions) (evs : List Event) (k : String) (now : ℚ) : Prop :=
  ∃ t held, HeldSince o.limit evs k t held ∧ now - t < o.ttl

theorem heldBy_snoc (evs : List Event) (e : Event) : heldBy (evs ++ [e]) = e.hold (heldBy evs) := by
  simp [heldBy]

/-- One more event: a touch of the key starts over, any other keeps the touch
while the keys held stay below the limit. -/
theorem heldSince_snoc (evs : List Event) (e : Event) (k : String) (t : ℚ) (held : List String) :
    HeldSince limit (evs ++ [e]) k t held ↔
      (e = .touch k t ∧ held = [] ∧ 0 < limit) ∨
        (¬ e.About k ∧ held.length < limit ∧
          ∃ earlier, HeldSince limit evs k t earlier ∧ held = e.hold earlier) := by
  constructor
  · rintro ⟨before, after, heq, quiet, rfl, small⟩
    rcases eq_nil_or_concat after with rfl | ⟨after, e', rfl⟩
    · obtain ⟨-, he⟩ := append_inj' heq rfl
      exact .inl ⟨head_eq_of_cons_eq he, rfl, small [] (prefix_refl _)⟩
    · rw [concat_eq_append, ← cons_append, ← append_assoc] at heq
      obtain ⟨rfl, he⟩ := append_inj' heq rfl
      obtain rfl := head_eq_of_cons_eq he
      simp only [concat_eq_append] at quiet small ⊢
      refine .inr ⟨quiet e (by simp), small _ (prefix_refl _), heldBy after, ⟨before, after, rfl, ?_, rfl, ?_⟩,
        heldBy_snoc after e⟩
      · exact fun e' he' => quiet e' (mem_append_left _ he')
      · exact fun p hp => small p (hp.trans (prefix_append _ _))
  · rintro (⟨rfl, rfl, hpos⟩ | ⟨hquiet, hsmall, _, ⟨before, after, rfl, quiet, rfl, small⟩, rfl⟩)
    · refine ⟨evs, [], rfl, by simp, rfl, fun p hp => ?_⟩
      rw [prefix_nil.mp hp]
      exact hpos
    · refine ⟨before, after ++ [e], by simp, ?_, (heldBy_snoc after e).symm, fun p hp => ?_⟩
      · intro e' he'
        rcases mem_append.mp he' with he' | he'
        · exact quiet e' he'
        · rw [mem_singleton.mp he']
          exact hquiet
      · rcases prefix_concat_iff.mp hp with rfl | hp
        · rw [heldBy_snoc]
          exact hsmall
        · exact small p hp

theorem heldSince_nil (k : String) (t : ℚ) (held : List String) : ¬ HeldSince limit [] k t held := by
  rintro ⟨before, after, heq, -⟩
  simp at heq

variable {k : String} {t : ℚ}

/-! ### Positions in the map -/

/-- `k` stands in the entries with time `t`, and `later` are the keys after it. -/
def StandsBefore (k : String) (t : ℚ) (later : List String) : Prop :=
  ∃ pre post, l = pre ++ (k, t) :: post ∧ post.map Prod.fst = later

theorem StandsBefore.length_lt {l : List (String × ℚ)} {later : List String} (h : StandsBefore l k t later) :
    later.length < l.length := by
  obtain ⟨pre, post, rfl, rfl⟩ := h
  simp only [length_append, length_cons, length_map]
  omega

theorem exists_standsBefore (k : String) (t : ℚ) :
    (∃ later, StandsBefore l k t later) ↔ (k, t) ∈ l := by
  constructor
  · rintro ⟨_, pre, post, rfl, -⟩
    simp
  · intro h
    obtain ⟨pre, post, rfl⟩ := append_of_mem h
    exact ⟨_, pre, post, rfl, rfl⟩

theorem standsBefore_drop (n : Nat) (k : String) (t : ℚ) (later : List String) :
    StandsBefore (l.drop n) k t later ↔ StandsBefore l k t later ∧ later.length < l.length - n := by
  constructor
  · intro h
    have hlen := h.length_lt
    rw [length_drop] at hlen
    obtain ⟨pre, post, heq, rfl⟩ := h
    exact ⟨⟨l.take n ++ pre, post, by rw [append_assoc, ← heq, take_append_drop], rfl⟩, hlen⟩
  · rintro ⟨⟨pre, post, rfl, rfl⟩, hlen⟩
    simp only [length_append, length_cons, length_map] at hlen
    exact ⟨pre.drop n, post, drop_append_of_le_length (by omega), rfl⟩

/-- A filter that keeps the entry and everything after it moves nothing there. -/
theorem standsBefore_filter (p : String × ℚ → Bool) {l : List (String × ℚ)} (sorted : l.Pairwise (·.2 ≤ ·.2))
    (keeps : ∀ e ∈ l, t ≤ e.2 → p e = true) (later : List String) :
    StandsBefore (l.filter p) k t later ↔ StandsBefore l k t later := by
  constructor
  · rintro ⟨pre, post, heq, rfl⟩
    obtain ⟨l₁, l₂, rfl, -, hl₂⟩ := filter_eq_append_iff.mp heq
    obtain ⟨gone, rest, rfl, -, -, hrest⟩ := filter_eq_cons_iff.mp hl₂
    have hall : rest.filter p = rest := filter_eq_self.mpr fun e he => by
      have hle := (pairwise_cons.mp (pairwise_append.mp (pairwise_append.mp sorted).2.1).2.1).1 e he
      exact keeps e (by simp [he]) hle
    exact ⟨l₁ ++ gone, rest, by simp, by rw [← hrest, hall]⟩
  · rintro ⟨pre, post, rfl, rfl⟩
    have hafter := pairwise_cons.mp (pairwise_append.mp sorted).2.1
    refine ⟨pre.filter p, post, ?_, rfl⟩
    rw [filter_append, filter_cons_of_pos (keeps _ (by simp) le_rfl),
      filter_eq_self.mpr fun e he => keeps e (by simp [he]) (hafter.1 e he)]

theorem standsBefore_erase (x k : String) (t : ℚ) (later : List String) :
    StandsBefore (l.filter (·.1 ≠ x)) k t later ↔
      k ≠ x ∧ ∃ earlier, StandsBefore l k t earlier ∧ later = earlier.filter (· ≠ x) := by
  constructor
  · rintro ⟨pre, post, heq, rfl⟩
    obtain ⟨l₁, l₂, rfl, -, hl₂⟩ := filter_eq_append_iff.mp heq
    obtain ⟨gone, rest, rfl, -, hk, rfl⟩ := filter_eq_cons_iff.mp hl₂
    refine ⟨by simpa using hk, rest.map Prod.fst, ⟨l₁ ++ gone, rest, by simp, rfl⟩, ?_⟩
    rw [filter_map]
    rfl
  · rintro ⟨hk, _, ⟨pre, post, rfl, rfl⟩, rfl⟩
    refine ⟨pre.filter (·.1 ≠ x), post.filter (·.1 ≠ x), by simp [hk], ?_⟩
    rw [filter_map]
    rfl

theorem standsBefore_snoc (x : String) (now : ℚ) (k : String) (t : ℚ) (later : List String) :
    StandsBefore (l ++ [(x, now)]) k t later ↔
      (k = x ∧ t = now ∧ later = []) ∨ ∃ earlier, StandsBefore l k t earlier ∧ later = earlier ++ [x] := by
  constructor
  · rintro ⟨pre, post, heq, rfl⟩
    rcases eq_nil_or_concat post with rfl | ⟨post, e, rfl⟩
    · obtain ⟨-, he⟩ := append_inj' heq rfl
      cases head_eq_of_cons_eq he
      exact .inl ⟨rfl, rfl, rfl⟩
    · rw [concat_eq_append, ← cons_append, ← append_assoc] at heq
      obtain ⟨rfl, he⟩ := append_inj' heq rfl
      cases head_eq_of_cons_eq he
      exact .inr ⟨_, ⟨pre, post, rfl, rfl⟩, by simp⟩
  · rintro (⟨rfl, rfl, rfl⟩ | ⟨_, ⟨pre, post, rfl, rfl⟩, rfl⟩)
    · exact ⟨l, [], rfl, rfl⟩
    · exact ⟨pre, post ++ [(x, now)], by simp, by simp⟩

/-! ### The cache keeps what its history holds -/

/-- The cache after a history, seen at time `now`: in the order of the touches,
no larger than the limit, and every key not yet expired stands before exactly
the keys held since its last touch. -/
structure Tracks (o : DedupeCacheOptions) (cache : Cache) (evs : List Event) (now : ℚ) : Prop where
  sorted : cache.entries.Pairwise (·.2 ≤ ·.2)
  past : ∀ e ∈ cache.entries, e.2 ≤ now
  small : cache.size ≤ o.limit
  held : ∀ k t later, now - t < o.ttl → (StandsBefore cache.entries k t later ↔ HeldSince o.limit evs k t later)

theorem Tracks.empty (o : DedupeCacheOptions) (now : ℚ) : Tracks o ∅ [] now := by
  refine ⟨List.Pairwise.nil, fun e he => absurd he not_mem_nil, Nat.zero_le _, fun k t later _ => ?_⟩
  refine iff_of_false (fun h => ?_) (heldSince_nil _ _ _ _)
  exact absurd h.length_lt (Nat.not_lt_zero _)

variable {o : DedupeCacheOptions} {cache : Cache} {evs : List Event} {now : ℚ}

theorem Tracks.later (h : Tracks o cache evs now) {next : ℚ} (hle : now ≤ next) : Tracks o cache evs next :=
  ⟨h.sorted, fun e he => (h.past e he).trans hle, h.small, fun k t l hfresh => h.held k t l (by linarith)⟩

/-- An expired key may be dropped unseen: every key after it has expired too or
stands before it. -/
theorem Tracks.forgetExpired (h : Tracks o cache evs now) {x : String} {tx : ℚ} (hx : cache.get? x = some tx)
    (old : o.ttl ≤ now - tx) : Tracks o (cache.erase x) evs now := by
  refine ⟨h.sorted.sublist filter_sublist, fun e he => h.past e (mem_filter.mp he).1,
    (cache.size_erase_le x).trans h.small, fun k t l hfresh => ?_⟩
  rw [← h.held k t l hfresh]
  refine standsBefore_filter _ h.sorted (fun e he hle => ?_) l
  have hne : e.1 ≠ x := by
    rintro rfl
    have hsame : cache.get? e.1 = some e.2 := (cache.get?_eq_some e.1 e.2).mpr he
    obtain rfl := Option.some.inj (hx.symm.trans hsame)
    linarith
  simpa using hne

theorem Tracks.dropKey (h : Tracks o cache evs now) (x : String) :
    Tracks o (cache.erase x) (evs ++ [.drop x]) now := by
  have hsize := (cache.size_erase_le x).trans h.small
  refine ⟨h.sorted.sublist filter_sublist, fun e he => h.past e (mem_filter.mp he).1, hsize,
    fun k t l hfresh => ?_⟩
  have hlen : StandsBefore (cache.erase x).entries k t l → l.length < o.limit := fun hs =>
    hs.length_lt.trans_le hsize
  rw [heldSince_snoc]
  constructor
  · intro hs
    obtain ⟨hne, earlier, hearlier, rfl⟩ := (standsBefore_erase _ x k t l).mp hs
    exact .inr ⟨Ne.symm hne, hlen hs, earlier, (h.held k t earlier hfresh).mp hearlier, rfl⟩
  · rintro (⟨he, -⟩ | ⟨hne, -, earlier, hearlier, rfl⟩)
    · cases he
    · exact (standsBefore_erase _ x k t _).mpr ⟨Ne.symm hne, earlier, (h.held k t earlier hfresh).mpr hearlier, rfl⟩

theorem Tracks.clear (now : ℚ) : Tracks o ∅ (evs ++ [.clear]) now := by
  refine ⟨List.Pairwise.nil, fun e he => absurd he not_mem_nil, Nat.zero_le _, fun k t l _ => ?_⟩
  rw [heldSince_snoc]
  refine iff_of_false (fun h => absurd h.length_lt (Nat.not_lt_zero _)) ?_
  rintro (⟨he, -⟩ | ⟨hne, -⟩)
  · cases he
  · exact hne trivial

theorem touch_entries (x : String) (now : ℚ) (cache : Cache) :
    (touch x now cache).entries = cache.entries.filter (·.1 ≠ x) ++ [(x, now)] :=
  entries_set_new (by rw [get?_erase, if_pos rfl]) now

theorem touch_erase (x : String) (now : ℚ) (cache : Cache) : touch x now (cache.erase x) = touch x now cache := by
  have h : (cache.erase x).erase x = cache.erase x :=
    erase_of_none (by rw [get?_erase, if_pos rfl])
  rw [touch, h, touch]

section
variable (h : Tracks o cache evs now)
include h

theorem touch_sorted (x : String) :
    (touch x now cache).entries.Pairwise (·.2 ≤ ·.2) ∧ ∀ e ∈ (touch x now cache).entries, e.2 ≤ now := by
  rw [touch_entries]
  constructor
  · refine pairwise_append.mpr ⟨h.sorted.sublist filter_sublist, pairwise_singleton _ _, ?_⟩
    intro e he e' he'
    rw [mem_singleton.mp he']
    exact h.past e (mem_filter.mp he).1
  · intro e he
    rcases mem_append.mp he with he | he
    · exact h.past e (mem_filter.mp he).1
    · rw [mem_singleton.mp he]

/-- After a touch the positions are those of the history, the limit apart. -/
theorem standsBefore_touch (hpos : 0 < o.limit) (x : String) {later : List String} (hfresh : now - t < o.ttl) :
    StandsBefore (touch x now cache).entries k t later ∧ later.length < o.limit ↔
      HeldSince o.limit (evs ++ [.touch x now]) k t later := by
  rw [heldSince_snoc, touch_entries, standsBefore_snoc]
  simp only [standsBefore_erase]
  constructor
  · rintro ⟨⟨rfl, rfl, rfl⟩ | ⟨_, ⟨hne, earlier, hs, rfl⟩, rfl⟩, hlen⟩
    · exact .inl ⟨rfl, rfl, hpos⟩
    · exact .inr ⟨Ne.symm hne, hlen, earlier, (h.held k t earlier hfresh).mp hs, rfl⟩
  · rintro (⟨he, rfl, hpos⟩ | ⟨hne, hlen, earlier, hs, rfl⟩)
    · cases he
      exact ⟨.inl ⟨rfl, rfl, rfl⟩, hpos⟩
    · exact ⟨.inr ⟨_, ⟨Ne.symm hne, earlier, (h.held k t earlier hfresh).mpr hs, rfl⟩, rfl⟩, hlen⟩

/-- A hit: the key is there already, so the cache does not grow. -/
theorem Tracks.hit (hpos : 0 < o.limit) {x : String} {tx : ℚ} (hx : cache.get? x = some tx) :
    Tracks o (touch x now cache) (evs ++ [.touch x now]) now := by
  have hsize : (touch x now cache).size ≤ o.limit := by
    have hlt := size_erase_lt hx
    have hset : (touch x now cache).size = (cache.erase x).size + 1 :=
      size_set_new (by rw [get?_erase, if_pos rfl]) now
    have := h.small
    omega
  obtain ⟨hsorted, hpast⟩ := touch_sorted h x
  refine ⟨hsorted, hpast, hsize, fun k t l hfresh => ?_⟩
  rw [← standsBefore_touch h hpos x hfresh]
  exact ⟨fun hs => ⟨hs, hs.length_lt.trans_le hsize⟩, And.left⟩

/-- A miss: what has expired goes first, then the oldest beyond the limit. -/
theorem Tracks.miss (httl : 0 < o.ttl) (hpos : 0 < o.limit) (x : String) :
    Tracks o (prune o now (touch x now cache)) (evs ++ [.touch x now]) now := by
  obtain ⟨hsorted, hpast⟩ := touch_sorted h x
  let fresh : Cache := (touch x now cache).keepValues fun t => !(t < now - o.ttl)
  have hfreshSorted : fresh.entries.Pairwise (·.2 ≤ ·.2) := hsorted.sublist filter_sublist
  have hentries : (prune o now (touch x now cache)).entries = fresh.entries.drop (fresh.size - o.limit) := by
    rw [prune, if_neg (Nat.ne_of_gt hpos), if_pos httl]
    exact dropOldest_eq_drop _ _
  refine ⟨?_, ?_, ?_, fun k t l hfresh => ?_⟩
  · rw [hentries]
    exact hfreshSorted.sublist (drop_sublist _ _)
  · rw [hentries]
    exact fun e he => hpast e (mem_filter.mp (mem_of_mem_drop he)).1
  · rw [InsertionMap.size, hentries, length_drop, InsertionMap.size]
    omega
  · have hstands : StandsBefore fresh.entries k t l ↔ StandsBefore (touch x now cache).entries k t l := by
      refine standsBefore_filter _ hsorted (fun e _ hle => ?_) l
      have : ¬ e.2 < now - o.ttl := by linarith
      simpa using this
    rw [← standsBefore_touch h hpos x hfresh, ← hstands, hentries, standsBefore_drop]
    refine and_congr_right fun hs => ?_
    have := hs.length_lt
    rw [InsertionMap.size]
    omega

end

/-! ### Runs -/

theorem hasUnexpired_fst (o : DedupeCacheOptions) (httl : 0 < o.ttl) (k : String) (now : ℚ) (b : Bool) (cache : Cache) :
    (hasUnexpired o k now b cache).1 = true ↔ ∃ t, cache.get? k = some t ∧ now - t < o.ttl := by
  unfold hasUnexpired
  cases hk : cache.get? k with
  | none => simp
  | some t =>
    by_cases hold : o.ttl ≤ now - t
    · simp [httl, hold]
    · simp [hold, not_le.mp hold]

theorem perform_tracks (httl : 0 < o.ttl) (hpos : 0 < o.limit) (h : Tracks o cache evs now) (call : Call)
    (hnow : ∀ t, call.time? = some t → t = now) :
    Tracks o (perform o cache call).2 (evs ++ call.events) now := by
  cases call with
  | check key time =>
    obtain rfl := hnow time rfl
    cases hkey : named key with
    | none => simpa [perform, Call.events, hkey] using h
    | some k =>
      simp only [perform, Call.events, hkey, Option.toList_some, map_cons, map_nil]
      cases hk : cache.get? k with
      | none =>
        simp only [hasUnexpired, hk]
        exact h.miss httl hpos k
      | some t =>
        by_cases hold : o.ttl ≤ time - t
        · -- the expired entry is deleted, and the touch would have deleted it anyway
          simp only [hasUnexpired, hk, httl, hold, and_self, if_true]
          rw [touch_erase]
          exact h.miss httl hpos k
        · simp only [hasUnexpired, hk, hold, and_false, if_false, if_true]
          exact h.hit hpos hk
  | peek key time =>
    obtain rfl := hnow time rfl
    rw [Call.events, append_nil]
    cases hkey : named key with
    | none => simpa [perform, hkey] using h
    | some k =>
      simp only [perform, hkey, hasUnexpired]
      cases hk : cache.get? k with
      | none => exact h
      | some t =>
        by_cases hold : o.ttl ≤ time - t
        · simpa only [httl, hold, and_self, if_true] using h.forgetExpired hk hold
        · simpa [hold] using h
  | delete key =>
    cases hkey : named key with
    | none => simpa [perform, Call.events, hkey] using h
    | some k => simpa [perform, Call.events, hkey] using h.dropKey k
  | clear => exact Tracks.clear now

theorem events_snoc (calls : List Call) (call : Call) : events (calls ++ [call]) = events calls ++ call.events := by
  simp [events]

theorem run_snoc (o : DedupeCacheOptions) (calls : List Call) (call : Call) :
    run o (calls ++ [call]) = (perform o (run o calls) call).2 := by
  simp [run]

theorem InOrder.snoc {calls : List Call} {call : Call} (h : InOrder (calls ++ [call])) :
    InOrder calls ∧ ∀ t, call.time? = some t → ∀ s ∈ calls.filterMap Call.time?, s ≤ t := by
  rw [InOrder, filterMap_append, pairwise_append] at h
  exact ⟨h.1, fun t ht s hs => h.2.2 s hs t (by simp [ht])⟩

/-- Every run at non-decreasing times keeps the cache in step with its history. -/
theorem run_tracks (httl : 0 < o.ttl) (hpos : 0 < o.limit) (calls : List Call) (hcalls : InOrder calls) (now : ℚ)
    (hnow : ∀ t ∈ calls.filterMap Call.time?, t ≤ now) : Tracks o (run o calls) (events calls) now := by
  induction calls using List.reverseRecOn generalizing now with
  | nil => exact Tracks.empty o now
  | append_singleton calls call ih =>
    obtain ⟨hbefore, hlast⟩ := hcalls.snoc
    rw [run_snoc, events_snoc]
    have hcall : ∀ t, call.time? = some t → t ≤ now := fun t ht => hnow t (by simp [ht])
    cases ht : call.time? with
    | none =>
      have hall : ∀ t ∈ calls.filterMap Call.time?, t ≤ now := fun t h => hnow t (by simp [filterMap_append, h])
      exact perform_tracks httl hpos (ih hbefore now hall) call (by simp [ht])
    | some t =>
      refine Tracks.later ?_ (hcall t ht)
      exact perform_tracks httl hpos (ih hbefore t (hlast t ht)) call fun s hs => by simpa [ht] using hs.symm

theorem hasUnexpired_iff (httl : 0 < o.ttl) (h : Tracks o cache evs now) (k : String) (b : Bool) :
    (hasUnexpired o k now b cache).1 = true ↔ Remembered o evs k now := by
  rw [hasUnexpired_fst o httl]
  constructor
  · rintro ⟨t, hk, hfresh⟩
    obtain ⟨later, hs⟩ := (exists_standsBefore _ k t).mpr ((cache.get?_eq_some k t).mp hk)
    exact ⟨t, later, (h.held k t later hfresh).mp hs, hfresh⟩
  · rintro ⟨t, later, hheld, hfresh⟩
    have hk := (exists_standsBefore _ k t).mp ⟨later, (h.held k t later hfresh).mpr hheld⟩
    exact ⟨t, (cache.get?_eq_some k t).mpr hk, hfresh⟩

/-- The key and the time a call asks about: only checks and peeks of a real key ask. -/
def Call.asks : Call → Option (String × ℚ)
  | .check key now => (named key).map (·, now)
  | .peek key now => (named key).map (·, now)
  | _ => none

theorem answer_eq (o : DedupeCacheOptions) (cache : Cache) (call : Call) :
    ∃ b, answer o cache call = call.asks.any fun q => (hasUnexpired o q.1 q.2 b cache).1 := by
  cases call with
  | check key now =>
    refine ⟨true, ?_⟩
    simp only [answer, perform, Call.asks]
    cases named key with
    | none => rfl
    | some k => cases h : hasUnexpired o k now true cache with | mk found left => cases found <;> simp [h]
  | peek key now =>
    refine ⟨false, ?_⟩
    simp only [answer, perform, Call.asks]
    cases named key <;> simp
  | delete key =>
    refine ⟨false, ?_⟩
    simp only [answer, perform, Call.asks]
    cases named key <;> rfl
  | clear => exact ⟨false, rfl⟩

theorem answer_iff (httl : 0 < o.ttl) (hpos : 0 < o.limit) (calls : List Call) (call : Call)
    (hcalls : InOrder (calls ++ [call])) :
    answer o (run o calls) call = true ↔ ∃ k now, call.asks = some (k, now) ∧ Remembered o (events calls) k now := by
  obtain ⟨hbefore, hlast⟩ := hcalls.snoc
  obtain ⟨b, hb⟩ := answer_eq o (run o calls) call
  rw [hb, Option.any_eq_true]
  constructor
  · rintro ⟨⟨k, now⟩, hasks, hfound⟩
    have htime : call.time? = some now := by cases call <;> simp_all [Call.asks, Call.time?]
    have h := run_tracks httl hpos calls hbefore now (hlast now htime)
    exact ⟨k, now, hasks, (hasUnexpired_iff httl h k b).mp hfound⟩
  · rintro ⟨k, now, hasks, hrem⟩
    have htime : call.time? = some now := by cases call <;> simp_all [Call.asks, Call.time?]
    have h := run_tracks httl hpos calls hbefore now (hlast now htime)
    exact ⟨(k, now), hasks, (hasUnexpired_iff httl h k b).mpr hrem⟩

/-- An answer depends on the history's events, in which a peek leaves nothing. -/
theorem answer_without_peek (httl : 0 < o.ttl) (hpos : 0 < o.limit) (before after : List Call) (key : Option String)
    (time : ℚ) (call : Call) (hcalls : InOrder (before ++ .peek key time :: after ++ [call])) :
    answer o (run o (before ++ .peek key time :: after)) call = answer o (run o (before ++ after)) call := by
  have hwithout : InOrder (before ++ after ++ [call]) := by
    refine List.Pairwise.sublist (List.Sublist.filterMap _ ?_) hcalls
    exact List.Sublist.append_right (List.Sublist.append_left (sublist_cons_self _ _) _) _
  have hevents : events (before ++ .peek key time :: after) = events (before ++ after) := by
    simp [events, Call.events]
  rw [Bool.eq_iff_iff, answer_iff httl hpos _ call hcalls, answer_iff httl hpos _ call hwithout, hevents]

/-- The dedupe cache is a set of recent keys, bounded in time and in number. -/
theorem answers_remembered (o : DedupeCacheOptions) (httl : 0 < o.ttlMs) (hsize : 1 ≤ o.maxSize) (calls : List Call)
    (hcalls : InOrder calls) :
    (∀ call, InOrder (calls ++ [call]) →
      (answer o (run o calls) call = true ↔
        ∃ k now, call.asks = some (k, now) ∧ Remembered o (events calls) k now)) ∧
    (∀ before after key time call, calls = before ++ .peek key time :: after → InOrder (calls ++ [call]) →
      answer o (run o calls) call = answer o (run o (before ++ after)) call) ∧
    (∀ call k now, InOrder (calls ++ [call]) → answer o (run o calls) call = true → call.asks = some (k, now) →
      ∃ t, .check (some k) t ∈ calls) ∧
    (run o calls).size ≤ o.limit := by
  have httl' : 0 < o.ttl := lt_max_of_lt_right httl
  have hpos : 0 < o.limit := by
    have : 1 ≤ ⌊o.maxSize⌋ := Int.le_floor.mpr (by simpa using hsize)
    unfold DedupeCacheOptions.limit
    omega
  refine ⟨fun call h => answer_iff httl' hpos calls call h, ?_, ?_, ?_⟩
  · rintro before after key time call rfl h
    exact answer_without_peek httl' hpos before after key time call h
  · intro call k now h hanswer hasks
    obtain ⟨k', now', hasks', t, _, ⟨before, after, heq, -⟩, -⟩ := (answer_iff httl' hpos calls call h).mp hanswer
    obtain ⟨rfl, rfl⟩ : k = k' ∧ now = now' := by simpa [hasks] using hasks'
    have hmem : Event.touch k t ∈ events calls := by simp [heq]
    obtain ⟨c, hc, he⟩ := mem_flatMap.mp hmem
    cases c with
    | check key time =>
      simp only [Call.events, mem_map, Option.mem_toList, named, Option.filter_eq_some_iff] at he
      obtain ⟨_, ⟨rfl, -⟩, hk⟩ := he
      cases hk
      exact ⟨t, hc⟩
    | _ => simp [Call.events] at he
  · obtain ⟨now, hnow⟩ := (calls.filterMap Call.time?).toFinset.exists_le
    exact (run_tracks httl' hpos calls hcalls now fun t ht => hnow t (mem_toFinset.mpr ht)).small

/-- Two slots, and a history in which `a` is deleted before `b` comes. -/
def twoSlots : DedupeCacheOptions := ⟨1000, 2⟩

def deletedBetween : List Call :=
  [.check (some "k") 0, .check (some "a") 1, .delete (some "a"), .check (some "b") 2]

theorem answers_remembered_deletedBetween :
    answer twoSlots (run twoSlots deletedBetween) (.peek (some "k") 3) = true ∧
      (run twoSlots deletedBetween).size ≤ twoSlots.limit := by
  obtain ⟨-, -, -, hsize⟩ := answers_remembered twoSlots (by decide) (by decide) deletedBetween
    (by unfold InOrder; decide)
  exact ⟨by decide +kernel, hsize⟩

/-- Two keys other than `k` were touched since `k`, yet `k` is still a duplicate
where two are the limit. -/
theorem deleted_key_leaves_room :
    InOrder (deletedBetween ++ [.check (some "k") 3]) ∧
    answer twoSlots (run twoSlots deletedBetween) (.check (some "k") 3) = true ∧
    ∀ before t after, events deletedBetween = before ++ .touch "k" t :: after → (∀ e ∈ after, ¬ e.About "k") →
      ¬ ((after.filterMap fun | .touch x _ => some x | _ => none).dedup.length : ℚ) < twoSlots.maxSize := by
  refine ⟨by unfold InOrder; decide +kernel, by decide +kernel, fun before t after heq _ => ?_⟩
  have hevents : events deletedBetween = [.touch "k" 0, .touch "a" 1, .drop "a", .touch "b" 2] := by
    decide
  rw [hevents] at heq
  rcases before with _ | ⟨e₁, _ | ⟨e₂, _ | ⟨e₃, _ | ⟨e₄, rest⟩⟩⟩⟩
  · obtain ⟨-, rfl⟩ := List.cons.inj heq
    decide
  all_goals simp at heq

end OpenClaw.Infra
