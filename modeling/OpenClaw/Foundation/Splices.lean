import Mathlib.Data.List.Sort

/-! Replacing ranges of a list, the last one first.

A splice puts new elements where a range of old ones was; it may be empty, and then it only
inserts. Splices that keep clear of each other can be put in order and applied from the last
to the first, and the list they make is told place by place: what the splices that start
there bring, and the old element unless one of them covers it (`applyAll_insertionSort`). -/
namespace OpenClaw.Foundation

open List

structure Splice (α : Type*) where
  start : Nat
  oldLen : Nat
  newLines : List α

variable {s : Splice α} {l : List α} {splices : List (Splice α)}

namespace Splice
variable {α : Type*}

def stop (s : Splice α) : Nat := s.start + s.oldLen

def apply (s : Splice α) (l : List α) : List α := l.take s.start ++ s.newLines ++ l.drop s.stop

def applyAll (l : List α) (splices : List (Splice α)) : List α := splices.foldr apply l

/-- Takes nothing and brings nothing. -/
def idle (s : Splice α) : Bool := s.oldLen == 0 && s.newLines.isEmpty

def Covers (s : Splice α) (i : Nat) : Prop := s.start ≤ i ∧ i < s.stop

instance (s : Splice α) (i : Nat) : Decidable (s.Covers i) := inferInstanceAs (Decidable (_ ∧ _))

def Behind (a b : Splice α) : Prop := a.stop ≤ b.start

/-- `b` comes behind `a`, or `a` only inserts and `b` ends before that place. -/
def Clear (a b : Splice α) : Prop := a.stop ≤ b.start ∨ a.oldLen = 0 ∧ b.stop ≤ a.start

instance (a b : Splice α) : Decidable (a.Clear b) := inferInstanceAs (Decidable (_ ∨ _))

/-- What stands at a place of the old list. -/
def placeAt (l : List α) (splices : List (Splice α)) (i : Nat) : List α :=
  (splices.filter (·.start = i)).flatMap newLines ++ if ∃ s ∈ splices, s.Covers i then [] else l[i]?.toList

/-- The list with every splice in its place. -/
def spliced (l : List α) (splices : List (Splice α)) : List α :=
  (List.range (l.length + 1)).flatMap (placeAt l splices)

theorem idle_iff : s.idle = true ↔ s.oldLen = 0 ∧ s.newLines = [] := by
  rw [idle, Bool.and_eq_true, beq_iff_eq, List.isEmpty_iff]

theorem start_le_stop (s : Splice α) : s.start ≤ s.stop := Nat.le_add_right ..

theorem apply_of_idle {s : Splice α} (h : s.idle = true) (l : List α) : s.apply l = l := by
  obtain ⟨hlen, hnew⟩ := idle_iff.mp h
  rw [apply, stop, hlen, hnew, append_nil, Nat.add_zero, take_append_drop]

theorem not_covers_of_idle (h : s.idle = true) (i : Nat) : ¬ s.Covers i := by
  intro ⟨hle, hlt⟩
  rw [stop, (idle_iff.mp h).1] at hlt
  omega

theorem applyAll_filter (l : List α) (splices : List (Splice α)) :
    applyAll l (splices.filter (! ·.idle)) = applyAll l splices := by
  induction splices with
  | nil => rfl
  | cons s splices ih =>
    cases h : s.idle with
    | false =>
      rw [filter_cons_of_pos (by simp [h])]
      exact congrArg s.apply ih
    | true =>
      rw [filter_cons_of_neg (by simp [h]), ih]
      exact (apply_of_idle h _).symm

theorem placeAt_filter (l : List α) (splices : List (Splice α)) (i : Nat) :
    placeAt l (splices.filter (! ·.idle)) i = placeAt l splices i := by
  have hnew : ((splices.filter (! ·.idle)).filter (·.start = i)).flatMap newLines =
      (splices.filter (·.start = i)).flatMap newLines := by
    rw [filter_comm]
    generalize splices.filter (·.start = i) = starting
    induction starting with
    | nil => rfl
    | cons s starting ih =>
      cases h : s.idle with
      | false => rw [filter_cons_of_pos (by simp [h]), flatMap_cons, flatMap_cons, ih]
      | true =>
        rw [filter_cons_of_neg (by simp [h]), flatMap_cons, ih, (idle_iff.mp h).2, nil_append]
  have hcovers : (∃ s ∈ splices.filter (! ·.idle), s.Covers i) ↔ ∃ s ∈ splices, s.Covers i := by
    refine ⟨fun ⟨s, hs, hi⟩ => ⟨s, mem_of_mem_filter hs, hi⟩, fun ⟨s, hs, hi⟩ => ?_⟩
    refine ⟨s, mem_filter.mpr ⟨hs, ?_⟩, hi⟩
    rw [Bool.not_eq_true', ← Bool.not_eq_true]
    exact fun h => not_covers_of_idle h i hi
  rw [placeAt, placeAt, hnew, if_congr hcovers rfl rfl]

/-! ### Splices in order -/

/-- Behind a splice it has no part in what stands at a place. -/
theorem placeAt_cons_of_gt {i : Nat} (hstart : s.start < i) (hstop : s.stop ≤ i) :
    placeAt l (s :: splices) i = placeAt l splices i := by
  have hcovers : (∃ t ∈ s :: splices, t.Covers i) ↔ ∃ t ∈ splices, t.Covers i := by
    rw [exists_mem_cons_iff, or_iff_right]
    exact fun h => absurd h.2 (Nat.not_lt.mpr hstop)
  rw [placeAt, placeAt, filter_cons_of_neg (by simpa using hstart.ne), if_congr hcovers rfl rfl]

/-- Before all splices the old elements stand. -/
theorem placeAt_of_lt {i : Nat} (h : ∀ s ∈ splices, i < s.start) :
    placeAt l splices i = l[i]?.toList := by
  have hfilter : splices.filter (·.start = i) = [] := filter_eq_nil_iff.mpr fun s hs => by
    simpa using (h s hs).ne'
  have hcovers : ¬ ∃ s ∈ splices, s.Covers i := fun ⟨s, hs, hi⟩ => absurd (h s hs) (Nat.not_lt.mpr hi.1)
  rw [placeAt, hfilter, if_neg hcovers, flatMap_nil, nil_append]

theorem flatMap_range'_getElem? (l : List α) (k m : Nat) :
    (List.range' k m).flatMap (l[·]?.toList) = (l.drop k).take m := by
  induction m generalizing k with
  | zero => rw [range'_zero, flatMap_nil, take_zero]
  | succ m ih =>
    rw [range'_succ, flatMap_cons, ih]
    by_cases hk : k < l.length
    · rw [getElem?_eq_getElem hk, Option.toList_some, drop_eq_getElem_cons hk, take_succ_cons]
      rfl
    · rw [getElem?_eq_none (Nat.not_lt.mp hk), drop_eq_nil_of_le (Nat.not_lt.mp hk),
        drop_eq_nil_of_le (by omega), take_nil, take_nil, Option.toList_none, nil_append]

/-- The places a splice takes hold what it brings, and the places behind it what the others make of them. -/
theorem flatMap_placeAt_cons (hbehind : ∀ t ∈ splices, s.stop ≤ t.start) (hstop : s.stop ≤ l.length) :
    (List.range' s.start (l.length + 1 - s.start)).flatMap (placeAt l (s :: splices)) =
      s.newLines ++ (List.range' s.stop (l.length + 1 - s.stop)).flatMap (placeAt l splices) := by
  have hrest : ∀ k m, s.start < k → s.stop ≤ k →
      (List.range' k m).flatMap (placeAt l (s :: splices)) = (List.range' k m).flatMap (placeAt l splices) :=
    fun k m hstart hstop => flatMap_congr fun i hi => by
      have := left_le_of_mem_range' hi
      exact placeAt_cons_of_gt (by omega) (by omega)
  cases hlen : s.oldLen with
  | zero =>
    have hstart : s.stop = s.start := by rw [stop, hlen, Nat.add_zero]
    have hhere : placeAt l (s :: splices) s.start = s.newLines ++ placeAt l splices s.start := by
      have hcovers : (∃ t ∈ s :: splices, t.Covers s.start) ↔ ∃ t ∈ splices, t.Covers s.start := by
        rw [exists_mem_cons_iff, or_iff_right]
        exact fun h => absurd h.2 (by omega)
      rw [placeAt, filter_cons_of_pos (by simp), flatMap_cons, if_congr hcovers rfl rfl, append_assoc]
      rfl
    rw [hstart, show l.length + 1 - s.start = l.length - s.start + 1 by omega, range'_succ, flatMap_cons,
      flatMap_cons, hhere, hrest _ _ (by omega) (by omega), append_assoc]
  | succ m =>
    have hhere : placeAt l (s :: splices) s.start = s.newLines := by
      have hfilter : splices.filter (·.start = s.start) = [] := filter_eq_nil_iff.mpr fun t ht => by
        have := hbehind t ht
        simp only [stop, hlen] at this
        simp only [decide_eq_true_eq]
        omega
      have hcovers : ∃ t ∈ s :: splices, t.Covers s.start :=
        ⟨s, mem_cons_self, le_rfl, by simp only [stop, hlen]; omega⟩
      rw [placeAt, filter_cons_of_pos (by simp), hfilter, if_pos hcovers, flatMap_cons, flatMap_nil,
        append_nil, append_nil]
    -- the other places of the range are covered and nothing starts there
    have hinside : (List.range' (s.start + 1) m).flatMap (placeAt l (s :: splices)) = [] := by
      refine flatMap_eq_nil_iff.mpr fun i hi => ?_
      obtain ⟨hle, hlt⟩ := mem_range'_1.mp hi
      have hfilter : (s :: splices).filter (·.start = i) = [] := filter_eq_nil_iff.mpr fun t ht => by
        rw [decide_eq_true_eq]
        rcases mem_cons.mp ht with rfl | ht
        · omega
        · have := hbehind t ht
          simp only [stop, hlen] at this
          omega
      have hcovers : ∃ t ∈ s :: splices, t.Covers i :=
        ⟨s, mem_cons_self, by omega, by simp only [stop, hlen]; omega⟩
      rw [placeAt, hfilter, if_pos hcovers, flatMap_nil, append_nil]
    have hsplit : List.range' s.start (l.length + 1 - s.start) =
        s.start :: (List.range' (s.start + 1) m ++ List.range' s.stop (l.length + 1 - s.stop)) := by
      have happ := @range'_append_1 (s.start + 1) m (l.length + 1 - s.stop)
      rw [show s.start + 1 + m = s.stop by rw [stop, hlen]; omega] at happ
      rw [happ, ← range'_succ]
      congr 1
      simp only [stop, hlen] at hstop ⊢
      omega
    rw [hsplit, flatMap_cons, flatMap_append, hhere, hinside, nil_append,
      hrest _ _ (by simp only [stop, hlen]; omega) le_rfl]

/-- The splices are applied from the last on, so the induction goes from the front: what is
before place `k` is still the old list. -/
theorem applyAll_eq (hbehind : splices.Pairwise Behind) (hstop : ∀ s ∈ splices, s.stop ≤ l.length) {k : Nat}
    (hk : k ≤ l.length) (hstart : ∀ s ∈ splices, k ≤ s.start) :
    applyAll l splices = l.take k ++ (List.range' k (l.length + 1 - k)).flatMap (placeAt l splices) := by
  induction splices generalizing k with
  | nil =>
    have hplace : placeAt l [] = (l[·]?.toList) := funext fun i => placeAt_of_lt fun s hs => absurd hs not_mem_nil
    have htake : (l.drop k).take (l.length + 1 - k) = l.drop k :=
      take_of_length_le (by rw [length_drop]; omega)
    rw [hplace, flatMap_range'_getElem?, htake, take_append_drop]
    rfl
  | cons s splices ih =>
    obtain ⟨hs, hrest⟩ := pairwise_cons.mp hbehind
    have hsstop := hstop s mem_cons_self
    have hsstart := hstart s mem_cons_self
    have hle := s.start_le_stop
    have happly := ih hrest (fun t ht => hstop t (mem_cons_of_mem _ ht)) hsstop hs
    have hcons : applyAll l (s :: splices) = s.apply (applyAll l splices) := rfl
    have hbefore : (List.range' k (s.start - k)).flatMap (placeAt l (s :: splices)) = (l.drop k).take (s.start - k) := by
      rw [← flatMap_range'_getElem?]
      refine flatMap_congr fun i hi => placeAt_of_lt fun t ht => ?_
      obtain ⟨-, hlt⟩ := mem_range'_1.mp hi
      rcases mem_cons.mp ht with rfl | ht
      · omega
      · have := hs t ht
        simp only [Behind] at this
        omega
    have hrange : List.range' k (l.length + 1 - k) =
        List.range' k (s.start - k) ++ List.range' s.start (l.length + 1 - s.start) := by
      have happ := @range'_append_1 k (s.start - k) (l.length + 1 - s.start)
      rw [show k + (s.start - k) = s.start by omega] at happ
      rw [happ]
      congr 1
      omega
    rw [hcons, happly, apply, take_append_of_le_length (by rw [length_take]; omega), take_take,
      Nat.min_eq_left hle, drop_left' (by rw [length_take]; omega), hrange, flatMap_append, hbefore,
      flatMap_placeAt_cons hs hsstop, ← append_assoc, ← append_assoc]
    congr 2
    conv_rhs => rw [← take_add, show k + (s.start - k) = s.start by omega]

/-! ### Splices put in order -/

theorem orderedInsert_behind {a : Splice α} {l : List (Splice α)} (hl : l.Pairwise Behind) (ha : ∀ b ∈ l, a.Clear b) :
    (l.orderedInsert (fun a b => a.start ≤ b.start) a).Pairwise Behind := by
  induction l with
  | nil => exact pairwise_singleton ..
  | cons b l ih =>
    obtain ⟨hb, hl'⟩ := pairwise_cons.mp hl
    have hclear := ha b mem_cons_self
    rw [orderedInsert_cons]
    split
    · rename_i hle
      have hstop : a.stop ≤ b.start := hclear.elim id fun h => by
        rw [stop, h.1]
        exact hle
      refine pairwise_cons.mpr ⟨fun c hc => ?_, hl⟩
      rcases mem_cons.mp hc with rfl | hc
      · exact hstop
      · exact hstop.trans (b.start_le_stop.trans (hb c hc))
    · rename_i hlt
      have hstop : b.stop ≤ a.start := hclear.elim (fun h => absurd (a.start_le_stop.trans h) hlt) And.right
      refine pairwise_cons.mpr ⟨fun c hc => ?_, ih hl' fun c hc => ha c (mem_cons_of_mem _ hc)⟩
      rcases (mem_orderedInsert _).mp hc with rfl | hc
      · exact hstop
      · exact hb c hc

theorem insertionSort_behind (h : splices.Pairwise Clear) :
    (splices.insertionSort fun a b => a.start ≤ b.start).Pairwise Behind := by
  induction splices with
  | nil => exact .nil
  | cons s splices ih =>
    obtain ⟨hs, hrest⟩ := pairwise_cons.mp h
    exact orderedInsert_behind (ih hrest) fun t ht => hs t ((mem_insertionSort _).mp ht)

/-- Splices that start at one place stay in their order. -/
theorem filter_orderedInsert (a : Splice α) (l : List (Splice α)) (i : Nat) :
    (l.orderedInsert (fun a b => a.start ≤ b.start) a).filter (·.start = i) = (a :: l).filter (·.start = i) := by
  induction l with
  | nil => rfl
  | cons b l ih =>
    rw [orderedInsert_cons]
    split
    · rfl
    · rename_i hlt
      rw [filter_cons, ih]
      simp only [filter_cons]
      by_cases ha : a.start = i
      · have hb : b.start ≠ i := by omega
        simp only [hb, decide_false, Bool.false_eq_true, if_false]
      · simp only [ha, decide_false, Bool.false_eq_true, if_false]

theorem filter_insertionSort (splices : List (Splice α)) (i : Nat) :
    (splices.insertionSort fun a b => a.start ≤ b.start).filter (·.start = i) = splices.filter (·.start = i) := by
  induction splices with
  | nil => rfl
  | cons s splices ih =>
    have hinsert := filter_orderedInsert s (splices.insertionSort fun a b => a.start ≤ b.start) i
    rw [filter_cons, ih] at hinsert
    rw [insertionSort_cons, hinsert, filter_cons]

theorem placeAt_insertionSort (l : List α) (splices : List (Splice α)) (i : Nat) :
    placeAt l (splices.insertionSort fun a b => a.start ≤ b.start) i = placeAt l splices i := by
  have hcovers : (∃ s ∈ splices.insertionSort fun a b => a.start ≤ b.start, s.Covers i) ↔ ∃ s ∈ splices, s.Covers i := by
    simp only [mem_insertionSort]
  rw [placeAt, placeAt, filter_insertionSort, if_congr hcovers rfl rfl]

theorem filter_idle_orderedInsert (a : Splice α) {l : List (Splice α)} (hl : l.Pairwise fun a b => a.start ≤ b.start) :
    (l.orderedInsert (fun a b => a.start ≤ b.start) a).filter (! ·.idle) =
      if a.idle then l.filter (! ·.idle)
      else (l.filter (! ·.idle)).orderedInsert (fun a b => a.start ≤ b.start) a := by
  induction l with
  | nil => cases h : a.idle <;> simp [h]
  | cons b l ih =>
    obtain ⟨hb, hl'⟩ := pairwise_cons.mp hl
    rw [orderedInsert_cons]
    split
    · rename_i hle
      cases ha : a.idle with
      | true => rw [filter_cons_of_neg (by simp [ha]), if_pos rfl]
      | false =>
        rw [filter_cons_of_pos (by simp [ha]), if_neg (by simp)]
        -- whatever is left starts no earlier
        generalize hrest : (b :: l).filter (! ·.idle) = rest
        cases rest with
        | nil => rfl
        | cons c rest =>
          have hc : c ∈ b :: l := mem_of_mem_filter (hrest ▸ mem_cons_self)
          have hbc : b.start ≤ c.start := (mem_cons.mp hc).elim (fun h => h ▸ le_rfl) (hb c)
          rw [orderedInsert_cons, if_pos (hle.trans hbc)]
    · rename_i hlt
      rw [filter_cons, ih hl', filter_cons]
      cases hbi : b.idle with
      | true => simp
      | false =>
        cases ha : a.idle with
        | true => simp
        | false => simp [orderedInsert_cons, hlt]

theorem filter_idle_insertionSort (splices : List (Splice α)) :
    (splices.insertionSort fun a b => a.start ≤ b.start).filter (! ·.idle) =
      (splices.filter (! ·.idle)).insertionSort fun a b => a.start ≤ b.start := by
  have : Std.Total fun a b : Splice α => a.start ≤ b.start := ⟨fun a b => Nat.le_total a.start b.start⟩
  have : IsTrans (Splice α) fun a b => a.start ≤ b.start := ⟨fun _ _ _ h h' => Nat.le_trans h h'⟩
  induction splices with
  | nil => rfl
  | cons s splices ih =>
    rw [insertionSort_cons, filter_idle_orderedInsert s (pairwise_insertionSort _ splices), ih]
    cases h : s.idle with
    | true => rw [if_pos rfl, filter_cons_of_neg (by simp [h])]
    | false => rw [if_neg (by simp), filter_cons_of_pos (by simp [h]), insertionSort_cons]

/-- **Splices that keep clear of each other make the list told place by place.** -/
theorem applyAll_insertionSort (hclear : (splices.filter (! ·.idle)).Pairwise Clear)
    (hstop : ∀ s ∈ splices, s.stop ≤ l.length) :
    applyAll l (splices.insertionSort fun a b => a.start ≤ b.start) = spliced l splices := by
  rw [← applyAll_filter, filter_idle_insertionSort,
    applyAll_eq (insertionSort_behind hclear)
      (fun s hs => hstop s (mem_of_mem_filter ((mem_insertionSort _).mp hs))) (Nat.zero_le _)
      (fun s _ => Nat.zero_le _), take_zero, nil_append, Nat.sub_zero, spliced, range_eq_range']
  exact flatMap_congr fun i _ => by rw [placeAt_insertionSort, placeAt_filter]

end Splice
end OpenClaw.Foundation
