import Mathlib.Algebra.Order.Ring.Rat
import Mathlib.Data.List.Basic
import Mathlib.Data.List.Induction
import Mathlib.Tactic.Linarith

/-! Lockouts.

Events are counted within a sliding window; once there are as many as the limit, a
lockout begins, during which events are ignored, and after which counting starts
from nothing. `standing` is what a list of event times comes to. -/
namespace OpenClaw.Foundation

open List

/-- How many events within which time begin a lockout, and how long it lasts. -/
structure Budget where
  limit : ℚ
  window : ℚ
  lockout : ℚ

inductive Standing
  | counting (times : List Nat)
  | locked (ends : ℚ)
  deriving DecidableEq

/-- The standing is a lockout. -/
def Standing.isLocked : Standing → Bool
  | .locked _ => true
  | .counting _ => false

namespace Budget

variable (b : Budget)

/-- The times still within the window. -/
def recent (now : Nat) (times : List Nat) : List Nat := times.filter fun t => (now : ℚ) - b.window < t

/-- The standing at a time. -/
def age (now : Nat) : Standing → Standing
  | .counting times => .counting (b.recent now times)
  | .locked ends => if (now : ℚ) < ends then .locked ends else .counting []

/-- The standing once an event is counted. -/
def count (times : List Nat) (now : Nat) : Standing :=
  if b.limit ≤ (times ++ [now]).length then .locked (now + b.lockout) else .counting (times ++ [now])

/-- An event. -/
def fail (st : Standing) (now : Nat) : Standing :=
  match b.age now st with
  | .locked ends => .locked ends
  | .counting times => b.count times now

def standing (times : List Nat) : Standing := times.foldl b.fail (.counting [])

/-! ### Aging -/

@[simp] theorem recent_nil (now : Nat) : b.recent now [] = [] := rfl

variable {b}

theorem recent_recent {now later : Nat} (h : now ≤ later) (times : List Nat) :
    b.recent later (b.recent now times) = b.recent later times := by
  have hcast : (now : ℚ) ≤ later := by exact_mod_cast h
  simp only [recent, filter_filter]
  apply filter_congr
  intro t _
  by_cases hlater : (later : ℚ) - b.window < t
  · have hnow : (now : ℚ) - b.window < t := by linarith
    simp [hlater, hnow]
  · simp [hlater]

/-! ### Lockouts -/

/-- Events are ignored while locked. -/
theorem foldl_locked {ends : ℚ} {times : List Nat} (h : ∀ t ∈ times, (t : ℚ) < ends) :
    times.foldl b.fail (.locked ends) = .locked ends := by
  induction times with
  | nil => rfl
  | cons t rest ih =>
    have ht : (t : ℚ) < ends := h t mem_cons_self
    have hfail : b.fail (.locked ends) t = .locked ends := by simp [fail, age, ht]
    rw [foldl_cons, hfail]
    exact ih fun t' ht' => h t' (mem_cons_of_mem _ ht')

/-- After a lockout counting starts from nothing. -/
theorem foldl_unlocked {ends : ℚ} {times : List Nat} (hne : times ≠ []) (h : ∀ t ∈ times, ends ≤ t) :
    times.foldl b.fail (.locked ends) = b.standing times := by
  cases times with
  | nil => exact absurd rfl hne
  | cons t rest =>
    have ht : ¬ (t : ℚ) < ends := not_lt.mpr (h t mem_cons_self)
    have hfail : b.fail (.locked ends) t = b.fail (.counting []) t := by simp [fail, age, ht]
    rw [foldl_cons, hfail]
    rfl

section
variable {st : Standing} {times : List Nat} (hne : times ≠ [])
  (hclose : ∀ x ∈ times, ∀ y ∈ times, (y : ℚ) - b.window < x)
  (hopen : ∀ first ∈ times.head?, ∃ l, b.age first st = .counting l)
  (hcounting : ∀ p q, times = p ++ q → p ≠ [] → q ≠ [] → ∃ l, p.foldl b.fail st = .counting l)
include hne hclose hopen hcounting

/-- What is counted while no lockout begins stays counted, up to the lockout its last
event begins. -/
theorem foldl_counts :
    times.foldl b.fail st = .locked ((times.getLast hne : Nat) + b.lockout) ∨
      ∃ l, times.foldl b.fail st = .counting l ∧ times <:+ l ∧ (l.length : ℚ) < b.limit := by
  induction times using List.reverseRecOn with
  | nil => exact absurd rfl hne
  | append_singleton earlier last ih =>
    -- The counted times before the last event end with the earlier ones.
    obtain ⟨l, hl, hsuffix⟩ : ∃ l, b.age last (earlier.foldl b.fail st) = .counting l ∧ earlier <:+ l := by
      by_cases hearlier : earlier = []
      · subst hearlier
        obtain ⟨l, hl⟩ := hopen last (by simp)
        exact ⟨l, hl, nil_suffix⟩
      · obtain ⟨l, hl⟩ := hcounting earlier [last] rfl hearlier (by simp)
        have hkept : earlier <:+ l := by
          have hih := ih hearlier
            (fun x hx y hy => hclose x (mem_append_left _ hx) y (mem_append_left _ hy))
            (fun first hfirst => hopen first (by
              rw [head?_append]
              simp only [Option.mem_def] at hfirst ⊢
              rw [hfirst]
              rfl))
            (fun p q hpq hp hq => hcounting p (q ++ [last]) (by rw [hpq, append_assoc]) hp (by simp))
          rcases hih with hlocked | ⟨l', hl', hsuffix, -⟩
          · rw [hl] at hlocked
            cases hlocked
          · rw [hl] at hl'
            cases hl'
            exact hsuffix
        refine ⟨b.recent last l, by rw [hl]; rfl, ?_⟩
        have hall : b.recent last earlier = earlier := by
          apply filter_eq_self.mpr
          intro x hx
          simpa using hclose x (mem_append_left _ hx) last (by simp)
        rw [← hall]
        exact hkept.filter _
    have hfail : (earlier ++ [last]).foldl b.fail st = b.count l last := by
      rw [foldl_append, foldl_cons, foldl_nil, fail, hl]
    rw [hfail, getLast_append_singleton]
    unfold count
    split_ifs with hlimit
    · exact .inl rfl
    · refine .inr ⟨_, rfl, ?_, by simpa using hlimit⟩
      obtain ⟨front, rfl⟩ := hsuffix
      exact ⟨front, by rw [append_assoc]⟩

/-- Events close to each other, as many as the limit, begin a lockout with the last of
them, unless one begins before. -/
theorem foldl_locks (hlimit : b.limit ≤ times.length) :
    times.foldl b.fail st = .locked ((times.getLast hne : Nat) + b.lockout) := by
  rcases foldl_counts hne hclose hopen hcounting with h | ⟨l, -, hsuffix, hlt⟩
  · exact h
  · have hle : (times.length : ℚ) ≤ l.length := by exact_mod_cast hsuffix.length_le
    linarith

end

end Budget

end OpenClaw.Foundation
