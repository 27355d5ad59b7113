import Mathlib.Data.List.Basic

/-! Runs that leave a log, whatever they come to.

A traced computation does things, in order, and returns or fails. `Satisfies P Q` says of one
that its log has `P` and that what it returns has `Q`; for a property of logs that the empty
log has and that goes through `++` it is proved step by step, as a postcondition is. -/
namespace OpenClaw.Foundation

structure Traced (ω ε α : Type) where
  log : List ω
  result : Except ε α

namespace Traced
variable {ω ε α β : Type}

instance : Monad (Traced ω ε) where
  pure a := ⟨[], .ok a⟩
  bind t f :=
    match t.result with
    | .error e => ⟨t.log, .error e⟩
    | .ok a => ⟨t.log ++ (f a).log, (f a).result⟩

def tell (w : ω) : Traced ω ε Unit := ⟨[w], .ok ()⟩

def fail (e : ε) : Traced ω ε α := ⟨[], .error e⟩

/-- A step that leaves no trace. -/
def lift (x : Except ε α) : Traced ω ε α := ⟨[], x⟩

/-- A property of logs that can be proved piece by piece. -/
structure Pieces (P : List ω → Prop) : Prop where
  nil : P []
  append : ∀ {a b}, P a → P b → P (a ++ b)

structure Satisfies (P : List ω → Prop) (Q : α → Prop) (t : Traced ω ε α) : Prop where
  log : P t.log
  returns : ∀ a, t.result = .ok a → Q a

variable {P : List ω → Prop} {Q : α → Prop} {R : β → Prop}

theorem log_bind_of_ok {t : Traced ω ε α} {f : α → Traced ω ε β} {a : α} (h : t.result = .ok a) :
    (t >>= f).log = t.log ++ (f a).log := by
  simp only [bind, h]

theorem result_bind_of_ok {t : Traced ω ε α} {f : α → Traced ω ε β} {a : α} (h : t.result = .ok a) :
    (t >>= f).result = (f a).result := by
  simp only [bind, h]

theorem bind_of_error {t : Traced ω ε α} {f : α → Traced ω ε β} {e : ε} (h : t.result = .error e) :
    t >>= f = ⟨t.log, .error e⟩ := by
  simp only [bind, h]

theorem satisfies_pure (hP : Pieces P) {a : α} (h : Q a) : Satisfies P Q (pure a : Traced ω ε α) where
  log := hP.nil
  returns b hb := by
    cases hb
    exact h

theorem satisfies_fail (hP : Pieces P) (e : ε) : Satisfies P Q (fail e : Traced ω ε α) where
  log := hP.nil
  returns _ h := nomatch h

theorem satisfies_lift (hP : Pieces P) {x : Except ε α} (h : ∀ a, x = .ok a → Q a) :
    Satisfies P Q (lift x : Traced ω ε α) where
  log := hP.nil
  returns := h

theorem Satisfies.bind (hP : Pieces P) {t : Traced ω ε α} {f : α → Traced ω ε β} (ht : t.Satisfies P Q)
    (hf : ∀ a, Q a → (f a).Satisfies P R) : (t >>= f).Satisfies P R := by
  cases h : t.result with
  | error e =>
    rw [bind_of_error h]
    exact ⟨ht.log, fun _ hb => nomatch hb⟩
  | ok a =>
    have hfa := hf a (ht.returns a h)
    refine ⟨?_, fun b hb => hfa.returns b ?_⟩
    · rw [log_bind_of_ok h]
      exact hP.append ht.log hfa.log
    · rwa [result_bind_of_ok h] at hb

end Traced
end OpenClaw.Foundation
