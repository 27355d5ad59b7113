import Mathlib.Data.List.Basic

/-! Runs of a machine.

A machine is a partial step function: an event either takes a state to the next
one or is not enabled there. A run is a list of events, each enabled where it
happens. `run_invariant` is the rule every safety result here goes through: what
holds at the start and is kept by each step holds at the end. `Within` restricts
a run to steps that meet a condition on the event and on the state before it,
and `run_within_invariant` is the same rule for such runs. -/
namespace OpenClaw.Foundation

/-- An event takes a state to the next, or is not enabled in it. -/
abbrev Machine (σ ε : Type*) := ε → σ → Option σ

namespace Machine

variable {σ ε : Type*} (m : Machine σ ε)

def run : List ε → σ → Option σ
  | [], s => some s
  | e :: rest, s => (m e s).bind (run rest)

@[simp] theorem run_nil (s : σ) : m.run [] s = some s := rfl

theorem run_cons (e : ε) (rest : List ε) (s : σ) :
    m.run (e :: rest) s = (m e s).bind (m.run rest) := rfl

theorem run_cons_some {e : ε} {rest : List ε} {s t : σ} :
    m.run (e :: rest) s = some t ↔ ∃ u, m e s = some u ∧ m.run rest u = some t := by
  simp [run_cons, Option.bind_eq_some_iff]

theorem run_append (a b : List ε) (s : σ) :
    m.run (a ++ b) s = (m.run a s).bind (m.run b) := by
  induction a generalizing s with
  | nil => rfl
  | cons e rest ih =>
    rw [List.cons_append, run_cons, run_cons]
    cases m e s with
    | none => rfl
    | some u => exact ih u

/-- What each step keeps, a run keeps. -/
theorem run_invariant {I : σ → Prop} (hstep : ∀ e s t, I s → m e s = some t → I t)
    (events : List ε) {s t : σ} (hs : I s) (hr : m.run events s = some t) : I t := by
  induction events generalizing s with
  | nil =>
    cases hr
    exact hs
  | cons e rest ih =>
    obtain ⟨u, hu, ht⟩ := (run_cons_some m).mp hr
    exact ih (hstep e s u hs hu) ht

/-- Every step of the run is taken where `C` holds of the event and the state. -/
def Within (C : ε → σ → Prop) : List ε → σ → Prop
  | [], _ => True
  | e :: rest, s => C e s ∧ ∀ u, m e s = some u → Within C rest u

instance decidableWithin {C : ε → σ → Prop} [∀ e s, Decidable (C e s)] :
    (events : List ε) → (s : σ) → Decidable (m.Within C events s)
  | [], _ => .isTrue trivial
  | e :: rest, s =>
    match he : m e s with
    | none => decidable_of_iff (C e s)
        ⟨fun hc => ⟨hc, fun u hu => by rw [he] at hu; cases hu⟩, fun h => h.1⟩
    | some u =>
      have : Decidable (m.Within C rest u) := decidableWithin rest u
      decidable_of_iff (C e s ∧ m.Within C rest u)
        ⟨fun h => ⟨h.1, fun v hv => by rw [he] at hv; cases hv; exact h.2⟩, fun h => ⟨h.1, h.2 u he⟩⟩

theorem within_cons {C : ε → σ → Prop} {e : ε} {rest : List ε} {s t : σ} (hc : C e s) (he : m e s = some t)
    (h : m.Within C rest t) : m.Within C (e :: rest) s := by
  refine ⟨hc, fun u hu => ?_⟩
  rw [he] at hu
  cases hu
  exact h

theorem within_append {C : ε → σ → Prop} {a b : List ε} {s t : σ} (ha : m.Within C a s) (hr : m.run a s = some t)
    (hb : m.Within C b t) : m.Within C (a ++ b) s := by
  induction a generalizing s with
  | nil =>
    cases hr
    exact hb
  | cons e rest ih =>
    obtain ⟨u, hu, ht⟩ := (run_cons_some m).mp hr
    exact m.within_cons ha.1 hu (ih (ha.2 u hu) ht)

theorem within_of_all {C : ε → σ → Prop} {events : List ε} {s : σ} (h : ∀ e ∈ events, ∀ s, C e s) :
    m.Within C events s := by
  induction events generalizing s with
  | nil => trivial
  | cons e rest ih =>
    exact ⟨h e List.mem_cons_self s, fun u _ => ih fun e' he' => h e' (List.mem_cons_of_mem _ he')⟩

theorem within_and {C D : ε → σ → Prop} {events : List ε} {s : σ} (hc : m.Within C events s)
    (hd : m.Within D events s) : m.Within (fun e s => C e s ∧ D e s) events s := by
  induction events generalizing s with
  | nil => trivial
  | cons e rest ih => exact ⟨⟨hc.1, hd.1⟩, fun u hu => ih (hc.2 u hu) (hd.2 u hu)⟩

/-- What each step meeting `C` keeps, a run of such steps keeps. -/
theorem run_within_invariant {I : σ → Prop} {C : ε → σ → Prop}
    (hstep : ∀ e s t, I s → C e s → m e s = some t → I t) (events : List ε) {s t : σ}
    (hs : I s) (hc : m.Within C events s) (hr : m.run events s = some t) : I t := by
  induction events generalizing s with
  | nil =>
    cases hr
    exact hs
  | cons e rest ih =>
    obtain ⟨u, hu, ht⟩ := (run_cons_some m).mp hr
    exact ih (hstep e s u hs hc.1 hu) (hc.2 u hu) ht

end Machine

end OpenClaw.Foundation
