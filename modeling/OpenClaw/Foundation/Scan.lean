import Mathlib.Data.List.Basic

/-! Scanning a text from left to right.

The loop of a hand-written scanner reads one character at a time. A step sees the
state, the character before, the character itself and the text after it, and either
goes on, after skipping some of what follows, or leaves the loop, or gives up.

`Consumes` says that a piece of text takes the scanner from one state to another
whatever stands around it. Pieces compose, so a scanner is run on a rendered text
piece by piece. -/
namespace OpenClaw.Foundation

/-- What one step of a scanner does. -/
inductive Scan (σ ε : Type) where
  | go (s : σ) (skip : Nat)
  | stop (s : σ)
  | fail (e : ε)
  deriving Repr, DecidableEq

/-- A scanner's step: the state, the character before, the character and the text after it. -/
abbrev ScanStep (σ ε : Type) := σ → Option Char → Char → List Char → Scan σ ε

namespace Scan

variable {σ ε : Type}

/-- The loop: `skip` characters are still to be passed over. -/
def scan (step : ScanStep σ ε) : σ → Option Char → Nat → List Char → Except ε σ
  | s, _, _, [] => .ok s
  | s, _, skip + 1, c :: rest => scan step s (some c) skip rest
  | s, before, 0, c :: rest =>
    match step s before c rest with
    | .go s' skip => scan step s' (some c) skip rest
    | .stop s' => .ok s'
    | .fail e => .error e

/-- The state in which the character at place `n` is read, if it is not passed over. -/
def stateAt (step : ScanStep σ ε) : σ → Option Char → Nat → List Char → Nat → Option σ
  | _, _, _, [], _ => none
  | _, _, _ + 1, _ :: _, 0 => none
  | s, _, 0, _ :: _, 0 => some s
  | s, _, skip + 1, c :: rest, n + 1 => stateAt step s (some c) skip rest n
  | s, before, 0, c :: rest, n + 1 =>
    match step s before c rest with
    | .go s' skip => stateAt step s' (some c) skip rest n
    | .stop _ => none
    | .fail _ => none

/-- The character before the text that follows `l`. -/
def before (b : Option Char) (l : List Char) : Option Char := l.getLast?.or b

@[simp] theorem before_nil (b : Option Char) : before b [] = b := rfl

@[simp] theorem before_singleton (b : Option Char) (c : Char) : before b [c] = some c := rfl

theorem before_append (b : Option Char) (l r : List Char) :
    before b (l ++ r) = before (before b l) r := by
  simp only [before, List.getLast?_append, Option.or_assoc]

theorem before_cons (b : Option Char) (c : Char) (l : List Char) :
    before b (c :: l) = before (some c) l := by
  rw [← List.singleton_append, before_append, before_singleton]

variable (step : ScanStep σ ε)

@[simp] theorem scan_nil (s : σ) (b : Option Char) (k : Nat) : scan step s b k [] = .ok s := by
  cases k <;> rfl

theorem scan_cons (s : σ) (b : Option Char) (c : Char) (rest : List Char) :
    scan step s b 0 (c :: rest) =
      match step s b c rest with
      | .go s' skip => scan step s' (some c) skip rest
      | .stop s' => .ok s'
      | .fail e => .error e := rfl

theorem scan_go {s s' : σ} {b : Option Char} {c : Char} {rest : List Char} {skip : Nat}
    (h : step s b c rest = .go s' skip) : scan step s b 0 (c :: rest) = scan step s' (some c) skip rest := by
  rw [scan_cons, h]

@[simp] theorem scan_skip (s : σ) (b : Option Char) (k : Nat) (c : Char) (rest : List Char) :
    scan step s b (k + 1) (c :: rest) = scan step s (some c) k rest := rfl

/-- The character before does not matter where the step cannot tell. -/
theorem scan_before (b b' : Option Char) (h : ∀ s c rest, step s b c rest = step s b' c rest) (s : σ) (k : Nat)
    (text : List Char) : scan step s b k text = scan step s b' k text := by
  cases text with
  | nil => rw [scan_nil, scan_nil]
  | cons c rest =>
    cases k with
    | zero => rw [scan_cons, scan_cons, h]
    | succ k => rfl

/-- Text at the end is read from where the scanner ends without it, unless it stops before. The
steps must not look at what is added. -/
theorem scan_append_or (x y : List Char)
    (hagree : ∀ pre c rest, x = pre ++ c :: rest → ∀ s b, step s b c (rest ++ y) = step s b c rest)
    (s : σ) (b : Option Char) (k : Nat) :
    scan step s b k (x ++ y) = scan step s b k x ∨
      ∃ t b' k', scan step s b k x = .ok t ∧ scan step s b k (x ++ y) = scan step t b' k' y := by
  induction x generalizing s b k with
  | nil => exact Or.inr ⟨s, b, k, scan_nil step s b k, rfl⟩
  | cons c rest ih =>
    have hrest : ∀ pre d tail, rest = pre ++ d :: tail → ∀ s b, step s b d (tail ++ y) = step s b d tail :=
      fun pre d tail heq => hagree (c :: pre) d tail (by rw [heq, List.cons_append])
    cases k with
    | succ k =>
      rw [List.cons_append, scan_skip, scan_skip]
      exact ih hrest s (some c) k
    | zero =>
      rw [List.cons_append, scan_cons, scan_cons, hagree [] c rest rfl]
      cases hstep : step s b c rest with
      | go s' skip => exact ih hrest s' (some c) skip
      | _ => exact Or.inl rfl

/-- A step that does not leave the loop, but to fail. -/
inductive Goes (P : σ → Prop) : Scan σ ε → Prop where
  | go {s : σ} (h : P s) (skip : Nat) : Goes P (.go s skip)
  | fail (e : ε) : Goes P (.fail e)

theorem Goes.ite {P : σ → Prop} {p : Prop} [Decidable p] {x y : Scan σ ε} (hx : Goes P x) (hy : Goes P y) :
    Goes P (if p then x else y) := by
  by_cases hp : p
  · rwa [if_pos hp]
  · rwa [if_neg hp]

/-- How the results of two steps are related. -/
inductive Related (R : σ → σ → Prop) : Scan σ ε → Scan σ ε → Prop where
  | go {s t : σ} (h : R s t) (skip : Nat) : Related R (.go s skip) (.go t skip)
  | stop {s t : σ} (h : R s t) : Related R (.stop s) (.stop t)
  | fail (e : ε) : Related R (.fail e) (.fail e)

theorem Related.refl {R : σ → σ → Prop} (hR : ∀ s, R s s) (x : Scan σ ε) : Related R x x := by
  cases x with
  | go s skip => exact .go (hR s) skip
  | stop s => exact .stop (hR s)
  | fail e => exact .fail e

theorem Related.ite {R : σ → σ → Prop} {p : Prop} [Decidable p] {x y x' y' : Scan σ ε} (h : Related R x y)
    (h' : Related R x' y') : Related R (if p then x else x') (if p then y else y') := by
  by_cases hp : p
  · rwa [if_pos hp, if_pos hp]
  · rwa [if_neg hp, if_neg hp]

/-- Scans of the same text from related states. -/
theorem scan_related {R : σ → σ → Prop}
    (hstep : ∀ s t b c rest, R s t → Related R (step s b c rest) (step t b c rest)) {s t : σ} (h : R s t)
    (b : Option Char) (k : Nat) (text : List Char) :
    (∃ s' t', scan step s b k text = .ok s' ∧ scan step t b k text = .ok t' ∧ R s' t') ∨
      ∃ e, scan step s b k text = .error e ∧ scan step t b k text = .error e := by
  induction text generalizing s t b k with
  | nil => exact Or.inl ⟨s, t, scan_nil step s b k, scan_nil step t b k, h⟩
  | cons c rest ih =>
    cases k with
    | succ k =>
      rw [scan_skip, scan_skip]
      exact ih h (some c) k
    | zero =>
      have hrelated := hstep s t b c rest h
      rw [scan_cons, scan_cons]
      generalize step s b c rest = x at hrelated ⊢
      generalize step t b c rest = y at hrelated ⊢
      cases hrelated with
      | go h' skip => exact ih h' (some c) skip
      | stop h' => exact Or.inl ⟨_, _, rfl, rfl, h'⟩
      | fail e => exact Or.inr ⟨e, rfl, rfl⟩

/-- What every step keeps, of the state and the text still to be read. -/
theorem scan_invariant (Inv : σ → List Char → Prop) (Post : σ → Prop)
    (hgo : ∀ s b c rest s' skip, Inv s (c :: rest) → step s b c rest = .go s' skip → Inv s' (rest.drop skip))
    (hstop : ∀ s b c rest s', Inv s (c :: rest) → step s b c rest = .stop s' → Post s')
    (hend : ∀ s, Inv s [] → Post s) {s t : σ} {b : Option Char} {k : Nat} {text : List Char}
    (h : Inv s (text.drop k)) (hscan : scan step s b k text = .ok t) : Post t := by
  induction text generalizing s b k with
  | nil =>
    rw [scan_nil] at hscan
    cases hscan
    rw [List.drop_nil] at h
    exact hend _ h
  | cons c rest ih =>
    cases k with
    | succ k => exact ih h hscan
    | zero =>
      rw [scan_cons] at hscan
      cases hstep : step s b c rest with
      | go s' skip =>
        rw [hstep] at hscan
        exact ih (hgo s b c rest _ skip h hstep) hscan
      | stop s' =>
        rw [hstep] at hscan
        cases hscan
        exact hstop s b c rest _ h hstep
      | fail e => rw [hstep] at hscan; cases hscan

/-- The scanner passes over `l` from `s` to `s'`, whatever stands before and after. -/
def Consumes (s : σ) (l : List Char) (s' : σ) : Prop :=
  ∀ b rest, scan step s b 0 (l ++ rest) = scan step s' (before b l) 0 rest

variable {step}

theorem Consumes.nil (s : σ) : Consumes step s [] s := fun _ _ => rfl

theorem Consumes.one {s s' : σ} {c : Char} (h : ∀ b rest, step s b c rest = .go s' 0) :
    Consumes step s [c] s' := by
  intro b rest
  rw [List.singleton_append, scan_cons, h]
  rfl

theorem Consumes.append {s s' s'' : σ} {l r : List Char} (h : Consumes step s l s')
    (h' : Consumes step s' r s'') : Consumes step s (l ++ r) s'' := by
  intro b rest
  rw [List.append_assoc, h, h', before_append]

theorem Consumes.cons {s s' s'' : σ} {c : Char} {l : List Char} (h : ∀ b rest, step s b c rest = .go s' 0)
    (h' : Consumes step s' l s'') : Consumes step s (c :: l) s'' := (Consumes.one h).append h'

/-- A text that is consumed to its end. -/
theorem Consumes.scan_eq {s s' : σ} {l : List Char} (h : Consumes step s l s') (b : Option Char) :
    scan step s b 0 l = .ok s' := by
  have := h b []
  rwa [List.append_nil, scan_nil] at this

end Scan

end OpenClaw.Foundation
