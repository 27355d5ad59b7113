import OpenClaw.Foundation.FileTree
import Mathlib.Tactic.Common

/-! How walks compose.

A walk along `cs ++ ds` is the walk along `cs` with every link followed, and from where that comes
to the walk along `ds`. A walk that ends without running out of links ends the same with more of
them. The places that walks come to are canonical: each of their ancestors is a directory that may
be searched, so that the walk along such a place meets no link on the way. -/
namespace OpenClaw.Foundation.FileTree

open List

/-! ### Nodes -/

theorem refusal_none {root : Node} {cur : Path} :
    refusal root cur = none ↔ ∃ entries, nodeAt root cur = some (.dir true entries) := by
  unfold refusal
  split <;> simp_all

/-! ### One component -/

section Components

variable {root : Node} {b : Bool} {follow : Path → List Component → Except Errno Place} {cur : Path}
  {e : Errno} {name : String} {rest : List Component}

theorem walk_nil (root : Node) (b : Bool) (n : Nat) (cur : Path) : walk root b n cur [] = .ok (.existing cur) := by
  cases n <;> rfl

attribute [local simp] walkWith in
theorem walkWith_refused (h : refusal root cur = some e) (c : Component) (rest : List Component) :
    walkWith root b follow cur (c :: rest) = .error e := by
  simp only [walkWith, h]

section
variable (h : refusal root cur = none)
include h

theorem walkWith_here (rest : List Component) :
    walkWith root b follow cur (.here :: rest) = walkWith root b follow cur rest := by
  simp only [walkWith, h]

theorem walkWith_parent (rest : List Component) :
    walkWith root b follow cur (.parent :: rest) = walkWith root b follow cur.dropLast rest := by
  simp only [walkWith, h]

theorem walkWith_missing (hname : nodeAt root (cur ++ [name]) = none) (rest : List Component) :
    walkWith root b follow cur (.entry name :: rest) =
      if rest.isEmpty then .ok (.absent cur name) else .error .enoent := by
  simp only [walkWith, h, hname]

theorem walkWith_link {target : PathText} (hname : nodeAt root (cur ++ [name]) = some (.link target))
    (rest : List Component) :
    walkWith root b follow cur (.entry name :: rest) =
      if rest.isEmpty && !b then .ok (.existing (cur ++ [name]))
      else follow (if target.absolute then [] else cur) (target.parts ++ rest) := by
  simp only [walkWith, h, hname]

theorem walkWith_plain {child : Node} (hname : nodeAt root (cur ++ [name]) = some child)
    (hlink : child.isLink = false) (rest : List Component) :
    walkWith root b follow cur (.entry name :: rest) = walkWith root b follow (cur ++ [name]) rest := by
  simp only [walkWith, h]
  cases child with
  | link target => cases hlink
  | _ => simp only [hname]

end

theorem name_cases (root : Node) (cur : Path) (name : String) :
    (∃ target, nodeAt root (cur ++ [name]) = some (.link target)) ∨ nodeAt root (cur ++ [name]) = none ∨
      ∃ child, nodeAt root (cur ++ [name]) = some child ∧ child.isLink = false := by
  cases nodeAt root (cur ++ [name]) with
  | none => exact Or.inr (Or.inl rfl)
  | some child =>
    cases child with
    | link target => exact Or.inl ⟨target, rfl⟩
    | _ => exact Or.inr (Or.inr ⟨_, rfl, rfl⟩)

end Components

/-! ### Composition -/

/-- How a walk goes on along `ds` from what its first part came to. -/
def Continues (root : Node) (b : Bool) (ds : List Component) (first whole : Except Errno Place) : Prop :=
  match first with
  | .error e => whole = .error e
  | .ok (.absent _ _) => whole = .error .enoent
  | .ok (.existing q) => ∃ m, whole = walk root b m q ds

theorem walkWith_append {root : Node} {b : Bool} (n : Nat) {ds : List Component} (hds : ds.isEmpty = false)
    (follow follow' : Path → List Component → Except Errno Place)
    (hwalk : ∀ cur, walkWith root b follow' cur ds = walk root b n cur ds)
    (hfollow : ∀ cur cs, Continues root b ds (follow cur cs) (follow' cur (cs ++ ds)))
    (cur : Path) (cs : List Component) :
    Continues root b ds (walkWith root true follow cur cs) (walkWith root b follow' cur (cs ++ ds)) := by
  induction cs generalizing cur with
  | nil => exact ⟨n, hwalk cur⟩
  | cons c rest ih =>
    have hne : (rest ++ ds).isEmpty = false := by
      cases rest with
      | nil => exact hds
      | cons c rest => rfl
    rw [cons_append]
    cases hcur : refusal root cur with
    | some e =>
      rw [walkWith_refused hcur, walkWith_refused hcur]
      rfl
    | none =>
      cases c with
      | here =>
        rw [walkWith_here hcur, walkWith_here hcur]
        exact ih cur
      | parent =>
        rw [walkWith_parent hcur, walkWith_parent hcur]
        exact ih cur.dropLast
      | entry name =>
        rcases name_cases root cur name with ⟨target, hname⟩ | hname | ⟨child, hname, hlink⟩
        · rw [walkWith_link hcur hname, walkWith_link hcur hname, hne]
          simp only [Bool.not_true, Bool.and_false, Bool.false_and, Bool.false_eq_true, if_false]
          rw [← append_assoc]
          exact hfollow _ _
        · rw [walkWith_missing hcur hname, walkWith_missing hcur hname, hne]
          cases rest.isEmpty <;> rfl
        · rw [walkWith_plain hcur hname hlink, walkWith_plain hcur hname hlink]
          exact ih (cur ++ [name])

theorem walk_append (root : Node) (b : Bool) (n : Nat) {ds : List Component} (hds : ds.isEmpty = false) (cur : Path)
    (cs : List Component) : Continues root b ds (walk root true n cur cs) (walk root b n cur (cs ++ ds)) := by
  induction n generalizing cur cs with
  | zero => exact walkWith_append 0 hds (fun _ _ => .error .eloop) (fun _ _ => .error .eloop) (fun _ => rfl) (fun _ _ => rfl) cur cs
  | succ n ih =>
    exact walkWith_append (n + 1) hds (walk root true n) (walk root b n) (fun _ => rfl) ih cur cs

/-! ### More links -/

theorem walkWith_congr {root : Node} {b : Bool} {follow follow' : Path → List Component → Except Errno Place}
    (hfollow : ∀ cur cs, follow cur cs ≠ .error .eloop → follow' cur cs = follow cur cs)
    (cur : Path) (cs : List Component) (h : walkWith root b follow cur cs ≠ .error .eloop) :
    walkWith root b follow' cur cs = walkWith root b follow cur cs := by
  induction cs generalizing cur with
  | nil => rfl
  | cons c rest ih =>
    cases hcur : refusal root cur with
    | some e => rw [walkWith_refused hcur, walkWith_refused hcur]
    | none =>
      cases c with
      | here =>
        rw [walkWith_here hcur] at h ⊢
        rw [walkWith_here hcur]
        exact ih cur h
      | parent =>
        rw [walkWith_parent hcur] at h ⊢
        rw [walkWith_parent hcur]
        exact ih cur.dropLast h
      | entry name =>
        rcases name_cases root cur name with ⟨target, hname⟩ | hname | ⟨child, hname, hlink⟩
        · rw [walkWith_link hcur hname] at h ⊢
          rw [walkWith_link hcur hname]
          by_cases hlast : (rest.isEmpty && !b) = true
          · rw [if_pos hlast, if_pos hlast]
          · rw [if_neg hlast] at h ⊢
            rw [if_neg hlast]
            exact hfollow _ _ h
        · rw [walkWith_missing hcur hname, walkWith_missing hcur hname]
        · rw [walkWith_plain hcur hname hlink] at h ⊢
          rw [walkWith_plain hcur hname hlink]
          exact ih (cur ++ [name]) h

theorem walk_mono {root : Node} {b : Bool} {n m : Nat} (hnm : n ≤ m) {cur : Path} {cs : List Component}
    (h : walk root b n cur cs ≠ .error .eloop) : walk root b m cur cs = walk root b n cur cs := by
  have step : ∀ n cur cs, walk root b n cur cs ≠ .error .eloop →
      walk root b (n + 1) cur cs = walk root b n cur cs := by
    intro n
    induction n with
    | zero => exact walkWith_congr fun cur cs hnot => absurd rfl hnot
    | succ n ih => exact walkWith_congr ih
  induction hnm with
  | refl => rfl
  | step _ ih => rw [step _ _ _ (by rw [ih]; exact h), ih]

/-- A place that a walk leads to with some number of links. -/
def Leads (root : Node) (b : Bool) (cur : Path) (cs : List Component) (place : Place) : Prop :=
  ∃ n, walk root b n cur cs = .ok place

theorem Leads.unique {root : Node} {b : Bool} {cur : Path} {cs : List Component} {p q : Place}
    (hp : Leads root b cur cs p) (hq : Leads root b cur cs q) : p = q := by
  obtain ⟨n, hn⟩ := hp
  obtain ⟨m, hm⟩ := hq
  rcases Nat.le_total n m with hle | hle
  · have h := walk_mono hle (by rw [hn]; exact nofun)
    rw [hn, hm] at h
    exact (Except.ok.inj h).symm
  · have h := walk_mono hle (by rw [hm]; exact nofun)
    rw [hn, hm] at h
    exact Except.ok.inj h

theorem Leads.split {root : Node} {b : Bool} {cur : Path} {cs ds : List Component} {place : Place}
    (hds : ds.isEmpty = false) (h : Leads root b cur (cs ++ ds) place) :
    ∃ q, Leads root true cur cs (.existing q) ∧ Leads root b q ds place := by
  obtain ⟨n, hn⟩ := h
  have happend := walk_append root b n hds cur cs
  cases hfirst : walk root true n cur cs with
  | error e =>
    rw [hfirst, hn] at happend
    cases happend
  | ok first =>
    rw [hfirst, hn] at happend
    cases first with
    | absent dir name => cases happend
    | existing q =>
      obtain ⟨m, hm⟩ := happend
      exact ⟨q, ⟨n, hfirst⟩, m, hm.symm⟩

/-! ### Canonical places -/

/-- An entry each of whose ancestors is a directory that may be searched. -/
structure Reached (root : Node) (p : Path) : Prop where
  found : ∃ node, nodeAt root p = some node
  above : ∀ q name rest, p = q ++ name :: rest → refusal root q = none

/-- Such an entry that is no link. -/
structure Canonical (root : Node) (p : Path) : Prop extends Reached root p where
  plain : ∀ node, nodeAt root p = some node → node.isLink = false

theorem plain_of_refusal {root node : Node} {p : Path} (h : refusal root p = none)
    (hnode : nodeAt root p = some node) : node.isLink = false := by
  obtain ⟨entries, hdir⟩ := refusal_none.mp h
  rw [hdir] at hnode
  cases hnode
  rfl

theorem canonical_of_refusal {root : Node} {p : Path} (h : refusal root p = none)
    (habove : ∀ q name rest, p = q ++ name :: rest → refusal root q = none) : Canonical root p := by
  obtain ⟨entries, hdir⟩ := refusal_none.mp h
  exact ⟨⟨⟨_, hdir⟩, habove⟩, fun _ hnode => plain_of_refusal h hnode⟩

theorem Canonical.dropLast {root : Node} {p : Path} (h : Canonical root p) : Canonical root p.dropLast := by
  rcases eq_nil_or_concat p with hnil | ⟨q, name, hq⟩
  · rw [hnil] at h ⊢
    exact h
  · rw [concat_eq_append] at hq
    rw [hq, dropLast_concat]
    refine canonical_of_refusal (h.above q name [] hq) ?_
    intro top first rest htop
    refine h.above top first (rest ++ [name]) ?_
    rw [hq, htop, append_assoc, cons_append]

theorem Reached.child {root child : Node} {p : Path} {name : String} (h : Reached root p)
    (hdir : refusal root p = none) (hchild : nodeAt root (p ++ [name]) = some child) :
    Reached root (p ++ [name]) := by
  refine ⟨⟨child, hchild⟩, ?_⟩
  intro q first rest hq
  rcases eq_nil_or_concat rest with hnil | ⟨more, last, hlast⟩
  · rw [hnil] at hq
    rw [← (append_inj' hq rfl).1]
    exact hdir
  · rw [concat_eq_append] at hlast
    rw [hlast, ← cons_append, ← append_assoc] at hq
    exact h.above q first more (append_inj' hq rfl).1

/-- What holds of the place a walk comes to. -/
def Lands (root : Node) (b : Bool) : Except Errno Place → Prop
  | .error _ => True
  | .ok (.absent dir name) =>
    Canonical root dir ∧ refusal root dir = none ∧ nodeAt root (dir ++ [name]) = none
  | .ok (.existing q) => Reached root q ∧ (b = true → Canonical root q)

theorem walkWith_lands {root : Node} {b : Bool} (follow : Path → List Component → Except Errno Place)
    (hroot : Canonical root []) (hfollow : ∀ cur cs, Canonical root cur → Lands root b (follow cur cs))
    (cur : Path) (cs : List Component) (hcur : Canonical root cur) : Lands root b (walkWith root b follow cur cs) := by
  induction cs generalizing cur with
  | nil => exact ⟨hcur.toReached, fun _ => hcur⟩
  | cons c rest ih =>
    cases hdir : refusal root cur with
    | some e =>
      rw [walkWith_refused hdir]
      trivial
    | none =>
      cases c with
      | here =>
        rw [walkWith_here hdir]
        exact ih cur hcur
      | parent =>
        rw [walkWith_parent hdir]
        exact ih cur.dropLast hcur.dropLast
      | entry name =>
        rcases name_cases root cur name with ⟨target, hname⟩ | hname | ⟨child, hname, hlink⟩
        · rw [walkWith_link hdir hname]
          have hchild := hcur.toReached.child hdir hname
          by_cases hlast : (rest.isEmpty && !b) = true
          · rw [if_pos hlast]
            refine ⟨hchild, fun hb => ?_⟩
            rw [hb, Bool.not_true, Bool.and_false] at hlast
            exact absurd hlast Bool.false_ne_true
          · rw [if_neg hlast]
            cases target.absolute with
            | true => exact hfollow [] _ hroot
            | false => exact hfollow cur _ hcur
        · rw [walkWith_missing hdir hname]
          cases rest.isEmpty with
          | true => exact ⟨hcur, hdir, hname⟩
          | false => trivial
        · rw [walkWith_plain hdir hname hlink]
          refine ih (cur ++ [name]) ⟨hcur.toReached.child hdir hname, fun node hnode => ?_⟩
          rw [hname] at hnode
          cases hnode
          exact hlink

theorem walk_lands {root : Node} {b : Bool} (hroot : Canonical root []) (n : Nat) (cur : Path) (cs : List Component)
    (hcur : Canonical root cur) : Lands root b (walk root b n cur cs) := by
  induction n generalizing cur cs with
  | zero => exact walkWith_lands (fun _ _ => .error .eloop) hroot (fun _ _ _ => trivial) cur cs hcur
  | succ n ih => exact walkWith_lands (walk root b n) hroot ih cur cs hcur

/-- The walk along a reached place meets no link before its end. -/
theorem walk_reached {root : Node} {b : Bool} (n : Nat) (p names : Path) (h : Reached root (p ++ names))
    (hlast : b = true → Canonical root (p ++ names)) :
    walk root b n p (names.map .entry) = .ok (.existing (p ++ names)) := by
  have key : ∀ follow, walkWith root b follow p (names.map .entry) = .ok (.existing (p ++ names)) := by
    intro follow
    induction names generalizing p with
    | nil =>
      rw [append_nil]
      rfl
    | cons name rest ih =>
      have hsplit : p ++ name :: rest = (p ++ [name]) ++ rest := by rw [append_assoc]; rfl
      have hdir : refusal root p = none := h.above p name rest rfl
      rw [map_cons]
      cases rest with
      | nil =>
        obtain ⟨child, hchild⟩ := h.found
        rcases name_cases root p name with ⟨target, hname⟩ | hname | ⟨plain, hname, hlink⟩
        · rw [map_nil, walkWith_link hdir hname]
          cases b with
          | false => rfl
          | true =>
            have hplain := (hlast rfl).plain _ hname
            cases hplain
        · rw [hname] at hchild
          cases hchild
        · rw [map_nil, walkWith_plain hdir hname hlink]
          rfl
      | cons next more =>
        have hnext : refusal root (p ++ [name]) = none := h.above (p ++ [name]) next more hsplit
        obtain ⟨entries, hentries⟩ := refusal_none.mp hnext
        rw [walkWith_plain hdir hentries rfl, hsplit]
        rw [hsplit] at h hlast
        exact ih (p ++ [name]) h hlast
  cases n <;> exact key _

end OpenClaw.Foundation.FileTree
