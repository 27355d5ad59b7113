import OpenClaw.Boundary.BoundaryPath
import OpenClaw.Foundation.TreeLookup

/-! The nearest ancestor that exists.

`lstat` stops the loop at the deepest entry on the path, a link that leads nowhere included. From
there the answer is the real path of that entry with the rest of the path behind it, or the path
itself when the entry has no real path. -/
namespace OpenClaw.Boundary
open Foundation.FileTree List

def NotFound (result : Except Errno Node) : Prop := ∃ e, result = .error e ∧ isNotFoundPathError e = true

/-- The entry of a path at which `lstat` is first not told that nothing is there. -/
structure DeepestEntry (tree : Tree) (p entry rest : Path) : Prop where
  split : p = entry ++ rest
  found : ¬NotFound (tree.lstat entry)
  beyond : ∀ more left, rest = more ++ left → more ≠ [] → NotFound (tree.lstat (entry ++ more))

section Ancestors

variable {tree : Tree} {p entry rest : Path}

/-! ### The deepest entry -/

theorem exists_deepestEntry (tree : Tree) (p : Path) : ∃ entry rest, DeepestEntry tree p entry rest := by
  induction p using List.reverseRecOn with
  | nil =>
    refine ⟨[], [], rfl, ?_, ?_⟩
    · rintro ⟨e, he, -⟩
      rw [lstat_nil] at he
      cases he
    · intro more left hmore hne
      exact absurd (append_eq_nil_iff.mp hmore.symm).1 hne
  | append_singleton above name ih =>
    by_cases hname : NotFound (tree.lstat (above ++ [name]))
    · obtain ⟨entry, rest, hdeep⟩ := ih
      have hsplit : above ++ [name] = entry ++ (rest ++ [name]) := by rw [hdeep.split, append_assoc]
      refine ⟨entry, rest ++ [name], hsplit, hdeep.found, ?_⟩
      intro more left hmore hne
      rcases eq_nil_or_concat left with hnil | ⟨front, last, hlast⟩
      · rw [hnil, append_nil] at hmore
        rw [← hmore, ← hsplit]
        exact hname
      · rw [hlast, concat_eq_append, ← append_assoc] at hmore
        exact hdeep.beyond more front (append_inj' hmore rfl).1 hne
    · refine ⟨above ++ [name], [], (append_nil _).symm, hname, ?_⟩
      intro more left hmore hne
      exact absurd (append_eq_nil_iff.mp hmore.symm).1 hne

theorem DeepestEntry.shorter_eq {entry' rest' : Path} (h : DeepestEntry tree p entry rest)
    (h' : DeepestEntry tree p entry' rest') (hlen : entry.length ≤ entry'.length) : entry' = entry := by
  obtain ⟨more, hmore⟩ := prefix_of_prefix_length_le (h.split ▸ prefix_append entry rest)
    (h'.split ▸ prefix_append entry' rest') hlen
  by_cases hnil : more = []
  · rw [← hmore, hnil, append_nil]
  · have hrest : rest = more ++ rest' := by
      have hp := h.split.symm.trans h'.split
      rw [← hmore, append_assoc] at hp
      exact append_cancel_left hp
    have hbeyond := h.beyond more rest' hrest hnil
    rw [hmore] at hbeyond
    exact absurd hbeyond h'.found

theorem DeepestEntry.unique {entry' rest' : Path} (h : DeepestEntry tree p entry rest)
    (h' : DeepestEntry tree p entry' rest') : entry' = entry := by
  rcases Nat.le_total entry.length entry'.length with hlen | hlen
  · exact h.shorter_eq h' hlen
  · exact (h'.shorter_eq h hlen).symm

/-! ### The loop -/

/-- The loop passes every name that the test does not find. -/
theorem existingAncestor_pass (test : Path → Except Errno Bool) (names above missing : Path)
    (h : ∀ more left, names = more ++ left → more ≠ [] → test (above ++ more) = .ok false) :
    existingAncestor test (above ++ names).reverse missing =
      existingAncestor test above.reverse (names ++ missing) := by
  induction names using List.reverseRecOn generalizing missing with
  | nil => rw [append_nil, nil_append]
  | append_singleton front name ih =>
    have hwhole := h (front ++ [name]) [] (append_nil _).symm (by simp)
    rw [← append_assoc, reverse_append, reverse_singleton, singleton_append, existingAncestor]
    have hpath : (name :: (above ++ front).reverse).reverse = above ++ (front ++ [name]) := by simp
    rw [hpath, hwhole]
    show existingAncestor test (above ++ front).reverse (name :: missing) = _
    rw [ih (name :: missing) fun more left hmore hne => h more (left ++ [name]) (by rw [hmore, append_assoc]) hne]
    simp

/-- It stops at a name that the test finds, and at `/`. -/
theorem existingAncestor_found {test : Path → Except Errno Bool} (missing : Path)
    (h : entry = [] ∨ test entry = .ok true) :
    existingAncestor test entry.reverse missing = .ok (entry, missing) := by
  rcases eq_nil_or_concat entry with rfl | ⟨above, name, hentry⟩
  · rfl
  · rw [concat_eq_append] at hentry
    have htest : test entry = .ok true := by
      rcases h with hnil | htest
      · rw [hnil] at hentry
        exact absurd hentry (by simp)
      · exact htest
    rw [hentry] at htest ⊢
    rw [reverse_append, reverse_singleton, singleton_append, existingAncestor]
    have hpath : (name :: above.reverse).reverse = above ++ [name] := by simp
    rw [hpath, htest]

theorem pathExists_of_notFound (h : NotFound (tree.lstat p)) : pathExists tree p = .ok false := by
  obtain ⟨e, he, hcode⟩ := h
  rw [pathExists, he]
  simp only [hcode, if_true]

/-! ### The answer -/

/-- From an ancestor that is found and has a real path. -/
theorem resolveFromAncestor_real {test : Path → Except Errno Bool} {q : Path} (hsplit : p = entry ++ rest)
    (hrest : ∀ more left, rest = more ++ left → more ≠ [] → test (entry ++ more) = .ok false)
    (htest : test entry = .ok true) (hreal : tree.realpath entry = .ok q) :
    resolveFromAncestor tree test p = .ok (q ++ rest) := by
  have hloop := existingAncestor_pass test rest entry [] hrest
  rw [append_nil, existingAncestor_found _ (Or.inr htest), ← hsplit] at hloop
  unfold resolveFromAncestor
  rw [hloop]
  show (test entry >>= _) = _
  simp only [htest, hreal, pure_bind]
  rfl

theorem async_answer (hdeep : DeepestEntry tree p entry rest) :
    resolveFromAncestor tree (pathExists tree) p =
      match tree.lstat entry with
      | .error e => .error e
      | .ok _ =>
        match tree.realpath entry with
        | .ok real => .ok (real ++ rest)
        | .error _ => .ok p := by
  have hpass : ∀ more left, rest = more ++ left → more ≠ [] → pathExists tree (entry ++ more) = .ok false :=
    fun more left hmore hne => pathExists_of_notFound (hdeep.beyond more left hmore hne)
  have hloop := existingAncestor_pass (pathExists tree) rest entry [] hpass
  rw [append_nil, ← hdeep.split] at hloop
  cases hentry : tree.lstat entry with
  | ok node =>
    have htest : pathExists tree entry = .ok true := by rw [pathExists, hentry]
    cases hreal : tree.realpath entry with
    | ok q => exact resolveFromAncestor_real hdeep.split hpass htest hreal
    | error e =>
      rw [existingAncestor_found _ (Or.inr htest)] at hloop
      unfold resolveFromAncestor
      rw [hloop]
      show (pathExists tree entry >>= _) = _
      rw [htest]
      show (match tree.realpath entry with | .ok resolvedAncestor => _ | .error _ => _) = _
      rw [hreal]
      rfl
  | error e =>
    have hcode : isNotFoundPathError e = false := by
      cases hcode : isNotFoundPathError e with
      | false => rfl
      | true => exact absurd ⟨e, hentry, hcode⟩ hdeep.found
    have htest : pathExists tree entry = .error e := by
      rw [pathExists, hentry]
      simp only [hcode, Bool.false_eq_true, if_false]
    rcases eq_nil_or_concat entry with hnil | ⟨above, name, hconcat⟩
    · rw [hnil, lstat_nil] at hentry
      cases hentry
    · rw [concat_eq_append] at hconcat
      have hstop : existingAncestor (pathExists tree) entry.reverse rest = .error e := by
        rw [hconcat] at htest ⊢
        rw [reverse_append, reverse_singleton, singleton_append, existingAncestor]
        have hpath : (name :: above.reverse).reverse = above ++ [name] := by simp
        rw [hpath, htest]
      unfold resolveFromAncestor
      rw [hloop, hstop]
      rfl

end Ancestors

/-! ### What a path resolves to -/

section Places

variable {tree : Tree} {p c d entry rest : Path} {name : String} {place : Place}

theorem not_notFound {node : Node} (h : tree.lstat p = .ok node) : ¬NotFound (tree.lstat p) := by
  rintro ⟨e, he, -⟩
  rw [h] at he
  cases he

theorem deepest_of_lstat {p : Path} {node : Node} (h : tree.lstat p = .ok node) : DeepestEntry tree p p [] := by
  refine ⟨(append_nil p).symm, not_notFound h, fun more left hmore hne => ?_⟩
  exact absurd (append_eq_nil_iff.mp hmore.symm).1 hne

theorem notFound_of_beyond {p entry rest : Path} (hdeep : DeepestEntry tree p entry rest) (hrest : rest ≠ []) :
    NotFound (tree.lstat p) := by
  rw [hdeep.split]
  exact hdeep.beyond rest [] (append_nil rest).symm hrest

/-- A path either has a name beyond its deepest entry, or is an entry or cannot be read. -/
theorem beyond_or_entry {p c : Path} (h : resolveFromAncestor tree (pathExists tree) p = .ok c) :
    (∃ entry rest, DeepestEntry tree p entry rest ∧ rest ≠ []) ∨ ∃ node, tree.lstat p = .ok node := by
  obtain ⟨entry, rest, hdeep⟩ := exists_deepestEntry tree p
  by_cases hrest : rest = []
  · right
    have hp := hdeep.split
    rw [hrest, append_nil] at hp
    rw [async_answer hdeep] at h
    cases hentry : tree.lstat entry with
    | ok node => exact ⟨node, by rw [hp, hentry]⟩
    | error e =>
      rw [hentry] at h
      cases h
  · exact Or.inl ⟨entry, rest, hdeep, hrest⟩

/-- A name that is not found under a path that a lookup passes is the missing name of its place. -/
theorem absent_of_notFound {b : Bool} {above : Path} (h : tree.lookup b (above ++ [name]) = .ok place)
    (hmissing : NotFound (tree.lstat (above ++ [name]))) :
    ∃ dir, tree.realpath above = .ok dir ∧ place = .absent dir name := by
  obtain ⟨dir, hreal, hleads⟩ := lookup_parent h
  obtain ⟨hdir, hcases⟩ := leads_name hleads
  refine ⟨dir, hreal, ?_⟩
  have hstat := lstat_snoc hreal name
  rw [hdir] at hstat
  rcases hcases with ⟨-, hplace⟩ | ⟨node, hname, -, -⟩ | ⟨target, hname⟩
  · exact hplace
  · simp only [hname] at hstat
    exact absurd hmissing (not_notFound hstat)
  · simp only [hname] at hstat
    exact absurd hmissing (not_notFound hstat)

/-- A path with a name beyond its deepest entry comes to a place only as that one missing name. -/
theorem absent_beyond {b : Bool} (hdeep : DeepestEntry tree p entry rest) (hrest : rest ≠ [])
    (h : tree.lookup b p = .ok place) :
    ∃ dir name, rest = [name] ∧ tree.realpath entry = .ok dir ∧ place = .absent dir name := by
  rcases eq_nil_or_concat rest with hnil | ⟨front, last, hconcat⟩
  · exact absurd hnil hrest
  · rw [concat_eq_append] at hconcat
    have hp : p = (entry ++ front) ++ [last] := by rw [hdeep.split, hconcat, append_assoc]
    have hmissing := hdeep.beyond (front ++ [last]) [] (by rw [hconcat, append_nil]) (by simp)
    rw [← append_assoc] at hmissing
    rw [hp] at h
    obtain ⟨dir, hreal, hplace⟩ := absent_of_notFound h hmissing
    by_cases hfront : front = []
    · rw [hfront, append_nil] at hreal
      exact ⟨dir, last, by rw [hconcat, hfront]; rfl, hreal, hplace⟩
    · obtain ⟨node, hnode⟩ := lstat_of_realpath hreal
      exact absurd (hdeep.beyond front [last] hconcat hfront) (not_notFound hnode)

/-- A path that exists resolves to its real path. -/
theorem resolveFromAncestor_of_realpath {p q : Path} (h : tree.realpath p = .ok q) :
    resolveFromAncestor tree (pathExists tree) p = .ok q := by
  obtain ⟨node, hnode⟩ := lstat_of_realpath h
  have hdeep : DeepestEntry tree p p [] := by
    refine ⟨(append_nil p).symm, not_notFound hnode, fun more left hmore hne => ?_⟩
    exact absurd (append_eq_nil_iff.mp hmore.symm).1 hne
  rw [async_answer hdeep, hnode]
  simp only [h, append_nil]

/-- Outside the root, a path that leads to an entry or to a missing name resolves to that place. -/
theorem outside_place {p c entry rest : Path} {b : Bool} {place : Place} (hdeep : DeepestEntry tree p entry rest)
    (hrest : rest ≠ []) (hlookup : tree.lookup b p = .ok place)
    (h : resolveFromAncestor tree (pathExists tree) p = .ok c) : place.path = c := by
  obtain ⟨dir, name, hname, hreal, hplace⟩ := absent_beyond hdeep hrest hlookup
  obtain ⟨node, hnode⟩ := lstat_of_realpath hreal
  rw [async_answer hdeep, hnode] at h
  simp only [hreal] at h
  rw [hplace, ← Except.ok.inj h, hname]
  rfl

/-- A link that leads nowhere resolves to itself. -/
theorem outside_broken {p c : Path} {node : Node} (hdeep : DeepestEntry tree p p []) (hstat : tree.lstat p = .ok node)
    (hbroken : ¬∃ q, tree.realpath p = .ok q) (h : resolveFromAncestor tree (pathExists tree) p = .ok c) : c = p := by
  rw [async_answer hdeep, hstat] at h
  cases hreal : tree.realpath p with
  | ok q => exact absurd ⟨q, hreal⟩ hbroken
  | error e =>
    rw [hreal] at h
    exact (Except.ok.inj h).symm

/-- What a path resolves to is a given missing place exactly when nothing is at the path and the
operating system comes to that place. -/
theorem resolves_to_absent_iff (hdir : Canonical tree.root d) (hsearch : refusal tree.root d = none)
    (hmissing : nodeAt tree.root (d ++ [name]) = none)
    (h : resolveFromAncestor tree (pathExists tree) p = .ok c) :
    c = d ++ [name] ↔ NotFound (tree.lstat p) ∧ location tree true p = some (d ++ [name]) := by
  have hrealDir := realpath_of_canonical hdir
  have hnone : ∀ node, tree.lstat (d ++ [name]) ≠ .ok node := by
    intro node hnode
    obtain ⟨q, hq, -, hnodeAt⟩ := lstat_snoc_ok hnode
    rw [hrealDir] at hq
    rw [← Except.ok.inj hq, hmissing] at hnodeAt
    cases hnodeAt
  constructor
  · intro hc
    obtain ⟨entry, rest, hdeep⟩ := exists_deepestEntry tree p
    rw [async_answer hdeep] at h
    cases hentry : tree.lstat entry with
    | error e =>
      rw [hentry] at h
      cases h
    | ok node =>
      rw [hentry] at h
      cases hreal : tree.realpath entry with
      | error e =>
        rw [hreal] at h
        have hp : entry ++ rest = d ++ [name] := by rw [← hdeep.split, ← hc, Except.ok.inj h]
        rcases eq_nil_or_concat rest with hnil | ⟨front, last, hconcat⟩
        · rw [hnil, append_nil] at hp
          rw [hp] at hentry
          exact absurd hentry (hnone node)
        · rw [hconcat, concat_eq_append, ← append_assoc] at hp
          have hprefix : Canonical tree.root entry := by
            refine canonical_prefix _ front ?_
            rw [(append_inj' hp rfl).1]
            exact hdir
          rw [realpath_of_canonical hprefix] at hreal
          cases hreal
      | ok a =>
        rw [hreal] at h
        have hp : a ++ rest = d ++ [name] := by rw [← hc, ← Except.ok.inj h]
        rcases eq_nil_or_concat rest with hnil | ⟨front, last, hconcat⟩
        · rw [hnil, append_nil] at hp
          obtain ⟨node, hnode⟩ := (canonical_of_realpath hreal).found
          rw [hp, hmissing] at hnode
          cases hnode
        · rw [concat_eq_append] at hconcat
          rw [hconcat, ← append_assoc] at hp
          obtain ⟨had, hlast⟩ := append_inj' hp rfl
          have hfront : front = [] := by
            cases front with
            | nil => rfl
            | cons first front =>
              have hreached := hdir.toReached
              rw [← had] at hreached
              have hdirA := hreached.above a first front rfl
              have hchild : Canonical tree.root (a ++ [first]) := by
                refine canonical_prefix _ front ?_
                rw [append_assoc, singleton_append, had]
                exact hdir
              obtain ⟨child, hchildNode⟩ := hchild.found
              have hstat := lstat_snoc hreal first
              rw [hdirA] at hstat
              simp only [hchildNode] at hstat
              have hbeyond := hdeep.beyond [first] (front ++ [last]) (by rw [hconcat]; rfl) nofun
              exact absurd hbeyond (not_notFound hstat)
          rw [hfront, append_nil] at had
          have hrest : rest = [name] := by
            rw [hconcat, hfront, nil_append, hlast]
          have hpath : p = entry ++ [name] := by rw [hdeep.split, hrest]
          refine ⟨?_, ?_⟩
          · rw [hpath]
            exact hdeep.beyond [name] [] (by rw [hrest]; rfl) nofun
          · have hsnoc := lookup_snoc tree true entry name
            rw [realpath_eq_ok.mp hreal] at hsnoc
            obtain ⟨m, hm⟩ := hsnoc
            rw [had, walk_missing hsearch hmissing] at hm
            unfold location
            rw [hpath, hm]
            rfl
  · rintro ⟨hnot, hlocation⟩
    unfold location at hlocation
    cases hlookup : tree.lookup true p with
    | error e =>
      rw [hlookup] at hlocation
      cases hlocation
    | ok place =>
      rw [hlookup] at hlocation
      rcases eq_nil_or_concat p with rfl | ⟨above, last, hconcat⟩
      · exact absurd hnot (not_notFound (lstat_nil tree))
      · rw [concat_eq_append] at hconcat
        rw [hconcat] at hlookup hnot
        obtain ⟨dir, hreal, hplace⟩ := absent_of_notFound hlookup hnot
        rw [hplace] at hlocation
        obtain ⟨hdirEq, hlast⟩ := append_inj' (Option.some.inj hlocation) rfl
        obtain ⟨node, hnode⟩ := lstat_of_realpath hreal
        have hdeep : DeepestEntry tree p above [last] := by
          refine ⟨hconcat, not_notFound hnode, fun more left hmore hne => ?_⟩
          cases more with
          | nil => exact absurd rfl hne
          | cons first more =>
            injection hmore with hfirst hmore
            rw [(append_eq_nil_iff.mp hmore.symm).1, ← hfirst]
            exact hnot
        rw [async_answer hdeep, hnode] at h
        simp only [hreal] at h
        rw [← Except.ok.inj h, hdirEq, hlast]

end Places

end OpenClaw.Boundary
