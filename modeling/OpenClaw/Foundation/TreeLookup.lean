import OpenClaw.Foundation.PathWalk

/-! Lookups in a tree: what `lstat`, `stat` and `realpath` say of one another. -/
namespace OpenClaw.Foundation.FileTree

open List

section OneName

variable {root : Node} {b : Bool} {q : Path} {name : String} {e : Errno}

theorem walk_refused (h : refusal root q = some e) (n : Nat) : walk root b n q [.entry name] = .error e := by
  cases n with
  | _ => exact walkWith_refused h _ _

theorem walk_missing (h : refusal root q = none) (hname : nodeAt root (q ++ [name]) = none) (n : Nat) :
    walk root b n q [.entry name] = .ok (.absent q name) := by
  cases n with
  | _ => exact walkWith_missing h hname []

theorem walk_plain {child : Node} (h : refusal root q = none) (hname : nodeAt root (q ++ [name]) = some child)
    (hlink : child.isLink = false) (n : Nat) : walk root b n q [.entry name] = .ok (.existing (q ++ [name])) := by
  cases n with
  | _ => exact walkWith_plain h hname hlink []

/-- A link at the end of a walk that does not follow it. -/
theorem walk_lastLink {target : PathText} (h : refusal root q = none)
    (hname : nodeAt root (q ++ [name]) = some (.link target)) (n : Nat) :
    walk root false n q [.entry name] = .ok (.existing (q ++ [name])) := by
  cases n with
  | _ => exact walkWith_link h hname []

end OneName

section Lookups

variable {tree : Tree} {p q : Path} {name : String} {node : Node} {e : Errno}

theorem root_canonical (tree : Tree) : Canonical tree.root [] := by
  refine ⟨⟨⟨tree.root, rfl⟩, fun q name rest h => ?_⟩, fun node hnode => ?_⟩
  · cases q <;> cases h
  · cases hnode
    rfl

theorem lookup_lands (tree : Tree) (b : Bool) (p : Path) : Lands tree.root b (tree.lookup b p) :=
  walk_lands (root_canonical tree) _ [] _ (root_canonical tree)

theorem lookup_snoc (tree : Tree) (b : Bool) (p : Path) (name : String) :
    Continues tree.root b [.entry name] (tree.lookup true p) (tree.lookup b (p ++ [name])) := by
  have h := walk_append tree.root b tree.maxLinks (show [Component.entry name].isEmpty = false from rfl) [] (p.map .entry)
  unfold Tree.lookup
  rw [map_append]
  exact h

theorem realpath_eq_ok : tree.realpath p = .ok q ↔ tree.lookup true p = .ok (.existing q) := by
  unfold Tree.realpath
  constructor
  · intro h
    split at h
    · rename_i r hr
      rw [hr, Except.ok.inj h]
    · cases h
    · cases h
  · intro h
    rw [h]

theorem canonical_of_realpath (h : tree.realpath p = .ok q) : Canonical tree.root q := by
  have hlands := lookup_lands tree true p
  rw [realpath_eq_ok.mp h] at hlands
  exact hlands.2 rfl

theorem realpath_of_canonical (h : Canonical tree.root q) : tree.realpath q = .ok q := by
  rw [realpath_eq_ok]
  exact walk_reached _ [] q h.toReached fun _ => h

theorem realpath_realpath (h : tree.realpath p = .ok q) : tree.realpath q = .ok q :=
  realpath_of_canonical (canonical_of_realpath h)

theorem realpath_nil (tree : Tree) : tree.realpath [] = .ok [] := realpath_of_canonical (root_canonical tree)

theorem nodeOf_eq_ok {r : Except Errno Place} :
    tree.nodeOf r = .ok node ↔ ∃ q, r = .ok (.existing q) ∧ nodeAt tree.root q = some node := by
  unfold Tree.nodeOf
  constructor
  · intro h
    split at h
    · rename_i q
      split at h
      · rename_i found hfound
        exact ⟨q, rfl, by rw [hfound, Except.ok.inj h]⟩
      · cases h
    · cases h
    · cases h
  · rintro ⟨q, rfl, hnode⟩
    simp only [hnode]

theorem stat_ok_iff : (∃ node, tree.stat p = .ok node) ↔ ∃ q, tree.realpath p = .ok q := by
  constructor
  · rintro ⟨node, h⟩
    obtain ⟨q, hq, -⟩ := nodeOf_eq_ok.mp h
    exact ⟨q, realpath_eq_ok.mpr hq⟩
  · rintro ⟨q, h⟩
    obtain ⟨node, hnode⟩ := (canonical_of_realpath h).found
    exact ⟨node, nodeOf_eq_ok.mpr ⟨q, realpath_eq_ok.mp h, hnode⟩⟩

theorem lstat_nil (tree : Tree) : tree.lstat [] = .ok tree.root :=
  nodeOf_eq_ok.mpr ⟨[], walk_nil _ _ _ _, rfl⟩

/-- What `lstat` finds under a name is in the directory that the path before it leads to. -/
theorem lstat_snoc (h : tree.realpath p = .ok q) (name : String) :
    tree.lstat (p ++ [name]) =
      match refusal tree.root q with
      | some e => .error e
      | none =>
        match nodeAt tree.root (q ++ [name]) with
        | some node => .ok node
        | none => .error .enoent := by
  have hsnoc := lookup_snoc tree false p name
  rw [realpath_eq_ok.mp h] at hsnoc
  obtain ⟨m, hm⟩ := hsnoc
  rw [Tree.lstat, hm]
  cases hdir : refusal tree.root q with
  | some e =>
    rw [walk_refused hdir]
    rfl
  | none =>
    rcases name_cases tree.root q name with ⟨target, hname⟩ | hname | ⟨child, hname, hlink⟩
    · rw [walk_lastLink hdir hname, hname]
      exact nodeOf_eq_ok.mpr ⟨_, rfl, hname⟩
    · rw [walk_missing hdir hname, hname]
      rfl
    · rw [walk_plain hdir hname hlink, hname]
      exact nodeOf_eq_ok.mpr ⟨_, rfl, hname⟩

theorem lstat_snoc_ok (h : tree.lstat (p ++ [name]) = .ok node) :
    ∃ q, tree.realpath p = .ok q ∧ refusal tree.root q = none ∧ nodeAt tree.root (q ++ [name]) = some node := by
  have hsnoc := lookup_snoc tree false p name
  cases hp : tree.lookup true p with
  | error e =>
    rw [hp] at hsnoc
    rw [Tree.lstat, hsnoc] at h
    cases h
  | ok place =>
    cases place with
    | absent dir missing =>
      rw [hp] at hsnoc
      rw [Tree.lstat, hsnoc] at h
      cases h
    | existing q =>
      have hreal := realpath_eq_ok.mpr hp
      rw [lstat_snoc hreal] at h
      cases hdir : refusal tree.root q with
      | some e => simp [hdir] at h
      | none =>
        simp only [hdir] at h
        cases hname : nodeAt tree.root (q ++ [name]) with
        | none => simp [hname] at h
        | some found =>
          simp only [hname] at h
          exact ⟨q, hreal, hdir, by rw [hname, Except.ok.inj h]⟩

/-- A name that is no link leads to its entry in the directory the path before it leads to. -/
theorem realpath_snoc (h : tree.realpath p = .ok q) (hdir : refusal tree.root q = none)
    (hname : nodeAt tree.root (q ++ [name]) = some node) (hlink : node.isLink = false) :
    tree.realpath (p ++ [name]) = .ok (q ++ [name]) := by
  have hsnoc := lookup_snoc tree true p name
  rw [realpath_eq_ok.mp h] at hsnoc
  obtain ⟨m, hm⟩ := hsnoc
  rw [realpath_eq_ok, hm, walk_plain hdir hname hlink]

theorem lstat_of_realpath (h : tree.realpath p = .ok q) : ∃ node, tree.lstat p = .ok node := by
  rcases eq_nil_or_concat p with rfl | ⟨above, name, rfl⟩
  · exact ⟨_, lstat_nil tree⟩
  · rw [concat_eq_append] at h ⊢
    have hsnoc := lookup_snoc tree true above name
    rw [realpath_eq_ok.mp h] at hsnoc
    cases habove : tree.lookup true above with
    | error e => rw [habove] at hsnoc; cases hsnoc
    | ok place =>
      cases place with
      | absent dir missing => rw [habove] at hsnoc; cases hsnoc
      | existing dir =>
        rw [lstat_snoc (realpath_eq_ok.mpr habove)]
        rw [habove] at hsnoc
        obtain ⟨m, hm⟩ := hsnoc
        cases hdir : refusal tree.root dir with
        | some e => rw [walk_refused hdir] at hm; cases hm
        | none =>
          cases hname : nodeAt tree.root (dir ++ [name]) with
          | none => rw [walk_missing hdir hname] at hm; cases hm
          | some node => exact ⟨node, rfl⟩

end Lookups

/-! ### Walks from a real directory -/

section Walks

variable {tree : Tree} {b : Bool} {p cc d lex : Path} {name : String} {node : Node} {place : Place}

theorem place_lands (h : tree.lookup b p = .ok place) : Lands tree.root b (.ok place) := by
  have hlands := lookup_lands tree b p
  rw [h] at hlands
  exact hlands

theorem leads_of_lookup (h : tree.lookup b p = .ok place) : Leads tree.root b [] (p.map .entry) place := ⟨_, h⟩

/-- A lookup that does not run out of links comes to where the walk leads. -/
theorem lookup_of_leads (hreal : tree.realpath lex = .ok cc) (hleads : Leads tree.root b cc [.entry name] place) :
    tree.lookup b (lex ++ [name]) = .ok place ∨ tree.lookup b (lex ++ [name]) = .error .eloop := by
  have hsnoc := lookup_snoc tree b lex name
  rw [realpath_eq_ok.mp hreal] at hsnoc
  obtain ⟨m, hm⟩ := hsnoc
  obtain ⟨n, hn⟩ := hleads
  by_cases hloop : walk tree.root b m cc [.entry name] = .error .eloop
  · exact Or.inr (hm.trans hloop)
  · left
    rw [hm]
    rcases Nat.le_total m n with hle | hle
    · rw [← walk_mono hle hloop, hn]
    · rw [walk_mono hle (by rw [hn]; exact nofun), hn]

/-- The first name of a walk that comes to an end: a missing name, a plain entry or a link. -/
theorem leads_name (h : Leads tree.root b cc [.entry name] place) :
    refusal tree.root cc = none ∧
      ((nodeAt tree.root (cc ++ [name]) = none ∧ place = .absent cc name) ∨
      (∃ node, nodeAt tree.root (cc ++ [name]) = some node ∧ node.isLink = false ∧
        place = .existing (cc ++ [name])) ∨
      ∃ target, nodeAt tree.root (cc ++ [name]) = some (.link target)) := by
  obtain ⟨n, hn⟩ := h
  cases hdir : refusal tree.root cc with
  | some e =>
    rw [walk_refused hdir] at hn
    cases hn
  | none =>
    refine ⟨rfl, ?_⟩
    rcases name_cases tree.root cc name with ⟨target, hname⟩ | hname | ⟨child, hname, hlink⟩
    · exact Or.inr (Or.inr ⟨target, hname⟩)
    · rw [walk_missing hdir hname] at hn
      exact Or.inl ⟨hname, (Except.ok.inj hn).symm⟩
    · rw [walk_plain hdir hname hlink] at hn
      exact Or.inr (Or.inl ⟨child, hname, hlink, (Except.ok.inj hn).symm⟩)

theorem leads_nil (h : Leads tree.root b cc [] place) : place = .existing cc := by
  obtain ⟨n, hn⟩ := h
  rw [walk_nil] at hn
  exact (Except.ok.inj hn).symm

theorem leads_existing {names : Path}
    (h : Leads tree.root true cc (.entry name :: names.map .entry) (.existing d)) :
    ∃ q, Leads tree.root true cc [.entry name] (.existing q) ∧ Leads tree.root true q (names.map .entry) (.existing d) := by
  cases names with
  | nil => exact ⟨d, h, 0, rfl⟩
  | cons first names =>
    have hsplit : Leads tree.root true cc ([.entry name] ++ (first :: names).map .entry) (.existing d) := h
    exact hsplit.split rfl

/-- A lookup that comes to a place finds the directory before the last name. -/
theorem lookup_parent {b : Bool} {above : Path} (h : tree.lookup b (above ++ [name]) = .ok place) :
    ∃ dir, tree.realpath above = .ok dir ∧ Leads tree.root b dir [.entry name] place := by
  have hsnoc := lookup_snoc tree b above name
  cases habove : tree.lookup true above with
  | error e =>
    rw [habove, h] at hsnoc
    cases hsnoc
  | ok first =>
    rw [habove, h] at hsnoc
    cases first with
    | absent dir missing => cases hsnoc
    | existing dir =>
      obtain ⟨m, hm⟩ := hsnoc
      exact ⟨dir, realpath_eq_ok.mpr habove, m, hm.symm⟩

theorem canonical_prefix (q rest : Path) (h : Canonical tree.root (q ++ rest)) : Canonical tree.root q := by
  cases rest with
  | nil =>
    rw [append_nil] at h
    exact h
  | cons name rest =>
    refine canonical_of_refusal (h.above q name rest rfl) ?_
    intro top first more htop
    refine h.above top first (more ++ name :: rest) ?_
    rw [htop, append_assoc, cons_append]

theorem isLink_of_broken {p : Path} {node : Node} (hstat : tree.lstat p = .ok node)
    (hbroken : ¬∃ q, tree.realpath p = .ok q) : node.isLink = true := by
  rcases eq_nil_or_concat p with rfl | ⟨above, name, rfl⟩
  · exact absurd ⟨[], realpath_nil tree⟩ hbroken
  · rw [concat_eq_append] at hstat hbroken
    obtain ⟨q, hreal, hdir, hname⟩ := lstat_snoc_ok hstat
    cases hlink : node.isLink with
    | true => rfl
    | false => exact absurd ⟨_, realpath_snoc hreal hdir hname hlink⟩ hbroken

/-- An entry that is no link is its own place, also for an unlink. -/
theorem lookup_of_plain {p q : Path} {node : Node} (hstat : tree.lstat p = .ok node) (hlink : node.isLink = false)
    (hreal : tree.realpath p = .ok q) : tree.lookup false p = .ok (.existing q) := by
  rcases eq_nil_or_concat p with rfl | ⟨above, name, rfl⟩
  · rw [realpath_nil] at hreal
    rw [← Except.ok.inj hreal]
    exact walk_nil _ _ _ _
  · rw [concat_eq_append] at hstat hreal ⊢
    obtain ⟨dir, hdirReal, hdir, hname⟩ := lstat_snoc_ok hstat
    rw [realpath_snoc hdirReal hdir hname hlink] at hreal
    have hsnoc := lookup_snoc tree false above name
    rw [realpath_eq_ok.mp hdirReal] at hsnoc
    obtain ⟨m, hm⟩ := hsnoc
    rw [hm, walk_plain hdir hname hlink, Except.ok.inj hreal]

/-- The place of a link, for an unlink: its entry in the directory before it. -/
theorem lookup_of_link {p : Path} {target : PathText} (hstat : tree.lstat p = .ok (.link target)) :
    ∃ above name dir, p = above ++ [name] ∧ tree.realpath above = .ok dir ∧
      nodeAt tree.root (dir ++ [name]) = some (.link target) ∧
      tree.lookup false p = .ok (.existing (dir ++ [name])) := by
  rcases eq_nil_or_concat p with rfl | ⟨above, name, rfl⟩
  · rw [lstat_nil] at hstat
    cases hstat
  · rw [concat_eq_append] at hstat ⊢
    obtain ⟨dir, hdirReal, hdir, hname⟩ := lstat_snoc_ok hstat
    have hsnoc := lookup_snoc tree false above name
    rw [realpath_eq_ok.mp hdirReal] at hsnoc
    obtain ⟨m, hm⟩ := hsnoc
    exact ⟨above, name, dir, rfl, hdirReal, hname, by rw [hm, walk_lastLink hdir hname]⟩

theorem real_ne_link {p q loc : Path} {target : PathText} (hreal : tree.realpath p = .ok q)
    (hlink : nodeAt tree.root loc = some (.link target)) : loc ≠ q := by
  rintro rfl
  have hplain := (canonical_of_realpath hreal).plain _ hlink
  cases hplain

end Walks

end OpenClaw.Foundation.FileTree
