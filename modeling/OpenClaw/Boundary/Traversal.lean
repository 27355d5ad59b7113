import OpenClaw.Boundary.ExistingAncestor
import OpenClaw.Foundation.MapM

/-! The walk below the root, beside the walk of the operating system.

The canonical cursor is the real path of the lexical one, so the walk reaches the directory that
the operating system reaches; only a link at the end that leads nowhere sends the two apart. -/
namespace OpenClaw.Boundary
open Foundation.FileTree List

def EndsInLink (tree : Tree) (p : Path) : Prop := ∃ target, tree.lstat p = .ok (.link target)

/-- One of the directories on the way is reached through a link. -/
def LinkOnWay (tree : Tree) (start dirs : Path) : Prop :=
  ∃ front, front ≠ [] ∧ front <+: dirs ∧ ∃ target, tree.lstat (start ++ front) = .ok (.link target)

/-! ### The walk below the root -/

section Traversal

variable {tree : Tree} {cwd : Path} {params : ResolveBoundaryPathParams} {b : Bool} {canonicalRoot absolutePath : Path}
  {cc d lex dirs : Path} {last : String} {place : Place} {st : LexicalTraversalState}

theorem linkOnWay_plain {segment : String} {node : Node} (hstat : tree.lstat (lex ++ [segment]) = .ok node)
    (hlink : node.isLink = false) (rest : Path) :
    LinkOnWay tree lex (segment :: rest) ↔ LinkOnWay tree (lex ++ [segment]) rest := by
  constructor
  · rintro ⟨front, hne, hprefix, target, htarget⟩
    cases front with
    | nil => exact absurd rfl hne
    | cons first front =>
      obtain ⟨rfl, hfront⟩ := cons_prefix_cons.mp hprefix
      by_cases hnil : front = []
      · rw [hnil, hstat] at htarget
        rw [Except.ok.inj htarget] at hlink
        cases hlink
      · refine ⟨front, hnil, hfront, target, ?_⟩
        rw [append_assoc]
        exact htarget
  · rintro ⟨front, -, hprefix, target, htarget⟩
    refine ⟨segment :: front, nofun, cons_prefix_cons.mpr ⟨rfl, hprefix⟩, target, ?_⟩
    rw [append_assoc] at htarget
    exact htarget

theorem linkOnWay_link {segment : String} {target : PathText}
    (hstat : tree.lstat (lex ++ [segment]) = .ok (.link target)) (rest : Path) :
    LinkOnWay tree lex (segment :: rest) :=
  ⟨[segment], nofun, cons_prefix_cons.mpr ⟨rfl, nil_prefix⟩, target, hstat⟩

theorem advance_ok {state : LexicalTraversalState} {segments : Path}
    (h : advanceCanonicalCursor params canonicalRoot absolutePath state segments = .ok st) :
    st = {state with canonicalCursor := state.canonicalCursor ++ segments} := by
  unfold advanceCanonicalCursor assertInsideBoundary at h
  by_cases hinside : isPathInside canonicalRoot (state.canonicalCursor ++ segments) = true
  · simp only [hinside, if_true] at h
    exact (Except.ok.inj h).symm
  · simp only [hinside] at h
    cases h

/-- The hop of a link that leads somewhere is its real path. -/
theorem hop_of_lookup {link q : Path} {hop : Path}
    (h : tree.lookup true link = .ok (.existing q) ∨ tree.lookup true link = .error .eloop)
    (hhop : resolveSymlinkHopPath tree cwd link = .ok hop) : tree.realpath link = .ok q ∧ hop = q := by
  rcases h with h | h
  · have hreal := realpath_eq_ok.mpr h
    unfold resolveSymlinkHopPath symlinkHopPath at hhop
    rw [hreal] at hhop
    exact ⟨hreal, (Except.ok.inj hhop).symm⟩
  · have hreal : tree.realpath link = .error .eloop := by
      unfold Tree.realpath
      rw [h]
    unfold resolveSymlinkHopPath symlinkHopPath at hhop
    rw [hreal] at hhop
    cases hhop

theorem system_ok {α : Type} {x : Except Errno α} {a : α} (h : system x = .ok a) : x = .ok a := by
  cases x with
  | ok value => exact congrArg Except.ok (Except.ok.inj h)
  | error e => cases h

theorem applyResolvedSymlinkHop_ok {state : LexicalTraversalState} {hop : Path}
    (h : applyResolvedSymlinkHop params canonicalRoot state hop = .ok st) :
    st = {state with canonicalCursor := hop, lexicalCursor := hop} := by
  unfold applyResolvedSymlinkHop at h
  by_cases hinside : isPathInside canonicalRoot hop = true
  · rw [if_pos hinside] at h
    exact (Except.ok.inj h).symm
  · rw [if_neg hinside] at h
    cases h

/-- Where the operating system gets through the directories, the walk gets to the same directory. -/
theorem traversal_reaches (hreal : tree.realpath lex = .ok cc)
    (hdirs : Leads tree.root true cc (dirs.map .entry) (.existing d))
    (h : lexicalTraversal tree params canonicalRoot absolutePath (resolveSymlinkHopPath tree cwd) ⟨cc, lex, false⟩
      (dirs ++ [last]) = .ok st) :
    ∃ dir, ((¬LinkOnWay tree lex dirs ∧ dir = lex ++ dirs ∧ d = cc ++ dirs) ∨ (LinkOnWay tree lex dirs ∧ dir = d)) ∧
      tree.realpath dir = .ok d ∧
      lexicalTraversal tree params canonicalRoot absolutePath (resolveSymlinkHopPath tree cwd) ⟨d, dir, false⟩ [last] =
        .ok st := by
  induction dirs generalizing lex cc with
  | nil =>
    have hd : d = cc := by
      have hplace := leads_nil hdirs
      injection hplace
    refine ⟨lex, Or.inl ⟨?_, (append_nil lex).symm, by rw [hd, append_nil]⟩, by rw [hd, hreal], by rw [hd]; exact h⟩
    rintro ⟨front, hne, hprefix, -⟩
    exact hne (prefix_nil.mp hprefix)
  | cons segment rest ih =>
    obtain ⟨q, hq, hrest⟩ := leads_existing hdirs
    obtain ⟨hdir, hcases⟩ := leads_name hq
    have hstat := lstat_snoc hreal segment
    rw [hdir] at hstat
    rw [cons_append] at h
    rcases hcases with ⟨-, habsent⟩ | ⟨node, hname, hlink, hplace⟩ | ⟨target, hname⟩
    · cases habsent
    · simp only [hname] at hstat
      rw [lexicalTraversal_plain hstat hlink] at h
      obtain ⟨state, hstate, h⟩ := Foundation.bind_ok_iff.mp h
      rw [advance_ok hstate] at h
      have hqcc : q = cc ++ [segment] := by injection hplace
      rw [hqcc] at hrest
      obtain ⟨dir, hway, hdirReal, hlast⟩ := ih (realpath_snoc hreal hdir hname hlink) hrest h
      refine ⟨dir, ?_, hdirReal, hlast⟩
      rw [linkOnWay_plain hstat hlink]
      rw [append_assoc, append_assoc] at hway
      exact hway
    · simp only [hname] at hstat
      have hnotLast : (allowFinalSymlink params && (rest ++ [last]).isEmpty) = false := by
        cases rest with
        | _ => exact Bool.and_false _
      rw [lexicalTraversal_link hstat rfl hnotLast] at h
      obtain ⟨hop, hhop, h⟩ := Foundation.bind_ok_iff.mp h
      obtain ⟨state, hstate, h⟩ := Foundation.bind_ok_iff.mp h
      obtain ⟨hlinkReal, rfl⟩ := hop_of_lookup (lookup_of_leads hreal hq) (system_ok hhop)
      rw [applyResolvedSymlinkHop_ok hstate] at h
      obtain ⟨dir, hway, hdirReal, hlast⟩ := ih (realpath_realpath hlinkReal) hrest h
      refine ⟨dir, Or.inr ⟨linkOnWay_link hstat rest, ?_⟩, hdirReal, hlast⟩
      rcases hway with ⟨-, hdir, hd⟩ | ⟨-, hdir⟩
      · rw [hdir, hd]
      · exact hdir

/-- The last segment: the walk ends at the place of the operating system, or at what the text of a
link that leads nowhere resolves to. -/
theorem traversal_ends {dir : Path} (hreal : tree.realpath dir = .ok d)
    (hleads : Leads tree.root (!allowFinalSymlink params) d [.entry last] place)
    (h : lexicalTraversal tree params canonicalRoot absolutePath (resolveSymlinkHopPath tree cwd) ⟨d, dir, false⟩ [last] =
      .ok st) :
    (st.canonicalCursor = place.path ∧
        ¬(allowFinalSymlink params = false ∧ EndsInLink tree (dir ++ [last]) ∧ place.Missing)) ∨
      (allowFinalSymlink params = false ∧ place.Missing ∧ ∃ target, tree.lstat (dir ++ [last]) = .ok (.link target) ∧
        resolveFromAncestor tree (pathExists tree) (target.resolve dir) = .ok st.canonicalCursor) := by
  obtain ⟨hdir, hcases⟩ := leads_name hleads
  have hstat := lstat_snoc hreal last
  rw [hdir] at hstat
  rcases hcases with ⟨hname, rfl⟩ | ⟨node, hname, hlink, rfl⟩ | ⟨target, hname⟩
  · simp only [hname] at hstat
    rw [lexicalTraversal_failed hstat] at h
    left
    rw [advance_ok h]
    refine ⟨rfl, ?_⟩
    rintro ⟨-, ⟨target, htarget⟩, -⟩
    rw [hstat] at htarget
    cases htarget
  · simp only [hname] at hstat
    rw [lexicalTraversal_plain hstat hlink] at h
    obtain ⟨state, hstate, h⟩ := Foundation.bind_ok_iff.mp h
    rw [advance_ok hstate] at h
    left
    rw [← Except.ok.inj h]
    exact ⟨rfl, fun hmissing => hmissing.2.2⟩
  · simp only [hname] at hstat
    cases hallow : allowFinalSymlink params with
    | true =>
      have hlast : (allowFinalSymlink params && ([] : Path).isEmpty) = true := by rw [hallow]; rfl
      rw [lexicalTraversal_preserved hstat rfl hlast] at h
      left
      rw [advance_ok h]
      obtain ⟨n, hn⟩ := hleads
      rw [hallow, Bool.not_true, walk_lastLink hdir hname] at hn
      rw [← Except.ok.inj hn]
      exact ⟨rfl, fun hfalse => by cases hfalse.1⟩
    | false =>
      have hlast : (allowFinalSymlink params && ([] : Path).isEmpty) = false := by rw [hallow]; rfl
      rw [lexicalTraversal_link hstat rfl hlast] at h
      obtain ⟨hop, hhop, h⟩ := Foundation.bind_ok_iff.mp h
      obtain ⟨state, hstate, h⟩ := Foundation.bind_ok_iff.mp h
      have hst : st.canonicalCursor = hop := by
        rw [← Except.ok.inj h, applyResolvedSymlinkHop_ok hstate]
      rw [hallow, Bool.not_false] at hleads
      have hlookup := lookup_of_leads hreal hleads
      cases place with
      | existing q =>
        left
        rw [hst]
        exact ⟨(hop_of_lookup hlookup (system_ok hhop)).2, fun hmissing => hmissing.2.2⟩
      | absent missing name =>
        right
        have hhop := system_ok hhop
        unfold resolveSymlinkHopPath symlinkHopPath at hhop
        rcases hlookup with hlookup | hlookup
        · have hrealLink : tree.realpath (dir ++ [last]) = .error .enoent := by
            unfold Tree.realpath
            rw [hlookup]
          have hread : tree.readlink (dir ++ [last]) = .ok target := by rw [Tree.readlink, hstat]
          rw [hrealLink, hread, dropLast_concat] at hhop
          refine ⟨rfl, trivial, target, hstat, ?_⟩
          rw [hst, ← hhop, ← resolve_text cwd (target.resolve dir)]
          rfl
        · have hrealLink : tree.realpath (dir ++ [last]) = .error .eloop := by
            unfold Tree.realpath
            rw [hlookup]
          rw [hrealLink] at hhop
          cases hhop

end Traversal

end OpenClaw.Boundary
