import OpenClaw.Boundary.ExistingAncestor

/-! Where the two resolvers agree.

Both look for the nearest ancestor that exists. `lstat` stops at the deepest entry on the path, a
link that leads nowhere included, and gives up on any error but a missing entry; `existsSync` goes
on from such a link to its directory, and past every error. -/
namespace OpenClaw.Boundary
open Foundation.FileTree List

/-! ### The condition -/

/-- An entry that both tests take for the same: it can be read, and leads somewhere or lies in a
directory that is its own real path. -/
def SettledEntry (tree : Tree) (entry : Path) : Prop :=
  (∃ node, tree.lstat entry = .ok node) ∧
    ((∃ node, tree.stat entry = .ok node) ∨ tree.realpath entry.dropLast = .ok entry.dropLast)

def Settled (tree : Tree) (p : Path) : Prop :=
  ∀ entry rest, DeepestEntry tree p entry rest → SettledEntry tree entry

/-- The paths that one call resolves through an ancestor are settled. -/
structure SettledFor (tree : Tree) (cwd : Path) (params : ResolveBoundaryPathParams) : Prop where
  root : params.rootCanonicalPath = none → Settled tree (params.rootPath.resolve cwd)
  outside : isPathInside (params.rootPath.resolve cwd) (params.absolutePath.resolve cwd) = false →
    Settled tree (params.absolutePath.resolve cwd)
  targets : ∀ link target, tree.lstat link = .ok (.link target) → (¬∃ node, tree.stat link = .ok node) →
    Settled tree (target.resolve link.dropLast)

/-- The same result, or both throw. -/
def SameOutcome {ε α : Type} (a b : Except ε α) : Prop :=
  match a, b with
  | .ok x, .ok y => x = y
  | .error _, .error _ => True
  | _, _ => False

/-! ### The synchronous answer -/

section Ancestors

variable {tree : Tree} {p entry rest : Path}

theorem settled_iff (h : DeepestEntry tree p entry rest) : Settled tree p ↔ SettledEntry tree entry := by
  constructor
  · intro hsettled
    exact hsettled entry rest h
  · intro hentry entry' rest' h'
    rw [h.unique h']
    exact hentry

theorem existsSync_of_notFound (h : NotFound (tree.lstat p)) : existsSync tree p = false := by
  obtain ⟨e, he, -⟩ := h
  unfold existsSync
  cases hstat : tree.stat p with
  | error e => rfl
  | ok node =>
    obtain ⟨q, hq⟩ := stat_ok_iff.mp ⟨node, hstat⟩
    obtain ⟨node, hnode⟩ := lstat_of_realpath hq
    rw [he] at hnode
    cases hnode

theorem existsSync_eq_true : existsSync tree p = true ↔ ∃ q, tree.realpath p = .ok q := by
  rw [← stat_ok_iff]
  unfold existsSync
  cases tree.stat p with
  | ok node => exact ⟨fun _ => ⟨node, rfl⟩, fun _ => rfl⟩
  | error e => exact ⟨nofun, nofun⟩

theorem sync_answer_real (hdeep : DeepestEntry tree p entry rest) {q : Path} (hreal : tree.realpath entry = .ok q) :
    resolveFromAncestor tree (fun p => .ok (existsSync tree p)) p = .ok (q ++ rest) :=
  resolveFromAncestor_real hdeep.split
    (fun more left hmore hne => congrArg Except.ok (existsSync_of_notFound (hdeep.beyond more left hmore hne)))
    (congrArg Except.ok (existsSync_eq_true.mpr ⟨q, hreal⟩)) hreal

/-- At a link that leads nowhere the synchronous version goes on to the directory of the link. -/
theorem sync_answer_link (hdeep : DeepestEntry tree p entry rest) {node : Node} (hentry : tree.lstat entry = .ok node)
    (hbroken : ¬∃ q, tree.realpath entry = .ok q) :
    ∃ above name real, entry = above ++ [name] ∧ tree.realpath above = .ok real ∧
      resolveFromAncestor tree (fun p => .ok (existsSync tree p)) p = .ok (real ++ name :: rest) := by
  rcases eq_nil_or_concat entry with hnil | ⟨above, name, hconcat⟩
  · exact absurd ⟨[], by rw [hnil]; exact realpath_nil tree⟩ hbroken
  · rw [concat_eq_append] at hconcat
    rw [hconcat] at hentry
    obtain ⟨real, hreal, -, -⟩ := lstat_snoc_ok hentry
    refine ⟨above, name, real, hconcat, hreal, ?_⟩
    have hsplit : p = above ++ name :: rest := by rw [hdeep.split, hconcat, append_assoc]; rfl
    refine resolveFromAncestor_real hsplit ?_ (congrArg Except.ok (existsSync_eq_true.mpr ⟨real, hreal⟩)) hreal
    intro more left hmore hne
    cases more with
    | nil => exact absurd rfl hne
    | cons first more =>
      rw [cons_append] at hmore
      injection hmore with hfirst hmore
      have hpath : above ++ first :: more = entry ++ more := by
        rw [hconcat, ← hfirst, append_assoc]
        rfl
      rw [hpath]
      congr 1
      by_cases hnil : more = []
      · rw [hnil, append_nil]
        cases hexists : existsSync tree entry with
        | false => rfl
        | true => exact absurd (existsSync_eq_true.mp hexists) hbroken
      · exact existsSync_of_notFound (hdeep.beyond more left hmore hnil)

theorem sync_answers (tree : Tree) (p : Path) :
    ∃ answer, resolveFromAncestor tree (fun p => .ok (existsSync tree p)) p = .ok answer := by
  have hloop : ∀ up missing, ∃ found, existingAncestor (fun p => .ok (existsSync tree p)) up missing = .ok found := by
    intro up
    induction up with
    | nil => exact fun missing => ⟨_, rfl⟩
    | cons name above ih =>
      intro missing
      rw [existingAncestor]
      cases existsSync tree (name :: above).reverse with
      | true => exact ⟨_, rfl⟩
      | false => exact ih (name :: missing)
  obtain ⟨⟨cursor, missing⟩, hfound⟩ := hloop p.reverse []
  unfold resolveFromAncestor
  rw [hfound]
  show ∃ answer, (if existsSync tree cursor = true then _ else _) = Except.ok answer
  by_cases hexists : existsSync tree cursor = true
  · rw [if_pos hexists]
    cases tree.realpath cursor with
    | _ => exact ⟨_, rfl⟩
  · rw [if_neg hexists]
    exact ⟨_, rfl⟩

/-- The two versions resolve a path through its ancestors to the same exactly when it is settled. -/
theorem ancestors_agree_iff (tree : Tree) (p : Path) :
    resolveFromAncestor tree (pathExists tree) p = resolveFromAncestor tree (fun p => .ok (existsSync tree p)) p ↔
      Settled tree p := by
  obtain ⟨entry, rest, hdeep⟩ := exists_deepestEntry tree p
  rw [settled_iff hdeep, async_answer hdeep]
  cases hentry : tree.lstat entry with
  | error e =>
    obtain ⟨answer, hsync⟩ := sync_answers tree p
    rw [hsync]
    constructor
    · intro h
      cases h
    · rintro ⟨⟨node, hnode⟩, -⟩
      rw [hentry] at hnode
      cases hnode
  | ok node =>
    by_cases hreal : ∃ q, tree.realpath entry = .ok q
    · obtain ⟨q, hq⟩ := hreal
      rw [sync_answer_real hdeep hq, hq]
      exact ⟨fun _ => ⟨⟨node, hentry⟩, Or.inl (stat_ok_iff.mpr ⟨q, hq⟩)⟩, fun _ => rfl⟩
    · obtain ⟨above, name, real, hconcat, habove, hsync⟩ := sync_answer_link hdeep hentry hreal
      cases hbroken : tree.realpath entry with
      | ok q => exact absurd ⟨q, hbroken⟩ hreal
      | error e =>
        have hdrop : entry.dropLast = above := by rw [hconcat, dropLast_concat]
        have hp : p = above ++ (name :: rest) := by rw [hdeep.split, hconcat, append_assoc]; rfl
        rw [hsync]
        constructor
        · intro h
          have hsame : above = real := by
            rw [hp] at h
            exact (append_left_inj _).mp (Except.ok.inj h)
          refine ⟨⟨node, hentry⟩, Or.inr ?_⟩
          rw [hdrop]
          exact habove.trans (congrArg Except.ok hsame.symm)
        · rintro ⟨-, hstat | hcanonical⟩
          · exact absurd (stat_ok_iff.mp hstat) hreal
          · rw [hdrop, habove] at hcanonical
            show Except.ok p = _
            rw [hp, Except.ok.inj hcanonical]

end Ancestors

/-! ### The walks -/

section Resolvers

variable {tree : Tree} {cwd : Path} {params : ResolveBoundaryPathParams}

theorem lexicalTraversal_congr {hop hop' : Path → Except Errno Path} (rootCanonicalPath absolutePath : Path)
    (hhop : ∀ link target, tree.lstat link = .ok (.link target) → hop link = hop' link)
    (state : LexicalTraversalState) (segments : Path) :
    lexicalTraversal tree params rootCanonicalPath absolutePath hop state segments =
      lexicalTraversal tree params rootCanonicalPath absolutePath hop' state segments := by
  induction segments generalizing state with
  | nil => rfl
  | cons segment rest ih =>
    cases hstat : tree.lstat (state.lexicalCursor ++ [segment]) with
    | error e => rw [lexicalTraversal_failed hstat, lexicalTraversal_failed hstat]
    | ok stat =>
      cases hlink : stat.isLink with
      | false =>
        rw [lexicalTraversal_plain hstat hlink, lexicalTraversal_plain hstat hlink]
        exact congrArg (_ >>= ·) (funext ih)
      | true =>
        cases hlast : allowFinalSymlink params && rest.isEmpty with
        | true => rw [lexicalTraversal_preserved hstat hlink hlast, lexicalTraversal_preserved hstat hlink hlast]
        | false =>
          obtain ⟨target, rfl⟩ := target_of_isLink hlink
          rw [lexicalTraversal_link hstat hlink hlast, lexicalTraversal_link hstat hlink hlast,
            hhop _ target hstat]
          congr 1
          funext linkCanonical
          exact congrArg (_ >>= ·) (funext ih)

theorem resolvers_agree (h : SettledFor tree cwd params) :
    resolveBoundaryPath tree cwd params = resolveBoundaryPathSync tree cwd params := by
  have hroot : params.rootCanonicalPath = none →
      resolvePathViaExistingAncestor tree cwd (Path.text (params.rootPath.resolve cwd)) =
        resolvePathViaExistingAncestorSync tree cwd (Path.text (params.rootPath.resolve cwd)) := by
    intro hnone
    unfold resolvePathViaExistingAncestor resolvePathViaExistingAncestorSync
    rw [resolve_text]
    exact (ancestors_agree_iff tree _).mpr (h.root hnone)
  have houtside : resolveOutsideLexicalCanonicalPath (resolvePathViaExistingAncestor tree cwd)
      (params.rootPath.resolve cwd) (params.absolutePath.resolve cwd) =
      resolveOutsideLexicalCanonicalPath (resolvePathViaExistingAncestorSync tree cwd)
        (params.rootPath.resolve cwd) (params.absolutePath.resolve cwd) := by
    unfold resolveOutsideLexicalCanonicalPath
    cases hinside : isPathInside (params.rootPath.resolve cwd) (params.absolutePath.resolve cwd) with
    | true => rfl
    | false =>
      unfold resolvePathViaExistingAncestor resolvePathViaExistingAncestorSync
      rw [resolve_text, (ancestors_agree_iff tree _).mpr (h.outside hinside)]
  have hhop : ∀ link target, tree.lstat link = .ok (.link target) →
      resolveSymlinkHopPath tree cwd link = resolveSymlinkHopPathSync tree cwd link := by
    intro link target hlink
    unfold resolveSymlinkHopPath resolveSymlinkHopPathSync symlinkHopPath
    cases hreal : tree.realpath link with
    | ok real => rfl
    | error e =>
      have hbroken : ¬∃ node, tree.stat link = .ok node := by
        rw [stat_ok_iff, hreal]
        rintro ⟨q, hq⟩
        cases hq
      have htarget : tree.readlink link = .ok target := by rw [Tree.readlink, hlink]
      rw [htarget]
      have hsame : resolvePathViaExistingAncestor tree cwd (Path.text (target.resolve link.dropLast)) =
          resolvePathViaExistingAncestorSync tree cwd (Path.text (target.resolve link.dropLast)) := by
        unfold resolvePathViaExistingAncestor resolvePathViaExistingAncestorSync
        rw [resolve_text]
        exact (ancestors_agree_iff tree _).mpr (h.targets link target hlink hbroken)
      show (if isNotFoundPathError e then
          (Except.ok target >>= fun linkTarget : PathText =>
            resolvePathViaExistingAncestor tree cwd (Path.text (linkTarget.resolve link.dropLast)))
        else .error e) = if isNotFoundPathError e then
          (Except.ok target >>= fun linkTarget : PathText =>
            resolvePathViaExistingAncestorSync tree cwd (Path.text (linkTarget.resolve link.dropLast)))
        else .error e
      cases isNotFoundPathError e with
      | true => exact hsame
      | false => rfl
  have hlexical : resolveBoundaryPathLexicalAsync tree cwd params = resolveBoundaryPathLexicalSync tree cwd params := by
    funext rootPath rootCanonicalPath absolutePath
    unfold resolveBoundaryPathLexicalAsync resolveBoundaryPathLexicalSync lexicalResolution
    rw [lexicalTraversal_congr rootCanonicalPath absolutePath hhop]
  have hcanonical : resolveRootCanonicalPath cwd params (resolvePathViaExistingAncestor tree cwd)
      (params.rootPath.resolve cwd) =
      resolveRootCanonicalPath cwd params (resolvePathViaExistingAncestorSync tree cwd)
        (params.rootPath.resolve cwd) := by
    unfold resolveRootCanonicalPath
    cases hgiven : params.rootCanonicalPath with
    | some given => rfl
    | none => rw [hroot hgiven]
  unfold resolveBoundaryPath resolveBoundaryPathSync resolveBoundaryPathVia resolveAgainstRoot
  rw [hcanonical, houtside, hlexical]

theorem sameOutcome_of_eq {ε α : Type} {a b : Except ε α} (h : a = b) : SameOutcome a b := by
  rw [h]
  cases b with
  | ok x => rfl
  | error e => trivial

/-- `/a` leads to `/d`, where `x` is a link to a name that is missing. The root is `/d`, and the link
`l` in it names `/a/x`. -/
def danglingTree : Tree where
  searchable := true
  maxLinks := 40
  entries :=
    [("a", .link ⟨true, [.entry "d"]⟩),
      ("d", .dir true [("x", .link ⟨false, [.entry "gone"]⟩), ("l", .link ⟨true, [.entry "a", .entry "x"]⟩)])]

end Resolvers

end OpenClaw.Boundary
