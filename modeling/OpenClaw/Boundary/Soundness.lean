import OpenClaw.Boundary.Traversal

/-! Where the operating system goes for a resolved path.

The walk below the root keeps its canonical cursor at the real path of its lexical one, so up to
the last segment it goes where the operating system goes. The two part at a link at the end that
leads nowhere: the walk reads its text once and lexically, and takes a second such link for a
missing place. A path outside the root is resolved without a look at such a link at all, and an
unlink removes the link at the end of a path where the resolver has followed it. -/
namespace OpenClaw.Boundary
open Foundation.FileTree List

/-! ### The property and the condition -/

/-- The place, if there is one, is inside the root and the one returned. -/
def GoesWhereReturned (tree : Tree) (followLast : Bool) (canonicalRoot : Path) (r : ResolvedBoundaryPath) : Prop :=
  ∀ loc, location tree followLast r.absolutePath = some loc → canonicalRoot <+: loc ∧ loc = r.canonicalPath

/-- The directory against which the text of a link at the end of `start ++ dirs ++ [last]` is read. -/
def LinkDirectory (tree : Tree) (start dirs dir : Path) : Prop :=
  (¬LinkOnWay tree start dirs ∧ dir = start ++ dirs) ∨
    (LinkOnWay tree start dirs ∧ tree.realpath (start ++ dirs) = .ok dir)

/-- A path does not end in a link that leads to a place to create, or is inside the root, and the
text of the link names nothing that is there and leads to that place when it is read lexically. -/
def EndsStraight (tree : Tree) (rootPath p : Path) : Prop :=
  ∀ target loc, tree.lstat p = .ok (.link target) → (¬∃ node, tree.stat p = .ok node) →
    location tree true p = some loc →
    ∃ dirs last dir, p = rootPath ++ dirs ++ [last] ∧ isPathInside rootPath p = true ∧
      LinkDirectory tree rootPath dirs dir ∧ NotFound (tree.lstat (target.resolve dir)) ∧
      location tree true (target.resolve dir) = some loc

/-- A path does not end in a link, or the link is below the root, or it is outside, leads nowhere and
lies in a directory that is its own real path. -/
def EndsUnlinkable (tree : Tree) (rootPath p : Path) : Prop :=
  ∀ target, tree.lstat p = .ok (.link target) →
    (isPathInside rootPath p = true ∧ p ≠ rootPath) ∨
      (isPathInside rootPath p = false ∧ (¬∃ node, tree.stat p = .ok node) ∧
        tree.realpath p.dropLast = .ok p.dropLast)

/-! ### Paths inside the root -/

theorem relative_prefix (root rest : Path) : relative root (root ++ rest) = rest := by
  induction root with
  | nil => rfl
  | cons name root ih =>
    show (if name = name then relative root (root ++ rest) else _) = rest
    rw [if_pos rfl, ih]

theorem prefix_of_inside {root target : Path} (h : isPathInside root target = true) : root <+: target := by
  induction root generalizing target with
  | nil => exact nil_prefix
  | cons name root ih =>
    cases target with
    | nil => exact absurd h (show ¬(!Foundation.EcmaString.startsWith ".." "..") = true from by decide)
    | cons first target =>
      by_cases hname : name = first
      · have hrelative : relative (name :: root) (first :: target) = relative root target := if_pos hname
        unfold isPathInside at h
        rw [hrelative] at h
        rw [hname]
        exact cons_prefix_cons.mpr ⟨rfl, ih h⟩
      · have hrelative : relative (name :: root) (first :: target) =
            (name :: root).map (fun _ => "..") ++ first :: target := if_neg hname
        unfold isPathInside at h
        rw [hrelative] at h
        exact absurd h (show ¬(!Foundation.EcmaString.startsWith ".." "..") = true from by decide)

/-! ### The resolver -/

section Resolver

variable {tree : Tree} {cwd : Path} {params : ResolveBoundaryPathParams} {canonicalRoot : Path} {r : ResolvedBoundaryPath}

/-- What a call that returns has done. -/
structure Returned (tree : Tree) (cwd : Path) (params : ResolveBoundaryPathParams) (canonicalRoot : Path)
    (r : ResolvedBoundaryPath) : Prop where
  absolutePath : r.absolutePath = params.absolutePath.resolve cwd
  inside : isPathInside canonicalRoot r.canonicalPath = true
  walked : isPathInside (params.rootPath.resolve cwd) (params.absolutePath.resolve cwd) = true →
    ∃ st, lexicalTraversal tree params canonicalRoot (params.absolutePath.resolve cwd) (resolveSymlinkHopPath tree cwd)
        ⟨canonicalRoot, params.rootPath.resolve cwd, false⟩
        (relative (params.rootPath.resolve cwd) (params.absolutePath.resolve cwd)) = .ok st ∧
      r.canonicalPath = st.canonicalCursor
  outside : isPathInside (params.rootPath.resolve cwd) (params.absolutePath.resolve cwd) = false →
    resolveFromAncestor tree (pathExists tree) (params.absolutePath.resolve cwd) = .ok r.canonicalPath

theorem inside_of_assert {label : String} {root candidate p : Path}
    (h : assertInsideBoundary label root candidate p = .ok ()) : isPathInside root candidate = true := by
  unfold assertInsideBoundary at h
  cases hinside : isPathInside root candidate with
  | true => rfl
  | false =>
    rw [hinside] at h
    cases h

theorem returned_of_ok (hroot : tree.realpath (params.rootPath.resolve cwd) = .ok canonicalRoot)
    (hgiven : ∀ given, params.rootCanonicalPath = some given → given.resolve cwd = canonicalRoot)
    (h : resolveBoundaryPath tree cwd params = .ok r) : Returned tree cwd params canonicalRoot r := by
  unfold resolveBoundaryPath resolveBoundaryPathVia at h
  obtain ⟨root, hcanonical, h⟩ := Foundation.bind_ok_iff.mp h
  have hrootEq : root = canonicalRoot := by
    unfold resolveRootCanonicalPath at hcanonical
    cases hparam : params.rootCanonicalPath with
    | some given =>
      rw [hparam] at hcanonical
      rw [← hgiven given hparam, Except.ok.inj hcanonical]
    | none =>
      rw [hparam] at hcanonical
      have hvia := system_ok hcanonical
      unfold resolvePathViaExistingAncestor at hvia
      rw [resolve_text, resolveFromAncestor_of_realpath hroot] at hvia
      exact (Except.ok.inj hvia).symm
  rw [hrootEq] at h
  unfold resolveAgainstRoot at h
  obtain ⟨outside, houtside, h⟩ := Foundation.bind_ok_iff.mp h
  obtain ⟨context, hcontext, h⟩ := Foundation.bind_ok_iff.mp h
  obtain ⟨result, hresult, h⟩ := Foundation.bind_ok_iff.mp h
  have hctx : context = ⟨params.rootPath.resolve cwd, params.absolutePath.resolve cwd, canonicalRoot,
      isPathInside (params.rootPath.resolve cwd) (params.absolutePath.resolve cwd),
      outside.getD (params.absolutePath.resolve cwd)⟩ := by
    unfold createBoundaryResolutionContext at hcontext
    obtain ⟨-, -, hcontext⟩ := Foundation.bind_ok_iff.mp hcontext
    exact (Except.ok.inj hcontext).symm
  rw [hctx] at h hresult
  unfold resolveOutsideBoundaryPath at hresult
  have houtside := system_ok houtside
  unfold resolveOutsideLexicalCanonicalPath at houtside
  cases hinside : isPathInside (params.rootPath.resolve cwd) (params.absolutePath.resolve cwd) with
  | true =>
    simp only [hinside, if_true] at hresult
    rw [← Except.ok.inj hresult] at h
    unfold resolveBoundaryPathLexicalAsync lexicalResolution at h
    obtain ⟨st, hst, h⟩ := Foundation.bind_ok_iff.mp h
    obtain ⟨kind, -, h⟩ := Foundation.bind_ok_iff.mp h
    unfold finalizeLexicalResolution at h
    obtain ⟨_, hassert, h⟩ := Foundation.bind_ok_iff.mp h
    rw [← Except.ok.inj h]
    exact ⟨rfl, inside_of_assert hassert, fun _ => ⟨st, hst, rfl⟩, fun hfalse => by cases hinside.symm.trans hfalse⟩
  | false =>
    simp only [hinside, Bool.false_eq_true, if_false] at hresult houtside
    obtain ⟨kind, -, hresult⟩ := Foundation.bind_ok_iff.mp hresult
    obtain ⟨_, hassert, hresult⟩ := Foundation.bind_ok_iff.mp hresult
    rw [← Except.ok.inj hresult] at h
    have hr := Except.ok.inj h
    unfold resolvePathViaExistingAncestor at houtside
    rw [resolve_text] at houtside
    cases hvia : resolveFromAncestor tree (pathExists tree) (params.absolutePath.resolve cwd) with
    | error e =>
      rw [hvia] at houtside
      cases houtside
    | ok c =>
      rw [hvia] at houtside
      have houtside : some c = outside := Except.ok.inj houtside
      rw [← houtside] at hr hassert
      rw [← hr]
      exact ⟨rfl, inside_of_assert hassert, (by rw [hinside]; exact nofun), fun _ => hvia⟩

/-! ### Where the resolver is right -/

theorem goes_iff {b : Bool} (h : Returned tree cwd params canonicalRoot r) :
    GoesWhereReturned tree b canonicalRoot r ↔
      ∀ place, tree.lookup b (params.absolutePath.resolve cwd) = .ok place → place.path = r.canonicalPath := by
  unfold GoesWhereReturned location
  rw [h.absolutePath]
  constructor
  · intro hgoes place hplace
    exact (hgoes place.path (by rw [hplace])).2
  · intro hplaces loc hloc
    cases hlookup : tree.lookup b (params.absolutePath.resolve cwd) with
    | error e =>
      rw [hlookup] at hloc
      cases hloc
    | ok place =>
      rw [hlookup] at hloc
      have hpath := hplaces place hlookup
      rw [← Option.some.inj hloc, hpath]
      exact ⟨prefix_of_inside h.inside, rfl⟩

section Places
variable {root p c : Path}

/-- What the walk below the root returns. -/
def Walked (tree : Tree) (cwd : Path) (params : ResolveBoundaryPathParams) (canonicalRoot root p c : Path) : Prop :=
  ∃ st, lexicalTraversal tree params canonicalRoot p (resolveSymlinkHopPath tree cwd) ⟨canonicalRoot, root, false⟩
    (relative root p) = .ok st ∧ c = st.canonicalCursor

/-- Below the root, everything but a link at the end is where the operating system goes. -/
theorem inside_cases (hroot : tree.realpath root = .ok canonicalRoot)
    (h : Walked tree cwd params canonicalRoot root p c) {dirs : Path} {last : String} {place : Place}
    (hpath : p = root ++ (dirs ++ [last]))
    (hplace : tree.lookup (!allowFinalSymlink params) p = .ok place) :
    ∃ dir, LinkDirectory tree root dirs dir ∧
      ((c = place.path ∧ ¬(allowFinalSymlink params = false ∧
          EndsInLink tree p ∧ place.Missing)) ∨
        (allowFinalSymlink params = false ∧ place.Missing ∧ ∃ target,
          tree.lstat p = .ok (.link target) ∧
          resolveFromAncestor tree (pathExists tree) (target.resolve dir) = .ok c)) := by
  obtain ⟨st, hst, hcanonical⟩ := h
  rw [hpath, relative_prefix] at hst
  rw [hpath, ← append_assoc] at hplace
  obtain ⟨d, hrealDirs, hleads⟩ := lookup_parent hplace
  have hdirs : Leads tree.root true canonicalRoot (dirs.map .entry) (.existing d) := by
    have hwhole := leads_of_lookup (realpath_eq_ok.mp hrealDirs)
    cases dirs with
    | nil =>
      rw [append_nil, hroot] at hrealDirs
      rw [Except.ok.inj hrealDirs]
      exact ⟨0, rfl⟩
    | cons first rest =>
      rw [map_append] at hwhole
      obtain ⟨q, hq, hrest⟩ := hwhole.split rfl
      have hsame := hq.unique (leads_of_lookup (realpath_eq_ok.mp hroot))
      injection hsame with hsame
      rw [hsame] at hrest
      exact hrest
  obtain ⟨dir, hway, hdirReal, hlast⟩ := traversal_reaches hroot hdirs hst
  have hlinkDir : LinkDirectory tree root dirs dir := by
    rcases hway with ⟨hno, hdir, -⟩ | ⟨hon, hdir⟩
    · exact Or.inl ⟨hno, hdir⟩
    · refine Or.inr ⟨hon, ?_⟩
      rw [hrealDirs, hdir]
  have hstat : tree.lstat p = tree.lstat (dir ++ [last]) := by
    rw [hpath, ← append_assoc, lstat_snoc hrealDirs, lstat_snoc hdirReal]
  refine ⟨dir, hlinkDir, ?_⟩
  rw [hcanonical]
  unfold EndsInLink
  rw [hstat]
  exact traversal_ends hdirReal hleads hlast

theorem linkDirectory_unique {start dirs dir dir' : Path} (h : LinkDirectory tree start dirs dir)
    (h' : LinkDirectory tree start dirs dir') : dir' = dir := by
  rcases h with ⟨hno, hdir⟩ | ⟨hon, hreal⟩
  · rcases h' with ⟨-, hdir'⟩ | ⟨hon, -⟩
    · rw [hdir, hdir']
    · exact absurd hon hno
  · rcases h' with ⟨hno, -⟩ | ⟨-, hreal'⟩
    · exact absurd hon hno
    · rw [hreal] at hreal'
      exact (Except.ok.inj hreal').symm

/-- The root itself resolves to its real path. -/
theorem root_walked (h : Walked tree cwd params canonicalRoot root p c) (hpath : p = root) : c = canonicalRoot := by
  obtain ⟨st, hst, hcanonical⟩ := h
  have hrelative := relative_prefix root []
  rw [append_nil] at hrelative
  rw [hpath, hrelative] at hst
  rw [hcanonical, ← Except.ok.inj hst]

theorem strict_inside_iff (hroot : tree.realpath root = .ok canonicalRoot)
    (hstrict : allowFinalSymlink params = false) (h : Walked tree cwd params canonicalRoot root p c)
    (hinside : isPathInside root p = true) :
    (∀ place, tree.lookup true p = .ok place → place.path = c) ↔
      EndsStraight tree root p := by
  obtain ⟨segments, hsegments⟩ := prefix_of_inside hinside
  rcases eq_nil_or_concat segments with hnil | ⟨dirs, last, hconcat⟩
  · rw [hnil, append_nil] at hsegments
    have hreal := hroot
    rw [hsegments] at hreal
    constructor
    · intro _ target loc _ hbroken _
      exact absurd (stat_ok_iff.mpr ⟨canonicalRoot, hreal⟩) hbroken
    · intro _ place hplace
      rw [realpath_eq_ok.mp hreal] at hplace
      rw [root_walked h hsegments.symm, ← Except.ok.inj hplace]
      rfl
  · rw [hconcat, concat_eq_append] at hsegments
    have hcases := fun (place : Place) (hplace : tree.lookup true p = .ok place) =>
      inside_cases hroot h hsegments.symm (show tree.lookup (!allowFinalSymlink params) _ = .ok place from by
        rw [hstrict]
        exact hplace)
    constructor
    · intro hplaces target loc hlink hbroken hloc
      unfold location at hloc
      cases hlookup : tree.lookup true p with
      | error e =>
        rw [hlookup] at hloc
        cases hloc
      | ok place =>
        rw [hlookup] at hloc
        cases place with
        | existing q => exact absurd (stat_ok_iff.mpr ⟨q, realpath_eq_ok.mpr hlookup⟩) hbroken
        | absent missing name =>
          obtain ⟨dir, hdir, ⟨-, hnot⟩ | ⟨-, -, target', hlink', hresolve⟩⟩ := hcases _ hlookup
          · exact absurd ⟨hstrict, ⟨target, hlink⟩, trivial⟩ hnot
          · rw [hlink] at hlink'
            injection hlink' with hlink'
            injection hlink' with htarget
            rw [← htarget] at hresolve
            obtain ⟨hcanonical, hsearch, hmissing⟩ := place_lands hlookup
            have hends := (resolves_to_absent_iff hcanonical hsearch hmissing hresolve).mp (hplaces _ hlookup).symm
            refine ⟨dirs, last, dir, ?_, hinside, hdir, hends.1, ?_⟩
            · rw [append_assoc]
              exact hsegments.symm
            · rw [hends.2, ← hloc]
              rfl
    · intro hends place hlookup
      obtain ⟨dir, hdir, ⟨hsame, -⟩ | ⟨-, habsent, target, hlink, hresolve⟩⟩ := hcases _ hlookup
      · exact hsame.symm
      · cases place with
        | existing q => exact habsent.elim
        | absent missing name =>
          have hbroken : ¬∃ node, tree.stat p = .ok node := by
            rw [stat_ok_iff]
            rintro ⟨q, hq⟩
            rw [realpath_eq_ok, hlookup] at hq
            cases hq
          have hloc : location tree true p = some (missing ++ [name]) := by
            unfold location
            rw [hlookup]
            rfl
          obtain ⟨dirs', last', dir', hpath', -, hdir', hnot, hloc'⟩ := hends target _ hlink hbroken hloc
          rw [← hsegments, append_assoc] at hpath'
          obtain ⟨rfl, -⟩ := append_inj' (append_cancel_left hpath') rfl
          rw [linkDirectory_unique hdir hdir'] at hnot hloc'
          obtain ⟨hcanonical, hsearch, hmissing⟩ := place_lands hlookup
          exact ((resolves_to_absent_iff hcanonical hsearch hmissing hresolve).mpr ⟨hnot, hloc'⟩).symm

theorem strict_outside_iff (hresolve : resolveFromAncestor tree (pathExists tree) p = .ok c)
    (houtside : isPathInside root p = false) :
    (∀ place, tree.lookup true p = .ok place → place.path = c) ↔
      EndsStraight tree root p := by
  rcases beyond_or_entry hresolve with ⟨entry, rest, hdeep, hrest⟩ | ⟨node, hstat⟩
  · constructor
    · intro _ target _ hlink
      exact absurd (notFound_of_beyond hdeep hrest) (not_notFound hlink)
    · intro _ place hlookup
      exact outside_place hdeep hrest hlookup hresolve
  · by_cases hreal : ∃ q, tree.realpath p = .ok q
    · constructor
      · intro _ target loc _ hbroken
        exact absurd (stat_ok_iff.mpr hreal) hbroken
      · intro _ place hlookup
        obtain ⟨q, hq⟩ := hreal
        rw [resolveFromAncestor_of_realpath hq] at hresolve
        rw [realpath_eq_ok.mp hq] at hlookup
        rw [← Except.ok.inj hlookup, ← Except.ok.inj hresolve]
        rfl
    · have hc := outside_broken (deepest_of_lstat hstat) hstat hreal hresolve
      -- the link itself is returned, and the operating system comes to a missing name
      have hother : ∀ place, tree.lookup true p = .ok place →
          place.path ≠ c := by
        intro place hlookup hpath
        cases place with
        | existing q => exact hreal ⟨q, realpath_eq_ok.mpr hlookup⟩
        | absent dir name =>
          obtain ⟨hcanonical, -, hmissing⟩ := place_lands hlookup
          rw [hc] at hpath
          rw [← hpath] at hstat
          obtain ⟨q, hq, -, hname⟩ := lstat_snoc_ok hstat
          rw [realpath_of_canonical hcanonical] at hq
          rw [← Except.ok.inj hq, hmissing] at hname
          cases hname
      obtain ⟨target, rfl⟩ := target_of_isLink (isLink_of_broken hstat hreal)
      constructor
      · intro hplaces target loc _ _ hloc
        unfold location at hloc
        cases hlookup : tree.lookup true p with
        | error e =>
          rw [hlookup] at hloc
          cases hloc
        | ok place => exact absurd (hplaces place hlookup) (hother place hlookup)
      · intro hends place hlookup
        have hloc : location tree true p = some place.path := by
          unfold location
          rw [hlookup]
        obtain ⟨-, -, -, -, hinside, -⟩ := hends target _ hstat (fun hok => hreal (stat_ok_iff.mp hok)) hloc
        rw [houtside] at hinside
        cases hinside

theorem unlink_inside_iff (hroot : tree.realpath root = .ok canonicalRoot)
    (hunlink : allowFinalSymlink params = true) (h : Walked tree cwd params canonicalRoot root p c)
    (hinside : isPathInside root p = true) :
    (∀ place, tree.lookup false p = .ok place → place.path = c) ↔
      EndsUnlinkable tree root p := by
  by_cases hself : p = root
  · have hcanonical := root_walked h hself
    rw [hself]
    rw [hself] at hinside
    obtain ⟨node, hstat⟩ := lstat_of_realpath hroot
    cases hlink : node.isLink with
    | false =>
      constructor
      · intro _ target htarget
        rw [hstat] at htarget
        rw [Except.ok.inj htarget] at hlink
        cases hlink
      · intro _ place hlookup
        rw [lookup_of_plain hstat hlink hroot] at hlookup
        rw [hcanonical, ← Except.ok.inj hlookup]
        rfl
    | true =>
      obtain ⟨target, rfl⟩ := target_of_isLink hlink
      obtain ⟨above, name, dir, -, -, hname, hlookup⟩ := lookup_of_link hstat
      constructor
      · intro hplaces
        have hpath := hplaces _ hlookup
        rw [hcanonical] at hpath
        exact absurd hpath (real_ne_link hroot hname)
      · intro hends
        rcases hends target hstat with ⟨-, hne⟩ | ⟨houtside, -⟩
        · exact absurd rfl hne
        · rw [hinside] at houtside
          cases houtside
  · constructor
    · intro _ _ _
      exact Or.inl ⟨hinside, hself⟩
    · intro _ place hlookup
      obtain ⟨segments, hsegments⟩ := prefix_of_inside hinside
      rcases eq_nil_or_concat segments with hnil | ⟨dirs, last, hconcat⟩
      · rw [hnil, append_nil] at hsegments
        exact absurd hsegments.symm hself
      · rw [hconcat, concat_eq_append] at hsegments
        have hplace : tree.lookup (!allowFinalSymlink params) p = .ok place := by
          rw [hunlink]
          exact hlookup
        obtain ⟨dir, -, ⟨hsame, -⟩ | ⟨hstrict, -⟩⟩ := inside_cases hroot h hsegments.symm hplace
        · exact hsame.symm
        · rw [hunlink] at hstrict
          cases hstrict

theorem unlink_outside_iff (hresolve : resolveFromAncestor tree (pathExists tree) p = .ok c)
    (houtside : isPathInside root p = false) :
    (∀ place, tree.lookup false p = .ok place → place.path = c) ↔
      EndsUnlinkable tree root p := by
  have hnot : ∀ {P : Prop}, isPathInside root p = true → P := by
    intro P hinside
    rw [houtside] at hinside
    cases hinside
  rcases beyond_or_entry hresolve with ⟨entry, rest, hdeep, hrest⟩ | ⟨node, hstat⟩
  · constructor
    · intro _ target hlink
      exact absurd (notFound_of_beyond hdeep hrest) (not_notFound hlink)
    · intro _ place hlookup
      exact outside_place hdeep hrest hlookup hresolve
  · cases hlink : node.isLink with
    | false =>
      have hreal : ∃ q, tree.realpath p = .ok q := by
        by_contra hbroken
        rw [isLink_of_broken hstat hbroken] at hlink
        cases hlink
      obtain ⟨q, hq⟩ := hreal
      constructor
      · intro _ target htarget
        rw [hstat] at htarget
        rw [Except.ok.inj htarget] at hlink
        cases hlink
      · intro _ place hlookup
        rw [resolveFromAncestor_of_realpath hq] at hresolve
        rw [lookup_of_plain hstat hlink hq] at hlookup
        rw [← Except.ok.inj hlookup, ← Except.ok.inj hresolve]
        rfl
    | true =>
      obtain ⟨target, rfl⟩ := target_of_isLink hlink
      obtain ⟨above, name, dir, hp, hdirReal, hname, hlookup⟩ := lookup_of_link hstat
      have hdrop : p.dropLast = above := by rw [hp, dropLast_concat]
      by_cases hreal : ∃ q, tree.realpath p = .ok q
      · obtain ⟨q, hq⟩ := hreal
        have hc : c = q := by
          rw [resolveFromAncestor_of_realpath hq] at hresolve
          exact (Except.ok.inj hresolve).symm
        constructor
        · intro hplaces
          have hpath := hplaces _ hlookup
          rw [hc] at hpath
          exact absurd hpath (real_ne_link hq hname)
        · intro hends
          rcases hends target hstat with ⟨hinside, -⟩ | ⟨-, hbroken, -⟩
          · exact hnot hinside
          · exact absurd (stat_ok_iff.mpr ⟨q, hq⟩) hbroken
      · have hc := outside_broken (deepest_of_lstat hstat) hstat hreal hresolve
        have hbroken : ¬∃ node, tree.stat p = .ok node :=
          fun hok => hreal (stat_ok_iff.mp hok)
        constructor
        · intro hplaces _ _
          have hpath : dir ++ [name] = above ++ [name] := by
            rw [← hp, ← hc]
            exact hplaces _ hlookup
          refine Or.inr ⟨houtside, hbroken, ?_⟩
          rw [hdrop, hdirReal, (append_left_inj _).mp hpath]
        · intro hends place hplace
          rcases hends target hstat with ⟨hinside, -⟩ | ⟨-, -, hcanonical⟩
          · exact hnot hinside
          · rw [hdrop, hdirReal] at hcanonical
            rw [hlookup] at hplace
            rw [hc, hp, ← Except.ok.inj hcanonical, ← Except.ok.inj hplace]
            rfl

end Places

/-- A call that returns names the place of the operating system exactly when the path ends as the
policy needs it. -/
theorem returned_location_iff (hroot : tree.realpath (params.rootPath.resolve cwd) = .ok canonicalRoot)
    (hgiven : ∀ given, params.rootCanonicalPath = some given → given.resolve cwd = canonicalRoot)
    (h : resolveBoundaryPath tree cwd params = .ok r) :
    GoesWhereReturned tree (!allowFinalSymlink params) canonicalRoot r ↔
      if allowFinalSymlink params then EndsUnlinkable tree (params.rootPath.resolve cwd) (params.absolutePath.resolve cwd)
      else EndsStraight tree (params.rootPath.resolve cwd) (params.absolutePath.resolve cwd) := by
  have hreturned := returned_of_ok hroot hgiven h
  rw [goes_iff hreturned]
  cases hunlink : allowFinalSymlink params with
  | true =>
    rw [if_pos rfl]
    cases hinside : isPathInside (params.rootPath.resolve cwd) (params.absolutePath.resolve cwd) with
    | true => exact unlink_inside_iff hroot hunlink (hreturned.walked hinside) hinside
    | false => exact unlink_outside_iff (hreturned.outside hinside) hinside
  | false =>
    rw [if_neg Bool.false_ne_true]
    cases hinside : isPathInside (params.rootPath.resolve cwd) (params.absolutePath.resolve cwd) with
    | true => exact strict_inside_iff hroot hunlink (hreturned.walked hinside) hinside
    | false => exact strict_outside_iff (hreturned.outside hinside) hinside

end Resolver

/-- In `/root`, `l1` leads to `l2` and `l2` to a missing name in `/outside`. -/
def chainTree : Tree where
  searchable := true
  maxLinks := 40
  entries :=
    [("root", .dir true [("l1", .link ⟨false, [.entry "l2"]⟩), ("l2", .link ⟨true, [.entry "outside", .entry "new"]⟩)]),
      ("outside", .dir true [])]

def strictParams (name : String) : ResolveBoundaryPathParams where
  absolutePath := Path.text ["root", name]
  rootPath := Path.text ["root"]
  boundaryLabel := "root"
  policy := some .strict

theorem returned_location_fresh :
    GoesWhereReturned chainTree true ["root"] ⟨["root", "new"], ["root", "new"], ["root"], ["root"], ["new"], false, .missing⟩ := by
  have hroot : chainTree.realpath ((strictParams "new").rootPath.resolve []) = .ok ["root"] := by rfl
  have hgiven : ∀ given, (strictParams "new").rootCanonicalPath = some given → given.resolve [] = ["root"] := by
    intro given h
    cases h
  have hok : resolveBoundaryPath chainTree [] (strictParams "new") =
      .ok ⟨["root", "new"], ["root", "new"], ["root"], ["root"], ["new"], false, .missing⟩ := by rfl
  refine (returned_location_iff hroot hgiven hok).mpr ?_
  show EndsStraight chainTree ["root"] ["root", "new"]
  intro target loc hlink
  cases hlink

/-- For `/root/l1` the resolver returns `/root/l2`, and the operating system creates `/outside/new`. -/
theorem second_link_escapes :
    chainTree.realpath ["root"] = .ok ["root"] ∧
    resolveBoundaryPath chainTree [] (strictParams "l1") =
      .ok ⟨["root", "l1"], ["root", "l2"], ["root"], ["root"], ["l2"], false, .missing⟩ ∧
    location chainTree true ["root", "l1"] = some ["outside", "new"] ∧
    ¬GoesWhereReturned chainTree true ["root"]
      ⟨["root", "l1"], ["root", "l2"], ["root"], ["root"], ["l2"], false, .missing⟩ := by
  refine ⟨rfl, rfl, rfl, ?_⟩
  intro hgoes
  have hinside := (hgoes ["outside", "new"] rfl).1
  exact absurd hinside (by decide)

end OpenClaw.Boundary
