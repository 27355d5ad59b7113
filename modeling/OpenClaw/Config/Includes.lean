import OpenClaw.Boundary.BoundaryPath
import OpenClaw.Config.MergePatch
import OpenClaw.Foundation.Traced

/-! Config files that include others.

An object with an `$include` key stands for the files it names, merged in order, with its
other keys merged on top. Every included file is processed in its own directory, with the
files that led to it and the depth carried along. What is read is under the directory of the
root config, in no file's own chain of includes and at most `MAX_INCLUDE_DEPTH` deep
(`resolveConfigIncludes_confined`); the recursion is on the depth that is left and on the
parsed value. Paths are POSIX paths. -/
namespace OpenClaw.Config
open Foundation.Entries
open List hiding lookup_cons
open Foundation (Traced)
open Foundation.Traced (tell fail lift)

def INCLUDE_KEY : String := "$include"

def MAX_INCLUDE_DEPTH : Nat := 10

/-! ### Paths -/

/-- The text of a path: whether it starts with a slash, and what is between the slashes. -/
structure PathSpec where
  absolute : Bool
  parts : List String
  deriving DecidableEq, Repr

def PathSpec.parse (s : String) : PathSpec :=
  match s.toList with
  | '/' :: rest => ⟨true, (rest.splitOn '/').map String.ofList⟩
  | chars => ⟨false, (chars.splitOn '/').map String.ofList⟩

/-- One part taken lexically. -/
def normalizeStep (allowAboveRoot : Bool) (segments : List String) (part : String) : List String :=
  if part = "" ∨ part = "." then segments
  else if part = ".." then
    match segments.getLast? with
    | some last =>
      if last ≠ ".." then segments.dropLast
      else if allowAboveRoot then segments ++ [".."]
      else segments
    | none => if allowAboveRoot then [".."] else []
  else segments ++ [part]

/-- `normalizeString`. -/
def normalizeParts (allowAboveRoot : Bool) (parts : List String) : List String :=
  parts.foldl (normalizeStep allowAboveRoot) []

/-- A normalised path; it keeps a slash at its end. -/
structure NormalPath where
  absolute : Bool
  segments : List String
  trailingSlash : Bool := false
  deriving DecidableEq, Repr

/-- `path.normalize`. -/
def normalize (p : PathSpec) : NormalPath :=
  let segments := normalizeParts (!p.absolute) p.parts
  ⟨p.absolute, segments, segments ≠ [] && p.parts.getLast? = some ""⟩

def NormalPath.spec (p : NormalPath) : PathSpec :=
  ⟨p.absolute, p.segments ++ if p.trailingSlash then [""] else []⟩

def NormalPath.text (p : NormalPath) : String :=
  let joined := "/".intercalate p.spec.parts
  if p.absolute then "/" ++ joined else if p.segments = [] then "." else joined

/-- `path.dirname`. -/
def dirname (p : PathSpec) : PathSpec := ⟨p.absolute, (p.parts.rdropWhile (· = "")).dropLast⟩

/-- `path.resolve`, as the segments under the root directory. -/
def resolve (cwd : List String) (p : PathSpec) : List String :=
  normalizeParts false ((if p.absolute then [] else cwd) ++ p.parts)

/-- `path.resolve(dir, p)` of a relative `p`. -/
def resolveIn (cwd : List String) (dir p : PathSpec) : List String :=
  resolve cwd ⟨dir.absolute, dir.parts ++ p.parts⟩

/-- `isPathInside` of the scan paths, on resolved paths. -/
def isPathInside (base candidate : List String) : Bool :=
  match Boundary.relative base candidate with
  | [] => true
  | first :: _ => first ≠ ".."

/-! ### Errors -/

/-- `typeof value`. -/
def Value.typeOf : Value → String
  | .undefined => "undefined"
  | .null | .array _ | .object _ => "object"
  | .bool _ => "boolean"
  | .number _ => "number"
  | .string _ => "string"

inductive ConfigIncludeError where
  | siblings (includeValue : Value)
  | invalidItem (item : Value)
  | invalidValue (value : Value)
  | escapes (includePath : String) (rootDir : NormalPath)
  | symlink (includePath : String) (rootDir : NormalPath)
  /-- `CircularIncludeError`. -/
  | circular (chain : List NormalPath)
  | depth (includePath : String)
  | read (includePath : String) (resolvedPath : NormalPath)
  | parse (includePath : String) (resolvedPath : NormalPath)
  /-- What the resolver itself throws. -/
  | guard (message includePath : String)

def ConfigIncludeError.message : ConfigIncludeError → String
  | .siblings _ => "Sibling keys require included content to be an object"
  | .invalidItem item => s!"Invalid $include array item: expected string, got {item.typeOf}"
  | .invalidValue value => s!"Invalid $include value: expected string or array of strings, got {value.typeOf}"
  | .escapes includePath rootDir =>
    s!"Include path escapes config directory: {includePath} (root: {rootDir.text})"
  | .symlink includePath rootDir =>
    s!"Include path resolves outside config directory (symlink): {includePath} (root: {rootDir.text})"
  | .circular chain => "Circular include detected: " ++ " -> ".intercalate (chain.map NormalPath.text)
  | .depth includePath => s!"Maximum include depth ({MAX_INCLUDE_DEPTH}) exceeded at: {includePath}"
  | .read includePath resolvedPath =>
    s!"Failed to read include file: {includePath} (resolved: {resolvedPath.text})"
  | .parse includePath resolvedPath =>
    s!"Failed to parse include file: {includePath} (resolved: {resolvedPath.text})"
  | .guard message _ => message

/-! ### The resolver -/

/-- What a resolver's read throws: an error of its own, or any other. -/
inductive ReadFailure where
  | guarded (message includePath : String)
  | other

/-- `IncludeResolver` with what belongs to the machine: the working directory, where links
lead, and what the files hold. -/
structure IncludeResolver (ρ : Type) where
  cwd : List String
  /-- `fs.realpathSync`, and nothing if it throws. -/
  realpath : NormalPath → Option (List String)
  readFile : (includePath : String) → (resolvedPath : NormalPath) → (rootRealDir : List String) → Except ReadFailure ρ
  parseJson : ρ → Option Value

/-- A file that is opened, and the files whose includes led to it, the root config first. -/
structure Opened where
  path : NormalPath
  chain : List NormalPath
  deriving DecidableEq, Repr

structure IncludeProcessor where
  basePath : PathSpec
  visited : List NormalPath
  rootDir : NormalPath
  depth : Nat := 0

mutual

/-- Arrays are joined, objects merged; of anything else the source wins. An inherited name has
a function under it, and the source wins there too. -/
def deepMerge : Value → Value → Value
  | .array target, .array source => .array (target ++ source)
  | .object target, .object source => .object (mergeKeys target source)
  | _, source => source

def mergeKeys : Entries → Entries → Entries
  | result, [] => result
  | result, (key, value) :: rest =>
    if isBlockedObjectKey key then mergeKeys result rest
    else
      match result.lookup key with
      | some own => mergeKeys (setEntry key (deepMerge own value) result) rest
      | none => mergeKeys (setEntry key value result) rest

end

section Process
variable {ρ : Type} (resolver : IncludeResolver ρ)

/-- `safeRealpath` of the root directory. -/
def rootRealDir (rootDir : NormalPath) : List String :=
  (resolver.realpath rootDir).getD (resolve resolver.cwd rootDir.spec)

def resolvePath (p : IncludeProcessor) (includePath : String) : Except ConfigIncludeError NormalPath :=
  let spec := PathSpec.parse includePath
  let normalized :=
    if spec.absolute then normalize spec else ⟨true, resolveIn resolver.cwd (dirname p.basePath) spec, false⟩
  if !isPathInside (resolve resolver.cwd p.rootDir.spec) (resolve resolver.cwd normalized.spec) then
    .error (.escapes includePath p.rootDir)
  else
    match resolver.realpath normalized with
    | some real =>
      if isPathInside (rootRealDir resolver p.rootDir) real then .ok normalized
      else .error (.symlink includePath p.rootDir)
    | none => .ok normalized

def checkCircular (p : IncludeProcessor) (resolvedPath : NormalPath) : Except ConfigIncludeError Unit :=
  if resolvedPath ∈ p.visited then .error (.circular (p.visited ++ [resolvedPath])) else .ok ()

def readFile (p : IncludeProcessor) (includePath : String) (resolvedPath : NormalPath) :
    Except ConfigIncludeError ρ :=
  match resolver.readFile includePath resolvedPath (rootRealDir resolver p.rootDir) with
  | .ok raw => .ok raw
  | .error (.guarded message path) => .error (.guard message path)
  | .error .other => .error (.read includePath resolvedPath)

def parseFile (includePath : String) (resolvedPath : NormalPath) (raw : ρ) : Except ConfigIncludeError Value :=
  match resolver.parseJson raw with
  | some parsed => .ok parsed
  | none => .error (.parse includePath resolvedPath)

/-- The processor of a file that is included. -/
def IncludeProcessor.nested (p : IncludeProcessor) (resolvedPath : NormalPath) : IncludeProcessor where
  basePath := resolvedPath.spec
  visited := p.visited ++ [resolvedPath]
  rootDir := p.rootDir
  depth := p.depth + 1

/-- `process` is what a processor one deeper does. -/
def loadFile (p : IncludeProcessor)
    (process : (q : IncludeProcessor) → p.depth < MAX_INCLUDE_DEPTH → q.depth = p.depth + 1 → Value →
      Traced Opened ConfigIncludeError Value)
    (includePath : String) : Traced Opened ConfigIncludeError Value := do
  let resolvedPath ← lift (resolvePath resolver p includePath)
  lift (checkCircular p resolvedPath)
  if h : p.depth ≥ MAX_INCLUDE_DEPTH then fail (.depth includePath)
  else
    tell ⟨resolvedPath, p.visited⟩
    let raw ← lift (readFile resolver p includePath resolvedPath)
    let parsed ← lift (parseFile resolver includePath resolvedPath raw)
    process (p.nested resolvedPath) (Nat.lt_of_not_le h) rfl parsed

section Load
variable (loadFile : String → Traced Opened ConfigIncludeError Value)

/-- The files of an array, merged in order. -/
def loadAll : Value → List Value → Traced Opened ConfigIncludeError Value
  | merged, [] => pure merged
  | merged, .string path :: rest => do
    let loaded ← loadFile path
    loadAll (deepMerge merged loaded) rest
  | _, item :: _ => fail (.invalidItem item)

def resolveInclude : Value → Traced Opened ConfigIncludeError Value
  | .string path => loadFile path
  | .array items => loadAll loadFile (.object []) items
  | value => fail (.invalidValue value)

mutual

def processValue : Value → Traced Opened ConfigIncludeError Value
  | .array items => do
    let processed ← processItems items
    return .array processed
  | .object entries =>
    match entries.lookup INCLUDE_KEY with
    | none => do
      let processed ← processEntries entries
      return .object processed
    | some includeValue => do
      let included ← resolveInclude loadFile includeValue
      if (keys entries).all (· = INCLUDE_KEY) then return included
      else if !included.isPlainObject then fail (.siblings includeValue)
      else do
        let rest ← processEntries entries
        return deepMerge included (.object rest)
  | value => pure value

def processItems : List Value → Traced Opened ConfigIncludeError (List Value)
  | [] => pure []
  | item :: rest => do
    let processed ← processValue item
    let others ← processItems rest
    return processed :: others

/-- The entries under all keys but `$include`. -/
def processEntries : Entries → Traced Opened ConfigIncludeError Entries
  | [] => pure []
  | (key, value) :: rest =>
    if key = INCLUDE_KEY then processEntries rest
    else do
      let processed ← processValue value
      let others ← processEntries rest
      return assign key processed others

end

end Load

def process (p : IncludeProcessor) (value : Value) : Traced Opened ConfigIncludeError Value :=
  processValue (loadFile resolver p fun q _ _ parsed => process q parsed) value
termination_by MAX_INCLUDE_DEPTH - p.depth
decreasing_by omega

/-- The constructor, for the root config. -/
def rootProcessor (configPath : String) : IncludeProcessor where
  basePath := PathSpec.parse configPath
  visited := [normalize (PathSpec.parse configPath)]
  rootDir := normalize (dirname (PathSpec.parse configPath))

def resolveConfigIncludes (obj : Value) (configPath : String) : Traced Opened ConfigIncludeError Value :=
  process resolver (rootProcessor configPath) obj

end Process

/-! ### Paths inside the root directory -/

/-- The name of an entry of a directory. -/
def PlainSegment (s : String) : Prop := s ≠ "" ∧ s ≠ "." ∧ s ≠ ".."

theorem plain_normalizeStep {segments : List String} (h : ∀ s ∈ segments, PlainSegment s) (part : String) :
    ∀ s ∈ normalizeStep false segments part, PlainSegment s := by
  unfold normalizeStep
  by_cases hempty : part = "" ∨ part = "."
  · rwa [if_pos hempty]
  rw [if_neg hempty]
  by_cases hparent : part = ".."
  · rw [if_pos hparent]
    cases segments.getLast? with
    | none => exact fun _ hs => absurd hs not_mem_nil
    | some last =>
      dsimp only
      by_cases hlast : last ≠ ".."
      · rw [if_pos hlast]
        exact fun s hs => h s (dropLast_subset _ hs)
      · rwa [if_neg hlast, if_neg Bool.false_ne_true]
  · rw [if_neg hparent]
    intro s hs
    rcases mem_append.mp hs with hs | hs
    · exact h s hs
    · rw [mem_singleton.mp hs]
      exact ⟨fun h => hempty (.inl h), fun h => hempty (.inr h), hparent⟩

theorem plain_foldl_normalizeStep {segments : List String} (h : ∀ s ∈ segments, PlainSegment s) (parts : List String) :
    ∀ s ∈ parts.foldl (normalizeStep false) segments, PlainSegment s := by
  induction parts generalizing segments with
  | nil => exact h
  | cons part parts ih => exact ih (plain_normalizeStep h part)

theorem plain_normalizeParts (parts : List String) : ∀ s ∈ normalizeParts false parts, PlainSegment s :=
  plain_foldl_normalizeStep (fun _ hs => absurd hs not_mem_nil) parts

theorem foldl_normalizeStep_plain {segments : List String} (before : List String) (h : ∀ s ∈ segments, PlainSegment s) :
    segments.foldl (normalizeStep false) before = before ++ segments := by
  induction segments generalizing before with
  | nil => exact (append_nil _).symm
  | cons s segments ih =>
    obtain ⟨hempty, hdot, hparent⟩ := h s mem_cons_self
    have hstep : normalizeStep false before s = before ++ [s] := by
      rw [normalizeStep, if_neg (not_or.mpr ⟨hempty, hdot⟩), if_neg hparent]
    rw [foldl_cons, hstep, ih _ fun s hs => h s (mem_cons_of_mem _ hs), append_assoc]
    rfl

/-- A normalised absolute path resolves to its segments. -/
theorem resolve_spec (cwd : List String) {p : NormalPath} (habsolute : p.absolute = true)
    (h : ∀ s ∈ p.segments, PlainSegment s) : resolve cwd p.spec = p.segments := by
  rw [resolve, NormalPath.spec, habsolute, if_pos rfl, nil_append, normalizeParts, foldl_append,
    foldl_normalizeStep_plain [] h, nil_append]
  cases p.trailingSlash with
  | false => rfl
  | true =>
    rw [if_pos rfl, foldl_cons, foldl_nil, normalizeStep, if_pos (Or.inl rfl)]

theorem isPathInside_iff {base candidate : List String} (h : ".." ∉ candidate) :
    isPathInside base candidate = true ↔ base <+: candidate := by
  induction base generalizing candidate with
  | nil =>
    refine iff_of_true ?_ ( nil_prefix ..)
    cases candidate with
    | nil => rfl
    | cons first rest => exact decide_eq_true fun heq => h (heq ▸ mem_cons_self)
  | cons a base ih =>
    cases candidate with
    | nil =>
      refine iff_of_false (fun hinside => ?_) fun hprefix => absurd (prefix_nil.mp hprefix) (cons_ne_nil _ _)
      exact Bool.false_ne_true hinside
    | cons b candidate =>
      by_cases hab : a = b
      · subst hab
        have hrest := ih fun hmem => h (mem_cons_of_mem _ hmem)
        rw [prefix_cons_inj, ← hrest, isPathInside, Boundary.relative, if_pos rfl]
        rfl
      · refine iff_of_false (fun hinside => ?_) fun hprefix => hab (cons_prefix_cons.mp hprefix).1
        rw [isPathInside, Boundary.relative, if_neg hab] at hinside
        exact absurd hinside (by simp)

/-! ### Trees without a key -/

mutual

/-- No object of the tree has the key. -/
def Value.lacksKey (key : String) : Value → Bool
  | .array items => itemsLackKey key items
  | .object entries => entriesLackKey key entries
  | _ => true

def itemsLackKey (key : String) : List Value → Bool
  | [] => true
  | v :: rest => v.lacksKey key && itemsLackKey key rest

def entriesLackKey (key : String) : Entries → Bool
  | [] => true
  | (k, v) :: rest => k ≠ key && v.lacksKey key && entriesLackKey key rest

end

section Lacks
variable {key : String}

theorem itemsLackKey_cons {v : Value} {rest : List Value} :
    itemsLackKey key (v :: rest) = true ↔ v.lacksKey key = true ∧ itemsLackKey key rest = true := by
  rw [itemsLackKey, Bool.and_eq_true]

theorem entriesLackKey_cons {k : String} {v : Value} {rest : Entries} :
    entriesLackKey key ((k, v) :: rest) = true ↔
      k ≠ key ∧ v.lacksKey key = true ∧ entriesLackKey key rest = true := by
  rw [entriesLackKey, Bool.and_eq_true, Bool.and_eq_true, decide_eq_true_eq, and_assoc]

theorem itemsLackKey_append {a b : List Value} (ha : itemsLackKey key a = true) (hb : itemsLackKey key b = true) :
    itemsLackKey key (a ++ b) = true := by
  induction a with
  | nil => exact hb
  | cons v rest ih =>
    rw [itemsLackKey_cons] at ha
    exact itemsLackKey_cons.mpr ⟨ha.1, ih ha.2⟩

theorem lacksKey_of_lookup {entries : Entries} (h : entriesLackKey key entries = true) {k : String} {v : Value}
    (hv : entries.lookup k = some v) : v.lacksKey key = true := by
  induction entries with
  | nil => cases hv
  | cons e rest ih =>
    obtain ⟨k', v'⟩ := e
    rw [entriesLackKey_cons] at h
    rw [lookup_cons] at hv
    split at hv
    · cases hv
      exact h.2.1
    · exact ih h.2.2 hv

theorem entriesLackKey_setEntry {entries : Entries} (h : entriesLackKey key entries = true) {k : String} {v : Value}
    (hk : k ≠ key) (hv : v.lacksKey key = true) : entriesLackKey key (setEntry k v entries) = true := by
  induction entries with
  | nil => exact entriesLackKey_cons.mpr ⟨hk, hv, rfl⟩
  | cons e rest ih =>
    obtain ⟨k', v'⟩ := e
    rw [entriesLackKey_cons] at h
    unfold setEntry
    split
    · exact entriesLackKey_cons.mpr ⟨hk, hv, h.2.2⟩
    · exact entriesLackKey_cons.mpr ⟨h.1, h.2.1, ih h.2.2⟩

mutual

theorem lacksKey_deepMerge {target : Value} (htarget : target.lacksKey key = true) :
    (source : Value) → source.lacksKey key = true → (deepMerge target source).lacksKey key = true
  | .array source, hsource => by
    cases target with
    | array target => exact itemsLackKey_append htarget hsource
    | _ => exact hsource
  | .object source, hsource => by
    cases target with
    | object target => exact entriesLackKey_mergeKeys source htarget hsource
    | _ => exact hsource
  | .undefined, hsource | .null, hsource | .bool _, hsource | .number _, hsource | .string _, hsource => by
    cases target <;> exact hsource

theorem entriesLackKey_mergeKeys {result : Entries} :
    (source : Entries) → entriesLackKey key result = true → entriesLackKey key source = true →
      entriesLackKey key (mergeKeys result source) = true
  | [], hresult, _ => by rwa [mergeKeys]
  | (k, value) :: rest, hresult, hsource => by
    rw [entriesLackKey_cons] at hsource
    obtain ⟨hk, hvalue, hrest⟩ := hsource
    rw [mergeKeys]
    split
    · exact entriesLackKey_mergeKeys rest hresult hrest
    · split
      · rename_i own hown
        exact entriesLackKey_mergeKeys rest (entriesLackKey_setEntry hresult hk
          (lacksKey_deepMerge (lacksKey_of_lookup hresult hown) value hvalue)) hrest
      · exact entriesLackKey_mergeKeys rest (entriesLackKey_setEntry hresult hk hvalue) hrest

end

end Lacks

/-! ### What is read -/

/-- The files of a log are under the root directory, in none of their own chains of includes and
not too deep, and each chain goes on from another one of the log. -/
structure Confined (rootDir : List String) (base : List NormalPath) (log : List Opened) : Prop where
  inside : ∀ o ∈ log, o.path.absolute = true ∧ rootDir <+: o.path.segments
  fresh : ∀ o ∈ log, o.path ∉ o.chain
  short : ∀ o ∈ log, o.chain.length ≤ MAX_INCLUDE_DEPTH
  chain : ∀ o ∈ log, o.chain = base ∨ ∃ q ∈ log, o.chain = q.chain ++ [q.path]

section Confinement
variable {rootDir : List String} {base : List NormalPath}

theorem confined_pieces : Traced.Pieces (Confined rootDir base) where
  nil := ⟨nofun, nofun, nofun, nofun⟩
  append {a b} ha hb := by
    refine ⟨forall_mem_append.mpr ⟨ha.inside, hb.inside⟩, forall_mem_append.mpr ⟨ha.fresh, hb.fresh⟩,
      forall_mem_append.mpr ⟨ha.short, hb.short⟩, forall_mem_append.mpr ⟨fun o ho => ?_, fun o ho => ?_⟩⟩
    · exact (ha.chain o ho).imp_right fun ⟨q, hq, heq⟩ => ⟨q, mem_append_left _ hq, heq⟩
    · exact (hb.chain o ho).imp_right fun ⟨q, hq, heq⟩ => ⟨q, mem_append_right _ hq, heq⟩

/-- The files that an included file leads to continue its chain. -/
theorem Confined.cons {path : NormalPath} {log : List Opened}
    (hinside : path.absolute = true ∧ rootDir <+: path.segments) (hfresh : path ∉ base)
    (hshort : base.length ≤ MAX_INCLUDE_DEPTH) (h : Confined rootDir (base ++ [path]) log) :
    Confined rootDir base (⟨path, base⟩ :: log) where
  inside := forall_mem_cons.mpr ⟨hinside, h.inside⟩
  fresh := forall_mem_cons.mpr ⟨hfresh, h.fresh⟩
  short := forall_mem_cons.mpr ⟨hshort, h.short⟩
  chain := forall_mem_cons.mpr ⟨.inl rfl, fun o ho => .inr <| (h.chain o ho).elim
    (fun heq => ⟨_, mem_cons_self, heq⟩) fun ⟨q, hq, heq⟩ => ⟨q, mem_cons_of_mem _ hq, heq⟩⟩

end Confinement

section Load
variable {loadFile : String → Traced Opened ConfigIncludeError Value} {P : List Opened → Prop} {key : String}

section
variable (hP : Traced.Pieces P) (hload : ∀ path, (loadFile path).Satisfies P (·.lacksKey key = true))
include hP hload

theorem loadAll_satisfies (items : List Value) {merged : Value} (hmerged : merged.lacksKey key = true) :
    (loadAll loadFile merged items).Satisfies P (·.lacksKey key = true) := by
  induction items generalizing merged with
  | nil => exact Traced.satisfies_pure hP hmerged
  | cons item rest ih =>
    cases item with
    | string path => exact (hload path).bind hP fun loaded hloaded => ih (lacksKey_deepMerge hmerged loaded hloaded)
    | _ => exact Traced.satisfies_fail hP _

theorem resolveInclude_satisfies (value : Value) :
    (resolveInclude loadFile value).Satisfies P (·.lacksKey key = true) := by
  cases value with
  | string path => exact hload path
  | array items => exact loadAll_satisfies hP hload items rfl
  | _ => exact Traced.satisfies_fail hP _

end

theorem entriesLackKey_assign {entries : Entries} {k : String} {v : Value} (hk : k ≠ key) (hv : v.lacksKey key = true)
    (h : entriesLackKey key entries = true) : entriesLackKey key (assign k v entries) = true := by
  unfold assign
  split
  · exact h
  · exact entriesLackKey_cons.mpr ⟨hk, hv, h⟩

mutual

theorem processValue_satisfies (hP : Traced.Pieces P)
    (hload : ∀ path, (loadFile path).Satisfies P (·.lacksKey INCLUDE_KEY = true)) :
    (value : Value) → (processValue loadFile value).Satisfies P (·.lacksKey INCLUDE_KEY = true)
  | .array items => (processItems_satisfies hP hload items).bind hP fun _ h => Traced.satisfies_pure hP h
  | .object entries => by
    have hentries := processEntries_satisfies hP hload entries
    rw [processValue]
    split
    · exact hentries.bind hP fun _ h => Traced.satisfies_pure hP h
    · refine (resolveInclude_satisfies hP hload _).bind hP fun included hincluded => ?_
      split
      · exact Traced.satisfies_pure hP hincluded
      · split
        · exact Traced.satisfies_fail hP _
        · exact hentries.bind hP fun rest hrest => Traced.satisfies_pure hP (lacksKey_deepMerge hincluded (.object rest) hrest)
  | .undefined | .null | .bool _ | .number _ | .string _ => Traced.satisfies_pure hP rfl

theorem processItems_satisfies (hP : Traced.Pieces P)
    (hload : ∀ path, (loadFile path).Satisfies P (·.lacksKey INCLUDE_KEY = true)) :
    (items : List Value) → (processItems loadFile items).Satisfies P (itemsLackKey INCLUDE_KEY · = true)
  | [] => Traced.satisfies_pure hP rfl
  | item :: rest =>
    (processValue_satisfies hP hload item).bind hP fun _ hitem =>
      (processItems_satisfies hP hload rest).bind hP fun _ hrest =>
        Traced.satisfies_pure hP (itemsLackKey_cons.mpr ⟨hitem, hrest⟩)

theorem processEntries_satisfies (hP : Traced.Pieces P)
    (hload : ∀ path, (loadFile path).Satisfies P (·.lacksKey INCLUDE_KEY = true)) :
    (entries : Entries) → (processEntries loadFile entries).Satisfies P (entriesLackKey INCLUDE_KEY · = true)
  | [] => Traced.satisfies_pure hP rfl
  | (key, value) :: rest => by
    rw [processEntries]
    split
    · exact processEntries_satisfies hP hload rest
    · rename_i hkey
      exact (processValue_satisfies hP hload value).bind hP fun _ hvalue =>
        (processEntries_satisfies hP hload rest).bind hP fun _ hrest =>
          Traced.satisfies_pure hP (entriesLackKey_assign hkey hvalue hrest)

end

end Load

section Process
variable {ρ : Type} {resolver : IncludeResolver ρ} {p : IncludeProcessor}

theorem resolvePath_inside {includePath : String} {path : NormalPath} (h : resolvePath resolver p includePath = .ok path) :
    path.absolute = true ∧ resolve resolver.cwd p.rootDir.spec <+: path.segments := by
  unfold resolvePath at h
  dsimp only at h
  have hnormal : ∀ normalized : NormalPath, (normalized = if (PathSpec.parse includePath).absolute = true then
        normalize (PathSpec.parse includePath)
      else ⟨true, resolveIn resolver.cwd (dirname p.basePath) (PathSpec.parse includePath), false⟩) →
      normalized.absolute = true ∧ ∀ s ∈ normalized.segments, PlainSegment s := by
    rintro normalized rfl
    split
    · rename_i habsolute
      refine ⟨habsolute, ?_⟩
      rw [normalize, habsolute]
      exact plain_normalizeParts _
    · exact ⟨rfl, plain_normalizeParts _⟩
  generalize hpath : (if (PathSpec.parse includePath).absolute = true then normalize (PathSpec.parse includePath)
      else ⟨true, resolveIn resolver.cwd (dirname p.basePath) (PathSpec.parse includePath), false⟩) = normalized at h
  obtain ⟨habsolute, hplain⟩ := hnormal normalized hpath.symm
  rw [resolve_spec resolver.cwd habsolute hplain] at h
  have hparent : ".." ∉ normalized.segments := fun hmem => (hplain _ hmem).2.2 rfl
  split at h
  · cases h
  · rename_i hinside
    rw [Bool.not_eq_true', Bool.not_eq_false, isPathInside_iff hparent] at hinside
    split at h
    · split at h
      · cases h
        exact ⟨habsolute, hinside⟩
      · cases h
    · cases h
      exact ⟨habsolute, hinside⟩

theorem loadFile_satisfies {process : (q : IncludeProcessor) → p.depth < MAX_INCLUDE_DEPTH → q.depth = p.depth + 1 →
      Value → Traced Opened ConfigIncludeError Value}
    (hvisited : p.visited.length ≤ p.depth + 1)
    (hprocess : ∀ q hlt hdepth parsed, q.rootDir = p.rootDir → q.visited.length ≤ q.depth + 1 →
      (process q hlt hdepth parsed).Satisfies (Confined (resolve resolver.cwd p.rootDir.spec) q.visited)
        (·.lacksKey INCLUDE_KEY = true)) (includePath : String) :
    (loadFile resolver p process includePath).Satisfies (Confined (resolve resolver.cwd p.rootDir.spec) p.visited)
      (·.lacksKey INCLUDE_KEY = true) := by
  refine (Traced.satisfies_lift confined_pieces fun path hpath => resolvePath_inside hpath).bind confined_pieces
    fun path hinside => ?_
  have hfresh : ∀ u, checkCircular p path = .ok u → path ∉ p.visited := fun u hu hmem => by
    rw [checkCircular, if_pos hmem] at hu
    cases hu
  refine (Traced.satisfies_lift confined_pieces hfresh).bind confined_pieces fun _ hfresh => ?_
  split
  · exact Traced.satisfies_fail confined_pieces _
  · rename_i hdepth
    -- what is read behind the file continues its chain
    have hrest : ((do
        let raw ← Traced.lift (readFile resolver p includePath path)
        let parsed ← Traced.lift (parseFile resolver includePath path raw)
        process (p.nested path) (Nat.lt_of_not_le hdepth) rfl parsed : Traced Opened ConfigIncludeError Value)).Satisfies
        (Confined (resolve resolver.cwd p.rootDir.spec) (p.visited ++ [path])) (·.lacksKey INCLUDE_KEY = true) :=
      (Traced.satisfies_lift confined_pieces fun _ _ => trivial).bind confined_pieces fun raw _ =>
        (Traced.satisfies_lift confined_pieces fun _ _ => trivial).bind confined_pieces fun parsed _ =>
          hprocess (p.nested path) _ rfl parsed rfl (by
            simp only [IncludeProcessor.nested, length_append, length_singleton]
            omega)
    refine ⟨?_, hrest.returns⟩
    exact Confined.cons hinside hfresh (by omega) hrest.log

theorem process_satisfies (p : IncludeProcessor) (hvisited : p.visited.length ≤ p.depth + 1) (value : Value) :
    (process resolver p value).Satisfies (Confined (resolve resolver.cwd p.rootDir.spec) p.visited)
      (·.lacksKey INCLUDE_KEY = true) := by
  rw [process]
  refine processValue_satisfies confined_pieces (loadFile_satisfies hvisited fun q _ hdepth parsed hroot hq => ?_) value
  rw [← hroot]
  exact process_satisfies q hq parsed
termination_by MAX_INCLUDE_DEPTH - p.depth
decreasing_by omega

/-- **Resolving the includes of a config comes to an end, and what it reads is confined**: every
file opened is under the directory of the root config, in no chain of includes twice and at most
`MAX_INCLUDE_DEPTH` includes deep; and either it throws, or no object of the result has an
`$include` key. -/
theorem resolveConfigIncludes_confined (resolver : IncludeResolver ρ) (obj : Value) (configPath : String) :
    Confined (resolve resolver.cwd (normalize (dirname (PathSpec.parse configPath))).spec)
        [normalize (PathSpec.parse configPath)] (resolveConfigIncludes resolver obj configPath).log ∧
      ((∃ e, (resolveConfigIncludes resolver obj configPath).result = .error e) ∨
        ∃ v, (resolveConfigIncludes resolver obj configPath).result = .ok v ∧ v.lacksKey INCLUDE_KEY = true) := by
  have h := @process_satisfies _ resolver (rootProcessor configPath) le_rfl obj
  refine ⟨h.log, ?_⟩
  cases hresult : (resolveConfigIncludes resolver obj configPath).result with
  | error e => exact .inl ⟨e, rfl⟩
  | ok v => exact .inr ⟨v, rfl, h.returns v hresult⟩

end Process

end OpenClaw.Config
