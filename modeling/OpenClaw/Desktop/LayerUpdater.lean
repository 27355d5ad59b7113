import OpenClaw.Desktop.BackendManifest

/-! The update of the backend layer.

`updateBackendLayers` goes through its steps on a state of three directories, a
downloaded archive and the version file. A step that throws leaves what it had done
(`Thrown`), and the handler at the end removes `backend-new`. Files and archives are
types of their own: `α` for archives and `τ` for the trees they unpack to, of which the
code only asks whether `openclaw.mjs` is there.

`Fault` makes one step throw that reaches the network or the disk. The version check, the
hash check and the smoke check throw by what they find. -/
namespace OpenClaw.Desktop
open Config

/-- What is fixed from outside: the hash, the unpacked tree, and whether
`node_modules/openclaw/openclaw.mjs` is in a tree. -/
structure Layers (α τ : Type*) where
  sha256 : α → String
  unpack : α → τ
  hasOpenclawMjs : τ → Bool

structure BackendDir (τ : Type*) where
  tree : τ
  /-- The version whose complete layer this is; none for what an interrupted step left. -/
  completeAs : Option String
  deriving Repr, DecidableEq

structure DataRoot (α τ : Type*) where
  backend : Option (BackendDir τ) := none
  backendNew : Option (BackendDir τ) := none
  backendOld : Option (BackendDir τ) := none
  /-- The archive in `backend-dl`. -/
  tar : Option α := none
  /-- `backend-version.json`, parsed. -/
  versionFile : Option Value := none

inductive UpdateStep where
  | download
  | readTar
  | removeBackendNew
  | extract
  | removeTar
  | removeBackendOld
  | renameBackend
  | renameBackendNew
  | writeVersion
  /-- The removal of `backend-new` by the handler. -/
  | cleanUp
  deriving Repr, DecidableEq

/-- A step throws; a removal or an extraction leaves `rest` behind. -/
structure Fault (τ : Type*) where
  step : UpdateStep
  rest : Option τ := none

inductive UpdateError where
  /-- `Failed to fetch manifest: …`. -/
  | fetchManifest (cause : ManifestError)
  /-- `App version … is too old (requires …). Update the app first.`. -/
  | appTooOld (appVersion minAppVersion : String)
  /-- `SHA-256 mismatch`. -/
  | shaMismatch (expected actual : String)
  /-- `Smoke check failed: openclaw.mjs not found at …`. -/
  | smokeCheck
  /-- `sha256.slice` is not a function. -/
  | noSlice
  | thrown (step : UpdateStep)
  deriving Repr

/-- The `phase` of the last state that was reported. -/
inductive LayerUpdatePhase where
  | complete
  | error (cause : UpdateError)
  deriving Repr

structure UpdateLayersOptions where
  appVersion : String
  electronVersion : String
  checkOnly : Bool := false

section Update
variable {α τ : Type*} (layers : Layers α τ)

/-- An error, and the state in which it was thrown. -/
abbrev Thrown (α τ : Type*) := DataRoot α τ × UpdateError

abbrev Step (α τ : Type*) := DataRoot α τ → Except (Thrown α τ) (DataRoot α τ)

/-- What a removal or an extraction that breaks off leaves of a directory. -/
def Fault.remains (fault : Fault τ) : Option (BackendDir τ) := fault.rest.map fun tree => ⟨tree, none⟩

def isSplitModeReady (root : DataRoot α τ) : Bool :=
  root.backend.any fun dir => layers.hasOpenclawMjs dir.tree

/-- `done`, unless it is this step that throws; then `broken`. -/
def attempt (fault : Option (Fault τ)) (step : UpdateStep) (done : DataRoot α τ)
    (broken : Fault τ → DataRoot α τ) : Except (Thrown α τ) (DataRoot α τ) :=
  match fault with
  | none => .ok done
  | some fault => if fault.step = step then .error (broken fault, .thrown step) else .ok done

variable (fault : Option (Fault τ))

/-- The archive of the manifest's url; none where the download fails. What was downloaded
before is removed first. -/
def downloadLayer (archive : Option α) : Step α τ := fun root =>
  match archive with
  | none => .error ({root with tar := none}, .thrown .download)
  | some archive => attempt fault .download {root with tar := some archive} fun _ => {root with tar := none}

def verifySha256 (expected : String) : Step α τ := fun root => do
  let root ← attempt fault .readTar root fun _ => root
  match root.tar with
  | none => .error (root, .thrown .readTar)
  | some tar =>
    if layers.sha256 tar = expected then pure root
    else .error (root, .shaMismatch expected (layers.sha256 tar))

/-- `rmSync` where the directory exists. -/
def removeBackendNew (step : UpdateStep) : Step α τ := fun root =>
  if root.backendNew.isSome then
    attempt fault step {root with backendNew := none} fun fault => {root with backendNew := fault.remains}
  else .ok root

def extractLayer (version : String) : Step α τ := fun root =>
  match root.tar with
  | none => .error (root, .thrown .extract)
  | some tar =>
    attempt fault .extract {root with backendNew := some ⟨layers.unpack tar, some version⟩}
      fun fault => {root with backendNew := fault.remains}

/-- The archive is removed, and an error ignored. -/
def removeTar (root : DataRoot α τ) : DataRoot α τ :=
  match attempt fault .removeTar {root with tar := none} fun _ => root with
  | .ok root | .error (root, _) => root

def smokeCheckBackend : Step α τ := fun root =>
  if root.backendNew.any fun dir => layers.hasOpenclawMjs dir.tree then .ok root else .error (root, .smokeCheck)

def removeBackendOld : Step α τ := fun root =>
  if root.backendOld.isSome then
    attempt fault .removeBackendOld {root with backendOld := none}
      fun fault => {root with backendOld := fault.remains}
  else .ok root

def renameBackend : Step α τ := fun root =>
  if root.backend.isSome then
    attempt fault .renameBackend {root with backend := none, backendOld := root.backend} fun _ => root
  else .ok root

def renameBackendNew : Step α τ := fun root =>
  attempt fault .renameBackendNew {root with backend := root.backendNew, backendNew := none} fun _ => root

def atomicSwap : Step α τ := fun root => do
  let root ← removeBackendOld fault root
  let root ← renameBackend fault root
  renameBackendNew fault root

def writeLocalBackendVersion (version : LocalBackendVersion) : Step α τ := fun root =>
  attempt fault .writeVersion {root with versionFile := some version.toValue} fun _ => root

/-- Steps 4 to 7: the layer in `backend-new`, checked. -/
def prepareLayer (manifest : BackendManifest) (archive : Option α) : Step α τ := fun root => do
  let root ← downloadLayer fault archive root
  let root ← verifySha256 layers fault manifest.sha256 root
  let root ← removeBackendNew fault .removeBackendNew root
  let root ← extractLayer layers fault manifest.version root
  smokeCheckBackend layers (removeTar fault root)

/-- Steps 4 to 9. -/
def installLayer (opts : UpdateLayersOptions) (manifest : BackendManifest) (archive : Option α) :
    Step α τ := fun root => do
  let root ← prepareLayer layers fault manifest archive root
  let root ← atomicSwap fault root
  writeLocalBackendVersion fault ⟨manifest.version, .string opts.electronVersion, .string manifest.sha256⟩ root

/-- The error of the version check. -/
def checkAppVersion (opts : UpdateLayersOptions) (manifest : BackendManifest) : Option UpdateError :=
  match manifest.minAppVersion with
  | some required =>
    if required ≠ "" && lessThan opts.appVersion required then some (.appTooOld opts.appVersion required) else none
  | none => none

/-- Steps 1 to 3: the manifest, if its layer is to be downloaded. -/
def manifestToInstall (opts : UpdateLayersOptions) (data : Option Value) (root : DataRoot α τ) :
    Except UpdateError (Option BackendManifest) :=
  match fetchBackendManifest data with
  | .error cause => .error (.fetchManifest cause)
  | .ok manifest =>
    match checkAppVersion opts manifest, needsUpdate (readLocalBackendVersion root.versionFile) manifest
        opts.electronVersion with
    | some error, _ => .error error
    | none, none => .error .noSlice
    | none, some needed =>
      if !needed && isSplitModeReady layers root then .ok none
      else if opts.checkOnly then .ok none
      else .ok (some manifest)

/-- The handler removes `backend-new`, and an error of that is ignored. -/
def handleError (root : DataRoot α τ) : DataRoot α τ :=
  match removeBackendNew fault .cleanUp root with
  | .ok root | .error (root, _) => root

def updateBackendLayers (opts : UpdateLayersOptions) (data : Option Value) (archive : Option α)
    (root : DataRoot α τ) : DataRoot α τ × LayerUpdatePhase :=
  match manifestToInstall layers opts data root with
  | .error cause => (handleError fault root, .error cause)
  | .ok none => (root, .complete)
  | .ok (some manifest) =>
    match installLayer layers fault opts manifest archive root with
    | .error (root, cause) => (handleError fault root, .error cause)
    | .ok root => (root, .complete)

end Update

end OpenClaw.Desktop
