import OpenClaw.Desktop.FailedUpdate

/-! Whether a run installs the layer.

The run is to install a layer for which the app is new enough, which fits the recorded
Electron, and which is missing or another than the recorded one. The code compares the app
versions as strings, and installs whenever `openclaw.mjs` is missing, whatever Electron is
recorded (`DecidesRight`). What is installed is found up to date by the next run
(`installed_is_current`). -/
namespace OpenClaw.Desktop
open Config

/-! ### Dotted versions -/

def component (digits : List Char) : Option Nat :=
  if digits ≠ [] ∧ digits.all Char.isDigit then some (digits.foldl (fun n c => 10 * n + (c.toNat - 48)) 0) else none

/-- The numbers of a dotted version. -/
def components (version : String) : Option (List Nat) := (version.toList.splitOn '.').mapM component

/-- Component by component; one that is not there is zero. -/
def isBelow : List Nat → List Nat → Bool
  | _, [] => false
  | [], b :: bs => decide (0 < b) || isBelow [] bs
  | a :: as, b :: bs => decide (a < b) || (decide (a = b) && isBelow as bs)

/-- The app is older than the manifest's layer needs. -/
def isTooOld (opts : UpdateLayersOptions) (manifest : BackendManifest) : Bool :=
  match manifest.minAppVersion.bind components, components opts.appVersion with
  | some required, some app => isBelow app required
  | _, _ => false

/-! ### The decision -/

/-- A string, or not there. -/
def IsText (v : Value) : Prop := v = .undefined ∨ ∃ s, v = .string s

/-- A record as the two formats have it. -/
def IsRecord (installed : Option LocalBackendVersion) : Prop :=
  ∀ v, installed = some v → IsText v.electronVersion ∧ IsText v.sha256

/-- No other Electron is recorded. -/
def electronFits (installed : Option LocalBackendVersion) (currentElectronVersion : String) : Bool :=
  installed.all fun v => !truthy v.electronVersion || isText v.electronVersion currentElectronVersion

/-- No layer is recorded, or another. -/
def differs (installed : Option LocalBackendVersion) (manifest : BackendManifest) : Bool :=
  installed.all fun v => v.version ≠ manifest.version || (truthy v.sha256 && !isText v.sha256 manifest.sha256)

section Decision
variable {α τ : Type*} (layers : Layers α τ) (opts : UpdateLayersOptions) (manifest : BackendManifest)
  (root : DataRoot α τ)

/-- The layer is new, and can run. -/
def isWanted : Bool :=
  let installed := readLocalBackendVersion root.versionFile
  electronFits installed opts.electronVersion && (!isSplitModeReady layers root || differs installed manifest)

/-- What a run is to do. -/
def shouldInstall : Bool := !isTooOld opts manifest && isWanted layers opts manifest root

/-- The two orders of versions agree where a layer is wanted, and no backend is missing that was
of another Electron, unless the strings stop the run. -/
structure DecidesRight : Prop where
  orders : isWanted layers opts manifest root = true →
    ((checkAppVersion opts manifest).isSome = isTooOld opts manifest)
  electron : isSplitModeReady layers root = false →
    electronFits (readLocalBackendVersion root.versionFile) opts.electronVersion = false →
    (checkAppVersion opts manifest).isSome = true

/-- What a run makes of a layer that it installs. -/
structure Installed (tar : α) (final : DataRoot α τ) : Prop where
  backend : final.backend = some ⟨layers.unpack tar, some manifest.version⟩
  versionFile : readLocalBackendVersion final.versionFile =
    some ⟨manifest.version, .string opts.electronVersion, .string manifest.sha256⟩

end Decision

section Run
variable {α τ : Type*} {layers : Layers α τ} {opts : UpdateLayersOptions} {manifest : BackendManifest}
  {data : Option Value} {root : DataRoot α τ} {tar : α}

/-- What `needsUpdate` says of a record. -/
theorem needsUpdate_record {installed : Option LocalBackendVersion} (h : IsRecord installed)
    (currentElectronVersion : String) : needsUpdate installed manifest currentElectronVersion =
      some (electronFits installed currentElectronVersion && differs installed manifest) := by
  cases installed with
  | none => rfl
  | some v =>
    obtain ⟨-, hsha⟩ := h v rfl
    have hslice : truthy v.sha256 = true → hasSlice v.sha256 = true := by
      rcases hsha with hsha | ⟨s, hsha⟩ <;> rw [hsha] <;> simp [truthy, hasSlice]
    simp only [needsUpdate, electronFits, differs, Option.all_some]
    cases helectron : truthy v.electronVersion && !isText v.electronVersion currentElectronVersion with
    | true =>
      rw [Bool.and_eq_true, Bool.not_eq_true'] at helectron
      simp [helectron]
    | false =>
      have hfits : (!truthy v.electronVersion || isText v.electronVersion currentElectronVersion) = true := by
        rw [← Bool.not_eq_true', Bool.not_and, Bool.not_not] at helectron
        exact helectron
      rw [hfits, Bool.true_and, if_neg Bool.false_ne_true]
      by_cases hversion : v.version = manifest.version
      · cases hother : truthy v.sha256 && !isText v.sha256 manifest.sha256 with
        | true => simp [hversion, hslice (Bool.and_eq_true_iff.mp hother).1]
        | false => simp [hversion]
      · simp [hversion]

section
variable (hfetch : fetchBackendManifest data = .ok manifest) (hcheck : opts.checkOnly = false)
  (hrecord : IsRecord (readLocalBackendVersion root.versionFile))
include hfetch hcheck hrecord

/-- Steps 1 to 3 come to the download exactly if the strings pass and the layer is missing, or
the record calls for it. -/
theorem manifestToInstall_record :
    manifestToInstall layers opts data root = .ok (some manifest) ↔
      checkAppVersion opts manifest = none ∧ (isSplitModeReady layers root = false ∨
        electronFits (readLocalBackendVersion root.versionFile) opts.electronVersion = true ∧
          differs (readLocalBackendVersion root.versionFile) manifest = true) := by
  rw [← Bool.and_eq_true_iff]
  simp only [manifestToInstall, hfetch, needsUpdate_record hrecord, hcheck]
  cases checkAppVersion opts manifest with
  | some error => simp
  | none =>
    cases electronFits (readLocalBackendVersion root.versionFile) opts.electronVersion &&
      differs (readLocalBackendVersion root.versionFile) manifest <;> cases isSplitModeReady layers root <;> simp

/-- **The code installs as it is to exactly if it decides right.** -/
theorem manifestToInstall_iff :
    (manifestToInstall layers opts data root = .ok (some manifest) ↔ shouldInstall layers opts manifest root = true) ↔
      DecidesRight layers opts manifest root := by
  rw [manifestToInstall_record hfetch hcheck hrecord, shouldInstall]
  have hright : DecidesRight layers opts manifest root ↔
      (isWanted layers opts manifest root = true → ((checkAppVersion opts manifest).isSome = isTooOld opts manifest)) ∧
      (isSplitModeReady layers root = false →
        electronFits (readLocalBackendVersion root.versionFile) opts.electronVersion = false →
        (checkAppVersion opts manifest).isSome = true) :=
    ⟨fun h => ⟨h.orders, h.electron⟩, fun h => ⟨h.1, h.2⟩⟩
  rw [hright, isWanted]
  cases checkAppVersion opts manifest <;> cases isTooOld opts manifest <;> cases isSplitModeReady layers root <;>
    cases electronFits (readLocalBackendVersion root.versionFile) opts.electronVersion <;>
    cases differs (readLocalBackendVersion root.versionFile) manifest <;> simp

end

theorem attempt_none (step : UpdateStep) (done : DataRoot α τ) (broken : Fault τ → DataRoot α τ) :
    attempt none step done broken = .ok done := rfl

/-- Without a failure the layer of a good archive gets to `backend-new`. -/
theorem prepareLayer_prepares (hsha : layers.sha256 tar = manifest.sha256)
    (hready : layers.hasOpenclawMjs (layers.unpack tar) = true) :
    prepareLayer layers none manifest (some tar) root =
      .ok {root with backendNew := some ⟨layers.unpack tar, some manifest.version⟩, tar := none} := by
  have hverify (r : DataRoot α τ) (h : r.tar = some tar) : verifySha256 layers none manifest.sha256 r = .ok r :=
    verifySha256_of_ne (fun _ h => nomatch h) h hsha
  have hremove : removeBackendNew (none : Option (Fault τ)) .removeBackendNew {root with tar := some tar} =
      .ok {root with tar := some tar, backendNew := none} := by
    obtain ⟨backend, backendNew, backendOld, oldTar, versionFile⟩ := root
    cases backendNew <;> rfl
  rw [prepareLayer, downloadLayer, attempt_none, ok_bind, hverify _ rfl, ok_bind, hremove, ok_bind]
  exact if_pos hready

/-- **A run without failures installs the layer.** -/
theorem installLayer_installs (hgood : GoodArchive layers manifest (some tar) tar) :
    ∃ final, installLayer layers none opts manifest (some tar) root = .ok final ∧
      Installed layers opts manifest tar final := by
  obtain ⟨-, hsha, hready⟩ := hgood
  rw [installLayer, prepareLayer_prepares hsha hready, ok_bind]
  obtain ⟨backend, backendNew, backendOld, oldTar, versionFile⟩ := root
  cases backend <;> cases backendOld <;> exact ⟨_, rfl, rfl, rfl⟩

/-- **What is installed is found up to date by the next run.** -/
theorem installed_is_current (hfetch : fetchBackendManifest data = .ok manifest)
    (hversion : checkAppVersion opts manifest = none) (hgood : GoodArchive layers manifest (some tar) tar)
    {final : DataRoot α τ} (h : Installed layers opts manifest tar final) :
    updateBackendLayers layers none opts data (some tar) final = (final, .complete) := by
  have hready : isSplitModeReady layers final = true := by
    rw [isSplitModeReady, h.backend]
    exact hgood.2.2
  have hneeds : needsUpdate (readLocalBackendVersion final.versionFile) manifest opts.electronVersion = some false := by
    rw [h.versionFile]
    simp [needsUpdate, isText, Value.text?]
  have hstop : manifestToInstall layers opts data final = .ok none := by
    simp [manifestToInstall, hfetch, hversion, hneeds, hready]
  rw [updateBackendLayers, hstop]

/-- **A run without failures installs the layer as it is to exactly if it decides right. What it
installs the next run leaves as it is, and where it does not install it leaves `backend` alone.** -/
theorem updateBackendLayers_decides_iff (hfetch : fetchBackendManifest data = .ok manifest)
    (hcheck : opts.checkOnly = false) (hrecord : IsRecord (readLocalBackendVersion root.versionFile))
    (hgood : GoodArchive layers manifest (some tar) tar) :
    ((manifestToInstall layers opts data root = .ok (some manifest) ↔ shouldInstall layers opts manifest root = true) ↔
      DecidesRight layers opts manifest root) ∧
    (manifestToInstall layers opts data root = .ok (some manifest) →
      ∃ final, updateBackendLayers layers none opts data (some tar) root = (final, .complete) ∧
        Installed layers opts manifest tar final ∧
        updateBackendLayers layers none opts data (some tar) final = (final, .complete)) ∧
    (manifestToInstall layers opts data root ≠ .ok (some manifest) →
      SameInstall root (updateBackendLayers layers none opts data (some tar) root).1) := by
  refine ⟨manifestToInstall_iff hfetch hcheck hrecord, fun hstart => ?_, fun hstop => ?_⟩
  · obtain ⟨final, hfinal, hinstalled⟩ := @installLayer_installs _ _ layers opts manifest root tar hgood
    refine ⟨final, ?_, hinstalled, ?_⟩
    · rw [updateBackendLayers, hstart]
      dsimp only
      rw [hfinal]
    · exact installed_is_current hfetch ((manifestToInstall_record hfetch hcheck hrecord).mp hstart).1 hgood hinstalled
  · refine updateBackendLayers_stopped fun other hother => hstop ?_
    have hsame : other = manifest := by
      unfold manifestToInstall at hother
      simp only [hfetch] at hother
      split at hother
      · cases hother
      · cases hother
      · split_ifs at hother <;> cases hother
        rfl
    rw [← hsame]
    exact hother

end Run

/-- The manifest of a layer for apps from 0.9.0 on. -/
def layerManifest : Value :=
  .object [("schemaVersion", .number 3), ("version", .string "2"), ("sha256", .string "b"), ("url", .string "u"),
    ("minAppVersion", .string "0.9.0")]

/-- A first layer, of the same Electron. -/
def firstLayer (electronVersion : String) (ready : Bool) : DataRoot String String where
  backend := if ready then some ⟨"a", some "1"⟩ else none
  versionFile := some (.object [("version", .string "1"), ("electronVersion", .string electronVersion)])

/-- An app 0.9.1 gets the second layer. -/
theorem updateBackendLayers_decides_newer :
    (manifestToInstall textLayers ⟨"0.9.1", "30", false⟩ (some layerManifest) (firstLayer "30" true) =
        .ok (some ⟨"2", "b", "u", some "0.9.0"⟩) ↔
      shouldInstall textLayers ⟨"0.9.1", "30", false⟩ ⟨"2", "b", "u", some "0.9.0"⟩ (firstLayer "30" true) = true) :=
  (@updateBackendLayers_decides_iff _ _ textLayers _ _ _ _ "b" rfl rfl
    (fun v h => by cases h; exact ⟨.inr ⟨"30", rfl⟩, .inl rfl⟩) ⟨rfl, rfl, rfl⟩).1.mpr
    ⟨fun _ => by decide, fun h => nomatch h⟩

/-- An app 0.10.0 is not too old, and is turned away; a backend that is missing is installed for
an Electron that it was not recorded for. -/
theorem layer_decided_wrong :
    (shouldInstall textLayers ⟨"0.10.0", "30", false⟩ ⟨"2", "b", "u", some "0.9.0"⟩ (firstLayer "30" true) = true ∧
      manifestToInstall textLayers ⟨"0.10.0", "30", false⟩ (some layerManifest) (firstLayer "30" true) =
        .error (.appTooOld "0.10.0" "0.9.0")) ∧
    shouldInstall textLayers ⟨"0.9.1", "31", false⟩ ⟨"2", "b", "u", some "0.9.0"⟩ (firstLayer "30" false) = false ∧
      manifestToInstall textLayers ⟨"0.9.1", "31", false⟩ (some layerManifest) (firstLayer "30" false) =
        .ok (some ⟨"2", "b", "u", some "0.9.0"⟩) :=
  ⟨⟨by decide, rfl⟩, by decide, rfl⟩

end OpenClaw.Desktop
