import OpenClaw.Desktop.LayerUpdater

/-! What a failed update leaves.

Up to the swap every step leaves `backend` and the version file alone (`Keeps`), and the
steps before it come through only with an archive of the right hash. Of the swap itself the
last rename is the one that loses the backend: it throws when `backend` has become
`backend-old`, and the handler then removes `backend-new`. -/
namespace OpenClaw.Desktop
open Config

variable {α τ : Type*} {layers : Layers α τ} {fault : Option (Fault τ)} {opts : UpdateLayersOptions}
  {manifest : BackendManifest} {data : Option Value} {archive : Option α} {root root' : DataRoot α τ}

/-! ### The property -/

/-- `backend` has a complete layer. -/
def HasBackend (layers : Layers α τ) (root : DataRoot α τ) : Prop :=
  ∃ dir version, root.backend = some dir ∧ dir.completeAs = some version ∧ layers.hasOpenclawMjs dir.tree = true

/-- The archive has the hash of the manifest, and unpacks to what the smoke check accepts. -/
def GoodArchive (layers : Layers α τ) (manifest : BackendManifest) (archive : Option α) (tar : α) : Prop :=
  archive = some tar ∧ layers.sha256 tar = manifest.sha256 ∧ layers.hasOpenclawMjs (layers.unpack tar) = true

/-- `backend` is what it was, or the layer of a good archive. -/
def KeptOrInstalled (layers : Layers α τ) (data : Option Value) (archive : Option α)
    (root final : DataRoot α τ) : Prop :=
  final.backend = root.backend ∨ ∃ manifest tar, fetchBackendManifest data = .ok manifest ∧
    GoodArchive layers manifest archive tar ∧ final.backend = some ⟨layers.unpack tar, some manifest.version⟩

/-- A run with the same manifest gets to the download. -/
def DownloadsAgain (layers : Layers α τ) (opts : UpdateLayersOptions) (data : Option Value)
    (root : DataRoot α τ) : Prop :=
  ∃ manifest, manifestToInstall layers {opts with checkOnly := false} data root = .ok (some manifest)

/-- The version file names what is in `backend`, or the next run downloads it. -/
def VersionTrusted (layers : Layers α τ) (opts : UpdateLayersOptions) (data : Option Value)
    (root : DataRoot α τ) : Prop :=
  ∀ installed, readLocalBackendVersion root.versionFile = some installed →
    (∃ dir, root.backend = some dir ∧ dir.completeAs = some installed.version) ∨
      DownloadsAgain layers opts data root

/-- The second rename of the swap throws, and the run gets there. -/
def LosesBackend (layers : Layers α τ) (fault : Option (Fault τ)) (opts : UpdateLayersOptions)
    (data : Option Value) (archive : Option α) (root : DataRoot α τ) : Prop :=
  (∃ f, fault = some f ∧ f.step = .renameBackendNew) ∧
    ∃ manifest tar, manifestToInstall layers opts data root = .ok (some manifest) ∧
      GoodArchive layers manifest archive tar

/-! ### Steps before the swap -/

structure SameInstall (root root' : DataRoot α τ) : Prop where
  backend : root'.backend = root.backend
  versionFile : root'.versionFile = root.versionFile

theorem SameInstall.refl (root : DataRoot α τ) : SameInstall root root := ⟨rfl, rfl⟩

theorem SameInstall.trans {a b c : DataRoot α τ} (hab : SameInstall a b) (hbc : SameInstall b c) : SameInstall a c :=
  ⟨hbc.backend.trans hab.backend, hbc.versionFile.trans hab.versionFile⟩

/-- The state a step ends in, whether it throws or not. -/
def stateOf : Except (Thrown α τ) (DataRoot α τ) → DataRoot α τ
  | .ok root | .error (root, _) => root

variable {step : UpdateStep} {done : DataRoot α τ} {broken : Fault τ → DataRoot α τ} {tar : α}
  {dir : BackendDir τ}

theorem attempt_cases :
    (attempt fault step done broken = .ok done ∧ ∀ f, fault = some f → f.step ≠ step) ∨
      ∃ f, fault = some f ∧ f.step = step ∧ attempt fault step done broken = .error (broken f, .thrown step) := by
  cases fault with
  | none => exact .inl ⟨rfl, fun f h => by cases h⟩
  | some f =>
    by_cases hstep : f.step = step
    · exact .inr ⟨f, rfl, hstep, if_pos hstep⟩
    · refine .inl ⟨if_neg hstep, fun f' h => ?_⟩
      cases h
      exact hstep

/-- A step keeps the installation when both its results do. -/
theorem attempt_keeps (hdone : SameInstall root done) (hbroken : ∀ f, SameInstall root (broken f)) :
    SameInstall root (stateOf (attempt fault step done broken)) := by
  obtain ⟨h, -⟩ | ⟨f, -, -, h⟩ := @attempt_cases _ _ fault step done broken
  · rw [h]
    exact hdone
  · rw [h]
    exact hbroken f

theorem bind_keeps {x : Except (Thrown α τ) (DataRoot α τ)} {f : DataRoot α τ → Except (Thrown α τ) (DataRoot α τ)}
    (hx : SameInstall root (stateOf x)) (hf : ∀ root', SameInstall root' (stateOf (f root'))) :
    SameInstall root (stateOf (x >>= f)) := by
  cases x with
  | error thrown => exact hx
  | ok root' => exact hx.trans (hf root')

theorem downloadLayer_keeps (archive : Option α) (root : DataRoot α τ) :
    SameInstall root (stateOf (downloadLayer fault archive root)) := by
  cases archive with
  | none => exact ⟨rfl, rfl⟩
  | some tar => exact attempt_keeps ⟨rfl, rfl⟩ fun _ => ⟨rfl, rfl⟩

theorem verifySha256_keeps (expected : String) (root : DataRoot α τ) :
    SameInstall root (stateOf (verifySha256 layers fault expected root)) := by
  refine bind_keeps (attempt_keeps (.refl root) fun _ => .refl root) fun root' => ?_
  cases root'.tar with
  | none => exact .refl root'
  | some tar =>
    by_cases hsha : layers.sha256 tar = expected
    · simp only [hsha, if_true]
      exact .refl root'
    · simp only [hsha, if_false]
      exact .refl root'

theorem removeBackendNew_keeps (step : UpdateStep) (root : DataRoot α τ) :
    SameInstall root (stateOf (removeBackendNew fault step root)) := by
  unfold removeBackendNew
  split
  · exact attempt_keeps ⟨rfl, rfl⟩ fun _ => ⟨rfl, rfl⟩
  · exact .refl root

theorem extractLayer_keeps (version : String) (root : DataRoot α τ) :
    SameInstall root (stateOf (extractLayer layers fault version root)) := by
  unfold extractLayer
  cases root.tar with
  | none => exact .refl root
  | some tar => exact attempt_keeps ⟨rfl, rfl⟩ fun _ => ⟨rfl, rfl⟩

theorem removeTar_cases (fault : Option (Fault τ)) (root : DataRoot α τ) :
    removeTar fault root = {root with tar := none} ∨ removeTar fault root = root := by
  unfold removeTar
  obtain ⟨h, -⟩ | ⟨f, -, -, h⟩ := @attempt_cases _ _ fault .removeTar {root with tar := none} fun _ => root
  · rw [h]
    exact .inl rfl
  · rw [h]
    exact .inr rfl

theorem smokeCheckBackend_keeps (root : DataRoot α τ) :
    SameInstall root (stateOf (smokeCheckBackend layers root)) := by
  unfold smokeCheckBackend
  split <;> exact .refl root

theorem prepareLayer_keeps (manifest : BackendManifest) (archive : Option α) (root : DataRoot α τ) :
    SameInstall root (stateOf (prepareLayer layers fault manifest archive root)) := by
  refine bind_keeps (downloadLayer_keeps archive root) fun root => ?_
  refine bind_keeps (verifySha256_keeps _ root) fun root => ?_
  refine bind_keeps (removeBackendNew_keeps _ root) fun root => ?_
  refine bind_keeps (extractLayer_keeps _ root) fun root => ?_
  have htar : SameInstall root (removeTar fault root) := by
    obtain h | h := removeTar_cases fault root
    · rw [h]
      exact ⟨rfl, rfl⟩
    · rw [h]
      exact .refl root
  exact htar.trans (smokeCheckBackend_keeps _)

theorem handleError_keeps (root : DataRoot α τ) : SameInstall root (handleError fault root) := by
  have h := @removeBackendNew_keeps _ _ fault .cleanUp root
  unfold handleError
  cases hremove : removeBackendNew fault .cleanUp root with
  | ok root' | error thrown =>
    rw [hremove] at h
    exact h

/-! ### What comes through -/

theorem bind_ok {x : Except (Thrown α τ) (DataRoot α τ)} {f : DataRoot α τ → Except (Thrown α τ) (DataRoot α τ)}
    (h : (x >>= f) = .ok root') : ∃ root, x = .ok root ∧ f root = .ok root' := by
  cases x with
  | error thrown => cases h
  | ok root => exact ⟨root, rfl, h⟩

theorem attempt_ok (h : attempt fault step done broken = .ok root') : root' = done := by
  obtain ⟨hok, -⟩ | ⟨f, -, -, herror⟩ :=
    @attempt_cases _ _ fault step done broken
  · rw [hok] at h
    cases h
    rfl
  · rw [herror] at h
    cases h

theorem downloadLayer_ok (h : downloadLayer fault archive root = .ok root') :
    ∃ tar, archive = some tar ∧ root'.tar = some tar := by
  cases archive with
  | none => cases h
  | some tar => exact ⟨tar, rfl, by rw [attempt_ok h]⟩

theorem verifySha256_ok {expected : String} (htar : root.tar = some tar)
    (h : verifySha256 layers fault expected root = .ok root') : layers.sha256 tar = expected ∧ root' = root := by
  obtain ⟨read, hread, hcompare⟩ := bind_ok h
  rw [attempt_ok hread] at hcompare
  simp only [htar] at hcompare
  split at hcompare
  · rename_i hsha
    cases hcompare
    exact ⟨hsha, rfl⟩
  · cases hcompare

theorem removeBackendNew_ok (h : removeBackendNew fault step root = .ok root') :
    root'.tar = root.tar := by
  unfold removeBackendNew at h
  split at h
  · rw [attempt_ok h]
  · cases h
    rfl

theorem extractLayer_ok {version : String} (htar : root.tar = some tar)
    (h : extractLayer layers fault version root = .ok root') :
    root'.backendNew = some ⟨layers.unpack tar, some version⟩ := by
  simp only [extractLayer, htar] at h
  rw [attempt_ok h]

theorem smokeCheckBackend_ok (hnew : root.backendNew = some dir) (h : smokeCheckBackend layers root = .ok root') :
    layers.hasOpenclawMjs dir.tree = true ∧ root' = root := by
  unfold smokeCheckBackend at h
  rw [hnew] at h
  split at h
  · rename_i hready
    cases h
    exact ⟨hready, rfl⟩
  · cases h

theorem removeTar_backendNew (fault : Option (Fault τ)) (root : DataRoot α τ) :
    (removeTar fault root).backendNew = root.backendNew := by
  obtain h | h := removeTar_cases fault root <;> rw [h]

/-- Only a good archive gets through the checks. -/
theorem prepareLayer_ok (h : prepareLayer layers fault manifest archive root = .ok root') :
    ∃ tar, GoodArchive layers manifest archive tar ∧
      root'.backendNew = some ⟨layers.unpack tar, some manifest.version⟩ := by
  obtain ⟨downloaded, hdownload, hrest⟩ := bind_ok h
  obtain ⟨verified, hverify, hrest⟩ := bind_ok hrest
  obtain ⟨removed, hremove, hrest⟩ := bind_ok hrest
  obtain ⟨extracted, hextract, hsmoke⟩ := bind_ok hrest
  obtain ⟨tar, harchive, htar⟩ := downloadLayer_ok hdownload
  obtain ⟨hsha, hsame⟩ := verifySha256_ok htar hverify
  have hremoved : removed.tar = some tar := by rw [removeBackendNew_ok hremove, hsame, htar]
  have hnew := extractLayer_ok hremoved hextract
  rw [← removeTar_backendNew fault extracted] at hnew
  obtain ⟨hready, hchecked⟩ := smokeCheckBackend_ok hnew hsmoke
  exact ⟨tar, ⟨harchive, hsha, hready⟩, by rw [hchecked, hnew]⟩

theorem attempt_of_ne (h : ∀ f, fault = some f → f.step ≠ step) : attempt fault step done broken = .ok done := by
  cases fault with
  | none => rfl
  | some f => exact if_neg (h f rfl)

theorem ok_bind (root : DataRoot α τ) (f : DataRoot α τ → Except (Thrown α τ) (DataRoot α τ)) :
    ((.ok root : Except (Thrown α τ) (DataRoot α τ)) >>= f) = f root := rfl

theorem verifySha256_of_ne {expected : String} (hfault : ∀ f, fault = some f → f.step ≠ .readTar)
    (htar : root.tar = some tar) (hsha : layers.sha256 tar = expected) :
    verifySha256 layers fault expected root = .ok root := by
  unfold verifySha256
  rw [attempt_of_ne hfault, ok_bind]
  simp only [htar, hsha, if_true]
  rfl

theorem removeBackendNew_of_ne (hfault : ∀ f, fault = some f → f.step ≠ step) (root : DataRoot α τ) :
    ∃ root', removeBackendNew fault step root = .ok root' := by
  unfold removeBackendNew
  split
  · exact ⟨_, attempt_of_ne hfault⟩
  · exact ⟨root, rfl⟩

theorem extractLayer_of_ne {version : String} {tar : α} (hfault : ∀ f, fault = some f → f.step ≠ .extract)
    (htar : root.tar = some tar) : ∃ root', extractLayer layers fault version root = .ok root' ∧
      root'.backendNew = some ⟨layers.unpack tar, some version⟩ := by
  simp only [extractLayer, htar]
  exact ⟨_, attempt_of_ne hfault, rfl⟩

/-- A good archive gets through them, when it is the rename that throws. -/
theorem prepareLayer_of_good (hgood : GoodArchive layers manifest archive tar) {f : Fault τ}
    (hfault : fault = some f) (hstep : f.step = .renameBackendNew) :
    ∃ root', prepareLayer layers fault manifest archive root = .ok root' := by
  obtain ⟨rfl, hsha, hready⟩ := hgood
  have hother (step : UpdateStep) (hne : step ≠ .renameBackendNew) : ∀ f, fault = some f → f.step ≠ step := by
    intro f' hf'
    rw [hfault] at hf'
    cases hf'
    rw [hstep]
    exact hne.symm
  have hdownload : downloadLayer fault (some tar) root = .ok {root with tar := some tar} :=
    attempt_of_ne (hother _ (by decide))
  obtain ⟨removed, hremove⟩ :=
    removeBackendNew_of_ne (hother .removeBackendNew (by decide)) {root with tar := some tar}
  obtain ⟨extracted, hextract, hnew⟩ := @extractLayer_of_ne _ _ layers fault removed manifest.version tar
    (hother _ (by decide)) (removeBackendNew_ok hremove)
  refine ⟨removeTar fault extracted, ?_⟩
  unfold prepareLayer
  rw [hdownload, ok_bind, verifySha256_of_ne (hother _ (by decide)) rfl hsha, ok_bind, hremove, ok_bind, hextract,
    ok_bind]
  unfold smokeCheckBackend
  rw [removeTar_backendNew, hnew]
  exact if_pos hready

/-! ### The swap -/

theorem ne_of_other {f : Fault τ} {step' : UpdateStep} (hfault : fault = some f) (hstep : f.step = step)
    (hne : step ≠ step') : ∀ f, fault = some f → f.step ≠ step' := by
  intro f' hf'
  rw [hfault] at hf'
  cases hf'
  rw [hstep]
  exact hne

theorem removeBackendOld_cases (fault : Option (Fault τ)) (root : DataRoot α τ) :
    (∃ r, removeBackendOld fault root = .ok r ∧ SameInstall root r ∧ r.backendNew = root.backendNew) ∨
      ∃ r cause, removeBackendOld fault root = .error (r, cause) ∧ SameInstall root r ∧
        ∀ f, fault = some f → f.step ≠ .renameBackendNew := by
  unfold removeBackendOld
  split
  · obtain ⟨h, -⟩ | ⟨f, hf, hstep, h⟩ := @attempt_cases _ _ fault .removeBackendOld {root with backendOld := none}
      fun fault => {root with backendOld := fault.remains}
    · exact .inl ⟨_, h, ⟨rfl, rfl⟩, rfl⟩
    · exact .inr ⟨_, _, h, ⟨rfl, rfl⟩, ne_of_other hf hstep (by decide)⟩
  · exact .inl ⟨root, rfl, .refl root, rfl⟩

/-- What the swap does to a root with a backend and a new one. -/
theorem atomicSwap_cases {new : BackendDir τ} (hbackend : root.backend = some dir)
    (hnew : root.backendNew = some new) :
    (∃ root', atomicSwap fault root = .ok root' ∧ root'.backend = some new ∧
      root'.versionFile = root.versionFile ∧ ∀ f, fault = some f → f.step ≠ .renameBackendNew) ∨
    (∃ root' cause, atomicSwap fault root = .error (root', cause) ∧ SameInstall root root' ∧
      ∀ f, fault = some f → f.step ≠ .renameBackendNew) ∨
    ∃ root' cause, atomicSwap fault root = .error (root', cause) ∧ root'.backend = none ∧
      ∃ f, fault = some f ∧ f.step = .renameBackendNew := by
  unfold atomicSwap
  obtain ⟨r, hr, hsame, hrnew⟩ | ⟨r, cause, hr, hsame, hne⟩ := removeBackendOld_cases fault root
  · rw [hr, ok_bind]
    have hsome : r.backend.isSome = true := by
      rw [hsame.backend, hbackend]
      rfl
    simp only [renameBackend, hsome, if_true]
    obtain ⟨h, -⟩ | ⟨f, hf, hstep, h⟩ := @attempt_cases _ _ fault .renameBackend
      {r with backend := none, backendOld := r.backend} fun _ => r
    · rw [h, ok_bind]
      obtain ⟨h, hne⟩ | ⟨f, hf, hstep, h⟩ := @attempt_cases _ _ fault .renameBackendNew
        {r with backend := r.backendNew, backendOld := r.backend, backendNew := none}
        fun _ => {r with backend := none, backendOld := r.backend}
      · exact .inl ⟨_, h, hrnew.trans hnew, hsame.versionFile, hne⟩
      · exact .inr (.inr ⟨_, _, h, rfl, f, hf, hstep⟩)
    · rw [h]
      exact .inr (.inl ⟨r, _, rfl, hsame, ne_of_other hf hstep (by decide)⟩)
  · rw [hr]
    exact .inr (.inl ⟨r, cause, rfl, hsame, hne⟩)

/-! ### The whole update -/

/-- What a run with a backend leaves: the installation as it was, unless a good archive
has come to the swap; then the backend is lost, or it is the new layer. -/
inductive Outcome (layers : Layers α τ) (fault : Option (Fault τ)) (opts : UpdateLayersOptions)
    (manifest : BackendManifest) (archive : Option α) (root final : DataRoot α τ) : Prop where
  | kept (hsame : SameInstall root final)
    (hkeeps : ∀ tar, GoodArchive layers manifest archive tar → ∀ f, fault = some f → f.step ≠ .renameBackendNew)
  | lost (tar : α) (hgood : GoodArchive layers manifest archive tar) (hnone : final.backend = none) (f : Fault τ)
    (hfault : fault = some f) (hstep : f.step = .renameBackendNew)
  | installed (tar : α) (hgood : GoodArchive layers manifest archive tar)
    (hbackend : final.backend = some ⟨layers.unpack tar, some manifest.version⟩)
    (hversion : final.versionFile = root.versionFile ∨ final.versionFile =
      some (LocalBackendVersion.mk manifest.version (.string opts.electronVersion) (.string manifest.sha256)).toValue)
    (hkeeps : ∀ f, fault = some f → f.step ≠ .renameBackendNew)

theorem writeLocalBackendVersion_cases (fault : Option (Fault τ)) (version : LocalBackendVersion)
    (root : DataRoot α τ) :
    stateOf (writeLocalBackendVersion fault version root) = {root with versionFile := some version.toValue} ∨
      stateOf (writeLocalBackendVersion fault version root) = root := by
  unfold writeLocalBackendVersion
  obtain ⟨h, -⟩ | ⟨f, -, -, h⟩ := @attempt_cases _ _ fault .writeVersion
    {root with versionFile := some version.toValue} fun _ => root
  · rw [h]
    exact .inl rfl
  · rw [h]
    exact .inr rfl

theorem installLayer_outcome (hbackend : root.backend = some dir) :
    Outcome layers fault opts manifest archive root
      (stateOf (installLayer layers fault opts manifest archive root)) := by
  have hkeeps := @prepareLayer_keeps _ _ layers fault manifest archive root
  unfold installLayer
  cases hprepare : prepareLayer layers fault manifest archive root with
  | error thrown =>
    rw [hprepare] at hkeeps
    refine .kept hkeeps fun tar hgood f hf hstep => ?_
    obtain ⟨root', hok⟩ := @prepareLayer_of_good _ _ layers fault manifest archive root tar hgood f hf hstep
    rw [hprepare] at hok
    cases hok
  | ok prepared =>
    rw [hprepare] at hkeeps
    obtain ⟨tar, hgood, hnew⟩ := prepareLayer_ok hprepare
    rw [ok_bind]
    obtain ⟨swapped, h, hinstalled, hversion, hne⟩ | ⟨swapped, cause, h, hsame, hne⟩ |
      ⟨swapped, cause, h, hnone, f, hf, hstep⟩ := @atomicSwap_cases _ _ fault prepared dir _
        (hkeeps.backend.trans hbackend) hnew
    · rw [h, ok_bind]
      have hold := hversion.trans hkeeps.versionFile
      obtain hwrite | hwrite := writeLocalBackendVersion_cases fault
        ⟨manifest.version, .string opts.electronVersion, .string manifest.sha256⟩ swapped
      · rw [hwrite]
        exact .installed tar hgood hinstalled (.inr rfl) hne
      · rw [hwrite]
        exact .installed tar hgood hinstalled (.inl hold) hne
    · rw [h]
      exact .kept (hkeeps.trans hsame) fun _ _ => hne
    · rw [h]
      exact .lost tar hgood hnone f hf hstep

theorem Outcome.trans_keeps {final final' : DataRoot α τ} (h : Outcome layers fault opts manifest archive root final)
    (hsame : SameInstall final final') : Outcome layers fault opts manifest archive root final' := by
  cases h with
  | kept hold hkeeps => exact .kept (hold.trans hsame) hkeeps
  | lost tar hgood hnone f hf hstep => exact .lost tar hgood (hsame.backend.trans hnone) f hf hstep
  | installed tar hgood hbackend hversion hkeeps =>
    refine .installed tar hgood (hsame.backend.trans hbackend) ?_ hkeeps
    rw [hsame.versionFile]
    exact hversion

/-- What a run that gets to the download leaves. -/
theorem updateBackendLayers_outcome (hbackend : root.backend = some dir)
    (h : manifestToInstall layers opts data root = .ok (some manifest)) :
    Outcome layers fault opts manifest archive root (updateBackendLayers layers fault opts data archive root).1 := by
  have hinstall := @installLayer_outcome _ _ layers fault opts manifest archive root dir hbackend
  unfold updateBackendLayers
  simp only [h]
  cases hresult : installLayer layers fault opts manifest archive root with
  | ok final =>
    rw [hresult] at hinstall
    exact hinstall
  | error thrown =>
    rw [hresult] at hinstall
    exact hinstall.trans_keeps (handleError_keeps _)

/-- A run that does not get there leaves the installation as it was. -/
theorem updateBackendLayers_stopped (h : ∀ manifest, manifestToInstall layers opts data root ≠ .ok (some manifest)) :
    SameInstall root (updateBackendLayers layers fault opts data archive root).1 := by
  unfold updateBackendLayers
  cases hstart : manifestToInstall layers opts data root with
  | error cause => exact handleError_keeps root
  | ok result =>
    cases result with
    | none => exact .refl root
    | some manifest => exact absurd hstart (h manifest)

/-! ### Exactly when -/

/-- A run with a backend downloads the layer of a manifest that calls for it. -/
theorem manifestToInstall_some (hready : isSplitModeReady layers root = true)
    (h : manifestToInstall layers opts data root = .ok (some manifest)) :
    fetchBackendManifest data = .ok manifest ∧ checkAppVersion opts manifest = none ∧
      needsUpdate (readLocalBackendVersion root.versionFile) manifest opts.electronVersion = some true := by
  unfold manifestToInstall at h
  cases hfetch : fetchBackendManifest data with
  | error cause =>
    rw [hfetch] at h
    cases h
  | ok fetched =>
    simp only [hfetch] at h
    cases hversion : checkAppVersion opts fetched with
    | some error => simp only [hversion, reduceCtorEq] at h
    | none =>
      cases hneeds : needsUpdate (readLocalBackendVersion root.versionFile) fetched opts.electronVersion with
      | none => simp only [hversion, hneeds, reduceCtorEq] at h
      | some needed =>
        simp only [hversion, hneeds, hready, Bool.and_true] at h
        cases needed with
        | false => cases h
        | true =>
          cases hcheck : opts.checkOnly with
          | true =>
            rw [hcheck] at h
            cases h
          | false =>
            rw [hcheck] at h
            cases h
            exact ⟨rfl, hversion, hneeds⟩

theorem downloadsAgain_of_needs (hfetch : fetchBackendManifest data = .ok manifest)
    (hversion : checkAppVersion opts manifest = none)
    (hneeds : needsUpdate (readLocalBackendVersion root.versionFile) manifest opts.electronVersion = some true) :
    DownloadsAgain layers opts data root := by
  refine ⟨manifest, ?_⟩
  have hcheck : checkAppVersion {opts with checkOnly := false} manifest = none := hversion
  simp only [manifestToInstall, hfetch, hcheck, hneeds]
  rfl

theorem SameInstall.isSplitModeReady_eq (h : SameInstall root root') :
    isSplitModeReady layers root' = isSplitModeReady layers root := by
  unfold isSplitModeReady
  rw [h.backend]

theorem SameInstall.manifestToInstall_eq (h : SameInstall root root') :
    manifestToInstall layers opts data root' = manifestToInstall layers opts data root := by
  unfold manifestToInstall
  rw [h.isSplitModeReady_eq, h.versionFile]

theorem SameInstall.versionTrusted_iff (h : SameInstall root root') :
    VersionTrusted layers opts data root' ↔ VersionTrusted layers opts data root := by
  unfold VersionTrusted DownloadsAgain
  rw [h.versionFile, h.backend, h.manifestToInstall_eq]

/-! ### An update to a second version -/

def textLayers : Layers String String where
  sha256 archive := archive
  unpack archive := archive
  hasOpenclawMjs _ := true

def secondManifest : Value :=
  .object [("schemaVersion", .number 3), ("version", .string "2"), ("sha256", .string "second"),
    ("url", .string "layer-backend-v2.tar.gz")]

def firstInstalled : DataRoot String String where
  backend := some ⟨"first", some "1"⟩
  versionFile := some (LocalBackendVersion.mk "1" (.string "35") (.string "first")).toValue

def secondUpdate (fault : Option (Fault String)) : DataRoot String String × LayerUpdatePhase :=
  updateBackendLayers textLayers fault {appVersion := "1", electronVersion := "35"} (some secondManifest)
    (some "second") firstInstalled

/-- The second rename throws: `backend` is gone, and so is `backend-new`. -/
theorem second_rename_loses_backend : HasBackend textLayers firstInstalled ∧
    (secondUpdate (some {step := .renameBackendNew})).1.backend = none ∧
    (secondUpdate (some {step := .renameBackendNew})).1.backendNew = none ∧
    (secondUpdate (some {step := .renameBackendNew})).1.backendOld = firstInstalled.backend :=
  ⟨⟨_, _, rfl, rfl, rfl⟩, by decide, by decide, by decide⟩

/-- After an update that began with a backend, `backend` is what it was or the layer of a
good archive, and the version file names what is there or the next run downloads again,
exactly if the version file was to be trusted before and it is not the second rename of the
swap that threw. -/
theorem update_keeps_backend (layers : Layers α τ) (fault : Option (Fault τ)) (opts : UpdateLayersOptions)
    (data : Option Value) (archive : Option α) (root : DataRoot α τ) (hbackend : HasBackend layers root) :
    (KeptOrInstalled layers data archive root (updateBackendLayers layers fault opts data archive root).1 ∧
      VersionTrusted layers opts data (updateBackendLayers layers fault opts data archive root).1) ↔
    VersionTrusted layers opts data root ∧ ¬ LosesBackend layers fault opts data archive root := by
  obtain ⟨dir, version, hdir, -, hmjs⟩ := hbackend
  have hready : isSplitModeReady layers root = true := by
    unfold isSplitModeReady
    rw [hdir]
    exact hmjs
  by_cases hstart : ∃ manifest, manifestToInstall layers opts data root = .ok (some manifest)
  · obtain ⟨manifest, hstart⟩ := hstart
    obtain ⟨hfetch, hversion, hneeds⟩ := manifestToInstall_some hready hstart
    have htrusted : VersionTrusted layers opts data root :=
      fun _ _ => .inr (downloadsAgain_of_needs hfetch hversion hneeds)
    have hlost : LosesBackend layers fault opts data archive root ↔
        (∃ f, fault = some f ∧ f.step = .renameBackendNew) ∧ ∃ tar, GoodArchive layers manifest archive tar := by
      refine and_congr_right fun _ => ⟨?_, fun ⟨tar, hgood⟩ => ⟨manifest, tar, hstart, hgood⟩⟩
      rintro ⟨m, tar, hm, hgood⟩
      rw [hstart] at hm
      cases hm
      exact ⟨tar, hgood⟩
    rw [hlost]
    cases @updateBackendLayers_outcome _ _ layers fault opts manifest data archive root dir hdir hstart with
    | kept hsame hkeeps =>
      refine ⟨fun _ => ⟨htrusted, ?_⟩, fun _ => ⟨.inl hsame.backend, hsame.versionTrusted_iff.mpr htrusted⟩⟩
      rintro ⟨⟨f, hf, hstep⟩, tar, hgood⟩
      exact hkeeps tar hgood f hf hstep
    | lost tar hgood hnone f hf hstep =>
      refine ⟨fun h => ?_, fun h => absurd ⟨⟨f, hf, hstep⟩, tar, hgood⟩ h.2⟩
      obtain hkept | ⟨m, t, -, -, hinstalled⟩ := h.1
      · rw [hnone, hdir] at hkept
        cases hkept
      · rw [hnone] at hinstalled
        cases hinstalled
    | installed tar hgood hnew hfile hkeeps =>
      refine ⟨fun _ => ⟨htrusted, ?_⟩, fun _ => ⟨.inr ⟨manifest, tar, hfetch, hgood, hnew⟩, ?_⟩⟩
      · rintro ⟨⟨f, hf, hstep⟩, -⟩
        exact hkeeps f hf hstep
      · intro installed hinstalled
        obtain hfile | hfile := hfile
        · rw [← hfile] at hneeds
          exact .inr (downloadsAgain_of_needs hfetch hversion hneeds)
        · rw [hfile, readLocalBackendVersion_toValue] at hinstalled
          cases hinstalled
          exact .inl ⟨_, hnew, rfl⟩
  · have hsame := @updateBackendLayers_stopped _ _ layers fault opts data archive root
      fun m hm => hstart ⟨m, hm⟩
    rw [hsame.versionTrusted_iff]
    constructor
    · rintro ⟨-, htrusted⟩
      refine ⟨htrusted, ?_⟩
      rintro ⟨-, m, tar, hm, -⟩
      exact hstart ⟨m, hm⟩
    · rintro ⟨htrusted, -⟩
      exact ⟨.inl hsame.backend, htrusted⟩

theorem update_keeps_backend_unwritten :
    KeptOrInstalled textLayers (some secondManifest) (some "second") firstInstalled
      (secondUpdate (some {step := .writeVersion})).1 ∧
    VersionTrusted textLayers {appVersion := "1", electronVersion := "35"} (some secondManifest)
      (secondUpdate (some {step := .writeVersion})).1 := by
  refine (update_keeps_backend textLayers (some {step := .writeVersion}) {appVersion := "1", electronVersion := "35"}
    (some secondManifest) (some "second") firstInstalled ⟨_, _, rfl, rfl, rfl⟩).mpr ⟨?_, ?_⟩
  · intro installed hinstalled
    cases hinstalled
    exact .inl ⟨_, rfl, rfl⟩
  · rintro ⟨⟨f, hf, hstep⟩, -⟩
    cases hf
    cases hstep

end OpenClaw.Desktop
