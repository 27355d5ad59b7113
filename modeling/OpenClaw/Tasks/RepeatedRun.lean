import OpenClaw.Tasks.FlowCancellation

/-! Creating a run that is there already.

A repeated creation looks for the record of its run among those without a parent
flow, and of these there is one at most. But the executor gives a session's run a
flow of its own as soon as it is created, and its record is not found again. -/
namespace OpenClaw.Tasks
open Foundation Foundation.EcmaString InsertionMap Option

/-- The record is of the run that the parameters name. -/
structure MatchesRun (params : CreateTaskParams) (task : TaskRecord) : Prop where
  known : (trimmed? params.runId).isSome = true
  runId : trimmed? task.runId = trimmed? params.runId
  runtime : task.runtime = params.runtime
  scopeKind : task.scopeKind = params.resolvedScopeKind
  ownerKey : normalizeComparableText (some task.ownerKey) = normalizeComparableText (some params.resolvedOwnerKey)
  childSessionKey : normalizeComparableText task.childSessionKey = normalizeComparableText params.childSessionKey

def NamedAs (params : CreateTaskParams) (task : TaskRecord) : Prop :=
  normalizeComparableText task.label = normalizeComparableText params.label ∧
    normalizeComparableText (some task.task) = normalizeComparableText (some params.task)

/-- An acp run is the same under any name. -/
def IsRun (params : CreateTaskParams) (task : TaskRecord) : Prop :=
  MatchesRun params task ∧ (params.runtime = .acp ∨ NamedAs params task)

theorem comparable_eq_empty (value : Option String) : normalizeComparableText value = "" ↔ trimmed? value = none := by
  unfold normalizeComparableText trimmed? trimmed
  cases value with
  | none => simp
  | some s =>
    simp only [map_some, getD_some, bind_some]
    split
    · rename_i h
      simp [h]
    · rename_i h
      simp [h]

theorem comparable_of_trimmed {value : Option String} {t : String} (h : trimmed? value = some t) :
    normalizeComparableText value = t := by
  obtain ⟨s, rfl, hs⟩ := bind_eq_some_iff.mp h
  exact trim_of_trimmed hs

theorem comparable_trimmed (value : Option String) :
    normalizeComparableText (trimmed? value) = normalizeComparableText value := by
  cases h : trimmed? value with
  | none => exact ((comparable_eq_empty value).mpr h).symm
  | some t =>
    have ht : trimmed? (some t) = some t := trimmed_trimmed? h
    rw [comparable_of_trimmed h, comparable_of_trimmed ht]

/-! ### What a creation finds -/

section Find
variable {r : Registry} {params : CreateTaskParams} {task : TaskRecord}

theorem mem_getTasksByRunId (h : Coherent r) {runId : String} (hid : trimmed runId = some runId) :
    task ∈ getTasksByRunId r runId ↔ (∃ taskId, r.tasks.get? taskId = some task) ∧ trimmed? task.runId = some runId := by
  rw [getTasksByRunId_eq h, List.mem_filter, mem_values, decide_eq_true_eq, trim_of_trimmed hid,
    mem_runIdIndexKeys]

/-- A record that is found is one of the run, and has no parent flow if none is asked for. -/
theorem findExistingTaskForCreate_spec (h : Coherent r)
    (hfound : findExistingTaskForCreate r params = some task) :
    (∃ taskId, r.tasks.get? taskId = some task) ∧ IsRun params task ∧
      normalizeComparableText task.parentFlowId = normalizeComparableText params.parentFlowId := by
  obtain ⟨runId, hrun, hfound⟩ := bind_eq_some_iff.mp hfound
  have hmatch (hm : task ∈ (getTasksByRunId r runId).filter fun task =>
      task.runtime = params.runtime ∧ task.scopeKind = params.resolvedScopeKind ∧
      normalizeComparableText (some task.ownerKey) = normalizeComparableText (some params.resolvedOwnerKey) ∧
      normalizeComparableText task.childSessionKey = normalizeComparableText params.childSessionKey ∧
      normalizeComparableText task.parentFlowId = normalizeComparableText params.parentFlowId) :
      (∃ taskId, r.tasks.get? taskId = some task) ∧ MatchesRun params task ∧
        normalizeComparableText task.parentFlowId = normalizeComparableText params.parentFlowId := by
    obtain ⟨hmem, hscope⟩ := List.mem_filter.mp hm
    obtain ⟨hget, hid⟩ := (mem_getTasksByRunId h (trimmed_trimmed? hrun)).mp hmem
    obtain ⟨h1, h2, h3, h4, h5⟩ := of_decide_eq_true hscope
    exact ⟨hget, ⟨by rw [hrun]; rfl, hid.trans hrun.symm, h1, h2, h3, h4⟩, h5⟩
  dsimp only at hfound
  split at hfound
  · rename_i hexact
    cases hfound
    obtain ⟨hget, hrun, hflow⟩ := hmatch (List.mem_of_find?_eq_some hexact)
    have hname : NamedAs params task := by
      simpa [NamedAs] using List.find?_some hexact
    exact ⟨hget, ⟨hrun, .inr hname⟩, hflow⟩
  · split at hfound
    · cases hfound
    · rename_i hacp
      obtain ⟨hget, hrun, hflow⟩ := hmatch (pickPreferredRunIdTask_mem hfound)
      exact ⟨hget, ⟨hrun, .inl (not_not.mp hacp)⟩, hflow⟩

/-- Where the run has such a record, one is found. -/
theorem findExistingTaskForCreate_isSome (h : Coherent r) {taskId : String} (hget : r.tasks.get? taskId = some task)
    (hrun : IsRun params task)
    (hflow : normalizeComparableText task.parentFlowId = normalizeComparableText params.parentFlowId) :
    (findExistingTaskForCreate r params).isSome = true := by
  obtain ⟨runId, hid⟩ := isSome_iff_exists.mp hrun.1.known
  unfold findExistingTaskForCreate
  rw [hid]
  have hmem : task ∈ (getTasksByRunId r runId).filter fun task =>
      task.runtime = params.runtime ∧ task.scopeKind = params.resolvedScopeKind ∧
      normalizeComparableText (some task.ownerKey) = normalizeComparableText (some params.resolvedOwnerKey) ∧
      normalizeComparableText task.childSessionKey = normalizeComparableText params.childSessionKey ∧
      normalizeComparableText task.parentFlowId = normalizeComparableText params.parentFlowId := by
    refine List.mem_filter.mpr ⟨(mem_getTasksByRunId h (trimmed_trimmed? hid)).mpr
      ⟨⟨taskId, hget⟩, hrun.1.runId.trans hid⟩, decide_eq_true ?_⟩
    exact ⟨hrun.1.runtime, hrun.1.scopeKind, hrun.1.ownerKey, hrun.1.childSessionKey, hflow⟩
  rw [bind_some]
  dsimp only
  generalize (getTasksByRunId r runId).filter _ = found at hmem ⊢
  split
  · rfl
  · rename_i hnone
    rcases hrun.2 with hacp | hname
    · rw [if_neg (not_not.mpr hacp)]
      exact pickPreferredRunIdTask_isSome hmem
    · exact absurd hname (by simpa [NamedAs] using List.find?_eq_none.mp hnone task hmem)

end Find

/-! ### The runs are told apart -/

/-- One record of a run, at most, has no parent flow. -/
def RunsApart (r : Registry) : Prop :=
  ∀ params i j a b, r.tasks.get? i = some a → r.tasks.get? j = some b → trimmed? a.parentFlowId = none →
    trimmed? b.parentFlowId = none → IsRun params a → IsRun params b → i = j

section Apart
variable {env : ChannelEnv} {draws clears : String → Prop} {r : Registry} {w : Write}

theorem nextRecord_runtime (patch : TaskPatch) (current : TaskRecord) (now : Int) :
    (nextRecord patch current now).runtime = current.runtime ∧
      (nextRecord patch current now).scopeKind = current.scopeKind := by
  unfold nextRecord
  dsimp only
  split <;> exact ⟨rfl, rfl⟩

theorem nextRecord_owner {patch : TaskPatch} (h : patch.KeepsOwner) (current : TaskRecord) (now : Int) :
    (nextRecord patch current now).ownerKey = current.ownerKey ∧
      (nextRecord patch current now).childSessionKey = current.childSessionKey ∧
        (nextRecord patch current now).runId = current.runId := by
  obtain ⟨howner, hchild, hrun⟩ := h
  unfold nextRecord
  dsimp only
  split <;> simp [TaskPatch.apply, howner, hchild, hrun]

theorem nextRecord_name (patch : TaskPatch) (current : TaskRecord) (now : Int) :
    (nextRecord patch current now).label = patch.label.getD current.label ∧
      (nextRecord patch current now).task = patch.task.getD current.task := by
  unfold nextRecord
  dsimp only
  split <;> exact ⟨rfl, rfl⟩

theorem matchesRun_nextRecord {patch : TaskPatch} (h : patch.KeepsOwner) {params : CreateTaskParams}
    {current : TaskRecord} {now : Int} (hm : MatchesRun params (nextRecord patch current now)) :
    MatchesRun params current := by
  obtain ⟨hruntime, hscope⟩ := nextRecord_runtime patch current now
  obtain ⟨howner, hchild, hrun⟩ := nextRecord_owner h current now
  exact ⟨hm.known, hrun ▸ hm.runId, hruntime ▸ hm.runtime, hscope ▸ hm.scopeKind, howner ▸ hm.ownerKey,
    hchild ▸ hm.childSessionKey⟩

/-- A merge into a record of the same name leaves it that name. -/
theorem mergePatch_name {existing : TaskRecord} {params : CreateTaskParams} (h : NamedAs params existing) :
    (mergePatch existing params).KeepsName := by
  obtain ⟨hlabel, htask⟩ := h
  constructor
  · simp only [mergePatch]
    split
    · rw [if_neg]
      rintro ⟨hsome, hne⟩
      obtain ⟨label, hl⟩ := isSome_iff_exists.mp hsome
      exact hne (by rw [hlabel, comparable_of_trimmed hl, hl])
    · rw [if_neg]
      rintro ⟨hsome, hnone⟩
      have hempty := (comparable_eq_empty existing.label).mpr (isNone_iff_eq_none.mp hnone)
      rw [(comparable_eq_empty params.label).mp (hlabel.symm.trans hempty)] at hsome
      cases hsome
  · simp only [mergePatch]
    split
    · rw [filter_eq_none_iff]
      intro t ht
      have hname : normalizeComparableText (some params.task) = t := comparable_of_trimmed ht
      simp [htask, hname]
    · rfl

/-- An updated record without a parent flow is of a run it was of before. -/
theorem update_isRun (hk : TasksKeyed r) (hco : Coherent r) {taskId : String} {patch : TaskPatch} {now : Int}
    (hc : (Write.updateTask taskId patch now).Checked draws clears r) {current : TaskRecord}
    (hcurrent : r.tasks.get? taskId = some current) (hfree : trimmed? (nextRecord patch current now).parentFlowId = none)
    {params : CreateTaskParams} (hrun : IsRun params (nextRecord patch current now)) :
    trimmed? current.parentFlowId = none ∧ IsRun params current := by
  obtain ⟨hlink, howner, hname⟩ := hc
  have hmatch := matchesRun_nextRecord howner hrun.1
  refine ⟨?_, hmatch, ?_⟩
  · rw [nextRecord_parentFlowId] at hfree
    cases hp : patch.parentFlowId with
    | none =>
      rw [hp] at hfree
      exact hfree
    | some parent =>
      rw [hp] at hfree
      have hsome := (hlink parent hp).1
      rw [show trimmed? parent = none from hfree] at hsome
      cases hsome
  · by_cases hacp : params.runtime = .acp
    · exact .inl hacp
    · have hkeep : patch.KeepsName := by
        rcases hname with hkeep | ⟨other, existing, hfound, hid, rfl⟩
        · exact hkeep
        · obtain ⟨⟨id, hget⟩, hother, -⟩ := findExistingTaskForCreate_spec hco hfound
          have heq : existing = current := by
            rw [← hk id existing hget, hid, hcurrent] at hget
            exact (Option.some.inj hget).symm
          refine mergePatch_name (hother.2.resolve_left fun hacp' => hacp ?_)
          rw [← hmatch.runtime, ← heq, hother.1.runtime, hacp']
      obtain ⟨hl, ht⟩ := nextRecord_name patch current now
      rw [hkeep.1, getD_none] at hl
      rw [hkeep.2, getD_none] at ht
      obtain ⟨hlabel, htask⟩ := hrun.2.resolve_left hacp
      exact .inr ⟨hl ▸ hlabel, ht ▸ htask⟩

/-- A record that is inserted is not of a run that another without a parent flow is of. -/
theorem insert_isRun (hco : Coherent r) {params other : CreateTaskParams} {taskId : String} {now : Int}
    (hnone : findExistingTaskForCreate r params = none) {j : String} {b : TaskRecord}
    (hb : r.tasks.get? j = some b) (hfree : trimmed? (newTaskRecord params taskId now).parentFlowId = none)
    (hbfree : trimmed? b.parentFlowId = none) (hrun : IsRun other (newTaskRecord params taskId now))
    (hbrun : IsRun other b) : False := by
  have hid : trimmed? params.runId = trimmed? other.runId := (trimmed?_trimmed? _).symm.trans hrun.1.runId
  have hparent : trimmed? params.parentFlowId = none := (trimmed?_trimmed? _).symm.trans hfree
  have hmatch : MatchesRun params b := by
    refine ⟨by rw [hid]; exact hrun.1.known, hbrun.1.runId.trans hid.symm, ?_, ?_, ?_, ?_⟩
    · exact hbrun.1.runtime.trans hrun.1.runtime.symm
    · exact hbrun.1.scopeKind.trans hrun.1.scopeKind.symm
    · exact hbrun.1.ownerKey.trans hrun.1.ownerKey.symm
    · exact hbrun.1.childSessionKey.trans hrun.1.childSessionKey.symm
  have hname : params.runtime = .acp ∨ NamedAs params b := by
    by_cases hacp : other.runtime = .acp
    · exact .inl (hrun.1.runtime.trans hacp)
    · obtain ⟨hlabel, htask⟩ := hrun.2.resolve_left hacp
      obtain ⟨hblabel, hbtask⟩ := hbrun.2.resolve_left hacp
      have hl : normalizeComparableText (trimmed? params.label) = normalizeComparableText params.label :=
        comparable_trimmed params.label
      exact .inr ⟨hblabel.trans (hlabel.symm.trans hl), hbtask.trans htask.symm⟩
  have hsome := findExistingTaskForCreate_isSome hco hb ⟨hmatch, hname⟩
    (((comparable_eq_empty _).mpr hbfree).trans ((comparable_eq_empty _).mpr hparent).symm)
  rw [hnone] at hsome
  cases hsome

theorem write_runsApart (hco : Coherent r) (hk : TasksKeyed r) (hapart : RunsApart r) (hc : w.Checked draws clears r) :
    RunsApart (w.apply env r) := by
  intro params i j a b ha hb hafree hbfree harun hbrun
  rcases write_record ha with ha' | ⟨params', now, rfl, rfl⟩ | ⟨patch, now, current, rfl, hcurrent, rfl⟩
  · rcases write_record hb with hb' | ⟨params', now, rfl, rfl⟩ | ⟨patch, now, current, rfl, hcurrent, rfl⟩
    · exact hapart params i j a b ha' hb' hafree hbfree harun hbrun
    · exact (insert_isRun hco hc.2 ha' hbfree hafree hbrun harun).elim
    · obtain ⟨hfree, hrun⟩ := update_isRun hk hco hc hcurrent hbfree hbrun
      exact hapart params i j a current ha' hcurrent hafree hfree harun hrun
  · rcases write_record hb with hb' | ⟨params'', now', heq, rfl⟩ | ⟨patch, now', current, heq, hcurrent, rfl⟩
    · exact (insert_isRun hco hc.2 hb' hafree hbfree harun hbrun).elim
    · cases heq
      rfl
    · cases heq
  · obtain ⟨hfree, hrun⟩ := update_isRun hk hco hc hcurrent hafree harun
    rcases write_record hb with hb' | ⟨params'', now', heq, rfl⟩ | ⟨patch', now', other, heq, hother, rfl⟩
    · exact hapart params i j current b hcurrent hb' hfree hbfree hrun hbrun
    · cases heq
    · cases heq
      rfl

end Apart

/-! ### What a repeated creation does -/

/-- The delivery status a record has after the creation merged into it. -/
def mergedDeliveryStatus (params : CreateTaskParams) (existing : TaskRecord) : TaskDeliveryStatus :=
  if params.deliveryStatus = some .pending ∧ existing.deliveryStatus ≠ .delivered then .pending
  else existing.deliveryStatus

/-- The record after a merge that links it to nothing. -/
structure Merged (params : CreateTaskParams) (existing task : TaskRecord) : Prop where
  taskId : task.taskId = existing.taskId
  parentFlowId : task.parentFlowId = existing.parentFlowId
  runtime : task.runtime = existing.runtime
  scopeKind : task.scopeKind = existing.scopeKind
  ownerKey : task.ownerKey = existing.ownerKey
  flowStatus : deriveTaskFlowStatusFromTask task = deriveTaskFlowStatusFromTask existing
  deliveryStatus : task.deliveryStatus = mergedDeliveryStatus params existing

theorem mergePatch_deliveryStatus (params : CreateTaskParams) (existing : TaskRecord) :
    (mergePatch existing params).deliveryStatus.getD existing.deliveryStatus = mergedDeliveryStatus params existing := by
  unfold mergedDeliveryStatus
  simp only [mergePatch]
  split <;> rfl

theorem mergePatch_noLink {params : CreateTaskParams} (h : trimmed? params.parentFlowId = none)
    (existing : TaskRecord) : (mergePatch existing params).parentFlowId = none := by
  simp [mergePatch, h]

theorem nextRecord_merged {params : CreateTaskParams} (h : trimmed? params.parentFlowId = none)
    (existing : TaskRecord) (now : Int) :
    Merged params existing (nextRecord (mergePatch existing params) existing now) := by
  obtain ⟨hruntime, hscope⟩ := nextRecord_runtime (mergePatch existing params) existing now
  refine ⟨nextRecord_taskId .., ?_, hruntime, hscope, ?_, ?_, ?_⟩
  · rw [nextRecord_parentFlowId, mergePatch_noLink h]
    rfl
  · exact (nextRecord_owner ⟨rfl, rfl, rfl⟩ existing now).1
  · unfold nextRecord
    dsimp only
    split <;> rfl
  · rw [nextRecord_deliveryStatus, mergePatch_deliveryStatus]

section Repeat
variable {env : ChannelEnv} {r : Registry} {params : CreateTaskParams} {taskId flowId : String} {now : Int}

/-- The update of a record without a parent flow writes no flow. -/
theorem updateTask_unlinked {current : TaskRecord} {patch : TaskPatch} (hc : r.tasks.get? taskId = some current)
    (hfree : trimmed? (nextRecord patch current now).parentFlowId = none) :
    (updateTask taskId patch now r).2.flows = r.flows := by
  simp only [updateTask, hc, syncManagedFlowCancellationFromTask, syncFlowFromTask, hfree]
  rfl

/-- A creation that finds a record without a parent flow merges into it, and writes no
flow. -/
theorem createTaskRecord_found (env : ChannelEnv) (params : CreateTaskParams) (taskId : String) (now : Int)
    (howner : assertTaskOwner params.resolvedOwnerKey params.resolvedScopeKind = .ok ())
    (hflow : trimmed? params.parentFlowId = none) {existing : TaskRecord}
    (hfound : findExistingTaskForCreate r params = some existing)
    (hget : r.tasks.get? existing.taskId = some existing) (hfree : trimmed? existing.parentFlowId = none) :
    ∃ task u, createTaskRecord env params taskId now r = (.ok task, u) ∧ Merged params existing task ∧
      u.flows = r.flows ∧ u.tasks.get? existing.taskId = some task ∧
        ∀ id, id ≠ existing.taskId → u.tasks.get? id = r.tasks.get? id := by
  have hallowed : assertParentFlowLinkAllowed r.flows params.resolvedOwnerKey params.resolvedScopeKind
      params.parentFlowId = .ok () := by
    unfold assertParentFlowLinkAllowed
    rw [hflow]
  have hlink := mergePatch_noLink hflow existing
  obtain ⟨states, hstates⟩ : ∃ states, mergeDeliveryState env existing params r =
      {r with taskDeliveryStates := states} := by
    unfold mergeDeliveryState
    dsimp only
    split
    · exact upsertTaskDeliveryState_tasks ..
    · exact ⟨_, rfl⟩
  unfold createTaskRecord
  rw [howner]
  dsimp only
  rw [hallowed]
  dsimp only
  rw [hfound]
  dsimp only [mergeExistingTaskForCreate]
  rw [hlink, hstates]
  simp only [isSome_none, Bool.false_eq_true, if_false]
  by_cases hp : mergePatch existing params = {}
  · rw [if_pos hp]
    refine ⟨existing, _, rfl, ⟨rfl, rfl, rfl, rfl, rfl, rfl, ?_⟩, rfl, hget, fun _ _ => rfl⟩
    rw [← mergePatch_deliveryStatus, hp]
    rfl
  · rw [if_neg hp]
    generalize hu : ({r with taskDeliveryStates := states} : Registry) = u
    have htasks : u.tasks = r.tasks := by rw [← hu]
    have hget' : u.tasks.get? existing.taskId = some existing := by rw [htasks, hget]
    have hmerged := nextRecord_merged hflow existing now
    have hnext := get?_updateTask existing.taskId (mergePatch existing params) now u
    have hsame : (updateTask existing.taskId (mergePatch existing params) now u).2.flows = r.flows := by
      rw [updateTask_unlinked hget' (by rw [hmerged.parentFlowId, hfree]), ← hu]
    have hresult : (updateTask existing.taskId (mergePatch existing params) now u).1 =
        some (nextRecord (mergePatch existing params) existing now) := by
      simp only [updateTask, hget']
    refine ⟨_, _, ?_, hmerged, hsame, ?_, fun id hid => ?_⟩
    · rw [hresult]
      rfl
    · rw [hnext, if_pos rfl, hget']
      rfl
    · rw [hnext, if_neg fun he => hid he.symm, htasks]

/-- A creation that finds no record inserts one. -/
theorem createTaskRecord_new (env : ChannelEnv) (params : CreateTaskParams) (taskId : String) (now : Int)
    (howner : assertTaskOwner params.resolvedOwnerKey params.resolvedScopeKind = .ok ())
    (hflow : trimmed? params.parentFlowId = none) (hnone : findExistingTaskForCreate r params = none) :
    createTaskRecord env params taskId now r =
      (.ok (newTaskRecord params taskId now), insertTask env params taskId now r) := by
  have hallowed : assertParentFlowLinkAllowed r.flows params.resolvedOwnerKey params.resolvedScopeKind
      params.parentFlowId = .ok () := by
    unfold assertParentFlowLinkAllowed
    rw [hflow]
  simp only [createTaskRecord, howner, hallowed, hnone]

/-- The flow of a task whose owner is known. -/
theorem createTaskFlowForTask_ok {task : TaskRecord} {owner : String} (howner : trimmed task.ownerKey = some owner)
    (requesterOrigin : Option DeliveryContext) (flowId : String) (now : Int) (flows : Flows) :
    ∃ flow, createTaskFlowForTask task requesterOrigin flowId now flows = (.ok flow, flows.set flowId flow) ∧
      flow.flowId = flowId ∧ flow.syncMode = .taskMirrored ∧ flow.ownerKey = owner ∧ flow.cancelRequestedAt = none ∧
        flow.status = deriveTaskFlowStatusFromTask task := by
  have hassert : assertFlowOwnerKey task.ownerKey = .ok owner := by
    simp only [assertFlowOwnerKey, normalizeOwnerKey, howner]
  obtain ⟨flow, hbuild, hid, hmode, hkey, hrequest, hstatus⟩ : ∃ flow : TaskFlowRecord,
      buildFlowRecord (taskFlowParams task requesterOrigin) flowId now = .ok flow ∧ flow.flowId = flowId ∧
        flow.syncMode = .taskMirrored ∧ flow.ownerKey = owner ∧ flow.cancelRequestedAt = none ∧
          flow.status = deriveTaskFlowStatusFromTask task := by
    unfold buildFlowRecord
    simp only [taskFlowParams, hassert]
    exact ⟨_, rfl, rfl, rfl, rfl, rfl, rfl⟩
  refine ⟨flow, ?_, hid, hmode, hkey, hrequest, hstatus⟩
  simp only [createTaskFlowForTask, createFlowRecord, hbuild, writeFlowRecord, hid]

/-- Is a link to the new flow of a task allowed? -/
theorem newFlow_linkAllowed {task : TaskRecord} {owner : String} (howner : trimmed task.ownerKey = some owner)
    (hscope : task.scopeKind = .session) (hid : trimmed flowId = some flowId) {flow : TaskFlowRecord}
    (hkey : flow.ownerKey = owner) (hrequest : flow.cancelRequestedAt = none) (flows : Flows) :
    (assertParentFlowLinkAllowed (flows.set flowId flow) task.ownerKey task.scopeKind (some flowId) = .ok ()) ↔
      isTerminalFlowStatus flow.status = false := by
  have hflow : trimmed? (some flowId) = some flowId := hid
  have hsame : trimmed owner = some owner := trimmed_trimmed howner
  simp [assertParentFlowLinkAllowed, hflow, hscope, getTaskFlowById, normalizeOwnerKey, hkey, hsame, howner, hrequest]

def linkPatch (flowId : String) : TaskPatch := {parentFlowId := some (some flowId)}

/-- A task without a flow stays without one if it has nobody to report to, is linked to
a flow of its own, or has ended, and leaves a flow behind that has no task. -/
theorem ensureSingleTaskFlow_cases {task : TaskRecord} {owner : String} (requesterOrigin : Option DeliveryContext)
    (now : Int)
    (hget : r.tasks.get? task.taskId = some task) (hfree : trimmed? task.parentFlowId = none)
    (hscope : task.scopeKind = .session) (hruntime : task.runtime = .acp ∨ task.runtime = .subagent)
    (howner : trimmed task.ownerKey = some owner) (hid : trimmed flowId = some flowId) :
    (task.deliveryStatus = .notApplicable ∧ ensureSingleTaskFlow task requesterOrigin flowId now r = (task, r)) ∨
    (task.deliveryStatus ≠ .notApplicable ∧ ∃ flow : TaskFlowRecord, flow.flowId = flowId ∧
      flow.syncMode = .taskMirrored ∧
      ((isTerminalFlowStatus (deriveTaskFlowStatusFromTask task) = true ∧
          ensureSingleTaskFlow task requesterOrigin flowId now r = (task, {r with flows := r.flows.set flowId flow})) ∨
        (isTerminalFlowStatus (deriveTaskFlowStatusFromTask task) = false ∧
          ensureSingleTaskFlow task requesterOrigin flowId now r = (nextRecord (linkPatch flowId) task now,
            (updateTask task.taskId (linkPatch flowId) now {r with flows := r.flows.set flowId flow}).2)))) := by
  by_cases hstatus : task.deliveryStatus = .notApplicable
  · refine .inl ⟨hstatus, ?_⟩
    simp [ensureSingleTaskFlow, isOneTaskFlowEligible, hstatus]
  · have heligible : isOneTaskFlowEligible task = true := by
      simp [isOneTaskFlowEligible, hfree, hscope, hstatus, hruntime]
    obtain ⟨flow, hcreate, hflowId, hmode, hkey, hrequest, hflowStatus⟩ :=
      createTaskFlowForTask_ok howner requesterOrigin flowId now r.flows
    have hallowed := newFlow_linkAllowed howner hscope hid hkey hrequest r.flows
    rw [hflowStatus] at hallowed
    have hnone : (trimmed? task.parentFlowId).isSome = false := by rw [hfree]; rfl
    refine .inr ⟨hstatus, flow, hflowId, hmode, ?_⟩
    simp only [ensureSingleTaskFlow, heligible, Bool.not_true, Bool.false_eq_true, if_false, hcreate, hflowId,
      linkTaskToFlowById, hid, hget, hnone]
    cases hlink : assertParentFlowLinkAllowed (r.flows.set flowId flow) task.ownerKey task.scopeKind (some flowId) with
    | error e =>
      refine .inl ⟨?_, rfl⟩
      cases hterminal : isTerminalFlowStatus (deriveTaskFlowStatusFromTask task) with
      | true => rfl
      | false =>
        rw [hallowed.mpr hterminal] at hlink
        cases hlink
    | ok u =>
      refine .inr ⟨hallowed.mp hlink, ?_⟩
      have hlinked : (nextRecord (linkPatch flowId) task now).parentFlowId = some flowId := by
        rw [nextRecord_parentFlowId]
        rfl
      have hupdate : updateTask task.taskId {parentFlowId := some (some flowId)} now
          {r with flows := r.flows.set flowId flow} = (some (nextRecord (linkPatch flowId) task now),
            (updateTask task.taskId (linkPatch flowId) now {r with flows := r.flows.set flowId flow}).2) := by
        simp only [updateTask, hget]
        rfl
      dsimp only
      rw [hupdate]
      dsimp only
      rw [hlinked, if_neg (by simp)]

end Repeat

/-! ### Idempotence -/

/-- Every mirrored flow has a task. -/
def FlowsLinked (r : Registry) : Prop :=
  ∀ flowId flow, r.flows.get? flowId = some flow → flow.syncMode = .taskMirrored → ∃ taskId, LinkedTo flowId taskId r

/-- The call returns the record that is there, and makes neither a second record nor a
second flow; no mirrored flow is without a task. -/
structure Repeats (first : TaskRecord) (r : Registry) (result : Except TaskError TaskRecord × Registry) : Prop where
  returned : ∃ task, result.1 = .ok task ∧ task.taskId = first.taskId
  tasks : ∀ taskId, (result.2.tasks.get? taskId).isSome = (r.tasks.get? taskId).isSome
  flows : ∀ flowId, (result.2.flows.get? flowId).isSome = true → (r.flows.get? flowId).isSome = true ∨
    (trimmed? first.parentFlowId = none ∧ LinkedTo flowId first.taskId result.2)
  linked : FlowsLinked result.2

section Idempotent
variable {env : ChannelEnv} {r : Registry} {params : CreateTaskParams} {taskId flowId : String} {now : Int}
  {first : TaskRecord}

/-- A record without a parent flow is what a repeated creation finds. -/
theorem finds_first (params : CreateTaskParams) (hco : Coherent r) (hapart : RunsApart r)
    (hflow : trimmed? params.parentFlowId = none) (hfirst : r.tasks.get? first.taskId = some first)
    (hrun : IsRun params first) (hfree : trimmed? first.parentFlowId = none) :
    findExistingTaskForCreate r params = some first := by
  have hempty : normalizeComparableText params.parentFlowId = "" := (comparable_eq_empty _).mpr hflow
  have hsome := findExistingTaskForCreate_isSome hco hfirst hrun (((comparable_eq_empty _).mpr hfree).trans hempty.symm)
  obtain ⟨found, hfound⟩ := isSome_iff_exists.mp hsome
  obtain ⟨⟨id, hget⟩, hfoundRun, hfoundFlow⟩ := findExistingTaskForCreate_spec hco hfound
  have hid := hapart params id first.taskId found first hget hfirst
    ((comparable_eq_empty _).mp (hfoundFlow.trans hempty)) hfree hfoundRun hrun
  rw [hid, hfirst] at hget
  rw [hfound, Option.some.inj hget]

/-- The parent flow of a record. -/
def parentFlowOf (r : Registry) (taskId : String) : Option (Option String) :=
  (r.tasks.get? taskId).map fun task => trimmed? task.parentFlowId

theorem linkedTo_iff (r : Registry) (flowId taskId : String) :
    LinkedTo flowId taskId r ↔ parentFlowOf r taskId = some (some flowId) := by
  unfold LinkedTo parentFlowOf
  rw [map_eq_some_iff]

/-- The records keep their flows, and the flows stay. -/
theorem flowsLinked_congr {u : Registry} (hparents : parentFlowOf u = parentFlowOf r) (hflows : u.flows = r.flows) :
    FlowsLinked u ↔ FlowsLinked r := by
  simp only [FlowsLinked, linkedTo_iff, hparents, hflows]

/-- A record without a parent flow gets a new one. -/
theorem flowsLinked_link {u v : Registry} (hflows : u.flows = r.flows) (hparents : parentFlowOf u = parentFlowOf r)
    (hfree : parentFlowOf r taskId = some none) (hfresh : r.flows.get? flowId = none) {flow : TaskFlowRecord}
    (hwritten : FlowsWritten (fun _ => True) (u.flows.set flowId flow) v.flows)
    (hlinked : parentFlowOf v taskId = some (some flowId))
    (hothers : ∀ id, id ≠ taskId → parentFlowOf v id = parentFlowOf u id) : FlowsLinked v ↔ FlowsLinked r := by
  constructor
  · intro h id old hold hm
    have hne : id ≠ flowId := by
      rintro rfl
      rw [hfresh] at hold
      cases hold
    have hset : (u.flows.set flowId flow).get? id = some old := by
      rw [get?_set_ne _ hne, hflows, hold]
    obtain ⟨new, hnew, hstep⟩ := hwritten.after hset
    obtain ⟨k, hk⟩ := h id new hnew ((written_syncMode hstep).trans hm)
    rw [linkedTo_iff] at hk
    have hk' : k ≠ taskId := by
      rintro rfl
      rw [hlinked] at hk
      exact hne (Option.some.inj (Option.some.inj hk)).symm
    rw [hothers k hk', hparents] at hk
    exact ⟨k, (linkedTo_iff ..).mpr hk⟩
  · intro h id new hnew hm
    by_cases hid : id = flowId
    · exact ⟨taskId, (linkedTo_iff ..).mpr (by rw [hlinked, hid])⟩
    · obtain ⟨old, hold, hstep⟩ := hwritten.before hnew
      rw [get?_set_ne _ hid, hflows] at hold
      obtain ⟨k, hk⟩ := h id old hold ((written_syncMode hstep).symm.trans hm)
      rw [linkedTo_iff] at hk
      have hk' : k ≠ taskId := by
        rintro rfl
        rw [hfree] at hk
        cases hk
      exact ⟨k, (linkedTo_iff ..).mpr (by rw [hothers k hk', hparents, hk])⟩

/-- The owner of a session's run is known. -/
theorem owner_known (params : CreateTaskParams)
    (howner : assertTaskOwner params.resolvedOwnerKey params.resolvedScopeKind = .ok ())
    (hscope : params.resolvedScopeKind = .session) (hrun : MatchesRun params first) :
    ∃ owner, trimmed first.ownerKey = some owner := by
  unfold assertTaskOwner at howner
  rw [hscope] at howner
  have hkey : trim first.ownerKey = trim params.resolvedOwnerKey := hrun.ownerKey
  by_cases hempty : trim first.ownerKey = ""
  · rw [← hkey, if_pos ⟨hempty, by decide⟩] at howner
    cases howner
  · exact ⟨trim first.ownerKey, if_neg hempty⟩

theorem keyed_set {flows : Flows} (h : FlowsKeyed flows) {flow : TaskFlowRecord} (hid : flow.flowId = flowId) :
    FlowsKeyed (flows.set flowId flow) := by
  intro id other hget
  rw [get?_set] at hget
  split at hget
  · rename_i he
    cases hget
    exact hid.trans he.symm
  · exact h id other hget

/-- A repeated creation of a run whose record has no parent flow. -/
theorem repeats_unlinked (hs : FlowsKeyed r.flows) (hco : Coherent r) (hapart : RunsApart r)
    {status : TaskStatus} (hruntime : params.runtime = .acp ∨ params.runtime = .subagent)
    (hscope : params.resolvedScopeKind = .session)
    (howner : assertTaskOwner params.resolvedOwnerKey params.resolvedScopeKind = .ok ())
    (hflow : trimmed? params.parentFlowId = none) (hfirst : r.tasks.get? first.taskId = some first)
    (hrun : IsRun params first) (hfree : trimmed? first.parentFlowId = none)
    (hfresh : r.flows.get? flowId = none) (hid : trimmed flowId = some flowId) :
    Repeats first r (createTaskRun env status params taskId flowId now r) ↔ FlowsLinked r ∧
      (mergedDeliveryStatus params first = .notApplicable ∨
        isTerminalFlowStatus (deriveTaskFlowStatusFromTask first) = false) := by
  have hrun' : IsRun {params with status := some status} first :=
    ⟨⟨hrun.1.known, hrun.1.runId, hrun.1.runtime, hrun.1.scopeKind, hrun.1.ownerKey, hrun.1.childSessionKey⟩, hrun.2⟩
  have hfound := finds_first {params with status := some status} hco hapart hflow hfirst hrun' hfree
  obtain ⟨task, u, hcreate, hm, hflows, hget, hothers⟩ := createTaskRecord_found env
    {params with status := some status} taskId now howner hflow hfound hfirst hfree
  have hmerged : task.deliveryStatus = mergedDeliveryStatus params first := hm.deliveryStatus
  obtain ⟨owner, hownerKey⟩ := owner_known params howner hscope hrun.1
  have htask : u.tasks.get? task.taskId = some task := by rw [hm.taskId, hget]
  have htaskFree : trimmed? task.parentFlowId = none := by rw [hm.parentFlowId, hfree]
  have hparents : parentFlowOf u = parentFlowOf r := by
    funext id
    unfold parentFlowOf
    by_cases he : id = first.taskId
    · rw [he, hget, hfirst, map_some, map_some, hm.parentFlowId]
    · rw [hothers id he]
  have hsome (id : String) : (u.tasks.get? id).isSome = (r.tasks.get? id).isSome := by
    have hp := congrFun hparents id
    unfold parentFlowOf at hp
    simpa using congrArg Option.isSome hp
  have hfirstFree : parentFlowOf r first.taskId = some none := by
    rw [parentFlowOf, hfirst, map_some, hfree]
  have hresult : createTaskRun env status params taskId flowId now r =
      (.ok (ensureSingleTaskFlow task params.requesterOrigin flowId now u).1,
        (ensureSingleTaskFlow task params.requesterOrigin flowId now u).2) := by
    simp only [createTaskRun, hcreate]
  rw [hresult]
  rcases ensureSingleTaskFlow_cases (r := u) params.requesterOrigin now htask htaskFree
      (hm.scopeKind.trans (hrun.1.scopeKind.trans hscope)) (by rw [hm.runtime, hrun.1.runtime]; exact hruntime)
      (by rw [hm.ownerKey, hownerKey]) hid with
    ⟨hstatus, hensure⟩ | ⟨hstatus, flow, hflowId, hmode, ⟨hterminal, hensure⟩ | ⟨hterminal, hensure⟩⟩
  · -- it has nobody to report to, and gets no flow
    rw [hensure]
    refine ⟨fun h => ⟨(flowsLinked_congr hparents hflows).mp h.linked, .inl (hmerged.symm.trans hstatus)⟩, fun h => ?_⟩
    exact ⟨⟨task, rfl, hm.taskId⟩, hsome, fun id hi => .inl (hflows ▸ hi), (flowsLinked_congr hparents hflows).mpr h.1⟩
  · -- it has ended, and the new flow is left without it
    rw [hensure]
    refine ⟨fun h => ?_, fun h => ?_⟩
    · rcases h.flows flowId (by simp) with hold | ⟨-, hlink⟩
      · rw [hfresh] at hold
        cases hold
      · rw [linkedTo_iff] at hlink
        have hnone : parentFlowOf u first.taskId = some (some flowId) := hlink
        rw [hparents, hfirstFree] at hnone
        cases hnone
    · rcases h.2 with hnotApplicable | hactive
      · exact absurd (hmerged.trans hnotApplicable) hstatus
      · rw [hm.flowStatus, hactive] at hterminal
        cases hterminal
  · -- it is linked to a flow of its own
    rw [hensure]
    generalize hv : (updateTask task.taskId (linkPatch flowId) now {u with flows := u.flows.set flowId flow}).2 = v
    have hget' (id : String) : v.tasks.get? id = if task.taskId = id then
        (u.tasks.get? id).map fun current => nextRecord (linkPatch flowId) current now else u.tasks.get? id := by
      rw [← hv, get?_updateTask]
    have hlinked : parentFlowOf v first.taskId = some (some flowId) := by
      rw [parentFlowOf, hget', if_pos hm.taskId, hget, map_some, map_some, nextRecord_parentFlowId]
      exact congrArg some hid
    have hkept (id : String) (he : id ≠ first.taskId) : parentFlowOf v id = parentFlowOf u id := by
      rw [parentFlowOf, hget', if_neg fun h => he (h.symm.trans hm.taskId), parentFlowOf]
    have hwritten : FlowsWritten (fun _ => True) (u.flows.set flowId flow) v.flows := by
      rw [← hv]
      exact updateTask_flowsWritten (r := {u with flows := u.flows.set flowId flow}) (keyed_set (hflows ▸ hs) hflowId)
        task.taskId (linkPatch flowId) now
    have hall := flowsLinked_link hflows hparents hfirstFree hfresh hwritten hlinked hkept
    refine ⟨fun h => ⟨hall.mp h.linked, .inr (hm.flowStatus ▸ hterminal)⟩, fun h => ⟨⟨_, rfl, ?_⟩, fun id => ?_,
      fun id hi => ?_, hall.mpr h.1⟩⟩
    · exact (nextRecord_taskId ..).trans hm.taskId
    · rw [← hsome]
      show (v.tasks.get? id).isSome = _
      rw [hget']
      split <;> simp
    · obtain ⟨new, hnew⟩ := isSome_iff_exists.mp hi
      obtain ⟨old, hold, -⟩ := hwritten.before hnew
      by_cases he : id = flowId
      · exact .inr ⟨hfree, (linkedTo_iff ..).mpr (he ▸ hlinked)⟩
      · rw [get?_set_ne _ he, hflows] at hold
        exact .inl (by rw [hold]; rfl)

/-- The flow of a task neither replaces the task nor adds another. -/
theorem ensureSingleTaskFlow_kept (task : TaskRecord) {owner : String} (requesterOrigin : Option DeliveryContext)
    (now : Int)
    (hget : r.tasks.get? task.taskId = some task) (hfree : trimmed? task.parentFlowId = none)
    (hscope : task.scopeKind = .session) (hruntime : task.runtime = .acp ∨ task.runtime = .subagent)
    (howner : trimmed task.ownerKey = some owner) (hid : trimmed flowId = some flowId) :
    (ensureSingleTaskFlow task requesterOrigin flowId now r).1.taskId = task.taskId ∧
      ∀ id, ((ensureSingleTaskFlow task requesterOrigin flowId now r).2.tasks.get? id).isSome =
        (r.tasks.get? id).isSome := by
  rcases ensureSingleTaskFlow_cases requesterOrigin now hget hfree hscope hruntime howner hid with
    ⟨-, hensure⟩ | ⟨-, flow, -, -, ⟨-, hensure⟩ | ⟨-, hensure⟩⟩
  · rw [hensure]
    exact ⟨rfl, fun _ => rfl⟩
  · rw [hensure]
    exact ⟨rfl, fun _ => rfl⟩
  · rw [hensure]
    refine ⟨nextRecord_taskId .., fun id => ?_⟩
    rw [get?_updateTask]
    split <;> simp

/-- A run whose record has a parent flow is created a second time. -/
theorem not_repeats_linked (hco : Coherent r) (hk : TasksKeyed r) {status : TaskStatus}
    (hruntime : params.runtime = .acp ∨ params.runtime = .subagent) (hscope : params.resolvedScopeKind = .session)
    (howner : assertTaskOwner params.resolvedOwnerKey params.resolvedScopeKind = .ok ())
    (hflow : trimmed? params.parentFlowId = none) (hfirst : r.tasks.get? first.taskId = some first)
    (hlinked : trimmed? first.parentFlowId ≠ none) (hnew : r.tasks.get? taskId = none)
    (hid : trimmed flowId = some flowId) : ¬Repeats first r (createTaskRun env status params taskId flowId now r) := by
  intro h
  let again : CreateTaskParams := {params with status := some status}
  cases hfound : findExistingTaskForCreate r again with
  | some existing =>
    obtain ⟨⟨id, hget⟩, hrun, hsame⟩ := findExistingTaskForCreate_spec hco hfound
    have hfree : trimmed? existing.parentFlowId = none :=
      (comparable_eq_empty _).mp (hsame.trans ((comparable_eq_empty _).mpr hflow))
    rw [← hk id existing hget] at hget
    obtain ⟨task, u, hcreate, hm, -, hget', -⟩ := createTaskRecord_found env again taskId now
      howner hflow hfound hget hfree
    obtain ⟨owner, hownerKey⟩ := owner_known again howner hscope hrun.1
    have hkept := (ensureSingleTaskFlow_kept (r := u) task params.requesterOrigin now (by rw [hm.taskId, hget'])
      (by rw [hm.parentFlowId, hfree]) (hm.scopeKind.trans (hrun.1.scopeKind.trans hscope))
      (by rw [hm.runtime, hrun.1.runtime]; exact hruntime) (by rw [hm.ownerKey, hownerKey]) hid).1
    obtain ⟨returned, hreturned, hreturnedId⟩ := h.returned
    simp only [createTaskRun, show createTaskRecord env {params with status := some status} taskId now r = _ from
      hcreate] at hreturned
    rw [← Except.ok.inj hreturned, hkept, hm.taskId] at hreturnedId
    rw [hreturnedId, hfirst] at hget
    rw [← Option.some.inj hget] at hfree
    exact hlinked hfree
  | none =>
    have hcreate := createTaskRecord_new env again taskId now howner hflow hfound
    have hget : (insertTask env again taskId now r).tasks.get? taskId = some (newTaskRecord again taskId now) :=
      get?_set_self ..
    have hownerKey : trimmed params.resolvedOwnerKey = some (trim params.resolvedOwnerKey) := by
      unfold assertTaskOwner at howner
      rw [hscope] at howner
      refine if_neg fun hempty => ?_
      rw [if_pos ⟨hempty, by decide⟩] at howner
      cases howner
    have hkept := (ensureSingleTaskFlow_kept (r := insertTask env again taskId now r) (newTaskRecord again taskId now)
      params.requesterOrigin now hget
      ((trimmed?_trimmed? params.parentFlowId).trans hflow) hscope hruntime hownerKey hid).2 taskId
    have htasks := h.tasks taskId
    simp only [createTaskRun, show createTaskRecord env {params with status := some status} taskId now r = _ from
      hcreate] at htasks
    rw [htasks, hget, hnew] at hkept
    cases hkept

end Idempotent

/-- **A repeated run creation** returns the record of the run, and makes no other record
and no other flow, exactly if the record has no parent flow, every mirrored flow has
a task already, and the record is one that nobody is told of or has not ended. -/
theorem repeated_run_creation (env : ChannelEnv) (tasks : InsertionMap String TaskRecord)
    (deliveryStates : InsertionMap String TaskDeliveryState) (flows : Flows)
    (htasks : TasksKeyed (restoreTaskRegistry tasks deliveryStates flows))
    (hapart : RunsApart (restoreTaskRegistry tasks deliveryStates flows)) (hflows : FlowsKeyed flows)
    (events : List FlowEvent) (r : Registry)
    (hc : (flowStep env).Within LinksChecked events (restoreTaskRegistry tasks deliveryStates flows))
    (hr : (flowStep env).run events (restoreTaskRegistry tasks deliveryStates flows) = some r)
    (params : CreateTaskParams) (hruntime : params.runtime = .acp ∨ params.runtime = .subagent)
    (hscope : params.resolvedScopeKind = .session)
    (howner : assertTaskOwner params.resolvedOwnerKey params.resolvedScopeKind = .ok ())
    (hflow : trimmed? params.parentFlowId = none) (first : TaskRecord)
    (hfirst : r.tasks.get? first.taskId = some first) (hrun : IsRun params first) (status : TaskStatus)
    (taskId flowId : String) (hnewTask : r.tasks.get? taskId = none) (hnewFlow : r.flows.get? flowId = none)
    (hid : trimmed flowId = some flowId) (now : Int) :
    Repeats first r (createTaskRun env status params taskId flowId now r) ↔
      trimmed? first.parentFlowId = none ∧ FlowsLinked r ∧
        (mergedDeliveryStatus params first = .notApplicable ∨
          isTerminalFlowStatus (deriveTaskFlowStatusFromTask first) = false) := by
  have hstart : FlowsSound (restoreTaskRegistry tasks deliveryStates flows).flows := by
    rw [restore_flows]
    exact restoreFlows_sound hflows
  have hreach := flowEvents_writes hstart hc hr
  have hsound := hreach.sound hstart
  have hkept := hreach.keeps (I := fun r => Coherent r ∧ TasksKeyed r ∧ RunsApart r)
    (fun w u hu hw he => ⟨coherent_write hu.1 (writeStep_some he), keyed_write hu.2.1,
      write_runsApart hu.1 hu.2.1 hu.2.2 hw⟩) ⟨coherent_restore tasks deliveryStates flows, htasks, hapart⟩
  obtain ⟨hco, hk, hap⟩ := hkept
  by_cases hfree : trimmed? first.parentFlowId = none
  · rw [repeats_unlinked hsound.keyed hco hap hruntime hscope howner hflow hfirst hrun hfree hnewFlow hid]
    exact ⟨fun h => ⟨hfree, h⟩, fun h => h.2⟩
  · exact ⟨fun h => absurd h (not_repeats_linked hco hk hruntime hscope howner hflow hfirst hfree hnewTask hid),
      fun h => absurd h.1 hfree⟩

/-! ### A run that is created again -/

def spawnedRun (deliveryStatus : TaskDeliveryStatus) : CreateTaskParams :=
  { runtime := .acp, ownerKey := some "main", scopeKind := some .session, childSessionKey := some "child",
    runId := some "run", task := "Patch file", deliveryStatus := some deliveryStatus }

/-- A run that nobody is told of. -/
def silentRun : Registry :=
  ((flowStep ⟨some, id⟩).run [.createTaskRun .running (spawnedRun .notApplicable) "task" "flow" 10]
    (restoreTaskRegistry ∅ ∅ ∅)).getD {}

theorem repeated_run_creation_silent : ∃ first, silentRun.tasks.get? "task" = some first ∧
    Repeats first silentRun (createTaskRun ⟨some, id⟩ .running (spawnedRun .notApplicable) "again" "other" 20
      silentRun) := by
  obtain ⟨first, hfirst⟩ : ∃ first, silentRun.tasks.get? "task" = some first := ⟨_, rfl⟩
  have hrecord : newTaskRecord {spawnedRun .notApplicable with status := some .running} "task" 10 = first :=
    Option.some.inj ((show silentRun.tasks.get? "task" = _ from rfl).symm.trans hfirst)
  have hkeyed : TasksKeyed (restoreTaskRegistry ∅ ∅ ∅) := by
    intro _ _ h
    cases h
  have hapart : RunsApart (restoreTaskRegistry ∅ ∅ ∅) := by
    intro _ _ _ _ _ h
    cases h
  subst hrecord
  refine ⟨_, hfirst, (repeated_run_creation ⟨some, id⟩ ∅ ∅ ∅ hkeyed hapart (fun _ _ h => nomatch h)
    [.createTaskRun .running (spawnedRun .notApplicable) "task" "flow" 10] silentRun ⟨trivial, fun _ _ => trivial⟩ rfl
    (spawnedRun .notApplicable) (.inl rfl) rfl (by decide) (by decide) _ hfirst ?_ .running "again" "other" (by decide)
    (by decide) (by decide) 20).mpr ⟨by decide, ?_, .inl (by decide)⟩⟩
  · exact ⟨⟨by decide, by decide, rfl, rfl, by decide, by decide⟩, .inl rfl⟩
  · intro flowId flow hflow
    cases hflow

/-- A run that is told of gets a flow of its own, and a second record and a second flow
when it is created again. One that nobody was told of has ended when it is created
again to be told of, and its new flow has no task. -/
theorem spawned_run_created_twice :
    (let r := (createRunningTaskRun ⟨some, id⟩ (spawnedRun .pending) "task" "flow" 10 (restoreTaskRegistry ∅ ∅ ∅)).2
     let again := (createRunningTaskRun ⟨some, id⟩ (spawnedRun .pending) "again" "other" 20 r).2
     r.tasks.keys = ["task"] ∧ r.flows.keys = ["flow"] ∧ again.tasks.keys = ["task", "again"] ∧
       again.flows.keys = ["flow", "other"]) ∧
    (let r := completeTaskRunByRunId "run" none none 30 none none none none 30 silentRun
     let again := (createRunningTaskRun ⟨some, id⟩ (spawnedRun .pending) "again" "other" 40 r).2
     again.tasks.keys = ["task"] ∧ again.flows.keys = ["other"] ∧ listTasksForFlowId again "other" = []) := by
  decide

end OpenClaw.Tasks
