import OpenClaw.Foundation.Newest
import OpenClaw.Tasks.Executor
import OpenClaw.Tasks.Index

/-! The flow that mirrors a task, when the task has been retried.

Every write of a linked task re-synchronises its flow from the written task
alone, whether or not it is the flow's newest. `Mirrors` says that each mirrored
flow shows its newest task. A write of an older one keeps that only where the
older one would show the same, which `KeepsMirror` says in terms of the write and
of the state before it. -/
namespace OpenClaw.Tasks
open Foundation Foundation.EcmaString SetIndex List InsertionMap Option

/-- What a flow shows of a task. -/
structure FlowMirror where
  status : TaskFlowStatus
  goal : String
  blockedTaskId : Option String
  blockedSummary : Option String
  endedAt : Option Int
  deriving DecidableEq

def TaskFlowRecord.mirror (flow : TaskFlowRecord) : FlowMirror :=
  ⟨flow.status, flow.goal, flow.blockedTaskId, flow.blockedSummary, flow.endedAt⟩

def mirrorOf (task : TaskRecord) : FlowMirror where
  status := deriveTaskFlowStatusFromTask task
  goal := resolveFlowGoal task
  blockedTaskId := if deriveTaskFlowStatusFromTask task = .blocked then trimmed task.taskId else none
  blockedSummary := if deriveTaskFlowStatusFromTask task = .blocked then resolveFlowBlockedSummary task else none
  endedAt := if isSettledFlowStatus (deriveTaskFlowStatusFromTask task) then task.endedAt.or task.lastEventAt
    else none

/-- A record knows when it ended or was last heard of. -/
def TaskRecord.Stamped (task : TaskRecord) : Prop := (task.endedAt.or task.lastEventAt).isSome

/-! ### One write of a flow -/

theorem resolveFlowGoal_ne_empty (task : TaskRecord) : resolveFlowGoal task ≠ "" := by
  unfold resolveFlowGoal
  cases hl : trimmed? task.label with
  | some label => exact trimmed?_ne_empty hl
  | none =>
    cases ht : trimmed task.task with
    | some text => exact trimmed_ne_empty ht
    | none => decide

theorem normalizeText_some (s : String) : normalizeText (some s) = trimmed s := by
  rw [normalizeText, trimmed?, bind_some]

theorem normalizeText_trimmed (s : String) : normalizeText (trimmed s) = trimmed s := by
  cases h : trimmed s with
  | none => rfl
  | some t => rw [normalizeText_some, trimmed_trimmed h]

theorem normalizeText_trimmed? (s : Option String) : normalizeText (trimmed? s) = trimmed? s := by
  cases h : trimmed? s with
  | none => rfl
  | some t => rw [normalizeText_some, trimmed_trimmed? h]

theorem normalizeText_blockedSummary (task : TaskRecord) :
    normalizeText (resolveFlowBlockedSummary task) = resolveFlowBlockedSummary task := by
  unfold resolveFlowBlockedSummary
  split
  · rfl
  · cases h : trimmed? task.terminalSummary with
    | none => exact normalizeText_trimmed? _
    | some t => rw [some_or, normalizeText_some, trimmed_trimmed? h]

/-- What a write of a flow keeps of it: its id, its mode, and, when it mirrors a
task, what it shows unless it shows `shown` now. -/
def FlowStep (shown : Option FlowMirror) (flow next : TaskFlowRecord) : Prop :=
  next.flowId = flow.flowId ∧ next.syncMode = flow.syncMode ∧
    (flow.syncMode = .taskMirrored → next.mirror = shown.getD flow.mirror)

theorem FlowStep.refl (flow : TaskFlowRecord) : FlowStep none flow flow := ⟨rfl, rfl, fun _ => rfl⟩

theorem FlowStep.trans {shown : Option FlowMirror} {flow next last : TaskFlowRecord}
    (h : FlowStep shown flow next) (h' : FlowStep none next last) : FlowStep shown flow last := by
  refine ⟨h'.1.trans h.1, h'.2.1.trans h.2.1, fun hm => ?_⟩
  rw [← h.2.2 hm]
  exact h'.2.2 (h.2.1.trans hm)

/-- What a flow shows after a patch. -/
def FlowRecordPatch.shown (patch : FlowRecordPatch) (flow : TaskFlowRecord) : FlowMirror where
  status := patch.status.getD flow.status
  goal := (patch.goal.filter (· ≠ "")).getD flow.goal
  blockedTaskId := (patch.blockedTaskId.map normalizeText).getD flow.blockedTaskId
  blockedSummary := (patch.blockedSummary.map normalizeText).getD flow.blockedSummary
  endedAt := patch.endedAt.getD flow.endedAt

theorem applyFlowPatch_ok {flow next : TaskFlowRecord} {patch : FlowRecordPatch} {now : Int}
    (h : applyFlowPatch flow patch now = .ok next) :
    next.flowId = flow.flowId ∧ next.syncMode = flow.syncMode ∧ next.mirror = patch.shown flow := by
  unfold applyFlowPatch at h
  dsimp only at h
  split at h
  · cases hc : assertControllerId ((patch.controllerId.map normalizeText).getD flow.controllerId) with
    | error e =>
      rw [hc] at h
      cases h
    | ok id =>
      rw [hc] at h
      cases h
      exact ⟨rfl, rfl, rfl⟩
  · cases h
    exact ⟨rfl, rfl, rfl⟩

variable {flow : TaskFlowRecord} {shown : String → Option FlowMirror} {flows : Flows} {flowId taskId : String}
  {r : Registry} {current : TaskRecord} {now : Int}

/-- Only a managed flow refuses a patch. -/
theorem applyFlowPatch_mirrored (hm : flow.syncMode = .taskMirrored) (patch : FlowRecordPatch) (now : Int) :
    ∃ next, applyFlowPatch flow patch now = .ok next := by
  unfold applyFlowPatch
  split
  · rename_i hmanaged
    rw [hm] at hmanaged
    cases hmanaged
  · exact ⟨_, rfl⟩

/-- A flow that is synchronised shows the task. -/
theorem syncPatch_shown {task : TaskRecord} (hs : task.Stamped) (now : Int) (flow : TaskFlowRecord) :
    (syncPatch task now).shown flow = mirrorOf task := by
  obtain ⟨t, ht⟩ := isSome_iff_exists.mp hs
  have hgoal : (some (resolveFlowGoal task)).filter (· ≠ "") = some (resolveFlowGoal task) := by
    rw [filter_some, if_pos (decide_eq_true (resolveFlowGoal_ne_empty task))]
  simp only [FlowRecordPatch.shown, mirrorOf, syncPatch, getD_some, map_some, ht, hgoal]
  congr 1
  · split
    · exact normalizeText_trimmed _
    · rfl
  · split
    · exact normalizeText_blockedSummary _
    · rfl

/-! ### One write of the flows -/

/-- A flow is stored under its own id. -/
def FlowsKeyed (flows : Flows) : Prop := ∀ flowId flow, flows.get? flowId = some flow → flow.flowId = flowId

/-- Each flow that is there stays, and shows what `shown` says, or what it showed. -/
def FlowsStep (shown : String → Option FlowMirror) (flows next : Flows) : Prop :=
  ∀ flowId, Option.Rel (FlowStep (shown flowId)) (flows.get? flowId) (next.get? flowId)

theorem FlowsStep.refl (flows : Flows) : FlowsStep (fun _ => none) flows flows := by
  intro flowId
  cases flows.get? flowId with
  | none => exact .none
  | some flow => exact .some (.refl flow)

theorem FlowsStep.trans {next last : Flows} (h : FlowsStep shown flows next)
    (h' : FlowsStep (fun _ => none) next last) :
    FlowsStep shown flows last := by
  intro flowId
  have h1 := h flowId
  have h2 := h' flowId
  generalize flows.get? flowId = a at h1 ⊢
  generalize next.get? flowId = b at h1 h2
  generalize last.get? flowId = c at h2 ⊢
  cases h1 with
  | none =>
    cases h2
    exact .none
  | some hab =>
    cases h2 with
    | some hbc => exact .some (hab.trans hbc)

theorem FlowsStep.keyed {next : Flows} (h : FlowsStep shown flows next) (hk : FlowsKeyed flows) : FlowsKeyed next := by
  intro flowId last hlast
  have hrel := h flowId
  rw [hlast] at hrel
  cases hf : flows.get? flowId with
  | none =>
    rw [hf] at hrel
    cases hrel
  | some flow =>
    rw [hf] at hrel
    cases hrel with
    | some hstep => exact hstep.1.trans (hk flowId flow hf)

/-- One flow is written. -/
theorem flowsStep_set (hk : FlowsKeyed flows) {next : TaskFlowRecord} (hf : flows.get? flowId = some flow)
    (hothers : ∀ other, other ≠ flowId → shown other = none) (h : FlowStep (shown flowId) flow next) :
    FlowsStep shown flows (writeFlowRecord flows next) := by
  have hid : next.flowId = flowId := h.1.trans (hk flowId flow hf)
  intro other
  rw [writeFlowRecord, hid, get?_set]
  split
  · rename_i he
    rw [he, hf]
    exact .some h
  · rename_i hne
    rw [hothers other hne]
    exact FlowsStep.refl flows other

theorem flowsStep_update {flows : Flows} (hk : FlowsKeyed flows) {flowId : String} (expectedRevision : Int)
    {patch : FlowRecordPatch} (now : Int)
    (hp : ∀ flow, flows.get? flowId = some flow → flow.syncMode = .taskMirrored →
      patch.shown flow = flow.mirror) :
    FlowsStep (fun _ => none) flows
      (updateFlowRecordByIdExpectedRevision flowId expectedRevision patch now flows).2 := by
  unfold updateFlowRecordByIdExpectedRevision
  split
  · exact .refl flows
  · rename_i flow hf
    split
    · exact .refl flows
    · split
      · exact .refl flows
      · rename_i next hnext
        obtain ⟨hid, hmode, hmirror⟩ := applyFlowPatch_ok hnext
        refine flowsStep_set hk hf (fun _ _ => rfl) ⟨hid, hmode, fun hm => ?_⟩
        rw [hmirror, hp flow hf hm]
        rfl

/-- What a synchronisation from a task makes each flow show. -/
def shownBy (task : TaskRecord) (flowId : String) : Option FlowMirror :=
  if trimmed? task.parentFlowId = some flowId then some (mirrorOf task) else none

theorem flowsStep_sync {flows : Flows} (hk : FlowsKeyed flows) {task : TaskRecord} (now : Int)
    (hs : ∀ flowId flow, trimmed? task.parentFlowId = some flowId → flows.get? flowId = some flow →
      flow.syncMode = .taskMirrored → task.Stamped) :
    FlowsStep (shownBy task) flows (syncFlowFromTask task now flows) := by
  unfold syncFlowFromTask
  split
  · rename_i hnone
    have hshown : shownBy task = fun _ => none := by
      funext flowId
      rw [shownBy, hnone, if_neg nofun]
    rw [hshown]
    exact .refl flows
  · rename_i flowId hparent
    have hothers (other : String) (hne : other ≠ flowId) : shownBy task other = none := by
      rw [shownBy, hparent, if_neg fun he => hne (Option.some.inj he).symm]
    have hkeep (hgo : ∀ flow, flows.get? flowId = some flow → flow.syncMode ≠ .taskMirrored) :
        FlowsStep (shownBy task) flows flows := by
      intro other
      by_cases he : other = flowId
      · subst he
        cases hf : flows.get? other with
        | none => exact .none
        | some flow => exact .some ⟨rfl, rfl, fun hm => absurd hm (hgo flow hf)⟩
      · rw [hothers other he]
        exact FlowsStep.refl flows other
    split
    · rename_i hf
      exact hkeep fun flow hflow => by rw [getTaskFlowById, hflow] at hf; cases hf
    · rename_i flow hf
      split
      · rename_i hmode
        exact hkeep fun flow' hflow' => by
          rw [getTaskFlowById, hflow'] at hf
          cases hf
          exact hmode
      · rename_i hmode
        rw [not_not] at hmode
        obtain ⟨next, hnext⟩ := applyFlowPatch_mirrored hmode (syncPatch task now) now
        obtain ⟨hid, hm, hmirror⟩ := applyFlowPatch_ok hnext
        rw [getTaskFlowById] at hf
        simp only [updateFlowRecordByIdUnchecked, hf, hnext]
        refine flowsStep_set hk hf hothers ⟨hid, hm, fun _ => ?_⟩
        rw [hmirror, syncPatch_shown (hs flowId flow hparent hf hmode), shownBy, if_pos hparent]
        rfl

/-- A managed flow that is settled is no mirrored flow. -/
theorem flowsStep_cancellation (hk : FlowsKeyed r.flows) (task : TaskRecord) (now : Int) :
    FlowsStep (fun _ => none) r.flows (syncManagedFlowCancellationFromTask task now r).flows := by
  unfold syncManagedFlowCancellationFromTask
  split
  · exact .refl _
  · split
    · exact .refl _
    · rename_i flow hf
      split
      · exact .refl _
      · rename_i hopen
        rw [not_or, not_not] at hopen
        split
        · exact .refl _
        · refine flowsStep_update hk _ _ fun flow' hflow' hm => ?_
          rw [getTaskFlowById, hflow'] at hf
          cases hf
          rw [hm] at hopen
          cases hopen.1

/-! ### The newest linked task -/

/-- The tasks of a flow, as its index lists them. -/
def linkedTasks (r : Registry) (flowId : String) : List TaskRecord :=
  (r.taskIdsByParentFlowId.lookup flowId).filterMap r.tasks.get?

theorem newestFirst_head {l : List (TaskRecord × Nat)} (hl : l.Pairwise fun a b => a.2 < b.2) :
    (newestFirst l).head? = newest TaskRecord.createdAt (l.map Prod.fst) := by
  have hhead : (l.insertionSort fun a b => compareTasksNewestFirst a b ≤ 0).head? =
      newest (fun p => p.1.createdAt) l := by
    induction l with
    | nil => rfl
    | cons p rest ih =>
      rw [pairwise_cons] at hl
      have hrest := ih hl.2
      rw [insertionSort_cons]
      cases hs : rest.insertionSort fun a b => compareTasksNewestFirst a b ≤ 0 with
      | nil =>
        rw [hs] at hrest
        rw [newest_cons_none _ hrest.symm]
        rfl
      | cons q sorted =>
        rw [hs] at hrest
        have hq : newest (fun p : TaskRecord × Nat => p.1.createdAt) rest = some q := hrest.symm
        have hlater : p.2 < q.2 := hl.1 q (newest_mem _ hq)
        rw [newest_cons_some _ hq, List.orderedInsert]
        -- the one listed later wins among equals, so `p` must be strictly newer
        have hcmp : compareTasksNewestFirst p q ≤ 0 ↔ q.1.createdAt < p.1.createdAt := by
          unfold compareTasksNewestFirst
          dsimp only
          split <;> omega
        by_cases hlt : q.1.createdAt < p.1.createdAt
        · rw [if_pos (hcmp.mpr hlt), if_pos hlt]
          rfl
        · rw [if_neg fun h => hlt (hcmp.mp h), if_neg hlt]
          rfl
  unfold newestFirst
  rw [head?_map, hhead]
  exact (newest_map (fun p : TaskRecord × Nat => p.1.createdAt) fun _ _ => rfl).symm

theorem findLatestTaskForFlowId_flows (r : Registry) (flows : Flows) (flowId : String) :
    findLatestTaskForFlowId {r with flows := flows} flowId = findLatestTaskForFlowId r flowId := by
  simp only [findLatestTaskForFlowId, listTasksForFlowId, listTasksFromIndex]

theorem findLatestTaskForFlowId_eq (r : Registry) (h : trimmed flowId = some flowId) :
    findLatestTaskForFlowId r flowId = newest TaskRecord.createdAt (linkedTasks r flowId) := by
  have hsnd (ids : List String) :
      (ids.zipIdx.filterMap fun p => (r.tasks.get? p.1).map fun task => (task, p.2)).Pairwise
        fun a b => a.2 < b.2 := by
    have hidx : (ids.zipIdx).Pairwise fun a b => a.2 < b.2 := by
      rw [← pairwise_map (f := Prod.snd), zipIdx_map_snd]
      exact pairwise_lt_range'
    refine hidx.filterMap _ fun a b hab c hc d hd => ?_
    obtain ⟨_, _, rfl⟩ := map_eq_some_iff.mp hc
    obtain ⟨_, _, rfl⟩ := map_eq_some_iff.mp hd
    exact hab
  rw [findLatestTaskForFlowId, listTasksForFlowId, h]
  dsimp only
  rw [listTasksFromIndex, newestFirst_head (hsnd _), records_of_zipIdx]
  rfl

/-! ### How a write moves the linked tasks -/

/-- A task is stored under its own id. -/
def TasksKeyed (r : Registry) : Prop := ∀ taskId task, r.tasks.get? taskId = some task → task.taskId = taskId

theorem mem_linked (h : Coherent r) (flowId taskId : String) :
    taskId ∈ r.taskIdsByParentFlowId.lookup flowId ↔
      ∃ t, r.tasks.get? taskId = some t ∧ trimmed? t.parentFlowId = some flowId := by
  simp only [h.parentFlowId.mem_iff, mem_parentFlowIdIndexKeys]

theorem mem_linkedTasks (h : Coherent r) (hk : TasksKeyed r) {task : TaskRecord} (ht : task ∈ linkedTasks r flowId) :
    r.tasks.get? task.taskId = some task ∧ trimmed? task.parentFlowId = some flowId := by
  obtain ⟨id, hid, hget⟩ := mem_filterMap.mp ht
  obtain ⟨t, ht', hp⟩ := (mem_linked h flowId id).mp hid
  rw [hget] at ht'
  cases ht'
  rw [hk id task hget]
  exact ⟨hget, hp⟩

theorem filterMap_set_of_not_mem {tasks : InsertionMap String TaskRecord} {ids : List String}
    (h : taskId ∉ ids) (next : TaskRecord) :
    ids.filterMap (tasks.set taskId next).get? = ids.filterMap tasks.get? := by
  apply filterMap_congr
  intro id hid
  refine tasks.get?_set_ne (fun he => h ?_) next
  rw [← he]
  exact hid

/-- One record rewritten where it is listed. -/
theorem filterMap_set_of_mem (hk : TasksKeyed r) (hc : r.tasks.get? taskId = some current) (next : TaskRecord)
    (ids : List String) :
    ids.filterMap (r.tasks.set taskId next).get? =
      (ids.filterMap r.tasks.get?).map fun t => if t.taskId = taskId then next else t := by
  rw [map_filterMap]
  apply filterMap_congr
  intro id _
  rw [get?_set]
  by_cases he : id = taskId
  · rw [if_pos he, he, hc, map_some, if_pos (hk taskId current hc)]
  · rw [if_neg he]
    cases hg : r.tasks.get? id with
    | none => rfl
    | some t => rw [map_some, if_neg fun ht => he ((hk id t hg).symm.trans ht)]

theorem linkedTasks_insert (h : Coherent r) (env : ChannelEnv) (params : CreateTaskParams)
    (hfresh : r.tasks.get? taskId = none) (now : Int) (flowId : String) :
    linkedTasks (insertTask env params taskId now r) flowId =
      if trimmed? (newTaskRecord params taskId now).parentFlowId = some flowId then
        linkedTasks r flowId ++ [newTaskRecord params taskId now]
      else linkedTasks r flowId := by
  have hnot : taskId ∉ r.taskIdsByParentFlowId.lookup flowId := fun hm => by
    obtain ⟨t, ht, _⟩ := (mem_linked h flowId taskId).mp hm
    rw [hfresh] at ht
    cases ht
  obtain ⟨states, hs⟩ := upsertTaskDeliveryState_tasks env
    ⟨taskId, normalizeDeliveryContext env params.requesterOrigin, none⟩ r
  simp only [linkedTasks, insertTask, hs, addParentFlowIdIndex, lookup_addAll, mem_parentFlowIdIndexKeys]
  generalize newTaskRecord params taskId now = record
  split
  · rw [insertId, if_neg hnot, filterMap_append, filterMap_set_of_not_mem hnot]
    simp
  · rw [filterMap_set_of_not_mem hnot]

/-- A record that keeps its flow is rewritten in place; one that gains a flow is listed last. -/
theorem linkedTasks_reindex (h : Coherent r) (hk : TasksKeyed r) (hc : r.tasks.get? taskId = some current)
    (patch : TaskPatch) (next : TaskRecord)
    (hmove : trimmed? current.parentFlowId = some flowId → trimmed? next.parentFlowId = some flowId) :
    linkedTasks (reindexTask taskId patch current next r) flowId =
      if trimmed? next.parentFlowId = some flowId then
        if trimmed? current.parentFlowId = some flowId then
          (linkedTasks r flowId).map fun t => if t.taskId = taskId then next else t
        else linkedTasks r flowId ++ [next]
      else linkedTasks r flowId := by
  have hmem : taskId ∈ r.taskIdsByParentFlowId.lookup flowId ↔ trimmed? current.parentFlowId = some flowId := by
    rw [mem_linked h]
    exact ⟨fun ⟨t, ht, hp⟩ => by rw [hc] at ht; cases ht; exact hp, fun hp => ⟨current, hc, hp⟩⟩
  -- the index moves exactly when the two records have different parents
  have hlookup : (reindexTask taskId patch current next r).taskIdsByParentFlowId.lookup flowId =
      if trimmed? next.parentFlowId = some flowId ∧ trimmed? current.parentFlowId ≠ some flowId then
        r.taskIdsByParentFlowId.lookup flowId ++ [taskId]
      else r.taskIdsByParentFlowId.lookup flowId := by
    simp only [reindexTask]
    split
    · rename_i hne
      simp only [addParentFlowIdIndex, deleteParentFlowIdIndex, lookup_addAll, lookup_deleteAll,
        mem_parentFlowIdIndexKeys]
      by_cases hcur : trimmed? current.parentFlowId = some flowId
      · exfalso
        obtain ⟨x, hx, hxt⟩ := bind_eq_some_iff.mp hcur
        obtain ⟨y, hy, hyt⟩ := bind_eq_some_iff.mp (hmove hcur)
        rw [hx, hy, map_some, map_some, trim_of_trimmed hxt, trim_of_trimmed hyt] at hne
        exact hne rfl
      · rw [if_neg hcur]
        by_cases hnext : trimmed? next.parentFlowId = some flowId
        · rw [if_pos hnext, if_pos ⟨hnext, hcur⟩, insertId, if_neg fun hm => hcur (hmem.mp hm)]
        · rw [if_neg hnext, if_neg fun hand => hnext hand.1]
    · rename_i heq
      rw [not_not] at heq
      rw [if_neg fun hand => hand.2 ((trimmed?_congr heq).trans hand.1)]
  unfold linkedTasks
  rw [hlookup]
  show List.filterMap (r.tasks.set taskId next).get? _ = _
  by_cases hnext : trimmed? next.parentFlowId = some flowId
  · by_cases hcur : trimmed? current.parentFlowId = some flowId
    · rw [if_neg fun hand => hand.2 hcur, if_pos hnext, if_pos hcur, filterMap_set_of_mem hk hc]
    · rw [if_pos ⟨hnext, hcur⟩, if_pos hnext, if_neg hcur, filterMap_append,
        filterMap_set_of_not_mem fun hm => hcur (hmem.mp hm)]
      simp
  · have hcur : trimmed? current.parentFlowId ≠ some flowId := fun hp => hnext (hmove hp)
    rw [if_neg fun hand => hnext hand.1, if_neg hnext,
      filterMap_set_of_not_mem fun hm => hcur (hmem.mp hm)]

theorem linkedTasks_delete (hk : TasksKeyed r) (taskId flowId : String) :
    linkedTasks (deleteTaskRecordById taskId r).2 flowId =
      (linkedTasks r flowId).filter fun t => t.taskId ≠ taskId := by
  -- on the ids of the old index, erasing the record and dropping it agree
  have herase (ids : List String) : ids.filterMap (r.tasks.erase taskId).get? =
      (ids.filterMap r.tasks.get?).filter fun t => t.taskId ≠ taskId := by
    rw [filter_filterMap]
    apply filterMap_congr
    intro id _
    rw [get?_erase]
    cases hg : r.tasks.get? id with
    | none => simp
    | some t =>
      rw [filter_some, hk id t hg]
      by_cases he : id = taskId <;> simp [he]
  cases hc : r.tasks.get? taskId with
  | none =>
    have hsame : r.tasks.erase taskId = r.tasks := erase_of_none hc
    simp only [deleteTaskRecordById, hc]
    unfold linkedTasks
    rw [← herase, hsame]
  | some current =>
    simp only [deleteTaskRecordById, hc, linkedTasks, deleteParentFlowIdIndex, lookup_deleteAll]
    split
    · rw [filterMap_filter, ← herase]
      apply filterMap_congr
      intro id _
      by_cases he : id = taskId
      · simp [he, get?_erase]
      · simp [he]
    · exact herase _

/-! ### Every write -/

/-- A flow that mirrors tasks, under an id that a task can name. -/
def MirroredFlow (r : Registry) (flowId : String) (flow : TaskFlowRecord) : Prop :=
  trimmed flowId = some flowId ∧ r.flows.get? flowId = some flow ∧ flow.syncMode = .taskMirrored

/-- Each mirrored flow shows its newest task. -/
structure Mirrors (r : Registry) : Prop where
  tasksKeyed : TasksKeyed r
  flowsKeyed : FlowsKeyed r.flows
  shown : ∀ flowId flow task, MirroredFlow r flowId flow → findLatestTaskForFlowId r flowId = some task →
    flow.mirror = mirrorOf task

/-- A write that reaches a mirrored flow from a task reaches it from the newest
one, or from one that shows the same; the flow's own writes set nothing it shows. -/
def KeepsMirror : Write → Registry → Prop
  | .insertTask params taskId now, r => ∀ flowId flow latest, MirroredFlow r flowId flow →
    trimmed? params.parentFlowId = some flowId → findLatestTaskForFlowId r flowId = some latest →
    latest.createdAt ≤ now ∨ mirrorOf (newTaskRecord params taskId now) = mirrorOf latest
  | .updateTask taskId patch now, r => ∀ flowId flow current, MirroredFlow r flowId flow →
    r.tasks.get? taskId = some current →
    (trimmed? current.parentFlowId = some flowId →
      trimmed? (nextRecord patch current now).parentFlowId = some flowId) ∧
    (trimmed? (nextRecord patch current now).parentFlowId = some flowId →
      (nextRecord patch current now).Stamped ∧
      ∀ latest, findLatestTaskForFlowId r flowId = some latest →
        latest.taskId = taskId ∨
        (trimmed? current.parentFlowId ≠ some flowId ∧ latest.createdAt ≤ current.createdAt) ∨
        mirrorOf (nextRecord patch current now) = mirrorOf latest)
  | .deleteTask taskId, r => ∀ flowId flow latest other, MirroredFlow r flowId flow →
    findLatestTaskForFlowId r flowId = some latest →
    newest TaskRecord.createdAt ((linkedTasks r flowId).filter fun t => t.taskId ≠ taskId) = some other →
    latest.taskId = taskId → mirrorOf other = mirrorOf latest
  | .createFlow params flowId _, r => params.syncMode = some .taskMirrored → trimmed flowId = some flowId →
    findLatestTaskForFlowId r flowId = none
  | .updateFlow flowId _ patch _, r => ∀ flow, r.flows.get? flowId = some flow →
    flow.syncMode = .taskMirrored → patch.shown flow = flow.mirror
  | _, _ => True

theorem shown_step {r' : Registry} (hs : FlowsStep shown r.flows r'.flows)
    (hnew : ∀ flowId flow task, MirroredFlow r flowId flow → findLatestTaskForFlowId r' flowId = some task → (shown flowId).getD flow.mirror = mirrorOf task) :
    ∀ flowId flow task, MirroredFlow r' flowId flow → findLatestTaskForFlowId r' flowId = some task →
      flow.mirror = mirrorOf task := by
  rintro flowId next task ⟨hid, hnext, hmode⟩ htask
  have hrel := hs flowId
  rw [hnext] at hrel
  cases hf : r.flows.get? flowId with
  | none =>
    rw [hf] at hrel
    cases hrel
  | some flow =>
    rw [hf] at hrel
    cases hrel with
    | some hstep =>
      have hm : flow.syncMode = .taskMirrored := hstep.2.1.symm.trans hmode
      rw [hstep.2.2 hm]
      exact hnew flowId flow task ⟨hid, hf, hm⟩ htask

theorem newTaskRecord_stamped (params : CreateTaskParams) (taskId : String) (now : Int) :
    (newTaskRecord params taskId now).Stamped := rfl

theorem mirrors_insertTask (hco : Coherent r) (hm : Mirrors r) (env : ChannelEnv) {params : CreateTaskParams}
    (hfresh : r.tasks.get? taskId = none) (hk : KeepsMirror (.insertTask params taskId now) r) :
    Mirrors (insertTask env params taskId now r) := by
  have hflows : FlowsStep (shownBy (newTaskRecord params taskId now)) r.flows
      (insertTask env params taskId now r).flows := by
    obtain ⟨states, hs⟩ := upsertTaskDeliveryState_tasks env
      ⟨taskId, normalizeDeliveryContext env params.requesterOrigin, none⟩ r
    simp only [insertTask, hs]
    exact flowsStep_sync hm.flowsKeyed now fun _ _ _ _ _ => newTaskRecord_stamped params taskId now
  have htasks : (insertTask env params taskId now r).tasks =
      r.tasks.set taskId (newTaskRecord params taskId now) := by
    obtain ⟨states, hs⟩ := upsertTaskDeliveryState_tasks env
      ⟨taskId, normalizeDeliveryContext env params.requesterOrigin, none⟩ r
    simp only [insertTask, hs]
  have hparent : trimmed? (newTaskRecord params taskId now).parentFlowId = trimmed? params.parentFlowId :=
    normalizeText_trimmed? _
  refine ⟨fun id task ht => ?_, hflows.keyed hm.flowsKeyed, shown_step hflows ?_⟩
  · rw [htasks, get?_set] at ht
    split at ht
    · rename_i he
      cases ht
      exact he.symm
    · exact hm.tasksKeyed id task ht
  · intro flowId flow task hflow htask
    rw [findLatestTaskForFlowId_eq _ hflow.1, linkedTasks_insert hco env params hfresh now, hparent] at htask
    rw [shownBy, hparent]
    split at htask
    · rename_i hlinked
      rw [if_pos hlinked, getD_some]
      rw [newest_concat] at htask
      have hcond := hk flowId flow
      rw [findLatestTaskForFlowId_eq _ hflow.1] at hcond
      cases hl : newest TaskRecord.createdAt (linkedTasks r flowId) with
      | none =>
        rw [hl] at htask
        cases htask
        rfl
      | some latest =>
        rw [hl] at htask hcond
        dsimp only at htask
        split at htask
        · cases htask
          rfl
        · rename_i hlt
          cases htask
          exact (hcond _ hflow hlinked rfl).resolve_left hlt
    · rename_i hlinked
      rw [if_neg hlinked]
      refine hm.shown flowId flow task hflow ?_
      rw [findLatestTaskForFlowId_eq _ hflow.1]
      exact htask

theorem nextRecord_createdAt (patch : TaskPatch) (current : TaskRecord) (now : Int) :
    (nextRecord patch current now).createdAt = current.createdAt := by
  unfold nextRecord
  dsimp only
  split <;> rfl

theorem nextRecord_taskId (patch : TaskPatch) (current : TaskRecord) (now : Int) :
    (nextRecord patch current now).taskId = current.taskId := by
  unfold nextRecord
  dsimp only
  split <;> rfl

/-- The flows after an update, beside its map and indexes. -/
theorem updateTask_flows (hc : r.tasks.get? taskId = some current) (hf : FlowsKeyed r.flows) (patch : TaskPatch)
    (now : Int)
    (hs : ∀ flowId flow, trimmed? (nextRecord patch current now).parentFlowId = some flowId → r.flows.get? flowId = some flow → flow.syncMode = .taskMirrored → (nextRecord patch current now).Stamped) :
    FlowsStep (shownBy (nextRecord patch current now)) r.flows (updateTask taskId patch now r).2.flows := by
  simp only [updateTask, hc]
  have hsync := flowsStep_sync hf now hs
  exact hsync.trans (flowsStep_cancellation
    (r := {reindexTask taskId patch current (nextRecord patch current now) r with
      flows := syncFlowFromTask (nextRecord patch current now) now r.flows}) (hsync.keyed hf) _ now)

theorem mirrors_updateTask (hco : Coherent r) (hm : Mirrors r) {patch : TaskPatch}
    (hk : KeepsMirror (.updateTask taskId patch now) r) :
    Mirrors (updateTask taskId patch now r).2 := by
  cases hc : r.tasks.get? taskId with
  | none =>
    simp only [updateTask, hc]
    exact hm
  | some current =>
    have hflows := updateTask_flows hc hm.flowsKeyed patch now fun flowId flow hp hf hmode =>
      ((hk flowId flow current ⟨trimmed_trimmed? hp, hf, hmode⟩ hc).2 hp).1
    obtain ⟨flows, he⟩ := updateTask_eq hc patch now
    have hid := nextRecord_taskId patch current now
    have hcreated := nextRecord_createdAt patch current now
    have hcond := fun flowId flow hflow => hk flowId flow current hflow hc
    rw [he] at hflows ⊢
    generalize nextRecord patch current now = next at hflows hcond hid hcreated ⊢
    have hkeyed := hflows.keyed hm.flowsKeyed
    refine ⟨fun id task ht => ?_, hkeyed, shown_step hflows ?_⟩
    · have ht' : (r.tasks.set taskId next).get? id = some task := ht
      rw [get?_set] at ht'
      split at ht'
      · rename_i heq
        cases ht'
        rw [heq, hid, hm.tasksKeyed taskId current hc]
      · exact hm.tasksKeyed id task ht'
    · intro flowId flow task hflow htask
      obtain ⟨hmove, hlinked⟩ := hcond flowId flow hflow
      have hshown := hm.shown flowId flow
      rw [findLatestTaskForFlowId_flows] at htask
      rw [findLatestTaskForFlowId_eq _ hflow.1] at htask hlinked hshown
      rw [linkedTasks_reindex hco hm.tasksKeyed hc patch next hmove] at htask
      have hstamps : ∀ t ∈ linkedTasks r flowId,
          (if t.taskId = taskId then next else t).createdAt = t.createdAt := by
        intro t ht
        split
        · rename_i hid'
          have hget := (mem_linkedTasks hco hm.tasksKeyed ht).1
          rw [hid', hc] at hget
          cases hget
          exact hcreated
        · rfl
      unfold shownBy
      by_cases hnext : trimmed? next.parentFlowId = some flowId
      · rw [if_pos hnext, getD_some]
        rw [if_pos hnext] at htask
        obtain ⟨_, hlatest⟩ := hlinked hnext
        split at htask
        · rename_i hcur
          -- rewritten in place: the newest is the same task, rewritten if it is this one
          rw [newest_map TaskRecord.createdAt hstamps] at htask
          obtain ⟨latest, hl, rfl⟩ := map_eq_some_iff.mp htask
          split
          · rfl
          · rename_i hne
            rcases hlatest latest hl with hsame | hgain | hsame
            · exact absurd hsame hne
            · exact absurd hcur hgain.1
            · exact hsame
        · rename_i hcur
          rw [newest_concat] at htask
          cases hl : newest TaskRecord.createdAt (linkedTasks r flowId) with
          | none =>
            rw [hl] at htask
            cases htask
            rfl
          | some latest =>
            rw [hl] at htask
            dsimp only at htask
            split at htask
            · cases htask
              rfl
            · rename_i hlt
              cases htask
              rcases hlatest _ hl with hsame | hgain | hsame
              · obtain ⟨hget, hp⟩ := mem_linkedTasks hco hm.tasksKeyed (newest_mem _ hl)
                rw [hsame, hc] at hget
                cases hget
                exact absurd hp hcur
              · rw [hcreated] at hlt
                exact absurd hgain.2 hlt
              · exact hsame
      · rw [if_neg hnext] at htask ⊢
        exact hshown task hflow htask

/-- The flows alone are written. -/
theorem mirrors_flows (hm : Mirrors r) (hs : FlowsStep (fun _ => none) r.flows flows) :
    Mirrors {r with flows := flows} := by
  refine ⟨hm.tasksKeyed, hs.keyed hm.flowsKeyed, shown_step hs fun flowId flow task hflow htask => ?_⟩
  exact hm.shown flowId flow task hflow htask

theorem mirrors_deleteTask (hm : Mirrors r) (hk : KeepsMirror (.deleteTask taskId) r) :
    Mirrors (deleteTaskRecordById taskId r).2 := by
  have hflows : (deleteTaskRecordById taskId r).2.flows = r.flows := by
    unfold deleteTaskRecordById
    split <;> rfl
  have htasks (id : String) (task : TaskRecord)
      (ht : (deleteTaskRecordById taskId r).2.tasks.get? id = some task) : r.tasks.get? id = some task := by
    unfold deleteTaskRecordById at ht
    split at ht
    · exact ht
    · have ht' : (r.tasks.erase taskId).get? id = some task := ht
      rw [get?_erase] at ht'
      split at ht'
      · cases ht'
      · exact ht'
  have hstep : FlowsStep (fun _ => none) r.flows (deleteTaskRecordById taskId r).2.flows := by
    rw [hflows]
    exact .refl _
  refine ⟨fun id task ht => hm.tasksKeyed id task (htasks id task ht), hstep.keyed hm.flowsKeyed,
    shown_step hstep fun flowId flow other hflow hother => ?_⟩
  rw [findLatestTaskForFlowId_eq _ hflow.1, linkedTasks_delete hm.tasksKeyed] at hother
  show flow.mirror = mirrorOf other
  cases hl : findLatestTaskForFlowId r flowId with
  | none =>
    rw [findLatestTaskForFlowId_eq _ hflow.1, newest_eq_none] at hl
    rw [hl] at hother
    cases hother
  | some latest =>
    have hshown := hm.shown flowId flow latest hflow hl
    by_cases hid : latest.taskId = taskId
    · rw [hk flowId flow latest other hflow hl hother hid]
      exact hshown
    · rw [findLatestTaskForFlowId_eq _ hflow.1] at hl
      rw [newest_filter _ hl (decide_eq_true hid)] at hother
      cases hother
      exact hshown

theorem buildFlowRecord_ok {params : CreateFlowParams} {record : TaskFlowRecord}
    (h : buildFlowRecord params flowId now = .ok record) :
    record.flowId = flowId ∧ record.syncMode = params.syncMode.getD .managed := by
  unfold buildFlowRecord at h
  dsimp only at h
  cases ho : assertFlowOwnerKey params.ownerKey with
  | error e =>
    rw [ho] at h
    split at h
    · cases hc : assertControllerId params.controllerId with
      | _ => rw [hc] at h; cases h
    · cases h
  | ok ownerKey =>
    rw [ho] at h
    split at h
    · cases hc : assertControllerId params.controllerId with
      | error e => rw [hc] at h; cases h
      | ok id =>
        rw [hc] at h
        cases h
        exact ⟨rfl, rfl⟩
    · cases h
      exact ⟨rfl, rfl⟩

theorem mirrors_createFlow (hm : Mirrors r) {params : CreateFlowParams}
    (hk : KeepsMirror (.createFlow params flowId now) r) :
    Mirrors {r with flows := (createFlowRecord params flowId now r.flows).2} := by
  unfold createFlowRecord
  cases hb : buildFlowRecord params flowId now with
  | error e => exact mirrors_flows hm (.refl _)
  | ok record =>
    obtain ⟨hid, hmode⟩ := buildFlowRecord_ok hb
    have hget (other : String) (flow : TaskFlowRecord)
        (hf : (writeFlowRecord r.flows record).get? other = some flow) :
        (other = flowId ∧ flow = record) ∨ r.flows.get? other = some flow := by
      rw [writeFlowRecord, hid, get?_set] at hf
      split at hf
      · rename_i he
        exact .inl ⟨he, (Option.some.inj hf).symm⟩
      · exact .inr hf
    refine ⟨hm.tasksKeyed, fun other flow hf => ?_, ?_⟩
    · rcases hget other flow hf with ⟨he, hr⟩ | hold
      · rw [he, hr, hid]
      · exact hm.flowsKeyed other flow hold
    · rintro other flow task ⟨htrim, hf, hmirrored⟩ htask
      rw [findLatestTaskForFlowId_flows] at htask
      rcases hget other flow hf with ⟨he, hr⟩ | hold
      · -- nothing is linked to a flow that is just being made
        rw [hr, hmode] at hmirrored
        have hsync : params.syncMode = some .taskMirrored := by
          cases hp : params.syncMode with
          | none => rw [hp] at hmirrored; cases hmirrored
          | some mode => rw [hp] at hmirrored; exact congrArg some hmirrored
        rw [he] at htask htrim
        rw [hk hsync htrim] at htask
        cases htask
      · exact hm.shown other flow task ⟨htrim, hold, hmirrored⟩ htask

theorem mirrors_deleteFlow (hm : Mirrors r) (flowId : String) :
    Mirrors {r with flows := (deleteTaskFlowRecordById flowId r.flows).2} := by
  unfold deleteTaskFlowRecordById
  split
  · exact mirrors_flows hm (.refl _)
  · have hget (other : String) (flow : TaskFlowRecord) (hf : (r.flows.erase flowId).get? other = some flow) :
        r.flows.get? other = some flow := by
      rw [get?_erase] at hf
      split at hf
      · cases hf
      · exact hf
    refine ⟨hm.tasksKeyed, fun other flow hf => hm.flowsKeyed other flow (hget other flow hf), ?_⟩
    rintro other flow task ⟨htrim, hf, hmirrored⟩ htask
    rw [findLatestTaskForFlowId_flows] at htask
    exact hm.shown other flow task ⟨htrim, hget other flow hf, hmirrored⟩ htask

/-- A write that meets the condition leaves each mirrored flow showing its newest task. -/
theorem mirrors_write {env : ChannelEnv} {w : Write} {r' : Registry} (hco : Coherent r) (hm : Mirrors r)
    (hk : KeepsMirror w r) (hw : writeStep env w r = some r') : Mirrors r' := by
  unfold writeStep at hw
  split at hw
  · rename_i he
    cases hw
    cases w with
    | insertTask params taskId now =>
      exact mirrors_insertTask hco hm env (isNone_iff_eq_none.mp he) hk
    | updateTask taskId patch now => exact mirrors_updateTask hco hm hk
    | deleteTask taskId => exact mirrors_deleteTask hm hk
    | deliveryState state =>
      obtain ⟨states, hs⟩ := upsertTaskDeliveryState_tasks env state r
      show Mirrors (upsertTaskDeliveryState env state r)
      rw [hs]
      exact ⟨hm.tasksKeyed, hm.flowsKeyed, hm.shown⟩
    | createFlow params flowId now => exact mirrors_createFlow hm hk
    | updateFlow flowId expectedRevision patch now =>
      exact mirrors_flows hm (flowsStep_update hm.flowsKeyed expectedRevision now hk)
    | deleteFlow flowId => exact mirrors_deleteFlow hm flowId
  · cases hw

/-! ### Every run -/

/-- An update of a linked task that is not the newest leaves the flow showing what
it showed exactly where the written record shows what the newest does. -/
theorem update_of_older (hm : Mirrors r) {patch : TaskPatch} {latest : TaskRecord}
    (hc : r.tasks.get? taskId = some current) (hflow : MirroredFlow r flowId flow)
    (hl : findLatestTaskForFlowId r flowId = some latest)
    (hnext : trimmed? (nextRecord patch current now).parentFlowId = some flowId)
    (hs : (nextRecord patch current now).Stamped) :
    ∃ flow', (updateTask taskId patch now r).2.flows.get? flowId = some flow' ∧
      (flow'.mirror = flow.mirror ↔ mirrorOf (nextRecord patch current now) = mirrorOf latest) := by
  have hrel := updateTask_flows hc hm.flowsKeyed patch now (fun _ _ _ _ _ => hs) flowId
  rw [hflow.2.1] at hrel
  cases hf : (updateTask taskId patch now r).2.flows.get? flowId with
  | none =>
    rw [hf] at hrel
    cases hrel
  | some flow' =>
    rw [hf] at hrel
    cases hrel with
    | some hstep =>
      have hshown := hstep.2.2 hflow.2.2
      rw [shownBy, if_pos hnext, getD_some] at hshown
      exact ⟨flow', rfl, by rw [hshown, hm.shown flowId flow latest hflow hl]⟩

/-- In a run whose writes meet the condition every mirrored flow shows its newest
task, and an update of an older linked task leaves it as it was if and only if the
written record shows what the newest does. -/
theorem mirrored_flow_follows_newest (env : ChannelEnv) (tasks : InsertionMap String TaskRecord)
    (deliveryStates : InsertionMap String TaskDeliveryState) (flows : Flows) (ws : List Write) (r : Registry)
    (hstart : Mirrors (restoreTaskRegistry tasks deliveryStates flows))
    (hc : (writeStep env).Within KeepsMirror ws (restoreTaskRegistry tasks deliveryStates flows))
    (h : (writeStep env).run ws (restoreTaskRegistry tasks deliveryStates flows) = some r) :
    (∀ flowId flow latest, MirroredFlow r flowId flow → findLatestTaskForFlowId r flowId = some latest →
      flow.mirror = mirrorOf latest) ∧
    ∀ taskId patch now current flowId flow latest, r.tasks.get? taskId = some current →
      MirroredFlow r flowId flow → trimmed? current.parentFlowId = some flowId →
      findLatestTaskForFlowId r flowId = some latest → latest.taskId ≠ taskId →
      trimmed? (nextRecord patch current now).parentFlowId = some flowId →
      (nextRecord patch current now).Stamped →
      ∃ flow', (updateTask taskId patch now r).2.flows.get? flowId = some flow' ∧
        (flow'.mirror = flow.mirror ↔ mirrorOf (nextRecord patch current now) = mirrorOf latest) := by
  have hr : Coherent r ∧ Mirrors r :=
    (writeStep env).run_within_invariant (I := fun r => Coherent r ∧ Mirrors r)
      (fun w u v hu hk hw => ⟨coherent_write hu.1 hw, mirrors_write hu.1 hu.2 hk hw⟩) ws
      ⟨coherent_restore _ _ _, hstart⟩ hc h
  exact ⟨hr.2.shown, fun taskId patch now current flowId flow latest hcur hflow _ hl _ hnext hs =>
    update_of_older hr.2 hcur hflow hl hnext hs⟩

theorem mirrors_restore_empty : Mirrors (restoreTaskRegistry ∅ ∅ ∅) where
  tasksKeyed _ _ h := by cases h
  flowsKeyed _ _ h := by cases h
  shown _ _ _ h := by cases h.2.1

/-- A task of a flow that exists already. -/
def mirroredChild (runId : String) : CreateTaskParams :=
  { runtime := .acp, ownerKey := some "main", parentFlowId := some "flow", runId := some runId, task := "t" }

def blockedPatch : TaskPatch :=
  { status := some .succeeded, terminalOutcome := some (some .blocked), endedAt := some (some 20) }

/-- A mirrored flow, its task blocked, and the retry of it. -/
def retryWrites : List Write :=
  [.createFlow { syncMode := some .taskMirrored, ownerKey := "main", goal := "t" } "flow" 5,
    .insertTask (mirroredChild "run") "a" 10, .updateTask "a" blockedPatch 20,
    .insertTask (mirroredChild "retry") "b" 30]

theorem mirrored_flow_follows_newest_retry :
    ∃ r, (writeStep ⟨some, id⟩).run retryWrites (restoreTaskRegistry ∅ ∅ ∅) = some r ∧
      ∀ flowId flow latest, MirroredFlow r flowId flow → findLatestTaskForFlowId r flowId = some latest →
        flow.mirror = mirrorOf latest := by
  have hflow : trimmed? (some "flow") = some "flow" := by decide
  -- a child of the flow is written where nothing linked is newer
  have hinsert (runId taskId : String) (now : Int) (r : Registry)
      (h : (findLatestTaskForFlowId r "flow").all (fun t => t.createdAt ≤ now) = true) :
      KeepsMirror (.insertTask (mirroredChild runId) taskId now) r := by
    intro flowId flow latest _ hp hl
    rw [show (mirroredChild runId).parentFlowId = some "flow" from rfl, hflow] at hp
    cases hp
    rw [hl] at h
    exact .inl (of_decide_eq_true h)
  obtain ⟨r, hr⟩ : ∃ r, (writeStep ⟨some, id⟩).run retryWrites (restoreTaskRegistry ∅ ∅ ∅) = some r := ⟨_, rfl⟩
  refine ⟨r, hr, (mirrored_flow_follows_newest ⟨some, id⟩ ∅ ∅ ∅ retryWrites r mirrors_restore_empty ?_ hr).1⟩
  refine Machine.within_cons _ (fun _ _ => by decide) (writeStep_some (by decide)) ?_
  refine Machine.within_cons _ (hinsert _ _ _ _ (by decide)) (writeStep_some (by decide)) ?_
  refine Machine.within_cons _ ?_ (writeStep_some (by decide)) ?_
  · intro flowId flow current _ hc
    obtain rfl : newTaskRecord (mirroredChild "run") "a" 10 = current := Option.some.inj hc
    have hparent : trimmed? (nextRecord blockedPatch (newTaskRecord (mirroredChild "run") "a" 10) 20).parentFlowId =
        some "flow" := by decide
    refine ⟨fun hp => ?_, fun hp => ⟨rfl, fun latest hl => .inl ?_⟩⟩
    · rw [show (newTaskRecord (mirroredChild "run") "a" 10).parentFlowId = some "flow" by decide, hflow] at hp
      rw [hparent, hp]
    · rw [hparent] at hp
      cases hp
      have hid := congrArg (Option.map TaskRecord.taskId) hl
      exact Option.some.inj (hid.symm.trans (by decide))
  · exact Machine.within_cons _ (hinsert _ _ _ _ (by decide)) (writeStep_some (by decide)) trivial

/-! ### A retried flow -/

def blockedTaskParams : CreateTaskParams :=
  { runtime := .acp, ownerKey := some "main", scopeKind := some .session, childSessionKey := some "child",
    runId := some "run", task := "Patch file", startedAt := some 10, deliveryStatus := some .pending }

/-- A detached task that ends blocked, and the retry of its flow. -/
def retriedFlow (env : ChannelEnv) : Registry :=
  let r := (createRunningTaskRun env blockedTaskParams "task" "flow" 10 (restoreTaskRegistry ∅ ∅ ∅)).2
  let r := completeTaskRunByRunId "run" none none 40 (some 40) none (some (some "Writable session required."))
    (some (some .blocked)) 40 r
  (retryBlockedFlowAsQueuedTaskRun env
    { flowId := "flow", runId := some "retry", childSessionKey := some "retry-child", status := .queued }
    "retried" 50 r).2

theorem retriedFlow_writes : ∃ ws, (writeStep ⟨some, id⟩).run ws (restoreTaskRegistry ∅ ∅ ∅) =
    some (retriedFlow ⟨some, id⟩) := by
  have hrun : Writes ⟨some, id⟩ (fun _ => True) (fun _ => True) (restoreTaskRegistry ∅ ∅ ∅)
      (createRunningTaskRun ⟨some, id⟩ blockedTaskParams "task" "flow" 10 (restoreTaskRegistry ∅ ∅ ∅)).2 :=
    createTaskRun_writes .running blockedTaskParams "task" "flow" 10 (by decide) (by decide) trivial
  have hdone := hrun.trans (call_writes (c := .updateTaskStateByRunId "run" none none
    { status := some .succeeded, endedAt := some 40, lastEventAt := some 40,
      terminalSummary := some (some "Writable session required."), terminalOutcome := some (some .blocked) } 40)
    rfl trivial)
  have hretry : Writes ⟨some, id⟩ (fun _ => True) (fun _ => True) _ (retriedFlow ⟨some, id⟩) :=
    retryBlockedFlowTask_writes _ 50 (by decide)
  obtain ⟨ws, hws, -⟩ := hdone.trans hretry
  exact ⟨ws, hws⟩

/-- The delivery of the first task's message comes back after the retry, and the
flow is blocked again on a task that is not its newest. -/
theorem retried_flow_reverts :
    (∃ ws, (writeStep ⟨some, id⟩).run ws (restoreTaskRegistry ∅ ∅ ∅) = some (retriedFlow ⟨some, id⟩)) ∧
    (findLatestTaskForFlowId (retriedFlow ⟨some, id⟩) "flow").map
      (fun t => (t.taskId, deriveTaskFlowStatusFromTask t)) = some ("retried", .queued) ∧
    ((retriedFlow ⟨some, id⟩).flows.get? "flow").map TaskFlowRecord.mirror =
      some ⟨.queued, "Patch file", none, none, none⟩ ∧
    ((recordTerminalDelivery "task" .delivered 60 (retriedFlow ⟨some, id⟩)).2.flows.get? "flow").map
      TaskFlowRecord.mirror =
        some ⟨.blocked, "Patch file", some "task", some "Writable session required.", some 40⟩ ∧
    (findLatestTaskForFlowId (recordTerminalDelivery "task" .delivered 60 (retriedFlow ⟨some, id⟩)).2 "flow").map
      (fun t => (t.taskId, deriveTaskFlowStatusFromTask t)) = some ("retried", .queued) := by
  exact ⟨retriedFlow_writes, by decide, by decide, by decide, by decide⟩

end OpenClaw.Tasks
