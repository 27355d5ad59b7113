import Mathlib.Data.List.Dedup
import OpenClaw.Tasks.Calls

/-! The secondary indexes of the task registry are the inverse images of its map.

`Coherent` says so of each index. It is kept by the three writes everything else
is made of (a record inserted, updated, deleted), hence by every writer and by
every run of calls. The lists that are read through an index are then the lists a
full scan of the map would give. -/
namespace OpenClaw.Tasks
open Foundation Foundation.EcmaString SetIndex List

/-- Each index lists, under a key, the tasks that have it. The run-id index keeps
the order of the map as well, as it is rebuilt and never moved within. -/
structure Coherent (r : Registry) : Prop where
  runId : Ordered r.taskIdsByRunId r.tasks runIdIndexKeys
  ownerKey : Listed r.taskIdsByOwnerKey r.tasks ownerKeyIndexKeys
  parentFlowId : Listed r.taskIdsByParentFlowId r.tasks parentFlowIdIndexKeys
  relatedSessionKey : Listed r.taskIdsByRelatedSessionKey r.tasks getTaskRelatedSessionIndexKeys

variable {r r' : Registry} {taskId : String}

/-- Coherence looks at the map and the indexes only. -/
theorem Coherent.congr (h : Coherent r) (ht : r'.tasks = r.tasks) (h1 : r'.taskIdsByRunId = r.taskIdsByRunId)
    (h2 : r'.taskIdsByOwnerKey = r.taskIdsByOwnerKey) (h3 : r'.taskIdsByParentFlowId = r.taskIdsByParentFlowId)
    (h4 : r'.taskIdsByRelatedSessionKey = r.taskIdsByRelatedSessionKey) : Coherent r' :=
  ⟨by rw [ht, h1]; exact h.runId, by rw [ht, h2]; exact h.ownerKey, by rw [ht, h3]; exact h.parentFlowId,
    by rw [ht, h4]; exact h.relatedSessionKey⟩

theorem coherent_restore (tasks : InsertionMap String TaskRecord)
    (deliveryStates : InsertionMap String TaskDeliveryState) (flows : Flows) :
    Coherent (restoreTaskRegistry tasks deliveryStates flows) := by
  unfold restoreTaskRegistry
  split
  · exact ⟨ordered_empty _, (ordered_empty _).listed, (ordered_empty _).listed, (ordered_empty _).listed⟩
  · exact ⟨ordered_build _ _, (ordered_build _ _).listed, (ordered_build _ _).listed,
      (ordered_build _ _).listed⟩

/-! ### The writes -/

/-- A patch that does not blank a run id. No caller patches one. -/
def TaskPatch.KeepsRunId (patch : TaskPatch) : Prop :=
  patch.runId = none ∨ ∃ runId, patch.runId = some (some runId) ∧ runId ≠ ""

theorem nextRecord_runId (patch : TaskPatch) (current : TaskRecord) (now : Int) :
    (nextRecord patch current now).runId = patch.runId.getD current.runId := by
  unfold nextRecord
  dsimp only
  split <;> rfl

theorem nextRecord_parentFlowId (patch : TaskPatch) (current : TaskRecord) (now : Int) :
    (nextRecord patch current now).parentFlowId = patch.parentFlowId.getD current.parentFlowId := by
  unfold nextRecord
  dsimp only
  split <;> rfl

theorem trimmed?_congr {a b : Option String} (h : a.map trim = b.map trim) : trimmed? a = trimmed? b := by
  cases a with
  | none =>
    cases b with
    | none => rfl
    | some y => cases h
  | some x =>
    cases b with
    | none => cases h
    | some y =>
      have hxy : trim x = trim y := Option.some.inj h
      simp only [trimmed?, Option.bind_some, trimmed, hxy]

/-- The index writes that follow the write of a record keep every index in step. -/
theorem coherent_reindex (h : Coherent r) {patch : TaskPatch} {current : TaskRecord}
    (hc : r.tasks.get? taskId = some current) (now : Int) (hp : patch.KeepsRunId) :
    Coherent (reindexTask taskId patch current (nextRecord patch current now) r) := by
  generalize hn : nextRecord patch current now = next
  refine ⟨?_, ?_, ?_, ?_⟩
  · have hsame (he : next.runId = current.runId) :
        Ordered r.taskIdsByRunId (r.tasks.set taskId next) runIdIndexKeys :=
      h.runId.set_same hc (by unfold runIdIndexKeys; rw [he])
    have hnext : next.runId = patch.runId.getD current.runId := by rw [← hn, nextRecord_runId]
    rcases hp with hnone | ⟨runId, hsome, hne⟩
    · rw [hnone] at hnext
      simp only [reindexTask, hnone]
      exact hsame hnext
    · rw [hsome] at hnext
      simp only [reindexTask, hsome]
      split
      · exact ordered_build _ _
      · rename_i hcond
        refine hsame (hnext.trans ?_)
        by_contra hdiff
        exact hcond ⟨hne, hdiff⟩
  · simp only [reindexTask]
    split
    · exact h.ownerKey.set_moved hc
    · rename_i hs
      rw [sessionIndexChanged, not_or, not_not, not_not] at hs
      exact h.ownerKey.set_same hc (by unfold ownerKeyIndexKeys; rw [hs.1])
  · simp only [reindexTask]
    split
    · exact h.parentFlowId.set_moved hc
    · rename_i hs
      rw [not_not] at hs
      exact h.parentFlowId.set_same hc (by unfold parentFlowIdIndexKeys; rw [trimmed?_congr hs])
  · simp only [reindexTask]
    split
    · exact h.relatedSessionKey.set_moved hc
    · rename_i hs
      rw [sessionIndexChanged, not_or, not_not, not_not] at hs
      exact h.relatedSessionKey.set_same hc (by unfold getTaskRelatedSessionIndexKeys; rw [hs.1, hs.2])

theorem syncManagedFlowCancellation_tasks (task : TaskRecord) (now : Int) (r : Registry) :
    ∃ flows, syncManagedFlowCancellationFromTask task now r = {r with flows := flows} := by
  unfold syncManagedFlowCancellationFromTask
  dsimp only
  split
  · exact ⟨r.flows, rfl⟩
  · split
    · exact ⟨r.flows, rfl⟩
    · split
      · exact ⟨r.flows, rfl⟩
      · split
        · exact ⟨r.flows, rfl⟩
        · exact ⟨_, rfl⟩

/-- Everything an update writes but the flows. -/
theorem updateTask_eq {current : TaskRecord} (hc : r.tasks.get? taskId = some current) (patch : TaskPatch)
    (now : Int) :
    ∃ flows, (updateTask taskId patch now r).2 =
      {reindexTask taskId patch current (nextRecord patch current now) r with flows := flows} := by
  simp only [updateTask, hc]
  generalize nextRecord patch current now = next
  generalize reindexTask taskId patch current next r = r'
  obtain ⟨flows, hf⟩ := syncManagedFlowCancellation_tasks next now
    {r' with flows := syncFlowFromTask next now r'.flows}
  exact ⟨flows, hf⟩

theorem coherent_updateTask (h : Coherent r) (taskId : String) {patch : TaskPatch} (hp : patch.KeepsRunId)
    (now : Int) : Coherent (updateTask taskId patch now r).2 := by
  cases hc : r.tasks.get? taskId with
  | none =>
    simp only [updateTask, hc]
    exact h
  | some current =>
    obtain ⟨flows, hf⟩ := updateTask_eq hc patch now
    have hre := coherent_reindex h hc now hp
    rw [hf]
    generalize reindexTask taskId patch current (nextRecord patch current now) r = r' at hre ⊢
    exact hre.congr rfl rfl rfl rfl rfl

theorem upsertTaskDeliveryState_tasks (env : ChannelEnv) (state : TaskDeliveryState) (r : Registry) :
    ∃ states, upsertTaskDeliveryState env state r = {r with taskDeliveryStates := states} := by
  unfold upsertTaskDeliveryState
  dsimp only
  split
  · exact ⟨r.taskDeliveryStates, rfl⟩
  · exact ⟨_, rfl⟩

theorem coherent_upsertTaskDeliveryState (h : Coherent r) (env : ChannelEnv) (state : TaskDeliveryState) :
    Coherent (upsertTaskDeliveryState env state r) := by
  obtain ⟨states, hs⟩ := upsertTaskDeliveryState_tasks env state r
  rw [hs]
  exact h.congr rfl rfl rfl rfl rfl

/-- A new task is listed under its keys; its id is not in use. -/
theorem coherent_insertTask (h : Coherent r) (env : ChannelEnv) (params : CreateTaskParams)
    (hfresh : r.tasks.get? taskId = none) (now : Int) :
    Coherent (insertTask env params taskId now r) := by
  obtain ⟨states, hs⟩ := upsertTaskDeliveryState_tasks env
    ⟨taskId, normalizeDeliveryContext env params.requesterOrigin, none⟩ r
  simp only [insertTask, hs, addRunIdIndex, addOwnerKeyIndex, addParentFlowIdIndex, addRelatedSessionKeyIndex]
  generalize newTaskRecord params taskId now = record
  refine ⟨?_, ?_, ?_, ?_⟩ <;> dsimp only
  · exact h.runId.set_new hfresh record
  · exact h.ownerKey.set_new hfresh record
  · exact h.parentFlowId.set_new hfresh record
  · exact h.relatedSessionKey.set_new hfresh record

theorem coherent_deleteTask (h : Coherent r) (taskId : String) :
    Coherent (deleteTaskRecordById taskId r).2 := by
  cases hc : r.tasks.get? taskId with
  | none =>
    simp only [deleteTaskRecordById, hc]
    exact h
  | some current =>
    simp only [deleteTaskRecordById, hc, deleteOwnerKeyIndex, deleteParentFlowIdIndex,
      deleteRelatedSessionKeyIndex]
    refine ⟨?_, ?_, ?_, ?_⟩ <;> dsimp only
    · exact ordered_build _ _
    · exact h.ownerKey.erase hc
    · exact h.parentFlowId.erase hc
    · exact h.relatedSessionKey.erase hc

/-! ### Every run -/

theorem coherent_write {env : ChannelEnv} {w : Write} (h : Coherent r) (hw : writeStep env w r = some r') :
    Coherent r' := by
  unfold writeStep at hw
  split at hw
  · rename_i he
    cases hw
    cases w with
    | insertTask params taskId now =>
      exact coherent_insertTask h env params (Option.isNone_iff_eq_none.mp he) now
    | updateTask taskId patch now => exact coherent_updateTask h taskId (.inl (of_decide_eq_true he)) now
    | deleteTask taskId => exact coherent_deleteTask h taskId
    | deliveryState state => exact coherent_upsertTaskDeliveryState h env state
    | _ => exact h.congr rfl rfl rfl rfl rfl
  · cases hw

theorem coherent_steps {env : ChannelEnv} (steps : List Step) (h : Coherent r)
    (hr : (registryStep env).run steps r = some r') : Coherent r' := by
  obtain ⟨ws, hws⟩ := steps_writes env steps hr
  exact (writeStep env).run_invariant (fun _ _ _ hu hw => coherent_write hu hw) ws h hws

/-! ### Reading through an index -/

theorem newestFirst_perm (l : List (TaskRecord × Nat)) : (newestFirst l).Perm (l.map Prod.fst) :=
  (perm_insertionSort _ l).map Prod.fst

theorem compareTasksNewestFirst_createdAt {a b : TaskRecord × Nat} (h : compareTasksNewestFirst a b ≤ 0) :
    b.1.createdAt ≤ a.1.createdAt := by
  unfold compareTasksNewestFirst at h
  dsimp only at h
  split at h <;> omega

theorem newestFirst_sorted (l : List (TaskRecord × Nat)) :
    (newestFirst l).Pairwise fun a b => b.createdAt ≤ a.createdAt := by
  have : Std.Total fun a b : TaskRecord × Nat => compareTasksNewestFirst a b ≤ 0 := ⟨fun a b => by
    unfold compareTasksNewestFirst
    dsimp only
    split <;> split <;> omega⟩
  have : IsTrans (TaskRecord × Nat) fun a b => compareTasksNewestFirst a b ≤ 0 := ⟨fun a b c => by
    unfold compareTasksNewestFirst
    dsimp only
    split <;> split <;> split <;> omega⟩
  exact pairwise_map.mpr
    ((pairwise_insertionSort _ l).imp fun h => compareTasksNewestFirst_createdAt h)

/-- The records of the scanned ids are the records with the key. -/
theorem scan_records (tasks : InsertionMap String TaskRecord) (keysOf : TaskRecord → List String)
    (key : String) :
    (scan tasks keysOf key).filterMap tasks.get? = tasks.values.filter fun t => key ∈ keysOf t := by
  unfold scan InsertionMap.values
  rw [filter_map, filterMap_map]
  have hget (l : List (String × TaskRecord)) (hl : ∀ p ∈ l, p ∈ tasks.entries) :
      l.filterMap (tasks.get? ∘ Prod.fst) = l.map Prod.snd := by
    induction l with
    | nil => rfl
    | cons p rest ih =>
      have hp : (tasks.get? ∘ Prod.fst) p = some p.2 :=
        (InsertionMap.get?_eq_some _ _ _).mpr (hl p mem_cons_self)
      rw [filterMap_cons_some hp, map_cons, ih fun q hq => hl q (mem_cons_of_mem _ hq)]
  exact hget _ fun p hp => mem_of_mem_filter hp

/-- The positions beside the records are forgotten. -/
theorem records_of_zipIdx (r : Registry) (ids : List String) (n : Nat) :
    ((ids.zipIdx n).filterMap fun p => (r.tasks.get? p.1).map fun task => (task, p.2)).map Prod.fst =
      ids.filterMap r.tasks.get? := by
  induction ids generalizing n with
  | nil => rfl
  | cons id rest ih =>
    rw [zipIdx_cons]
    cases hg : r.tasks.get? id with
    | none =>
      rw [filterMap_cons_none (by rw [hg]; rfl), filterMap_cons_none hg]
      exact ih _
    | some task =>
      rw [filterMap_cons_some (b := (task, n)) (by rw [hg]; rfl), filterMap_cons_some hg,
        map_cons, ih]

theorem listTasksFromIndex_perm {index : SetIndex String String} {keysOf : TaskRecord → List String}
    (h : Listed index r.tasks keysOf) (key : String) :
    (listTasksFromIndex r index key).Perm (r.tasks.values.filter fun t => key ∈ keysOf t) := by
  refine (newestFirst_perm _).trans ?_
  rw [records_of_zipIdx, ← scan_records]
  exact (h key).filterMap _

theorem getTasksByRunId_eq (h : Coherent r) (runId : String) :
    getTasksByRunId r runId = r.tasks.values.filter fun t => trim runId ∈ runIdIndexKeys t := by
  unfold getTasksByRunId
  rw [h.runId, scan_records]

/-! ### Coherent indexes -/

/-- The indexes are exactly the inverse images of the task map, and what is read
through them is what a full scan gives. -/
structure IndexCoherence (r : Registry) : Prop where
  runId : ∀ key id, id ∈ r.taskIdsByRunId.lookup key ↔
    ∃ t, r.tasks.get? id = some t ∧ trimmed? t.runId = some key
  ownerKey : ∀ key id, id ∈ r.taskIdsByOwnerKey.lookup key ↔
    ∃ t, r.tasks.get? id = some t ∧ trimmed t.ownerKey = some key
  parentFlowId : ∀ key id, id ∈ r.taskIdsByParentFlowId.lookup key ↔
    ∃ t, r.tasks.get? id = some t ∧ trimmed? t.parentFlowId = some key
  relatedSessionKey : ∀ key id, id ∈ r.taskIdsByRelatedSessionKey.lookup key ↔
    ∃ t, r.tasks.get? id = some t ∧ (trimmed t.ownerKey = some key ∨ trimmed? t.childSessionKey = some key)
  noEmptySet : ∀ index ∈ [r.taskIdsByRunId, r.taskIdsByOwnerKey, r.taskIdsByParentFlowId,
    r.taskIdsByRelatedSessionKey], ∀ key ids, index.sets.get? key = some ids → ids ≠ [] ∧ ids.Nodup
  listForOwnerKey : ∀ ownerKey key, trimmed ownerKey = some key →
    (listTasksForOwnerKey r ownerKey).Perm (r.tasks.values.filter fun t => trimmed t.ownerKey = some key)
  listForFlowId : ∀ flowId key, trimmed flowId = some key →
    (listTasksForFlowId r flowId).Perm (r.tasks.values.filter fun t => trimmed? t.parentFlowId = some key)
  listForRelatedSessionKey : ∀ sessionKey key, trimmed sessionKey = some key →
    (listTasksForRelatedSessionKey r sessionKey).Perm (r.tasks.values.filter fun t =>
      trimmed t.ownerKey = some key ∨ trimmed? t.childSessionKey = some key)
  newestFirst : ∀ key, (listTasksForOwnerKey r key).Pairwise (fun a b => b.createdAt ≤ a.createdAt) ∧
    (listTasksForFlowId r key).Pairwise (fun a b => b.createdAt ≤ a.createdAt) ∧
    (listTasksForRelatedSessionKey r key).Pairwise fun a b => b.createdAt ≤ a.createdAt
  findByRunId : ∀ runId, findTaskByRunId r runId =
    pickPreferredRunIdTask (r.tasks.values.filter fun t => trimmed? t.runId = some (trim runId))

section
variable (t : TaskRecord) (key : String)
include t key

theorem mem_runIdIndexKeys :
    key ∈ runIdIndexKeys t ↔ trimmed? t.runId = some key := Option.mem_toList

theorem mem_ownerKeyIndexKeys :
    key ∈ ownerKeyIndexKeys t ↔ trimmed t.ownerKey = some key := Option.mem_toList

theorem mem_parentFlowIdIndexKeys :
    key ∈ parentFlowIdIndexKeys t ↔ trimmed? t.parentFlowId = some key := Option.mem_toList

theorem mem_relatedSessionIndexKeys :
    key ∈ getTaskRelatedSessionIndexKeys t ↔
      trimmed t.ownerKey = some key ∨ trimmed? t.childSessionKey = some key := by
  unfold getTaskRelatedSessionIndexKeys
  rw [mem_dedup]
  simp only [mem_filterMap, mem_cons, not_mem_nil, or_false, id, exists_eq_or_imp,
    exists_eq_left, normalizeSessionIndexKey, trimmed?, Option.bind_some]

end

theorem Coherent.indexCoherence (h : Coherent r) : IndexCoherence r where
  runId key id := by simpa only [mem_runIdIndexKeys] using h.runId.listed.mem_iff key id
  ownerKey key id := by simpa only [mem_ownerKeyIndexKeys] using h.ownerKey.mem_iff key id
  parentFlowId key id := by simpa only [mem_parentFlowIdIndexKeys] using h.parentFlowId.mem_iff key id
  relatedSessionKey key id := by
    simpa only [mem_relatedSessionIndexKeys] using h.relatedSessionKey.mem_iff key id
  noEmptySet index _ key ids hs := ⟨index.inhabited key ids hs, index.distinct key ids hs⟩
  listForOwnerKey ownerKey key hk := by
    have hl := listTasksFromIndex_perm h.ownerKey key
    simp only [mem_ownerKeyIndexKeys] at hl
    simpa only [listTasksForOwnerKey, normalizeSessionIndexKey, trimmed?, Option.bind_some, hk] using hl
  listForFlowId flowId key hk := by
    have hl := listTasksFromIndex_perm h.parentFlowId key
    simp only [mem_parentFlowIdIndexKeys] at hl
    simpa only [listTasksForFlowId, hk] using hl
  listForRelatedSessionKey sessionKey key hk := by
    have hl := listTasksFromIndex_perm h.relatedSessionKey key
    simp only [mem_relatedSessionIndexKeys] at hl
    simpa only [listTasksForRelatedSessionKey, normalizeSessionIndexKey, trimmed?, Option.bind_some, hk]
      using hl
  newestFirst key := by
    refine ⟨?_, ?_, ?_⟩
    · unfold listTasksForOwnerKey
      split
      · exact List.Pairwise.nil
      · exact newestFirst_sorted _
    · unfold listTasksForFlowId
      split
      · exact List.Pairwise.nil
      · exact newestFirst_sorted _
    · unfold listTasksForRelatedSessionKey
      split
      · exact List.Pairwise.nil
      · exact newestFirst_sorted _
  findByRunId runId := by
    have hk := getTasksByRunId_eq h runId
    simp only [mem_runIdIndexKeys] at hk
    rw [findTaskByRunId, hk]

/-- Whatever was restored and whatever was called since, in any order. -/
theorem task_index_coherence (env : ChannelEnv) (tasks : InsertionMap String TaskRecord)
    (deliveryStates : InsertionMap String TaskDeliveryState) (flows : Flows) (steps : List Step)
    (r : Registry)
    (h : (registryStep env).run steps (restoreTaskRegistry tasks deliveryStates flows) = some r) :
    IndexCoherence r :=
  (coherent_steps steps (coherent_restore tasks deliveryStates flows) h).indexCoherence

/-- A task created twice under one run, linked to a flow and finished by its run,
and another one deleted. -/
def linkedRun : List Step :=
  [.call (.createFlowRecord { ownerKey := "main", goal := "g", controllerId := some "c" } "f" 1),
    .call (.createTaskRecord
      { runtime := .acp, ownerKey := some "main", childSessionKey := some "s", runId := some "r", task := "t" }
      "a" 2),
    .call (.createTaskRecord
      { runtime := .acp, ownerKey := some "main", childSessionKey := some "s", runId := some " r ",
        task := "t", label := some "l" }
      "b" 3),
    .call (.createTaskRecord { runtime := .cli, ownerKey := some "main", task := "u" } "c" 4),
    .call (.linkTaskToFlowById "a" " f " 5),
    .call (.onAgentEvent { runId := "r", stream := .lifecycle, ts := 6, phase := some .end } 6),
    .call (.deleteTaskRecordById "c")]

theorem task_index_coherence_linked :
    ∃ r, (registryStep ⟨some, id⟩).run linkedRun (restoreTaskRegistry ∅ ∅ ∅) = some r ∧
      r.tasks.keys = ["a"] ∧ r.taskIdsByParentFlowId.lookup "f" = ["a"] ∧ IndexCoherence r := by
  obtain ⟨r, hr⟩ : ∃ r, (registryStep ⟨some, id⟩).run linkedRun (restoreTaskRegistry ∅ ∅ ∅) = some r :=
    ⟨_, rfl⟩
  have hkeys : ((registryStep ⟨some, id⟩).run linkedRun (restoreTaskRegistry ∅ ∅ ∅)).map
      (fun r => (r.tasks.keys, r.taskIdsByParentFlowId.lookup "f")) = some (["a"], ["a"]) := by decide
  rw [hr] at hkeys
  obtain ⟨htasks, hflow⟩ := Prod.mk.inj (Option.some.inj hkeys)
  exact ⟨r, hr, htasks, hflow, task_index_coherence ⟨some, id⟩ ∅ ∅ ∅ linkedRun r hr⟩

end OpenClaw.Tasks
