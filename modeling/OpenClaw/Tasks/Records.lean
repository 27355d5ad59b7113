import OpenClaw.Tasks.Mirror

/-! What each writer makes of the records of the task map. -/
namespace OpenClaw.Tasks
open Foundation Foundation.EcmaString InsertionMap

theorem nextRecord_status (patch : TaskPatch) (current : TaskRecord) (now : Int) :
    (nextRecord patch current now).status = patch.status.getD current.status := by
  unfold nextRecord
  dsimp only
  split <;> rfl

theorem nextRecord_deliveryStatus (patch : TaskPatch) (current : TaskRecord) (now : Int) :
    (nextRecord patch current now).deliveryStatus = patch.deliveryStatus.getD current.deliveryStatus := by
  unfold nextRecord
  dsimp only
  split <;> rfl

/-- An update writes its own record. -/
theorem get?_updateTask (taskId : String) (patch : TaskPatch) (now : Int) (r : Registry) (id : String) :
    (updateTask taskId patch now r).2.tasks.get? id =
      if taskId = id then (r.tasks.get? id).map fun current => nextRecord patch current now
      else r.tasks.get? id := by
  cases hc : r.tasks.get? taskId with
  | none =>
    simp only [updateTask, hc]
    split
    · rename_i hid
      rw [← hid, hc]
      rfl
    · rfl
  | some current =>
    obtain ⟨flows, hf⟩ := updateTask_eq hc patch now
    rw [hf]
    show (r.tasks.set taskId _).get? id = _
    rw [get?_set]
    by_cases hid : taskId = id
    · rw [if_pos hid.symm, if_pos hid, ← hid, hc]
      rfl
    · rw [if_neg fun he => hid he.symm, if_neg hid]

theorem get?_upsertTaskDeliveryState (env : ChannelEnv) (state : TaskDeliveryState) (r : Registry) :
    (upsertTaskDeliveryState env state r).tasks = r.tasks := by
  obtain ⟨states, h⟩ := upsertTaskDeliveryState_tasks env state r
  rw [h]

theorem get?_deleteTask (taskId : String) (r : Registry) (id : String) :
    (deleteTaskRecordById taskId r).2.tasks.get? id = if id = taskId then none else r.tasks.get? id := by
  unfold deleteTaskRecordById
  cases hc : r.tasks.get? taskId with
  | none =>
    dsimp only
    by_cases hid : id = taskId
    · rw [if_pos hid, hid, hc]
    · rw [if_neg hid]
  | some current => exact get?_erase ..

theorem pickPreferredRunIdTask_mem {found : List TaskRecord} {task : TaskRecord}
    (h : pickPreferredRunIdTask found = some task) : task ∈ found :=
  (List.perm_insertionSort _ found).mem_iff.mp (List.mem_of_head? h)

theorem pickPreferredRunIdTask_isSome {found : List TaskRecord} {task : TaskRecord} (h : task ∈ found) :
    (pickPreferredRunIdTask found).isSome = true := by
  have hmem := (List.mem_insertionSort fun a b => compareRunIdTasks a b ≤ 0).mpr h
  unfold pickPreferredRunIdTask
  cases hs : found.insertionSort fun a b => compareRunIdTasks a b ≤ 0 with
  | nil =>
    rw [hs] at hmem
    cases hmem
  | cons first rest => rfl

/-- The creation merges into this record. -/
def mergesInto (params : CreateTaskParams) (r : Registry) (existing : TaskRecord) : Prop :=
  assertTaskOwner params.resolvedOwnerKey params.resolvedScopeKind = .ok () ∧
    assertParentFlowLinkAllowed r.flows params.resolvedOwnerKey params.resolvedScopeKind params.parentFlowId = .ok () ∧
      findExistingTaskForCreate r params = some existing

/-- A creation writes a record of its own, or merges into one that is there. -/
theorem get?_createTaskRecord (env : ChannelEnv) (params : CreateTaskParams) (taskId : String) (now : Int)
    (r : Registry) (id : String) :
    (createTaskRecord env params taskId now r).2.tasks.get? id = r.tasks.get? id ∨
      (taskId = id ∧ (createTaskRecord env params taskId now r).2.tasks.get? id =
        some (newTaskRecord params taskId now)) ∨
      ∃ existing, mergesInto params r existing ∧ existing.taskId = id ∧
        (createTaskRecord env params taskId now r).2.tasks.get? id =
          (r.tasks.get? id).map fun current => nextRecord (mergePatch existing params) current now := by
  unfold createTaskRecord
  split
  · exact .inl rfl
  · rename_i howner
    split
    · exact .inl rfl
    · rename_i hlink
      split
      · rename_i existing hfind
        have hstate : (mergeDeliveryState env existing params r).tasks = r.tasks := by
          unfold mergeDeliveryState
          dsimp only
          split
          · exact get?_upsertTaskDeliveryState ..
          · rfl
        unfold mergeExistingTaskForCreate
        dsimp only
        split
        · exact .inl (by rw [hstate])
        · split
          · exact .inl (by rw [hstate])
          · by_cases hid : existing.taskId = id
            · refine .inr (.inr ⟨existing, ⟨howner, hlink, hfind⟩, hid, ?_⟩)
              rw [get?_updateTask, if_pos hid, hstate]
            · refine .inl ?_
              rw [get?_updateTask, if_neg hid, hstate]
      · by_cases hid : taskId = id
        · refine .inr (.inl ⟨hid, ?_⟩)
          show ((upsertTaskDeliveryState env _ r).tasks.set taskId _).get? id = _
          rw [get?_set, if_pos hid.symm]
        · refine .inl ?_
          show ((upsertTaskDeliveryState env _ r).tasks.set taskId _).get? id = _
          rw [get?_set, if_neg fun he => hid he.symm, get?_upsertTaskDeliveryState]

/-- A record that is there after a write was there before, or was inserted, or updated. -/
theorem write_record {env : ChannelEnv} {w : Write} {r : Registry} {taskId : String} {task : TaskRecord}
    (h : (w.apply env r).tasks.get? taskId = some task) :
    r.tasks.get? taskId = some task ∨
      (∃ params now, w = .insertTask params taskId now ∧ task = newTaskRecord params taskId now) ∨
      ∃ patch now current, w = .updateTask taskId patch now ∧ r.tasks.get? taskId = some current ∧
        task = nextRecord patch current now := by
  cases w with
  | insertTask params id now =>
    have hget : ((upsertTaskDeliveryState env _ r).tasks.set id _).get? taskId = some task := h
    rw [get?_set, get?_upsertTaskDeliveryState] at hget
    split at hget
    · rename_i hid
      subst hid
      cases hget
      exact .inr (.inl ⟨params, now, rfl, rfl⟩)
    · exact .inl hget
  | updateTask id patch now =>
    have hget : (updateTask id patch now r).2.tasks.get? taskId = some task := h
    rw [get?_updateTask] at hget
    split at hget
    · rename_i hid
      subst hid
      obtain ⟨current, hcurrent, rfl⟩ := Option.map_eq_some_iff.mp hget
      exact .inr (.inr ⟨patch, now, current, rfl, hcurrent, rfl⟩)
    · exact .inl hget
  | deleteTask id =>
    have hget : (deleteTaskRecordById id r).2.tasks.get? taskId = some task := h
    rw [get?_deleteTask] at hget
    split at hget
    · cases hget
    · exact .inl hget
  | deliveryState state =>
    have hget : (upsertTaskDeliveryState env state r).tasks.get? taskId = some task := h
    rw [get?_upsertTaskDeliveryState] at hget
    exact .inl hget
  | _ => exact .inl h

/-! ### Records are stored under their ids -/

theorem keyed_updateTask {r : Registry} (h : TasksKeyed r) (taskId : String) (patch : TaskPatch) (now : Int) :
    TasksKeyed (updateTask taskId patch now r).2 := by
  intro k task ht
  rw [get?_updateTask] at ht
  split at ht
  · obtain ⟨current, hc, rfl⟩ := Option.map_eq_some_iff.mp ht
    exact (nextRecord_taskId ..).trans (h k current hc)
  · exact h k task ht

theorem keyed_deleteTask {r : Registry} (h : TasksKeyed r) (taskId : String) :
    TasksKeyed (deleteTaskRecordById taskId r).2 := by
  intro k task ht
  rw [get?_deleteTask] at ht
  split at ht
  · cases ht
  · exact h k task ht

theorem keyed_createTaskRecord {r : Registry} (hk : TasksKeyed r) (env : ChannelEnv) (params : CreateTaskParams)
    (taskId : String) (now : Int) : TasksKeyed (createTaskRecord env params taskId now r).2 := by
  intro k task ht
  rcases get?_createTaskRecord env params taskId now r k with hsame | ⟨rfl, hinsert⟩ | ⟨existing, -, rfl, hmerge⟩
  · exact hk k task (hsame ▸ ht)
  · rw [hinsert] at ht
    cases ht
    rfl
  · rw [hmerge] at ht
    obtain ⟨current, hc, rfl⟩ := Option.map_eq_some_iff.mp ht
    exact (nextRecord_taskId ..).trans (hk _ current hc)

theorem keyed_write {env : ChannelEnv} {w : Write} {r : Registry} (h : TasksKeyed r) :
    TasksKeyed (w.apply env r) := by
  intro taskId task ht
  rcases write_record ht with hold | ⟨params, now, -, rfl⟩ | ⟨patch, now, current, -, hcurrent, rfl⟩
  · exact h taskId task hold
  · rfl
  · exact (nextRecord_taskId ..).trans (h taskId current hcurrent)

end OpenClaw.Tasks
