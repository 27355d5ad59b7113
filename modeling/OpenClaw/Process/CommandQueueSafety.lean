import OpenClaw.Process.CommandQueueRun

/-! Safety of the lanes: where an accepted entry is, and when a task starts. -/
namespace OpenClaw.Process.CommandQueue
open Foundation List

variable {ε β : Type*} {e : Event ε β}

/-! ### Entries -/

/-- Entries are numbered in the order they are accepted. What a lane has started,
followed by what it still queues, is what it accepted in that order less what was
cleared. -/
structure Placed (s : State ε β) : Prop where
  numbered : s.accepted.map Prod.snd = List.range s.accepted.length
  fifo : ∀ lane, (s.acceptedIn lane).filter (· ∉ s.clearedIn lane) = s.startedIn lane ++ s.queuedIn lane
  kept : ∀ lane, (s.acceptedIn lane).Perm (s.clearedIn lane ++ (s.startedIn lane ++ s.queuedIn lane))

variable {s s' r : State ε β} {lane : String} {t : Task} {below : List (Frame ε β)}

theorem Placed.congr (h : Placed s) (ha : s'.accepted = s.accepted) (hc : s'.cleared = s.cleared)
    (hst : s'.started = s.started) (hq : ∀ lane, (s'.getLaneState lane).queue = (s.getLaneState lane).queue) :
    Placed s' := by
  have hacc (lane : String) : s'.acceptedIn lane = s.acceptedIn lane := by
    simp only [State.acceptedIn, ha]
  have hcl (lane : String) : s'.clearedIn lane = s.clearedIn lane := by
    simp only [State.clearedIn, hc]
  have hs (lane : String) : s'.startedIn lane = s.startedIn lane := by
    simp only [State.startedIn, hst]
  have hqu (lane : String) : s'.queuedIn lane = s.queuedIn lane := by
    simp only [State.queuedIn, hq]
  refine ⟨by rw [ha]; exact h.numbered, fun lane => ?_, fun lane => ?_⟩
  · rw [hacc, hcl, hs, hqu]
    exact h.fifo lane
  · rw [hacc, hcl, hs, hqu]
    exact h.kept lane

theorem Placed.accepted_nodup (h : Placed s) (lane : String) :
    (s.acceptedIn lane).Nodup := by
  have hall : (s.accepted.map Prod.snd).Nodup := h.numbered ▸ nodup_range
  exact hall.sublist (filter_sublist.map Prod.snd)

theorem Placed.accepted_lt (h : Placed s) {n : Nat} (hn : n ∈ s.acceptedIn lane) : n < s.accepted.length := by
  obtain ⟨p, hp, rfl⟩ := mem_map.mp hn
  have : p.2 ∈ s.accepted.map Prod.snd := mem_map_of_mem (mem_of_mem_filter hp)
  rw [h.numbered] at this
  exact mem_range.mp this

theorem acceptedIn_snoc {n : Nat} (h : s'.accepted = s.accepted ++ [(lane, n)]) (lane' : String) :
    s'.acceptedIn lane' = if lane' = lane then s.acceptedIn lane' ++ [n] else s.acceptedIn lane' := by
  unfold State.acceptedIn
  rw [h, filter_append]
  by_cases he : lane' = lane
  · simp [he]
  · simp [he, Ne.symm he]

theorem startedIn_snoc (h : s'.started = s.started ++ [t]) (lane' : String) :
    s'.startedIn lane' = if lane' = t.lane then s.startedIn lane' ++ [t.entry] else s.startedIn lane' := by
  unfold State.startedIn
  rw [h, filter_append]
  by_cases he : lane' = t.lane
  · simp [he]
  · simp [he, Ne.symm he]

theorem clearedIn_append {ids : List Nat} (h : s'.cleared = s.cleared ++ ids.map fun n => (lane, n))
    (lane' : String) :
    s'.clearedIn lane' = if lane' = lane then s.clearedIn lane' ++ ids else s.clearedIn lane' := by
  unfold State.clearedIn
  rw [h, filter_append, filter_map]
  by_cases he : lane' = lane
  · simp [he, Function.comp_def]
  · simp [he, Ne.symm he, Function.comp_def]

/-- Only one lane's entries move. -/
theorem Placed.update (h : Placed s) (lane : String) (hn : s'.accepted.map Prod.snd = List.range s'.accepted.length)
    (hother : ∀ lane', lane' ≠ lane → s'.acceptedIn lane' = s.acceptedIn lane' ∧ s'.clearedIn lane' = s.clearedIn lane' ∧ s'.startedIn lane' = s.startedIn lane' ∧ s'.queuedIn lane' = s.queuedIn lane')
    (hf : (s'.acceptedIn lane).filter (· ∉ s'.clearedIn lane) = s'.startedIn lane ++ s'.queuedIn lane)
    (hk : (s'.acceptedIn lane).Perm (s'.clearedIn lane ++ (s'.startedIn lane ++ s'.queuedIn lane))) :
    Placed s' := by
  refine ⟨hn, fun lane' => ?_, fun lane' => ?_⟩
  · by_cases he : lane' = lane
    · exact he ▸ hf
    · obtain ⟨ha, hc, hs, hq⟩ := hother lane' he
      rw [ha, hc, hs, hq]
      exact h.fifo lane'
  · by_cases he : lane' = lane
    · exact he ▸ hk
    · obtain ⟨ha, hc, hs, hq⟩ := hother lane' he
      rw [ha, hc, hs, hq]
      exact h.kept lane'

/-- The new entry is the last its lane accepted and the last it queues. -/
theorem placed_enqueue (h : Placed s) (lane : String) (warnAfterMs : Option Int) (now : Int) :
    Placed (enqueueCommandInLane lane warnAfterMs now s).2 := by
  unfold enqueueCommandInLane
  split
  · exact h
  · dsimp only
    generalize hs' : State.push _ _ = s'
    have hacc : s'.accepted = s.accepted ++ [(normalizeLane lane, s.accepted.length)] := by rw [← hs']; rfl
    have hcl (lane' : String) : s'.clearedIn lane' = s.clearedIn lane' := by rw [← hs']; rfl
    have hst (lane' : String) : s'.startedIn lane' = s.startedIn lane' := by rw [← hs']; rfl
    have hqu (lane' : String) : s'.queuedIn lane' =
        if lane' = normalizeLane lane then s.queuedIn lane' ++ [s.accepted.length] else s.queuedIn lane' := by
      rw [← hs']
      show ((State.setLaneState _ _ _).getLaneState lane').queue.map QueueEntry.id = _
      rw [State.getLaneState_setLaneState]
      split
      · rename_i he
        simp [State.queuedIn, he]
      · rfl
    have hnew : s.accepted.length ∉ s.clearedIn (normalizeLane lane) := fun hm =>
      absurd (h.accepted_lt ((h.kept _).mem_iff.mpr (mem_append_left _ hm))) (Nat.lt_irrefl _)
    refine h.update (normalizeLane lane) ?_ (fun lane' he => ?_) ?_ ?_
    · simp [hacc, h.numbered, range_succ]
    · rw [acceptedIn_snoc hacc, hqu, if_neg he, if_neg he]
      exact ⟨rfl, hcl lane', hst lane', rfl⟩
    · rw [acceptedIn_snoc hacc, hqu, if_pos rfl, if_pos rfl, hcl, hst, filter_append, h.fifo,
        append_assoc]
      simp [hnew]
    · rw [acceptedIn_snoc hacc, hqu, if_pos rfl, if_pos rfl, hcl, hst]
      simpa only [append_assoc] using (h.kept _).append_right [s.accepted.length]

/-- The head of the queue is the next its lane starts. -/
theorem placed_start (h : Placed s) {entry : QueueEntry} {rest : List QueueEntry}
    (hq : (s.getLaneState lane).queue = entry :: rest) (now : Int) :
    Placed (startEntry lane (s.getLaneState lane) entry rest now s) := by
  generalize hs' : startEntry lane (s.getLaneState lane) entry rest now s = s'
  have hacc (lane' : String) : s'.acceptedIn lane' = s.acceptedIn lane' := by rw [← hs']; rfl
  have hcl (lane' : String) : s'.clearedIn lane' = s.clearedIn lane' := by rw [← hs']; rfl
  have hst : s'.started = s.started ++
      [⟨entry.id, lane, s.nextTaskId, (s.getLaneState lane).generation⟩] := by rw [← hs']; rfl
  have hqu (lane' : String) :
      s'.queuedIn lane' = if lane' = lane then rest.map QueueEntry.id else s.queuedIn lane' := by
    rw [← hs']
    show ((State.setLaneState _ _ _).getLaneState lane').queue.map QueueEntry.id = _
    rw [State.getLaneState_setLaneState]
    split <;> rfl
  have hold : s.queuedIn lane = entry.id :: rest.map QueueEntry.id := by simp [State.queuedIn, hq]
  refine h.update lane (by rw [← hs']; exact h.numbered) (fun lane' he => ?_) ?_ ?_
  · rw [startedIn_snoc hst, hqu, if_neg he, if_neg he]
    exact ⟨hacc lane', hcl lane', rfl, rfl⟩
  · rw [startedIn_snoc hst, hqu, if_pos rfl, if_pos rfl, hacc, hcl, h.fifo, hold]
    simp
  · rw [startedIn_snoc hst, hqu, if_pos rfl, if_pos rfl, hacc, hcl]
    simpa [hold] using h.kept lane

/-- Clearing a lane leaves its started entries and nothing of its queue. -/
theorem placed_clear (h : Placed s) (lane : String) :
    Placed (clearCommandLane lane s).2 := by
  cases hl : s.lanes.get? (normalizeLane lane) with
  | none =>
    rw [clearCommandLane_none hl]
    exact h
  | some l =>
    rw [clearCommandLane_some hl]
    generalize hs' : State.mk _ _ _ _ _ _ _ _ _ _ _ _ _ _ = s'
    have hqueue : s.queuedIn (normalizeLane lane) = l.queue.map QueueEntry.id := by
      rw [State.queuedIn, getLaneState_of_some hl]
    have hacc (lane' : String) : s'.acceptedIn lane' = s.acceptedIn lane' := by rw [← hs']; rfl
    have hst (lane' : String) : s'.startedIn lane' = s.startedIn lane' := by rw [← hs']; rfl
    have hcl : s'.cleared = s.cleared ++ (l.queue.map QueueEntry.id).map fun n => (normalizeLane lane, n) := by
      rw [← hs', map_map]
      rfl
    have hqu (lane' : String) :
        s'.queuedIn lane' = if lane' = normalizeLane lane then [] else s.queuedIn lane' := by
      rw [← hs']
      show ((State.setLaneState _ _ _).getLaneState lane').queue.map QueueEntry.id = _
      rw [State.getLaneState_setLaneState]
      split <;> rfl
    have hnodup := (h.kept (normalizeLane lane)).nodup_iff.mp (h.accepted_nodup _)
    refine h.update (normalizeLane lane) (by rw [← hs']; exact h.numbered) (fun lane' he => ?_) ?_ ?_
    · rw [clearedIn_append hcl, hqu, if_neg he, if_neg he]
      exact ⟨hacc lane', rfl, hst lane', rfl⟩
    · rw [clearedIn_append hcl, hqu, if_pos rfl, if_pos rfl, hacc, hst, ← hqueue, append_nil]
      have hsplit : (s.acceptedIn (normalizeLane lane)).filter
            (· ∉ s.clearedIn (normalizeLane lane) ++ s.queuedIn (normalizeLane lane)) =
          ((s.acceptedIn (normalizeLane lane)).filter (· ∉ s.clearedIn (normalizeLane lane))).filter
            (· ∉ s.queuedIn (normalizeLane lane)) := by
        rw [filter_filter]
        apply filter_congr
        intro n _
        by_cases h1 : n ∈ s.clearedIn (normalizeLane lane) <;>
          by_cases h2 : n ∈ s.queuedIn (normalizeLane lane) <;> simp [h1, h2]
      have hdisj := (nodup_append.mp (nodup_append.mp hnodup).2.1).2.2
      rw [hsplit, h.fifo, filter_append, filter_eq_self.mpr, filter_eq_nil_iff.mpr,
        append_nil]
      · intro n hn
        simpa using hn
      · intro n hn
        simpa using fun hq => hdisj n hn n hq rfl
    · rw [clearedIn_append hcl, hqu, if_pos rfl, if_pos rfl, hacc, hst, ← hqueue, append_nil,
        append_assoc]
      exact (h.kept _).trans (perm_append_comm.append_left _)

theorem resetAllLanes_queue (s : State ε β) (lane : String) :
    ((resetAllLanes s).getLaneState lane).queue = (s.getLaneState lane).queue := by
  rw [resetAllLanes_lane]
  split
  · rename_i h
    rw [getLaneState_of_none h]
  · rfl

theorem finishTask_queue (t : Task) (result : Except ε β) (below : List (Frame ε β)) (s : State ε β)
    (lane : String) :
    ((finishTask t result below s).getLaneState lane).queue = (s.getLaneState lane).queue := by
  by_cases hg : t.taskGeneration = (s.getLaneState t.lane).generation
  · exact queue_of_set s t.lane (finishTask_lanes hg result below) rfl lane
  · rw [finishTask_stale hg]
    rfl

theorem finishTask_entries (t : Task) (result : Except ε β) (below : List (Frame ε β)) (s : State ε β) :
    (finishTask t result below s).accepted = s.accepted ∧
      (finishTask t result below s).cleared = s.cleared ∧
      (finishTask t result below s).started = s.started := by
  by_cases hg : t.taskGeneration = (s.getLaneState t.lane).generation
  · rw [finishTask_current hg]
    exact ⟨rfl, rfl, rfl⟩
  · rw [finishTask_stale hg]
    exact ⟨rfl, rfl, rfl⟩

theorem Placed.finish (h : Placed s) (t : Task) (result : Except ε β) (below : List (Frame ε β)) :
    Placed (finishTask t result below s) :=
  have he := finishTask_entries t result below s
  h.congr he.1 he.2.1 he.2.2 (finishTask_queue t result below s)

theorem placed_call (h : Placed s) (op : Op) : Placed (op.apply s) := by
  cases op with
  | enqueueCommandInLane lane warnAfterMs now => exact placed_enqueue h lane warnAfterMs now
  | setCommandLaneConcurrency lane n =>
    exact h.congr rfl rfl rfl (queue_of_set s (normalizeLane lane) rfl rfl)
  | clearCommandLane lane => exact placed_clear h lane
  | resetAllLanes => exact h.congr rfl rfl rfl (resetAllLanes_queue s)
  | markGatewayDraining => exact h.congr rfl rfl rfl fun _ => rfl
  | waitForActiveTasks timeoutMs =>
    show Placed (waitForActiveTasks timeoutMs s)
    unfold waitForActiveTasks
    dsimp only
    split
    · exact h.congr rfl rfl rfl fun _ => rfl
    · split <;> exact h.congr rfl rfl rfl fun _ => rfl

theorem placed_action (h : Placed s) (ha : Action s e s') : Placed s' := by
  cases ha with
  | @drain lane below now hs =>
    unfold drainLane
    dsimp only
    split
    · exact h.congr rfl rfl rfl fun _ => rfl
    · exact h.congr rfl rfl rfl (queue_of_set s lane rfl rfl)
  | start _ hq _ => exact placed_start h hq _
  | @stop lane below now _ _ => exact h.congr rfl rfl rfl (queue_of_set s lane rfl rfl)
  | call _ => exact placed_call h _
  | throw error _ => exact h.finish _ _ _
  | @complete t taskId result _ _ =>
    have hr : Placed {s with running := s.running.erase t} := h.congr rfl rfl rfl fun _ => rfl
    exact hr.finish t result []
  | _ => exact h.congr rfl rfl rfl fun _ => rfl

/-! ### Tasks -/

/-- Every started task is in flight, or its entry is about to be settled, or is
settled, and only once; an entry is settled with the outcome of its own task. -/
structure Accounted (s : State ε β) : Prop where
  tasks : s.started.Perm (s.inFlight ++ (s.settling ++ s.settled).map Prod.fst)
  own : s.finished.Perm (s.settling ++ s.settled)

/-- The tasks' whereabouts are untouched. -/
theorem Accounted.congr (h : Accounted s) (hst : s'.started = s.started) (hr : s'.running = s.running)
    (ht : stackTasks s'.stack = stackTasks s.stack) (hg : stackSettling s'.stack = stackSettling s.stack)
    (hf : s'.finished = s.finished) (hd : s'.settled = s.settled) : Accounted s' := by
  have hin : s'.inFlight = s.inFlight := by simp only [State.inFlight, hr, ht]
  have hse : s'.settling = s.settling := by simp only [State.settling, hg]
  exact ⟨by rw [hst, hin, hse, hd]; exact h.tasks, by rw [hf, hse, hd]; exact h.own⟩

section
variable (h : Accounted s) (hin : s.inFlight.Perm (t :: (r.running ++ stackTasks below)))
  (hst : r.started = s.started) (hg : stackSettling below = s.settling) (hf : r.finished = s.finished)
  (hd : r.settled = s.settled) (result : Except ε β)
include h hin hst hg hf hd result

/-- A task leaves the flight for the settling calls. -/
theorem accounted_recordEnd : Accounted (recordEnd t result below r) := by
  have hse : (recordEnd t result below r).settling = (t, result) :: s.settling := by
    simp [recordEnd, State.settling, hg]
  refine ⟨?_, ?_⟩
  · rw [hse]
    show r.started.Perm ((r.running ++ stackTasks (.settle t result :: below)) ++ _)
    rw [hst, stackTasks_settle]
    refine h.tasks.trans ((hin.append_right _).trans ?_)
    rw [show (recordEnd t result below r).settled = s.settled from hd]
    exact perm_middle.symm
  · rw [hse]
    show (r.finished ++ [(t, result)]).Perm _
    rw [hf, show (recordEnd t result below r).settled = s.settled from hd]
    exact perm_append_comm.trans (h.own.cons _)

theorem Accounted.finish : Accounted (finishTask t result below r) := by
  have hrec := accounted_recordEnd h hin hst hg hf hd result
  by_cases hc : t.taskGeneration = (r.getLaneState t.lane).generation
  · rw [finishTask_current hc]
    exact hrec.congr rfl rfl rfl rfl rfl rfl
  · rw [finishTask_stale hc]
    exact hrec

end

theorem inFlight_throw (hs : s.stack = .task t :: below) : s.inFlight.Perm (t :: (s.running ++ stackTasks below)) := by
  unfold State.inFlight
  rw [hs, stackTasks_task]
  exact perm_middle

theorem inFlight_complete (hs : s.stack = []) (ht : t ∈ s.running) :
    s.inFlight.Perm (t :: (s.running.erase t ++ stackTasks ([] : List (Frame ε β)))) := by
  unfold State.inFlight
  rw [hs, stackTasks_nil, append_nil, append_nil]
  exact perm_cons_erase ht

/-- A frame that is no task leaves the stack and every task stays. -/
theorem inFlight_pop {f : Frame ε β} (hs : s.stack = f :: below) (hf : f.task? = none) :
    s.inFlight = s.running ++ stackTasks below := by
  unfold State.inFlight stackTasks
  rw [hs, filterMap_cons_none hf]

/-- An operation neither starts nor ends a task, and settles none. -/
theorem apply_tasks (op : Op) (s : State ε β) :
    (op.apply s).started = s.started ∧ (op.apply s).finished = s.finished ∧
      (op.apply s).running = s.running ∧ (op.apply s).nextTaskId = s.nextTaskId ∧
      (op.apply s).settled = s.settled ∧ stackTasks (op.apply s).stack = stackTasks s.stack ∧
      stackSettling (op.apply s).stack = stackSettling s.stack := by
  cases op with
  | enqueueCommandInLane lane warnAfterMs now =>
    simp only [Op.apply, enqueueCommandInLane]
    split <;> exact ⟨rfl, rfl, rfl, rfl, rfl, rfl, rfl⟩
  | clearCommandLane lane =>
    simp only [Op.apply, clearCommandLane]
    split <;> exact ⟨rfl, rfl, rfl, rfl, rfl, rfl, rfl⟩
  | waitForActiveTasks timeoutMs =>
    simp only [Op.apply, waitForActiveTasks]
    split
    · exact ⟨rfl, rfl, rfl, rfl, rfl, rfl, rfl⟩
    · split <;> exact ⟨rfl, rfl, rfl, rfl, rfl, rfl, rfl⟩
  | resetAllLanes => exact ⟨rfl, rfl, rfl, rfl, rfl, stackTasks_drains _ _, stackSettling_drains _ _⟩
  | _ => exact ⟨rfl, rfl, rfl, rfl, rfl, rfl, rfl⟩

theorem accounted_action (h : Accounted s) (ha : Action s e s') : Accounted s' := by
  cases ha with
  | @drain lane below now hs =>
    unfold drainLane
    dsimp only
    split
    · exact h.congr rfl rfl (by rw [hs]; rfl) (by rw [hs]; rfl) rfl rfl
    · exact h.congr rfl rfl (by rw [hs]; rfl) (by rw [hs]; rfl) rfl rfl
  | @start lane below entry rest now hs hq hlt =>
    refine ⟨?_, h.own⟩
    show (s.started ++ [_]).Perm ((s.running ++ stackTasks (.task _ :: s.stack)) ++ _)
    rw [stackTasks_task]
    refine perm_append_comm.trans ((h.tasks.cons _).trans ?_)
    rw [← cons_append]
    exact List.Perm.append_right _ perm_middle.symm
  | @stop lane below now hs _ => exact h.congr rfl rfl (by rw [hs]; rfl) (by rw [hs]; rfl) rfl rfl
  | @settle t result below now hs =>
    have hin : State.inFlight {s with stack := below, settled := s.settled ++ [(t, result)]} = s.inFlight := by
      simp [State.inFlight, hs]
    have hse : (s.settling ++ s.settled).Perm (stackSettling below ++ (s.settled ++ [(t, result)])) := by
      unfold State.settling
      rw [hs, stackSettling_settle, ← append_assoc, cons_append]
      exact (perm_append_comm : ([(t, result)] ++ _).Perm _)
    refine ⟨?_, h.own.trans hse⟩
    rw [hin]
    exact h.tasks.trans ((hse.map Prod.fst).append_left _)
  | @notify below now hs => exact h.congr rfl rfl (by rw [hs]; rfl) (by rw [hs]; rfl) rfl rfl
  | @call op _ =>
    obtain ⟨hst, hf, hr, -, hd, ht, hg⟩ := apply_tasks op s
    exact h.congr hst hr ht hg hf hd
  | @suspend t below hs =>
    have hse : State.settling {s with stack := below, running := s.running ++ [t]} = s.settling := by
      simp [State.settling, hs]
    refine ⟨?_, by rw [hse]; exact h.own⟩
    rw [hse]
    refine h.tasks.trans (List.Perm.append_right _ ?_)
    show s.inFlight.Perm ((s.running ++ [t]) ++ stackTasks below)
    rw [append_assoc]
    exact (inFlight_throw hs).trans perm_middle.symm
  | @throw t below error hs =>
    exact h.finish (inFlight_throw hs) rfl (by rw [State.settling, hs]; rfl) rfl rfl _
  | @complete t taskId result hs ht =>
    exact h.finish (r := {s with running := s.running.erase t}) (inFlight_complete hs (mem_of_find?_eq_some ht)) rfl
      (by rw [State.settling, hs]) rfl rfl _
  | timeout => exact h.congr rfl rfl rfl rfl rfl rfl

/-! ### How a step moves the tasks -/

/-- A lane update that keeps the active tasks and the generation. -/
theorem counts_of_set (s : State ε β) (lane : String) {l : LaneState} (h : s'.lanes = s.lanes.set lane l)
    (ha : l.activeTaskIds = (s.getLaneState lane).activeTaskIds)
    (hg : l.generation = (s.getLaneState lane).generation) (lane' : String) :
    (s'.getLaneState lane').activeTaskIds = (s.getLaneState lane').activeTaskIds ∧
      (s'.getLaneState lane').generation = (s.getLaneState lane').generation := by
  rw [getLaneState_of_set h]
  split
  · rename_i he
    rw [he]
    exact ⟨ha, hg⟩
  · exact ⟨rfl, rfl⟩

/-- The tasks in flight stay, and each lane counts the same ones. -/
structure Quiet (s s' : State ε β) : Prop where
  flight : s'.inFlight.Perm s.inFlight
  started : s'.started = s.started
  nextTaskId : s'.nextTaskId = s.nextTaskId
  counts : ∀ lane, (s'.getLaneState lane).activeTaskIds = (s.getLaneState lane).activeTaskIds ∧
    (s'.getLaneState lane).generation = (s.getLaneState lane).generation

/-- Only a reset changes what a lane counts. -/
theorem apply_quiet {op : Op} (h : op ≠ .resetAllLanes) (s : State ε β) : Quiet s (op.apply s) := by
  obtain ⟨hst, -, hr, hn, -, ht, -⟩ := apply_tasks op s
  refine ⟨by rw [State.inFlight, hr, ht]; exact .refl _, hst, hn, ?_⟩
  cases op with
  | enqueueCommandInLane lane warnAfterMs now =>
    simp only [Op.apply, enqueueCommandInLane]
    split
    · exact fun _ => ⟨rfl, rfl⟩
    · exact counts_of_set s (normalizeLane lane) rfl rfl rfl
  | setCommandLaneConcurrency lane n => exact counts_of_set s (normalizeLane lane) rfl rfl rfl
  | clearCommandLane lane =>
    simp only [Op.apply]
    cases hl : s.lanes.get? (normalizeLane lane) with
    | none => rw [clearCommandLane_none hl]; exact fun _ => ⟨rfl, rfl⟩
    | some l =>
      rw [clearCommandLane_some hl, ← getLaneState_of_some hl]
      exact counts_of_set s (normalizeLane lane) rfl rfl rfl
  | resetAllLanes => exact absurd rfl h
  | markGatewayDraining => exact fun _ => ⟨rfl, rfl⟩
  | waitForActiveTasks timeoutMs =>
    simp only [Op.apply, waitForActiveTasks]
    split
    · exact fun _ => ⟨rfl, rfl⟩
    · split <;> exact fun _ => ⟨rfl, rfl⟩

/-- How a step moves the tasks. -/
inductive TaskMove (s : State ε β) : State ε β → Prop
  | quiet {s' : State ε β} : Quiet s s' → TaskMove s s'
  | starts {lane : String} {entry rest} (now : Int) : (s.getLaneState lane).queue = entry :: rest →
      (s.getLaneState lane).activeTaskIds.length < (s.getLaneState lane).maxConcurrent →
      TaskMove s (startEntry lane (s.getLaneState lane) entry rest now s)
  | reset : TaskMove s (resetAllLanes s)
  | ends {t : Task} {below : List (Frame ε β)} {r : State ε β} (result : Except ε β) :
      s.inFlight.Perm (t :: (r.running ++ stackTasks below)) → r.started = s.started →
      r.nextTaskId = s.nextTaskId → r.lanes = s.lanes → TaskMove s (finishTask t result below r)

theorem action_move (ha : Action s e s') : TaskMove s s' := by
  cases ha with
  | @drain lane below now hs =>
    unfold drainLane
    dsimp only
    split
    · exact .quiet ⟨.of_eq (inFlight_pop hs rfl).symm, rfl, rfl, fun _ => ⟨rfl, rfl⟩⟩
    · exact .quiet ⟨.of_eq (inFlight_pop hs rfl).symm, rfl, rfl, counts_of_set s lane rfl rfl rfl⟩
  | start _ hq hlt => exact .starts _ hq hlt
  | @stop lane below now hs _ =>
    exact .quiet ⟨.of_eq (inFlight_pop hs rfl).symm, rfl, rfl, counts_of_set s lane rfl rfl rfl⟩
  | settle hs | notify hs => exact .quiet ⟨.of_eq (inFlight_pop hs rfl).symm, rfl, rfl, fun _ => ⟨rfl, rfl⟩⟩
  | @call op _ =>
    by_cases hreset : op = .resetAllLanes
    · subst hreset
      exact .reset
    · exact .quiet (apply_quiet hreset s)
  | @suspend t below hs =>
    refine .quiet ⟨?_, rfl, rfl, fun _ => ⟨rfl, rfl⟩⟩
    show ((s.running ++ [t]) ++ stackTasks below).Perm s.inFlight
    rw [append_assoc]
    exact perm_middle.trans (inFlight_throw hs).symm
  | throw error hs => exact .ends _ (inFlight_throw hs) rfl rfl rfl
  | @complete t taskId result hs ht =>
    exact .ends (r := {s with running := s.running.erase t}) _ (inFlight_complete hs (mem_of_find?_eq_some ht))
      rfl rfl rfl
  | timeout => exact .quiet ⟨.refl _, rfl, rfl, fun _ => ⟨rfl, rfl⟩⟩

/-! ### Active tasks -/

/-- A lane counts as active exactly the tasks of its current generation that have
not ended. Task ids are never reused, and no task is newer than its lane. -/
structure Counted (s : State ε β) : Prop where
  active : ∀ lane, (s.getLaneState lane).activeTaskIds.Perm ((s.current lane).map Task.taskId)
  fresh : ∀ t ∈ s.started, t.taskId < s.nextTaskId
  distinct : (s.started.map Task.taskId).Nodup
  generation : ∀ t ∈ s.inFlight, t.taskGeneration ≤ (s.getLaneState t.lane).generation

theorem Counted.congr (h : Counted s) (hq : Quiet s s') : Counted s' := by
  refine ⟨fun lane => ?_, ?_, hq.started ▸ h.distinct, fun t ht => ?_⟩
  · rw [(hq.counts lane).1]
    refine (h.active lane).trans (List.Perm.map _ ?_)
    unfold State.current
    rw [(hq.counts lane).2]
    exact (hq.flight.filter _).symm
  · rw [hq.started, hq.nextTaskId]
    exact h.fresh
  · rw [(hq.counts t.lane).2]
    exact h.generation t (hq.flight.mem_iff.mp ht)

theorem counted_start (h : Counted s) {entry : QueueEntry} {rest : List QueueEntry} (now : Int) :
    Counted (startEntry lane (s.getLaneState lane) entry rest now s) := by
  let t : Task := ⟨entry.id, lane, s.nextTaskId, (s.getLaneState lane).generation⟩
  generalize hs' : startEntry lane (s.getLaneState lane) entry rest now s = s'
  have hlanes : s'.lanes = s.lanes.set lane {s.getLaneState lane with
      queue := rest, activeTaskIds := (s.getLaneState lane).activeTaskIds ++ [s.nextTaskId]} := by
    rw [← hs']
    rfl
  have hgen (lane' : String) :
      (s'.getLaneState lane').generation = (s.getLaneState lane').generation := by
    rw [getLaneState_of_set hlanes]
    split
    · rename_i he
      rw [he]
    · rfl
  have hin : s'.inFlight.Perm (t :: s.inFlight) := by
    rw [← hs']
    show (s.running ++ (t :: stackTasks s.stack)).Perm (t :: (s.running ++ stackTasks s.stack))
    exact perm_middle
  have hst : s'.started = s.started ++ [t] := by rw [← hs']; rfl
  have hnext : s'.nextTaskId = s.nextTaskId + 1 := by rw [← hs']; rfl
  have hold (u : Task) (hu : u ∈ s.started) : u.taskId ≠ t.taskId := Nat.ne_of_lt (h.fresh u hu)
  refine ⟨fun lane' => ?_, fun u hu => ?_, ?_, fun u hu => ?_⟩
  · have hcur : (s'.current lane').Perm
        (if lane' = lane then t :: s.current lane' else s.current lane') := by
      unfold State.current
      rw [hgen]
      refine (hin.filter _).trans ?_
      by_cases he : lane' = lane
      · subst he
        simp [t]
      · simp [t, he, Ne.symm he]
    rw [getLaneState_of_set hlanes]
    by_cases he : lane' = lane
    · subst he
      rw [if_pos rfl] at hcur ⊢
      refine List.Perm.trans ?_ (hcur.map Task.taskId).symm
      exact perm_append_comm.trans ((h.active lane').cons _)
    · rw [if_neg he] at hcur ⊢
      exact (h.active lane').trans (hcur.map Task.taskId).symm
  · rw [hst, mem_append, mem_singleton] at hu
    rw [hnext]
    rcases hu with hu | rfl
    · exact Nat.lt_succ_of_lt (h.fresh u hu)
    · exact Nat.lt_succ_self _
  · rw [hst, map_append, nodup_append]
    refine ⟨h.distinct, nodup_singleton _, fun a ha b hb => ?_⟩
    obtain ⟨u, hu, rfl⟩ := mem_map.mp ha
    rw [mem_singleton.mp hb]
    exact hold u hu
  · rw [hgen]
    rcases mem_cons.mp (hin.mem_iff.mp hu) with rfl | hu
    · exact Nat.le_refl _
    · exact h.generation u hu

/-- A reset leaves no task of the new generation. -/
theorem counted_reset (h : Counted s) : Counted (resetAllLanes s) := by
  have hin := resetAllLanes_inFlight s
  refine ⟨fun lane => ?_, h.fresh, h.distinct, fun t ht => ?_⟩
  · unfold State.current
    rw [hin, resetAllLanes_lane]
    split
    · rename_i hl
      have := h.active lane
      unfold State.current at this
      rw [getLaneState_of_none hl] at this
      exact this
    · have hnil : s.inFlight.filter (fun t => t.lane = lane ∧
          t.taskGeneration = (resetLane (s.getLaneState lane)).generation) = [] := by
        rw [filter_eq_nil_iff]
        intro t ht
        have hle := h.generation t ht
        simp only [decide_eq_true_eq, not_and]
        rintro rfl
        simp only [resetLane]
        omega
      rw [hnil]
      exact List.Perm.refl []
  · rw [hin] at ht
    have hle := h.generation t ht
    rw [resetAllLanes_lane]
    split
    · rename_i hl
      rwa [getLaneState_of_none hl] at hle
    · exact Nat.le_succ_of_le hle

theorem Counted.finish (h : Counted s) (hin : s.inFlight.Perm (t :: (r.running ++ stackTasks below)))
    (hst : r.started = s.started) (hn : r.nextTaskId = s.nextTaskId) (hl : r.lanes = s.lanes) (result : Except ε β) :
    Counted (finishTask t result below r) := by
  have hlane (lane : String) : r.getLaneState lane = s.getLaneState lane := by
    unfold State.getLaneState
    rw [hl]
  have hrest (u : Task) (hu : u ∈ r.running ++ stackTasks below) :
      u.taskGeneration ≤ (s.getLaneState u.lane).generation :=
    h.generation u (hin.mem_iff.mpr (mem_cons_of_mem t hu))
  have hst' : (finishTask t result below r).started = s.started := (finishTask_entries t result below r).2.2.trans hst
  have hn' : (finishTask t result below r).nextTaskId = s.nextTaskId :=
    (finishTask_nextTaskId t result below r).trans hn
  have hin' := finishTask_inFlight t result below r
  have hgen (lane : String) : ((finishTask t result below r).getLaneState lane).generation =
      (s.getLaneState lane).generation := by rw [finishTask_generation, hlane]
  refine ⟨fun lane => ?_, by rw [hst', hn']; exact h.fresh, by rw [hst']; exact h.distinct, fun u hu => ?_⟩
  · have hcur : (s.current lane).Perm
        (if t.lane = lane ∧ t.taskGeneration = (s.getLaneState lane).generation
          then t :: (finishTask t result below r).current lane
          else (finishTask t result below r).current lane) := by
      unfold State.current
      rw [hgen, hin']
      refine (hin.filter _).trans ?_
      by_cases he : t.lane = lane ∧ t.taskGeneration = (s.getLaneState lane).generation
      · simp [he]
      · simp [he]
    have hact := (h.active lane).trans (hcur.map Task.taskId)
    by_cases hc : t.taskGeneration = (r.getLaneState t.lane).generation
    · rw [getLaneState_of_set (finishTask_lanes hc result below), hlane]
      by_cases he : lane = t.lane
      · subst he
        rw [if_pos ⟨rfl, by rw [hc, hlane]⟩] at hact
        rw [if_pos rfl]
        simpa using hact.erase t.taskId
      · rw [if_neg fun hb => he hb.1.symm] at hact
        rw [if_neg he, hlane]
        exact hact
    · have hdrop : ¬ (t.lane = lane ∧ t.taskGeneration = (s.getLaneState lane).generation) := by
        rintro ⟨rfl, hg⟩
        exact hc (by rw [hlane, hg])
      rw [if_neg hdrop] at hact
      rw [finishTask_stale hc] at hact ⊢
      show (r.getLaneState lane).activeTaskIds.Perm _
      rw [hlane]
      exact hact
  · rw [hgen]
    exact hrest u (hin' ▸ hu)

theorem counted_action (h : Counted s) (ha : Action s e s') : Counted s' := by
  cases action_move ha with
  | quiet hq => exact h.congr hq
  | starts now _ _ => exact counted_start h now
  | reset => exact counted_reset h
  | ends result hin hst hn hl => exact h.finish hin hst hn hl result

/-! ### Outcomes -/

/-- The task an event ends, with how its promise (or its prefix) ended. -/
def Event.ends (e : Event ε β) (s : State ε β) : Option (Task × Except ε β) :=
  match e, s.stack with
  | .throw error, .task t :: _ => some (t, .error error)
  | .complete taskId result, [] => (s.running.find? fun t => t.taskId = taskId).map fun t => (t, result)
  | _, _ => none

/-- The tasks that ended along a run, in that order. -/
def outcomes : List (Event ε β) → State ε β → List (Task × Except ε β)
  | [], _ => []
  | e :: rest, s => (e.ends s).toList ++ ((step e s).map (outcomes rest)).getD []

theorem finishTask_finished (t : Task) (result : Except ε β) (below : List (Frame ε β)) (s : State ε β) :
    (finishTask t result below s).finished = s.finished ++ [(t, result)] := by
  by_cases hg : t.taskGeneration = (s.getLaneState t.lane).generation
  · rw [finishTask_current hg]
    rfl
  · rw [finishTask_stale hg]
    rfl

theorem action_finished (ha : Action s e s') :
    s'.finished = s.finished ++ (e.ends s).toList := by
  cases ha with
  | @drain lane below now _ =>
    have hd : (drainLane lane below s).finished = s.finished := by
      unfold drainLane
      dsimp only
      split <;> rfl
    rw [hd]
    exact (append_nil _).symm
  | @call op _ =>
    rw [(apply_tasks op s).2.1]
    exact (append_nil _).symm
  | throw error hs =>
    rw [finishTask_finished]
    simp only [Event.ends, hs, Option.toList_some]
  | complete result hs hf =>
    rw [finishTask_finished]
    simp only [Event.ends, hs, hf, Option.map_some, Option.toList_some]
  | _ => exact (append_nil _).symm

theorem run_finished (events : List (Event ε β)) (h : step.run events s = some s') :
    s'.finished = s.finished ++ outcomes events s := by
  induction events generalizing s with
  | nil =>
    cases h
    exact (append_nil _).symm
  | cons e rest ih =>
    obtain ⟨u, hu, hr⟩ := (Machine.run_cons_some step).mp h
    rw [ih hr, action_finished (step_action hu), append_assoc, outcomes, hu]
    rfl

/-! ### Every run -/

/-- What holds of every state a run reaches. -/
structure Kept (s : State ε β) : Prop where
  placed : Placed s
  accounted : Accounted s
  counted : Counted s

theorem kept_initial : Kept (initial : State ε β) where
  placed := ⟨rfl, fun _ => rfl, fun _ => List.Perm.refl _⟩
  accounted := ⟨List.Perm.refl _, List.Perm.refl _⟩
  counted := ⟨fun _ => List.Perm.refl _, fun _ h => absurd h not_mem_nil, nodup_nil,
    fun _ h => absurd h not_mem_nil⟩

theorem kept_step (e : Event ε β) (s s' : State ε β) (h : Kept s) (hs : step e s = some s') : Kept s' :=
  have ha := step_action hs
  ⟨placed_action h.placed ha, accounted_action h.accounted ha, counted_action h.counted ha⟩

theorem kept_run {events : List (Event ε β)} (h : step.run events initial = some s) :
    Kept s :=
  step.run_invariant kept_step events kept_initial h

/-- A step starts at most one task, and only in a lane with room. -/
theorem action_started (h : Counted s) (ha : Action s e s') :
    s'.started = s.started ∨ ∃ t, s'.started = s.started ++ [t] ∧ t.taskId = s.nextTaskId ∧
      t.taskGeneration = (s.getLaneState t.lane).generation ∧
      (s.current t.lane).length < (s.getLaneState t.lane).maxConcurrent := by
  cases action_move ha with
  | quiet hq => exact .inl hq.started
  | @starts lane entry rest now _ hlt =>
    refine .inr ⟨_, rfl, rfl, rfl, ?_⟩
    have hlen := (h.active lane).length_eq
    rw [length_map] at hlen
    exact hlen ▸ hlt
  | reset => exact .inl rfl
  | ends _ _ hst _ _ => exact .inl ((finishTask_entries _ _ _ _).2.2.trans hst)

/-- The end of a task from before a reset touches no lane, wakes nobody and pumps
nothing: what is left to do is to settle its entry. -/
theorem action_stale {result : Except ε β} (he : e.ends s = some (t, result)) (ha : Action s e s')
    (hg : t.taskGeneration ≠ (s.getLaneState t.lane).generation) :
    s'.lanes = s.lanes ∧ s'.activeTaskWaiters = s.activeTaskWaiters ∧
      s'.stack = .settle t result :: s.stack.drop 1 := by
  cases ha with
  | throw error hs =>
    simp only [Event.ends, hs, Option.some.injEq, Prod.mk.injEq] at he
    obtain ⟨rfl, rfl⟩ := he
    rw [finishTask_stale hg, hs]
    exact ⟨rfl, rfl, rfl⟩
  | @complete u taskId result' hs hf =>
    simp only [Event.ends, hs, hf, Option.map_some, Option.some.injEq, Prod.mk.injEq] at he
    obtain ⟨rfl, rfl⟩ := he
    rw [finishTask_stale (s := {s with running := s.running.erase u}) hg, hs]
    exact ⟨rfl, rfl, rfl⟩
  | _ => cases he

namespace State

/-- Entries whose task was started and whose promise is not settled yet. -/
def runningIn (s : State ε β) (lane : String) : List Nat :=
  ((s.inFlight ++ s.settling.map Prod.fst).filter fun t => t.lane = lane).map Task.entry

def settledIn (s : State ε β) (lane : String) : List Nat :=
  ((s.settled.map Prod.fst).filter fun t => t.lane = lane).map Task.entry

end State

theorem Accounted.startedIn_perm (h : Accounted s) (lane : String) :
    (s.startedIn lane).Perm (s.runningIn lane ++ s.settledIn lane) := by
  unfold State.startedIn State.runningIn State.settledIn
  rw [← map_append, ← filter_append, append_assoc, ← map_append]
  exact (h.tasks.filter _).map _

theorem Kept.started_nodup (h : Kept s) (lane : String) : (s.startedIn lane).Nodup := by
  have hall := (h.placed.kept lane).nodup_iff.mp (h.placed.accepted_nodup lane)
  exact (nodup_append.mp (nodup_append.mp hall).2.1).1

/-- The tasks that ended are distinct started tasks, so each ended once. -/
theorem Kept.finished_nodup (h : Kept s) : (s.finished.map Prod.fst).Nodup := by
  have hst : s.started.Nodup := List.Nodup.of_map _ h.counted.distinct
  have hall := h.accounted.tasks.nodup_iff.mp hst
  exact (h.accounted.own.map Prod.fst).nodup_iff.mpr (nodup_append.mp hall).2.1

/-- Lane safety, in every state a run of the queue reaches and for every next
step of it. -/
structure LaneSafety (events : List (Event ε β)) (s : State ε β) : Prop where
  /-- What a lane has started and then what it queues is what it accepted, in the
  order of the calls, less what was cleared. -/
  fifo : ∀ lane, (s.acceptedIn lane).filter (· ∉ s.clearedIn lane) = s.startedIn lane ++ s.queuedIn lane
  startedOnce : ∀ lane, (s.startedIn lane).Nodup
  capacity : ∀ e s', step e s = some s' → s'.started = s.started ∨
    ∃ t, s'.started = s.started ++ [t] ∧ t.taskId = s.nextTaskId ∧
      t.taskGeneration = (s.getLaneState t.lane).generation ∧
      (s.current t.lane).length < (s.getLaneState t.lane).maxConcurrent
  /-- Every accepted entry is queued, running, settled or cleared: one of these,
  and once. -/
  fate : ∀ lane, (s.acceptedIn lane).Nodup ∧ (s.acceptedIn lane).Perm
    (s.queuedIn lane ++ s.runningIn lane ++ s.settledIn lane ++ s.clearedIn lane)
  /-- Entries are settled with the outcome of their own task. -/
  ownResult : ∀ p ∈ s.settled, p ∈ outcomes events initial
  endedOnce : ((outcomes events (initial : State ε β)).map Prod.fst).Nodup
  /-- A task of an older generation ends without a trace in the lanes. -/
  stale : ∀ e s' t result, e.ends s = some (t, result) → step e s = some s' →
    t.taskGeneration ≠ (s.getLaneState t.lane).generation →
    s'.lanes = s.lanes ∧ s'.activeTaskWaiters = s.activeTaskWaiters ∧
      s'.stack = .settle t result :: s.stack.drop 1

theorem lane_queue_safety (events : List (Event ε β)) (s : State ε β)
    (h : step.run events initial = some s) : LaneSafety events s := by
  have hk := kept_run h
  have hfin : s.finished = outcomes events initial := run_finished events h
  refine ⟨hk.placed.fifo, hk.started_nodup, fun e s' hs => action_started hk.counted (step_action hs),
    fun lane => ⟨hk.placed.accepted_nodup lane, ?_⟩, fun p hp => ?_, hfin ▸ hk.finished_nodup,
    fun e s' t result he hs hg => action_stale he (step_action hs) hg⟩
  · have hstarted := hk.accounted.startedIn_perm lane
    have hpart : (s.startedIn lane ++ s.queuedIn lane).Perm
        (s.queuedIn lane ++ s.runningIn lane ++ s.settledIn lane) := by
      rw [append_assoc]
      exact perm_append_comm.trans (hstarted.append_left _)
    exact (hk.placed.kept lane).trans (perm_append_comm.trans (hpart.append_right _))
  · have : p ∈ s.finished := hk.accounted.own.mem_iff.mpr (mem_append_right _ hp)
    exact hfin ▸ this

/-- A task that enqueues from its prefix, on a lane of width two. -/
theorem lane_queue_safety_reentrant :
    ∃ s : State String Nat,
      LaneSafety [.call (.setCommandLaneConcurrency "main" 2), .advance 0, .advance 0,
        .call (.enqueueCommandInLane " main" none 5), .advance 5, .advance 6,
        .call (.enqueueCommandInLane "" none 7), .advance 7, .suspend, .advance 8, .suspend, .advance 9,
        .complete 1 (.ok 42), .advance 10, .advance 10] s ∧
      s.startedIn "main" = [0, 1] ∧ s.settledIn "main" = [0] ∧ s.runningIn "main" = [1] :=
  ⟨_, lane_queue_safety _ _ rfl, by decide, by decide, by decide⟩

end OpenClaw.Process.CommandQueue
