import EtlOrchestrator.Engine.Blocking

/-!
# The tasks that one walk blocks

Whatever the graph and the records are, a walk ends in the state that blocks one
after the other the pending tasks below the failed one (`blockDownstream_run`).
What it changes in the run is then read off the blocking of one task: the
records of these tasks, at successive readings of the clock, and the end of the
log. The records of the other tasks that it passes through stay as they are.
-/

set_option autoImplicit false

namespace EtlOrchestrator

open Relation

variable {env : Env} {failedTaskId : String} {state : RunState}

/-! ## Blocking one task -/

namespace RunState

theorem get?_records_block (taskId other : String) :
    (state.block env failedTaskId taskId).run.records.get? other =
      if other = taskId then
        some ((state.recordOf taskId).blocked failedTaskId (env.clock state.clockReads))
      else state.run.records.get? other := by
  have created : other ≠ taskId →
      (state.run.record taskId).records.get? other = state.run.records.get? other := by
    intro different
    rw [WorkflowRun.record]
    split
    · rfl
    · exact OrderedDict.get?_set_of_ne _ _ different
  by_cases same : other = taskId
  · subst same
    have written : (state.block env failedTaskId other).recordOf other = _ :=
      recordOf_block other other
    have present : other ∈ (state.block env failedTaskId other).run.records := by
      simp [block, note, update, WorkflowRun.note]
    obtain ⟨record, stored⟩ := OrderedDict.exists_get?_of_mem present
    rw [if_pos rfl] at written ⊢
    rw [stored, ← written]
    exact congrArg some (WorkflowRun.recordOf_of_get? stored).symm
  · rw [if_neg same, ← created same]
    simp [block, note, update, assign, emit, record, WorkflowRun.note, WorkflowRun.update,
      OrderedDict.get?_set_of_ne _ _ same]

@[simp] theorem log_block (taskId : String) : (state.block env failedTaskId taskId).run.log =
    state.run.log ++ [.blocked taskId failedTaskId] := by
  simp [block, note, update, assign, emit, record, WorkflowRun.note, WorkflowRun.update]

@[simp] theorem events_block (taskId : String) : (state.block env failedTaskId taskId).events =
    state.events ++
      [.checked taskId .pending .upstreamFailed, .assigned taskId .upstreamFailed] := by
  simp [block, note, update, assign, emit, record]

@[simp] theorem clockReads_block (taskId : String) :
    (state.block env failedTaskId taskId).clockReads = state.clockReads + 1 := rfl

/-- Only the records and the log of the run change. -/
theorem run_block (taskId : String) : (state.block env failedTaskId taskId).run =
    { state.run with
      records := (state.block env failedTaskId taskId).run.records
      log := (state.block env failedTaskId taskId).run.log } := by
  simp only [block, note, update, assign, emit, record, WorkflowRun.note, WorkflowRun.update,
    WorkflowRun.record]
  split <;> rfl

end RunState

/-! ## What the walk changes -/

namespace RunState

/-- The records after tasks were blocked one after the other: the tasks finish at
successive readings of the clock. -/
theorem get?_records_foldl_block {blocked : List String} (nodup : blocked.Nodup) :
    ∀ (state : RunState) (other : String),
      (blocked.foldl (block env failedTaskId) state).run.records.get? other =
        if other ∈ blocked then
          some ((state.recordOf other).blocked failedTaskId
            (env.clock (state.clockReads + blocked.idxOf other)))
        else state.run.records.get? other := by
  induction blocked with
  | nil => simp
  | cons taskId rest ih =>
      intro state other
      obtain ⟨fresh, restNodup⟩ := List.nodup_cons.mp nodup
      rw [List.foldl_cons, ih restNodup, get?_records_block]
      by_cases same : other = taskId
      · subst same
        simp [fresh]
      · have position : (taskId :: rest).idxOf other = rest.idxOf other + 1 :=
          List.idxOf_cons_ne rest (Ne.symm same)
        simp only [List.mem_cons, same, false_or, if_false, position, clockReads_block,
          recordOf_block]
        split
        · rw [Nat.add_assoc, Nat.add_comm 1]
        · rfl

theorem log_foldl_block (blocked : List String) : ∀ state : RunState,
    (blocked.foldl (block env failedTaskId) state).run.log =
      state.run.log ++ blocked.map (.blocked · failedTaskId) := by
  induction blocked with
  | nil => simp
  | cons taskId rest ih =>
      intro state
      rw [List.foldl_cons, ih]
      simp

theorem events_foldl_block (blocked : List String) : ∀ state : RunState,
    (blocked.foldl (block env failedTaskId) state).events =
      state.events ++ blocked.flatMap fun taskId =>
        [.checked taskId .pending .upstreamFailed, .assigned taskId .upstreamFailed] := by
  induction blocked with
  | nil => simp
  | cons taskId rest ih =>
      intro state
      rw [List.foldl_cons, ih]
      simp

theorem run_foldl_block (blocked : List String) : ∀ state : RunState,
    (blocked.foldl (block env failedTaskId) state).run =
      { state.run with
        records := (blocked.foldl (block env failedTaskId) state).run.records
        log := (blocked.foldl (block env failedTaskId) state).run.log } := by
  induction blocked with
  | nil => exact fun _ => rfl
  | cons taskId rest ih =>
      intro state
      rw [List.foldl_cons, ih, run_block]

end RunState

/-- The tasks of a list were blocked, and nothing else was changed. -/
structure BlocksExactly (engine : WorkflowEngine) (env : Env) (failedTaskId : String)
    (before after : RunState) (blocked : List String) : Prop where
  /-- The tasks below the failed one that were pending, or had no record. -/
  mem_iff : ∀ taskId, taskId ∈ blocked ↔
    TransGen engine.workflow.Edge failedTaskId taskId ∧ before.stateOf taskId = .pending
  nodup : blocked.Nodup
  marked : ∀ taskId ∈ blocked, after.run.records.get? taskId =
    some { before.recordOf taskId with
      state := .upstreamFailed
      error := some s!"upstream task '{failedTaskId}' failed"
      finishedAt := some (env.clock (before.clockReads + blocked.idxOf taskId)) }
  kept : ∀ taskId, taskId ∉ blocked →
    after.run.records.get? taskId = before.run.records.get? taskId
  log : after.run.log = before.run.log ++ blocked.map (.blocked · failedTaskId)
  events : after.events = before.events ++ blocked.flatMap fun taskId =>
    [.checked taskId .pending .upstreamFailed, .assigned taskId .upstreamFailed]
  run : after.run = { before.run with records := after.run.records, log := after.run.log }

/-- **`_block_downstream` ends, raises nothing, and blocks exactly the tasks below
the failed one that are pending or have no record.** It holds of every graph,
with cycles or unknown ids in it, and of every run. -/
theorem blockDownstream_blocksExactly (engine : WorkflowEngine) (env : Env)
    (failedTaskId : String) (state : RunState) : ∃ after blocked,
      (engine.blockDownstream env failedTaskId).run state = .ok () after ∧
        BlocksExactly engine env failedTaskId state after blocked := by
  obtain ⟨blocked, ran, nodup, mem_iff⟩ := blockDownstream_run engine env failedTaskId state
  have records : ∀ taskId,
      (blocked.foldl (RunState.block env failedTaskId) state).run.records.get? taskId = _ :=
    RunState.get?_records_foldl_block nodup state
  exact ⟨_, blocked, ran,
    { mem_iff := mem_iff
      nodup := nodup
      marked := fun taskId member => (records taskId).trans (if_pos member)
      kept := fun taskId missing => (records taskId).trans (if_neg missing)
      log := RunState.log_foldl_block blocked state
      events := RunState.events_foldl_block blocked state
      run := RunState.run_foldl_block blocked state }⟩

end EtlOrchestrator
