import EtlOrchestrator.Engine.MachineInvariant

/-!
# Beginning and ending a run

The invariant holds in the first state of a run, where no task has a record, and
is kept by the aggregation that ends it. When the last batch has returned every
task agrees with its outcome, so the aggregated state is a success exactly when
every outcome is one.

`reachable` gathers what holds in every reachable state of a run.
-/

set_option autoImplicit false

namespace EtlOrchestrator

open BlockingEvaluation Relation WorkflowEngine

/-! ## The aggregated state -/

theorem WorkflowRun.mem_taskStates {run : WorkflowRun} {state : TaskState} :
    state ∈ run.taskStates ↔ ∃ taskId ∈ run.records, (run.recordOf taskId).state = state := by
  simp only [taskStates, OrderedDict.values, List.map_map, List.mem_map, Function.comp_apply,
    recordOf, OrderedDict.getD]
  constructor
  · rintro ⟨⟨taskId, record⟩, entry, rfl⟩
    refine ⟨taskId, OrderedDict.mem_of_entry entry, ?_⟩
    rw [OrderedDict.get?_eq_some_iff.mpr entry, Option.getD_some]
  · rintro ⟨taskId, member, same⟩
    obtain ⟨record, found⟩ := OrderedDict.exists_get?_of_mem member
    rw [found, Option.getD_some] at same
    exact ⟨(taskId, record), OrderedDict.get?_eq_some_iff.mp found, same⟩

namespace AcceptedEngine

open Classical in
/-- The state that a run ends in: a success when every task succeeds. -/
noncomputable def finalState (engine : AcceptedEngine) (env : Env) : WorkflowState :=
  if ∀ taskId ∈ engine.workflow.tasks, (engine.outcome env taskId).HasValue then .success
  else .failed

variable {engine : AcceptedEngine} {env : Env}

theorem Settles.state_cases {taskId : String} {view : TaskView}
    (settles : engine.Settles env taskId view) :
    view.record.state = .success ∨ view.record.state = .failed ∨
      view.record.state = .upstreamFailed := by
  rw [Settles] at settles
  cases outcome : engine.outcome env taskId with
  | value attempt =>
      rw [outcome] at settles
      exact .inl settles.state
  | failed =>
      rw [outcome] at settles
      exact .inr (.inl settles.state)
  | blocked =>
      rw [outcome] at settles
      exact .inr (.inr settles.state)

theorem Settles.state_eq_failed_iff {taskId : String} {view : TaskView}
    (settles : engine.Settles env taskId view) :
    view.record.state = .failed ↔ engine.outcome env taskId = .failed := by
  rw [Settles] at settles
  cases outcome : engine.outcome env taskId with
  | value attempt =>
      rw [outcome] at settles
      simp [settles.state]
  | failed =>
      rw [outcome] at settles
      simp [settles.state]
  | blocked =>
      rw [outcome] at settles
      simp [settles.state]

/-- When all tasks agree with their outcomes the run aggregates to its final
state. -/
theorem aggregate_of_settles {state : RunState}
    (recorded : ∀ taskId, taskId ∈ state.run.records ↔ taskId ∈ engine.workflow.tasks)
    (settles : ∀ taskId ∈ engine.workflow.tasks,
      engine.Settles env taskId (state.view taskId)) :
    aggregateWorkflowState state.run.taskStates = some (engine.finalState env) := by
  have nonempty : state.run.taskStates ≠ [] := by
    obtain ⟨taskId, member⟩ := List.exists_mem_of_ne_nil _ engine.valid.nonempty
    exact List.ne_nil_of_mem (WorkflowRun.mem_taskStates.mpr
      ⟨taskId, (recorded taskId).mpr member, rfl⟩)
  have settled : ∀ taskState ∈ state.run.taskStates, taskState = .success ∨
      taskState = .failed ∨ taskState = .upstreamFailed := by
    intro taskState member
    obtain ⟨taskId, inRecords, rfl⟩ := WorkflowRun.mem_taskStates.mp member
    exact (settles taskId ((recorded taskId).mp inRecords)).state_cases
  have failed : .failed ∈ state.run.taskStates ↔
      ¬ ∀ taskId ∈ engine.workflow.tasks, (engine.outcome env taskId).HasValue := by
    rw [WorkflowRun.mem_taskStates]
    constructor
    · rintro ⟨taskId, inRecords, isFailed⟩ allValues
      have known := (recorded taskId).mp inRecords
      have value := allValues taskId known
      rw [(settles taskId known).state_eq_failed_iff.mp isFailed] at value
      exact not_hasValue_failed value
    · intro someNoValue
      push Not at someNoValue
      obtain ⟨taskId, known, noValue⟩ := someNoValue
      -- Either the task itself has failed, or one of its ancestors has.
      obtain ⟨source, sourceKnown, isFailed⟩ : ∃ source ∈ engine.workflow.tasks,
          engine.outcome env source = .failed := by
        cases outcome : engine.outcome env taskId with
        | value attempt =>
            rw [outcome] at noValue
            exact absurd (hasValue_value attempt) noValue
        | failed => exact ⟨taskId, known, outcome⟩
        | blocked =>
            obtain ⟨ancestor, above, isFailed⟩ := outcome_eq_blocked_iff.mp outcome
            obtain ⟨child, edge, _⟩ := TransGen.head'_iff.mp above
            exact ⟨ancestor, engine.valid.closed.upstreams child ancestor edge, isFailed⟩
      exact ⟨source, (recorded source).mpr sourceKnown,
        (settles source sourceKnown).state_eq_failed_iff.mpr isFailed⟩
  rw [aggregateWorkflowState_of_settled nonempty settled, finalState]
  by_cases allValues : ∀ taskId ∈ engine.workflow.tasks, (engine.outcome env taskId).HasValue
  · rw [if_pos allValues, if_neg fun member => failed.mp member allValues]
  · rw [if_neg allValues, if_pos (failed.mpr allValues)]

end AcceptedEngine

/-- The end of `run` moves the workflow to the aggregated state and keeps every
task. -/
theorem WorkflowEngine.finishRun_view {env : Env} {state : RunState} {final : WorkflowState}
    (running : state.workflowView = .along [.running])
    (aggregated : aggregateWorkflowState state.run.taskStates = some final)
    (legal : canTransitionWorkflow .running final) : ∃ after,
    (finishRun env).run state = .ok () after ∧
      (∀ taskId, after.view taskId = state.view taskId) ∧
      after.run.records = state.run.records ∧
      after.workflowView = .along [.running, final] ∧ after.calls = state.calls := by
  have current : state.run.workflowState = .running := congrArg WorkflowView.state running
  refine ⟨_, by simp [finishRun, Exec.moveWorkflow, aggregated, current,
    transitionWorkflow_eq_ok legal]; rfl, fun taskId => ?_, ?_, ?_, ?_⟩
  · simp [Event.assignment?, Event.check?, Event.call?, LogEntry.moveOf?, LogEntry.move?]
  · rfl
  · simp [running, WorkflowView.along, transitions, Event.workflowAssignment?,
      Event.workflowCheck?, LogEntry.workflowMove?]
  · simp [RunState.calls, RunState.emit, RunState.note, RunState.finishedAt,
      RunState.assignWorkflow, Event.call?]

/-! ## Reachable states -/

/-- What holds of the workflow in each status of a run. -/
def Stage (engine : AcceptedEngine) (env : Env) (machine : Machine) : Prop :=
  match machine.status with
  | .running => machine.shared.workflowView = .along [.running]
  | .returned => (∀ taskId ∈ engine.workflow.tasks, machine.pcs taskId = .done) ∧
      machine.shared.workflowView = .along [.running, engine.finalState env]
  | .raised error => machine.shared.workflowView = .along [.running] ∧
      ∃ taskId ∈ engine.workflow.tasks, machine.pcs taskId = .raised error

/-- What holds in every reachable state. -/
structure Reachable (engine : AcceptedEngine) (env : Env) (machine : Machine) : Prop where
  invariant : ∃ past, Invariant engine env past machine
  stage : Stage engine env machine

section

variable {engine : AcceptedEngine} {env : Env}

theorem TaskView.fresh_ok (taskId : String) :
    engine.TaskOk env taskId (.fresh taskId) .enter := by
  exact ⟨⟨⟨nofun, rfl, rfl, nofun⟩, rfl⟩, .inl ⟨rfl, rfl, rfl⟩⟩

variable (engine env) in
/-- The first state of a run, with the batches still to come. -/
theorem start_eq : ∃ shared levels, engine.start env = { shared, levels } ∧
    engine.batches = .ok levels ∧ (beginRun env).run (engine.created env) = .ok () shared ∧
    (∀ taskId, shared.view taskId = .fresh taskId) ∧ shared.run.records = ∅ ∧
    shared.workflowView = .along [.running] := by
  obtain ⟨shared, began, views, noRecords, workflow⟩ := engine.beginRun_view env
  obtain ⟨levels, computed, _⟩ := batches_layering engine.valid
  exact ⟨shared, levels, by rw [start, began]; simp only [computed], computed, began, views,
    noRecords, workflow⟩

theorem Reachable.start : Reachable engine env (engine.start env) := by
  obtain ⟨shared, levels, same, computed, _, views, noRecords, workflow⟩ := start_eq engine env
  rw [same]
  refine ⟨⟨[], ?_⟩, workflow⟩
  exact
    { position := ⟨levels, computed, rfl⟩
      tasks := fun taskId => by rw [views]; exact TaskView.fresh_ok taskId
      returned := fun _ member => absurd member List.not_mem_nil
      untouched := fun _ _ _ => rfl
      waiting := fun _ _ => rfl
      submitted := fun _ member => member.elim id id
      ended := fun _ job _ _ => absurd job List.not_mem_nil
      distinct := List.nodup_nil
      width := Nat.zero_le _
      recorded := fun taskId member => by simp [noRecords] at member
      entered := fun _ started => absurd rfl started
      source := fun taskId state => by
        rw [views] at state
        cases state }

/-- When the last batch has returned, every task has. -/
theorem Invariant.all_done {past : List (List String)} {machine : Machine}
    (invariant : Invariant engine env past machine) (drained : machine.queue = [])
    (idle : machine.active = []) (last : machine.levels = [])
    (returned : ∀ taskId ∈ machine.jobs, (machine.pcs taskId).error? = none) :
    ∀ taskId ∈ engine.workflow.tasks, machine.pcs taskId = .done := by
  intro taskId known
  have member := (invariant.layering.mem_iff taskId).mpr (OrderedDict.mem_keySet.mpr known)
  rw [last, List.flatten_append, List.flatten_cons, List.flatten_nil, List.append_nil] at member
  rcases List.mem_append.mp member with old | job
  · exact invariant.returned taskId old
  · have ended := invariant.ended taskId job (by simp [drained]) (by simp [idle])
    exact Invariant.eq_done_of_ended ended (returned taskId job)

/-- After the last batch the end of `run` returns: it moves the workflow to its
final state and keeps every task. -/
theorem Reachable.finishRun {machine : Machine} (reachable : Reachable engine env machine)
    (running : machine.status = .running) (drained : machine.queue = [])
    (idle : machine.active = []) (last : machine.levels = [])
    (returned : ∀ taskId ∈ machine.jobs, (machine.pcs taskId).error? = none) : ∃ after,
    (WorkflowEngine.finishRun env).run machine.shared = .ok () after ∧
      (∀ taskId, after.view taskId = machine.shared.view taskId) ∧
      after.calls = machine.shared.calls ∧ after.run.records = machine.shared.run.records ∧
      after.workflowView = .along [.running, engine.finalState env] := by
  obtain ⟨⟨past, invariant⟩, stage⟩ := reachable
  rw [Stage, running] at stage
  have allDone := invariant.all_done drained idle last returned
  have recorded : ∀ taskId, taskId ∈ machine.shared.run.records ↔
      taskId ∈ engine.workflow.tasks := fun taskId =>
    ⟨invariant.recorded taskId, fun known =>
      invariant.entered taskId (by rw [allDone taskId known]; exact nofun)⟩
  have settles : ∀ taskId ∈ engine.workflow.tasks,
      engine.Settles env taskId (machine.shared.view taskId) := by
    intro taskId known
    have ok := invariant.tasks taskId
    rw [allDone taskId known] at ok
    exact ok.2
  have legal : canTransitionWorkflow .running (engine.finalState env) := by
    rw [AcceptedEngine.finalState]
    split <;> decide
  obtain ⟨after, ran, views, sameRecords, workflow, calls⟩ := finishRun_view stage
    (AcceptedEngine.aggregate_of_settles recorded settles) legal
  exact ⟨after, ran, views, calls, sameRecords, workflow⟩

/-- The end of `run` keeps what is known of a reachable state. -/
theorem Reachable.finish {machine : Machine} (reachable : Reachable engine env machine)
    (running : machine.status = .running) (drained : machine.queue = [])
    (idle : machine.active = []) (last : machine.levels = [])
    (returned : ∀ taskId ∈ machine.jobs, (machine.pcs taskId).error? = none) :
    Reachable engine env (WorkflowEngine.finish env machine) := by
  obtain ⟨after, ran, views, _, sameRecords, workflow⟩ :=
    reachable.finishRun running drained idle last returned
  obtain ⟨⟨past, invariant⟩, _⟩ := reachable
  have allDone := invariant.all_done drained idle last returned
  rw [WorkflowEngine.finish_of_ok ran]
  refine ⟨⟨past, ?_⟩, allDone, workflow⟩
  exact
    { position := invariant.position
      tasks := fun taskId => by
        have ok := invariant.tasks taskId
        rw [← views] at ok
        exact ok
      returned := invariant.returned
      untouched := invariant.untouched
      waiting := invariant.waiting
      submitted := invariant.submitted
      ended := invariant.ended
      distinct := invariant.distinct
      width := invariant.width
      recorded := fun taskId member => invariant.recorded taskId (sameRecords ▸ member)
      entered := fun taskId started => sameRecords ▸ invariant.entered taskId started
      source := fun taskId state => invariant.source taskId (views taskId ▸ state) }

/-- **Every step keeps what is known of a reachable state.** -/
theorem Reachable.step {machine next : Machine} (reachable : Reachable engine env machine)
    (step : engine.Step env machine next) : Reachable engine env next := by
  have whole := reachable
  obtain ⟨⟨past, invariant⟩, stage⟩ := reachable
  cases step with
  | take running waiting free =>
      rw [Stage, running] at stage
      exact ⟨⟨past, invariant.take waiting free⟩, by rw [Stage, running]; exact stage⟩
  | @work taskId running held unfinished =>
      rw [Stage, running] at stage
      have frame := engine.advance_frame env taskId machine.shared (machine.pcs taskId)
      have kept : Stage engine env (engine.work env machine taskId) := by
        rw [Stage, show (engine.work env machine taskId).status = .running from running]
        exact frame.workflow.trans stage
      exact ⟨⟨past, invariant.work held unfinished⟩, kept⟩
  | leave running held finished =>
      rw [Stage, running] at stage
      exact ⟨⟨past, invariant.leave finished⟩, by rw [Stage, running]; exact stage⟩
  | submit running drained idle toCome returned =>
      rw [Stage, running] at stage
      exact ⟨⟨_, invariant.submit drained idle toCome returned⟩,
        by rw [Stage, running]; exact stage⟩
  | @raise error running drained idle first =>
      rw [Stage, running] at stage
      obtain ⟨taskId, job, raised⟩ := List.exists_of_findSome?_eq_some first
      refine ⟨⟨past, { invariant with }⟩, stage, taskId, invariant.known job, ?_⟩
      cases atPc : machine.pcs taskId <;> rw [atPc] at raised <;> cases raised
      rfl
  | finish running drained idle last returned =>
      exact whole.finish running drained idle last returned

/-- **What is known holds in every state of every run.** -/
theorem Reachable.steps {machine : Machine} (run : engine.Steps env (engine.start env) machine) :
    Reachable engine env machine := by
  induction run with
  | refl => exact .start
  | tail _ step ih => exact ih.step step

end

end EtlOrchestrator
