import EtlOrchestrator.Engine.Threads

/-!
# What a run shows of one task

The view of a task gathers its record, the states assigned to it, the checks of
its transitions, the transitions that the log states for it and the calls of its
callable.

Each program of the engine that changes a record has one lemma that gives the
view after it.
-/

set_option autoImplicit false

namespace EtlOrchestrator

open Exec

/-! ## Projections of the trace and of the log -/

namespace Event

/-- The state assigned to a task by an entry of the trace. -/
def assignment? (taskId : String) : Event → Option TaskState
  | assigned other target => if other = taskId then some target else none
  | _ => none

/-- The transition of a task that an entry of the trace checks. -/
def check? (taskId : String) : Event → Option (TaskState × TaskState)
  | checked other current target => if other = taskId then some (current, target) else none
  | _ => none

/-- The call of a callable. -/
def call? : Event → Option TaskContext
  | called context => some context
  | _ => none

/-- The call of a hook, if the entry of the trace is one. -/
def hook? : Event → Option HookCall
  | hook call => some call
  | _ => none

/-- The delay that is passed to the sleeper, with the task that waits. -/
def sleep? : Event → Option (String × ℚ)
  | slept taskId delay => some (taskId, delay)
  | _ => none

/-- The state assigned to the workflow. -/
def workflowAssignment? : Event → Option WorkflowState
  | assignedWorkflow target => some target
  | _ => none

/-- The checked transition of the workflow. -/
def workflowCheck? : Event → Option (WorkflowState × WorkflowState)
  | checkedWorkflow current target => some (current, target)
  | _ => none

end Event

namespace LogEntry

/-- The transition of a task that an entry of the log states. -/
def moveOf? (taskId : String) (entry : LogEntry) : Option (TaskState × TaskState) :=
  match entry.move? with
  | some (other, source, target) => if other = taskId then some (source, target) else none
  | none => none

/-- The transition of the workflow that an entry of the log states. -/
def workflowMove? : LogEntry → Option (WorkflowState × WorkflowState)
  | workflowMoved source target => some (source, target)
  | _ => none

variable {entry : LogEntry} {owner : String}

/-- An entry about a task states no transition of another one. -/
theorem moveOf?_of_owner (isAbout : entry.owner? = some owner) {other : String}
    (different : other ≠ owner) : entry.moveOf? other = none := by
  cases entry with
  | workflowMoved | cannotLoad => cases isAbout
  | skippedExecution | permanentFailure => rfl
  | _ =>
      cases isAbout
      exact if_neg different.symm

theorem workflowMove?_of_owner (isAbout : entry.owner? = some owner) :
    entry.workflowMove? = none := by
  cases entry with
  | workflowMoved => cases isAbout
  | _ => rfl

end LogEntry

namespace RunState

/-- The calls of all callables so far, in order. -/
def calls (state : RunState) : List TaskContext := state.events.filterMap Event.call?

end RunState

/-! ## Views -/

/-- What a run shows of one task. -/
structure TaskView where
  record : TaskRunRecord
  assigned : List TaskState
  checked : List (TaskState × TaskState)
  moved : List (TaskState × TaskState)
  called : List TaskContext

/-- What a run shows of the workflow as a whole. -/
structure WorkflowView where
  state : WorkflowState
  assigned : List WorkflowState
  checked : List (WorkflowState × WorkflowState)
  moved : List (WorkflowState × WorkflowState)

namespace RunState

/-- The view of a task. -/
def view (state : RunState) (taskId : String) : TaskView where
  record := state.recordOf taskId
  assigned := state.events.filterMap (Event.assignment? taskId)
  checked := state.events.filterMap (Event.check? taskId)
  moved := state.run.log.filterMap (LogEntry.moveOf? taskId)
  called := state.calls.filter fun context => context.taskId = taskId

/-- The view of the workflow. -/
def workflowView (state : RunState) : WorkflowView where
  state := state.run.workflowState
  assigned := state.events.filterMap Event.workflowAssignment?
  checked := state.events.filterMap Event.workflowCheck?
  moved := state.run.log.filterMap LogEntry.workflowMove?

@[simp] theorem view_record (state : RunState) (taskId other : String) :
    (state.record taskId).view other = state.view other := by
  simp [view, record, recordOf, calls]

@[simp] theorem view_emit (state : RunState) (event : Event) (taskId : String) :
    (state.emit event).view taskId =
      { state.view taskId with
        assigned := (state.view taskId).assigned ++ (event.assignment? taskId).toList
        checked := (state.view taskId).checked ++ (event.check? taskId).toList
        called := (state.view taskId).called ++
          event.call?.toList.filter fun context => context.taskId = taskId } := by
  cases event <;>
    simp [view, emit, recordOf, calls, Event.assignment?, Event.check?, Event.call?,
      List.filterMap_cons] <;> split <;> simp_all

@[simp] theorem view_note (state : RunState) (entry : LogEntry) (taskId : String) :
    (state.note entry).view taskId =
      { state.view taskId with
        moved := (state.view taskId).moved ++ (entry.moveOf? taskId).toList } := by
  cases moved : entry.moveOf? taskId <;>
    simp [view, note, recordOf, calls, WorkflowRun.note, moved, WorkflowRun.recordOf]

theorem view_update (state : RunState) (taskId other : String)
    (change : TaskRunRecord → TaskRunRecord) : (state.update taskId change).view other =
      if other = taskId then
        { state.view taskId with record := change (state.view taskId).record }
      else state.view other := by
  by_cases same : other = taskId
  · subst same
    simp [view, update, recordOf, calls, WorkflowRun.update, WorkflowRun.recordOf,
      OrderedDict.getD]
  · simp only [view, update, recordOf, calls, WorkflowRun.recordOf_update_of_ne _ _ same, same,
      if_false]
    rfl

@[simp] theorem view_update_self (state : RunState) (taskId : String)
    (change : TaskRunRecord → TaskRunRecord) : (state.update taskId change).view taskId =
      { state.view taskId with record := change (state.view taskId).record } := by
  rw [view_update, if_pos rfl]

@[simp] theorem view_assign (state : RunState) (taskId : String) (target : TaskState) :
    (state.assign taskId target).view taskId =
      { state.view taskId with
        record := { (state.view taskId).record with state := target }
        assigned := (state.view taskId).assigned ++ [target] } := by
  simp [assign, Event.assignment?, Event.check?, Event.call?]

@[simp] theorem view_tick (state : RunState) (reads : ℕ) (taskId : String) :
    ({ state with clockReads := reads } : RunState).view taskId = state.view taskId := rfl

@[simp] theorem view_assignWorkflow (state : RunState) (target : WorkflowState)
    (taskId : String) : (state.assignWorkflow target).view taskId = state.view taskId := by
  simp [assignWorkflow, Event.assignment?, Event.check?, Event.call?]
  rfl

@[simp] theorem view_finishedAt (state : RunState) (now : ℚ) (taskId : String) :
    (state.finishedAt now).view taskId = state.view taskId := rfl

@[simp] theorem workflowView_emit (state : RunState) (event : Event) :
    (state.emit event).workflowView =
      { state.workflowView with
        assigned := state.workflowView.assigned ++ event.workflowAssignment?.toList
        checked := state.workflowView.checked ++ event.workflowCheck?.toList } := by
  cases assigned : event.workflowAssignment? <;> cases checked : event.workflowCheck? <;>
    simp [workflowView, emit, assigned, checked]

@[simp] theorem workflowView_note (state : RunState) (entry : LogEntry) :
    (state.note entry).workflowView =
      { state.workflowView with
        moved := state.workflowView.moved ++ entry.workflowMove?.toList } := by
  cases moved : entry.workflowMove? <;> simp [workflowView, note, WorkflowRun.note, moved]

@[simp] theorem workflowView_tick (state : RunState) (reads : ℕ) :
    ({ state with clockReads := reads } : RunState).workflowView = state.workflowView := rfl

@[simp] theorem workflowView_finishedAt (state : RunState) (now : ℚ) :
    (state.finishedAt now).workflowView = state.workflowView := rfl

@[simp] theorem workflowView_assignWorkflow (state : RunState) (target : WorkflowState) :
    (state.assignWorkflow target).workflowView =
      { state.workflowView with
        state := target
        assigned := state.workflowView.assigned ++ [target] } := by
  simp [assignWorkflow, Event.workflowAssignment?, Event.workflowCheck?]
  exact ⟨rfl, rfl, rfl, rfl⟩

@[simp] theorem clockReads_record (state : RunState) (taskId : String) :
    (state.record taskId).clockReads = state.clockReads := rfl

@[simp] theorem clockReads_emit (state : RunState) (event : Event) :
    (state.emit event).clockReads = state.clockReads := rfl

@[simp] theorem clockReads_update (state : RunState) (taskId : String)
    (change : TaskRunRecord → TaskRunRecord) :
    (state.update taskId change).clockReads = state.clockReads := rfl

@[simp] theorem clockReads_assign (state : RunState) (taskId : String) (target : TaskState) :
    (state.assign taskId target).clockReads = state.clockReads := rfl

theorem stateOf_eq (state : RunState) (taskId : String) :
    state.stateOf taskId = (state.view taskId).record.state := rfl

theorem recordOf_eq (state : RunState) (taskId : String) :
    state.recordOf taskId = (state.view taskId).record := rfl

end RunState

/-! ## Running the programs -/

namespace Exec

@[simp] theorem run_record (state : RunState) (taskId : String) :
    (record taskId).run state = .ok () (state.record taskId) := rfl

@[simp] theorem run_recordOf (state : RunState) (taskId : String) :
    (recordOf taskId).run state = .ok (state.recordOf taskId) state := rfl

@[simp] theorem run_stateOf (state : RunState) (taskId : String) :
    (stateOf taskId).run state = .ok (state.stateOf taskId) state := rfl

@[simp] theorem run_assign (state : RunState) (taskId : String) (target : TaskState) :
    (assign taskId target).run state = .ok () (state.assign taskId target) := rfl

@[simp] theorem run_update (state : RunState) (taskId : String)
    (change : TaskRunRecord → TaskRunRecord) :
    (update taskId change).run state = .ok () (state.update taskId change) := rfl

@[simp] theorem run_note (state : RunState) (entry : LogEntry) :
    (note entry).run state = .ok () (state.note entry) := rfl

@[simp] theorem run_emit (state : RunState) (event : Event) :
    (emit event).run state = .ok () (state.emit event) := rfl

@[simp] theorem run_now (env : Env) (state : RunState) : (now env).run state =
    .ok (env.clock state.clockReads) { state with clockReads := state.clockReads + 1 } := rfl

@[simp] theorem run_ofExcept_ok {α : Type} (result : α) (state : RunState) :
    (ofExcept (.ok result) : Exec α).run state = .ok result state := rfl

@[simp] theorem run_ofExcept_error {α : Type} (error : PyError) (state : RunState) :
    (ofExcept (.error error) : Exec α).run state = .error error state := rfl

/-- A program that only goes on after another one ends in its state. -/
theorem run_then {α β : Type} {program : Exec α} {value : α} {state after : RunState}
    (ran : program.run state = .ok value after) (result : β) :
    (program >>= fun _ => pure result).run state = .ok result after := by
  rw [EStateM.run_bind, ran]
  rfl

/-- Nothing is done behind a program that raises. -/
theorem run_raises {α β : Type} {program : Exec α} {error : PyError} {state after : RunState}
    (ran : program.run state = .error error after) (rest : α → Exec β) :
    (program >>= rest).run state = .error error after := by
  rw [EStateM.run_bind, ran]

/-- A legal transition is checked and nothing else. -/
theorem run_transition {state : RunState} {taskId : String} {target : TaskState}
    (legal : canTransition (state.stateOf taskId) target) : (transition taskId target).run state =
      .ok () (state.emit (.checked taskId (state.stateOf taskId) target)) := by
  simp only [transition, EStateM.run_bind, run_stateOf, run_emit, transitionTask_eq_ok legal,
    EStateM.run_pure]

end Exec

/-! ## The views after the programs -/

namespace TaskView

/-- The view after a check of a transition. -/
def checking (view : TaskView) (target : TaskState) : TaskView :=
  { view with checked := view.checked ++ [(view.record.state, target)] }

/-- The view after a block that assigns a state, changes other fields and notes
the transition. -/
def moving (view : TaskView) (source target : TaskState)
    (change : TaskRunRecord → TaskRunRecord) : TaskView :=
  { view with
    record := change { view.record with state := target }
    assigned := view.assigned ++ [target]
    moved := view.moved ++ [(source, target)] }

/-- The view after the task was blocked. -/
def blocked (view : TaskView) (failedTaskId : String) (now : ℚ) : TaskView :=
  (view.checking .upstreamFailed).moving .pending .upstreamFailed fun record =>
    { record with error := some s!"upstream task '{failedTaskId}' failed", finishedAt := some now }

end TaskView

theorem view_checked (state : RunState) (taskId : String) (target : TaskState) :
    (state.emit (.checked taskId (state.stateOf taskId) target)).view taskId =
      (state.view taskId).checking target := by
  simp [TaskView.checking, Event.assignment?, Event.check?, Event.call?, RunState.stateOf_eq]

namespace WorkflowEngine

variable (env : Env) (state : RunState) (taskId : String)

theorem startAttempt_view (task : Task) (attempt : ℕ) : ∃ after,
    (startAttempt env taskId task attempt).run state = .ok () after ∧
      after.view taskId = (state.view taskId).moving (if attempt = 1 then .pending else .retrying)
        .running fun record => { record with
          attempts := attempt
          startedAt := some (record.startedAt.getD (env.clock state.clockReads)) } := by
  cases started : (state.view taskId).record.startedAt with
  | none =>
      refine ⟨_, by simp [startAttempt, RunState.recordOf_eq, started]; rfl, ?_⟩
      simp [TaskView.moving, LogEntry.moveOf?, LogEntry.move?, started]
  | some instant =>
      refine ⟨_, by simp [startAttempt, RunState.recordOf_eq, started]; rfl, ?_⟩
      simp [TaskView.moving, LogEntry.moveOf?, LogEntry.move?, started]

theorem failAttempt_view (error : PyError) : ∃ after,
    (failAttempt env taskId error).run state = .ok () after ∧
      after.view taskId = (state.view taskId).moving .running .failed fun record =>
        { record with
          error := some error.text
          finishedAt := some (env.clock state.clockReads) } := by
  refine ⟨_, by simp [failAttempt]; rfl, ?_⟩
  simp [TaskView.moving, LogEntry.moveOf?, LogEntry.move?]

theorem succeedAttempt_view : ∃ after,
    (succeedAttempt env taskId).run state = .ok () after ∧
      after.view taskId = (state.view taskId).moving .running .success fun record =>
        { record with
          finishedAt := some (env.clock state.clockReads)
          nextRetryAt := none } := by
  refine ⟨_, by simp [succeedAttempt]; rfl, ?_⟩
  simp [TaskView.moving, LogEntry.moveOf?, LogEntry.move?]

/-- When the instant of the next attempt overflows, the state is assigned and
the transition is not noted. -/
theorem markRetrying_view (task : Task) (failedAttempt : ℕ) (delay : ℚ) :
    match env.arithmetic.retryAt (env.clock state.clockReads) delay with
    | .ok instant => ∃ after,
        (markRetrying env taskId task failedAttempt delay).run state = .ok () after ∧
          after.view taskId = (state.view taskId).moving .failed .retrying fun record =>
            { record with nextRetryAt := some instant }
    | .error error => ∃ after,
        (markRetrying env taskId task failedAttempt delay).run state = .error error after ∧
          after.view taskId = { state.view taskId with
            record := { (state.view taskId).record with state := .retrying }
            assigned := (state.view taskId).assigned ++ [.retrying] } := by
  cases instant : env.arithmetic.retryAt (env.clock state.clockReads) delay with
  | ok result =>
      refine ⟨_, by simp [markRetrying, instant]; rfl, ?_⟩
      simp [TaskView.moving, LogEntry.moveOf?, LogEntry.move?]
  | error error =>
      refine ⟨_, by simp [markRetrying, instant]; rfl, ?_⟩
      exact RunState.view_assign state taskId .retrying

/-- A pending dependent is blocked, and any other is left alone. -/
theorem blockTask_view (failedTaskId : String) : ∃ after,
    (blockTask env failedTaskId taskId).run state = .ok () after ∧
      after.view taskId =
        if (state.view taskId).record.state = .pending then
          (state.view taskId).blocked failedTaskId (env.clock state.clockReads)
        else state.view taskId := by
  by_cases pending : (state.view taskId).record.state = .pending
  · have current : (state.record taskId).stateOf taskId = .pending := by
      rw [RunState.stateOf_eq, RunState.view_record, pending]
    have legal : canTransition ((state.record taskId).stateOf taskId) .upstreamFailed := by
      rw [current]
      decide
    have checked := run_transition legal
    rw [current] at checked
    refine ⟨_, by simp [blockTask, current, checked]; rfl, ?_⟩
    simp [TaskView.blocked, TaskView.checking, TaskView.moving, pending, Event.assignment?,
      Event.check?, Event.call?, LogEntry.moveOf?, LogEntry.move?]
  · refine ⟨state.record taskId, ?_, by simp [pending]⟩
    simp [blockTask, RunState.stateOf_eq, pending]

/-- When the end of a run returns, the workflow was moved to the state that its tasks give it,
and everything is in the state that follows. -/
theorem finishRun_eq_ok {after : RunState} (ran : (finishRun env).run state = .ok () after) :
    ∃ final, aggregateWorkflowState state.run.taskStates = some final ∧
      let checked := state.emit (.checkedWorkflow state.run.workflowState final)
      let moved := checked.assignWorkflow final
      let ended := (({ moved with clockReads := moved.clockReads + 1 } : RunState).finishedAt
        (env.clock moved.clockReads)).note (.workflowMoved .running final)
      after = ended.emit (.hook (.workflowEnd ended.run)) := by
  simp only [finishRun, EStateM.run_bind, EStateM.run_get] at ran
  cases aggregated : aggregateWorkflowState state.run.taskStates with
  | none =>
      rw [aggregated] at ran
      cases ran
  | some final =>
      refine ⟨final, rfl, ?_⟩
      simp only [aggregated, Exec.moveWorkflow, EStateM.run_bind, EStateM.run_get,
        Exec.run_emit] at ran
      cases legal : transitionWorkflow state.run.workflowState final with
      | error error =>
          rw [legal] at ran
          cases ran
      | ok _ =>
          rw [legal] at ran
          cases ran
          rfl

/-- The call of a callable is traced, and nothing else changes. -/
theorem callTask_view {engine : WorkflowEngine} {callable : TaskCallable} (attempt : ℕ)
    (found : engine.tasks.get? taskId = some callable) : ∃ after,
    (engine.callTask env taskId attempt).run state =
        .ok (callable (engine.context env taskId attempt)) after ∧
      after.view taskId = { state.view taskId with
        called := (state.view taskId).called ++ [engine.context env taskId attempt] } := by
  refine ⟨_, by simp [callTask, found]; rfl, ?_⟩
  simp [Event.assignment?, Event.check?, Event.call?, context]

theorem taskHook_view (call : WorkflowRun → TaskRunRecord → HookCall) : ∃ after,
    (taskHook call taskId).run state = .ok () after ∧ after.view taskId = state.view taskId := by
  refine ⟨_, by simp [taskHook]; rfl, ?_⟩
  simp [Event.assignment?, Event.check?, Event.call?]

theorem sleep_view (delay : ℚ) : ∃ after,
    (sleep taskId delay).run state = .ok () after ∧ after.view taskId = state.view taskId := by
  by_cases positive : 0 < delay
  · refine ⟨_, by simp [sleep, positive]; rfl, ?_⟩
    simp [Event.assignment?, Event.check?, Event.call?]
  · exact ⟨state, by simp [sleep, positive], rfl⟩

theorem skipExecution_view : ∃ after,
    (skipExecution taskId).run state = .ok () after ∧ after.view taskId = state.view taskId := by
  refine ⟨_, by simp [skipExecution]; rfl, ?_⟩
  simp [LogEntry.moveOf?, LogEntry.move?]

end WorkflowEngine

end EtlOrchestrator
