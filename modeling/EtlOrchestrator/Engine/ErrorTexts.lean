import EtlOrchestrator.Engine.Blame
import EtlOrchestrator.Engine.Correctness

/-!
# The error texts of the records

The error of a record that was not marked by a walk is the text of the last
exception that the task's callable has raised. A later attempt that succeeds
keeps it. `ErrorOk` is the invariant behind this: between the call that raises
and the block that writes the error, the thread holds the exception.
-/

set_option autoImplicit false

namespace EtlOrchestrator

open BlockingEvaluation SortedSet Relation WorkflowEngine

/-! ## The errors of calls -/

namespace WorkflowEngine

/-- The error text of a call, if it raises. -/
def errorText (engine : WorkflowEngine) (taskId : String) (context : TaskContext) :
    Option String :=
  (engine.tasks.get? taskId).bind fun callable =>
    match callable context with
    | .ok () => none
    | .error error => some error.text

/-- The error text of the last call that has raised. -/
def lastError (engine : WorkflowEngine) (taskId : String) (calls : List TaskContext) :
    Option String :=
  (calls.filterMap (engine.errorText taskId)).getLast?

variable {engine : WorkflowEngine} {taskId : String} {context : TaskContext}
  {callable : TaskCallable}

theorem errorText_of_error (found : engine.tasks.get? taskId = some callable) {error : PyError}
    (raises : callable context = .error error) :
    engine.errorText taskId context = some error.text := by
  rw [errorText, found, Option.bind_some, raises]

theorem errorText_of_ok (found : engine.tasks.get? taskId = some callable)
    (returns : callable context = .ok ()) : engine.errorText taskId context = none := by
  rw [errorText, found, Option.bind_some, returns]

theorem lastError_of_raises (calls : List TaskContext) {text : String}
    (raises : engine.errorText taskId context = some text) :
    engine.lastError taskId (calls ++ [context]) = some text := by
  rw [lastError, List.filterMap_append, List.filterMap_cons_some raises, List.filterMap_nil,
    List.getLast?_concat]

theorem lastError_of_returns (calls : List TaskContext)
    (returns : engine.errorText taskId context = none) :
    engine.lastError taskId (calls ++ [context]) = engine.lastError taskId calls := by
  rw [lastError, List.filterMap_append, List.filterMap_cons_none returns, List.filterMap_nil,
    List.append_nil, lastError]

end WorkflowEngine

/-! ## Changes that keep the error -/

/-- The error and the calls of a task are as before. -/
def KeepsError (taskId : String) (before after : RunState) : Prop :=
  (after.view taskId).record.error = (before.view taskId).record.error ∧
    (after.view taskId).called = (before.view taskId).called

namespace KeepsError

variable {taskId : String}

instance : Std.Refl (KeepsError taskId) := ⟨fun _ => ⟨rfl, rfl⟩⟩

instance : IsTrans RunState (KeepsError taskId) :=
  ⟨fun _ _ _ earlier later => ⟨later.1.trans earlier.1, later.2.trans earlier.2⟩⟩

/-- Only the kinds of changes that are named after them change them. -/
theorem of_change {touched : String} {allowed : ChangeKind → Prop} {before after : RunState}
    (noError : ¬ allowed .error) (noCall : ¬ allowed .call)
    (change : Change touched allowed before after) : KeepsError taskId before after := by
  cases change with
  | record =>
      rw [KeepsError, RunState.view_record]
      exact ⟨rfl, rfl⟩
  | update sameId sameError =>
      rw [KeepsError, RunState.view_update]
      by_cases own : taskId = touched
      · rw [if_pos own, own]
        exact ⟨sameError.resolve_right noError _, rfl⟩
      · rw [if_neg own]
        exact ⟨rfl, rfl⟩
  | @emit event isEvent allows =>
      have quiet := event.call?_of_kind fun same => noCall (allows .call same)
      rw [KeepsError, RunState.view_emit, quiet]
      exact ⟨rfl, List.append_nil _⟩
  | note =>
      rw [KeepsError, RunState.view_note]
      exact ⟨rfl, rfl⟩
  | tick => exact ⟨rfl, rfl⟩

end KeepsError

/-! ## The invariant -/

/-- The exception that an attempt has raised, until its record has it. -/
def Pc.unrecorded? : Pc → Option PyError
  | checkFail _ _ error | fail _ _ error => some error
  | _ => none

/-- A task that is not marked has the error of its last call that has raised, or
its thread has it. -/
def WorkflowEngine.ErrorOk (engine : WorkflowEngine) (taskId : String) (view : TaskView)
    (pc : Pc) : Prop :=
  view.record.state = .upstreamFailed ∨
    (pc.unrecorded?.map PyError.text).or view.record.error = engine.lastError taskId view.called

/-- The steps that neither make a call nor write an error. -/
def Pc.keepsErrors : Pc → Bool
  | call _ _ | checkFail _ _ _ | fail _ _ _ | walk _ _ _ => false
  | _ => true

variable {engine : AcceptedEngine} {env : Env} {taskId : String} {state : RunState} {pc : Pc}

/-- Such a step keeps the error. -/
theorem WorkflowEngine.advance_keepsError (keeps : pc.keepsErrors = true) :
    KeepsError taskId state (engine.advance env taskId state pc).1 := by
  have noError : ¬ pc.Allows .error := by
    cases pc with
    | fail task attempt error => cases keeps
    | walk failedTaskId toVisit visited => cases keeps
    | _ => exact id
  have noCall : ¬ pc.Allows .call := by
    cases pc with
    | call task attempt => cases keeps
    | _ => exact id
  have respects : Respects (KeepsError taskId) (engine.act env taskId pc) :=
    (engine.act_makes env taskId pc).of_closure fun _ _ => KeepsError.of_change noError noCall
  exact advance_of_respects respects state

/-- Only a call that raises leaves its exception to its thread. -/
theorem WorkflowEngine.unrecorded_advance (noCall : ∀ task attempt, pc ≠ .call task attempt)
    (noCheck : ∀ task attempt error, pc ≠ .checkFail task attempt error) :
    (engine.advance env taskId state pc).2.unrecorded? = none := by
  rcases engine.advance_leads env taskId state pc with leads | ⟨error, raised⟩
  · generalize (engine.advance env taskId state pc).2 = next at leads ⊢
    cases leads with
    | callRaised task attempt error => exact absurd rfl (noCall task attempt)
    | checkFail task attempt error => exact absurd rfl (noCheck task attempt error)
    | _ => rfl
  · rw [raised]
    rfl

namespace WorkflowEngine.ErrorOk

/-- The call adds its error, which the thread then holds. -/
theorem call {task : Task} {attempt : ℕ}
    (recorded : (state.view taskId).record.error =
      engine.lastError taskId (state.view taskId).called)
    (known : taskId ∈ engine.workflow.tasks) :
    engine.ErrorOk taskId
      ((engine.advance env taskId state (.call task attempt)).1.view taskId)
      (engine.advance env taskId state (.call task attempt)).2 := by
  obtain ⟨callable, found⟩ := OrderedDict.exists_get?_of_mem ((engine.mem_tasks taskId).mpr known)
  obtain ⟨after, ran, view⟩ := callTask_view env state taskId attempt found
  cases result : callable (engine.context env taskId attempt) with
  | ok _ =>
      have acted : (engine.act env taskId (.call task attempt)).run state =
          .ok (.checkSucceed attempt) after := by
        simp only [act, EStateM.run_bind, ran, result, EStateM.run_pure]
      rw [advance_of_ok acted, view]
      exact .inr (recorded.trans (lastError_of_returns _ (errorText_of_ok found result)).symm)
  | error error =>
      have acted : (engine.act env taskId (.call task attempt)).run state =
          .ok (.checkFail task attempt error) after := by
        simp only [act, EStateM.run_bind, ran, result, EStateM.run_pure]
      rw [advance_of_ok acted, view]
      exact .inr (lastError_of_raises _ (errorText_of_error found result)).symm

/-- The block after the attempt writes the error that the thread holds. -/
theorem fail {task : Task} {attempt : ℕ} {error : PyError}
    (recorded : some error.text = engine.lastError taskId (state.view taskId).called) :
    engine.ErrorOk taskId
      ((engine.advance env taskId state (.fail task attempt error)).1.view taskId)
      (engine.advance env taskId state (.fail task attempt error)).2 := by
  obtain ⟨after, ran, view⟩ := failAttempt_view env state taskId error
  have acted : (engine.act env taskId (.fail task attempt error)).run state =
      .ok (if attempt < task.maxAttempts then .checkRetry task attempt
        else .permanent attempt) after := Exec.run_then ran _
  rw [advance_of_ok acted, view]
  refine .inr ?_
  by_cases remaining : attempt < task.maxAttempts
  · rw [if_pos remaining]
    exact recorded
  · rw [if_neg remaining]
    exact recorded

/-- A step that neither calls nor writes an error keeps it. -/
theorem keep (recorded : (state.view taskId).record.error =
      engine.lastError taskId (state.view taskId).called)
    (keeps : pc.keepsErrors = true) :
    engine.ErrorOk taskId ((engine.advance env taskId state pc).1.view taskId)
      (engine.advance env taskId state pc).2 := by
  have next : (engine.advance env taskId state pc).2.unrecorded? = none := by
    refine unrecorded_advance (fun task attempt same => ?_) fun task attempt error same => ?_
    · subst same
      cases keeps
    · subst same
      cases keeps
  obtain ⟨error, called⟩ : KeepsError taskId state (engine.advance env taskId state pc).1 :=
    advance_keepsError keeps
  refine .inr ?_
  rw [next, error, called]
  exact recorded

/-- A step keeps the invariant of its own task. -/
theorem advance (errorOk : engine.ErrorOk taskId (state.view taskId) pc)
    (ok : engine.TaskOk env taskId (state.view taskId) pc)
    (known : taskId ∈ engine.workflow.tasks) :
    engine.ErrorOk taskId ((engine.advance env taskId state pc).1.view taskId)
      (engine.advance env taskId state pc).2 := by
  rcases errorOk with marked | recorded
  · exact .inl (ok.stateOf_advance_marked marked)
  cases pc with
  | call task attempt => exact call recorded known
  | checkFail task attempt error =>
      have legal : canTransition (state.stateOf taskId) .failed := by
        rw [RunState.stateOf_eq, ok.2.2.state]
        decide
      have acted : (engine.act env taskId (.checkFail task attempt error)).run state =
          .ok (.fail task attempt error)
            (state.emit (.checked taskId (state.stateOf taskId) .failed)) := by
        rw [act, EStateM.run_bind, Exec.run_transition legal]
        rfl
      rw [advance_of_ok acted, view_checked]
      exact .inr recorded
  | fail task attempt error => exact fail recorded
  | walk failedTaskId toVisit visited =>
      rcases ok.advance_cases taskId with same | ⟨_, _, _, _, _, _, view⟩ | ⟨_, unblocked⟩
      · refine .inr ?_
        rw [same, unrecorded_advance (by simp) (by simp)]
        exact recorded
      · rw [view]
        exact .inl rfl
      · exact absurd (AcceptedEngine.outcome_of_ancestor ok.2.2.2.1 (.single ok.2.2.1)) unblocked
  | _ => exact keep recorded rfl

end WorkflowEngine.ErrorOk

/-- **In every state of every run, a task that is not marked has the error of its
last call that has raised, unless its thread still has it.** -/
theorem Reachable.errorOk {machine : Machine}
    (run : engine.Steps env (engine.start env) machine) (taskId : String) :
    engine.ErrorOk taskId (machine.shared.view taskId) (machine.pcs taskId) := by
  induction run with
  | refl =>
      obtain ⟨shared, levels, same, _, _, views, _⟩ := start_eq engine env
      rw [same]
      refine .inr ?_
      rw [views]
      rfl
  | @tail machine next steps step ih =>
      obtain ⟨past, invariant⟩ := (Reachable.steps steps).invariant
      cases step with
      | take running waiting free => exact ih
      | @work worker running held unfinished =>
          have ok := invariant.tasks worker
          by_cases own : taskId = worker
          · subst own
            rw [work_pcs_self]
            exact ih.advance ok (invariant.known (invariant.submitted taskId (.inr held)))
          · rw [work_pcs_of_ne own]
            rcases ok.advance_cases taskId with same | ⟨_, _, _, _, _, _, view⟩ | ⟨same, _⟩
            · exact same.symm ▸ ih
            · refine .inl ?_
              rw [show (engine.work env machine worker).shared.view taskId = _ from view]
              rfl
            · exact absurd same own
      | leave running held finished => exact ih
      | submit running drained idle toCome returned => exact ih
      | raise running drained idle first => exact ih
      | finish running drained idle last returned =>
          obtain ⟨after, ran, views, _⟩ :=
            (Reachable.steps steps).finishRun running drained idle last returned
          rw [WorkflowEngine.finish_of_ok ran]
          exact (views taskId).symm ▸ ih

/-- The error of a task in a run that has returned. -/
theorem Reachable.error_of_returned {machine : Machine}
    (run : engine.Steps env (engine.start env) machine) (returned : machine.status = .returned)
    (known : taskId ∈ engine.workflow.tasks)
    (notMarked : machine.stateOf taskId ≠ .upstreamFailed) :
    (machine.shared.recordOf taskId).error =
      engine.lastError taskId (engine.contexts env taskId (machine.attemptsOf taskId)) := by
  have reachable := Reachable.steps run
  have stage := reachable.stage
  rw [Stage, returned] at stage
  have errorOk := Reachable.errorOk run taskId
  rw [stage.1 taskId known] at errorOk
  have called := ((reachable.isResult returned).settles taskId known).agrees.2
  rcases errorOk with marked | recorded
  · exact absurd marked notMarked
  · rw [called] at recorded
    exact recorded

end EtlOrchestrator
