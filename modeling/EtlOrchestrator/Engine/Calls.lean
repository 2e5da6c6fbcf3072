import EtlOrchestrator.Engine.Safety
import EtlOrchestrator.Foundations.DictUpdates

/-!
# The contexts of the calls

In each state of a run the callable of a task has been called for its first attempts, in order and
no more often than the task allows. Each call was made with the context of the attempt, whose
parameters are those of the run and, where the run has none, those of the task.
-/

set_option autoImplicit false

namespace EtlOrchestrator

open WorkflowEngine

variable {engine : AcceptedEngine} {env : Env} {taskId : String}

/-- The parameters of a run take the place of those of a task. -/
theorem get?_mergeParams (params others : Params) (key : String) :
    (mergeParams params others).get? key = (others.get? key).or (params.get? key) :=
  OrderedDict.get?_update_entries params others key

/-- A context of the first attempts. -/
theorem WorkflowEngine.mem_contexts {count : ℕ} {context : TaskContext} :
    context ∈ engine.contexts env taskId count ↔
      ∃ attempt, 1 ≤ attempt ∧ attempt ≤ count ∧ context = engine.context env taskId attempt := by
  simp only [contexts, List.mem_map, List.mem_range'_1]
  constructor
  · rintro ⟨attempt, ⟨first, last⟩, rfl⟩
    exact ⟨attempt, first, by omega, rfl⟩
  · rintro ⟨attempt, first, last, rfl⟩
    exact ⟨attempt, ⟨first, by omega⟩, rfl⟩

namespace AcceptedEngine

variable {view : TaskView}

/-- What has been called so far. -/
def CalledUpTo (engine : AcceptedEngine) (env : Env) (taskId : String) (view : TaskView) : Prop :=
  ∃ count ≤ engine.maxAttempts taskId, view.called = engine.contexts env taskId count

theorem At.calledUpTo {state : TaskState} {attempts calls : ℕ}
    (at' : engine.At env taskId view state attempts calls)
    (allowed : calls ≤ engine.maxAttempts taskId) : engine.CalledUpTo env taskId view :=
  ⟨calls, allowed, at'.called⟩

theorem At.calledUpTo_zero {state : TaskState} {attempts : ℕ}
    (at' : engine.At env taskId view state attempts 0) : engine.CalledUpTo env taskId view :=
  at'.calledUpTo (Nat.zero_le _)

theorem Waiting.calledUpTo (waiting : engine.Waiting env taskId view) :
    engine.CalledUpTo env taskId view := by
  rcases waiting with at' | ⟨at', _⟩
  · exact at'.calledUpTo_zero
  · exact at'.calledUpTo_zero

theorem Settles.calledUpTo (settles : engine.Settles env taskId view) :
    engine.CalledUpTo env taskId view := by
  rw [Settles] at settles
  cases outcome : engine.outcome env taskId with
  | value attempt =>
      rw [outcome] at settles
      exact settles.calledUpTo (outcome_eq_value_iff.mp outcome).2.allowed
  | failed =>
      rw [outcome] at settles
      exact settles.calledUpTo (le_refl _)
  | blocked =>
      rw [outcome] at settles
      exact settles.calledUpTo_zero

/-- In each state the callable was called for the first attempts of a task. -/
theorem TaskOk.calledUpTo {pc : Pc} (ok : engine.TaskOk env taskId view pc) :
    engine.CalledUpTo env taskId view := by
  have before : ∀ {task : Task} {attempt : ℕ}, engine.Attempting env taskId task attempt →
      attempt - 1 ≤ engine.maxAttempts taskId := fun attempting =>
    (Nat.sub_le _ 1).trans (attempting.maxAttempts ▸ attempting.allowed)
  have during : ∀ {task : Task} {attempt : ℕ}, engine.Failing env taskId task attempt →
      attempt ≤ engine.maxAttempts taskId := fun failing =>
    failing.maxAttempts ▸ failing.allowed
  have atEnd : ∀ {attempt : ℕ}, engine.outcome env taskId = .value attempt →
      attempt ≤ engine.maxAttempts taskId := fun outcome =>
    (outcome_eq_value_iff.mp outcome).2.allowed
  cases pc with
  | enter => exact ok.2.calledUpTo
  | firstCheck => exact ok.2.calledUpTo
  | skip => exact ok.2.1.calledUpTo_zero
  | scan rest => exact ok.2.1.calledUpTo
  | scanCheck upstreamId rest => exact ok.2.1.calledUpTo
  | walk failedTaskId pendingVisit visited =>
      obtain ⟨_, ⟨at', _⟩ | at', _⟩ := ok
      · exact at'.calledUpTo_zero
      · exact at'.calledUpTo_zero
  | refresh => exact ok.2.1.calledUpTo
  | secondCheck => exact ok.2.1.calledUpTo
  | define => exact ok.2.1.calledUpTo_zero
  | checkStart task attempt => exact ok.2.2.calledUpTo (before ok.2.1)
  | start task attempt => exact ok.2.2.calledUpTo (before ok.2.1)
  | hookStart task attempt => exact ok.2.2.calledUpTo (before ok.2.1)
  | call task attempt => exact ok.2.2.calledUpTo (before ok.2.1)
  | checkFail task attempt error => exact ok.2.2.calledUpTo (during ok.2.1)
  | fail task attempt error => exact ok.2.2.calledUpTo (during ok.2.1)
  | checkRetry task attempt => exact ok.2.2.2.calledUpTo (during ok.2.1)
  | retry task attempt delay => exact ok.2.2.2.2.calledUpTo (during ok.2.1)
  | hookRetry task attempt delay => exact ok.2.2.2.calledUpTo (during ok.2.1)
  | sleep task attempt delay => exact ok.2.2.2.calledUpTo (during ok.2.1)
  | permanent attempt => exact ok.2.1.calledUpTo
  | hookFailure => exact ok.2.1.calledUpTo
  | checkSucceed attempt => exact ok.2.2.calledUpTo (atEnd ok.2.1)
  | succeed attempt => exact ok.2.2.calledUpTo (atEnd ok.2.1)
  | hookSuccess attempt => exact ok.2.2.calledUpTo (atEnd ok.2.1)
  | done => exact ok.2.calledUpTo
  | raised error =>
      obtain ⟨_, _, task, attempt, failing, _, at' | at'⟩ := ok
      · exact at'.calledUpTo (during failing)
      · exact at'.calledUpTo (during failing)

end AcceptedEngine

/-- **Each call is that of an allowed attempt of a task.** -/
theorem Reachable.context_of_mem_calls {machine : Machine}
    (reachable : Reachable engine env machine) {context : TaskContext}
    (called : context ∈ machine.shared.calls) :
    context.taskId ∈ engine.workflow.tasks ∧ ∃ attempt, 1 ≤ attempt ∧
      attempt ≤ engine.maxAttempts context.taskId ∧
      context = engine.context env context.taskId attempt := by
  have inView : context ∈ (machine.shared.view context.taskId).called :=
    List.mem_filter.mpr ⟨called, decide_eq_true rfl⟩
  obtain ⟨count, allowed, upTo⟩ := (reachable.task_ok context.taskId).calledUpTo
  rw [upTo] at inView
  obtain ⟨attempt, first, last, same⟩ := mem_contexts.mp inView
  refine ⟨?_, attempt, first, last.trans allowed, same⟩
  by_contra unknown
  have none : engine.maxAttempts context.taskId = 0 := by
    rw [maxAttempts, OrderedDict.get?_eq_none_iff.mpr unknown]
    rfl
  omega

end EtlOrchestrator
