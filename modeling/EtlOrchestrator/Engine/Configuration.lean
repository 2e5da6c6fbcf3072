import Mathlib.Data.Finset.SDiff
import EtlOrchestrator.Dag.Validation
import EtlOrchestrator.Engine.Records

/-!
# The engine and its construction

An engine binds a workflow to one callable for each of its tasks. The
constructor accepts a workflow only when it is valid and its tasks are exactly
the ids with a callable, and an `AcceptedEngine` carries these facts, so that no
other engine can be run.

The clock, the sleeper and the hooks of an engine belong to the environment of a
run.
-/

set_option autoImplicit false

namespace EtlOrchestrator

open SortedSet

/-- The attributes of an engine. -/
structure WorkflowEngine where
  workflow : Workflow
  tasks : OrderedDict String TaskCallable
  taskParams : OrderedDict String Params := ∅
  maxWorkers : ℕ := 1

/-- An engine that its constructor has accepted. -/
structure AcceptedEngine extends WorkflowEngine where
  valid : workflow.Valid
  mem_tasks : ∀ taskId, taskId ∈ tasks ↔ taskId ∈ workflow.tasks
  one_le_maxWorkers : 1 ≤ maxWorkers

namespace WorkflowEngine

/-- The default number of workers is allowed. -/
theorem one_le_default_maxWorkers : 1 ≤ 1 := Nat.le_refl 1

/-- The task ids without a callable. -/
def missingCallables (workflow : Workflow) (tasks : OrderedDict String TaskCallable) :
    List String :=
  sorted (workflow.tasks.keySet \ tasks.keySet)

/-- The ids with a callable that are no task. -/
def extraCallables (workflow : Workflow) (tasks : OrderedDict String TaskCallable) :
    List String :=
  sorted (tasks.keySet \ workflow.tasks.keySet)

theorem mem_iff_of_callables {workflow : Workflow} {tasks : OrderedDict String TaskCallable}
    (noneMissing : missingCallables workflow tasks = [])
    (noneExtra : extraCallables workflow tasks = []) (taskId : String) :
    taskId ∈ tasks ↔ taskId ∈ workflow.tasks := by
  rw [missingCallables, sorted_eq_nil_iff, Finset.sdiff_eq_empty_iff_subset] at noneMissing
  rw [extraCallables, sorted_eq_nil_iff, Finset.sdiff_eq_empty_iff_subset] at noneExtra
  rw [← OrderedDict.mem_keySet, ← OrderedDict.mem_keySet]
  exact ⟨fun member => noneExtra member, fun member => noneMissing member⟩

/-- `WorkflowEngine(...)`. -/
def init (workflow : Workflow) (tasks : OrderedDict String TaskCallable)
    (taskParams : OrderedDict String Params) (maxWorkers : ℤ) :
    Except OrchestrationError AcceptedEngine :=
  if tooFew : maxWorkers < 1 then
    .error (.engineConfiguration s!"max_workers must be >= 1, got {maxWorkers}")
  else match accepted : workflow.validateWorkflow with
    | .error error => .error (.engineConfiguration
        (s!"workflow '{workflow.workflowId}' is not executable: " ++ error.str))
    | .ok () =>
        if missing : missingCallables workflow tasks ≠ [] then
          .error (.engineConfiguration ("no callable registered for task(s): " ++
            ", ".intercalate (missingCallables workflow tasks)))
        else if extra : extraCallables workflow tasks ≠ [] then
          .error (.engineConfiguration ("callable(s) registered for unknown task(s): " ++
            ", ".intercalate (extraCallables workflow tasks)))
        else .ok
          { workflow, tasks, taskParams, maxWorkers := maxWorkers.toNat
            valid := workflow.validateWorkflow_eq_ok_iff.mp accepted
            mem_tasks := mem_iff_of_callables (not_not.mp missing) (not_not.mp extra)
            one_le_maxWorkers := by omega }

/-- The constructor keeps its arguments. -/
theorem of_init_eq_ok {workflow : Workflow} {tasks : OrderedDict String TaskCallable}
    {taskParams : OrderedDict String Params} {maxWorkers : ℤ} {engine : AcceptedEngine}
    (accepted : init workflow tasks taskParams maxWorkers = .ok engine) :
    engine.toWorkflowEngine = { workflow, tasks, taskParams, maxWorkers := maxWorkers.toNat } := by
  rw [init] at accepted
  split at accepted
  · cases accepted
  · split at accepted
    · cases accepted
    · split at accepted
      · cases accepted
      · split at accepted
        · cases accepted
        · cases accepted
          rfl

/-- **The constructor accepts exactly the valid workflows with one callable for
each task, and keeps its arguments.** -/
theorem init_eq_ok_iff {workflow : Workflow} {tasks : OrderedDict String TaskCallable}
    {taskParams : OrderedDict String Params} {maxWorkers : ℤ} :
    (∃ engine : AcceptedEngine, init workflow tasks taskParams maxWorkers = .ok engine ∧
        engine.toWorkflowEngine = { workflow, tasks, taskParams, maxWorkers := maxWorkers.toNat }) ↔
      1 ≤ maxWorkers ∧ workflow.Valid ∧ ∀ taskId, taskId ∈ tasks ↔ taskId ∈ workflow.tasks := by
  constructor
  · rintro ⟨engine, accepted, same⟩
    have enough : 1 ≤ maxWorkers := by
      have := engine.one_le_maxWorkers
      rw [same] at this
      simp only at this
      omega
    have valid := engine.valid
    have callables := engine.mem_tasks
    rw [same] at valid callables
    exact ⟨enough, valid, callables⟩
  · rintro ⟨enough, valid, callables⟩
    have keys : tasks.keySet = workflow.tasks.keySet := by
      ext taskId
      simpa using callables taskId
    have noneMissing : missingCallables workflow tasks = [] := by
      rw [missingCallables, keys, Finset.sdiff_self, sorted_empty]
    have noneExtra : extraCallables workflow tasks = [] := by
      rw [extraCallables, keys, Finset.sdiff_self, sorted_empty]
    have accepted := workflow.validateWorkflow_eq_ok_iff.mpr valid
    rw [init, dif_neg (by omega)]
    split
    · rename_i error rejected
      rw [accepted] at rejected
      cases rejected
    · rw [dif_neg (not_not.mpr noneMissing), dif_neg (not_not.mpr noneExtra)]
      exact ⟨_, rfl, rfl⟩

end WorkflowEngine

end EtlOrchestrator
