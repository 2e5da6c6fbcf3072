import EtlOrchestrator.Dag.Construction
import EtlOrchestrator.Engine.Timestamps

/-!
# Declared dependencies

A task carries the ids that it declares in `depends_on`. The validation and the engine
never read them: they read the edges that the workflow keeps in its own dictionary.
`add_task` wires what a task declares, so the two agree in a workflow that is built by
calls that all succeed (`Built.declares`).

In a workflow that is loaded in bulk they need not agree, and the engine accepts it
all the same. Its tasks wait for what they declare if and only if each declared id
is an ancestor of its task in the dictionary (`waits_for_declared_iff`).
-/

set_option autoImplicit false

namespace EtlOrchestrator

open BlockingEvaluation Relation

/-! ## What tasks wait for -/

variable {engine : AcceptedEngine} {env : Env} {machine : Machine} {taskId up : String}

/-- Every ancestor of a task that was executed has succeeded. -/
theorem Reachable.ancestors_succeed (reachable : Reachable engine env machine)
    (executed : machine.Executed taskId) (above : TransGen engine.workflow.Edge up taskId) :
    machine.stateOf up = .success := by
  induction above using TransGen.head_induction_on with
  | single edge =>
      exact reachable.upstreams_succeed_of_not_waiting executed.not_waiting edge
  | head edge _ ih => exact reachable.upstreams_succeed (.inr (.inr (.inl ih))) edge

/-- A task that is not blocked has been executed when the run has returned. -/
theorem Reachable.executed_of_returned (reachable : Reachable engine env machine)
    (returned : machine.status = .returned) (known : taskId ∈ engine.workflow.tasks)
    (unblocked : engine.outcome env taskId ≠ .blocked) : machine.Executed taskId := by
  have settles := (reachable.isResult returned).settles taskId known
  have called := settles.agrees.2
  rw [AcceptedEngine.Settles] at settles
  have positive : 1 ≤ (machine.shared.view taskId).record.attempts := by
    cases outcome : engine.outcome env taskId with
    | value attempt =>
        rw [outcome] at settles
        rw [settles.attempts]
        exact (AcceptedEngine.outcome_eq_value_iff.mp outcome).2.positive
    | failed =>
        rw [outcome] at settles
        rw [settles.attempts]
        exact engine.one_le_maxAttempts known
    | blocked => exact absurd outcome unblocked
  have first : engine.context env taskId 1 ∈ (machine.shared.view taskId).called := by
    rw [called, WorkflowEngine.contexts]
    exact List.mem_map_of_mem (List.mem_range'_1.mpr ⟨le_refl 1, by omega⟩)
  obtain ⟨member, own⟩ := List.mem_filter.mp first
  exact ⟨_, member, of_decide_eq_true own⟩

/-! ## Workflows in which one task always fails -/

namespace AcceptedEngine

variable {workflow : Workflow} (valid : workflow.Valid) (failing : String)

/-- An engine for a workflow in which one callable always raises. -/
def failingAt : AcceptedEngine where
  workflow := workflow
  tasks := workflow.tasks.mapValues fun taskId _ _ =>
    if taskId = failing then .error (.runtimeError "down") else .ok ()
  valid := valid
  mem_tasks _ := OrderedDict.mem_mapValues
  one_le_maxWorkers := WorkflowEngine.one_le_default_maxWorkers

/-- Only the attempts of this task fail. -/
theorem succeeds_failingAt_iff {attempt : ℕ} :
    (failingAt valid failing).Succeeds env taskId attempt ↔
      taskId ∈ workflow.tasks ∧ taskId ≠ failing := by
  rw [WorkflowEngine.Succeeds, failingAt, OrderedDict.get?_mapValues,
    OrderedDict.mem_iff_get?_isSome]
  cases workflow.tasks.get? taskId with
  | none => simp
  | some task => by_cases same : taskId = failing <;> simp [same]

/-- A task that does not depend on it is executed, and it does not succeed. -/
theorem executed_failingAt (known : taskId ∈ workflow.tasks)
    (apart : ¬ TransGen workflow.Edge failing taskId) : ∃ machine,
    (failingAt valid failing).Steps { runId := "run" }
        ((failingAt valid failing).start { runId := "run" }) machine ∧
      machine.Executed taskId ∧ machine.stateOf failing ≠ .success := by
  have noOverflow : (failingAt valid failing).NoOverflow { runId := "run" } :=
    WorkflowEngine.noOverflow_exact _ rfl
  obtain ⟨machine, _, steps, returned⟩ := runSequential_eq_ok rfl noOverflow
  have reachable := Reachable.steps steps
  refine ⟨machine, steps, reachable.executed_of_returned returned known fun blocked => ?_,
    fun succeeded => ?_⟩
  · -- Only the failing task can be the ancestor that has failed.
    obtain ⟨ancestor, above, failed⟩ := outcome_eq_blocked_iff.mp blocked
    obtain ⟨child, edge, _⟩ := TransGen.head'_iff.mp above
    have ancestorKnown := valid.closed.upstreams child ancestor edge
    have different : ancestor ≠ failing := fun same => apart (same ▸ above)
    exact (outcome_eq_failed_iff.mp failed).2 1 (le_refl 1)
      ((failingAt valid failing).one_le_maxAttempts ancestorKnown)
      ((succeeds_failingAt_iff valid failing).mpr ⟨ancestorKnown, different⟩)
  · by_cases failingKnown : failing ∈ workflow.tasks
    · have value := ((reachable.isResult returned).state_eq_success_iff failingKnown).mp succeeded
      cases outcome : (failingAt valid failing).outcome { runId := "run" } failing with
      | value attempt =>
          have first := (outcome_eq_value_iff.mp outcome).2
          exact ((succeeds_failingAt_iff valid failing).mp first.succeeds).2 rfl
      | failed =>
          rw [outcome] at value
          exact not_hasValue_failed value
      | blocked =>
          rw [outcome] at value
          exact not_hasValue_blocked value
    · rcases reachable.waiting_of_unknown failingKnown with at' | ⟨at', _⟩
      · cases at'.state.symm.trans succeeded
      · cases at'.state.symm.trans succeeded

end AcceptedEngine

/-- In every run of every engine for a workflow, a task is executed only when what it
declares has succeeded. -/
def Workflow.WaitsForDeclared (workflow : Workflow) : Prop :=
  ∀ engine : AcceptedEngine, engine.workflow = workflow → ∀ env machine,
    engine.Steps env (engine.start env) machine → ∀ taskId task,
      workflow.tasks.get? taskId = some task → machine.Executed taskId →
        ∀ up ∈ task.dependsOn, machine.stateOf up = .success

theorem Workflow.waits_of_ancestors {workflow : Workflow}
    (ancestors : ∀ taskId task, workflow.tasks.get? taskId = some task →
      ∀ up ∈ task.dependsOn, TransGen workflow.Edge up taskId) : workflow.WaitsForDeclared := by
  rintro engine rfl env machine steps taskId task stored executed up declared
  exact (Reachable.steps steps).ancestors_succeed executed
    (ancestors taskId task stored up declared)

/-- It is enough that each task declares upstreams of its own entry only. -/
theorem Workflow.waits_of_contained {workflow : Workflow}
    (contained : ∀ taskId task, workflow.tasks.get? taskId = some task →
      ∀ up ∈ task.dependsOn, up ∈ workflow.upstream taskId) : workflow.WaitsForDeclared :=
  waits_of_ancestors fun taskId task stored up declared =>
    .single (contained taskId task stored up declared)

/-- The tasks of a workflow that is built by calls wait for what they declare. -/
theorem Workflow.Built.waits {workflow : Workflow} (built : workflow.Built) :
    workflow.WaitsForDeclared :=
  waits_of_contained built.declares

/-- **The tasks of a valid workflow wait for what they declare if and only if each declared
id is an ancestor of its task.** -/
theorem waits_for_declared_iff (workflow : Workflow) (accepted : workflow.validateGraph = []) :
    workflow.WaitsForDeclared ↔ ∀ taskId task, workflow.tasks.get? taskId = some task →
      ∀ up ∈ task.dependsOn, TransGen workflow.Edge up taskId := by
  have valid := Workflow.validateGraph_eq_nil_iff_valid.mp accepted
  refine ⟨fun waits taskId task stored up declared => ?_, Workflow.waits_of_ancestors⟩
  by_contra apart
  obtain ⟨machine, steps, executed, notSuccess⟩ :=
    AcceptedEngine.executed_failingAt valid up (OrderedDict.mem_of_get? stored) apart
  exact notSuccess (waits _ rfl _ machine steps taskId task stored executed up declared)

/-- A task that declares another one. -/
def publishTask : Task where
  taskId := "publish"
  dependsOn := ["fetch"]
  taskId_valid := by decide

/-- These two tasks, with some edges. -/
def publishing (dependencies : OrderedDict String (Finset String)) : Workflow where
  workflowId := "publishing"
  tasks := ⟨[("fetch", { taskId := "fetch", taskId_valid := by decide }),
    ("publish", publishTask)], by decide⟩
  dependencies := dependencies

theorem waits_for_declared_wired :
    (publishing ⟨[("publish", {"fetch"})], by decide⟩).WaitsForDeclared := by
  refine (waits_for_declared_iff _ (by decide +kernel)).mpr fun taskId task stored up declared => ?_
  have entry := OrderedDict.get?_eq_some_iff.mp stored
  simp only [publishing, List.mem_cons, Prod.mk.injEq, List.not_mem_nil, or_false] at entry
  rcases entry with ⟨rfl, rfl⟩ | ⟨rfl, rfl⟩
  · cases declared
  · rw [List.mem_singleton.mp declared]
    exact .single (by decide +kernel)

/-- Without the edge the graph is accepted, and the task is executed although the other one
has not succeeded. -/
theorem publishes_without_fetch :
    (publishing ∅).validateGraph = [] ∧ publishTask.dependsOn = ["fetch"] ∧
    (∃ (engine : AcceptedEngine) (env : Env) (machine : Machine),
      engine.workflow = publishing ∅ ∧ engine.Steps env (engine.start env) machine ∧
      machine.Executed "publish" ∧ machine.stateOf "fetch" ≠ .success) ∧
    ¬ (publishing ∅).WaitsForDeclared := by
  have accepted : (publishing ∅).validateGraph = [] := by decide +kernel
  have valid := Workflow.validateGraph_eq_nil_iff_valid.mp accepted
  have apart : ¬ TransGen (publishing ∅).Edge "fetch" "publish" := by
    intro above
    obtain ⟨_, _, edge⟩ := TransGen.tail'_iff.mp above
    exact absurd edge.mem_dependencies (OrderedDict.not_mem_empty _)
  obtain ⟨machine, steps, executed, notSuccess⟩ :=
    AcceptedEngine.executed_failingAt valid "fetch" (by decide +kernel) apart
  refine ⟨accepted, rfl, ⟨_, _, machine, rfl, steps, executed, notSuccess⟩, fun waits => ?_⟩
  exact notSuccess (waits _ rfl _ machine steps "publish" publishTask rfl executed "fetch"
    List.mem_cons_self)

end EtlOrchestrator
