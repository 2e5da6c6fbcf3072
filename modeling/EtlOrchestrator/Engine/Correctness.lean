import EtlOrchestrator.Engine.Sequential

/-!
# What runs compute

A run that returns has one record for each task, in the state and with the
attempts of the task's outcome, and its workflow state says whether every task
has succeeded. Sequential runs always return unless a retry overflows, and
parallel runs end with the same result, in whatever order the workers take their
steps.
-/

set_option autoImplicit false

namespace EtlOrchestrator

open BlockingEvaluation Relation

variable {engine : AcceptedEngine} {env : Env} {machine : Machine} {taskId : String}

/-! ## Settled tasks -/

/-- The state and the attempts in which a task settles on an outcome. -/
def WorkflowEngine.settledAs (engine : WorkflowEngine) (taskId : String) :
    Settled ℕ → TaskState × ℕ
  | .value attempt => (.success, attempt)
  | .failed => (.failed, engine.maxAttempts taskId)
  | .blocked => (.upstreamFailed, 0)

theorem WorkflowEngine.settledAs_inj (engine : WorkflowEngine) (taskId : String)
    {outcome other : Settled ℕ} :
    engine.settledAs taskId outcome = engine.settledAs taskId other ↔ outcome = other := by
  cases outcome <;> cases other <;> simp [settledAs]

theorem WorkflowEngine.settledAs_congr {engine other : WorkflowEngine}
    (sameWorkflow : other.workflow = engine.workflow) (taskId : String) :
    other.settledAs taskId = engine.settledAs taskId := by
  funext outcome
  cases outcome with
  | value attempt => rfl
  | failed => rw [settledAs, settledAs, maxAttempts_congr sameWorkflow]
  | blocked => rfl

/-- The record and the calls of a task that agrees with its outcome. -/
theorem AcceptedEngine.Settles.agrees {view : TaskView} (settles : engine.Settles env taskId view) :
    (view.record.state, view.record.attempts) =
        engine.settledAs taskId (engine.outcome env taskId) ∧
      view.called = engine.contexts env taskId view.record.attempts := by
  have at' : engine.At env taskId view
      (engine.settledAs taskId (engine.outcome env taskId)).1
      (engine.settledAs taskId (engine.outcome env taskId)).2
      (engine.settledAs taskId (engine.outcome env taskId)).2 := by
    rw [Settles] at settles
    cases outcome : engine.outcome env taskId <;> rw [outcome] at settles <;> exact settles
  exact ⟨Prod.ext at'.state at'.attempts, by rw [at'.called, at'.attempts]⟩

/-! ## Results -/

/-- A result has one record for each task, which agrees with the task's outcome,
and the workflow state that its tasks aggregate to. -/
structure IsResult (engine : AcceptedEngine) (env : Env) (final : RunState) : Prop where
  recorded : ∀ taskId, taskId ∈ final.run.records ↔ taskId ∈ engine.workflow.tasks
  settles : ∀ taskId ∈ engine.workflow.tasks, engine.Settles env taskId (final.view taskId)
  workflowState : final.run.workflowState = engine.finalState env

/-- **A run that returns has computed a result.** -/
theorem Reachable.isResult (reachable : Reachable engine env machine)
    (returned : machine.status = .returned) : IsResult engine env machine.shared := by
  have stage := reachable.stage
  rw [Stage, returned] at stage
  obtain ⟨allDone, workflow⟩ := stage
  obtain ⟨past, invariant⟩ := reachable.invariant
  refine ⟨fun taskId => ⟨invariant.recorded taskId, fun known => ?_⟩, fun taskId known => ?_,
    congrArg WorkflowView.state workflow⟩
  · refine invariant.entered taskId fun atEnter => ?_
    rw [allDone taskId known] at atEnter
    cases atEnter
  · have ok := invariant.tasks taskId
    rw [allDone taskId known] at ok
    exact ok.2

namespace IsResult

variable {final : RunState} (result : IsResult engine env final)

include result

theorem agrees_iff (known : taskId ∈ engine.workflow.tasks) {outcome : Settled ℕ} :
    (final.stateOf taskId, (final.recordOf taskId).attempts) = engine.settledAs taskId outcome ↔
      engine.outcome env taskId = outcome := by
  rw [← WorkflowEngine.settledAs_inj engine.toWorkflowEngine taskId,
    ← (result.settles taskId known).agrees.1]
  rfl

theorem state_eq_success_iff (known : taskId ∈ engine.workflow.tasks) :
    final.stateOf taskId = .success ↔ (engine.outcome env taskId).HasValue := by
  have agrees := (result.agrees_iff known).mpr rfl
  rw [Prod.eq_iff_fst_eq_snd_eq] at agrees
  simp only at agrees
  rw [agrees.1]
  cases engine.outcome env taskId <;> simp [WorkflowEngine.settledAs]

theorem state_eq_failed_iff (known : taskId ∈ engine.workflow.tasks) :
    final.stateOf taskId = .failed ↔ engine.outcome env taskId = .failed :=
  (result.settles taskId known).state_eq_failed_iff

/-- The upstreams of a task have all succeeded when their outcomes are successes. -/
theorem upstreams_iff : (∀ up, engine.workflow.Edge up taskId → final.stateOf up = .success) ↔
    ∀ up, engine.workflow.Edge up taskId → (engine.outcome env up).HasValue := by
  refine forall₂_congr fun up edge => ?_
  exact result.state_eq_success_iff (engine.valid.closed.upstreams taskId up edge)

/-- A task settles on its first success when its upstreams have succeeded. -/
theorem succeeded_iff (known : taskId ∈ engine.workflow.tasks) {attempt : ℕ} :
    (final.stateOf taskId = .success ∧ (final.recordOf taskId).attempts = attempt) ↔
      (∀ up, engine.workflow.Edge up taskId → final.stateOf up = .success) ∧
        engine.IsFirstSuccess env taskId attempt := by
  rw [result.upstreams_iff, ← AcceptedEngine.outcome_eq_value_iff, ← result.agrees_iff known,
    WorkflowEngine.settledAs, Prod.mk.injEq]

/-- A task fails when its upstreams have succeeded and all its attempts fail. -/
theorem failed_iff (known : taskId ∈ engine.workflow.tasks) :
    (final.stateOf taskId = .failed ∧
        (final.recordOf taskId).attempts = engine.maxAttempts taskId) ↔
      (∀ up, engine.workflow.Edge up taskId → final.stateOf up = .success) ∧
        ∀ attempt, 1 ≤ attempt → attempt ≤ engine.maxAttempts taskId →
          ¬ engine.Succeeds env taskId attempt := by
  rw [result.upstreams_iff, ← AcceptedEngine.outcome_eq_failed_iff, ← result.agrees_iff known,
    WorkflowEngine.settledAs, Prod.mk.injEq]

/-- A task is blocked when one of its ancestors has failed. -/
theorem blocked_iff (known : taskId ∈ engine.workflow.tasks) :
    (final.stateOf taskId = .upstreamFailed ∧ (final.recordOf taskId).attempts = 0) ↔
      ∃ ancestor, TransGen engine.workflow.Edge ancestor taskId ∧
        final.stateOf ancestor = .failed := by
  rw [← Prod.mk.injEq, ← show engine.settledAs taskId .blocked = (.upstreamFailed, 0) from rfl,
    result.agrees_iff known, AcceptedEngine.outcome_eq_blocked_iff]
  refine exists_congr fun ancestor => and_congr_right fun above => ?_
  obtain ⟨child, edge, _⟩ := TransGen.head'_iff.mp above
  exact (result.state_eq_failed_iff (engine.valid.closed.upstreams child ancestor edge)).symm

/-- Every task ends in one of the three ways. -/
theorem settled_cases (known : taskId ∈ engine.workflow.tasks) :
    final.stateOf taskId = .success ∨
      (final.stateOf taskId = .failed ∧
        (final.recordOf taskId).attempts = engine.maxAttempts taskId) ∨
      (final.stateOf taskId = .upstreamFailed ∧ (final.recordOf taskId).attempts = 0) := by
  have agrees := (result.agrees_iff known).mpr rfl
  cases outcome : engine.outcome env taskId with
  | value attempt =>
      rw [outcome] at agrees
      exact .inl (Prod.mk.inj agrees).1
  | failed =>
      rw [outcome] at agrees
      exact .inr (.inl (Prod.mk.inj agrees))
  | blocked =>
      rw [outcome] at agrees
      exact .inr (.inr (Prod.mk.inj agrees))

/-- The workflow succeeds when all tasks do, and fails otherwise. -/
theorem workflowState_iff :
    (final.run.workflowState = .success ↔
      ∀ taskId ∈ engine.workflow.tasks, final.stateOf taskId = .success) ∧
      (final.run.workflowState = .success ∨ final.run.workflowState = .failed) := by
  have same : (∀ taskId ∈ engine.workflow.tasks, final.stateOf taskId = .success) ↔
      ∀ taskId ∈ engine.workflow.tasks, (engine.outcome env taskId).HasValue :=
    forall₂_congr fun taskId known => result.state_eq_success_iff known
  rw [same, result.workflowState, AcceptedEngine.finalState]
  split
  · exact ⟨iff_of_true rfl ‹_›, .inl rfl⟩
  · exact ⟨iff_of_false (by decide) ‹_›, .inr rfl⟩

/-- Two results of the same workflow and the same successes agree. -/
theorem same {other : AcceptedEngine} {otherEnv : Env} {otherFinal : RunState}
    (otherResult : IsResult other otherEnv otherFinal)
    (sameWorkflow : other.workflow = engine.workflow)
    (sameSuccess : ∀ taskId attempt,
      other.Succeeds otherEnv taskId attempt ↔ engine.Succeeds env taskId attempt) :
    (∀ taskId, taskId ∈ final.run.records ↔ taskId ∈ otherFinal.run.records) ∧
      (∀ taskId ∈ engine.workflow.tasks, final.stateOf taskId = otherFinal.stateOf taskId ∧
        (final.recordOf taskId).attempts = (otherFinal.recordOf taskId).attempts) ∧
      final.run.workflowState = otherFinal.run.workflowState := by
  have outcomes := AcceptedEngine.outcome_congr sameWorkflow sameSuccess
  refine ⟨fun taskId => ?_, fun taskId known => ?_, ?_⟩
  · rw [result.recorded, otherResult.recorded, sameWorkflow]
  · have agrees := (result.agrees_iff known).mpr rfl
    have otherAgrees := (otherResult.agrees_iff (sameWorkflow ▸ known)).mpr rfl
    rw [outcomes, WorkflowEngine.settledAs_congr sameWorkflow] at otherAgrees
    exact Prod.mk.inj (agrees.trans otherAgrees.symm)
  · rw [result.workflowState, otherResult.workflowState, AcceptedEngine.finalState,
      AcceptedEngine.finalState]
    have sameValues : (∀ taskId ∈ other.workflow.tasks, (other.outcome otherEnv taskId).HasValue) ↔
        ∀ taskId ∈ engine.workflow.tasks, (engine.outcome env taskId).HasValue := by
      rw [sameWorkflow, funext outcomes]
    by_cases values : ∀ taskId ∈ engine.workflow.tasks, (engine.outcome env taskId).HasValue
    · rw [if_pos values, if_pos (sameValues.mpr values)]
    · rw [if_neg values, if_neg (sameValues.not.mpr values)]

end IsResult

/-! ## Sequential runs -/

/-- The exact arithmetic never overflows. -/
theorem WorkflowEngine.noOverflow_exact (engine : WorkflowEngine) {env : Env}
    (exact : env.arithmetic = .exact) : engine.NoOverflow env := by
  intro taskId task attempt _ _ _
  rw [exact]
  exact ⟨_, rfl, fun reading => ⟨_, rfl⟩⟩

/-- After the whole run the calls are those of all tasks, in topological order. -/
theorem Reachable.calls_of_returned (one : engine.maxWorkers = 1)
    (run : engine.Steps env (engine.start env) machine) (returned : machine.status = .returned)
    {order : List String} (computed : engine.topologicalOrder = .ok order) :
    machine.shared.calls = order.flatMap fun taskId =>
      engine.contexts env taskId (machine.shared.recordOf taskId).attempts := by
  have reachable := Reachable.steps run
  obtain ⟨earlier, split, inOrder⟩ := calls_in_order one computed run
  have known : ∀ taskId ∈ order, taskId ∈ engine.workflow.tasks := by
    obtain ⟨other, otherComputed, _, extension⟩ :=
      WorkflowEngine.topologicalOrder_eq_ok engine.valid
    rw [computed] at otherComputed
    cases otherComputed
    exact fun taskId member => OrderedDict.mem_keySet.mp ((extension.mem_iff taskId).mp member)
  rw [reachable.levels_of_returned returned, List.append_nil] at split
  rw [split, inOrder]
  refine List.flatMap_congr fun taskId member => ?_
  exact ((reachable.isResult returned).settles taskId (known taskId (split ▸ member))).agrees.2

/-- **A sequential run returns one record for each task. A task succeeds at its
first successful attempt when its upstreams have succeeded, fails when all its
attempts do, and is otherwise blocked, which happens exactly when an ancestor has
failed. The callables are called attempt by attempt and task by task in
topological order, and the workflow succeeds when every task does.** -/
theorem sequential_run_correct (engine : AcceptedEngine) (env : Env)
    (one : engine.maxWorkers = 1) (noOverflow : engine.NoOverflow env) : ∃ final order,
    (engine.runSequential env).run (engine.created env) = .ok () final ∧
    engine.workflow.topologicalOrder = .ok order ∧
    (∀ taskId, taskId ∈ final.run.records ↔ taskId ∈ engine.workflow.tasks) ∧
    (∀ taskId ∈ engine.workflow.tasks,
      (∀ attempt, (final.stateOf taskId = .success ∧
          (final.recordOf taskId).attempts = attempt) ↔
        (∀ up, engine.workflow.Edge up taskId → final.stateOf up = .success) ∧
          engine.IsFirstSuccess env taskId attempt) ∧
      ((final.stateOf taskId = .failed ∧
          (final.recordOf taskId).attempts = engine.maxAttempts taskId) ↔
        (∀ up, engine.workflow.Edge up taskId → final.stateOf up = .success) ∧
          ∀ attempt, 1 ≤ attempt → attempt ≤ engine.maxAttempts taskId →
            ¬ engine.Succeeds env taskId attempt) ∧
      (final.stateOf taskId = .success ∨
        (final.stateOf taskId = .failed ∧
          (final.recordOf taskId).attempts = engine.maxAttempts taskId) ∨
        (final.stateOf taskId = .upstreamFailed ∧ (final.recordOf taskId).attempts = 0)) ∧
      ((final.stateOf taskId = .upstreamFailed ∧ (final.recordOf taskId).attempts = 0) ↔
        ∃ ancestor, TransGen engine.workflow.Edge ancestor taskId ∧
          final.stateOf ancestor = .failed)) ∧
    final.calls = order.flatMap (fun taskId =>
      (List.range' 1 (final.recordOf taskId).attempts).map (engine.context env taskId)) ∧
    (final.run.workflowState = .success ↔
      ∀ taskId ∈ engine.workflow.tasks, final.stateOf taskId = .success) ∧
    (final.run.workflowState = .success ∨ final.run.workflowState = .failed) := by
  obtain ⟨order, computed, returnedOrder, _⟩ :=
    WorkflowEngine.topologicalOrder_eq_ok engine.valid
  obtain ⟨machine, ran, run, returned⟩ := runSequential_eq_ok one noOverflow
  have result := (Reachable.steps run).isResult returned
  exact ⟨machine.shared, order, ran, returnedOrder, result.recorded,
    fun taskId known => ⟨fun attempt => result.succeeded_iff known, result.failed_iff known,
      result.settled_cases known, result.blocked_iff known⟩,
    Reachable.calls_of_returned one run returned computed, result.workflowState_iff⟩

theorem sequential_run_correct_pipeline : ∃ final order,
    ((pipeline 1 (by decide)).runSequential { runId := "run" }).run
      ((pipeline 1 (by decide)).created { runId := "run" }) = .ok () final ∧
    (pipeline 1 (by decide)).workflow.topologicalOrder = .ok order ∧
    (final.stateOf "extract" = .success ∧ (final.recordOf "extract").attempts = 2) ∧
    final.calls = order.flatMap (fun taskId =>
      (List.range' 1 (final.recordOf taskId).attempts).map
        ((pipeline 1 (by decide)).context { runId := "run" } taskId)) := by
  obtain ⟨final, order, ran, ordered, _, tasks, calls, _⟩ := sequential_run_correct
    (pipeline 1 (by decide)) { runId := "run" } rfl (WorkflowEngine.noOverflow_exact _ rfl)
  have noUpstream : (pipeline 1 (by decide)).workflow.upstream "extract" = ∅ := by decide +kernel
  have second : (pipeline 1 (by decide)).IsFirstSuccess { runId := "run" } "extract" 2 :=
    ⟨by decide, by decide +kernel, ⟨raisesUpTo 1, rfl, rfl⟩, by
      rintro other positive less ⟨callable, registered, returns⟩
      obtain rfl : other = 1 := by omega
      cases registered
      cases returns⟩
  refine ⟨final, order, ran, ordered, ((tasks "extract" (by decide)).1 2).mpr ⟨?_, second⟩, calls⟩
  intro up edge
  rw [Workflow.Edge, noUpstream] at edge
  cases edge

/-! ## Parallel runs -/

/-- **Every run, in whatever order its workers take their steps, comes to an end,
and can only end with the records' states and attempts and the workflow state of
the sequential run.** -/
theorem parallel_refines_sequential (engine sequential : AcceptedEngine)
    (env sequentialEnv : Env) (sameWorkflow : sequential.workflow = engine.workflow)
    (sameSuccess : ∀ taskId attempt,
      sequential.Succeeds sequentialEnv taskId attempt ↔ engine.Succeeds env taskId attempt)
    (one : sequential.maxWorkers = 1) (noOverflow : engine.NoOverflow env)
    (sequentialNoOverflow : sequential.NoOverflow sequentialEnv) : ∃ final,
    (sequential.runSequential sequentialEnv).run (sequential.created sequentialEnv) =
      .ok () final ∧
    (∀ run : ℕ → Machine, run 0 = engine.start env →
      ¬ ∀ n, engine.Step env (run n) (run (n + 1))) ∧
    ∀ machine, engine.Steps env (engine.start env) machine →
      (∀ next, ¬ engine.Step env machine next) →
      machine.status = .returned ∧
      (∀ taskId, taskId ∈ machine.shared.run.records ↔ taskId ∈ final.run.records) ∧
      (∀ taskId ∈ engine.workflow.tasks,
        machine.stateOf taskId = final.stateOf taskId ∧
        machine.attemptsOf taskId = (final.recordOf taskId).attempts) ∧
      machine.shared.run.workflowState = final.run.workflowState := by
  obtain ⟨sequentialEnd, ran, sequentialRun, sequentialReturned⟩ :=
    runSequential_eq_ok one sequentialNoOverflow
  refine ⟨sequentialEnd.shared, ran, fun run first => no_infinite_run first,
    fun machine run stuck => ?_⟩
  have reachable := Reachable.steps run
  have returned : machine.status = .returned := by
    cases status : machine.status with
    | running =>
        obtain ⟨next, step⟩ := reachable.progress status
        exact absurd step (stuck next)
    | raised error => exact absurd status (reachable.not_raised noOverflow error)
    | returned => rfl
  exact ⟨returned, (reachable.isResult returned).same
    ((Reachable.steps sequentialRun).isResult sequentialReturned) sameWorkflow sameSuccess⟩

theorem parallel_refines_sequential_pipeline : ∃ final machine,
    ((pipeline 1 (by decide)).runSequential { runId := "run" }).run
      ((pipeline 1 (by decide)).created { runId := "run" }) = .ok () final ∧
    (pipeline 2 (by decide)).replay { runId := "run" }
      ((pipeline 2 (by decide)).start { runId := "run" }) pipelineChoices = some machine ∧
    machine.stateOf "load" = .upstreamFailed ∧ final.stateOf "load" = .upstreamFailed ∧
    machine.shared.run.workflowState = final.run.workflowState := by
  obtain ⟨final, ran, _, ends⟩ := parallel_refines_sequential (pipeline 2 (by decide))
    (pipeline 1 (by decide)) { runId := "run" } { runId := "run" } rfl
    (fun _ _ => Iff.rfl) rfl (WorkflowEngine.noOverflow_exact _ rfl)
    (WorkflowEngine.noOverflow_exact _ rfl)
  have facts : ((pipeline 2 (by decide)).replay { runId := "run" }
      ((pipeline 2 (by decide)).start { runId := "run" }) pipelineChoices).map
        (fun machine => (machine.status, machine.stateOf "load")) =
      some (.returned, .upstreamFailed) := by decide +kernel
  obtain ⟨machine, replayed, facts⟩ := Option.map_eq_some_iff.mp facts
  obtain ⟨returned, blocked⟩ := Prod.mk.inj facts
  obtain ⟨_, _, same, sameState⟩ := ends machine (WorkflowEngine.steps_of_replay _ _ replayed)
    fun next step => by
      have running := step.running
      rw [returned] at running
      cases running
  exact ⟨final, machine, ran, replayed, blocked, (same "load" (by decide)).1 ▸ blocked, sameState⟩

end EtlOrchestrator
