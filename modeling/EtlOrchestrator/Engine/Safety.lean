import EtlOrchestrator.Engine.Termination

/-!
# Safety of parallel runs

What holds in every reachable state of a run, for any number of workers and any
order of their steps. A started task has only succeeded upstreams, a blocked
task was never started and has a failed ancestor, and no more tasks are in
progress than there are workers.

The bound on the tasks in progress leaves out those whose execution was aborted
by an overflow in the arithmetic of a retry: the record of such a task stays
where it was, while its worker goes on to another job.
-/

set_option autoImplicit false

namespace EtlOrchestrator

open BlockingEvaluation Relation WorkflowEngine

/-- No retry of a task raises in its backoff arithmetic. -/
def WorkflowEngine.NoOverflow (engine : WorkflowEngine) (env : Env) : Prop :=
  ∀ taskId task attempt, engine.workflow.tasks.get? taskId = some task → 1 ≤ attempt →
    attempt < task.maxAttempts → ∃ delay, env.arithmetic.delay task attempt = .ok delay ∧
      ∀ reading, ∃ instant, env.arithmetic.retryAt (env.clock reading) delay = .ok instant

theorem AcceptedEngine.IsBackoffError.not_noOverflow {engine : AcceptedEngine} {env : Env}
    {taskId : String} {error : PyError} (raised : engine.IsBackoffError env taskId error) :
    ¬ engine.NoOverflow env := by
  intro noOverflow
  obtain ⟨task, attempt, defined, positive, remaining, cause⟩ := raised
  obtain ⟨delay, computed, instants⟩ := noOverflow taskId task attempt defined positive remaining
  rcases cause with failed | ⟨other, reading, otherComputed, failed⟩
  · rw [computed] at failed
    cases failed
  · rw [computed] at otherComputed
    cases otherComputed
    obtain ⟨instant, found⟩ := instants reading
    rw [found] at failed
    cases failed

namespace Machine

/-- The state of a task's record. -/
def stateOf (machine : Machine) (taskId : String) : TaskState := machine.shared.stateOf taskId

/-- The attempts of a task's record. -/
def attemptsOf (machine : Machine) (taskId : String) : ℕ :=
  (machine.shared.recordOf taskId).attempts

/-- The execution of a task has ended with an exception. -/
def Aborted (machine : Machine) (taskId : String) : Prop :=
  ∃ error, machine.pcs taskId = .raised error

end Machine

/-- A task is running, waits for a retry, or has failed with attempts left. -/
def WorkflowEngine.InProgress (engine : WorkflowEngine) (machine : Machine) (taskId : String) :
    Prop :=
  machine.stateOf taskId = .running ∨ machine.stateOf taskId = .retrying ∨
    machine.stateOf taskId = .failed ∧ machine.attemptsOf taskId < engine.maxAttempts taskId

variable {engine : AcceptedEngine} {env : Env} {machine : Machine} {taskId : String}

/-! ## Single states -/

/-- A task in progress has entered its execution and has not returned. -/
theorem AcceptedEngine.TaskOk.pc_of_inProgress {pc : Pc}
    (ok : engine.TaskOk env taskId (machine.shared.view taskId) pc)
    (inProgress : engine.InProgress machine taskId) : pc ≠ .enter ∧ pc ≠ .done := by
  constructor
  · rintro rfl
    have state : machine.stateOf taskId = .pending ∨ machine.stateOf taskId = .upstreamFailed :=
      ok.2.imp At.state fun blocked => blocked.1.state
    rcases inProgress with isState | isState | ⟨isState, _⟩ <;> rw [isState] at state <;>
      simp at state
  · rintro rfl
    have settles := ok.2
    rw [Settles] at settles
    cases outcome : engine.outcome env taskId with
    | value attempt =>
        rw [outcome] at settles
        have state : machine.stateOf taskId = .success := settles.state
        rcases inProgress with isState | isState | ⟨isState, _⟩ <;> rw [isState] at state <;>
          cases state
    | failed =>
        rw [outcome] at settles
        have state : machine.stateOf taskId = .failed := settles.state
        have attempts : machine.attemptsOf taskId = engine.maxAttempts taskId := settles.attempts
        rcases inProgress with isState | isState | ⟨_, fewer⟩
        · rw [isState] at state
          cases state
        · rw [isState] at state
          cases state
        · omega
    | blocked =>
        rw [outcome] at settles
        have state : machine.stateOf taskId = .upstreamFailed := settles.state
        rcases inProgress with isState | isState | ⟨isState, _⟩ <;> rw [isState] at state <;>
          cases state

namespace Reachable

variable (reachable : Reachable engine env machine)

include reachable

theorem task_ok (taskId : String) :
    engine.TaskOk env taskId (machine.shared.view taskId) (machine.pcs taskId) := by
  obtain ⟨past, invariant⟩ := reachable.invariant
  exact invariant.tasks taskId

/-- The thread of an id that is no task never begins. -/
theorem pc_of_unknown (unknown : taskId ∉ engine.workflow.tasks) :
    machine.pcs taskId = .enter := by
  obtain ⟨past, invariant⟩ := reachable.invariant
  by_contra entered
  exact unknown (invariant.recorded taskId (invariant.entered taskId entered))

theorem waiting_of_unknown (unknown : taskId ∉ engine.workflow.tasks) :
    engine.Waiting env taskId (machine.shared.view taskId) := by
  have ok := reachable.task_ok taskId
  rw [reachable.pc_of_unknown unknown] at ok
  exact ok.2

/-- A task that does not wait has only succeeded upstreams. -/
theorem upstreams_succeed_of_not_waiting
    (notWaiting : ¬ engine.Waiting env taskId (machine.shared.view taskId))
    {up : String} (edge : engine.workflow.Edge up taskId) : machine.stateOf up = .success := by
  obtain ⟨past, invariant⟩ := reachable.invariant
  have ok := invariant.tasks taskId
  have unblocked := (ok.waiting_or_unblocked.resolve_left notWaiting).1
  -- A task that was started belongs to the current batch or to an earlier one.
  have upMember : up ∈ past.flatten := by
    by_cases member : taskId ∈ past.flatten
    · exact invariant.ancestor_mem (.single edge) member
    · by_cases job : taskId ∈ machine.jobs
      · exact invariant.up_mem job edge
      · rw [invariant.untouched taskId member job] at ok
        exact absurd ok.2 notWaiting
  have value := AcceptedEngine.outcome_ne_blocked_iff.mp unblocked up edge
  have settles := invariant.settles upMember
  rw [AcceptedEngine.Settles] at settles
  cases outcome : engine.outcome env up with
  | value attempt =>
      rw [outcome] at settles
      exact settles.state
  | failed =>
      rw [outcome] at value
      exact (not_hasValue_failed value).elim
  | blocked =>
      rw [outcome] at value
      exact (not_hasValue_blocked value).elim

/-- A started task has only succeeded upstreams. -/
theorem upstreams_succeed
    (started : machine.stateOf taskId = .running ∨ machine.stateOf taskId = .retrying ∨
      machine.stateOf taskId = .success ∨ machine.stateOf taskId = .failed)
    {up : String} (edge : engine.workflow.Edge up taskId) : machine.stateOf up = .success := by
  refine reachable.upstreams_succeed_of_not_waiting (fun waiting => ?_) edge
  rcases waiting with at' | ⟨at', _⟩ <;>
    rcases started with state | state | state | state <;> cases at'.state.symm.trans state

/-- The tasks in progress that were not aborted are held by workers. -/
theorem held_of_inProgress (inProgress : engine.InProgress machine taskId)
    (notAborted : ¬ machine.Aborted taskId) : taskId ∈ machine.active := by
  obtain ⟨past, invariant⟩ := reachable.invariant
  obtain ⟨entered, notDone⟩ := (invariant.tasks taskId).pc_of_inProgress inProgress
  have notPast : taskId ∉ past.flatten := fun member =>
    notDone (invariant.returned taskId member)
  have job : taskId ∈ machine.jobs := by
    by_contra notJob
    exact entered (invariant.untouched taskId notPast notJob)
  by_contra notHeld
  have ended := invariant.ended taskId job
    (fun waiting => entered (invariant.waiting taskId waiting)) notHeld
  cases atPc : machine.pcs taskId with
  | done => exact notDone atPc
  | raised error => exact notAborted ⟨error, atPc⟩
  | _ =>
      rw [atPc] at ended
      cases ended

/-- No more tasks are in progress than there are workers. -/
theorem card_inProgress_le {tasks : Finset String}
    (inProgress : ∀ taskId ∈ tasks, engine.InProgress machine taskId ∧ ¬ machine.Aborted taskId) :
    tasks.card ≤ engine.maxWorkers := by
  obtain ⟨past, invariant⟩ := reachable.invariant
  have subset : tasks ⊆ machine.active.toFinset := by
    intro taskId member
    obtain ⟨progress, notAborted⟩ := inProgress taskId member
    exact List.mem_toFinset.mpr (reachable.held_of_inProgress progress notAborted)
  calc tasks.card ≤ machine.active.toFinset.card := Finset.card_le_card subset
    _ ≤ machine.active.length := machine.active.toFinset_card_le
    _ ≤ engine.workers machine.jobs := invariant.width
    _ ≤ engine.maxWorkers := min_le_left _ _

/-- Without overflows no execution is aborted. -/
theorem not_aborted (noOverflow : engine.NoOverflow env) (taskId : String) :
    ¬ machine.Aborted taskId := by
  rintro ⟨error, atPc⟩
  have ok := reachable.task_ok taskId
  rw [atPc] at ok
  exact ok.2.1.not_noOverflow noOverflow

/-- Without overflows no run raises. -/
theorem not_raised (noOverflow : engine.NoOverflow env) (error : PyError) :
    machine.status ≠ .raised error := by
  intro raised
  have stage := reachable.stage
  rw [Stage, raised] at stage
  obtain ⟨_, taskId, _, atPc⟩ := stage
  exact reachable.not_aborted noOverflow taskId ⟨error, atPc⟩

/-- An execution of a task that was aborted is never left, so its run does not return. -/
theorem not_aborted_of_returned (returned : machine.status = .returned) (taskId : String) :
    ¬ machine.Aborted taskId := by
  rintro ⟨error, atPc⟩
  have known : taskId ∈ engine.workflow.tasks := by
    by_contra unknown
    cases atPc.symm.trans (reachable.pc_of_unknown unknown)
  have stage := reachable.stage
  rw [Stage, returned] at stage
  cases atPc.symm.trans (stage.1 taskId known)

/-- **A run that has come to its end has returned if and only if none of its executions
was aborted.** -/
theorem returned_iff (ended : ∀ next, ¬ engine.Step env machine next) :
    machine.status = .returned ↔ ∀ taskId, ¬ machine.Aborted taskId := by
  refine ⟨reachable.not_aborted_of_returned, fun noneAborted => ?_⟩
  cases status : machine.status with
  | returned => rfl
  | running =>
      obtain ⟨next, step⟩ := reachable.progress status
      exact absurd step (ended next)
  | raised error =>
      have stage := reachable.stage
      rw [Stage, status] at stage
      obtain ⟨_, taskId, _, atPc⟩ := stage
      exact absurd ⟨error, atPc⟩ (noneAborted taskId)

/-- A blocked task has an ancestor that failed for good. -/
theorem failed_ancestor (blocked : machine.stateOf taskId = .upstreamFailed) :
    ∃ ancestor, TransGen engine.workflow.Edge ancestor taskId ∧
      machine.stateOf ancestor = .failed ∧
      machine.attemptsOf ancestor = engine.maxAttempts ancestor := by
  obtain ⟨past, invariant⟩ := reachable.invariant
  obtain ⟨ancestor, above, member, failed⟩ := invariant.source taskId blocked
  have settles := invariant.settles member
  rw [AcceptedEngine.Settles, failed] at settles
  exact ⟨ancestor, above, settles.state, settles.attempts⟩

end Reachable

/-! ## Runs -/

/-- A callable that raises at its first attempts. -/
def raisesUpTo (attempts : ℕ) : TaskCallable := fun context =>
  if context.attempt ≤ attempts then .error (.runtimeError "down") else .ok ()

/-- A pipeline in which a task recovers, the next one fails for good and blocks
the last one, beside an independent task. -/
def pipeline (maxWorkers : ℕ) (atLeastOne : 1 ≤ maxWorkers) : AcceptedEngine where
  workflow :=
    { workflowId := "pipeline"
      tasks := ⟨[("extract", { taskId := "extract", maxAttempts := 3, taskId_valid := by decide }),
        ("transform", { taskId := "transform", maxAttempts := 2, taskId_valid := by decide }),
        ("load", { taskId := "load", taskId_valid := by decide }),
        ("audit", { taskId := "audit", taskId_valid := by decide })], by decide⟩
      dependencies := ⟨[("transform", {"extract"}), ("load", {"transform"})], by decide⟩ }
  tasks := ⟨[("extract", raisesUpTo 1), ("transform", raisesUpTo 2), ("load", raisesUpTo 0),
    ("audit", raisesUpTo 0)], by decide⟩
  maxWorkers := maxWorkers
  valid := Workflow.validateGraph_eq_nil_iff_valid.mp (by decide +kernel)
  mem_tasks := mem_iff_of_callables (by decide +kernel) (by decide +kernel)
  one_le_maxWorkers := atLeastOne

/-- A worker takes a job and executes it to its end. -/
def wholeJob (taskId : String) (steps : ℕ) : List Choice :=
  .take :: (List.replicate steps (.work taskId) ++ [.leave taskId])

/-- A complete run of the pipeline. -/
def pipelineChoices : List Choice :=
  [.submit, .take] ++ List.replicate 12 (.work "audit") ++ wholeJob "extract" 23 ++
    [.work "audit", .leave "audit"] ++ .submit :: wholeJob "transform" 26 ++
    .submit :: wholeJob "load" 9 ++ [.finish]

/-- **In every reachable state of a run, a started task has only succeeded
upstreams, no more tasks are in progress than there are workers unless their
execution was aborted by an overflow, a blocked task is never started and a
started one never blocked, and a blocked task has an ancestor that failed for
good.** -/
theorem parallel_safety (engine : AcceptedEngine) (env : Env) {machine : Machine}
    (run : engine.Steps env (engine.start env) machine) :
    (∀ taskId, machine.stateOf taskId = .running ∨ machine.stateOf taskId = .retrying ∨
        machine.stateOf taskId = .success ∨ machine.stateOf taskId = .failed →
      ∀ up, engine.workflow.Edge up taskId → machine.stateOf up = .success) ∧
    (∀ tasks : Finset String,
      (∀ taskId ∈ tasks, engine.InProgress machine taskId ∧ ¬ machine.Aborted taskId) →
      tasks.card ≤ engine.maxWorkers) ∧
    (engine.NoOverflow env → ∀ tasks : Finset String,
      (∀ taskId ∈ tasks, engine.InProgress machine taskId) → tasks.card ≤ engine.maxWorkers) ∧
    (∀ taskId, machine.stateOf taskId = .upstreamFailed → machine.attemptsOf taskId = 0 ∧
      ∀ later, engine.Steps env machine later →
        later.stateOf taskId ≠ .running ∧ later.attemptsOf taskId = 0) ∧
    (∀ taskId, machine.attemptsOf taskId ≠ 0 → ∀ later, engine.Steps env machine later →
      later.stateOf taskId ≠ .upstreamFailed) ∧
    (∀ taskId, machine.stateOf taskId = .upstreamFailed →
      ∃ ancestor, TransGen engine.workflow.Edge ancestor taskId ∧
        machine.stateOf ancestor = .failed ∧
        machine.attemptsOf ancestor = engine.maxAttempts ancestor) := by
  have reachable := Reachable.steps run
  refine ⟨fun taskId started up edge => reachable.upstreams_succeed started edge,
    fun tasks inProgress => reachable.card_inProgress_le inProgress,
    fun noOverflow tasks inProgress => reachable.card_inProgress_le fun taskId member =>
      ⟨inProgress taskId member, reachable.not_aborted noOverflow taskId⟩, ?_, ?_,
    fun taskId blocked => reachable.failed_ancestor blocked⟩
  · intro taskId blocked
    obtain ⟨at', outcome⟩ := (reachable.task_ok taskId).of_upstreamFailed blocked
    refine ⟨at'.attempts, fun later continued => ?_⟩
    have laterOk := (Reachable.steps (run.trans continued)).task_ok taskId
    obtain (pending | blockedLater) | ⟨unblocked, _⟩ := laterOk.waiting_or_unblocked
    · exact ⟨fun state => absurd (pending.state.symm.trans state) (by decide), pending.attempts⟩
    · exact ⟨fun state => absurd (blockedLater.1.state.symm.trans state) (by decide),
        blockedLater.1.attempts⟩
    · exact absurd outcome unblocked
  · intro taskId started later continued blocked
    have laterOk := (Reachable.steps (run.trans continued)).task_ok taskId
    have outcome := (laterOk.of_upstreamFailed blocked).2
    obtain (pending | blockedNow) | ⟨unblocked, _⟩ :=
      (reachable.task_ok taskId).waiting_or_unblocked
    · exact started pending.attempts
    · exact started blockedNow.1.attempts
    · exact unblocked outcome

theorem parallel_safety_pipeline : ∃ machine,
    (pipeline 2 (by decide)).replay { runId := "run" }
      ((pipeline 2 (by decide)).start { runId := "run" }) pipelineChoices = some machine ∧
    machine.stateOf "load" = .upstreamFailed ∧
    (∃ ancestor, TransGen (pipeline 2 (by decide)).workflow.Edge ancestor "load" ∧
      machine.stateOf ancestor = .failed ∧ machine.attemptsOf ancestor =
        (pipeline 2 (by decide)).maxAttempts ancestor) ∧
    ∀ tasks : Finset String, (∀ taskId ∈ tasks,
      (pipeline 2 (by decide)).InProgress machine taskId ∧ ¬ machine.Aborted taskId) →
      tasks.card ≤ 2 := by
  have states : ((pipeline 2 (by decide)).replay { runId := "run" }
      ((pipeline 2 (by decide)).start { runId := "run" }) pipelineChoices).map
        (·.stateOf "load") = some .upstreamFailed := by decide +kernel
  obtain ⟨machine, replayed, blocked⟩ := Option.map_eq_some_iff.mp states
  have safety := parallel_safety (pipeline 2 (by decide)) { runId := "run" }
    (steps_of_replay _ _ replayed)
  exact ⟨machine, replayed, blocked, safety.2.2.2.2.2 "load" blocked, safety.2.1⟩

/-- A task whose first retry lies beyond the range of a `timedelta`. -/
def impatient (taskId : String) (valid : matchesIdPattern taskId = true) : Task where
  taskId := taskId
  maxAttempts := 2
  backoffSeconds := 86400000000000
  taskId_valid := valid

/-- Three independent failing tasks and two workers. -/
def overflowing : AcceptedEngine where
  workflow :=
    { workflowId := "overflowing"
      tasks := ⟨[("a", impatient "a" (by decide)), ("b", impatient "b" (by decide)),
        ("c", impatient "c" (by decide))], by decide⟩ }
  tasks := ⟨[("a", raisesUpTo 2), ("b", raisesUpTo 2), ("c", raisesUpTo 2)], by decide⟩
  maxWorkers := 2
  valid := Workflow.validateGraph_eq_nil_iff_valid.mp (by decide +kernel)
  mem_tasks := mem_iff_of_callables (by decide +kernel) (by decide +kernel)
  one_le_maxWorkers := by decide

/-- Each retry overflows, and leaves its record in `retrying` and its worker free
for the next job. -/
theorem retrying_exceeds_workers : ∃ machine,
    overflowing.Steps { runId := "run", arithmetic := .python }
      (overflowing.start { runId := "run", arithmetic := .python }) machine ∧
    ∃ tasks : Finset String, (∀ taskId ∈ tasks, machine.stateOf taskId = .retrying) ∧
      overflowing.maxWorkers < tasks.card := by
  have states : (overflowing.replay { runId := "run", arithmetic := .python }
      (overflowing.start { runId := "run", arithmetic := .python })
      (.submit :: (wholeJob "a" 14 ++ wholeJob "b" 14 ++ wholeJob "c" 14))).map
        (fun machine => ["a", "b", "c"].map machine.stateOf) =
      some [.retrying, .retrying, .retrying] := by decide +kernel
  obtain ⟨machine, replayed, retrying⟩ := Option.map_eq_some_iff.mp states
  refine ⟨machine, steps_of_replay _ _ replayed, {"a", "b", "c"}, ?_, by decide⟩
  simpa using retrying

/-! ## Transitions and the log -/

/-- The path of a task is legal at every program point, and the log spells it
unless the task was aborted. -/
theorem AcceptedEngine.TaskOk.tracked {view : TaskView} {pc : Pc}
    (ok : engine.TaskOk env taskId view pc) :
    ∃ ahead, view.Tracked ahead ∧ ((∀ error, pc ≠ .raised error) → view.Faithful ahead) := by
  cases pc with
  | raised error => exact ⟨[], ok.1, fun notRaised => absurd rfl (notRaised error)⟩
  | _ => exact ⟨_, ok.1.toTracked, fun _ => ok.1⟩

/-- The log spells the path of a task that was not aborted. -/
theorem Reachable.moved_of_not_aborted (reachable : Reachable engine env machine)
    (notAborted : ¬ machine.Aborted taskId) : (machine.shared.view taskId).moved =
      transitions .pending (machine.shared.view taskId).assigned := by
  obtain ⟨_, _, faithful⟩ := (reachable.task_ok taskId).tracked
  exact (faithful fun error atPc => notAborted ⟨error, atPc⟩).moved

theorem TaskView.Tracked.checks_legal {view : TaskView} {ahead : List (TaskState × TaskState)}
    (tracked : view.Tracked ahead) :
    ∀ move ∈ view.checked, transitionTask move.1 move.2 = .ok () := by
  intro move member
  rw [tracked.checked] at member
  rcases List.mem_append.mp member with made | next
  · exact transitionTask_eq_ok (tracked.legal move made)
  · exact transitionTask_eq_ok (tracked.next move next).2

/-- A run that has returned has no check without its assignment. -/
theorem Reachable.faithful_of_returned (reachable : Reachable engine env machine)
    (returned : machine.status = .returned) (taskId : String) :
    (machine.shared.view taskId).Faithful [] := by
  have stage := reachable.stage
  rw [Stage, returned] at stage
  obtain ⟨past, invariant⟩ := reachable.invariant
  have ok := invariant.tasks taskId
  by_cases entering : machine.pcs taskId = .enter
  · rw [entering] at ok
    exact ok.1
  · have known := invariant.recorded taskId (invariant.entered taskId entering)
    rw [stage.1 taskId known] at ok
    exact ok.1

/-- The states that the workflow has gone through. -/
theorem Reachable.workflow_path (reachable : Reachable engine env machine) :
    ∃ path, machine.shared.workflowView = .along path ∧
      ∀ move ∈ transitions .pending path, canTransitionWorkflow move.1 move.2 := by
  have stage := reachable.stage
  rw [Stage] at stage
  split at stage
  · exact ⟨_, stage, by decide⟩
  · refine ⟨_, stage.2, ?_⟩
    rw [AcceptedEngine.finalState]
    split <;> decide
  · exact ⟨_, stage.1, by decide⟩

/-- What a run checks, assigns and logs. The states of a task form a legal path from `pending` to
its state, every check was made with the stored state and returned, and the log states the
transitions of the path, unless an overflow has aborted the task. A run that returns has moved the
workflow from `pending` over `running` to a success or a failure, and only an overflow raises. -/
structure TransitionLaw (engine : AcceptedEngine) (env : Env) (machine : Machine) : Prop where
  legal : ∀ taskId, ∀ move ∈ transitions .pending (machine.shared.view taskId).assigned,
    canTransition move.1 move.2
  state : ∀ taskId,
    machine.stateOf taskId = (machine.shared.view taskId).assigned.getLastD .pending
  checked : ∀ taskId, ∃ ahead, (machine.shared.view taskId).checked =
    transitions .pending (machine.shared.view taskId).assigned ++ ahead ∧
      ∀ move ∈ ahead, move.1 = machine.stateOf taskId
  passed : ∀ taskId, ∀ move ∈ (machine.shared.view taskId).checked,
    transitionTask move.1 move.2 = .ok ()
  logged : ∀ taskId, ¬ machine.Aborted taskId → (machine.shared.view taskId).moved =
    transitions .pending (machine.shared.view taskId).assigned
  workflow : ∀ move ∈ machine.shared.workflowView.checked,
    transitionWorkflow move.1 move.2 = .ok ()
  tasks_of_returned : machine.status = .returned → ∀ taskId,
    (machine.shared.view taskId).checked =
        transitions .pending (machine.shared.view taskId).assigned ∧
      (machine.shared.view taskId).moved =
        transitions .pending (machine.shared.view taskId).assigned
  workflow_of_returned : machine.status = .returned →
    ∃ final, (final = .success ∨ final = .failed) ∧
      machine.shared.run.workflowState = final ∧
      machine.shared.workflowView.assigned = [.running, final] ∧
      machine.shared.workflowView.checked = [(.pending, .running), (.running, final)] ∧
      machine.shared.workflowView.moved = [(.pending, .running), (.running, final)]
  raised : ∀ error, machine.status = .raised error →
    ∃ taskId, engine.IsBackoffError env taskId error

/-- **The law holds in every state of a run.** -/
theorem Reachable.transitionLaw (reachable : Reachable engine env machine) :
    TransitionLaw engine env machine where
  legal taskId := by
    obtain ⟨_, tracked, _⟩ := (reachable.task_ok taskId).tracked
    exact tracked.legal
  state taskId := by
    obtain ⟨_, tracked, _⟩ := (reachable.task_ok taskId).tracked
    exact tracked.state
  checked taskId := by
    obtain ⟨ahead, tracked, _⟩ := (reachable.task_ok taskId).tracked
    exact ⟨ahead, tracked.checked, fun move member => (tracked.next move member).1⟩
  passed taskId := by
    obtain ⟨_, tracked, _⟩ := (reachable.task_ok taskId).tracked
    exact tracked.checks_legal
  logged _ notAborted := reachable.moved_of_not_aborted notAborted
  workflow := by
    obtain ⟨path, view, legal⟩ := reachable.workflow_path
    rw [view]
    exact fun move member => transitionWorkflow_eq_ok (legal move member)
  tasks_of_returned returned taskId := by
    have faithful := reachable.faithful_of_returned returned taskId
    exact ⟨faithful.checked.trans (List.append_nil _), faithful.moved⟩
  workflow_of_returned returned := by
    have stage := reachable.stage
    rw [Stage, returned] at stage
    refine ⟨engine.finalState env, ?_, congrArg WorkflowView.state stage.2, ?_, ?_, ?_⟩
    · rw [AcceptedEngine.finalState]
      split
      · exact .inl rfl
      · exact .inr rfl
    · rw [stage.2]
      rfl
    · rw [stage.2]
      rfl
    · rw [stage.2]
      rfl
  raised error raised := by
    have stage := reachable.stage
    rw [Stage, raised] at stage
    obtain ⟨_, taskId, _, atPc⟩ := stage
    have ok := reachable.task_ok taskId
    rw [atPc] at ok
    exact ⟨taskId, ok.2.1⟩

/-- An overflow comes after the move to `retrying` and before its entry in the
log, and the run raises with the workflow still running. -/
theorem log_misses_retry : ∃ machine,
    overflowing.Steps { runId := "run", arithmetic := .python }
      (overflowing.start { runId := "run", arithmetic := .python }) machine ∧
    machine.status = .raised (.overflowError "days=1000000000; must have magnitude <= 999999999") ∧
    machine.shared.run.workflowState = .running ∧
    transitions .pending (machine.shared.view "a").assigned =
      [(.pending, .running), (.running, .failed), (.failed, .retrying)] ∧
    (machine.shared.view "a").moved = [(.pending, .running), (.running, .failed)] := by
  have facts : (overflowing.replay { runId := "run", arithmetic := .python }
      (overflowing.start { runId := "run", arithmetic := .python })
      (.submit :: (wholeJob "a" 14 ++ wholeJob "b" 14 ++ wholeJob "c" 14 ++ [.raise]))).map
        (fun machine => (machine.status, machine.shared.run.workflowState,
          transitions .pending (machine.shared.view "a").assigned,
          (machine.shared.view "a").moved)) =
      some (.raised (.overflowError "days=1000000000; must have magnitude <= 999999999"), .running,
        [(.pending, .running), (.running, .failed), (.failed, .retrying)],
        [(.pending, .running), (.running, .failed)]) := by decide +kernel
  obtain ⟨machine, replayed, same⟩ := Option.map_eq_some_iff.mp facts
  simp only [Prod.mk.injEq] at same
  exact ⟨machine, steps_of_replay _ _ replayed, same⟩

end EtlOrchestrator
