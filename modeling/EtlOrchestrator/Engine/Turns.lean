import EtlOrchestrator.Engine.Blame
import EtlOrchestrator.Engine.Blocking
import EtlOrchestrator.Engine.Sequential

/-!
# The turns of a sequential run

A sequential run executes the tasks of the topological order one after the
other. `Executed` is the state in which it has executed the first ones, and
`AtTurn` says what it shows there, at the turn of the next task: the tasks before
agree with their outcomes, the others are pending or blocked, and when the next
task is pending then none of its upstreams is only `upstream_failed`.
-/

set_option autoImplicit false

namespace EtlOrchestrator

open BlockingEvaluation Relation WorkflowEngine

/-! ## The first tasks of a run -/

/-- The run has begun and has executed a list of tasks. -/
def WorkflowEngine.Executed (engine : WorkflowEngine) (env : Env) (tasks : List String)
    (state : RunState) : Prop :=
  (beginRun env >>= fun _ => engine.executeAll env tasks).run (engine.created env) = .ok () state

section

variable {engine : WorkflowEngine} {env : Env} {taskId : String} {tasks later : List String}
  {state after : RunState}

theorem executed_nil_iff : engine.Executed env [] state ↔
    (beginRun env).run (engine.created env) = .ok () state := by
  rw [Executed, show (fun _ => engine.executeAll env []) = fun _ : Unit => pure () from rfl,
    bind_pure_unit]

theorem executeAll_append (engine : WorkflowEngine) (env : Env) (tasks later : List String) :
    engine.executeAll env (tasks ++ later) =
      engine.executeAll env tasks >>= fun _ => engine.executeAll env later := by
  induction tasks with
  | nil => exact (pure_bind () fun _ => engine.executeAll env later).symm
  | cons taskId rest ih =>
      rw [List.cons_append, executeAll, executeAll, bind_assoc, ih]

theorem executeAll_singleton (engine : WorkflowEngine) (env : Env) (taskId : String) :
    engine.executeAll env [taskId] = engine.executeTask env taskId :=
  bind_pure_unit

/-- One task more. -/
theorem executed_concat_iff : engine.Executed env (tasks ++ [taskId]) after ↔
    ∃ state, engine.Executed env tasks state ∧
      (engine.executeTask env taskId).run state = .ok () after := by
  rw [Executed, executeAll_append, executeAll_singleton, ← bind_assoc, EStateM.run_bind]
  constructor
  · intro ran
    cases first : (beginRun env >>= fun _ => engine.executeAll env tasks).run
        (engine.created env) with
    | ok _ state =>
        rw [first] at ran
        exact ⟨state, first, ran⟩
    | error _ _ =>
        rw [first] at ran
        cases ran
  · rintro ⟨state, executed, ran⟩
    rw [Executed] at executed
    rw [executed]
    exact ran

theorem WorkflowEngine.Executed.unique (executed : engine.Executed env tasks state)
    (other : engine.Executed env tasks after) : after = state := by
  rw [Executed, executed] at other
  cases other
  rfl

/-- The rest of the run goes on from there. -/
theorem WorkflowEngine.Executed.endState_runSequential (executed : engine.Executed env tasks state)
    (computed : engine.topologicalOrder = .ok (tasks ++ later)) :
    endState (engine.runSequential env) (engine.created env) =
      endState (engine.executeAll env later >>= fun _ => finishRun env) state := by
  have split : engine.runSequential env =
      (beginRun env >>= fun _ => engine.executeAll env tasks) >>= fun _ =>
        engine.executeAll env later >>= fun _ => finishRun env := by
    rw [runSequential, computed]
    dsimp only [ofExcept]
    simp only [pure_bind, executeAll_append, bind_assoc]
  rw [split]
  exact endState_bind executed

end

/-! ## The turn of a task -/

/-- What a run shows at the turn of a task, after the tasks before it. -/
structure AtTurn (engine : AcceptedEngine) (env : Env) (before : List String) (taskId : String)
    (state : RunState) : Prop where
  settles : ∀ other ∈ before, engine.Settles env other (state.view other)
  waiting : ∀ other, other ∉ before → engine.Waiting env other (state.view other)
  upstream : ∀ up, engine.workflow.Edge up taskId → up ∈ before
  recorded : ∀ other ∈ before, other ∈ state.run.records
  unmarked : state.stateOf taskId = .pending → ∀ up, engine.workflow.Edge up taskId →
    state.stateOf up ≠ .upstreamFailed

variable {engine : AcceptedEngine} {env : Env} {taskId : String} {before later : List String}
  {state : RunState}

/-- The machine stands between two batches at every turn. -/
theorem WorkflowEngine.Executed.machine (one : engine.maxWorkers = 1)
    (computed : engine.topologicalOrder = .ok (before ++ later))
    (executed : engine.Executed env before state) : ∃ machine,
    engine.Steps env (engine.start env) machine ∧ BetweenBatches machine ∧
      machine.levels = later.map ([·]) ∧ machine.shared = state := by
  obtain ⟨order, otherComputed, batches, nodup⟩ := batches_of_one_worker one
  rw [computed] at otherComputed
  cases otherComputed
  obtain ⟨shared, levels, same, sameBatches, began, _⟩ := start_eq engine env
  rw [batches] at sameBatches
  cases sameBatches
  have ran := WorkflowEngine.steps_of_executeAll env (Nat.le_of_eq one.symm)
    (later.map ([·])) before { shared, levels := (before ++ later).map ([·]) }
    ⟨rfl, rfl, rfl, by simp⟩ (List.map_append ..) nodup.of_append_left fun _ _ => rfl
  rw [Executed, EStateM.run_bind, began] at executed
  dsimp only at ran executed
  rw [executed] at ran
  rw [same]
  exact ran

/-- **What the invariant of the machine says of a turn.** -/
theorem WorkflowEngine.Executed.atTurn (one : engine.maxWorkers = 1)
    (computed : engine.topologicalOrder = .ok (before ++ taskId :: later))
    (executed : engine.Executed env before state) : AtTurn engine env before taskId state := by
  obtain ⟨machine, run, between, toCome, rfl⟩ := executed.machine one computed
  obtain ⟨past, invariant, blames⟩ := Reachable.blames run
  -- The turn of the task is the batch that comes next.
  let turn : Machine :=
    { machine with levels := later.map ([·]), jobs := [taskId], queue := [taskId] }
  have next : Invariant engine env (past ++ [machine.jobs]) turn :=
    invariant.submit between.drained between.idle toCome between.returned
  have nextBlames : Blames engine env (past ++ [machine.jobs]) turn :=
    blames.submit invariant between.drained between.idle
  have flat : (past ++ [machine.jobs]).flatten = before := by
    obtain ⟨order, otherComputed, batches, _⟩ := batches_of_one_worker one
    rw [computed] at otherComputed
    cases otherComputed
    obtain ⟨other, otherBatches, split⟩ := invariant.position
    rw [batches] at otherBatches
    cases otherBatches
    have cut : [] :: before.map ([·]) = past ++ [machine.jobs] := by
      apply (List.append_left_inj ((taskId :: later).map ([·]))).mp
      rw [List.append_assoc, List.singleton_append, ← toCome, ← split, toCome, List.map_append]
      rfl
    rw [← cut, List.flatten_cons, List.nil_append, ← List.flatMap_def, List.flatMap_singleton']
  have job : taskId ∈ turn.jobs := List.mem_singleton_self taskId
  generalize past ++ [machine.jobs] = passed at next nextBlames flat
  subst flat
  refine ⟨fun other member => next.settles member, fun other notBefore => ?_,
    fun up edge => next.up_mem job edge, fun other member => ?_,
    fun pending up edge => nextBlames.up_not_marked next job pending edge⟩
  · have entering : turn.pcs other = .enter := by
      by_cases same : other = taskId
      · exact next.waiting other (same ▸ List.mem_singleton_self taskId)
      · exact next.untouched other notBefore fun isJob => same (List.mem_singleton.mp isJob)
    have ok := next.tasks other
    rw [entering] at ok
    exact ok.2
  · refine next.entered other ?_
    rw [next.returned other member]
    exact nofun

/-! ## Evaluating turns -/

section

variable {engine : WorkflowEngine} {env : Env} {taskId : String}

/-- The thread of a task after a number of steps. -/
def WorkflowEngine.drive (engine : WorkflowEngine) (env : Env) (taskId : String) :
    ℕ → RunState × Pc → RunState × Pc
  | 0, place => place
  | steps + 1, place =>
      if place.2.ended then place
      else drive engine env taskId steps (engine.advance env taskId place.1 place.2)

/-- The state after tasks whose threads return within a number of steps each. -/
def WorkflowEngine.driveAll (engine : WorkflowEngine) (env : Env) (steps : ℕ) :
    List String → RunState → Option RunState
  | [], state => some state
  | taskId :: rest, state =>
      match engine.drive env taskId steps (state, .enter) with
      | (after, .done) => driveAll engine env steps rest after
      | _ => none

theorem steps_of_drive (steps : ℕ) : ∀ place,
    ReflTransGen (engine.ThreadStep env taskId) place (engine.drive env taskId steps place) := by
  induction steps with
  | zero => exact fun _ => .refl
  | succ steps ih =>
      intro place
      rw [drive]
      split
      · exact .refl
      · rename_i unfinished
        exact (ih _).head ⟨by simpa using unfinished, rfl⟩

/-- A thread that has ended stays where it is. -/
theorem eq_of_ended {place after : RunState × Pc} (ended : place.2.ended = true)
    (steps : ReflTransGen (engine.ThreadStep env taskId) place after) : after = place := by
  rcases steps.cases_head with same | ⟨_, ⟨unfinished, _⟩, _⟩
  · exact same.symm
  · rw [ended] at unfinished
    cases unfinished

/-- A thread has one end. -/
theorem end_unique {place first second : RunState × Pc} (firstEnded : first.2.ended = true)
    (secondEnded : second.2.ended = true)
    (toFirst : ReflTransGen (engine.ThreadStep env taskId) place first)
    (toSecond : ReflTransGen (engine.ThreadStep env taskId) place second) : first = second := by
  have unique : Relator.RightUnique (engine.ThreadStep env taskId) := by
    rintro _ _ _ ⟨_, rfl⟩ ⟨_, rfl⟩
    rfl
  rcases toFirst.total_of_right_unique unique toSecond with steps | steps
  · exact (eq_of_ended firstEnded steps).symm
  · exact eq_of_ended secondEnded steps

theorem executeTask_of_drive {state after : RunState} {steps : ℕ}
    (driven : engine.drive env taskId steps (state, .enter) = (after, .done)) :
    (engine.executeTask env taskId).run state = .ok () after := by
  have toDone : ReflTransGen (engine.ThreadStep env taskId) (state, .enter)
      (engine.drive env taskId steps (state, .enter)) := steps_of_drive steps _
  rw [driven] at toDone
  have carried := (carries_executeTask : Carries engine env taskId _ _ _) state
  cases ran : (engine.executeTask env taskId).run state with
  | ok _ other =>
      rw [ran] at carried
      have same := end_unique rfl rfl toDone carried
      rw [(Prod.mk.inj same).1]
  | error error other =>
      rw [ran] at carried
      have same := end_unique rfl rfl toDone carried
      cases (Prod.mk.inj same).2

theorem executeAll_of_driveAll {steps : ℕ} (tasks : List String) : ∀ {state after : RunState},
    engine.driveAll env steps tasks state = some after →
      (engine.executeAll env tasks).run state = .ok () after := by
  induction tasks with
  | nil =>
      intro state after driven
      cases driven
      rfl
  | cons taskId rest ih =>
      intro state after driven
      rw [driveAll] at driven
      split at driven
      · rename_i middle first
        rw [executeAll, EStateM.run_bind, executeTask_of_drive first]
        exact ih driven
      · cases driven

theorem executed_of_driveAll {tasks : List String} {after : RunState} {steps : ℕ}
    (driven : engine.driveAll env steps tasks (endState (beginRun env) (engine.created env)) =
      some after) : engine.Executed env tasks after := by
  obtain ⟨begun, began, _⟩ := engine.beginRun_view env
  rw [endState_of_ok began] at driven
  rw [Executed, EStateM.run_bind, began]
  exact executeAll_of_driveAll tasks driven

end

/-- Two joins that share an upstream: `s` joins `p` and `r`, and `t` joins `q` and
`r`. The tasks `q` and `r` fail, and `p` fails or succeeds. -/
def crossing (fails : Bool) : AcceptedEngine where
  workflow :=
    { workflowId := "crossing"
      tasks := ⟨[("p", { taskId := "p", taskId_valid := by decide }),
        ("q", { taskId := "q", taskId_valid := by decide }),
        ("r", { taskId := "r", taskId_valid := by decide }),
        ("s", { taskId := "s", taskId_valid := by decide }),
        ("t", { taskId := "t", taskId_valid := by decide })], by decide⟩
      dependencies := ⟨[("s", {"p", "r"}), ("t", {"q", "r"})], by decide⟩ }
  tasks := ⟨[("p", raisesUpTo fails.toNat), ("q", raisesUpTo 1), ("r", raisesUpTo 1),
    ("s", raisesUpTo 0), ("t", raisesUpTo 0)], by cases fails <;> decide⟩
  maxWorkers := 1
  valid := Workflow.validateGraph_eq_nil_iff_valid.mp (by decide +kernel)
  mem_tasks := by
    cases fails <;> exact mem_iff_of_callables (by decide +kernel) (by decide +kernel)
  one_le_maxWorkers := by decide

example : ((crossing false).driveAll { runId := "run" } 20 ["p", "q", "r", "s", "t"]
    (endState (beginRun { runId := "run" }) ((crossing false).created { runId := "run" }))).map
      (fun state => (state.recordOf "t").error) = some (some "upstream task 'r' failed") := by
  decide +kernel

end EtlOrchestrator
