import Mathlib.Algebra.Order.Ring.Rat
import Mathlib.Data.Finset.Card
import Mathlib.Order.Lattice.Nat
import EtlOrchestrator.Dag.TopologicalOrder
import EtlOrchestrator.Engine.Configuration
import EtlOrchestrator.Foundations.Binary64

/-!
# Executing a workflow

The methods of the engine as programs over the state of a run. A program may
raise, and keeps the state at the point where it does. The blocks that the
engine runs under its lock are programs of their own, which the worker threads
share with the sequential run.

Beside the run, the state keeps a trace of what the execution did: the calls of
`transition_task` and `transition_workflow`, the assignments to the states, the
calls of the callables and of the hooks, and the sleeps. No program reads it.
Hooks must not raise, and the trace records each of their calls at the point
where the engine makes it.
-/

set_option autoImplicit false

namespace EtlOrchestrator

open SortedSet

/-! ## The environment of a run -/

/-- `Task.backoff_delay` on the rational numbers. -/
def Task.backoffDelay (task : Task) (failedAttempt : ℕ) : ℚ :=
  task.backoffSeconds * task.backoffMultiplier ^ (failedAttempt - 1)

/-- The float and date arithmetic behind a retry. -/
structure BackoffArithmetic where
  /-- `task.backoff_delay(failed_attempt)` -/
  delay : Task → ℕ → Except PyError ℚ
  /-- `now + timedelta(seconds=delay)` -/
  retryAt : ℚ → ℚ → Except PyError ℚ

/-- The arithmetic of the rational numbers, which never raises. -/
def BackoffArithmetic.exact : BackoffArithmetic where
  delay task failedAttempt := .ok (task.backoffDelay failedAttempt)
  retryAt now delay := .ok (now + delay)

/-- `Task.backoff_delay` in floats: the power and the product are rounded. A product from
`2 ^ 1024` on is the infinite float. -/
def Task.floatDelay (task : Task) (failedAttempt : ℕ) : ℚ :=
  Binary64.round
    (task.backoffSeconds * Binary64.round (task.backoffMultiplier ^ (failedAttempt - 1)))

/-- The microseconds of `timedelta(seconds=seconds)`: whole seconds are exact, the product of the
rest and a million is a float, and the sum is rounded. -/
def microseconds (seconds : ℚ) : ℕ :=
  roundHalfEven (⌊seconds⌋₊ * 1000000 + Binary64.round ((seconds - ⌊seconds⌋₊) * 1000000))

/-- The arithmetic of Python, with instants counted in seconds from the start of 1970. A float
power overflows, and a product becomes infinite, where the rounded value is no float. The days of a
`timedelta` are a C integer and at most 999999999, and a `datetime` ends with the year 9999. -/
def BackoffArithmetic.python : BackoffArithmetic where
  delay task failedAttempt :=
    if 2 ^ 1024 - 2 ^ 970 ≤ task.backoffMultiplier ^ (failedAttempt - 1) then
      .error (.overflowError "(34, 'Numerical result out of range')")
    else .ok (task.floatDelay failedAttempt)
  retryAt now delay :=
    let days := microseconds delay / 86400000000
    if 2 ^ 1024 ≤ delay then
      .error (.overflowError "cannot convert float infinity to integer")
    else if 2147483647 < days then
      .error (.overflowError "Python int too large to convert to C int")
    else if 999999999 < days then
      .error (.overflowError s!"days={days}; must have magnitude <= 999999999")
    else if 253402300800 ≤ now + microseconds delay / 1000000 then
      .error (.overflowError "date value out of range")
    else .ok (now + microseconds delay / 1000000)

/-- What a run meets outside the engine: its id, its parameters, the readings of
the clock, the arithmetic, and the order in which the upstream set of each task
is iterated. -/
structure Env where
  runId : String
  params : Params := ∅
  clock : ℕ → ℚ := fun _ => 0
  arithmetic : BackoffArithmetic := .exact
  iterate : String → Finset String → List String := fun _ => sorted
  mem_iterate : ∀ taskId set member, member ∈ iterate taskId set ↔ member ∈ set := by
    exact fun _ _ _ => SortedSet.mem_sorted
  iterate_nodup : ∀ taskId set, (iterate taskId set).Nodup := by
    exact fun _ => SortedSet.sorted_nodup

/-! ## The state of a run and its programs -/

/-- A call of a hook, with what it is given. -/
inductive HookCall where
  | workflowStart (run : WorkflowRun)
  | taskStart (run : WorkflowRun) (record : TaskRunRecord)
  | taskSuccess (run : WorkflowRun) (record : TaskRunRecord)
  | taskRetry (run : WorkflowRun) (record : TaskRunRecord) (delay : ℚ)
  | taskFailure (run : WorkflowRun) (record : TaskRunRecord)
  | workflowEnd (run : WorkflowRun)

/-- An entry of the trace. -/
inductive Event where
  /-- `transition_task(current, target)`, called for a task -/
  | checked (taskId : String) (current target : TaskState)
  /-- `record.state = target` -/
  | assigned (taskId : String) (target : TaskState)
  /-- `transition_workflow(current, target)` -/
  | checkedWorkflow (current target : WorkflowState)
  /-- `run.workflow_state = target` -/
  | assignedWorkflow (target : WorkflowState)
  | called (context : TaskContext)
  | hook (call : HookCall)
  | slept (taskId : String) (delay : ℚ)

/-- The run, the trace and the number of clock readings so far. -/
structure RunState where
  run : WorkflowRun
  events : List Event := []
  clockReads : ℕ := 0

namespace RunState

/-- Append an entry to the trace. -/
def emit (state : RunState) (event : Event) : RunState :=
  { state with events := state.events ++ [event] }

/-- Create the record of a task when it has none. -/
def record (state : RunState) (taskId : String) : RunState :=
  { state with run := state.run.record taskId }

/-- Assign to fields of a record other than its state. -/
def update (state : RunState) (taskId : String) (change : TaskRunRecord → TaskRunRecord) :
    RunState :=
  { state with run := state.run.update taskId change }

/-- `record.state = target`. -/
def assign (state : RunState) (taskId : String) (target : TaskState) : RunState :=
  (state.update taskId fun record => { record with state := target }).emit
    (.assigned taskId target)

/-- Append an entry to the transition log. -/
def note (state : RunState) (entry : LogEntry) : RunState :=
  { state with run := state.run.note entry }

/-- `run.workflow_state = target`. -/
def assignWorkflow (state : RunState) (target : WorkflowState) : RunState :=
  { state with run := { state.run with workflowState := target } }.emit (.assignedWorkflow target)

/-- `run.started_at = now`. -/
def startedAt (state : RunState) (now : ℚ) : RunState :=
  { state with run := { state.run with startedAt := some now } }

/-- `run.finished_at = now`. -/
def finishedAt (state : RunState) (now : ℚ) : RunState :=
  { state with run := { state.run with finishedAt := some now } }

/-- The record of a task. -/
def recordOf (state : RunState) (taskId : String) : TaskRunRecord := state.run.recordOf taskId

/-- The state of a task's record. -/
def stateOf (state : RunState) (taskId : String) : TaskState := (state.recordOf taskId).state

end RunState

/-- A program over the state of a run. -/
abbrev Exec (α : Type) := EStateM PyError RunState α

namespace Exec

/-- `run.record(task_id)`. -/
def record (taskId : String) : Exec Unit := modify (·.record taskId)

/-- The record of a task. -/
def recordOf (taskId : String) : Exec TaskRunRecord := return (← get).recordOf taskId

/-- `record.state`. -/
def stateOf (taskId : String) : Exec TaskState := return (← get).stateOf taskId

/-- `record.state = target`. -/
def assign (taskId : String) (target : TaskState) : Exec Unit := modify (·.assign taskId target)

/-- Assign to the other fields of a record. -/
def update (taskId : String) (change : TaskRunRecord → TaskRunRecord) : Exec Unit :=
  modify (·.update taskId change)

/-- `run.note(...)`. -/
def note (entry : LogEntry) : Exec Unit := modify (·.note entry)

/-- Append an entry to the trace. -/
def emit (event : Event) : Exec Unit := modify (·.emit event)

/-- `self._clock()`. -/
def now (env : Env) : Exec ℚ := do
  let state ← get
  set { state with clockReads := state.clockReads + 1 }
  return env.clock state.clockReads

/-- `transition_task(record.state, target)`. -/
def transition (taskId : String) (target : TaskState) : Exec Unit := do
  let current ← stateOf taskId
  emit (.checked taskId current target)
  match transitionTask current target with
  | .ok () => pure ()
  | .error error => throw (.orchestration error)

/-- `transition_workflow(run.workflow_state, target)` and the assignment after it. -/
def moveWorkflow (target : WorkflowState) : Exec Unit := do
  let current := (← get).run.workflowState
  emit (.checkedWorkflow current target)
  match transitionWorkflow current target with
  | .ok () => modify (·.assignWorkflow target)
  | .error error => throw (.orchestration error)

end Exec

open Exec

namespace WorkflowEngine

variable (engine : WorkflowEngine) (env : Env)

/-! ## Blocking -/

/-- The block of `_block_downstream` under the lock, for one dependent of
`failedTaskId`. -/
def blockTask (failedTaskId taskId : String) : Exec Unit := do
  record taskId
  if (← stateOf taskId) = .pending then
    transition taskId .upstreamFailed
    assign taskId .upstreamFailed
    update taskId fun record =>
      { record with error := some s!"upstream task '{failedTaskId}' failed" }
    let now ← now env
    update taskId fun record => { record with finishedAt := some now }
    note (.blocked taskId failedTaskId)

/-- The tasks that the loop of `_block_downstream` can still visit. -/
def unvisited (pendingVisit : List String) (visited : Finset String) : Finset String :=
  (pendingVisit.toFinset ∪ engine.workflow.dependencies.keySet) \ visited

/-- Visiting a task leaves fewer tasks to visit. -/
theorem unvisited_visit_lt {taskId : String} (rest : List String) {visited : Finset String}
    (fresh : taskId ∉ visited) :
    (engine.unvisited (rest ++ sorted (engine.workflow.downstream taskId))
      (insert taskId visited)).card < (engine.unvisited (taskId :: rest) visited).card := by
  apply Finset.card_lt_card
  rw [Finset.ssubset_iff_of_subset]
  · exact ⟨taskId, by simp [unvisited, fresh], by simp [unvisited]⟩
  · intro member
    simp only [unvisited, Finset.mem_sdiff, Finset.mem_union, List.mem_toFinset, List.mem_append,
      mem_sorted, Workflow.mem_downstream, Finset.mem_insert, not_or, List.mem_cons,
      OrderedDict.mem_keySet]
    rintro ⟨(inRest | edge) | inKeys, different, new⟩
    · exact ⟨.inl (.inr inRest), new⟩
    · exact ⟨.inr edge.mem_dependencies, new⟩
    · exact ⟨.inr inKeys, new⟩

/-- The tasks left to visit do not grow when a visited one is dropped. -/
theorem unvisited_skip_le (taskId : String) (rest : List String) (visited : Finset String) :
    (engine.unvisited rest visited).card ≤ (engine.unvisited (taskId :: rest) visited).card := by
  apply Finset.card_le_card
  intro member
  simp only [unvisited, Finset.mem_sdiff, Finset.mem_union, List.mem_toFinset, List.mem_cons]
  rintro ⟨inRest | inKeys, new⟩
  · exact ⟨.inl (.inr inRest), new⟩
  · exact ⟨.inr inKeys, new⟩

/-- The loop of `_block_downstream`. -/
def walkDownstream (failedTaskId : String) (pendingVisit : List String)
    (visited : Finset String) : Exec Unit :=
  match pendingVisit with
  | [] => pure ()
  | taskId :: rest =>
      if taskId ∈ visited then
        walkDownstream failedTaskId rest visited
      else do
        blockTask env failedTaskId taskId
        walkDownstream failedTaskId (rest ++ sorted (engine.workflow.downstream taskId))
          (insert taskId visited)
termination_by ((engine.unvisited pendingVisit visited).card, pendingVisit.length)
decreasing_by
  · rcases (engine.unvisited_skip_le taskId rest visited).lt_or_eq with fewer | same
    · exact .left _ _ fewer
    · rw [same]
      exact .right _ (by simp)
  · exact .left _ _ (engine.unvisited_visit_lt rest ‹taskId ∉ visited›)

/-- Mark still-pending transitive dependents `upstream_failed`. -/
def blockDownstream (failedTaskId : String) : Exec Unit :=
  engine.walkDownstream env failedTaskId (sorted (engine.workflow.downstream failedTaskId)) ∅

/-- The loop of `_block_if_upstream_failed` over the upstream ids. -/
def scanUpstream : List String → Exec Unit
  | [] => pure ()
  | upstreamId :: rest => do
      record upstreamId
      let state ← stateOf upstreamId
      if state = .failed ∨ state = .upstreamFailed then
        engine.blockDownstream env upstreamId
      else
        scanUpstream rest

/-- Block a task, and its downstream, if a direct upstream of it has failed. -/
def blockIfUpstreamFailed (candidateTaskId : String) : Exec Unit :=
  engine.scanUpstream env (env.iterate candidateTaskId (engine.workflow.upstream candidateTaskId))

/-! ## Attempts -/

/-- The context of an attempt. Its run and workflow ids are the run's, which
keeps the ones it was created with. -/
def context (taskId : String) (attempt : ℕ) : TaskContext where
  runId := env.runId
  taskId := taskId
  workflowId := engine.workflow.workflowId
  attempt := attempt
  params := mergeParams (engine.taskParams.getD taskId ∅) env.params

/-- `run.note(f"{task_id}: skipped execution ...")`. -/
def skipExecution (taskId : String) : Exec Unit := do
  let state ← stateOf taskId
  note (.skippedExecution taskId state)

/-- `self._workflow.tasks[task_id]`. -/
def taskDef (taskId : String) : Exec Task :=
  ofExcept ((engine.workflow.tasks.get? taskId).elim (.error (.keyError taskId)) .ok)

/-- The block under the lock that starts an attempt. -/
def startAttempt (taskId : String) (task : Task) (attempt : ℕ) : Exec Unit := do
  assign taskId .running
  update taskId fun record => { record with attempts := attempt }
  if (← recordOf taskId).startedAt = none then
    let now ← now env
    update taskId fun record => { record with startedAt := some now }
  note (.started taskId (if attempt = 1 then .pending else .retrying) attempt
    task.maxAttempts)

/-- `self._tasks[task_id](ctx)`: what the callable does, or the `KeyError` of a
task without one. -/
def callTask (taskId : String) (attempt : ℕ) : Exec (Except PyError Unit) :=
  match engine.tasks.get? taskId with
  | none => pure (.error (.keyError taskId))
  | some callable => do
      emit (.called (engine.context env taskId attempt))
      return callable (engine.context env taskId attempt)

/-- The block under the lock after an attempt has raised. -/
def failAttempt (taskId : String) (error : PyError) : Exec Unit := do
  assign taskId .failed
  update taskId fun record => { record with error := some error.text }
  let now ← now env
  update taskId fun record => { record with finishedAt := some now }
  note (.failed taskId error.text)

/-- The block under the lock after an attempt has returned. -/
def succeedAttempt (taskId : String) : Exec Unit := do
  assign taskId .success
  let now ← now env
  update taskId fun record => { record with finishedAt := some now }
  update taskId fun record => { record with nextRetryAt := none }
  note (.succeeded taskId)

/-- The block of `_schedule_retry` under the lock. -/
def markRetrying (taskId : String) (task : Task) (failedAttempt : ℕ) (delay : ℚ) :
    Exec Unit := do
  assign taskId .retrying
  let now ← now env
  let instant ← ofExcept (env.arithmetic.retryAt now delay)
  update taskId fun record => { record with nextRetryAt := some instant }
  note (.scheduledRetry taskId delay failedAttempt task.maxAttempts)

/-- The delay of a retry, and the check of the move to `retrying`. -/
def checkRetry (taskId : String) (task : Task) (failedAttempt : ℕ) : Exec ℚ := do
  let delay ← ofExcept (env.arithmetic.delay task failedAttempt)
  transition taskId .retrying
  return delay

/-- A call of a hook that is given the run and the record of a task. -/
def taskHook (call : WorkflowRun → TaskRunRecord → HookCall) (taskId : String) : Exec Unit := do
  let state ← get
  emit (.hook (call state.run (state.recordOf taskId)))

/-- `if delay > 0: self._sleeper(delay)`. -/
def sleep (taskId : String) (delay : ℚ) : Exec Unit :=
  if 0 < delay then emit (.slept taskId delay) else pure ()

/-- Move a failed task to `retrying` and wait out the backoff. -/
def scheduleRetry (taskId : String) (task : Task) (failedAttempt : ℕ) : Exec Unit := do
  let delay ← checkRetry env taskId task failedAttempt
  markRetrying env taskId task failedAttempt delay
  taskHook (fun run record => .taskRetry run record delay) taskId
  sleep taskId delay

/-- The loop of `_execute_task` over the attempts. -/
def runAttempts (taskId : String) (task : Task) (attempt : ℕ) : Exec Unit := do
  transition taskId .running
  startAttempt env taskId task attempt
  taskHook .taskStart taskId
  match ← engine.callTask env taskId attempt with
  | .error error =>
      transition taskId .failed
      failAttempt env taskId error
      if remaining : attempt < task.maxAttempts then
        scheduleRetry env taskId task attempt
        runAttempts taskId task (attempt + 1)
      else
        note (.permanentFailure taskId attempt)
        taskHook .taskFailure taskId
  | .ok () =>
      transition taskId .success
      succeedAttempt env taskId
      taskHook .taskSuccess taskId
termination_by task.maxAttempts - attempt

/-- Run one task with retries, unless its state forbids execution. -/
def executeTask (taskId : String) : Exec Unit := do
  record taskId
  if (← stateOf taskId) ≠ .pending then
    skipExecution taskId
  else
    engine.blockIfUpstreamFailed env taskId
    record taskId
    if (← stateOf taskId) ≠ .pending then
      skipExecution taskId
    else
      let task ← engine.taskDef taskId
      let attempts := (← recordOf taskId).attempts
      engine.runAttempts env taskId task (attempts + 1)

/-! ## Runs -/

/-- The state in which `run` begins. -/
def created : RunState where
  run := { workflowId := engine.workflow.workflowId, runId := env.runId }

/-- `run` up to the first task. -/
def beginRun : Exec Unit := do
  modify fun state => { state with run := { state.run with params := env.params } }
  let now ← now env
  modify (·.startedAt now)
  moveWorkflow .running
  note (.workflowMoved .pending .running)
  emit (.hook (.workflowStart (← get).run))

/-- `run` after the last task. -/
def finishRun : Exec Unit := do
  match aggregateWorkflowState (← get).run.taskStates with
  | none => throw (.other "AssertionError" "validated workflows have >= 1 task")
  | some final =>
      moveWorkflow final
      let now ← now env
      modify (·.finishedAt now)
      note (.workflowMoved .running final)
      emit (.hook (.workflowEnd (← get).run))

/-- Execute tasks one after the other. -/
def executeAll : List String → Exec Unit
  | [] => pure ()
  | taskId :: rest => do
      engine.executeTask env taskId
      executeAll rest

/-- `self._workflow.topological_order()`. -/
def topologicalOrder : Except PyError (List String) :=
  engine.workflow.topologicalOrder.mapError .orchestration

/-- `run` with `max_workers <= 1`. -/
def runSequential : Exec Unit := do
  beginRun env
  engine.executeAll env (← ofExcept engine.topologicalOrder)
  finishRun env

/-- The level of a task: one more than the greatest level of its upstreams. -/
def levelOf (levels : OrderedDict String ℕ) (taskId : String) : Except PyError ℕ :=
  let upstream := engine.workflow.upstream taskId
  if upstream = ∅ then .ok 0
  else match (sorted upstream).find? (· ∉ levels) with
    | some missing => .error (.keyError missing)
    | none => .ok (1 + upstream.sup fun up => levels.getD up 0)

/-- The loop of `_dependency_levels` that fills `level_of`. -/
def fillLevels : List String → OrderedDict String ℕ → Except PyError (OrderedDict String ℕ)
  | [], levels => .ok levels
  | taskId :: rest, levels => do
      let level ← engine.levelOf levels taskId
      fillLevels rest (levels.set taskId level)

/-- The tasks of a level in ascending order. -/
def tasksAt (levels : OrderedDict String ℕ) (level : ℕ) : List String :=
  ((levels.entries.filter fun entry => entry.2 = level).map Prod.fst).insertionSort (· ≤ ·)

/-- Group tasks into levels executable in parallel. -/
def dependencyLevels : Except PyError (List (List String)) := do
  let order ← engine.topologicalOrder
  let levels ← engine.fillLevels order ∅
  return (sorted levels.values.toFinset).map (tasksAt levels)

end WorkflowEngine

end EtlOrchestrator
