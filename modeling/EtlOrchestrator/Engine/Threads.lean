import Mathlib.Logic.Function.Basic
import EtlOrchestrator.Engine.Execution
import EtlOrchestrator.Foundations.Performs
import EtlOrchestrator.Foundations.Traces

/-!
# Worker threads

`_execute_task` as a thread: a program point (`Pc`) and, for each point, the one
atomic step that a thread takes there. A step is a block under the lock, a call
of `record()`, a read of a state, or a call of a callable, of a hook or of the
sleeper. Between two steps of a thread any other thread may take steps. That a
call of `record()` without the lock is one step is an assumption on the
interleaving, which `RecordRaces` gives up.

The machine executes a workflow batch by batch. The jobs of a batch are put into
the queue of a pool, whose workers take them in order, and the next batch begins
when all of them have returned. A batch of one job is what the main thread
executes itself. With one worker the batches are the single tasks in topological
order, and otherwise they are the dependency levels.
-/

set_option autoImplicit false

namespace EtlOrchestrator

open SortedSet Exec Relation

/-! ## Threads -/

/-- Where a thread stands in `_execute_task`. -/
inductive Pc where
  /-- `record = run.record(task_id)` -/
  | enter
  /-- `if record.state is not TaskState.PENDING` -/
  | firstCheck
  /-- `run.note(f"{task_id}: skipped execution ...")` -/
  | skip
  /-- The loop of `_block_if_upstream_failed`, with the upstream ids to come -/
  | scan (rest : List String)
  /-- `if upstream_record.state in (...)` -/
  | scanCheck (upstreamId : String) (rest : List String)
  /-- The loop of `_block_downstream` -/
  | walk (failedTaskId : String) (pendingVisit : List String) (visited : Finset String)
  /-- `record = run.record(task_id)  # refresh after mutations` -/
  | refresh
  /-- The second `if record.state is not TaskState.PENDING` -/
  | secondCheck
  /-- `attempt = record.attempts` -/
  | define
  /-- `transition_task(record.state, TaskState.RUNNING)` -/
  | checkStart (task : Task) (attempt : ℕ)
  /-- The block that starts an attempt -/
  | start (task : Task) (attempt : ℕ)
  | hookStart (task : Task) (attempt : ℕ)
  | call (task : Task) (attempt : ℕ)
  /-- `transition_task(record.state, TaskState.FAILED)` -/
  | checkFail (task : Task) (attempt : ℕ) (error : PyError)
  /-- The block after an attempt has raised -/
  | fail (task : Task) (attempt : ℕ) (error : PyError)
  /-- The delay, and `transition_task(record.state, TaskState.RETRYING)` -/
  | checkRetry (task : Task) (attempt : ℕ)
  /-- The block of `_schedule_retry` -/
  | retry (task : Task) (attempt : ℕ) (delay : ℚ)
  | hookRetry (task : Task) (attempt : ℕ) (delay : ℚ)
  | sleep (task : Task) (attempt : ℕ) (delay : ℚ)
  /-- `run.note(f"{task_id}: permanent failure ...")` -/
  | permanent (attempt : ℕ)
  | hookFailure
  /-- `transition_task(record.state, TaskState.SUCCESS)` -/
  | checkSucceed (attempt : ℕ)
  /-- The block after an attempt has returned -/
  | succeed (attempt : ℕ)
  | hookSuccess (attempt : ℕ)
  | done
  | raised (error : PyError)

namespace Pc

/-- The error a thread has ended with. -/
def error? : Pc → Option PyError
  | raised error => some error
  | _ => none

/-- Whether the thread has returned or raised. -/
def ended : Pc → Bool
  | done | raised _ => true
  | _ => false

end Pc

namespace WorkflowEngine

variable (engine : WorkflowEngine) (env : Env)

/-- The step of a thread at a program point, and the point after it. `record()`, which looks for a
record and then stores one, is one step here. -/
def act (taskId : String) : Pc → Exec Pc
  | .enter => do
      record taskId
      return .firstCheck
  | .firstCheck => do
      if (← stateOf taskId) ≠ .pending then return .skip
      else return .scan (env.iterate taskId (engine.workflow.upstream taskId))
  | .skip => do
      skipExecution taskId
      return .done
  | .scan [] => return .refresh
  | .scan (upstreamId :: rest) => do
      record upstreamId
      return .scanCheck upstreamId rest
  | .scanCheck upstreamId rest => do
      let state ← stateOf upstreamId
      if state = .failed ∨ state = .upstreamFailed then
        return .walk upstreamId (sorted (engine.workflow.downstream upstreamId)) ∅
      else return .scan rest
  | .walk _ [] _ => return .refresh
  | .walk failedTaskId (dependent :: rest) visited =>
      if dependent ∈ visited then return .walk failedTaskId rest visited
      else do
        blockTask env failedTaskId dependent
        return .walk failedTaskId (rest ++ sorted (engine.workflow.downstream dependent))
          (insert dependent visited)
  | .refresh => do
      record taskId
      return .secondCheck
  | .secondCheck => do
      if (← stateOf taskId) ≠ .pending then return .skip
      else return .define
  | .define => do
      let task ← engine.taskDef taskId
      return .checkStart task ((← recordOf taskId).attempts + 1)
  | .checkStart task attempt => do
      transition taskId .running
      return .start task attempt
  | .start task attempt => do
      startAttempt env taskId task attempt
      return .hookStart task attempt
  | .hookStart task attempt => do
      taskHook .taskStart taskId
      return .call task attempt
  | .call task attempt => do
      match ← engine.callTask env taskId attempt with
      | .ok () => return .checkSucceed attempt
      | .error error => return .checkFail task attempt error
  | .checkFail task attempt error => do
      transition taskId .failed
      return .fail task attempt error
  | .fail task attempt error => do
      failAttempt env taskId error
      return if attempt < task.maxAttempts then .checkRetry task attempt
        else .permanent attempt
  | .checkRetry task attempt => do
      let delay ← WorkflowEngine.checkRetry env taskId task attempt
      return .retry task attempt delay
  | .retry task attempt delay => do
      markRetrying env taskId task attempt delay
      return .hookRetry task attempt delay
  | .hookRetry task attempt delay => do
      taskHook (fun run record => .taskRetry run record delay) taskId
      return .sleep task attempt delay
  | .sleep task attempt delay => do
      WorkflowEngine.sleep taskId delay
      return .checkStart task (attempt + 1)
  | .permanent attempt => do
      note (.permanentFailure taskId attempt)
      return .hookFailure
  | .hookFailure => do
      taskHook .taskFailure taskId
      return .done
  | .checkSucceed attempt => do
      transition taskId .success
      return .succeed attempt
  | .succeed attempt => do
      succeedAttempt env taskId
      return .hookSuccess attempt
  | .hookSuccess _ => do
      taskHook .taskSuccess taskId
      return .done
  | .done => return .done
  | .raised error => return .raised error

/-- A step of a thread, which ends at `raised` when the step raises. -/
def advance (taskId : String) (state : RunState) (pc : Pc) : RunState × Pc :=
  match (engine.act env taskId pc).run state with
  | .ok next after => (after, next)
  | .error error after => (after, .raised error)

/-- The steps of the thread of one task. -/
def ThreadStep (taskId : String) (before after : RunState × Pc) : Prop :=
  before.2.ended = false ∧ after = engine.advance env taskId before.1 before.2

/-! ## The machine -/

/-- The batches of a run. -/
def batches : Except PyError (List (List String)) :=
  if engine.maxWorkers ≤ 1 then engine.topologicalOrder.map (·.map ([·]))
  else engine.dependencyLevels

end WorkflowEngine

/-- Whether `run` is in progress, has returned or has raised. -/
inductive RunStatus where
  | running
  | returned
  | raised (error : PyError)
deriving DecidableEq

/-- The state of a run with its threads. `jobs` is the current batch, of which
the tasks in `queue` wait for a worker and the tasks in `active` are held by
one, and `levels` are the batches to come. -/
structure Machine where
  shared : RunState
  pcs : String → Pc := fun _ => .enter
  levels : List (List String)
  jobs : List String := []
  queue : List String := []
  active : List String := []
  status : RunStatus := .running

namespace WorkflowEngine

variable (engine : WorkflowEngine) (env : Env)

/-- The state in which the first batch is about to begin. -/
def start : Machine :=
  match (beginRun env).run (engine.created env) with
  | .error error shared => { shared, levels := [], status := .raised error }
  | .ok () shared =>
      match engine.batches with
      | .error error => { shared, levels := [], status := .raised error }
      | .ok levels => { shared, levels }

/-- The number of workers of a batch. -/
def workers (jobs : List String) : ℕ := min engine.maxWorkers jobs.length

/-- The state after a step of the thread of a task. -/
def work (machine : Machine) (taskId : String) : Machine :=
  let next := engine.advance env taskId machine.shared (machine.pcs taskId)
  { machine with shared := next.1, pcs := Function.update machine.pcs taskId next.2 }

/-- The state after `run` has aggregated the states of the tasks. -/
def finish (machine : Machine) : Machine :=
  match (finishRun env).run machine.shared with
  | .ok () shared => { machine with shared, status := .returned }
  | .error error shared => { machine with shared, status := .raised error }

/-- The steps of a run. -/
inductive Step : Machine → Machine → Prop where
  /-- A worker takes the next job. -/
  | take {machine : Machine} {taskId : String} {rest : List String}
      (running : machine.status = .running) (waiting : machine.queue = taskId :: rest)
      (free : machine.active.length < engine.workers machine.jobs) :
      Step machine { machine with queue := rest, active := taskId :: machine.active }
  /-- A worker takes a step of its job. -/
  | work {machine : Machine} {taskId : String} (running : machine.status = .running)
      (held : taskId ∈ machine.active) (unfinished : (machine.pcs taskId).ended = false) :
      Step machine (engine.work env machine taskId)
  /-- A worker leaves a job that has ended. -/
  | leave {machine : Machine} {taskId : String} (running : machine.status = .running)
      (held : taskId ∈ machine.active) (finished : (machine.pcs taskId).ended = true) :
      Step machine { machine with active := machine.active.erase taskId }
  /-- The batch has ended, and the next one is submitted. -/
  | submit {machine : Machine} {batch : List String} {later : List (List String)}
      (running : machine.status = .running) (drained : machine.queue = [])
      (idle : machine.active = []) (toCome : machine.levels = batch :: later)
      (returned : ∀ taskId ∈ machine.jobs, (machine.pcs taskId).error? = none) :
      Step machine { machine with levels := later, jobs := batch, queue := batch }
  /-- The batch has ended, and the error of its first raising job is raised. -/
  | raise {machine : Machine} {error : PyError} (running : machine.status = .running)
      (drained : machine.queue = []) (idle : machine.active = [])
      (first : machine.jobs.findSome? (fun taskId => (machine.pcs taskId).error?) = some error) :
      Step machine { machine with status := .raised error }
  /-- The last batch has ended. -/
  | finish {machine : Machine} (running : machine.status = .running)
      (drained : machine.queue = []) (idle : machine.active = []) (last : machine.levels = [])
      (returned : ∀ taskId ∈ machine.jobs, (machine.pcs taskId).error? = none) :
      Step machine (WorkflowEngine.finish env machine)

/-- Only a run that is in progress takes a step. -/
theorem Step.running {engine : WorkflowEngine} {env : Env} {machine next : Machine}
    (step : engine.Step env machine next) : machine.status = .running := by
  cases step <;> assumption

/-- The runs of the machine. -/
abbrev Steps : Machine → Machine → Prop := ReflTransGen (engine.Step env)

/-! ## Replaying a schedule -/

/-- What a scheduler can choose to do next. -/
inductive Choice where
  | take
  | work (taskId : String)
  | leave (taskId : String)
  | submit
  | raise
  | finish

/-- The error that a batch raises: that of its first raising job. -/
def batchError? (machine : Machine) : Option PyError :=
  machine.jobs.findSome? fun taskId => (machine.pcs taskId).error?

/-- The state after a choice, if it can be taken. -/
def choose (machine : Machine) : Choice → Option Machine
  | .take =>
      match machine.status, machine.queue with
      | .running, taskId :: rest =>
          if machine.active.length < engine.workers machine.jobs then
            some { machine with queue := rest, active := taskId :: machine.active }
          else none
      | _, _ => none
  | .work taskId =>
      match machine.status with
      | .running =>
          if taskId ∈ machine.active ∧ (machine.pcs taskId).ended = false then
            some (engine.work env machine taskId)
          else none
      | _ => none
  | .leave taskId =>
      match machine.status with
      | .running =>
          if taskId ∈ machine.active ∧ (machine.pcs taskId).ended = true then
            some { machine with active := machine.active.erase taskId }
          else none
      | _ => none
  | .submit =>
      match machine.status, machine.queue, machine.active, machine.levels, batchError? machine with
      | .running, [], [], batch :: later, none =>
          some { machine with levels := later, jobs := batch, queue := batch }
      | _, _, _, _, _ => none
  | .raise =>
      match machine.status, machine.queue, machine.active, batchError? machine with
      | .running, [], [], some error => some { machine with status := .raised error }
      | _, _, _, _ => none
  | .finish =>
      match machine.status, machine.queue, machine.active, machine.levels, batchError? machine with
      | .running, [], [], [], none => some (WorkflowEngine.finish env machine)
      | _, _, _, _, _ => none

/-- The steps are the choices that can be taken. -/
theorem step_iff {machine next : Machine} : engine.Step env machine next ↔
    ∃ choice, engine.choose env machine choice = some next := by
  constructor
  · intro step
    cases step with
    | take running waiting free => exact ⟨.take, by simp [choose, running, waiting, free]⟩
    | @work taskId running held unfinished =>
        exact ⟨.work taskId, by simp [choose, running, held, unfinished]⟩
    | @leave taskId running held finished =>
        exact ⟨.leave taskId, by simp [choose, running, held, finished]⟩
    | submit running drained idle toCome returned =>
        have noError : batchError? machine = none := List.findSome?_eq_none_iff.mpr returned
        exact ⟨.submit, by simp [choose, running, drained, idle, toCome, noError]⟩
    | raise running drained idle first =>
        have error : batchError? machine = some _ := first
        exact ⟨.raise, by simp [choose, running, drained, idle, error]⟩
    | finish running drained idle last returned =>
        have noError : batchError? machine = none := List.findSome?_eq_none_iff.mpr returned
        exact ⟨.finish, by simp [choose, running, drained, idle, last, noError]⟩
  · rintro ⟨choice, chosen⟩
    cases choice with
    | take =>
        simp only [choose] at chosen
        split at chosen
        · split at chosen
          · cases chosen
            exact .take ‹_› ‹_› ‹_›
          · cases chosen
        · cases chosen
    | work taskId =>
        simp only [choose] at chosen
        split at chosen
        · split at chosen
          · rename_i running held
            cases chosen
            exact .work running held.1 held.2
          · cases chosen
        · cases chosen
    | leave taskId =>
        simp only [choose] at chosen
        split at chosen
        · split at chosen
          · rename_i running held
            cases chosen
            exact .leave running held.1 held.2
          · cases chosen
        · cases chosen
    | submit =>
        simp only [choose] at chosen
        split at chosen
        · cases chosen
          exact .submit ‹_› ‹_› ‹_› ‹_› (List.findSome?_eq_none_iff.mp ‹_›)
        · cases chosen
    | raise =>
        simp only [choose] at chosen
        split at chosen
        · cases chosen
          exact .raise ‹_› ‹_› ‹_› ‹_›
        · cases chosen
    | finish =>
        simp only [choose] at chosen
        split at chosen
        · cases chosen
          exact .finish ‹_› ‹_› ‹_› ‹_› (List.findSome?_eq_none_iff.mp ‹_›)
        · cases chosen

/-- The state after a list of choices. -/
def replay (machine : Machine) (choices : List Choice) : Option Machine :=
  choices.foldlM (engine.choose env) machine

/-- A replayed schedule is a run. -/
theorem steps_of_replay {choices : List Choice} {machine next : Machine}
    (replayed : engine.replay env machine choices = some next) :
    engine.Steps env machine next := by
  have sound : ∀ before choice after, engine.choose env before choice = some after →
      engine.Step env before after :=
    fun _ choice _ chosen => (engine.step_iff env).mpr ⟨choice, chosen⟩
  exact reflTransGen_of_foldlM sound replayed

end WorkflowEngine

end EtlOrchestrator
