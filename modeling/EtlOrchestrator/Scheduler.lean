import EtlOrchestrator.Config
import EtlOrchestrator.Engine.Execution

/-!
# Interval-based scheduling

A scheduler holds registered workflow files with their intervals, and `runOnce`
runs every schedule that is due. A schedule whose workflow cannot be loaded,
built or configured yields a failed run, as far as an `OrchestrationError`
reports it. The programs keep the state at the point where they raise.

The runs given to the store and the names of the executed schedules are kept as
traces, which no program reads.
-/

set_option autoImplicit false

namespace EtlOrchestrator

open SortedSet

/-! ## Schedules -/

/-- One registered workflow and its interval. -/
structure Schedule where
  name : String
  path : String
  intervalSeconds : ℚ
  lastRunAt : Option ℚ := none
  positive : 0 < intervalSeconds

/-- The registry and the registrations of a scheduler, each under its name. -/
structure Scheduler where
  registry : OrderedDict String TaskCallable
  schedules : OrderedDict String Schedule := ∅
  named : ∀ name schedule, schedules.get? name = some schedule → schedule.name = name := by
    exact nofun

namespace Scheduler

/-- `Scheduler.__init__`: a scheduler without registrations. -/
def init (registry : OrderedDict String TaskCallable) : Scheduler := { registry }

/-- Register a workflow file under `name` with a fixed interval. -/
def register (scheduler : Scheduler) (name path : String) (intervalSeconds : ℚ) :
    Except PyError Scheduler :=
  if positive : 0 < intervalSeconds then
    .ok
      { registry := scheduler.registry
        schedules := scheduler.schedules.set name
          { name, path, intervalSeconds, positive }
        named := by
          intro other schedule stored
          rw [OrderedDict.get?_set] at stored
          split at stored
          · cases stored
            exact (‹other = name›).symm
          · exact scheduler.named other schedule stored }
  else .error (.valueError "interval_seconds must be positive")

/-- Remove a registration (no-op when unknown). -/
def unregister (scheduler : Scheduler) (name : String) : Scheduler where
  registry := scheduler.registry
  schedules := scheduler.schedules.erase name
  named := by
    intro other schedule stored
    rw [OrderedDict.get?_erase] at stored
    split at stored
    · cases stored
    · exact scheduler.named other schedule stored

/-- The assignment to `schedule.last_run_at`. -/
def markRun (scheduler : Scheduler) (name : String) (now : ℚ) : Scheduler :=
  match stored : scheduler.schedules.get? name with
  | none => scheduler
  | some schedule =>
      { registry := scheduler.registry
        schedules := scheduler.schedules.set name { schedule with lastRunAt := some now }
        named := by
          intro other changed found
          rw [OrderedDict.get?_set] at found
          split at found
          · cases found
            exact (scheduler.named name schedule stored).trans (‹other = name›).symm
          · exact scheduler.named other changed found }

end Scheduler

/-- Whether the interval of a schedule has elapsed. -/
def Schedule.isDue (schedule : Schedule) (now : ℚ) : Bool :=
  match schedule.lastRunAt with
  | none => true
  | some lastRunAt => schedule.intervalSeconds ≤ now - lastRunAt

/-- Names of schedules whose intervals have elapsed. -/
def Scheduler.due (scheduler : Scheduler) (now : ℚ) : List String :=
  sorted ((scheduler.schedules.entries.filter fun entry => entry.2.isDue now).map
    Prod.fst).toFinset

/-! ## Running a schedule -/

/-- The files, the clock of the scheduler, and what the run of each schedule
meets. -/
structure Surroundings where
  reader : ConfigReader
  clock : ℕ → ℚ
  env : String → Env

/-- The engine of a workflow file, as `_run_schedule` sets it up. -/
def loadEngine (reader : ConfigReader) (registry : OrderedDict String TaskCallable)
    (path : String) : Except PyError AcceptedEngine := do
  let config ← loadWorkflowConfig reader path
  let workflow ← buildWorkflow config
  let callables ← resolveCallables config registry
  let taskParams ← loadTaskParams reader path
  (WorkflowEngine.init workflow callables taskParams 1).mapError .orchestration

/-- `engine.run()` of an engine with one worker. -/
def AcceptedEngine.run (engine : AcceptedEngine) (env : Env) : Except PyError WorkflowRun :=
  match (engine.runSequential { env with params := ∅ }).run
      (engine.created { env with params := ∅ }) with
  | .ok () state => .ok state.run
  | .error error _ => .error error

/-- The run that stands for a workflow that cannot be loaded. -/
def unrunnable (name runId message : String) : WorkflowRun where
  workflowId := name
  runId := runId
  workflowState := .failed
  log := [.cannotLoad message]

/-- The state of a scheduler, the calls of `save_run` and of `engine.run()`, and the
number of readings of the scheduler's clock. -/
structure SchedulerState where
  scheduler : Scheduler
  saved : List WorkflowRun := []
  executed : List String := []
  clockReads : ℕ := 0

namespace SchedulerState

/-- The state after a call of `register`. A `ValueError` goes to the caller. -/
def register (state : SchedulerState) (name path : String) (intervalSeconds : ℚ) :
    SchedulerState :=
  match state.scheduler.register name path intervalSeconds with
  | .ok scheduler => { state with scheduler }
  | .error _ => state

/-- The state after a call of `unregister`. -/
def unregister (state : SchedulerState) (name : String) : SchedulerState :=
  { state with scheduler := state.scheduler.unregister name }

end SchedulerState

/-- A program over the state of a scheduler. -/
abbrev Scheduling (α : Type) := EStateM PyError SchedulerState α

namespace Scheduling

variable (world : Surroundings)

/-- `self._clock()`. -/
def now : Scheduling ℚ := do
  let state ← get
  set { state with clockReads := state.clockReads + 1 }
  return world.clock state.clockReads

/-- `_run_schedule`. -/
def runSchedule (schedule : Schedule) : Scheduling WorkflowRun := do
  match loadEngine world.reader (← get).scheduler.registry schedule.path with
  | .error (.orchestration error) =>
      return unrunnable schedule.name (world.env schedule.name).runId error.str
  | .error error => throw error
  | .ok engine =>
      modify fun state => { state with executed := state.executed ++ [schedule.name] }
      ofExcept (engine.run (world.env schedule.name))

/-- `self.due()`. -/
def due : Scheduling (List String) := do
  let now ← now world
  return (← get).scheduler.due now

/-- The body of the loop of `run_once`. -/
def iteration (name : String) : Scheduling WorkflowRun := do
  match (← get).scheduler.schedules.get? name with
  | none => throw (.keyError name)
  | some schedule =>
      let run ← runSchedule world schedule
      modify fun state => { state with saved := state.saved ++ [run] }
      let now ← now world
      modify fun state => { state with scheduler := state.scheduler.markRun name now }
      return run

/-- The loop of `run_once` over the due schedules. -/
def runDue : List String → Scheduling (List WorkflowRun)
  | [] => return []
  | name :: rest => do
      let run ← iteration world name
      return run :: (← runDue rest)

/-- Run every due schedule once; return the completed runs. -/
def runOnce : Scheduling (List WorkflowRun) := do
  runDue world (← due world)

end Scheduling

end EtlOrchestrator
