import EtlOrchestrator.Cli.WorkflowFiles
import EtlOrchestrator.Persistence.FiniteMap

/-!
# The commands on stored runs

`workflow run` executes the workflow of a file, saves its run and prints a report of it.
`scheduler run-once` saves the runs of the due schedules, `run cancel` cancels a stored run, and
the other commands print what the database holds. A command keeps what it has saved and printed
when it raises.

A command of the command line is a process of its own, so the database is all that one of them
leaves to the next.
-/

set_option autoImplicit false

namespace EtlOrchestrator

open SortedSet RunStore

/-! ## Programs over a database -/

/-- The database, and what a command has printed. -/
structure Terminal where
  store : RunStore
  lines : List String := []

/-- A program of the command line. -/
abbrev Commanding (α : Type) := EStateM PyError Terminal α

namespace Commanding

/-- `click.echo(line)`. -/
def echo (line : String) : Commanding Unit :=
  modify fun terminal => { terminal with lines := terminal.lines ++ [line] }

/-- Print some lines. -/
def echoAll : List String → Commanding Unit
  | [] => pure ()
  | line :: rest => do
      echo line
      echoAll rest

/-- `with RunStore(...) as store:` around a program over the store. -/
def withStore {α : Type} (program : Storing α) : Commanding α := fun terminal =>
  match program.run terminal.store with
  | .ok result store => .ok result { terminal with store }
  | .error error store => .error error { terminal with store }

@[simp] theorem run_echo (line : String) (terminal : Terminal) : (echo line).run terminal =
    .ok () { terminal with lines := terminal.lines ++ [line] } := rfl

@[simp] theorem run_echoAll (lines : List String) : ∀ terminal : Terminal,
    (echoAll lines).run terminal = .ok () { terminal with lines := terminal.lines ++ lines } := by
  induction lines with
  | nil =>
      intro terminal
      simp [echoAll]
  | cons line rest ih =>
      intro terminal
      rw [echoAll, EStateM.run_bind, run_echo]
      dsimp only
      rw [ih, List.append_assoc, List.singleton_append]

theorem run_withStore {α : Type} (program : Storing α) (terminal : Terminal) :
    (withStore program).run terminal = match program.run terminal.store with
      | .ok result store => .ok result { terminal with store }
      | .error error store => .error error { terminal with store } := rfl

@[simp] theorem run_ofExcept_ok {α : Type} (result : α) (terminal : Terminal) :
    (ofExcept (.ok result) : Commanding α).run terminal = .ok result terminal := rfl

@[simp] theorem run_ofExcept_error {α : Type} (error : PyError) (terminal : Terminal) :
    (ofExcept (.error error) : Commanding α).run terminal = .error error terminal := rfl

end Commanding

open Commanding

/-! ## The parameters of a run -/

/-- `pair.split("=", 1)`, if there is a `=` in the pair. -/
def splitPair (pair : String) : Option (String × String) :=
  match pair.toList.span (· ≠ '=') with
  | (_, []) => none
  | (key, _ :: value) => some (String.ofList key, String.ofList value)

/-- The loop of `_parse_params`. -/
def parseParams : List String → Params → Except PyError Params
  | [], params => .ok params
  | pair :: rest, params =>
      match splitPair pair with
      | none => .error (.other "BadParameter" s!"--param expects key=value, got '{pair}'")
      | some (key, value) => parseParams rest (params.set key (.str value))

/-- `engine.run(params=...)` of an engine with one worker. -/
def AcceptedEngine.runWith (engine : AcceptedEngine) (env : Env) : Except PyError WorkflowRun :=
  match (engine.runSequential env).run (engine.created env) with
  | .ok () state => .ok state.run
  | .error error _ => .error error

/-! ## What the commands print -/

/-- `f" (attempts: {record.attempts})" if record.attempts else ""`. -/
def attemptsNote (attempts : ℕ) : String :=
  if attempts = 0 then "" else s!" (attempts: {attempts})"

/-- The lines that `workflow_run` prints for a task. -/
def taskReport (taskId : String) (record : TaskRunRecord) : List String :=
  s!"  {taskId}: {record.state.value}{attemptsNote record.attempts}" ::
    match record.error with
    | none => []
    | some error => if error = "" then [] else [s!"    error: {error}"]

/-- The loop of `workflow_run` over the resolved order. -/
def printTasks (records : OrderedDict String TaskRunRecord) : List String → Commanding Unit
  | [] => pure ()
  | taskId :: rest =>
      match records.get? taskId with
      | none => throw (.keyError taskId)
      | some record => do
          echoAll (taskReport taskId record)
          printTasks records rest

/-- The records of a run in ascending order of the task ids. -/
def RunSnapshot.sortedRecords (run : RunSnapshot) : List (String × TaskRunRecord) :=
  (sorted run.records.keySet).map fun taskId => (taskId, run.records.getD taskId { taskId })

section

variable (encoding : Encoding)

/-- `value.isoformat() if value else "?"`. -/
def startText (value : Option ℚ) : String := (encoding.dumpDt value).getD "?"

/-- The lines that `workflow_status` prints for a run. -/
def statusReport (summary : RunSummary) (loaded : RunSnapshot) : List String :=
  s!"run {summary.runId}: {summary.state.value} (started {startText encoding summary.startedAt})" ::
    loaded.sortedRecords.map fun entry => s!"  {entry.1}: {entry.2.state.value}"

/-- The line that `workflow_history` prints for a run. -/
def historyLine (summary : RunSummary) : String :=
  s!"{summary.runId}  {summary.state.value}  {startText encoding summary.startedAt}"

/-- The lines that `run_show` prints for a run. -/
def showReport (loaded : RunSnapshot) : List String :=
  [s!"workflow: {loaded.workflowId}", s!"state: {loaded.workflowState.value}", "tasks:"] ++
    loaded.sortedRecords.map (fun entry =>
      s!"  {entry.1}: {entry.2.state.value} (attempts: {entry.2.attempts})") ++
    "log:" :: loaded.log.map fun entry => s!"  {entry}"

/-! ## The commands -/

/-- What `workflow_run` does after the run has been saved. -/
def reportRun (built : Workflow) (run : WorkflowRun) : Commanding Unit := do
  echo s!"run {run.runId}: {run.workflowState.value}"
  let order ← ofExcept (built.topologicalOrder.mapError .orchestration)
  printTasks run.records order
  if run.workflowState ≠ .success then throw (.other "SystemExit" "1")

/-- Execute a workflow and persist the run. -/
def workflowRun (workspace : Workspace) (reader : ConfigReader)
    (registry : OrderedDict String TaskCallable) (env : Env) (name : String)
    (pairs : List String) : Commanding Unit := do
  let opened ← ofExcept (openWorkflow workspace reader registry name)
  let params ← ofExcept (parseParams pairs ∅)
  let run ← ofExcept (opened.1.runWith { env with params })
  withStore (saveRun encoding run.snapshot)
  reportRun opened.2 run

/-- Show the latest stored run of a workflow. -/
def workflowStatus (name : String) : Commanding Unit := do
  let found ← withStore do
    match ← ofExcept (latestRun encoding (← get) name) with
    | none => return none
    | some summary =>
        let loaded ← ofExcept (loadRun encoding (← get) summary.runId)
        return loaded.map (summary, ·)
  match found with
  | none => echo s!"no runs recorded for workflow '{name}'"
  | some (summary, loaded) => echoAll (statusReport encoding summary loaded)

/-- List stored runs of a workflow, newest first. -/
def workflowHistory (name : String) : Commanding Unit := do
  let summaries ← withStore do ofExcept (listRuns encoding (← get) (some name))
  if summaries.isEmpty then echo s!"no runs recorded for workflow '{name}'"
  else echoAll (summaries.map (historyLine encoding))

/-- Print the full record of a stored run. -/
def runShow (runId : String) : Commanding Unit := do
  match ← withStore do ofExcept (loadRun encoding (← get) runId) with
  | none => throw (clickException s!"run not found: {runId}")
  | some loaded => echoAll (showReport loaded)

/-- Mark a non-terminal stored run as cancelled. -/
def runCancel (runId : String) : Commanding Unit := do
  if ← withStore (cancelRun encoding runId) then echo s!"run {runId} cancelled"
  else throw (clickException s!"run '{runId}' not found or already terminal")

/-- `scheduler run-once`, which saves each run of the scheduler. Such a run has no parameters, so
that no save of a run raises. -/
def runDueSchedules (registry : OrderedDict String TaskCallable) (world : Surroundings)
    (entries : List ScheduleEntry) : Commanding Unit := fun terminal =>
  let program := schedulerRunOnce world entries
  let initial : SchedulerState := { scheduler := .init registry }
  let saved := (Scheduling.finalState program initial).saved.map WorkflowRun.snapshot
  let store := saveAll encoding terminal.store saved
  match program.run initial with
  | .ok lines _ => .ok () { store, lines := terminal.lines ++ lines }
  | .error error _ => .error error { terminal with store }

end

/-! ## Processes -/

/-- A command that uses the database. -/
inductive Command where
  | workflowRun (name : String) (pairs : List String)
  | workflowStatus (name : String)
  | workflowHistory (name : String)
  | runShow (runId : String)
  | runCancel (runId : String)
  /-- `scheduler run-once`, with the entries of the schedules file -/
  | schedulerRunOnce (entries : List ScheduleEntry)

/-- A process of the command line, with what it meets outside the database. -/
structure Process where
  workspace : Workspace
  registry : OrderedDict String TaskCallable
  world : Surroundings
  command : Command

namespace Process

variable (encoding : Encoding)

/-- The program of a process. -/
def program (process : Process) : Commanding Unit :=
  match process.command with
  | .workflowRun name pairs => workflowRun encoding process.workspace process.world.reader
      process.registry (process.world.env name) name pairs
  | .workflowStatus name => workflowStatus encoding name
  | .workflowHistory name => workflowHistory encoding name
  | .runShow runId => runShow encoding runId
  | .runCancel runId => runCancel encoding runId
  | .schedulerRunOnce entries =>
      runDueSchedules encoding process.registry process.world entries

/-- The database that a process leaves, whether its command returns or raises. -/
def storeAfter (process : Process) (store : RunStore) : RunStore :=
  match (process.program encoding).run { store } with
  | .ok _ after => after.store
  | .error _ after => after.store

/-- The lines that a process prints, whether its command returns or raises. -/
def output (process : Process) (store : RunStore) : List String :=
  match (process.program encoding).run { store } with
  | .ok _ after => after.lines
  | .error _ after => after.lines

/-- What a command raises: nothing when the process exits with code 0. -/
def error? (process : Process) (store : RunStore) : Option PyError :=
  match (process.program encoding).run { store } with
  | .ok _ _ => none
  | .error error _ => some error

/-- The database after some processes, one after the other. -/
def storeAfterAll (store : RunStore) (processes : List Process) : RunStore :=
  processes.foldl (fun store process => process.storeAfter encoding store) store

end Process

end EtlOrchestrator
