import Mathlib.Data.Prod.Lex
import Mathlib.Data.String.Basic
import EtlOrchestrator.Engine.LogText
import EtlOrchestrator.Foundations.JsonStrings
import EtlOrchestrator.Foundations.KeyedTable

/-!
# The store of workflow runs

A run is stored as one row of `workflow_runs` and one row of `task_runs` for each
of its records, with its values as texts. `saveRun` replaces the rows of a run in
one transaction, `loadRun` rebuilds the run from them, and `cancelRun` is a load
followed by a save, each of which is a section of its own under the lock.

The store sees a run as a snapshot, in which the transition log is a list of
texts. The writing and reading of parameters and of instants are those of `json`
and of `datetime`.
-/

set_option autoImplicit false

namespace EtlOrchestrator

/-! ## Snapshots of runs -/

/-- A `WorkflowRun` with the texts of its log. -/
structure RunSnapshot where
  workflowId : String
  runId : String
  workflowState : WorkflowState := .pending
  params : Params := ∅
  records : OrderedDict String TaskRunRecord := ∅
  log : List String := []
  startedAt : Option ℚ := none
  finishedAt : Option ℚ := none

/-- What the store sees of a run. -/
def WorkflowRun.snapshot (run : WorkflowRun) : RunSnapshot where
  workflowId := run.workflowId
  runId := run.runId
  workflowState := run.workflowState
  params := run.params
  records := run.records
  log := run.log.map LogEntry.text
  startedAt := run.startedAt
  finishedAt := run.finishedAt

namespace RunSnapshot

/-- Append a text to the log. -/
def note (run : RunSnapshot) (message : String) : RunSnapshot :=
  { run with log := run.log ++ [message] }

/-- Python's `==`: the fields are equal, and the records are as dictionaries,
whatever their order. -/
structure Same (run other : RunSnapshot) : Prop where
  workflowId : run.workflowId = other.workflowId
  runId : run.runId = other.runId
  workflowState : run.workflowState = other.workflowState
  params : run.params = other.params
  records : ∀ taskId, run.records.get? taskId = other.records.get? taskId
  log : run.log = other.log
  startedAt : run.startedAt = other.startedAt
  finishedAt : run.finishedAt = other.finishedAt

/-- Each record is kept under its own task id. -/
def Keyed (run : RunSnapshot) : Prop :=
  ∀ taskId record, run.records.get? taskId = some record → record.taskId = taskId

end RunSnapshot

/-! ## Texts -/

/-- `json.dumps` and `json.loads` on parameters, and `isoformat` and
`fromisoformat` on instants. -/
structure Encoding where
  dumps : Params → Except PyError String
  loads : String → Except PyError Params
  loads_dumps : ∀ params text, dumps params = .ok text → loads text = .ok params
  isoformat : ℚ → String
  fromisoformat : String → Except PyError ℚ
  fromisoformat_isoformat : ∀ instant, fromisoformat (isoformat instant) = .ok instant

namespace Encoding

variable (encoding : Encoding)

/-- `_dump_dt`. -/
def dumpDt (value : Option ℚ) : Option String := value.map encoding.isoformat

/-- `_load_dt`. -/
def loadDt : Option String → Except PyError (Option ℚ)
  | none => .ok none
  | some text => (encoding.fromisoformat text).map some

@[simp] theorem loadDt_dumpDt (value : Option ℚ) :
    encoding.loadDt (encoding.dumpDt value) = .ok value := by
  cases value with
  | none => rfl
  | some instant => simp [dumpDt, loadDt, encoding.fromisoformat_isoformat, Except.map]

end Encoding

/-- `json.dumps(run.log)`. -/
def dumpLog (log : List String) : String := JsonStrings.write log

/-- `json.loads(log)`, on the texts that `json.dumps` writes. -/
def loadLog (text : String) : Except PyError (List String) :=
  match JsonStrings.read text with
  | some log => .ok log
  | none => .error (.other "JSONDecodeError" "Expecting value")

@[simp] theorem loadLog_dumpLog (log : List String) : loadLog (dumpLog log) = .ok log := by
  rw [loadLog, dumpLog, JsonStrings.read_write]

/-- `TaskState(text)`. -/
def TaskState.ofValue (text : String) : Except PyError TaskState :=
  match [pending, running, success, retrying, failed, upstreamFailed, skipped, cancelled].find?
    fun state => state.value = text with
  | some state => .ok state
  | none => .error (.valueError s!"'{text}' is not a valid TaskState")

/-- `WorkflowState(text)`. -/
def WorkflowState.ofValue (text : String) : Except PyError WorkflowState :=
  match [pending, running, success, failed, cancelled].find? fun state => state.value = text with
  | some state => .ok state
  | none => .error (.valueError s!"'{text}' is not a valid WorkflowState")

@[simp] theorem TaskState.ofValue_value (state : TaskState) :
    TaskState.ofValue state.value = .ok state := by
  cases state <;> rfl

@[simp] theorem WorkflowState.ofValue_value (state : WorkflowState) :
    WorkflowState.ofValue state.value = .ok state := by
  cases state <;> rfl

/-! ## The tables -/

/-- A row of `workflow_runs`. -/
structure WorkflowRow where
  runId : String
  workflowId : String
  state : String
  startedAt : Option String
  finishedAt : Option String
  params : String
  log : String

/-- A row of `task_runs`. -/
structure TaskRow where
  runId : String
  taskId : String
  state : String
  attempts : ℕ
  error : Option String
  startedAt : Option String
  finishedAt : Option String
  nextRetryAt : Option String

/-- The primary key of `task_runs`. -/
def TaskRow.key (row : TaskRow) : String × String := (row.runId, row.taskId)

/-- The database of a store. -/
@[ext] structure RunStore where
  workflowRuns : KeyedTable WorkflowRow WorkflowRow.runId := ∅
  taskRuns : KeyedTable TaskRow TaskRow.key := ∅

instance : EmptyCollection RunStore := ⟨{}⟩

/-- A program over a store. -/
abbrev Storing (α : Type) := EStateM PyError RunStore α

/-- `with self._lock, self._conn:` commits when the block returns, and rolls back
when it raises. -/
def transaction {α : Type} (block : Storing α) : Storing α := fun store =>
  match block.run store with
  | .ok result after => .ok result after
  | .error error _ => .error error store

namespace RunStore

variable (encoding : Encoding)

/-! ## Writes -/

/-- The row of a run, with its parameters as a text. -/
def workflowRow (run : RunSnapshot) (params : String) : WorkflowRow where
  runId := run.runId
  workflowId := run.workflowId
  state := run.workflowState.value
  startedAt := encoding.dumpDt run.startedAt
  finishedAt := encoding.dumpDt run.finishedAt
  params := params
  log := dumpLog run.log

/-- The row of a record. -/
def taskRow (runId : String) (record : TaskRunRecord) : TaskRow where
  runId := runId
  taskId := record.taskId
  state := record.state.value
  attempts := record.attempts
  error := record.error
  startedAt := encoding.dumpDt record.startedAt
  finishedAt := encoding.dumpDt record.finishedAt
  nextRetryAt := encoding.dumpDt record.nextRetryAt

/-- `INSERT OR REPLACE INTO workflow_runs ...`. -/
def replaceRun (row : WorkflowRow) : Storing Unit :=
  modify fun store => { store with workflowRuns := store.workflowRuns.insertOrReplace row }

/-- `DELETE FROM task_runs WHERE run_id = ?`. -/
def deleteTasks (runId : String) : Storing Unit :=
  modify fun store => { store with taskRuns := store.taskRuns.delete (·.runId = runId) }

/-- `INSERT INTO task_runs ...`. -/
def insertTask (row : TaskRow) : Storing Unit := do
  let store ← get
  match store.taskRuns.insert? row with
  | some taskRuns => set { store with taskRuns }
  | none => throw (.other "IntegrityError"
      "UNIQUE constraint failed: task_runs.run_id, task_runs.task_id")

/-- The loop of `save_run` over the records. -/
def insertRecords (runId : String) : List TaskRunRecord → Storing Unit
  | [] => pure ()
  | record :: rest => do
      insertTask (taskRow encoding runId record)
      insertRecords runId rest

/-- The statements of `save_run`. -/
def saveStatements (run : RunSnapshot) : Storing Unit := do
  let params ← ofExcept (encoding.dumps run.params)
  replaceRun (workflowRow encoding run params)
  deleteTasks run.runId
  insertRecords encoding run.runId run.records.values

/-- Insert or replace a run and its task records. -/
def saveRun (run : RunSnapshot) : Storing Unit := transaction (saveStatements encoding run)

/-! ## Reads -/

/-- The record of a row. -/
def loadRecord (row : TaskRow) : Except PyError TaskRunRecord := do
  let state ← TaskState.ofValue row.state
  let startedAt ← encoding.loadDt row.startedAt
  let finishedAt ← encoding.loadDt row.finishedAt
  let nextRetryAt ← encoding.loadDt row.nextRetryAt
  return { taskId := row.taskId, state, attempts := row.attempts, error := row.error
           startedAt, finishedAt, nextRetryAt }

/-- The loop of `load_run` over the rows of the records. -/
def loadRecords : List TaskRow → OrderedDict String TaskRunRecord →
    Except PyError (OrderedDict String TaskRunRecord)
  | [], records => .ok records
  | row :: rest, records => do
      let record ← loadRecord encoding row
      loadRecords rest (records.set row.taskId record)

/-- `SELECT ... FROM task_runs WHERE run_id = ? ORDER BY task_id`. -/
def taskRows (store : RunStore) (runId : String) : List TaskRow :=
  (store.taskRuns.select (·.runId = runId)).insertionSort fun first second =>
    first.taskId ≤ second.taskId

/-- Fully reconstruct a run, or return `none` if unknown. -/
def loadRun (store : RunStore) (runId : String) : Except PyError (Option RunSnapshot) :=
  match store.workflowRuns.find? runId with
  | none => .ok none
  | some row => do
      let workflowState ← WorkflowState.ofValue row.state
      let startedAt ← encoding.loadDt row.startedAt
      let finishedAt ← encoding.loadDt row.finishedAt
      let params ← encoding.loads row.params
      let log ← loadLog row.log
      let records ← loadRecords encoding (store.taskRows runId) ∅
      return some { workflowId := row.workflowId, runId, workflowState, params, records, log
                    startedAt, finishedAt }

end RunStore

/-! ## Cancelling -/

/-- The tuple `terminal` of `cancel_run`. -/
def WorkflowState.IsTerminal (state : WorkflowState) : Prop :=
  state = success ∨ state = failed ∨ state = cancelled

instance (state : WorkflowState) : Decidable state.IsTerminal :=
  inferInstanceAs (Decidable (_ ∨ _))

/-- The run that `cancel_run` saves. -/
def RunSnapshot.cancelled (run : RunSnapshot) : RunSnapshot :=
  { run.note s!"workflow: {run.workflowState.value} -> cancelled" with
    workflowState := .cancelled }.note "workflow: cancelled (manual)"

namespace RunStore

variable (encoding : Encoding)

/-- Mark a non-terminal run cancelled. -/
def cancelRun (runId : String) : Storing Bool := do
  match ← ofExcept (loadRun encoding (← get) runId) with
  | none => return false
  | some run =>
      if run.workflowState.IsTerminal then return false
      else
        saveRun encoding run.cancelled
        return true

end RunStore

/-! ## History -/

/-- Lightweight row from execution history. -/
structure RunSummary where
  runId : String
  workflowId : String
  state : WorkflowState
  startedAt : Option ℚ
  finishedAt : Option ℚ
deriving DecidableEq

/-- The summary of a run. -/
def RunSnapshot.summary (run : RunSnapshot) : RunSummary where
  runId := run.runId
  workflowId := run.workflowId
  state := run.workflowState
  startedAt := run.startedAt
  finishedAt := run.finishedAt

/-- The terms of `ORDER BY COALESCE(started_at, '') DESC, run_id DESC`. -/
def WorkflowRow.rank (row : WorkflowRow) : String ×ₗ String :=
  toLex (row.startedAt.getD "", row.runId)

namespace RunStore

variable (encoding : Encoding)

/-- The summary of a row. -/
def loadSummary (row : WorkflowRow) : Except PyError RunSummary := do
  let state ← WorkflowState.ofValue row.state
  let startedAt ← encoding.loadDt row.startedAt
  let finishedAt ← encoding.loadDt row.finishedAt
  return { runId := row.runId, workflowId := row.workflowId, state, startedAt, finishedAt }

/-- The rows of the history, newest first, of one workflow or of all. -/
def historyRows (store : RunStore) (workflowId : Option String) : List WorkflowRow :=
  orderByDesc WorkflowRow.rank (store.workflowRuns.select fun row =>
    workflowId.all (row.workflowId = ·))

/-- Return execution history, newest first, optionally filtered. -/
def listRuns (store : RunStore) (workflowId : Option String) : Except PyError (List RunSummary) :=
  (store.historyRows workflowId).mapM (loadSummary encoding)

/-- Return the most recent run summary for a workflow, if any. -/
def latestRun (store : RunStore) (workflowId : String) : Except PyError (Option RunSummary) := do
  let summaries ← listRuns encoding store (some workflowId)
  return summaries.head?

end RunStore

end EtlOrchestrator
