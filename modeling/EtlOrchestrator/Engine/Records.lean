import Mathlib.Data.Rat.Defs
import EtlOrchestrator.Foundations.OrderedDict
import EtlOrchestrator.States

/-!
# Task contexts, execution records and runs

The data an execution of a workflow reads and writes. Instants and delays are
rational numbers of seconds. An entry of a run's transition log is a structured
record of its text, and `LogEntry.move?` reads off the task transition that the
text states.
-/

set_option autoImplicit false

namespace EtlOrchestrator

/-- A value of a YAML or JSON document. -/
inductive PyValue where
  | none
  | bool (value : Bool)
  | int (value : ℤ)
  | float (value : ℚ)
  | str (value : String)
  | list (items : List PyValue)
  | dict (entries : List (String × PyValue))

/-- Named parameters. -/
abbrev Params := OrderedDict String PyValue

/-- `{**params, **others}`. -/
def mergeParams (params others : Params) : Params :=
  others.entries.foldl (fun merged entry => merged.set entry.1 entry.2) params

/-- Information handed to a task callable when it runs. -/
structure TaskContext where
  runId : String
  taskId : String
  workflowId : String
  attempt : ℕ := 1
  params : Params := ∅

/-- A task callable: it returns, or raises an `Exception`. -/
abbrev TaskCallable := TaskContext → Except PyError Unit

/-- Execution record for one task within one workflow run. -/
structure TaskRunRecord where
  taskId : String
  state : TaskState := .pending
  attempts : ℕ := 0
  error : Option String := none
  startedAt : Option ℚ := none
  finishedAt : Option ℚ := none
  nextRetryAt : Option ℚ := none
deriving DecidableEq

/-- An entry of the transition log. -/
inductive LogEntry where
  /-- `workflow: source -> target` -/
  | workflowMoved (source target : WorkflowState)
  /-- `task: skipped execution (state=state)` -/
  | skippedExecution (taskId : String) (state : TaskState)
  /-- `task: source -> running (attempt a/m)` -/
  | started (taskId : String) (source : TaskState) (attempt maxAttempts : ℕ)
  /-- `task: running -> failed (error)` -/
  | failed (taskId error : String)
  /-- `task: failed -> retrying (next attempt in d s, attempt a/m)` -/
  | scheduledRetry (taskId : String) (delay : ℚ) (attempt maxAttempts : ℕ)
  /-- `task: permanent failure after a attempt(s); blocking downstream` -/
  | permanentFailure (taskId : String) (attempt : ℕ)
  /-- `task: running -> success` -/
  | succeeded (taskId : String)
  /-- `task: pending -> upstream_failed (upstream 'up' failed)` -/
  | blocked (taskId upstreamId : String)
  /-- `scheduler: cannot load workflow: message` -/
  | cannotLoad (message : String)
deriving DecidableEq

/-- The task transition an entry states: the task, its source and its target. -/
def LogEntry.move? : LogEntry → Option (String × TaskState × TaskState)
  | started taskId source _ _ => some (taskId, source, .running)
  | failed taskId _ => some (taskId, .running, .failed)
  | scheduledRetry taskId _ _ _ => some (taskId, .failed, .retrying)
  | succeeded taskId => some (taskId, .running, .success)
  | blocked taskId _ => some (taskId, .pending, .upstreamFailed)
  | workflowMoved _ _ | skippedExecution _ _ | permanentFailure _ _ | cannotLoad _ => none

/-- The task that an entry is about. -/
def LogEntry.owner? : LogEntry → Option String
  | workflowMoved _ _ | cannotLoad _ => none
  | skippedExecution taskId _ | started taskId _ _ _ | failed taskId _
  | scheduledRetry taskId _ _ _ | permanentFailure taskId _ | succeeded taskId
  | blocked taskId _ => some taskId

/-- The full record of one execution of a workflow. -/
structure WorkflowRun where
  workflowId : String
  runId : String
  workflowState : WorkflowState := .pending
  params : Params := ∅
  records : OrderedDict String TaskRunRecord := ∅
  log : List LogEntry := []
  startedAt : Option ℚ := none
  finishedAt : Option ℚ := none

namespace WorkflowRun

/-- The record of a task, as `record` returns it. -/
def recordOf (run : WorkflowRun) (taskId : String) : TaskRunRecord :=
  run.records.getD taskId { taskId }

/-- `record`: create the record of a task when it has none. -/
def record (run : WorkflowRun) (taskId : String) : WorkflowRun :=
  if taskId ∈ run.records then run
  else { run with records := run.records.set taskId { taskId } }

/-- Assign to the fields of a task's record. -/
def update (run : WorkflowRun) (taskId : String) (change : TaskRunRecord → TaskRunRecord) :
    WorkflowRun :=
  { run with records := run.records.set taskId (change (run.recordOf taskId)) }

/-- The current state of every task record. -/
def taskStates (run : WorkflowRun) : List TaskState := run.records.values.map TaskRunRecord.state

/-- Append an entry to the run's transition log. -/
def note (run : WorkflowRun) (entry : LogEntry) : WorkflowRun :=
  { run with log := run.log ++ [entry] }

theorem recordOf_of_get? {run : WorkflowRun} {taskId : String} {record : TaskRunRecord}
    (stored : run.records.get? taskId = some record) : run.recordOf taskId = record := by
  rw [recordOf, OrderedDict.getD, stored, Option.getD_some]

@[simp] theorem recordOf_record (run : WorkflowRun) (taskId other : String) :
    (run.record taskId).recordOf other = run.recordOf other := by
  by_cases present : taskId ∈ run.records
  · simp [record, present]
  · simp only [record, present, if_false, recordOf, OrderedDict.getD, OrderedDict.get?_set]
    by_cases same : other = taskId
    · subst same
      simp [OrderedDict.get?_eq_none_iff.mpr present]
    · simp [same]

@[simp] theorem recordOf_note (run : WorkflowRun) (entry : LogEntry) (taskId : String) :
    (run.note entry).recordOf taskId = run.recordOf taskId := rfl

theorem recordOf_update (run : WorkflowRun) (taskId other : String)
    (change : TaskRunRecord → TaskRunRecord) : (run.update taskId change).recordOf other =
      if other = taskId then change (run.recordOf taskId) else run.recordOf other := by
  simp only [update, recordOf, OrderedDict.getD, OrderedDict.get?_set]
  by_cases same : other = taskId
  · simp [same]
  · simp [same]

@[simp] theorem recordOf_update_self (run : WorkflowRun) (taskId : String)
    (change : TaskRunRecord → TaskRunRecord) :
    (run.update taskId change).recordOf taskId = change (run.recordOf taskId) := by
  simp [recordOf_update]

theorem recordOf_update_of_ne (run : WorkflowRun) {taskId other : String}
    (change : TaskRunRecord → TaskRunRecord) (different : other ≠ taskId) :
    (run.update taskId change).recordOf other = run.recordOf other := by
  simp [recordOf_update, different]

@[simp] theorem log_record (run : WorkflowRun) (taskId : String) :
    (run.record taskId).log = run.log := by
  simp only [record]
  split <;> rfl

@[simp] theorem workflowState_record (run : WorkflowRun) (taskId : String) :
    (run.record taskId).workflowState = run.workflowState := by
  simp only [record]
  split <;> rfl

@[simp] theorem mem_records_record (run : WorkflowRun) (taskId other : String) :
    other ∈ (run.record taskId).records ↔ other = taskId ∨ other ∈ run.records := by
  by_cases present : taskId ∈ run.records
  · simp only [record, present, if_true]
    constructor
    · exact .inr
    · rintro (rfl | member)
      · exact present
      · exact member
  · simp [record, present]

@[simp] theorem mem_records_update (run : WorkflowRun) (taskId other : String)
    (change : TaskRunRecord → TaskRunRecord) :
    other ∈ (run.update taskId change).records ↔ other = taskId ∨ other ∈ run.records := by
  simp [update]

end WorkflowRun

end EtlOrchestrator
