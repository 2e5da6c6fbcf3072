import EtlOrchestrator.Engine.FinalRecords
import EtlOrchestrator.Persistence.JsonParams

/-!
# Structured log lines

The engine logs each of the moments at which it may call a hook, and the formatter writes a log
record as one JSON object on a line of its own. Whatever was set up before, the framework logger has
one handler, so that each record is written once. The lines of a run that has returned tell the
whole story of each of its tasks (`logLines_tell`).
-/

set_option autoImplicit false

namespace EtlOrchestrator

open BlockingEvaluation Relation Json

variable {φ ι : Type}

/-! ## Log records and their lines -/

/-- A log record, with the attributes that `extra` adds to it. Their values are JSON values. -/
structure LogRecord (φ : Type) where
  created : φ
  name : String
  levelno : ℕ
  levelname : String
  message : String
  extra : OrderedDict String (Value (Number φ)) := ∅

/-- The attributes that the formatter copies from `extra`. -/
def extraFields : List String := ["task_id", "workflow_id", "run_id", "attempt", "state"]

namespace LogRecord

/-- `payload`. -/
def payload (record : LogRecord φ) : List (String × Value (Number φ)) :=
  [("timestamp", .number (.float record.created)), ("logger", .string record.name),
    ("level", .string record.levelname), ("message", .string record.message)] ++
    extraFields.filterMap fun field => (record.extra.get? field).map fun value => (field, value)

/-- `JsonLogFormatter.format`. -/
def format (floats : FloatTexts φ) (record : LogRecord φ) : String :=
  write floats.numerals {} (.object record.payload)

/-- **A line is read as the payload, and is one line.** -/
theorem read_format (floats : FloatTexts φ) (record : LogRecord φ) :
    read floats.numerals (record.format floats) = some (.object record.payload) ∧
      '\n' ∉ (record.format floats).toList :=
  ⟨read_write _, newline_notMem_write _ _⟩

/-- `LOGGER.info(message, extra=...)` of the engine. -/
def info (created : φ) (message : String) (extra : OrderedDict String (Value (Number φ))) :
    LogRecord φ :=
  { created, name := "etl_orchestrator.engine", levelno := 20, levelname := "INFO", message, extra }

/-- `LOGGER.error(message, extra=...)` of the engine. -/
def error (created : φ) (message : String) (extra : OrderedDict String (Value (Number φ))) :
    LogRecord φ :=
  { created, name := "etl_orchestrator.engine", levelno := 40, levelname := "ERROR", message
    extra }

end LogRecord

/-- The attributes that name a run. -/
def runExtra (run : WorkflowRun) : OrderedDict String (Value (Number φ)) :=
  (OrderedDict.set ∅ "workflow_id" (.string run.workflowId)).set "run_id" (.string run.runId)

/-- The attributes that name a task and an attempt. -/
def taskExtra (run : WorkflowRun) (record : TaskRunRecord) :
    OrderedDict String (Value (Number φ)) :=
  ((runExtra run).set "task_id" (.string record.taskId)).set "attempt"
    (.number (.int record.attempts))

/-- What the engine logs right before it calls a hook. -/
def HookCall.logRecord (created : φ) : HookCall → LogRecord φ
  | .workflowStart run => .info created "workflow started" (runExtra run)
  | .taskStart run record => .info created "task started" (taskExtra run record)
  | .taskRetry run record _ => .info created "task scheduled for retry"
      ((taskExtra run record).set "state" (.string TaskState.retrying.value))
  | .taskFailure run record => .error created "task failed permanently"
      ((taskExtra run record).set "state" (.string TaskState.failed.value))
  | .taskSuccess run record => .info created "task success"
      ((taskExtra run record).set "state" (.string TaskState.success.value))
  | .workflowEnd run => .info created "workflow finished"
      ((runExtra run).set "state" (.string run.workflowState.value))

/-! ## The framework logger -/

/-- A handler writes formatted records to a stream. -/
structure Handler (φ ι : Type) where
  stream : ι
  formatter : LogRecord φ → String

/-- A logger. Level 0 is `NOTSET`. -/
structure Logger (φ ι : Type) where
  level : ℕ := 0
  handlers : List (Handler φ ι) := []
  propagate : Bool := true

namespace Logger

/-- `setup_logging(level, stream)`. -/
def setupLogging (floats : FloatTexts φ) (logger : Logger φ ι) (level : ℕ) (stream : ι) :
    Logger φ ι :=
  { logger with
    level
    handlers := [{ stream, formatter := LogRecord.format floats }]
    propagate := false }

/-- `logger.getEffectiveLevel()`. A logger without a level has the one of the root logger. -/
def getEffectiveLevel (logger root : Logger φ ι) : ℕ :=
  if logger.level = 0 then root.level else logger.level

/-- The streams that get a line for a record, with the line. A logger that propagates hands the
record to the handlers of the root logger too. Nothing stands for the handler of last resort, which
takes warnings when there is no handler at all. -/
def handle (logger root : Logger φ ι) (record : LogRecord φ) : List (ι × String) :=
  if logger.getEffectiveLevel root ≤ record.levelno then
    (logger.handlers ++ if logger.propagate then root.handlers else []).map fun handler =>
      (handler.stream, handler.formatter record)
  else []

/-- Some calls of `setup_logging`, one after the other. -/
def setupAll (floats : FloatTexts φ) (logger : Logger φ ι) (setups : List (ℕ × ι)) :
    Logger φ ι :=
  setups.foldl (fun logger setup => logger.setupLogging floats setup.1 setup.2) logger

section

variable (floats : FloatTexts φ) (logger : Logger φ ι) (earlier : List (ℕ × ι)) (level : ℕ)
  (stream : ι) (root : Logger φ ι)

/-- Only the last call counts. -/
theorem handle_setupAll (record : LogRecord φ) :
    (logger.setupAll floats (earlier ++ [(level, stream)])).handle root record =
      if (logger.setupAll floats (earlier ++ [(level, stream)])).getEffectiveLevel root ≤
        record.levelno then [(stream, record.format floats)] else [] := by
  rw [setupAll, List.foldl_append]
  rfl

/-- A level that is set hides the one of the root logger. -/
theorem getEffectiveLevel_setupAll (set : 1 ≤ level) :
    (logger.setupAll floats (earlier ++ [(level, stream)])).getEffectiveLevel root = level := by
  rw [setupAll, List.foldl_append, getEffectiveLevel]
  exact if_neg (Nat.one_le_iff_ne_zero.mp set)

end

end Logger

/-! ## What the hooks are shown -/

section

variable {engine : AcceptedEngine} {env : Env} {machine : Machine}

/-- The end of a run is the last call of a hook. -/
theorem Reachable.last_hook (run : engine.Steps env (engine.start env) machine)
    (returned : machine.status = .returned) :
    ∃ earlier, machine.shared.hooks = earlier ++ [.workflowEnd machine.shared.run] := by
  cases run with
  | refl =>
      obtain ⟨shared, levels, same, _⟩ := start_eq engine env
      rw [same] at returned
      cases returned
  | @tail before _ steps step =>
      have running := step.running
      cases step with
      | finish _ drained idle last ended =>
          obtain ⟨after, ran, _⟩ :=
            (Reachable.steps steps).finishRun running drained idle last ended
          rw [WorkflowEngine.finish_of_ok ran]
          exact ⟨before.shared.hooks, WorkflowEngine.finishRun_hooks ran⟩
      | raise => cases returned
      | _ => cases running.symm.trans returned

/-- Every hook is shown the run. -/
theorem Reachable.identity_of_hook (run : engine.Steps env (engine.start env) machine) :
    ∀ call ∈ machine.shared.hooks, RunIdentity engine.toWorkflowEngine env call.run := by
  induction run with
  | refl =>
      obtain ⟨shared, levels, same, _, began, _⟩ := start_eq engine env
      obtain ⟨other, otherBegan, hooks⟩ := engine.beginRun_hooks env
      rw [began] at otherBegan
      cases otherBegan
      have identity := RunIdentity.steps (.refl : engine.Steps env (engine.start env) _)
      rw [same] at identity ⊢
      intro call member
      rw [show shared.hooks = _ from hooks, List.mem_singleton] at member
      subst member
      exact identity
  | @tail machine next steps step ih =>
      have identity := RunIdentity.steps steps
      have nextIdentity := RunIdentity.steps (steps.tail step)
      have running := step.running
      cases step with
      | @work taskId _ held unfinished =>
          intro call member
          rw [show (engine.work env machine taskId).shared.hooks = _ from
            engine.advance_hooks env taskId machine.shared (machine.pcs taskId),
            List.mem_append] at member
          rcases member with old | new
          · exact ih call old
          · cases calls : (machine.pcs taskId).hookCall? with
            | none =>
                rw [calls] at new
                cases new
            | some hook =>
                rw [calls, Option.map_some, Option.toList_some, List.mem_singleton] at new
                have sameRun : call.run = machine.shared.run := by
                  rw [new]
                  cases pc : machine.pcs taskId <;> rw [pc] at calls <;> cases calls <;> rfl
                rw [sameRun]
                exact identity
      | finish _ drained idle last returned =>
          obtain ⟨after, ran, _⟩ :=
            (Reachable.steps steps).finishRun running drained idle last returned
          rw [WorkflowEngine.finish_of_ok ran] at nextIdentity ⊢
          intro call member
          rw [WorkflowEngine.finishRun_hooks ran, List.mem_append, List.mem_singleton] at member
          rcases member with old | rfl
          · exact ih call old
          · exact nextIdentity
      | _ => exact ih

end

/-! ## What the lines tell -/

/-- A member of the object on a line. -/
def field (floats : FloatTexts φ) (line name : String) : Option (Value (Number φ)) :=
  match read floats.numerals line with
  | some (.object members) => members.lookup name
  | _ => none

/-- The message and the attempt of a line about a task. -/
def told (floats : FloatTexts φ) (taskId line : String) : Option (String × ℤ) :=
  match field floats line "task_id", field floats line "message", field floats line "attempt" with
  | some (.string other), some (.string message), some (.number (.int attempt)) =>
      if other = taskId then some (message, attempt) else none
  | _, _, _ => none

/-- The message that is logged before a hook is called. -/
def HookKind.message : HookKind → String
  | .workflowStart => "workflow started"
  | .taskStart => "task started"
  | .taskRetry => "task scheduled for retry"
  | .taskFailure => "task failed permanently"
  | .taskSuccess => "task success"
  | .workflowEnd => "workflow finished"

section

variable (floats : FloatTexts φ) (created : φ) (call : HookCall)

theorem field_format (record : LogRecord φ) (name : String) :
    field floats (record.format floats) name = record.payload.lookup name := by
  rw [field, (record.read_format floats).1]

/-- Every line names the run. -/
theorem field_run :
    field floats ((call.logRecord created).format floats) "run_id" =
        some (.string call.run.runId) ∧
      field floats ((call.logRecord created).format floats) "workflow_id" =
        some (.string call.run.workflowId) ∧
      field floats ((call.logRecord created).format floats) "message" =
        some (.string call.kind.message) := by
  simp only [field_format]
  cases call <;> exact ⟨rfl, rfl, rfl⟩

/-- A line about a task names it and the attempt. -/
theorem field_task {record : TaskRunRecord} (given : call.record? = some record) :
    field floats ((call.logRecord created).format floats) "task_id" =
        some (.string record.taskId) ∧
      field floats ((call.logRecord created).format floats) "attempt" =
        some (.number (.int record.attempts)) := by
  simp only [field_format]
  cases call <;> cases given <;> exact ⟨rfl, rfl⟩

theorem field_task_of_none (given : call.record? = none) :
    field floats ((call.logRecord created).format floats) "task_id" = none := by
  rw [field_format]
  cases call <;> cases given <;> rfl

/-- The lines about a task tell which hooks are called for it, and at which attempt. -/
theorem told_format (taskId : String) :
    told floats taskId ((call.logRecord created).format floats) =
      (call.shown? taskId).map fun shown => (shown.1.message, (shown.2 : ℤ)) := by
  cases given : call.record? with
  | none =>
      have notFor : ¬ call.IsFor taskId := by
        rw [HookCall.IsFor, given]
        exact Option.some_ne_none taskId ∘ Eq.symm
      rw [told, field_task_of_none floats created call given, HookCall.shown?, if_neg notFor]
      rfl
  | some record =>
      obtain ⟨names, numbers⟩ := field_task floats created call given
      rw [told, names, numbers, (field_run floats created call).2.2, HookCall.shown?, given]
      dsimp only
      by_cases same : record.taskId = taskId
      · have isFor : call.IsFor taskId := by rw [HookCall.IsFor, given, Option.map_some, same]
        rw [if_pos same, if_pos isFor]
        rfl
      · have notFor : ¬ call.IsFor taskId := by
          rw [HookCall.IsFor, given, Option.map_some]
          exact same ∘ Option.some.inj
        rw [if_neg same, if_neg notFor]
        rfl

end

/-! ## The story of a run -/

/-- The lines about a task that is started a number of times. -/
def attemptsStory (attempts : ℕ) : List (String × ℤ) :=
  ((List.range' 1 (attempts - 1)).flatMap fun attempt : ℕ =>
    [("task started", (attempt : ℤ)), ("task scheduled for retry", (attempt : ℤ))]) ++
      [("task started", (attempts : ℤ))]

/-- The lines about a task with a final state. -/
def taskStory (attempts : ℕ) : TaskState → List (String × ℤ)
  | .success => attemptsStory attempts ++ [("task success", (attempts : ℤ))]
  | .failed => attemptsStory attempts ++ [("task failed permanently", (attempts : ℤ))]
  | _ => []

theorem map_callsBefore (attempt : ℕ) : (callsBefore (attempt + 1)).map
    (fun shown => (shown.1.message, (shown.2 : ℤ))) =
      (List.range' 1 attempt).flatMap fun attempt : ℕ =>
        [("task started", (attempt : ℤ)), ("task scheduled for retry", (attempt : ℤ))] := by
  induction attempt with
  | zero => rfl
  | succ attempt ih =>
      rw [callsBefore, List.map_append, ih, List.range'_concat, List.flatMap_append]
      simp [HookKind.message, Nat.add_comm]

theorem map_callsUpTo_message {attempts : ℕ} (positive : 1 ≤ attempts) :
    (callsUpTo attempts).map (fun shown => (shown.1.message, (shown.2 : ℤ))) =
      attemptsStory attempts := by
  obtain ⟨earlier, rfl⟩ := Nat.exists_eq_add_of_le' positive
  rw [callsUpTo, List.map_append, map_callsBefore, attemptsStory, Nat.add_sub_cancel]
  rfl

section

variable {engine : AcceptedEngine} {env : Env} {machine : Machine}

/-- The hooks that have been called for a task tell its final state. -/
theorem Reachable.hooksFor_tell (run : engine.Steps env (engine.start env) machine)
    (returned : machine.status = .returned) {taskId : String}
    (known : taskId ∈ engine.workflow.tasks) :
    (machine.shared.hooksFor taskId).map (fun shown => (shown.1.message, (shown.2 : ℤ))) =
      taskStory (machine.attemptsOf taskId) (machine.stateOf taskId) := by
  have reachable := Reachable.steps run
  rcases (HookTrace.steps run).hooksFor_of_returned reachable returned taskId with
    ⟨unknown, _⟩ | ⟨_, settles, calls⟩
  · exact absurd known unknown
  · rw [calls, AcceptedEngine.finalCalls]
    rw [AcceptedEngine.Settles] at settles
    cases outcome : engine.outcome env taskId with
    | value attempt =>
        rw [outcome] at settles
        have positive := (AcceptedEngine.outcome_eq_value_iff.mp outcome).2.positive
        rw [show machine.stateOf taskId = .success from settles.state,
          show machine.attemptsOf taskId = attempt from settles.attempts, taskStory]
        dsimp only
        rw [List.map_append, map_callsUpTo_message positive]
        rfl
    | failed =>
        rw [outcome] at settles
        have positive := engine.one_le_maxAttempts known
        rw [show machine.stateOf taskId = .failed from settles.state,
          show machine.attemptsOf taskId = engine.maxAttempts taskId from settles.attempts,
          taskStory]
        dsimp only
        rw [List.map_append, map_callsUpTo_message positive]
        rfl
    | blocked =>
        rw [outcome] at settles
        rw [show machine.stateOf taskId = .upstreamFailed from settles.state]
        rfl

/-- The hooks of a run that has returned are called for its tasks. -/
theorem Reachable.known_of_hook (run : engine.Steps env (engine.start env) machine)
    (returned : machine.status = .returned) {call : HookCall} (member : call ∈ machine.shared.hooks)
    {taskId : String} (isFor : call.IsFor taskId) : taskId ∈ engine.workflow.tasks := by
  rcases (HookTrace.steps run).hooksFor_of_returned (Reachable.steps run) returned taskId with
    ⟨_, _, none⟩ | ⟨known, _⟩
  · exact absurd none (RunState.hooksFor_ne_nil member isFor)
  · exact known

end

theorem filterMap_mapIdx_eq {α β γ : Type} {read : β → Option γ} {write : ℕ → α → β}
    {tell : α → Option γ} (tells : ∀ index item, read (write index item) = tell item)
    (items : List α) : (items.mapIdx write).filterMap read = items.filterMap tell := by
  induction items generalizing write with
  | nil => rfl
  | cons item rest ih =>
      rw [List.mapIdx_cons, List.filterMap_cons, List.filterMap_cons, tells,
        ih fun index => tells (index + 1)]

/-- What is written of some log records, made at the points where hooks are called. -/
def writtenLines (logger root : Logger φ ι) (created : ℕ → φ) (calls : List HookCall) :
    List (ι × String) :=
  (calls.mapIdx fun index call => logger.handle root (call.logRecord (created index))).flatten

/-- With an effective level up to `INFO`, each record is written as one line to the last stream. -/
theorem writtenLines_setupAll (floats : FloatTexts φ) (logger : Logger φ ι)
    (earlier : List (ℕ × ι)) {level : ℕ} {stream : ι} {root : Logger φ ι}
    (upToInfo : (logger.setupAll floats (earlier ++ [(level, stream)])).getEffectiveLevel root ≤ 20)
    (calls : List HookCall) : ∀ created : ℕ → φ,
    writtenLines (logger.setupAll floats (earlier ++ [(level, stream)])) root created calls =
      calls.mapIdx fun index call =>
        (stream, (call.logRecord (created index)).format floats) := by
  induction calls with
  | nil => exact fun _ => rfl
  | cons call rest ih =>
      intro created
      have enabled : (logger.setupAll floats (earlier ++ [(level, stream)])).getEffectiveLevel
          root ≤ (call.logRecord (created 0)).levelno := by
        cases call
        case taskFailure => exact upToInfo.trans (by decide : 20 ≤ 40)
        all_goals exact upToInfo
      have later := ih fun index => created (index + 1)
      rw [writtenLines] at later ⊢
      rw [List.mapIdx_cons, List.flatten_cons, List.mapIdx_cons, Logger.handle_setupAll,
        if_pos enabled, List.singleton_append]
      exact congrArg _ later

/-- **Whatever calls of `setup_logging` came before, if the last one leaves the effective level at
`INFO` or below, the lines of a run that has returned go to the stream of this call. Each is one
JSON object and names the run. The first and the last one tell its start and its final state, and
those in between its tasks: the lines about a task tell the attempts, the retries and the final
state of its record.** -/
theorem logLines_tell (floats : FloatTexts φ) (logger : Logger φ ι) (earlier : List (ℕ × ι))
    (level : ℕ) (stream : ι) (root : Logger φ ι)
    (upToInfo : (logger.setupAll floats (earlier ++ [(level, stream)])).getEffectiveLevel root ≤ 20)
    (created : ℕ → φ) {engine : AcceptedEngine} {env : Env} {machine : Machine}
    (run : engine.Steps env (engine.start env) machine) (returned : machine.status = .returned) :
    let lines := writtenLines (logger.setupAll floats (earlier ++ [(level, stream)])) root created
      machine.shared.hooks
    (∀ line ∈ lines, line.1 = stream ∧ '\n' ∉ line.2.toList ∧
      field floats line.2 "run_id" = some (.string env.runId) ∧
      field floats line.2 "workflow_id" = some (.string engine.workflow.workflowId)) ∧
    (∃ first between last, lines = first :: (between ++ [last]) ∧
      field floats first.2 "message" = some (.string "workflow started") ∧
      field floats last.2 "message" = some (.string "workflow finished") ∧
      field floats last.2 "state" = some (.string machine.shared.run.workflowState.value) ∧
      ∀ line ∈ between, ∃ taskId ∈ engine.workflow.tasks,
        field floats line.2 "task_id" = some (.string taskId)) ∧
    ∀ taskId ∈ engine.workflow.tasks,
      lines.filterMap (fun line => told floats taskId line.2) =
        taskStory (machine.attemptsOf taskId) (machine.stateOf taskId) := by
  intro lines
  have isLines : lines = _ :=
    writtenLines_setupAll floats logger earlier upToInfo machine.shared.hooks created
  refine ⟨fun line member => ?_, ?_, fun taskId known => ?_⟩
  · rw [isLines] at member
    obtain ⟨index, inRange, rfl⟩ := List.mem_mapIdx.mp member
    have identity := Reachable.identity_of_hook run _ (List.getElem_mem inRange)
    obtain ⟨runId, workflowId, _⟩ := field_run floats (created index) machine.shared.hooks[index]
    refine ⟨rfl, (LogRecord.read_format floats _).2, ?_, ?_⟩
    · rw [runId, identity.runId]
    · rw [workflowId, identity.workflowId]
  · obtain ⟨first, calls, last, enclosed, areTasks⟩ :=
      ((HookTrace.steps run).wellFormed (Reachable.steps run) returned).enclosed
    obtain ⟨_, isLast⟩ := Reachable.last_hook run returned
    rw [enclosed, ← List.cons_append] at isLast
    obtain rfl : last = machine.shared.run :=
      HookCall.workflowEnd.inj (List.singleton_inj.mp (List.append_inj_right' isLast rfl))
    rw [enclosed, List.mapIdx_cons, List.mapIdx_concat] at isLines
    refine ⟨_, _, _, isLines, (field_run floats _ _).2.2, (field_run floats _ _).2.2, ?_,
      fun line member => ?_⟩
    · rw [field_format]
      rfl
    · obtain ⟨index, inRange, rfl⟩ := List.mem_mapIdx.mp member
      have inCalls : calls[index] ∈ calls := List.getElem_mem inRange
      obtain ⟨taskId, isFor⟩ := areTasks _ inCalls
      obtain ⟨record, given, sameId⟩ := Option.map_eq_some_iff.mp isFor
      refine ⟨taskId, Reachable.known_of_hook run returned ?_ isFor, ?_⟩
      · rw [enclosed]
        exact List.mem_cons_of_mem _ (List.mem_append_left _ inCalls)
      · rw [(field_task floats _ _ given).1, sameId]
  · rw [← Reachable.hooksFor_tell run returned known, isLines, RunState.hooksFor,
      List.map_filterMap]
    refine filterMap_mapIdx_eq (fun index call => ?_) _
    exact told_format floats (created index) call taskId

theorem logLines_tell_pipeline : ∃ machine,
    (pipeline 2 (by decide)).replay { runId := "logged" }
      ((pipeline 2 (by decide)).start { runId := "logged" }) pipelineChoices = some machine ∧
    (writtenLines (({} : Logger ℚ String).setupAll sampleFloats
        ([(40, "stderr")] ++ [(20, "stdout")])) { level := 30 } (fun index => index)
      machine.shared.hooks).filterMap (fun line => told sampleFloats "extract" line.2) =
      [("task started", 1), ("task scheduled for retry", 1), ("task started", 2),
        ("task success", 2)] := by
  have shown : ((pipeline 2 (by decide)).replay { runId := "logged" }
      ((pipeline 2 (by decide)).start { runId := "logged" }) pipelineChoices).map
        (fun machine => (machine.status, machine.attemptsOf "extract",
          machine.stateOf "extract")) = some (.returned, 2, .success) := by
    decide +kernel
  obtain ⟨machine, replayed, shows⟩ := Option.map_eq_some_iff.mp shown
  simp only [Prod.mk.injEq] at shows
  obtain ⟨returned, attempts, state⟩ := shows
  obtain ⟨_, _, tells⟩ := logLines_tell sampleFloats {} [(40, "stderr")] 20 "stdout"
    { level := 30 } (Logger.getEffectiveLevel_setupAll _ _ _ _ _ _ (by decide)).le
    (fun index => (index : ℚ)) (WorkflowEngine.steps_of_replay _ _ replayed) returned
  refine ⟨machine, replayed, (tells "extract" (by decide)).trans ?_⟩
  rw [attempts, state]
  rfl

end EtlOrchestrator
