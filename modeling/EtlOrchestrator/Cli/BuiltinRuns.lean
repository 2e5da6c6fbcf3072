import EtlOrchestrator.Builtins
import EtlOrchestrator.Cli.RunReports

/-!
# Runs of the built-in callables

Where every callable of a workflow file is a built-in one, a run does what can be read off the file
and the command line: which tasks succeed, at which attempt, with which error text, and which lines
they print (`run_of_builtins`).
-/

set_option autoImplicit false

namespace EtlOrchestrator

open Relation

/-! ## What the file says -/

namespace WorkflowConfig

/-- The context of an attempt at the task of an entry. -/
def context (config : WorkflowConfig) (env : Env) (taskConfig : TaskConfig) (attempt : ℕ) :
    TaskContext where
  runId := env.runId
  taskId := taskConfig.taskId
  workflowId := config.workflowId
  attempt := attempt
  params := mergeParams taskConfig.params env.params

variable (config : WorkflowConfig) (interpreter : Interpreter) (env : Env)

/-- The attempt at which the task of an entry first returns, if one of its attempts does. -/
def firstReturn (taskConfig : TaskConfig) : Option ℕ :=
  interpreter.firstReturn taskConfig.callable (config.context env taskConfig)
    taskConfig.maxAttempts

/-- A task above that of an entry never returns. -/
def Blocked (taskConfig : TaskConfig) : Prop :=
  ∃ above ∈ config.tasks, TransGen config.DependsOn above.taskId taskConfig.taskId ∧
    config.firstReturn interpreter env above = none

/-- How many attempts at the task of an entry raise, if it is not blocked. -/
def raisedAttempts (taskConfig : TaskConfig) : ℕ :=
  match config.firstReturn interpreter env taskConfig with
  | some attempt => attempt - 1
  | none => taskConfig.maxAttempts

/-- What the last raising attempt raises, as a record shows it. -/
def lastFailure (taskConfig : TaskConfig) : Option String :=
  let raised := config.raisedAttempts interpreter env taskConfig
  if raised = 0 then none
  else (interpreter.failure? taskConfig.callable (config.context env taskConfig raised)).map
    PyError.text

/-- What becomes of the task of an entry: its record, and the lines that its calls print. -/
structure Foretells (taskConfig : TaskConfig) (record : TaskRunRecord) (lines : List String) :
    Prop where
  blocked : config.Blocked interpreter env taskConfig →
    record.state = .upstreamFailed ∧ record.attempts = 0 ∧ lines = []
  failed : ¬ config.Blocked interpreter env taskConfig →
    config.firstReturn interpreter env taskConfig = none →
      record.state = .failed ∧ record.attempts = taskConfig.maxAttempts ∧ lines = []
  succeeded : ¬ config.Blocked interpreter env taskConfig →
    ∀ attempt, config.firstReturn interpreter env taskConfig = some attempt →
      record.state = .success ∧ record.attempts = attempt ∧
        lines = interpreter.greeting taskConfig.callable (config.context env taskConfig 1)
  error : ¬ config.Blocked interpreter env taskConfig →
    record.error = config.lastFailure interpreter env taskConfig

end WorkflowConfig

/-! ## What the engine does -/

namespace WorkflowConfig.SetsUp

variable {config : WorkflowConfig} {interpreter : Interpreter}
  {opened : AcceptedEngine × Workflow} {env : Env} {taskConfig : TaskConfig}

theorem context_eq {registry : OrderedDict String TaskCallable}
    (setsUp : config.SetsUp registry opened) (member : taskConfig ∈ config.tasks) :
    opened.1.context env taskConfig.taskId = config.context env taskConfig := by
  funext attempt
  rw [WorkflowEngine.context, context, setsUp.params taskConfig member, setsUp.workflow,
    setsUp.builds.workflowId]

variable (setsUp : config.SetsUp (defaultTaskRegistry interpreter) opened)
  (member : taskConfig ∈ config.tasks)

include setsUp member

theorem exists_builtin : ∃ builtin,
    (Builtins.byName interpreter).get? taskConfig.callable = some builtin ∧
      opened.1.tasks.get? taskConfig.taskId = some builtin.callable := by
  obtain ⟨callable, found, bound⟩ := setsUp.callable taskConfig member
  rw [defaultTaskRegistry, OrderedDict.get?_mapValues] at found
  obtain ⟨builtin, isBuiltin, rfl⟩ := Option.map_eq_some_iff.mp found
  exact ⟨builtin, isBuiltin, bound⟩

/-- The error text of a call is that of what the callable raises. -/
theorem errorText_eq (context : TaskContext) :
    opened.1.errorText taskConfig.taskId context =
      (interpreter.failure? taskConfig.callable context).map PyError.text := by
  obtain ⟨builtin, isBuiltin, bound⟩ := setsUp.exists_builtin member
  rw [WorkflowEngine.errorText, bound, Option.bind_some, Interpreter.failure?, isBuiltin]
  dsimp only
  cases builtin.callable context <;> rfl

theorem succeeds_iff {attempt : ℕ} : opened.1.Succeeds env taskConfig.taskId attempt ↔
    interpreter.Returns taskConfig.callable (config.context env taskConfig attempt) := by
  obtain ⟨builtin, isBuiltin, bound⟩ := setsUp.exists_builtin member
  rw [WorkflowEngine.Succeeds, bound, setsUp.context_eq member, Interpreter.Returns,
    Interpreter.failure?, isBuiltin]
  simp only [Option.some.injEq, exists_eq_left']
  cases builtin.callable (config.context env taskConfig attempt) with
  | error error => simp
  | ok result => simp

/-- The first success of a task is the first return of its callable. -/
theorem firstSuccess_eq (env : Env) : opened.1.firstSuccess env taskConfig.taskId =
    config.firstReturn interpreter env taskConfig := by
  obtain ⟨builtin, isBuiltin, _⟩ := setsUp.exists_builtin member
  have isFind : config.firstReturn interpreter env taskConfig = _ :=
    Interpreter.firstReturn_eq_find? (OrderedDict.mem_of_get? isBuiltin) (fun _ => rfl)
      (fun _ => rfl) taskConfig.one_le_maxAttempts
  rw [isFind, Option.ext_iff]
  intro attempt
  rw [WorkflowEngine.firstSuccess_eq_some_iff, List.find?_range'_eq_some, List.mem_range'_1]
  constructor
  · rintro ⟨positive, allowed, succeeds, earlier⟩
    rw [setsUp.maxAttempts_eq member] at allowed
    refine ⟨decide_eq_true ((setsUp.succeeds_iff member).mp succeeds), by omega,
      fun other first last => ?_⟩
    simpa using (setsUp.succeeds_iff member).not.mp (earlier other first last)
  · rintro ⟨returns, inRange, earlier⟩
    refine ⟨inRange.1, by rw [setsUp.maxAttempts_eq member]; omega,
      (setsUp.succeeds_iff member).mpr (of_decide_eq_true returns), fun other first last => ?_⟩
    rw [setsUp.succeeds_iff member]
    simpa using earlier other first last

omit member in
/-- A task is blocked when a task above it never returns. -/
theorem outcome_eq_blocked_iff : opened.1.outcome env taskConfig.taskId = .blocked ↔
    config.Blocked interpreter env taskConfig := by
  have sameEdge : opened.1.workflow.Edge = config.DependsOn := by
    rw [setsUp.workflow, setsUp.builds.edge]
  rw [AcceptedEngine.outcome, BlockingEvaluation.settle_eq_blocked_iff_own, sameEdge]
  constructor
  · rintro ⟨upper, above, never⟩
    obtain ⟨child, edge, _⟩ := TransGen.head'_iff.mp above
    rw [← sameEdge] at edge
    obtain ⟨entry, entryMember, rfl⟩ :=
      setsUp.exists_taskConfig (opened.1.valid.closed.upstreams child upper edge)
    exact ⟨entry, entryMember, above, (setsUp.firstSuccess_eq entryMember env).symm.trans never⟩
  · rintro ⟨entry, entryMember, above, never⟩
    exact ⟨entry.taskId, above, (setsUp.firstSuccess_eq entryMember env).trans never⟩

/-- A task that is not blocked settles on the first return of its callable. -/
theorem outcome_of_not_blocked (free : ¬ config.Blocked interpreter env taskConfig) :
    opened.1.outcome env taskConfig.taskId =
      BlockingEvaluation.ofOwn (config.firstReturn interpreter env taskConfig) := by
  rw [← setsUp.outcome_eq_blocked_iff] at free
  rw [← setsUp.firstSuccess_eq member env]
  exact BlockingEvaluation.settle_of_ups (AcceptedEngine.outcome_ne_blocked_iff.mp free)

/-- The first attempts of a task raise. -/
theorem not_returns_of_le (env : Env) (attempt : ℕ) (first : 1 ≤ attempt)
    (last : attempt ≤ config.raisedAttempts interpreter env taskConfig) :
    ¬ interpreter.Returns taskConfig.callable (config.context env taskConfig attempt) := by
  rw [← setsUp.succeeds_iff member]
  rw [raisedAttempts] at last
  have isFirst := setsUp.firstSuccess_eq member env
  cases returned : config.firstReturn interpreter env taskConfig with
  | none =>
      rw [returned] at last isFirst
      rw [← setsUp.maxAttempts_eq member] at last
      exact WorkflowEngine.firstSuccess_eq_none_iff.mp isFirst attempt first last
  | some success =>
      rw [returned] at last isFirst
      dsimp only at last
      have firstSuccess := WorkflowEngine.firstSuccess_eq_some_iff.mp isFirst
      exact firstSuccess.earlier attempt first (by have := firstSuccess.positive; omega)

/-- After the first attempts the last error is that of the last of them. -/
theorem lastError_eq : opened.1.lastError taskConfig.taskId (opened.1.contexts env
    taskConfig.taskId (config.raisedAttempts interpreter env taskConfig)) =
      config.lastFailure interpreter env taskConfig := by
  have raises := setsUp.not_returns_of_le member env
  rw [lastFailure]
  cases raised : config.raisedAttempts interpreter env taskConfig with
  | zero => rfl
  | succ earlier =>
      rw [raised] at raises
      have isText := setsUp.errorText_eq member (config.context env taskConfig (earlier + 1))
      obtain ⟨error, isFailure⟩ :=
        Option.ne_none_iff_exists'.mp (raises (earlier + 1) (by omega) (le_refl _))
      rw [isFailure, Option.map_some] at isText
      rw [WorkflowEngine.contexts_succ, setsUp.context_eq member,
        WorkflowEngine.lastError_of_raises _ isText, if_neg (Nat.succ_ne_zero _), isFailure,
        Option.map_some]

/-- The error that the attempts up to the first return leave behind. -/
theorem lastError_of_firstReturn {attempt : ℕ}
    (returns : config.firstReturn interpreter env taskConfig = some attempt) :
    opened.1.lastError taskConfig.taskId (opened.1.contexts env taskConfig.taskId attempt) =
      config.lastFailure interpreter env taskConfig := by
  have isFirst := (setsUp.firstSuccess_eq member env).trans returns
  have success := WorkflowEngine.firstSuccess_eq_some_iff.mp isFirst
  have isRaised : config.raisedAttempts interpreter env taskConfig = attempt - 1 := by
    rw [raisedAttempts, returns]
  have noText := setsUp.errorText_eq member (config.context env taskConfig attempt)
  rw [(setsUp.succeeds_iff member).mp success.succeeds, Option.map_none] at noText
  rw [← setsUp.lastError_eq member, isRaised]
  obtain ⟨earlier, rfl⟩ := Nat.exists_eq_add_of_le' success.positive
  rw [WorkflowEngine.contexts_succ, setsUp.context_eq member,
    WorkflowEngine.lastError_of_returns _ noText, Nat.add_sub_cancel]

/-- What the attempts at a task print: its greeting if they return, and nothing otherwise. -/
theorem printed_contexts (env : Env) :
    (∀ attempt, config.firstReturn interpreter env taskConfig = some attempt →
      (opened.1.contexts env taskConfig.taskId attempt).flatMap
          (interpreter.printed taskConfig.callable) =
        interpreter.greeting taskConfig.callable (config.context env taskConfig 1)) ∧
    (config.firstReturn interpreter env taskConfig = none → ∀ count,
      (opened.1.contexts env taskConfig.taskId count).flatMap
        (interpreter.printed taskConfig.callable) = []) := by
  obtain ⟨builtin, isBuiltin, _⟩ := setsUp.exists_builtin member
  rcases Interpreter.printed_cases (OrderedDict.mem_of_get? isBuiltin) with greets | silent
  · obtain ⟨returns, printed⟩ :=
      greets (config.context env taskConfig) taskConfig.maxAttempts
    constructor
    · intro attempt isFirst
      obtain rfl := Option.some.inj (returns.symm.trans isFirst)
      rw [WorkflowEngine.contexts, List.range'_one, List.map_singleton, List.flatMap_singleton,
        printed, setsUp.context_eq member]
    · intro never
      cases returns.symm.trans never
  · constructor
    · intro attempt _
      rw [(silent _).2, List.flatMap_eq_nil_iff]
      exact fun context _ => (silent context).1
    · intro _ count
      rw [List.flatMap_eq_nil_iff]
      exact fun context _ => (silent context).1

/-- The task of an entry is one of the workflow. -/
theorem mem_tasks : taskConfig.taskId ∈ opened.1.workflow.tasks := by
  rw [setsUp.workflow, setsUp.builds.mem_tasks]
  exact List.mem_map_of_mem member

end WorkflowConfig.SetsUp

/-! ## Whole runs -/

section

variable {config : WorkflowConfig} {interpreter : Interpreter}
  {opened : AcceptedEngine × Workflow} {env : Env}
  (setsUp : config.SetsUp (defaultTaskRegistry interpreter) opened) {machine : Machine}
  (run : opened.1.Steps env (opened.1.start env) machine) (returned : machine.status = .returned)

include setsUp run returned

/-- What becomes of a task can be read off the configuration. -/
theorem Reachable.foretells {taskConfig : TaskConfig} (member : taskConfig ∈ config.tasks) :
    config.Foretells interpreter env taskConfig (machine.shared.recordOf taskConfig.taskId)
      ((machine.shared.calls.filter fun call => call.taskId = taskConfig.taskId).flatMap
        (interpreter.printed taskConfig.callable)) := by
  have known := setsUp.mem_tasks member
  have result := (Reachable.steps run).isResult returned
  obtain ⟨settled, called⟩ := (result.settles taskConfig.taskId known).agrees
  change (machine.stateOf taskConfig.taskId, machine.attemptsOf taskConfig.taskId) = _ at settled
  change machine.shared.calls.filter _ = opened.1.contexts env _ (machine.attemptsOf _) at called
  have error := Reachable.error_of_returned run returned known
  obtain ⟨whenReturned, whenRaised⟩ := setsUp.printed_contexts member env
  rw [called]
  by_cases blocked : config.Blocked interpreter env taskConfig
  · rw [setsUp.outcome_eq_blocked_iff.mpr blocked] at settled
    obtain ⟨state, attempts⟩ := Prod.mk.inj settled
    rw [attempts]
    exact ⟨fun _ => ⟨state, attempts, rfl⟩, fun free => absurd blocked free,
      fun free => absurd blocked free, fun free => absurd blocked free⟩
  · rw [setsUp.outcome_of_not_blocked member blocked] at settled
    cases returns : config.firstReturn interpreter env taskConfig with
    | none =>
        rw [returns] at settled
        obtain ⟨state, attempts⟩ := Prod.mk.inj settled
        have raised : config.raisedAttempts interpreter env taskConfig =
            taskConfig.maxAttempts := by rw [WorkflowConfig.raisedAttempts, returns]
        rw [setsUp.maxAttempts_eq member] at attempts
        refine ⟨fun isBlocked => absurd isBlocked blocked,
          fun _ _ => ⟨state, attempts, whenRaised returns _⟩, fun _ attempt isFirst => ?_,
          fun _ => ?_⟩
        · cases returns.symm.trans isFirst
        · rw [error (by rw [state]; decide), attempts, ← raised, setsUp.lastError_eq member]
    | some success =>
        rw [returns] at settled
        obtain ⟨state, attempts⟩ := Prod.mk.inj settled
        rw [attempts]
        refine ⟨fun isBlocked => absurd isBlocked blocked, fun _ never => ?_,
          fun _ attempt isFirst => ?_, fun _ => ?_⟩
        · cases returns.symm.trans never
        · obtain rfl := Option.some.inj (returns.symm.trans isFirst)
          exact ⟨state, attempts, whenReturned success returns⟩
        · rw [error (by rw [state]; decide), attempts,
            setsUp.lastError_of_firstReturn member returns]

/-- The error of a blocked task names a task above it that is not blocked and never returns. -/
theorem Reachable.blames_entry {taskConfig : TaskConfig} (member : taskConfig ∈ config.tasks)
    (blocked : config.Blocked interpreter env taskConfig) : ∃ above ∈ config.tasks,
      TransGen config.DependsOn above.taskId taskConfig.taskId ∧
      ¬ config.Blocked interpreter env above ∧
      config.firstReturn interpreter env above = none ∧
      (machine.shared.recordOf taskConfig.taskId).error =
        some s!"upstream task '{above.taskId}' failed" := by
  have marked := ((Reachable.foretells setsUp run returned member).blocked blocked).1
  have shows : ShowsOutcome opened.1 env machine.shared.run taskConfig.taskId :=
    Reachable.showsOutcome run returned (setsUp.mem_tasks member)
  obtain ⟨failed, error, path, isFailed⟩ := shows.blocked marked
  obtain ⟨child, edge, _⟩ := TransGen.head'_iff.mp path
  obtain ⟨above, aboveMember, rfl⟩ :=
    setsUp.exists_taskConfig (opened.1.valid.closed.upstreams child failed edge)
  have foretold := Reachable.foretells setsUp run returned aboveMember
  change (machine.shared.recordOf above.taskId).state = .failed at isFailed
  have free : ¬ config.Blocked interpreter env above := fun isBlocked => by
    cases (foretold.blocked isBlocked).1.symm.trans isFailed
  refine ⟨above, aboveMember, ?_, free, ?_, error⟩
  · rwa [setsUp.workflow, setsUp.builds.edge] at path
  · cases first : config.firstReturn interpreter env above with
    | none => rfl
    | some attempt => cases (foretold.succeeded free attempt first).1.symm.trans isFailed

/-- The workflow succeeds when every task returns at some attempt. -/
theorem Reachable.succeeds_iff : machine.shared.run.workflowState = .success ↔
    ∀ taskConfig ∈ config.tasks, config.firstReturn interpreter env taskConfig ≠ none := by
  have result := (Reachable.steps run).isResult returned
  rw [result.workflowState_iff.1]
  constructor
  · intro succeeded taskConfig member never
    have known := setsUp.mem_tasks member
    have hasValue := (result.state_eq_success_iff known).mp (succeeded _ known)
    cases outcome : opened.1.outcome env taskConfig.taskId with
    | value attempt =>
        have first := (AcceptedEngine.outcome_eq_value_iff.mp outcome).2
        rw [← WorkflowEngine.firstSuccess_eq_some_iff, setsUp.firstSuccess_eq member env, never]
          at first
        cases first
    | failed => exact BlockingEvaluation.not_hasValue_failed (outcome ▸ hasValue)
    | blocked => exact BlockingEvaluation.not_hasValue_blocked (outcome ▸ hasValue)
  · intro returns taskId known
    obtain ⟨taskConfig, member, rfl⟩ := setsUp.exists_taskConfig known
    have free : ¬ config.Blocked interpreter env taskConfig := by
      rintro ⟨above, aboveMember, _, never⟩
      exact returns above aboveMember never
    obtain ⟨attempt, first⟩ := Option.ne_none_iff_exists'.mp (returns taskConfig member)
    exact ((Reachable.foretells setsUp run returned member).succeeded free attempt first).1

end

/-- **A run of built-in callables does what the workflow file says, and the error of a blocked task
names a task above it that used up its attempts.** -/
theorem run_of_builtins {interpreter : Interpreter} {workspace : Workspace} {reader : ConfigReader}
    {env : Env} {name : String} {opened : AcceptedEngine × Workflow}
    (opens : openWorkflow workspace reader (defaultTaskRegistry interpreter) name = .ok opened)
    {machine : Machine} (run : opened.1.Steps env (opened.1.start env) machine)
    (returned : machine.status = .returned) :
    ∃ path config, findWorkflowFile workspace name = .ok path ∧
      loadWorkflowConfig reader path = .ok config ∧
      (machine.shared.run.workflowState = .success ↔ ∀ taskConfig ∈ config.tasks,
        config.firstReturn interpreter env taskConfig ≠ none) ∧
      ∀ taskConfig ∈ config.tasks,
        config.Foretells interpreter env taskConfig (machine.shared.recordOf taskConfig.taskId)
          ((machine.shared.calls.filter fun call => call.taskId = taskConfig.taskId).flatMap
            (interpreter.printed taskConfig.callable)) ∧
        (config.Blocked interpreter env taskConfig → ∃ above ∈ config.tasks,
          TransGen config.DependsOn above.taskId taskConfig.taskId ∧
          ¬ config.Blocked interpreter env above ∧
          config.firstReturn interpreter env above = none ∧
          (machine.shared.recordOf taskConfig.taskId).error =
            some s!"upstream task '{above.taskId}' failed") := by
  obtain ⟨path, config, finds, loads, setsUp⟩ := exists_setsUp_of_openWorkflow opens
  exact ⟨path, config, finds, loads, Reachable.succeeds_iff setsUp run returned,
    fun taskConfig member => ⟨Reachable.foretells setsUp run returned member,
      Reachable.blames_entry setsUp run returned member⟩⟩

/-- An interpreter that knows the ASCII digits and shows nothing but texts. -/
def asciiInterpreter : Interpreter where
  digit? := fun char => if char.isDigit then some (char.toNat - '0'.toNat) else none
  isSpace := Char.isWhitespace
  str := fun value =>
    match value with
    | .str text => text
    | _ => "?"
  repr := fun text => "'" ++ text ++ "'"
  random := fun _ => 0

/-- A task that would fail ten times. -/
def probeEntry : TaskConfig where
  taskId := "probe"
  callable := "flaky"
  maxAttempts := 8
  params := OrderedDict.set ∅ "fail_times" (.str " 1_0 ")

/-- A task that prints a message. -/
def announceEntry : TaskConfig where
  taskId := "announce"
  callable := "log_message"
  dependsOn := ["probe"]

/-- The tasks one after the other. -/
def probing : WorkflowConfig where
  workflowId := "probing"
  tasks := [probeEntry, announceEntry]

/-- A reader of this file. -/
def probingReader : ConfigReader := { exampleReader with modelValidate := fun _ => .ok probing }

/-- The value of the command line takes the place of that of the file. -/
theorem run_of_builtins_probing : ∃ (opened : AcceptedEngine × Workflow) (machine : Machine),
    openWorkflow sampleWorkspace probingReader (defaultTaskRegistry asciiInterpreter) "daily.yaml" =
      .ok opened ∧ machine.status = .returned ∧
    machine.shared.run.workflowState = .success ∧
    machine.attemptsOf "probe" = 5 ∧
    (machine.shared.recordOf "probe").error =
      some "RuntimeError: flaky task failed (attempt 4/4)" ∧
    (machine.shared.calls.filter fun call => call.taskId = "announce").flatMap
      (asciiInterpreter.printed "log_message") =
        ["[probing:announce] hello from log_message"] := by
  have opens : (openWorkflow sampleWorkspace probingReader (defaultTaskRegistry asciiInterpreter)
      "daily.yaml").isOk = true := by decide +kernel
  cases opened : openWorkflow sampleWorkspace probingReader (defaultTaskRegistry asciiInterpreter)
      "daily.yaml" with
  | error error =>
      rw [opened] at opens
      cases opens
  | ok result =>
      obtain ⟨_, _, _, _, setsUp⟩ := exists_setsUp_of_openWorkflow opened
      let env : Env := { runId := "probed", params := OrderedDict.set ∅ "fail_times" (.str "+4") }
      have noOverflow : result.1.NoOverflow env := WorkflowEngine.noOverflow_exact _ rfl
      obtain ⟨machine, _, steps, returned⟩ := runSequential_eq_ok setsUp.one noOverflow
      obtain ⟨path, config, finds, loads, succeeds, foretold⟩ :=
        run_of_builtins opened steps returned
      have found : findWorkflowFile sampleWorkspace "daily.yaml" = .ok "daily.yaml" := by
        decide +kernel
      obtain rfl : "daily.yaml" = path := Except.ok.inj (found.symm.trans finds)
      obtain rfl : probing = config := Except.ok.inj loads
      have probe : probing.firstReturn asciiInterpreter env probeEntry = some 5 := by
        decide +kernel
      have announce : probing.firstReturn asciiInterpreter env announceEntry = some 1 := rfl
      have returns : ∀ taskConfig ∈ probing.tasks,
          probing.firstReturn asciiInterpreter env taskConfig ≠ none := by
        refine List.forall_mem_cons.mpr ⟨?_, List.forall_mem_singleton.mpr ?_⟩
        · simp [probe]
        · simp [announce]
      have free : ∀ taskConfig, ¬ probing.Blocked asciiInterpreter env taskConfig := by
        rintro taskConfig ⟨above, member, _, never⟩
        exact returns above member never
      have first := (foretold probeEntry List.mem_cons_self).1
      have second := (foretold announceEntry (List.mem_cons_of_mem _ List.mem_cons_self)).1
      refine ⟨result, machine, rfl, returned, succeeds.mpr returns,
        (first.succeeded (free _) 5 probe).2.1, ?_, ?_⟩
      · refine (first.error (free _)).trans ?_
        decide +kernel
      · refine (second.succeeded (free _) 1 announce).2.2.trans ?_
        decide +kernel

end EtlOrchestrator
