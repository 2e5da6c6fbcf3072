import EtlOrchestrator.Cli.SchedulesFile
import EtlOrchestrator.Config.Building

/-!
# The workflow commands of the command line

`workflow validate` and `workflow run` begin by setting up an engine for a workflow file.
Reading the file, building the workflow, resolving the callables and constructing the engine
raise from several families of exceptions, and the commands turn a `WorkflowConfigError` alone
into a click exception. The others reach the user as tracebacks (`workflowCommands_end_iff`).
-/

set_option autoImplicit false

namespace EtlOrchestrator

open Except (RaisesOnly bind_eq_ok_iff mapError_eq_ok_iff)

/-! ## The commands -/

/-- `_build_engine`: load, resolve, and wire up an engine for a workflow file. -/
def buildEngine (reader : ConfigReader) (registry : OrderedDict String TaskCallable)
    (path : String) : Except PyError (AcceptedEngine × Workflow) := do
  let config ← loadWorkflowConfig reader path
  let built ← buildWorkflow config
  let callables ← resolveCallables config registry
  let taskParams ← loadTaskParams reader path
  let engine ← (WorkflowEngine.init built callables taskParams 1).mapError .orchestration
  return (engine, built)

/-- `except WorkflowConfigError as exc: raise click.ClickException(str(exc)) from exc`. -/
def asClickException : PyError → PyError
  | .orchestration (.workflowConfig message) => clickException message
  | error => error

/-- What `workflow_validate` and `workflow_run` begin with: the file of the name, and its
engine. -/
def openWorkflow (workspace : Workspace) (reader : ConfigReader)
    (registry : OrderedDict String TaskCallable) (name : String) :
    Except PyError (AcceptedEngine × Workflow) := do
  let path ← findWorkflowFile workspace name
  (buildEngine reader registry path).mapError asClickException

/-- The lines that `workflow_validate` prints for a workflow and its resolved order. -/
def validationReport (built : Workflow) (order : List String) : List String :=
  [s!"{built.workflowId}: valid ({built.tasks.keys.length} tasks)", "execution order:"] ++
    order.map fun taskId => s!"  {taskId}"

/-- Validate a workflow definition and print its resolved order. -/
def workflowValidate (workspace : Workspace) (reader : ConfigReader)
    (registry : OrderedDict String TaskCallable) (name : String) :
    Except PyError (List String) := do
  let opened ← openWorkflow workspace reader registry name
  let order ← opened.2.topologicalOrder.mapError .orchestration
  return validationReport opened.2 order

/-! ## How a command ends -/

/-- A command succeeds with a result of some kind, or ends in a click exception. -/
def EndsIn {α : Type} (success : α → Prop) : Except PyError α → Prop
  | .ok result => success result
  | .error error => ∃ message, error = clickException message

/-- The graph passes validation, and each task has a callable of the registry. -/
structure IsExecutable (registry : OrderedDict String TaskCallable)
    (opened : AcceptedEngine × Workflow) : Prop where
  workflow : opened.1.workflow = opened.2
  sound : opened.2.validateGraph = []
  known : ∀ taskId ∈ opened.2.tasks, ∃ name callable, registry.get? name = some callable ∧
    opened.1.tasks.get? taskId = some callable

/-- An error that the commands show as a click exception. -/
def Shown (error : PyError) : Prop := ∃ message, asClickException error = clickException message

theorem shown_workflowConfig (message : String) :
    Shown (.orchestration (.workflowConfig message)) := ⟨message, rfl⟩

theorem not_shown_validationError (message : String) : ¬ Shown (.validationError message) := by
  rintro ⟨_, ⟨⟩⟩

theorem not_shown_duplicateTask (taskId : String) :
    ¬ Shown (.orchestration (.duplicateTask taskId)) := by
  rintro ⟨_, ⟨⟩⟩

theorem not_shown_selfDependency (taskId : String) :
    ¬ Shown (.orchestration (.selfDependency taskId)) := by
  rintro ⟨_, ⟨⟩⟩

theorem not_shown_engineConfiguration (message : String) :
    ¬ Shown (.orchestration (.engineConfiguration message)) := by
  rintro ⟨_, ⟨⟩⟩

/-- A command ends as it should if its results do and its errors are click exceptions. -/
theorem endsIn_iff {α : Type} {success : α → Prop} {program : Except PyError α}
    (succeeds : ∀ result, program = .ok result → success result) :
    EndsIn success program ↔
      RaisesOnly (fun error => ∃ message, error = clickException message) program := by
  cases program with
  | ok result => exact iff_of_true (succeeds result rfl) (.ok result)
  | error error =>
      rw [RaisesOnly.error_iff]
      exact Iff.rfl

/-! ## What is set up -/

/-- The callables that are bound come from the registry. -/
theorem get?_of_bindCallables {registry : OrderedDict String TaskCallable}
    (taskConfigs : List TaskConfig) : ∀ {before after : OrderedDict String TaskCallable},
      bindCallables registry taskConfigs before = .ok after →
        ∀ taskId callable, after.get? taskId = some callable →
          before.get? taskId = some callable ∨ ∃ name, registry.get? name = some callable := by
  induction taskConfigs with
  | nil =>
      intro before after bound taskId callable stored
      cases bound
      exact .inl stored
  | cons taskConfig rest ih =>
      intro before after bound taskId callable stored
      rw [bindCallables] at bound
      split at bound
      · cases bound
      · rename_i first found
        rcases ih bound taskId callable stored with earlier | fromRegistry
        · rw [OrderedDict.get?_set] at earlier
          split at earlier
          · cases earlier
            exact .inr ⟨taskConfig.callable, found⟩
          · exact .inl earlier
        · exact .inr fromRegistry

/-- **An engine that is set up is executable.** -/
theorem isExecutable_of_buildEngine {reader : ConfigReader}
    {registry : OrderedDict String TaskCallable} {path : String}
    {opened : AcceptedEngine × Workflow}
    (runs : buildEngine reader registry path = .ok opened) : IsExecutable registry opened := by
  simp only [buildEngine, bind_eq_ok_iff, mapError_eq_ok_iff] at runs
  obtain ⟨config, _, built, _, callables, resolved, taskParams, _, engine, accepted, same⟩ := runs
  cases same
  have kept := WorkflowEngine.of_init_eq_ok accepted
  have workflow : engine.workflow = built := by rw [kept]
  have tasks : engine.tasks = callables := by rw [kept]
  refine ⟨workflow, ?_, fun taskId member => ?_⟩
  · have valid := engine.valid
    rw [workflow] at valid
    exact Workflow.validateGraph_eq_nil_iff_valid.mpr valid
  · have bound : taskId ∈ callables := by
      rw [← tasks, engine.mem_tasks, workflow]
      exact member
    obtain ⟨callable, stored⟩ := OrderedDict.exists_get?_of_mem bound
    simp only [resolveCallables] at resolved
    split at resolved
    · cases resolved
    · rcases get?_of_bindCallables config.tasks resolved taskId callable stored with
        none | ⟨name, registered⟩
      · cases none
      · refine ⟨name, callable, registered, ?_⟩
        change engine.tasks.get? taskId = some callable
        rw [tasks, stored]

/-! ## Which errors the layers raise -/

/-- No error of the first loop is shown: the id of an entry is invalid, or taken. -/
theorem registerTasks_not_shown (taskConfigs : List TaskConfig) : ∀ workflow : Workflow,
    RaisesOnly (fun error => ¬ Shown error) (registerTasks workflow taskConfigs) := by
  induction taskConfigs with
  | nil => exact fun workflow => .ok workflow
  | cons taskConfig rest ih =>
      intro workflow
      rw [registerTasks, RaisesOnly.bind_iff]
      refine ⟨taskConfig.raises_task.mono ?_, fun task built => ?_⟩
      · rintro _ ⟨message, rfl⟩
        exact not_shown_validationError message
      · rw [Workflow.addTask_of_undeclared workflow (TaskConfig.of_task_eq_ok built).2]
        split
        · rename_i raised
          split at raised
          · cases raised
            exact RaisesOnly.error_iff.mpr (not_shown_duplicateTask _)
          · cases raised
        · exact ih _

/-- The first loop returns only if all ids are valid. -/
theorem valid_of_registerTasks (taskConfigs : List TaskConfig) :
    ∀ {before after : Workflow}, registerTasks before taskConfigs = .ok after →
      ∀ taskConfig ∈ taskConfigs, matchesIdPattern taskConfig.taskId = true := by
  induction taskConfigs with
  | nil => exact fun _ => List.forall_mem_nil _
  | cons taskConfig rest ih =>
      intro before after registered
      rw [registerTasks, bind_eq_ok_iff] at registered
      obtain ⟨task, built, later⟩ := registered
      obtain ⟨valid, _⟩ := TaskConfig.task_eq_ok_iff.mp built
      split at later
      · cases later
      · exact List.forall_mem_cons.mpr ⟨valid, ih later⟩

namespace WorkflowConfig

variable {config : WorkflowConfig}

/-- The ids are valid and distinct, and a task is declared to depend on itself only behind a
dependency on an unknown task. -/
structure FaultIsShown (config : WorkflowConfig) : Prop where
  workflowId : matchesIdPattern config.workflowId = true
  taskIds : ∀ taskConfig ∈ config.tasks, matchesIdPattern taskConfig.taskId = true
  distinct : (config.tasks.map TaskConfig.taskId).Nodup
  unknownFirst : ∀ earlier task later,
    declarations config.tasks = earlier ++ (task, task) :: later →
      ∃ declaration ∈ earlier, declaration.2 ∉ config.tasks.map TaskConfig.taskId

/-- A task with a declaration is configured. -/
theorem mem_ids_of_declared {earlier later : List (String × String)} {task up : String}
    (split : declarations config.tasks = earlier ++ (task, up) :: later) :
    task ∈ config.tasks.map TaskConfig.taskId := by
  have declared : (task, up) ∈ declarations config.tasks := split ▸ List.mem_append_cons_self
  obtain ⟨taskConfig, member, _, rfl⟩ := mem_declarations.mp declared
  exact List.mem_map_of_mem member

/-- Behind sensible declarations comes an unknown task; so it stands before every task that is
declared to depend on itself. -/
theorem unknownFirst_of_unknown {earlier later : List (String × String)} {task up : String}
    (split : declarations config.tasks = earlier ++ (task, up) :: later)
    (sensible : ∀ declaration ∈ earlier, config.Sensible declaration)
    (missing : up ∉ config.tasks.map TaskConfig.taskId)
    {before after : List (String × String)} {self : String}
    (splitSelf : declarations config.tasks = before ++ (self, self) :: after) :
    ∃ declaration ∈ before, declaration.2 ∉ config.tasks.map TaskConfig.taskId := by
  have selfKnown := mem_ids_of_declared splitSelf
  rcases List.append_eq_append_iff.mp (split.symm.trans splitSelf) with
    ⟨between, rfl, rest⟩ | ⟨between, rfl, rest⟩
  · cases between with
    | nil =>
        cases rest
        exact absurd selfKnown missing
    | cons first between =>
        cases rest
        exact ⟨_, List.mem_append_cons_self, missing⟩
  · cases between with
    | nil =>
        cases rest
        exact absurd selfKnown missing
    | cons first between =>
        cases rest
        exact absurd rfl (sensible _ List.mem_append_cons_self).2

/-- The fault of a configuration with valid ids is shown if it is an unknown task. -/
theorem shown_iff_of_firstFault {error : PyError} (fault : config.FirstFault error)
    (validId : matchesIdPattern config.workflowId = true)
    (validIds : ∀ taskConfig ∈ config.tasks, matchesIdPattern taskConfig.taskId = true) :
    Shown error ↔ config.FaultIsShown := by
  cases fault with
  | duplicate split distinct taken =>
      exact iff_of_false (not_shown_duplicateTask _) fun shown =>
        not_distinct_of_taken split taken shown.distinct
  | unknown distinct split sensible missing =>
      refine iff_of_true (shown_workflowConfig _) ⟨validId, validIds, distinct, ?_⟩
      intro before self after splitSelf
      exact unknownFirst_of_unknown split sensible missing splitSelf
  | self distinct split sensible =>
      refine iff_of_false (not_shown_selfDependency _) fun shown => ?_
      obtain ⟨declaration, member, missing⟩ := shown.unknownFirst _ _ _ split
      exact missing (sensible declaration member).1

/-- A buildable configuration has no fault. -/
theorem Buildable.faultIsShown (buildable : config.Buildable)
    (validId : matchesIdPattern config.workflowId = true)
    (validIds : ∀ taskConfig ∈ config.tasks, matchesIdPattern taskConfig.taskId = true) :
    config.FaultIsShown := by
  refine ⟨validId, validIds, buildable.distinct, fun earlier task later split => ?_⟩
  have declared : (task, task) ∈ declarations config.tasks := split ▸ List.mem_append_cons_self
  obtain ⟨taskConfig, member, declares, rfl⟩ := mem_declarations.mp declared
  exact absurd declares (buildable.noSelf taskConfig member)

/-- **The errors of building are shown exactly when the fault of the configuration is not an
invalid id, a repeated one or a dependency of a task on itself.** -/
theorem buildWorkflow_shown_iff :
    RaisesOnly Shown (buildWorkflow config) ↔ config.FaultIsShown := by
  by_cases valid : matchesIdPattern config.workflowId = true ∧
      ∀ taskConfig ∈ config.tasks, matchesIdPattern taskConfig.taskId = true
  · rcases buildWorkflow_cases valid.1 valid.2 with
      ⟨buildable, workflow, runs, _⟩ | ⟨_, error, runs, fault⟩
    · rw [runs]
      exact iff_of_true (.ok workflow) (buildable.faultIsShown valid.1 valid.2)
    · rw [runs, RaisesOnly.error_iff]
      exact shown_iff_of_firstFault fault valid.1 valid.2
  · refine iff_of_false (fun only => valid ?_) fun shown => valid ⟨shown.workflowId, shown.taskIds⟩
    rw [buildWorkflow, RaisesOnly.bind_iff] at only
    by_cases validId : matchesIdPattern config.workflowId = true
    · have registers := only.2 _ (Workflow.create_of_valid config.description validId)
      rw [RaisesOnly.bind_iff] at registers
      obtain ⟨registered, runs⟩ := (RaisesOnly.iff_isOk_of_not
        (registerTasks_not_shown config.tasks _)).mp registers.1
      exact ⟨validId, valid_of_registerTasks config.tasks runs⟩
    · obtain ⟨message, created⟩ := Workflow.create_of_invalid config.description validId
      rw [created, RaisesOnly.error_iff] at only
      exact absurd only.1 (not_shown_validationError message)

/-- The engine of a configuration whose workflow is built and whose callables are resolved is
accepted if and only if the configured graph has no cycle. -/
theorem init_isOk_iff {registry callables : OrderedDict String TaskCallable}
    {taskParams : OrderedDict String Params} {workflow : Workflow}
    (builds : config.Builds workflow)
    (resolved : resolveCallables config registry = .ok callables) :
    (∃ engine, WorkflowEngine.init workflow callables taskParams 1 = .ok engine) ↔
      config.Acyclic := by
  rw [← builds.valid_iff]
  constructor
  · rintro ⟨engine, accepted⟩
    exact (WorkflowEngine.init_eq_ok_iff.mp
      ⟨engine, accepted, WorkflowEngine.of_init_eq_ok accepted⟩).2.1
  · intro valid
    obtain ⟨engine, accepted, _⟩ := WorkflowEngine.init_eq_ok_iff.mpr ⟨le_refl 1, valid,
      fun taskId => (mem_resolveCallables resolved taskId).trans (builds.mem_tasks taskId).symm⟩
    exact ⟨engine, accepted⟩

/-- The first fault of a configuration, if it has one, is shown: its ids are valid and distinct,
an unknown task is met before a task that depends on itself, and when all is known there is no
cycle. -/
structure Presentable (config : WorkflowConfig) (registry : OrderedDict String TaskCallable) :
    Prop extends config.FaultIsShown where
  acyclic : config.Buildable → (∀ taskConfig ∈ config.tasks, taskConfig.callable ∈ registry) →
    config.Acyclic

end WorkflowConfig

/-- No error of the engine's constructor is shown. -/
theorem WorkflowEngine.init_not_shown (workflow : Workflow)
    (callables : OrderedDict String TaskCallable) (taskParams : OrderedDict String Params)
    (maxWorkers : ℤ) : RaisesOnly (fun error => ¬ Shown error)
      ((WorkflowEngine.init workflow callables taskParams maxWorkers).mapError .orchestration) := by
  rw [RaisesOnly.mapError_iff, WorkflowEngine.init]
  split
  · exact RaisesOnly.error_iff.mpr (not_shown_engineConfiguration _)
  · split
    · exact RaisesOnly.error_iff.mpr (not_shown_engineConfiguration _)
    · split
      · exact RaisesOnly.error_iff.mpr (not_shown_engineConfiguration _)
      · split
        · exact RaisesOnly.error_iff.mpr (not_shown_engineConfiguration _)
        · exact .ok _

/-! ## Which files are shown -/

/-- The parser raises nothing but a `YAMLError` for the file (or what is shown), and the fault
of the configuration in it, if any, is shown. -/
def ConfigReader.Presentable (reader : ConfigReader)
    (registry : OrderedDict String TaskCallable) (path : String) : Prop :=
  ∀ text, reader.readText path = some text →
    (∀ error, reader.safeLoad text = .error (.other error) → Shown error) ∧
    ∀ raw config, reader.safeLoad text = .ok raw → reader.modelValidate raw = .ok config →
      config.Presentable registry

/-- The parts of setting up an engine behind the building of the workflow. -/
theorem shown_behind_buildWorkflow_iff {reader : ConfigReader} {path : String}
    {config : WorkflowConfig} (loaded : loadWorkflowConfig reader path = .ok config)
    (registry : OrderedDict String TaskCallable) {built : Workflow}
    (builds : config.Builds built) :
    RaisesOnly Shown (do
      let callables ← resolveCallables config registry
      let taskParams ← loadTaskParams reader path
      let engine ← (WorkflowEngine.init built callables taskParams 1).mapError .orchestration
      return (engine, built)) ↔
      ((∀ taskConfig ∈ config.tasks, taskConfig.callable ∈ registry) → config.Acyclic) := by
  obtain ⟨taskParams, params⟩ : ∃ taskParams, loadTaskParams reader path = .ok taskParams := by
    rw [loadTaskParams, loaded]
    exact ⟨_, rfl⟩
  rw [RaisesOnly.bind_iff, ← WorkflowConfig.resolveCallables_eq_ok_iff, params, exists_imp]
  refine (and_iff_right ((raises_resolveCallables config registry).mono ?_)).trans
    (forall₂_congr fun callables resolved => ?_)
  · rintro _ ⟨message, rfl⟩
    exact shown_workflowConfig message
  · rw [Except.ok_bind, RaisesOnly.bind_iff, RaisesOnly.iff_isOk_of_not
      (WorkflowEngine.init_not_shown built callables taskParams 1),
      ← WorkflowConfig.init_isOk_iff builds resolved]
    simp only [mapError_eq_ok_iff]
    exact and_iff_left fun _ _ => .ok _

/-- **Setting up an engine raises only what is shown exactly for the presentable files.** -/
theorem buildEngine_shown_iff {reader : ConfigReader}
    {registry : OrderedDict String TaskCallable} {path : String} :
    RaisesOnly Shown (buildEngine reader registry path) ↔ reader.Presentable registry path := by
  have configured : ∀ config, loadWorkflowConfig reader path = .ok config →
      (RaisesOnly Shown (do
        let built ← buildWorkflow config
        let callables ← resolveCallables config registry
        let taskParams ← loadTaskParams reader path
        let engine ← (WorkflowEngine.init built callables taskParams 1).mapError .orchestration
        return (engine, built)) ↔ config.Presentable registry) := by
    intro config loaded
    rw [RaisesOnly.bind_iff, WorkflowConfig.buildWorkflow_shown_iff]
    constructor
    · rintro ⟨shown, behind⟩
      refine ⟨shown, fun buildable => ?_⟩
      obtain ⟨built, runs⟩ :=
        (WorkflowConfig.buildWorkflow_isOk_iff shown.workflowId shown.taskIds).mpr buildable
      exact (shown_behind_buildWorkflow_iff loaded registry
        (WorkflowConfig.builds_of_eq_ok shown.workflowId shown.taskIds runs)).mp (behind built runs)
    · intro presentable
      refine ⟨presentable.toFaultIsShown, fun built runs => ?_⟩
      have buildable := (WorkflowConfig.buildWorkflow_isOk_iff presentable.workflowId
        presentable.taskIds).mp ⟨built, runs⟩
      exact (shown_behind_buildWorkflow_iff loaded registry
        (WorkflowConfig.builds_of_eq_ok presentable.workflowId presentable.taskIds runs)).mpr
        (presentable.acyclic buildable)
  rw [buildEngine, RaisesOnly.bind_iff, raises_loadWorkflowConfig_iff shown_workflowConfig]
  constructor
  · intro both text read
    refine ⟨both.1 text read, fun raw config loaded validated => ?_⟩
    have runs := loadWorkflowConfig_eq_ok_iff.mpr ⟨text, raw, read, loaded, validated⟩
    exact (configured config runs).mp (both.2 config runs)
  · intro presentable
    refine ⟨fun text read => (presentable text read).1, fun config runs => ?_⟩
    obtain ⟨text, raw, read, loaded, validated⟩ := loadWorkflowConfig_eq_ok_iff.mp runs
    exact (configured config runs).mpr ((presentable text read).2 raw config loaded validated)

/-- A file that is not found is shown. -/
theorem findWorkflowFile_raises (workspace : Workspace) (name : String) :
    RaisesOnly (fun error => ∃ message, error = clickException message)
      (findWorkflowFile workspace name) := by
  rw [findWorkflowFile]
  split
  · split
    · exact .ok _
    · exact RaisesOnly.error_iff.mpr ⟨_, rfl⟩
  · dsimp only
    split
    · exact .ok _
    · exact RaisesOnly.error_iff.mpr ⟨_, rfl⟩

/-! ## The commands -/

section Commands

variable {workspace : Workspace} {reader : ConfigReader}
  {registry : OrderedDict String TaskCallable} {name : String}

theorem openWorkflow_raises_iff :
    RaisesOnly (fun error => ∃ message, error = clickException message)
      (openWorkflow workspace reader registry name) ↔
      ∀ path, findWorkflowFile workspace name = .ok path → reader.Presentable registry path := by
  rw [openWorkflow, RaisesOnly.bind_iff, and_iff_right (findWorkflowFile_raises workspace name)]
  refine forall₂_congr fun path _ => ?_
  rw [RaisesOnly.mapError_iff]
  exact buildEngine_shown_iff

theorem isExecutable_of_openWorkflow {opened : AcceptedEngine × Workflow}
    (runs : openWorkflow workspace reader registry name = .ok opened) :
    IsExecutable registry opened := by
  rw [openWorkflow, bind_eq_ok_iff] at runs
  obtain ⟨path, _, built⟩ := runs
  exact isExecutable_of_buildEngine (mapError_eq_ok_iff.mp built)

/-- The order of a workflow that was opened can be printed. -/
theorem workflowValidate_raises_iff :
    RaisesOnly (fun error => ∃ message, error = clickException message)
      (workflowValidate workspace reader registry name) ↔
      RaisesOnly (fun error => ∃ message, error = clickException message)
        (openWorkflow workspace reader registry name) := by
  rw [workflowValidate, RaisesOnly.bind_iff]
  refine and_iff_left fun opened runs => ?_
  obtain ⟨order, ordered, _⟩ := Workflow.topologicalOrder_eq_ok
    (Workflow.validateGraph_eq_nil_iff_valid.mp (isExecutable_of_openWorkflow runs).sound)
  rw [ordered]
  exact .ok _

/-- **Both commands end in an executable workflow or in a click exception if and only if the
file that is found is presentable.** -/
theorem workflowCommands_end_iff (workspace : Workspace) (reader : ConfigReader)
    (registry : OrderedDict String TaskCallable) (name : String) :
    (EndsIn (IsExecutable registry) (openWorkflow workspace reader registry name) ∧
      EndsIn (fun report => ∃ opened order,
          openWorkflow workspace reader registry name = .ok opened ∧
          IsExecutable registry opened ∧ opened.2.topologicalOrder = .ok order ∧
          report = validationReport opened.2 order)
        (workflowValidate workspace reader registry name)) ↔
      ∀ path, findWorkflowFile workspace name = .ok path → reader.Presentable registry path := by
  have reports : ∀ report, workflowValidate workspace reader registry name = .ok report →
      ∃ opened order, openWorkflow workspace reader registry name = .ok opened ∧
        IsExecutable registry opened ∧ opened.2.topologicalOrder = .ok order ∧
        report = validationReport opened.2 order := by
    intro report runs
    simp only [workflowValidate, bind_eq_ok_iff, mapError_eq_ok_iff] at runs
    obtain ⟨opened, opens, order, ordered, same⟩ := runs
    cases same
    exact ⟨opened, order, opens, isExecutable_of_openWorkflow opens, ordered, rfl⟩
  rw [endsIn_iff fun _ => isExecutable_of_openWorkflow, endsIn_iff reports,
    workflowValidate_raises_iff, and_self_iff]
  exact openWorkflow_raises_iff

end Commands

/-- The text of a file with two tasks that wait for each other. -/
def deadlockText : String :=
  "workflow_id: daily\ntasks:\n  - {task_id: a, callable: echo, depends_on: [b]}\n" ++
    "  - {task_id: b, callable: echo, depends_on: [a]}\n"

/-- That file, with its document and its configuration. -/
def deadlockReader : ConfigReader where
  Raw := PyValue
  readText path := if path = "workflows/daily.yaml" then some deadlockText else none
  safeLoad _ := .ok (.dict [("workflow_id", .str "daily"), ("tasks", .list
    [.dict [("task_id", .str "a"), ("callable", .str "echo"), ("depends_on", .list [.str "b"])],
      .dict [("task_id", .str "b"), ("callable", .str "echo"), ("depends_on", .list [.str "a"])]])])
  modelValidate _ := .ok deadlock

theorem deadlock_escapes :
    workflowValidate exampleWorkspace deadlockReader exampleRegistry "daily" =
        .error (.orchestration (.engineConfiguration ("workflow 'daily' is not executable: " ++
          "workflow validation failed: dependency cycle: a -> b -> a"))) ∧
      ¬ EndsIn (IsExecutable exampleRegistry)
        (openWorkflow exampleWorkspace deadlockReader exampleRegistry "daily") := by
  have raised : workflowValidate exampleWorkspace deadlockReader exampleRegistry "daily" =
      .error (.orchestration (.engineConfiguration ("workflow 'daily' is not executable: " ++
        "workflow validation failed: dependency cycle: a -> b -> a"))) := by decide +kernel
  refine ⟨raised, fun ends => ?_⟩
  rw [endsIn_iff fun _ => isExecutable_of_openWorkflow, ← workflowValidate_raises_iff, raised,
    RaisesOnly.error_iff] at ends
  obtain ⟨message, same⟩ := ends
  cases same

end EtlOrchestrator
