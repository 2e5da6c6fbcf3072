import EtlOrchestrator.Dag.Validation
import EtlOrchestrator.Engine.Records
import EtlOrchestrator.Foundations.Fallible

/-!
# Workflow configuration files

A configuration file is read as text, parsed as YAML and checked against a
schema, and the workflow is built from the result in two passes: the first one
registers the tasks and the second one wires their dependencies. The YAML
parser and the schema check are third-party code, and stand as the functions of
a `ConfigReader`.

Building checks each task and each edge on its own. What it returns is closed and
has the configured edges (`buildWorkflow_spec`), but cycles through several tasks
are not looked for, so the workflow is valid exactly when the configured
dependencies have none.
-/

set_option autoImplicit false

namespace EtlOrchestrator

open SortedSet Relation

/-! ## Configurations -/

/-- One task entry from a workflow configuration file, with what its schema
checks. The id is checked when the task is built. -/
structure TaskConfig where
  taskId : String
  callable : String
  description : String := ""
  dependsOn : List String := []
  maxAttempts : ℕ := 1
  backoffSeconds : ℚ := 0
  backoffMultiplier : ℚ := 2
  params : Params := ∅
  one_le_maxAttempts : 1 ≤ maxAttempts := by
    first | exact Task.one_le_default_maxAttempts | decide
  backoffSeconds_nonneg : 0 ≤ backoffSeconds := by
    first | exact Task.default_backoffSeconds_nonneg | decide
  one_le_backoffMultiplier : 1 ≤ backoffMultiplier := by
    first | exact Task.one_le_default_backoffMultiplier | decide

/-- A workflow configuration file's content. -/
structure WorkflowConfig where
  workflowId : String
  description : String := ""
  tasks : List TaskConfig
  nonempty : tasks ≠ [] := by simp

/-- `Task(...)` for a task entry. -/
def TaskConfig.task (taskConfig : TaskConfig) : Except PyError Task :=
  Task.create taskConfig.taskId taskConfig.description [] taskConfig.maxAttempts
    taskConfig.backoffSeconds taskConfig.backoffMultiplier taskConfig.one_le_maxAttempts
    taskConfig.backoffSeconds_nonneg taskConfig.one_le_backoffMultiplier

/-! ## Reading a file -/

/-- What `yaml.safe_load` raises. -/
inductive LoadFailure where
  | yamlError (message : String)
  | other (error : PyError)

/-- The files, the YAML parser and the schema check. -/
structure ConfigReader where
  /-- The documents that the parser returns -/
  Raw : Type
  /-- The text of a file, if there is one -/
  readText : String → Option String
  /-- `yaml.safe_load` -/
  safeLoad : String → Except LoadFailure Raw
  /-- `WorkflowConfig.model_validate`, or the text of what it raises -/
  modelValidate : Raw → Except String WorkflowConfig

/-- Read and validate a workflow configuration file. -/
def loadWorkflowConfig (reader : ConfigReader) (path : String) : Except PyError WorkflowConfig :=
  match reader.readText path with
  | none => .error (.orchestration (.workflowConfig s!"workflow file not found: {path}"))
  | some text =>
      match reader.safeLoad text with
      | .error (.yamlError message) =>
          .error (.orchestration (.workflowConfig s!"invalid YAML in {path}: {message}"))
      | .error (.other error) => .error error
      | .ok raw =>
          match reader.modelValidate raw with
          | .error message => .error (.orchestration (.workflowConfig
              s!"invalid workflow configuration in {path}: {message}"))
          | .ok config => .ok config

/-! ## Building a workflow -/

/-- The first loop of `build_workflow`. -/
def registerTasks (workflow : Workflow) : List TaskConfig → Except PyError Workflow
  | [] => .ok workflow
  | taskConfig :: rest => do
      let task ← taskConfig.task
      match workflow.addTask task with
      | (_, .error error) => .error (.orchestration error)
      | (registered, .ok ()) => registerTasks registered rest

/-- The inner loop of the second one, over the upstreams of a task. -/
def wireUpstreams (workflow : Workflow) (taskId : String) :
    List String → Except OrchestrationError Workflow
  | [] => .ok workflow
  | upstream :: rest =>
      match workflow.addDependency taskId upstream with
      | .error (.unknownTask _) =>
          .error (.workflowConfig s!"task '{taskId}' depends on unknown task '{upstream}'")
      | .error error => .error error
      | .ok wired => wireUpstreams wired taskId rest

/-- The second loop of `build_workflow`. -/
def wireTasks (workflow : Workflow) : List TaskConfig → Except OrchestrationError Workflow
  | [] => .ok workflow
  | taskConfig :: rest => do
      let wired ← wireUpstreams workflow taskConfig.taskId taskConfig.dependsOn
      wireTasks wired rest

/-- Build a workflow from its configuration. -/
def buildWorkflow (config : WorkflowConfig) : Except PyError Workflow := do
  let workflow ← Workflow.create config.workflowId config.description
  let registered ← registerTasks workflow config.tasks
  (wireTasks registered config.tasks).mapError .orchestration

/-- Load a workflow definition from a YAML file. -/
def loadWorkflow (reader : ConfigReader) (path : String) : Except PyError Workflow := do
  buildWorkflow (← loadWorkflowConfig reader path)

/-- Return per-task parameter dicts from a workflow config file. -/
def loadTaskParams (reader : ConfigReader) (path : String) :
    Except PyError (OrderedDict String Params) := do
  let config ← loadWorkflowConfig reader path
  return (config.tasks.filter fun task => task.params.entries ≠ []).foldl
    (fun params task => params.set task.taskId task.params) ∅

/-! ## Callables -/

/-- The dict comprehension of `resolve_callables`. -/
def bindCallables (registry : OrderedDict String TaskCallable) :
    List TaskConfig → OrderedDict String TaskCallable →
      Except PyError (OrderedDict String TaskCallable)
  | [], bound => .ok bound
  | taskConfig :: rest, bound =>
      match registry.get? taskConfig.callable with
      | none => .error (.keyError taskConfig.callable)
      | some callable => bindCallables registry rest (bound.set taskConfig.taskId callable)

/-- Map each configured task id to its registry callable. -/
def resolveCallables (config : WorkflowConfig) (registry : OrderedDict String TaskCallable) :
    Except PyError (OrderedDict String TaskCallable) :=
  let missing := sorted
    ((config.tasks.filter fun task => task.callable ∉ registry).map TaskConfig.taskId).toFinset
  if missing ≠ [] then
    .error (.orchestration (.workflowConfig ("unknown callable(s) for task(s): " ++
      ", ".intercalate missing ++
      " (known callables: " ++ ", ".intercalate (sorted registry.keySet) ++ ")")))
  else bindCallables registry config.tasks ∅

/-! ## What building returns -/

/-- Wiring adds edges, and keeps the tasks and their closure. -/
structure Wired (before after : Workflow) (added : String → String → Prop) : Prop where
  tasks : after.tasks = before.tasks
  edge : ∀ up task, after.Edge up task ↔ before.Edge up task ∨ added up task
  closed : before.Closed → after.Closed

namespace Wired

theorem refl (workflow : Workflow) : Wired workflow workflow fun _ _ => False :=
  ⟨rfl, fun _ _ => (or_false _).symm.to_iff, id⟩

theorem trans {before middle after : Workflow} {first second : String → String → Prop}
    (earlier : Wired before middle first) (later : Wired middle after second) :
    Wired before after fun up task => first up task ∨ second up task where
  tasks := later.tasks.trans earlier.tasks
  edge up task := by rw [later.edge, earlier.edge, or_assoc]
  closed := later.closed ∘ earlier.closed

/-- The same edges, described otherwise. -/
theorem congr {before after : Workflow} {added other : String → String → Prop}
    (wired : Wired before after added) (same : ∀ up task, added up task ↔ other up task) :
    Wired before after other :=
  ⟨wired.tasks, fun up task => by rw [wired.edge, same], wired.closed⟩

end Wired

theorem wired_of_addDependency {before after : Workflow} {taskId upstreamId : String}
    (wired : before.addDependency taskId upstreamId = .ok after) :
    Wired before after fun up task => up = upstreamId ∧ task = taskId := by
  refine ⟨?_, Workflow.edge_of_addDependency wired, fun closed => closed.addDependency wired⟩
  obtain ⟨_, _, _, rfl⟩ := Workflow.addDependency_eq_ok_iff.mp wired
  rfl

theorem wired_of_wireUpstreams {taskId : String} (upstreams : List String) :
    ∀ {before after : Workflow}, wireUpstreams before taskId upstreams = .ok after →
      Wired before after fun up task => up ∈ upstreams ∧ task = taskId := by
  induction upstreams with
  | nil =>
      intro before after wired
      cases wired
      exact (Wired.refl before).congr fun _ _ => by simp
  | cons upstream rest ih =>
      intro before after wired
      rw [wireUpstreams] at wired
      split at wired
      · cases wired
      · cases wired
      · rename_i middle added
        refine ((wired_of_addDependency added).trans (ih wired)).congr fun up task => ?_
        rw [List.mem_cons, or_and_right]

/-- **The second loop adds exactly the configured edges.** -/
theorem wired_of_wireTasks (taskConfigs : List TaskConfig) :
    ∀ {before after : Workflow}, wireTasks before taskConfigs = .ok after →
      Wired before after fun up task =>
        ∃ taskConfig ∈ taskConfigs, up ∈ taskConfig.dependsOn ∧ task = taskConfig.taskId := by
  induction taskConfigs with
  | nil =>
      intro before after wired
      cases wired
      exact (Wired.refl before).congr fun _ _ => by simp
  | cons taskConfig rest ih =>
      intro before after wired
      rw [wireTasks, Except.bind_eq_ok_iff] at wired
      obtain ⟨middle, first, later⟩ := wired
      refine ((wired_of_wireUpstreams _ first).trans (ih later)).congr fun up task => ?_
      simp only [List.mem_cons, exists_eq_or_imp]

/-- The task of an entry has its id, and declares no dependencies of its own. -/
theorem TaskConfig.task_eq_ok_iff {taskConfig : TaskConfig} {task : Task} :
    taskConfig.task = .ok task ↔ ∃ valid : matchesIdPattern taskConfig.taskId = true,
      task = { taskId := taskConfig.taskId, description := taskConfig.description
               maxAttempts := taskConfig.maxAttempts
               backoffSeconds := taskConfig.backoffSeconds
               backoffMultiplier := taskConfig.backoffMultiplier
               taskId_valid := valid
               one_le_maxAttempts := taskConfig.one_le_maxAttempts
               backoffSeconds_nonneg := taskConfig.backoffSeconds_nonneg
               one_le_backoffMultiplier := taskConfig.one_le_backoffMultiplier } := by
  rw [TaskConfig.task, Task.create_eq_ok_iff]

theorem TaskConfig.of_task_eq_ok {taskConfig : TaskConfig} {task : Task}
    (built : taskConfig.task = .ok task) :
    task.taskId = taskConfig.taskId ∧ task.dependsOn = [] := by
  obtain ⟨_, rfl⟩ := task_eq_ok_iff.mp built
  exact ⟨rfl, rfl⟩

/-- Registering tasks adds their ids, which are new and distinct, and no edge. -/
structure Registered (before after : Workflow) (taskIds : List String) : Prop where
  workflowId : after.workflowId = before.workflowId
  tasks : ∀ taskId, taskId ∈ after.tasks ↔ taskId ∈ before.tasks ∨ taskId ∈ taskIds
  dependencies : after.dependencies = before.dependencies

theorem registered_of_registerTasks (taskConfigs : List TaskConfig) :
    ∀ {before after : Workflow}, registerTasks before taskConfigs = .ok after →
      Registered before after (taskConfigs.map TaskConfig.taskId) := by
  induction taskConfigs with
  | nil =>
      intro before after registered
      cases registered
      exact ⟨rfl, by simp, rfl⟩
  | cons taskConfig rest ih =>
      intro before after registered
      rw [registerTasks, Except.bind_eq_ok_iff] at registered
      obtain ⟨task, built, later⟩ := registered
      obtain ⟨sameId, undeclared⟩ := TaskConfig.of_task_eq_ok built
      rw [Workflow.addTask_of_undeclared before undeclared, sameId] at later
      by_cases known : taskConfig.taskId ∈ before.tasks
      · rw [if_pos known] at later
        cases later
      · rw [if_neg known] at later
        obtain ⟨sameWorkflow, tasks, dependencies⟩ := ih later
        refine ⟨sameWorkflow, fun taskId => ?_, dependencies⟩
        rw [tasks, OrderedDict.mem_set, List.map_cons, List.mem_cons, or_assoc]
        exact or_left_comm

/-! ## Which workflows are valid -/

namespace WorkflowConfig

variable (config : WorkflowConfig)

/-- The configured dependency of a task on another one. -/
def DependsOn (up task : String) : Prop :=
  ∃ taskConfig ∈ config.tasks, up ∈ taskConfig.dependsOn ∧ task = taskConfig.taskId

/-- No task is configured to depend on itself, directly or through others. -/
def Acyclic : Prop := ∀ task, ¬ TransGen config.DependsOn task task

end WorkflowConfig

/-- **A workflow that was built has the configured tasks and edges, and is
closed.** -/
theorem buildWorkflow_spec {config : WorkflowConfig} {workflow : Workflow}
    (built : buildWorkflow config = .ok workflow) :
    (∀ taskId, taskId ∈ workflow.tasks ↔ taskId ∈ config.tasks.map TaskConfig.taskId) ∧
      workflow.Edge = config.DependsOn ∧ workflow.Closed := by
  rw [buildWorkflow, Except.bind_eq_ok_iff] at built
  obtain ⟨created, create, built⟩ := built
  rw [Except.bind_eq_ok_iff] at built
  obtain ⟨registered, register, wire⟩ := built
  rw [Except.mapError_eq_ok_iff] at wire
  obtain ⟨_, rfl⟩ := Workflow.create_eq_ok_iff.mp create
  have registering := registered_of_registerTasks _ register
  have wired := wired_of_wireTasks _ wire
  -- No edge and no key comes from the first pass.
  have noEdge : ∀ up task, ¬ registered.Edge up task := fun up task edge => by
    have member := edge.mem_dependencies
    rw [registering.dependencies] at member
    exact OrderedDict.not_mem_empty task member
  refine ⟨fun taskId => ?_, ?_, wired.closed ⟨fun task member => ?_, fun task up edge => ?_⟩⟩
  · rw [wired.tasks, registering.tasks]
    simp
  · funext up task
    rw [eq_iff_iff, wired.edge, WorkflowConfig.DependsOn]
    simp [noEdge]
  · rw [registering.dependencies] at member
    exact absurd member (OrderedDict.not_mem_empty task)
  · exact absurd edge (noEdge up task)

/-- **A workflow that was built is valid exactly when the configured dependencies
have no cycle.** -/
theorem built_valid_iff_acyclic (config : WorkflowConfig) (workflow : Workflow)
    (built : buildWorkflow config = .ok workflow) :
    workflow.validateGraph = [] ↔ config.Acyclic := by
  obtain ⟨tasks, edges, closed⟩ := buildWorkflow_spec built
  have nonempty : workflow.tasks.keys ≠ [] := by
    obtain ⟨taskConfig, member⟩ := List.exists_mem_of_ne_nil _ config.nonempty
    exact List.ne_nil_of_mem ((tasks taskConfig.taskId).mpr (List.mem_map_of_mem member))
  rw [Workflow.validateGraph_eq_nil_iff_valid, WorkflowConfig.Acyclic, ← edges]
  exact ⟨fun valid => valid.acyclic, fun acyclic => ⟨nonempty, closed, acyclic⟩⟩

/-- Two tasks in sequence. -/
def sequence : WorkflowConfig where
  workflowId := "daily"
  tasks := [{ taskId := "extract", callable := "echo" },
    { taskId := "load", callable := "echo", dependsOn := ["extract"] }]

theorem built_valid_iff_acyclic_sequence : ∃ workflow,
    buildWorkflow sequence = .ok workflow ∧ workflow.validateGraph = [] ∧ sequence.Acyclic := by
  have valid : (buildWorkflow sequence).map Workflow.validateGraph = .ok [] := by decide +kernel
  obtain ⟨workflow, built, noProblem⟩ := Except.map_eq_ok_iff.mp valid
  exact ⟨workflow, built, noProblem,
    (built_valid_iff_acyclic sequence workflow built).mp noProblem⟩

/-- Two tasks that wait for each other. -/
def deadlock : WorkflowConfig where
  workflowId := "daily"
  tasks := [{ taskId := "a", callable := "echo", dependsOn := ["b"] },
    { taskId := "b", callable := "echo", dependsOn := ["a"] }]

theorem deadlock_is_built : ∃ workflow,
    buildWorkflow deadlock = .ok workflow ∧ workflow.validateGraph ≠ [] := by
  have invalid : (buildWorkflow deadlock).map Workflow.validateGraph =
      .ok ["dependency cycle: a -> b -> a"] := by decide +kernel
  obtain ⟨workflow, built, problems⟩ := Except.map_eq_ok_iff.mp invalid
  exact ⟨workflow, built, problems ▸ List.cons_ne_nil _ _⟩

end EtlOrchestrator
