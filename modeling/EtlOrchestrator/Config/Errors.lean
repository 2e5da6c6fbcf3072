import EtlOrchestrator.Config

/-!
# Which errors a workflow file raises

A workflow file goes through the YAML parser, the schema, and the models of tasks
and workflows. They report their problems as an `OrchestrationError`, but for two:
the parser may raise something else than a `YAMLError`, and the models of tasks
and workflows raise a `ValidationError` for an invalid id. A file that does
neither is `Recoverable`.
-/

set_option autoImplicit false

namespace EtlOrchestrator

/-- Every error of a program is one of the framework's. -/
def Reports {α : Type} (program : Except PyError α) : Prop :=
  ∀ error, program = .error error → error.isOrchestrationError = true

namespace Reports

variable {α β : Type}

theorem ok (value : α) : Reports (.ok value) := nofun

theorem mapError (program : Except OrchestrationError α) :
    Reports (program.mapError .orchestration) := by
  intro error raised
  obtain ⟨cause, _, rfl⟩ := Except.mapError_eq_error_iff.mp raised
  rfl

theorem bind_iff {first : Except PyError α} {rest : α → Except PyError β} :
    Reports (first >>= rest) ↔
      Reports first ∧ ∀ value, first = .ok value → Reports (rest value) :=
  Except.RaisesOnly.bind_iff

end Reports

/-! ## The ids of a configuration -/

/-- As far as the ids are distinct from each other and from the `known` ones, they
are valid. -/
def IdsValid (known : String → Prop) (taskConfigs : List TaskConfig) : Prop :=
  ∀ earlier taskConfig later, taskConfigs = earlier ++ taskConfig :: later →
    ((earlier ++ [taskConfig]).map TaskConfig.taskId).Nodup →
    (∀ other ∈ earlier ++ [taskConfig], ¬ known other.taskId) →
    matchesIdPattern taskConfig.taskId = true

/-- A new id must be valid, and is known to those after it. -/
theorem idsValid_cons_iff {known : String → Prop} {taskConfig : TaskConfig}
    {rest : List TaskConfig} (new : ¬ known taskConfig.taskId) :
    IdsValid known (taskConfig :: rest) ↔ matchesIdPattern taskConfig.taskId = true ∧
      IdsValid (fun taskId => taskId = taskConfig.taskId ∨ known taskId) rest := by
  constructor
  · intro valid
    refine ⟨valid [] taskConfig rest rfl (by simp) (by simpa using new), ?_⟩
    rintro earlier last later rfl nodup unknown
    refine valid (taskConfig :: earlier) last later rfl ?_ ?_
    · rw [List.cons_append, List.map_cons, List.nodup_cons]
      refine ⟨fun repeated => ?_, nodup⟩
      obtain ⟨other, member, same⟩ := List.mem_map.mp repeated
      exact unknown other member (.inl same)
    · intro other member
      rcases List.mem_cons.mp member with rfl | inRest
      · exact new
      · exact fun isKnown => unknown other inRest (.inr isKnown)
  · rintro ⟨headValid, restValid⟩ earlier last later split nodup unknown
    cases earlier with
    | nil =>
        cases split
        exact headValid
    | cons first earlier =>
        cases split
        rw [List.cons_append, List.map_cons, List.nodup_cons] at nodup
        refine restValid earlier last later rfl nodup.2 fun other member => ?_
        rintro (same | isKnown)
        · exact nodup.1 (same ▸ List.mem_map_of_mem member)
        · exact unknown other (List.mem_cons_of_mem _ member) isKnown

/-- A repeated id ends the list that is looked at. -/
theorem idsValid_cons_of_known {known : String → Prop} {taskConfig : TaskConfig}
    {rest : List TaskConfig} (isKnown : known taskConfig.taskId) :
    IdsValid known (taskConfig :: rest) := by
  intro earlier last later split _ unknown
  cases earlier with
  | nil =>
      cases split
      exact absurd isKnown (unknown taskConfig (by simp))
  | cons first earlier =>
      cases split
      exact absurd isKnown (unknown taskConfig (by simp))

theorem TaskConfig.exists_task {taskConfig : TaskConfig}
    (valid : matchesIdPattern taskConfig.taskId = true) :
    ∃ task, taskConfig.task = .ok task := ⟨_, task_eq_ok_iff.mpr ⟨valid, rfl⟩⟩

/-- The constructor of a task raises nothing but a `ValidationError`. -/
theorem TaskConfig.raises_task (taskConfig : TaskConfig) : Except.RaisesOnly
    (fun error => ∃ message, error = .validationError message) taskConfig.task := by
  by_cases valid : matchesIdPattern taskConfig.taskId = true
  · obtain ⟨task, built⟩ := exists_task valid
    rw [built]
    exact .ok task
  · obtain ⟨message, built⟩ := Task.create_of_invalid valid
    rw [TaskConfig.task, built]
    exact Except.RaisesOnly.error_iff.mpr ⟨message, rfl⟩

theorem TaskConfig.reports_task_iff {taskConfig : TaskConfig} :
    Reports taskConfig.task ↔ matchesIdPattern taskConfig.taskId = true := by
  by_cases valid : matchesIdPattern taskConfig.taskId = true
  · obtain ⟨task, built⟩ := exists_task valid
    rw [built]
    exact iff_of_true (.ok task) valid
  · refine iff_of_false (fun reports => ?_) valid
    obtain ⟨message, built⟩ := Task.create_of_invalid valid
    exact Bool.false_ne_true (reports _ built)

/-- **The first loop of building raises a `ValidationError` exactly when it meets an
invalid id before an id is repeated.** -/
theorem reports_registerTasks_iff (taskConfigs : List TaskConfig) : ∀ workflow : Workflow,
    (∀ taskId ∈ workflow.tasks, matchesIdPattern taskId = true) →
      (Reports (registerTasks workflow taskConfigs) ↔
        IdsValid (· ∈ workflow.tasks) taskConfigs) := by
  induction taskConfigs with
  | nil =>
      intro workflow _
      refine iff_of_true (.ok workflow) fun earlier taskConfig later split => ?_
      cases earlier <;> cases split
  | cons taskConfig rest ih =>
      intro workflow valid
      rw [registerTasks, Reports.bind_iff, TaskConfig.reports_task_iff]
      by_cases known : taskConfig.taskId ∈ workflow.tasks
      · refine iff_of_true ⟨valid _ known, fun task built => ?_⟩ (idsValid_cons_of_known known)
        obtain ⟨sameId, undeclared⟩ := TaskConfig.of_task_eq_ok built
        rw [Workflow.addTask_of_undeclared workflow undeclared, sameId, if_pos known]
        rintro error ⟨⟩
        rfl
      · rw [idsValid_cons_iff known]
        refine and_congr_right fun headValid => ?_
        obtain ⟨task, built⟩ := TaskConfig.exists_task headValid
        obtain ⟨sameId, undeclared⟩ := TaskConfig.of_task_eq_ok built
        have later := ih { workflow with
          tasks := workflow.tasks.set taskConfig.taskId task } fun taskId member => by
            rcases OrderedDict.mem_set.mp member with rfl | old
            · exact headValid
            · exact valid taskId old
        simp only [OrderedDict.mem_set] at later
        rw [← later]
        simp only [built, Except.ok.injEq, forall_eq',
          Workflow.addTask_of_undeclared workflow undeclared, sameId, if_neg known]

/-- The workflow id is valid, and so is every task id before the first repeated
one. -/
structure WorkflowConfig.HasValidIds (config : WorkflowConfig) : Prop where
  workflowId : matchesIdPattern config.workflowId = true
  taskIds : ∀ earlier taskConfig later, config.tasks = earlier ++ taskConfig :: later →
    ((earlier ++ [taskConfig]).map TaskConfig.taskId).Nodup →
      matchesIdPattern taskConfig.taskId = true

theorem WorkflowConfig.HasValidIds.of_forall {config : WorkflowConfig}
    (workflowId : matchesIdPattern config.workflowId = true)
    (taskIds : ∀ taskConfig ∈ config.tasks, matchesIdPattern taskConfig.taskId = true) :
    config.HasValidIds := by
  refine ⟨workflowId, fun earlier taskConfig later split _ => taskIds taskConfig ?_⟩
  exact split ▸ List.mem_append_cons_self

/-- **Building reports its problems unless an id is invalid.** -/
theorem reports_buildWorkflow_iff {config : WorkflowConfig} :
    Reports (buildWorkflow config) ↔ config.HasValidIds := by
  have noneKnown : IdsValid (· ∈ (∅ : OrderedDict String Task)) config.tasks ↔
      ∀ earlier taskConfig later, config.tasks = earlier ++ taskConfig :: later →
        ((earlier ++ [taskConfig]).map TaskConfig.taskId).Nodup →
          matchesIdPattern taskConfig.taskId = true := by
    simp only [IdsValid, OrderedDict.not_mem_empty, not_false_eq_true, implies_true,
      forall_const]
  rw [buildWorkflow, Reports.bind_iff]
  by_cases valid : matchesIdPattern config.workflowId = true
  · have created := Workflow.create_of_valid config.description valid
    have registering := reports_registerTasks_iff config.tasks
      { workflowId := config.workflowId, description := config.description }
      fun taskId member => absurd member (OrderedDict.not_mem_empty taskId)
    rw [created]
    simp only [Except.ok.injEq, forall_eq', Reports.bind_iff, Reports.mapError, implies_true,
      and_true, registering]
    exact ⟨fun both => ⟨valid, noneKnown.mp both.2⟩,
      fun ids => ⟨.ok _, noneKnown.mpr ids.taskIds⟩⟩
  · refine iff_of_false (fun both => ?_) fun ids => valid ids.workflowId
    obtain ⟨message, created⟩ := Workflow.create_of_invalid config.description valid
    exact Bool.false_ne_true (both.1 _ created)

/-! ## Callables -/

/-- When no callable is missing, all of them can be looked up. -/
theorem bindCallables_isOk {registry : OrderedDict String TaskCallable}
    {taskConfigs : List TaskConfig} (present : ∀ task ∈ taskConfigs, task.callable ∈ registry) :
    ∀ bound, ∃ callables, bindCallables registry taskConfigs bound = .ok callables := by
  induction taskConfigs with
  | nil => exact fun bound => ⟨bound, rfl⟩
  | cons taskConfig rest ih =>
      intro bound
      obtain ⟨callable, found⟩ :=
        OrderedDict.exists_get?_of_mem (present taskConfig List.mem_cons_self)
      rw [bindCallables, found]
      exact ih (fun task member => present task (List.mem_cons_of_mem _ member)) _

/-- An unknown callable is reported as a `WorkflowConfigError`. -/
theorem raises_resolveCallables (config : WorkflowConfig)
    (registry : OrderedDict String TaskCallable) : Except.RaisesOnly
      (fun error => ∃ message, error = .orchestration (.workflowConfig message))
      (resolveCallables config registry) := by
  simp only [resolveCallables]
  split
  · exact Except.RaisesOnly.error_iff.mpr ⟨_, rfl⟩
  · rename_i noneMissing
    have present : ∀ task ∈ config.tasks, task.callable ∈ registry := by
      simpa [SortedSet.sorted_eq_nil_iff] using noneMissing
    obtain ⟨callables, bound⟩ := bindCallables_isOk present ∅
    rw [bound]
    exact .ok callables

theorem reports_resolveCallables (config : WorkflowConfig)
    (registry : OrderedDict String TaskCallable) : Reports (resolveCallables config registry) :=
  (raises_resolveCallables config registry).mono fun _ ⟨_, same⟩ => same ▸ rfl

/-! ## Files -/

/-- The YAML parser raises nothing but a `YAMLError` for the file, and if it has a
configuration then its ids are valid. -/
def ConfigReader.Recoverable (reader : ConfigReader) (path : String) : Prop :=
  ∀ text, reader.readText path = some text →
    (∀ error, reader.safeLoad text = .error (.other error) → error.isOrchestrationError = true) ∧
    ∀ raw config, reader.safeLoad text = .ok raw → reader.modelValidate raw = .ok config →
      config.HasValidIds

theorem loadWorkflowConfig_eq_ok_iff {reader : ConfigReader} {path : String}
    {config : WorkflowConfig} : loadWorkflowConfig reader path = .ok config ↔
      ∃ text raw, reader.readText path = some text ∧ reader.safeLoad text = .ok raw ∧
        reader.modelValidate raw = .ok config := by
  rw [loadWorkflowConfig]
  cases read : reader.readText path with
  | none => simp
  | some text =>
      cases loaded : reader.safeLoad text with
      | error failure => cases failure <;> simp [loaded]
      | ok raw => cases validated : reader.modelValidate raw <;> simp [loaded, validated]

/-- Only the parser makes reading raise something else than a
`WorkflowConfigError`. -/
theorem raises_loadWorkflowConfig_iff {kind : PyError → Prop}
    (reported : ∀ message, kind (.orchestration (.workflowConfig message)))
    {reader : ConfigReader} {path : String} :
    Except.RaisesOnly kind (loadWorkflowConfig reader path) ↔
      ∀ text, reader.readText path = some text →
        ∀ error, reader.safeLoad text = .error (.other error) → kind error := by
  rw [loadWorkflowConfig]
  cases read : reader.readText path with
  | none => simp [Except.RaisesOnly, reported]
  | some text =>
      cases loaded : reader.safeLoad text with
      | error failure => cases failure <;> simp [Except.RaisesOnly, loaded, reported]
      | ok raw =>
          cases validated : reader.modelValidate raw <;>
            simp [Except.RaisesOnly, loaded, validated, reported]

theorem reports_loadWorkflowConfig_iff {reader : ConfigReader} {path : String} :
    Reports (loadWorkflowConfig reader path) ↔ ∀ text, reader.readText path = some text →
      ∀ error, reader.safeLoad text = .error (.other error) →
        error.isOrchestrationError = true :=
  raises_loadWorkflowConfig_iff fun _ => rfl

/-- **Reading and building a file reports its problems exactly when the file is
recoverable.** -/
theorem recoverable_iff {reader : ConfigReader} {path : String} :
    reader.Recoverable path ↔ Reports (loadWorkflow reader path) := by
  simp only [loadWorkflow, Reports.bind_iff, reports_loadWorkflowConfig_iff,
    reports_buildWorkflow_iff, loadWorkflowConfig_eq_ok_iff]
  constructor
  · exact fun recoverable => ⟨fun text read => (recoverable text read).1,
      fun config ⟨text, raw, read, loaded, validated⟩ =>
        (recoverable text read).2 raw config loaded validated⟩
  · exact fun both text read => ⟨both.1 text read,
      fun raw config loaded validated => both.2 config ⟨text, raw, read, loaded, validated⟩⟩

end EtlOrchestrator
