import EtlOrchestrator.Config.Errors
import EtlOrchestrator.Dag.SameGraph
import EtlOrchestrator.Engine.Configuration

/-!
# What building a workflow accepts, and what it returns

Three passes go over the entries of a configuration: the first registers the tasks, the
second wires their dependencies, and `resolve_callables` looks up the callables. The first two
are described by what they can end with (`Registering`, `WiringAll`), and an error names the
first entry at fault.

Together they accept a configuration if its ids are distinct and each dependency is another
configured task, and the engine accepts the result if the configured graph has no cycle. None
of this depends on the order of the entries (`buildWorkflow_correct`).
-/

set_option autoImplicit false

namespace EtlOrchestrator

open SortedSet Relation

/-! ## The first pass -/

/-- What the first loop can end with: all entries are registered behind the tasks that were
there, or the id of an entry is taken. -/
inductive Registering (workflow : Workflow) (taskConfigs : List TaskConfig) :
    Except PyError Workflow → Prop where
  | registered {tasks : OrderedDict String Task} {added : List (String × Task)}
      (distinct : (taskConfigs.map TaskConfig.taskId).Nodup)
      (new : ∀ taskConfig ∈ taskConfigs, taskConfig.taskId ∉ workflow.tasks)
      (entries : tasks.entries = workflow.tasks.entries ++ added)
      (built : List.Forall₂ (fun taskConfig entry =>
        entry.1 = taskConfig.taskId ∧ taskConfig.task = .ok entry.2) taskConfigs added) :
      Registering workflow taskConfigs (.ok { workflow with tasks })
  | duplicate {earlier later : List TaskConfig} {taskConfig : TaskConfig}
      (split : taskConfigs = earlier ++ taskConfig :: later)
      (distinct : (earlier.map TaskConfig.taskId).Nodup)
      (new : ∀ other ∈ earlier, other.taskId ∉ workflow.tasks)
      (taken : taskConfig.taskId ∈ workflow.tasks ∨
        taskConfig.taskId ∈ earlier.map TaskConfig.taskId) :
      Registering workflow taskConfigs
        (.error (.orchestration (.duplicateTask taskConfig.taskId)))

/-- One more entry in front, with a new id. -/
theorem Registering.cons {workflow : Workflow} {taskConfig : TaskConfig} {rest : List TaskConfig}
    {task : Task} {result : Except PyError Workflow} (new : taskConfig.taskId ∉ workflow.tasks)
    (built : taskConfig.task = .ok task)
    (later : Registering { workflow with tasks := workflow.tasks.set taskConfig.taskId task } rest
      result) : Registering workflow (taskConfig :: rest) result := by
  cases later with
  | registered distinct unknown entries tasks =>
      obtain ⟨different, allNew⟩ :=
        OrderedDict.apart_of_new new (List.forall_mem_map.mpr unknown)
      rw [OrderedDict.entries_set_of_not_mem task new, List.append_assoc] at entries
      refine .registered (List.nodup_cons.mpr ⟨different, distinct⟩) (fun other member => ?_)
        entries (.cons ⟨rfl, built⟩ tasks)
      exact allNew other.taskId (List.mem_map_of_mem (f := TaskConfig.taskId) member)
  | @duplicate earlier later repeated split distinct unknown taken =>
      obtain ⟨different, allNew⟩ :=
        OrderedDict.apart_of_new new (List.forall_mem_map.mpr unknown)
      refine .duplicate
        (show taskConfig :: rest = (taskConfig :: earlier) ++ repeated :: later by rw [split]; rfl)
        (List.nodup_cons.mpr ⟨different, distinct⟩) (fun other member => ?_) ?_
      · exact allNew other.taskId (List.mem_map_of_mem (f := TaskConfig.taskId) member)
      · rw [OrderedDict.mem_set] at taken
        rw [List.map_cons, List.mem_cons]
        exact or_left_comm.mp (or_assoc.mp taken)

/-- **The first loop registers all entries, or reports the first id that is repeated.** -/
theorem registering (taskConfigs : List TaskConfig)
    (valid : ∀ taskConfig ∈ taskConfigs, matchesIdPattern taskConfig.taskId = true) :
    ∀ workflow : Workflow,
      Registering workflow taskConfigs (registerTasks workflow taskConfigs) := by
  induction taskConfigs with
  | nil =>
      intro workflow
      exact .registered List.nodup_nil (List.forall_mem_nil _) (List.append_nil _).symm .nil
  | cons taskConfig rest ih =>
      intro workflow
      obtain ⟨headValid, restValid⟩ := List.forall_mem_cons.mp valid
      obtain ⟨task, built⟩ := TaskConfig.exists_task headValid
      obtain ⟨sameId, undeclared⟩ := TaskConfig.of_task_eq_ok built
      rw [registerTasks, built, Except.ok_bind, Workflow.addTask_of_undeclared workflow undeclared,
        sameId]
      by_cases taken : taskConfig.taskId ∈ workflow.tasks
      · rw [if_pos taken]
        exact .duplicate (List.nil_append (taskConfig :: rest)).symm List.nodup_nil
          (List.forall_mem_nil _) (.inl taken)
      · rw [if_neg taken]
        exact .cons taken built (ih restValid _)

/-! ## The second pass -/

/-- The dependencies that are declared, in the order of the file. -/
def declarations (taskConfigs : List TaskConfig) : List (String × String) :=
  taskConfigs.flatMap fun taskConfig => taskConfig.dependsOn.map fun up => (taskConfig.taskId, up)

/-- A declared dependency can be wired: it is another task. -/
def Wirable (workflow : Workflow) (declaration : String × String) : Prop :=
  declaration.2 ∈ workflow.tasks ∧ declaration.2 ≠ declaration.1

/-- What wiring can end with: all declarations are wired, or one cannot be. -/
inductive WiringAll (workflow : Workflow) (declared : List (String × String)) :
    Except OrchestrationError Workflow → Prop where
  | wired {dependencies : OrderedDict String (Finset String)}
      (wirable : ∀ declaration ∈ declared, Wirable workflow declaration)
      (edge : ∀ up task, { workflow with dependencies }.Edge up task ↔
        workflow.Edge up task ∨ (task, up) ∈ declared) :
      WiringAll workflow declared (.ok { workflow with dependencies })
  | unknown {earlier later : List (String × String)} {task up : String}
      (split : declared = earlier ++ (task, up) :: later)
      (wirable : ∀ declaration ∈ earlier, Wirable workflow declaration)
      (missing : up ∉ workflow.tasks) :
      WiringAll workflow declared
        (.error (.workflowConfig s!"task '{task}' depends on unknown task '{up}'"))
  | self {earlier later : List (String × String)} {task : String}
      (split : declared = earlier ++ (task, task) :: later)
      (wirable : ∀ declaration ∈ earlier, Wirable workflow declaration) :
      WiringAll workflow declared (.error (.selfDependency task))

namespace WiringAll

variable {workflow : Workflow}

theorem refl (workflow : Workflow) : WiringAll workflow [] (.ok workflow) :=
  .wired (List.forall_mem_nil _) fun _ _ => (or_iff_left List.not_mem_nil).symm

/-- More declarations behind those that were wired. -/
theorem append {first second : List (String × String)} {wired : Workflow}
    {result : Except OrchestrationError Workflow} (earlier : WiringAll workflow first (.ok wired))
    (later : WiringAll wired second result) : WiringAll workflow (first ++ second) result := by
  obtain ⟨firstWirable, firstEdge⟩ := earlier
  cases later with
  | wired wirable edge =>
      refine .wired (List.forall_mem_append.mpr ⟨firstWirable, wirable⟩) fun up task => ?_
      rw [edge, firstEdge, List.mem_append, or_assoc]
  | unknown split wirable missing =>
      exact .unknown (by rw [split, List.append_assoc])
        (List.forall_mem_append.mpr ⟨firstWirable, wirable⟩) missing
  | self split wirable =>
      exact .self (by rw [split, List.append_assoc])
        (List.forall_mem_append.mpr ⟨firstWirable, wirable⟩)

/-- Declarations behind the one at fault are not looked at. -/
theorem append_of_error {first : List (String × String)} {error : OrchestrationError}
    (raised : WiringAll workflow first (.error error)) (second : List (String × String)) :
    WiringAll workflow (first ++ second) (.error error) := by
  cases raised with
  | unknown split wirable missing =>
      exact .unknown (by rw [split, List.append_assoc, List.cons_append]) wirable missing
  | self split wirable => exact .self (by rw [split, List.append_assoc, List.cons_append]) wirable

end WiringAll

/-- One declaration is wired, or reported. -/
theorem wiringAll_single {workflow : Workflow} {taskId : String}
    (known : taskId ∈ workflow.tasks) (up : String) :
    WiringAll workflow [(taskId, up)] (wireUpstreams workflow taskId [up]) := by
  by_cases upKnown : up ∈ workflow.tasks
  · by_cases same : taskId = up
    · subst same
      rw [wireUpstreams, Workflow.addDependency, if_neg (not_not.mpr known),
        if_neg (not_not.mpr known), if_pos rfl]
      exact .self (List.nil_append _).symm (List.forall_mem_nil _)
    · have added := Workflow.addDependency_eq_ok_iff.mpr ⟨upKnown, known, same, rfl⟩
      rw [wireUpstreams, added]
      refine .wired (List.forall_mem_singleton.mpr ⟨upKnown, Ne.symm same⟩) fun other task => ?_
      rw [Workflow.edge_of_addDependency added, List.mem_singleton, Prod.mk.injEq, and_comm]
  · rw [wireUpstreams, Workflow.addDependency, if_pos upKnown]
    exact .unknown (List.nil_append _).symm (List.forall_mem_nil _) upKnown

theorem wiringAll_wireUpstreams {taskId : String} (ups : List String) : ∀ {workflow : Workflow},
    taskId ∈ workflow.tasks →
      WiringAll workflow (ups.map fun up => (taskId, up)) (wireUpstreams workflow taskId ups) := by
  induction ups with
  | nil => exact fun _ => .refl _
  | cons up rest ih =>
      intro workflow known
      have first := wiringAll_single known up
      rw [List.map_cons, ← List.singleton_append]
      rw [wireUpstreams] at first ⊢
      cases outcome : workflow.addDependency taskId up with
      | error error =>
          rw [outcome] at first
          cases error <;> exact first.append_of_error _
      | ok wired =>
          rw [outcome] at first
          refine first.append (ih ?_)
          rwa [(wired_of_addDependency outcome).tasks]

/-- **The second loop wires all declarations, or reports the first one at fault.** -/
theorem wiringAll_wireTasks (taskConfigs : List TaskConfig) : ∀ {workflow : Workflow},
    (∀ taskConfig ∈ taskConfigs, taskConfig.taskId ∈ workflow.tasks) →
      WiringAll workflow (declarations taskConfigs) (wireTasks workflow taskConfigs) := by
  induction taskConfigs with
  | nil => exact fun _ => .refl _
  | cons taskConfig rest ih =>
      intro workflow known
      obtain ⟨headKnown, restKnown⟩ := List.forall_mem_cons.mp known
      have first := wiringAll_wireUpstreams taskConfig.dependsOn headKnown
      rw [declarations, List.flatMap_cons, wireTasks]
      cases outcome : wireUpstreams workflow taskConfig.taskId taskConfig.dependsOn with
      | error error =>
          rw [outcome] at first
          exact first.append_of_error _
      | ok wired =>
          have sameTasks := (wired_of_wireUpstreams _ outcome).tasks
          rw [outcome] at first
          refine first.append (ih fun other member => ?_)
          rw [sameTasks]
          exact restKnown other member

/-! ## Building -/

namespace WorkflowConfig

variable {config : WorkflowConfig}

/-- The ids are distinct, and each declared dependency is another configured task. -/
structure Buildable (config : WorkflowConfig) : Prop where
  distinct : (config.tasks.map TaskConfig.taskId).Nodup
  known : ∀ taskConfig ∈ config.tasks, ∀ up ∈ taskConfig.dependsOn,
    up ∈ config.tasks.map TaskConfig.taskId
  noSelf : ∀ taskConfig ∈ config.tasks, taskConfig.taskId ∉ taskConfig.dependsOn

/-- A declared dependency names another configured task. -/
def Sensible (config : WorkflowConfig) (declaration : String × String) : Prop :=
  declaration.2 ∈ config.tasks.map TaskConfig.taskId ∧ declaration.2 ≠ declaration.1

/-- The first fault of a configuration, and what it is reported as: a repeated id, or when
there is none the first declared dependency that names no configured task, or the task
itself. -/
inductive FirstFault (config : WorkflowConfig) : PyError → Prop where
  | duplicate {earlier later : List TaskConfig} {taskConfig : TaskConfig}
      (split : config.tasks = earlier ++ taskConfig :: later)
      (distinct : (earlier.map TaskConfig.taskId).Nodup)
      (taken : taskConfig.taskId ∈ earlier.map TaskConfig.taskId) :
      FirstFault config (.orchestration (.duplicateTask taskConfig.taskId))
  | unknown {earlier later : List (String × String)} {task up : String}
      (distinct : (config.tasks.map TaskConfig.taskId).Nodup)
      (split : declarations config.tasks = earlier ++ (task, up) :: later)
      (sensible : ∀ declaration ∈ earlier, config.Sensible declaration)
      (missing : up ∉ config.tasks.map TaskConfig.taskId) :
      FirstFault config (.orchestration (.workflowConfig
        s!"task '{task}' depends on unknown task '{up}'"))
  | self {earlier later : List (String × String)} {task : String}
      (distinct : (config.tasks.map TaskConfig.taskId).Nodup)
      (split : declarations config.tasks = earlier ++ (task, task) :: later)
      (sensible : ∀ declaration ∈ earlier, config.Sensible declaration) :
      FirstFault config (.orchestration (.selfDependency task))

/-- A repeated id is not distinct. -/
theorem not_distinct_of_taken {earlier later : List TaskConfig} {taskConfig : TaskConfig}
    (split : config.tasks = earlier ++ taskConfig :: later)
    (taken : taskConfig.taskId ∈ earlier.map TaskConfig.taskId) :
    ¬ (config.tasks.map TaskConfig.taskId).Nodup := by
  intro nodup
  rw [split, List.map_append] at nodup
  exact List.disjoint_of_nodup_append nodup taken List.mem_cons_self

/-- A task has the id, the description and the retry policy of an entry. -/
structure Carries (taskConfig : TaskConfig) (task : Task) : Prop where
  taskId : task.taskId = taskConfig.taskId
  description : task.description = taskConfig.description
  maxAttempts : task.maxAttempts = taskConfig.maxAttempts
  backoffSeconds : task.backoffSeconds = taskConfig.backoffSeconds
  backoffMultiplier : task.backoffMultiplier = taskConfig.backoffMultiplier

theorem carries_of_eq_ok {taskConfig : TaskConfig} {task : Task}
    (built : taskConfig.task = .ok task) : Carries taskConfig task := by
  obtain ⟨_, rfl⟩ := TaskConfig.task_eq_ok_iff.mp built
  exact ⟨rfl, rfl, rfl, rfl, rfl⟩

/-- What a configuration stands for: its tasks with their retry policies, in the order of the
entries, and as upstreams of a task what it declares. -/
structure Builds (config : WorkflowConfig) (workflow : Workflow) : Prop where
  workflowId : workflow.workflowId = config.workflowId
  description : workflow.description = config.description
  tasks : List.Forall₂ (fun taskConfig entry =>
    entry.1 = taskConfig.taskId ∧ Carries taskConfig entry.2) config.tasks
    workflow.tasks.entries
  upstream : ∀ taskConfig ∈ config.tasks,
    workflow.upstream taskConfig.taskId = taskConfig.dependsOn.toFinset
  edge : workflow.Edge = config.DependsOn
  closed : workflow.Closed

theorem mem_declarations {taskConfigs : List TaskConfig} {task up : String} :
    (task, up) ∈ declarations taskConfigs ↔
      ∃ taskConfig ∈ taskConfigs, up ∈ taskConfig.dependsOn ∧ task = taskConfig.taskId := by
  simp only [declarations, List.mem_flatMap, List.mem_map, Prod.mk.injEq]
  refine exists_congr fun taskConfig => and_congr_right fun _ => ?_
  exact ⟨fun ⟨_, member, same, rfl⟩ => ⟨member, same.symm⟩,
    fun ⟨member, same⟩ => ⟨up, member, same.symm, rfl⟩⟩

/-- The dependencies of a configuration are sensible if and only if each one is. -/
theorem sensible_iff : (∀ declaration ∈ declarations config.tasks, config.Sensible declaration) ↔
    (∀ taskConfig ∈ config.tasks, ∀ up ∈ taskConfig.dependsOn,
      up ∈ config.tasks.map TaskConfig.taskId) ∧
    ∀ taskConfig ∈ config.tasks, taskConfig.taskId ∉ taskConfig.dependsOn := by
  constructor
  · intro sensible
    have each : ∀ taskConfig ∈ config.tasks, ∀ up ∈ taskConfig.dependsOn,
        config.Sensible (taskConfig.taskId, up) := fun taskConfig member up declared =>
      sensible _ (mem_declarations.mpr ⟨taskConfig, member, declared, rfl⟩)
    exact ⟨fun taskConfig member up declared => (each taskConfig member up declared).1,
      fun taskConfig member declared => (each taskConfig member _ declared).2 rfl⟩
  · rintro ⟨known, noSelf⟩ ⟨task, up⟩ declared
    obtain ⟨taskConfig, member, declares, rfl⟩ := mem_declarations.mp declared
    exact ⟨known taskConfig member up declares, fun same : up = taskConfig.taskId =>
      noSelf taskConfig member (same ▸ declares)⟩

/-- The ids of the entries are the keys of the tasks. -/
theorem keys_of_built {taskConfigs : List TaskConfig} {entries : List (String × Task)}
    (built : List.Forall₂ (fun taskConfig entry => entry.1 = taskConfig.taskId)
      taskConfigs entries) :
    entries.map Prod.fst = taskConfigs.map TaskConfig.taskId := by
  induction built with
  | nil => rfl
  | cons same _ ih => rw [List.map_cons, List.map_cons, same, ih]

/-- With distinct ids, the upstreams of a task are what its entry declares. -/
theorem dependsOn_iff (distinct : (config.tasks.map TaskConfig.taskId).Nodup)
    {taskConfig : TaskConfig} (member : taskConfig ∈ config.tasks) {up : String} :
    config.DependsOn up taskConfig.taskId ↔ up ∈ taskConfig.dependsOn := by
  constructor
  · rintro ⟨other, otherMember, declared, same⟩
    rwa [List.inj_on_of_nodup_map distinct member otherMember same]
  · exact fun declared => ⟨taskConfig, member, declared, rfl⟩

/-- A declaration at fault is what a buildable configuration does not have. -/
theorem not_buildable_of_mem {declaration : String × String}
    (declared : declaration ∈ declarations config.tasks) (fault : ¬ config.Sensible declaration) :
    ¬ config.Buildable := fun buildable =>
  fault (sensible_iff.mpr ⟨buildable.known, buildable.noSelf⟩ declaration declared)

/-- The second loop after the first one has registered the configured tasks. -/
theorem wireTasks_cases (registered : Workflow)
    (distinct : (config.tasks.map TaskConfig.taskId).Nodup)
    (mem_tasks : ∀ taskId, taskId ∈ registered.tasks ↔
      taskId ∈ config.tasks.map TaskConfig.taskId) :
    (config.Buildable ∧ ∃ dependencies, wireTasks registered config.tasks =
        .ok { registered with dependencies }) ∨
      (¬ config.Buildable ∧ ∃ error, wireTasks registered config.tasks = .error error ∧
        config.FirstFault (.orchestration error)) := by
  have wires := wiringAll_wireTasks config.tasks fun taskConfig member =>
    (mem_tasks taskConfig.taskId).mpr (List.mem_map_of_mem member)
  have sensible : ∀ {declared : List (String × String)},
      (∀ declaration ∈ declared, Wirable registered declaration) →
        ∀ declaration ∈ declared, config.Sensible declaration :=
    fun wirable declaration member => by
      obtain ⟨known, different⟩ := wirable declaration member
      exact ⟨(mem_tasks declaration.2).mp known, different⟩
  cases outcome : wireTasks registered config.tasks with
  | ok workflow =>
      rw [outcome] at wires
      obtain @⟨dependencies, wirable, _⟩ := wires
      obtain ⟨known, noSelf⟩ := sensible_iff.mp (sensible wirable)
      exact .inl ⟨⟨distinct, known, noSelf⟩, dependencies, rfl⟩
  | error error =>
      rw [outcome] at wires
      refine .inr ?_
      cases wires with
      | @unknown earlier later task up split wirable missing =>
          have notTask := (mem_tasks up).not.mp missing
          have declared : (task, up) ∈ declarations config.tasks :=
            split ▸ List.mem_append_cons_self
          exact ⟨not_buildable_of_mem declared fun names => notTask names.1, _, rfl,
            .unknown distinct split (sensible wirable) notTask⟩
      | @self earlier later task split wirable =>
          have declared : (task, task) ∈ declarations config.tasks :=
            split ▸ List.mem_append_cons_self
          exact ⟨not_buildable_of_mem declared fun names => names.2 rfl, _, rfl,
            .self distinct split (sensible wirable)⟩

/-- **Building returns what the configuration stands for if it is buildable, and otherwise
reports its first fault.** -/
theorem buildWorkflow_cases (validId : matchesIdPattern config.workflowId = true)
    (validIds : ∀ taskConfig ∈ config.tasks, matchesIdPattern taskConfig.taskId = true) :
    (config.Buildable ∧ ∃ workflow, buildWorkflow config = .ok workflow ∧
        config.Builds workflow) ∨
      (¬ config.Buildable ∧ ∃ error, buildWorkflow config = .error error ∧
        config.FirstFault error) := by
  have created := Workflow.create_of_valid config.description validId
  have first := registering config.tasks validIds
    { workflowId := config.workflowId, description := config.description }
  cases registers : registerTasks
      { workflowId := config.workflowId, description := config.description } config.tasks with
  | error error =>
      have runs : buildWorkflow config = .error error := by
        rw [buildWorkflow, created, Except.ok_bind, registers, Except.error_bind]
      rw [registers] at first
      obtain _ | ⟨split, distinct, _, taken⟩ := first
      have repeated := taken.resolve_left (OrderedDict.not_mem_empty _)
      exact .inr ⟨fun buildable => not_distinct_of_taken split repeated buildable.distinct, _, runs,
        .duplicate split distinct repeated⟩
  | ok registered =>
      have runs : buildWorkflow config =
          (wireTasks registered config.tasks).mapError .orchestration := by
        rw [buildWorkflow, created, Except.ok_bind, registers, Except.ok_bind]
      rw [registers] at first
      obtain @⟨tasks, added, distinct, _, entries, built⟩ := first
      rw [show added = tasks.entries from entries.symm] at built
      have mem_tasks : ∀ taskId, taskId ∈ tasks ↔
          taskId ∈ config.tasks.map TaskConfig.taskId := fun taskId => by
        rw [← keys_of_built (built.imp fun _ _ same => same.1)]
        exact Iff.rfl
      rcases wireTasks_cases
          { workflowId := config.workflowId, description := config.description, tasks }
          distinct mem_tasks with
        ⟨buildable, dependencies, wires⟩ | ⟨notBuildable, error, wires, fault⟩
      · rw [wires] at runs
        obtain ⟨_, edges, closed⟩ := buildWorkflow_spec runs
        refine .inl ⟨buildable, _, runs, rfl, rfl, built.imp fun taskConfig entry same =>
          ⟨same.1, carries_of_eq_ok same.2⟩, fun taskConfig member => ?_, edges, closed⟩
        ext up
        rw [List.mem_toFinset, ← dependsOn_iff distinct member, ← edges]
        exact Iff.rfl
      · rw [wires] at runs
        exact .inr ⟨notBuildable, _, runs, fault⟩

/-! ## The engine -/

/-- The callables that are bound are those of the entries. -/
theorem mem_bindCallables {registry : OrderedDict String TaskCallable}
    (taskConfigs : List TaskConfig) : ∀ {before after : OrderedDict String TaskCallable},
      bindCallables registry taskConfigs before = .ok after → ∀ taskId,
        (taskId ∈ after ↔ taskId ∈ before ∨ taskId ∈ taskConfigs.map TaskConfig.taskId) := by
  induction taskConfigs with
  | nil =>
      intro before after bound taskId
      cases bound
      exact (or_iff_left List.not_mem_nil).symm
  | cons taskConfig rest ih =>
      intro before after bound taskId
      rw [bindCallables] at bound
      split at bound
      · cases bound
      · rw [ih bound, OrderedDict.mem_set, List.map_cons, List.mem_cons, or_assoc]
        exact or_left_comm

/-- The callables of a configuration are resolved if and only if the registry has them. -/
theorem resolveCallables_eq_ok_iff {registry : OrderedDict String TaskCallable} :
    (∃ callables, resolveCallables config registry = .ok callables) ↔
      ∀ taskConfig ∈ config.tasks, taskConfig.callable ∈ registry := by
  simp only [resolveCallables]
  split
  · rename_i missing
    refine iff_of_false ?_ fun present => missing ?_
    · rintro ⟨callables, resolved⟩
      cases resolved
    · simpa [sorted_eq_nil_iff] using present
  · rename_i noneMissing
    have present : ∀ task ∈ config.tasks, task.callable ∈ registry := by
      simpa [sorted_eq_nil_iff] using noneMissing
    exact iff_of_true (bindCallables_isOk present ∅) present

theorem mem_resolveCallables {registry callables : OrderedDict String TaskCallable}
    (resolved : resolveCallables config registry = .ok callables) (taskId : String) :
    taskId ∈ callables ↔ taskId ∈ config.tasks.map TaskConfig.taskId := by
  simp only [resolveCallables] at resolved
  split at resolved
  · cases resolved
  · rw [mem_bindCallables config.tasks resolved]
    exact or_iff_right (OrderedDict.not_mem_empty taskId)

theorem Builds.mem_tasks {workflow : Workflow} (builds : config.Builds workflow)
    (taskId : String) :
    taskId ∈ workflow.tasks ↔ taskId ∈ config.tasks.map TaskConfig.taskId := by
  rw [← keys_of_built (builds.tasks.imp fun _ _ same => same.1)]
  exact Iff.rfl

/-- What is built is valid exactly when the configured graph has no cycle. -/
theorem Builds.valid_iff {workflow : Workflow} (builds : config.Builds workflow) :
    workflow.Valid ↔ config.Acyclic := by
  rw [WorkflowConfig.Acyclic, ← builds.edge]
  refine ⟨Workflow.Valid.acyclic, fun acyclic => ⟨?_, builds.closed, acyclic⟩⟩
  obtain ⟨taskConfig, member⟩ := List.exists_mem_of_ne_nil _ config.nonempty
  exact List.ne_nil_of_mem ((builds.mem_tasks taskConfig.taskId).mpr (List.mem_map_of_mem member))

/-- The constructor of the engine accepts what is built, with the resolved callables. -/
def EngineAccepts (config : WorkflowConfig) (registry : OrderedDict String TaskCallable)
    (taskParams : OrderedDict String Params) (maxWorkers : ℤ) : Prop :=
  ∃ workflow callables engine, buildWorkflow config = .ok workflow ∧
    resolveCallables config registry = .ok callables ∧
    WorkflowEngine.init workflow callables taskParams maxWorkers = .ok engine

/-- **The engine accepts a buildable configuration whose callables are known if and only if the
configured graph has no cycle.** -/
theorem engineAccepts_iff {registry : OrderedDict String TaskCallable}
    {taskParams : OrderedDict String Params} {maxWorkers : ℤ}
    (validId : matchesIdPattern config.workflowId = true)
    (validIds : ∀ taskConfig ∈ config.tasks, matchesIdPattern taskConfig.taskId = true) :
    config.EngineAccepts registry taskParams maxWorkers ↔ config.Buildable ∧
      (∀ taskConfig ∈ config.tasks, taskConfig.callable ∈ registry) ∧ 1 ≤ maxWorkers ∧
      config.Acyclic := by
  rcases buildWorkflow_cases validId validIds with
    ⟨buildable, workflow, runs, builds⟩ | ⟨notBuildable, error, runs, _⟩
  · rw [← builds.valid_iff, ← resolveCallables_eq_ok_iff, and_iff_right buildable]
    constructor
    · rintro ⟨built, callables, engine, same, resolved, accepted⟩
      cases runs.symm.trans same
      have accepts := WorkflowEngine.init_eq_ok_iff.mp
        ⟨engine, accepted, WorkflowEngine.of_init_eq_ok accepted⟩
      exact ⟨⟨callables, resolved⟩, accepts.1, accepts.2.1⟩
    · rintro ⟨⟨callables, resolved⟩, enough, valid⟩
      obtain ⟨engine, accepted, _⟩ := WorkflowEngine.init_eq_ok_iff.mpr ⟨enough, valid,
        fun taskId => (mem_resolveCallables resolved taskId).trans (builds.mem_tasks taskId).symm⟩
      exact ⟨workflow, callables, engine, runs, resolved, accepted⟩
  · refine iff_of_false ?_ fun ⟨buildable, _⟩ => notBuildable buildable
    rintro ⟨built, _, _, same, _⟩
    cases runs.symm.trans same

/-! ## The order of the entries -/

/-- The same workflow id, and the same entries in another order. -/
structure Permutes (other config : WorkflowConfig) : Prop where
  workflowId : other.workflowId = config.workflowId
  tasks : other.tasks.Perm config.tasks

namespace Permutes

variable {other : WorkflowConfig}

theorem symm (permutes : other.Permutes config) : config.Permutes other :=
  ⟨permutes.workflowId.symm, permutes.tasks.symm⟩

theorem mem_ids (permutes : other.Permutes config) (taskId : String) :
    taskId ∈ other.tasks.map TaskConfig.taskId ↔ taskId ∈ config.tasks.map TaskConfig.taskId :=
  (permutes.tasks.map _).mem_iff

theorem forall_iff (permutes : other.Permutes config) {P : TaskConfig → Prop} :
    (∀ taskConfig ∈ other.tasks, P taskConfig) ↔ ∀ taskConfig ∈ config.tasks, P taskConfig :=
  forall_congr' fun _ => imp_congr_left permutes.tasks.mem_iff

theorem buildable_iff (permutes : other.Permutes config) : other.Buildable ↔ config.Buildable := by
  have iff : ∀ {first second : WorkflowConfig}, first.Permutes second →
      second.Buildable → first.Buildable := fun permutes buildable =>
    ⟨(permutes.tasks.map _).nodup_iff.mpr buildable.distinct,
      permutes.forall_iff.mpr fun taskConfig member up declared =>
        (permutes.mem_ids up).mpr (buildable.known taskConfig member up declared),
      permutes.forall_iff.mpr buildable.noSelf⟩
  exact ⟨iff permutes.symm, iff permutes⟩

theorem dependsOn_eq (permutes : other.Permutes config) : other.DependsOn = config.DependsOn := by
  funext up task
  exact propext (exists_congr fun _ => and_congr_left fun _ => permutes.tasks.mem_iff)

theorem acyclic_iff (permutes : other.Permutes config) : other.Acyclic ↔ config.Acyclic := by
  rw [WorkflowConfig.Acyclic, WorkflowConfig.Acyclic, permutes.dependsOn_eq]

theorem sameGraph (permutes : other.Permutes config) {first second : Workflow}
    (firstBuilds : other.Builds first) (secondBuilds : config.Builds second) :
    Workflow.SameGraph first second := by
  refine ⟨?_, by rw [firstBuilds.edge, secondBuilds.edge, permutes.dependsOn_eq]⟩
  ext taskId
  rw [OrderedDict.mem_keySet, OrderedDict.mem_keySet, firstBuilds.mem_tasks,
    secondBuilds.mem_tasks, permutes.mem_ids]

end Permutes

/-- What a configuration and one with the same entries in another order have in common. -/
structure SameVerdict (other config : WorkflowConfig) : Prop where
  builds : (∃ workflow, buildWorkflow other = .ok workflow) ↔
    ∃ workflow, buildWorkflow config = .ok workflow
  accepts : ∀ registry taskParams maxWorkers,
    other.EngineAccepts registry taskParams maxWorkers ↔
      config.EngineAccepts registry taskParams maxWorkers
  order : ∀ first second, buildWorkflow other = .ok first → buildWorkflow config = .ok second →
    first.topologicalOrder = second.topologicalOrder

/-- A workflow is returned if and only if the configuration is buildable. -/
theorem buildWorkflow_isOk_iff (validId : matchesIdPattern config.workflowId = true)
    (validIds : ∀ taskConfig ∈ config.tasks, matchesIdPattern taskConfig.taskId = true) :
    (∃ workflow, buildWorkflow config = .ok workflow) ↔ config.Buildable := by
  rcases buildWorkflow_cases validId validIds with
    ⟨buildable, workflow, runs, _⟩ | ⟨notBuildable, error, runs, _⟩
  · exact iff_of_true ⟨workflow, runs⟩ buildable
  · refine iff_of_false ?_ notBuildable
    rintro ⟨built, same⟩
    cases runs.symm.trans same

theorem builds_of_eq_ok (validId : matchesIdPattern config.workflowId = true)
    (validIds : ∀ taskConfig ∈ config.tasks, matchesIdPattern taskConfig.taskId = true)
    {workflow : Workflow} (built : buildWorkflow config = .ok workflow) :
    config.Builds workflow := by
  rcases buildWorkflow_cases validId validIds with ⟨_, _, runs, builds⟩ | ⟨_, _, runs, _⟩
  · cases runs.symm.trans built
    exact builds
  · cases runs.symm.trans built

theorem Permutes.sameVerdict {other : WorkflowConfig} (permutes : other.Permutes config)
    (validId : matchesIdPattern config.workflowId = true)
    (validIds : ∀ taskConfig ∈ config.tasks, matchesIdPattern taskConfig.taskId = true) :
    other.SameVerdict config := by
  have otherId : matchesIdPattern other.workflowId = true := permutes.workflowId ▸ validId
  have otherIds : ∀ taskConfig ∈ other.tasks, matchesIdPattern taskConfig.taskId = true :=
    permutes.forall_iff.mpr validIds
  refine ⟨?_, fun registry taskParams maxWorkers => ?_, fun first second built otherBuilt => ?_⟩
  · rw [buildWorkflow_isOk_iff otherId otherIds, buildWorkflow_isOk_iff validId validIds,
      permutes.buildable_iff]
  · rw [engineAccepts_iff otherId otherIds, engineAccepts_iff validId validIds,
      permutes.buildable_iff, permutes.forall_iff, permutes.acyclic_iff]
  · have firstBuilds := builds_of_eq_ok otherId otherIds built
    have secondBuilds := builds_of_eq_ok validId validIds otherBuilt
    exact (permutes.sameGraph firstBuilds secondBuilds).topologicalOrder_eq firstBuilds.closed
      secondBuilds.closed

/-- **For valid ids, building returns exactly for buildable configurations and reports the
first fault of the others; it returns what the configuration stands for; the engine then
accepts exactly the graphs without cycles; and the order of the entries does not matter.** -/
theorem buildWorkflow_correct (config : WorkflowConfig)
    (validId : matchesIdPattern config.workflowId = true)
    (validIds : ∀ taskConfig ∈ config.tasks, matchesIdPattern taskConfig.taskId = true) :
    ((∃ workflow, buildWorkflow config = .ok workflow) ↔ config.Buildable) ∧
      (∀ error, buildWorkflow config = .error error → config.FirstFault error) ∧
      (∀ workflow, buildWorkflow config = .ok workflow → config.Builds workflow) ∧
      (∀ registry taskParams maxWorkers, (∃ workflow, buildWorkflow config = .ok workflow) →
        (∀ taskConfig ∈ config.tasks, taskConfig.callable ∈ registry) → 1 ≤ maxWorkers →
          (config.EngineAccepts registry taskParams maxWorkers ↔ config.Acyclic)) ∧
      ∀ other : WorkflowConfig, other.Permutes config → other.SameVerdict config := by
  refine ⟨buildWorkflow_isOk_iff validId validIds, fun error raised => ?_,
    fun workflow built => builds_of_eq_ok validId validIds built,
    fun registry taskParams maxWorkers built known enough => ?_,
    fun other permutes => permutes.sameVerdict validId validIds⟩
  · rcases buildWorkflow_cases validId validIds with ⟨_, _, runs, _⟩ | ⟨_, _, runs, fault⟩
    · cases runs.symm.trans raised
    · cases runs.symm.trans raised
      exact fault
  · rw [engineAccepts_iff validId validIds, and_iff_right known, and_iff_right enough]
    exact and_iff_right ((buildWorkflow_isOk_iff validId validIds).mp built)

/-- Two tasks, the first of which refers to the second one. -/
def forward : WorkflowConfig where
  workflowId := "forward"
  tasks := [{ taskId := "report", callable := "echo", dependsOn := ["gather", "gather"] },
    { taskId := "gather", callable := "echo" }]

theorem buildWorkflow_correct_forward : ∃ workflow, buildWorkflow forward = .ok workflow ∧
    workflow.upstream "report" = {"gather"} ∧ workflow.topologicalOrder =
      .ok ["gather", "report"] := by
  obtain ⟨_, _, builds, _⟩ := buildWorkflow_correct forward (by decide) (by decide)
  have valid : (buildWorkflow forward).map Workflow.topologicalOrder =
      .ok (.ok ["gather", "report"]) := by decide +kernel
  obtain ⟨workflow, built, order⟩ := Except.map_eq_ok_iff.mp valid
  exact ⟨workflow, built, (builds workflow built).upstream _ List.mem_cons_self, order⟩

end WorkflowConfig

end EtlOrchestrator
