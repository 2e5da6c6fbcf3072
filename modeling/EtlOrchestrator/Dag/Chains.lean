import EtlOrchestrator.Dag.TopologicalOrder
import EtlOrchestrator.Foundations.Chains
import EtlOrchestrator.Foundations.Fallible

/-!
# Workflows built from a chain of ids

`from_chain` registers a task for each id, and then makes each id depend on the
one before it. With distinct ids the edges are exactly those between consecutive
ids. The list is then an order of the graph, so that the graph has no cycle, and
it is the only order, so that the heap of Kahn's algorithm has no choice. A
repeated id is reported by the registration, before any edge is made.
-/

set_option autoImplicit false

namespace EtlOrchestrator

namespace Workflow

/-! ## The builder -/

/-- The loop of `from_chain` over `task_ids`. -/
def registerChain (workflow : Workflow) : List String → Except PyError Workflow
  | [] => .ok workflow
  | taskId :: rest => do
      let task ← Task.create taskId "" [] 1 0 2 Task.one_le_default_maxAttempts
        Task.default_backoffSeconds_nonneg Task.one_le_default_backoffMultiplier
      match workflow.addTask task with
      | (_, .error error) => .error (.orchestration error)
      | (registered, .ok ()) => registered.registerChain rest

/-- The loop of `from_chain` over the pairs of an upstream and its downstream. -/
def linkChain (workflow : Workflow) : List (String × String) → Except OrchestrationError Workflow
  | [] => .ok workflow
  | (upstream, downstream) :: rest => do
      let wired ← workflow.addDependency downstream upstream
      wired.linkChain rest

/-- Build a linear workflow `t1 -> t2 -> ... -> tn`. -/
def fromChain (workflowId : String) (taskIds : List String) : Except PyError Workflow := do
  let workflow ← create workflowId ""
  let registered ← workflow.registerChain taskIds
  (registered.linkChain taskIds.consecutivePairs).mapError .orchestration

/-! ## Registering the ids -/

/-- One more id in front. -/
theorem registerChain_cons (workflow : Workflow) {taskId : String} (rest : List String)
    (valid : matchesIdPattern taskId = true) : ∃ task : Task,
      workflow.registerChain (taskId :: rest) =
        if taskId ∈ workflow.tasks then .error (.orchestration (.duplicateTask taskId))
        else registerChain { workflow with tasks := workflow.tasks.set taskId task } rest := by
  obtain ⟨task, created⟩ : ∃ task, Task.create taskId "" [] 1 0 2 Task.one_le_default_maxAttempts
      Task.default_backoffSeconds_nonneg Task.one_le_default_backoffMultiplier = .ok task :=
    ⟨_, Task.create_eq_ok_iff.mpr ⟨valid, rfl⟩⟩
  obtain ⟨_, fields⟩ := Task.create_eq_ok_iff.mp created
  have sameId : task.taskId = taskId := by rw [fields]
  have undeclared : task.dependsOn = [] := by rw [fields]
  refine ⟨task, ?_⟩
  rw [registerChain, created, Except.ok_bind, addTask_of_undeclared workflow undeclared, sameId]
  by_cases taken : taskId ∈ workflow.tasks
  · rw [if_pos taken, if_pos taken]
  · rw [if_neg taken, if_neg taken]

/-- Distinct new ids are registered in their order. -/
theorem registerChain_eq_ok {taskIds : List String} (nodup : taskIds.Nodup) :
    ∀ workflow : Workflow, (∀ taskId ∈ taskIds, matchesIdPattern taskId = true) →
      (∀ taskId ∈ taskIds, taskId ∉ workflow.tasks) →
      ∃ tasks, workflow.registerChain taskIds = .ok { workflow with tasks } ∧
        tasks.keys = workflow.tasks.keys ++ taskIds := by
  induction taskIds with
  | nil => exact fun workflow _ _ => ⟨workflow.tasks, rfl, (List.append_nil _).symm⟩
  | cons taskId rest ih =>
      intro workflow valid new
      obtain ⟨headValid, restValid⟩ := List.forall_mem_cons.mp valid
      obtain ⟨headNew, restNew⟩ := List.forall_mem_cons.mp new
      obtain ⟨fresh, distinct⟩ := List.nodup_cons.mp nodup
      obtain ⟨task, step⟩ := registerChain_cons workflow rest headValid
      obtain ⟨tasks, registered, keys⟩ := ih distinct
        { workflow with tasks := workflow.tasks.set taskId task } restValid
        fun other member known => by
          rcases OrderedDict.mem_set.mp known with rfl | old
          · exact fresh member
          · exact restNew other member old
      refine ⟨tasks, by rw [step, if_neg headNew, registered], ?_⟩
      rw [keys, OrderedDict.keys_set_of_not_mem task headNew, List.append_assoc]
      rfl

/-- The first id that is taken is reported. -/
theorem registerChain_eq_error {taskIds : List String} : ∀ workflow : Workflow,
    (∀ taskId ∈ taskIds, matchesIdPattern taskId = true) →
    ¬ (taskIds.Nodup ∧ ∀ taskId ∈ taskIds, taskId ∉ workflow.tasks) →
    ∃ earlier taskId later, taskIds = earlier ++ taskId :: later ∧ earlier.Nodup ∧
      (∀ other ∈ earlier, other ∉ workflow.tasks) ∧
      (taskId ∈ workflow.tasks ∨ taskId ∈ earlier) ∧
      workflow.registerChain taskIds = .error (.orchestration (.duplicateTask taskId)) := by
  induction taskIds with
  | nil => exact fun workflow _ repeated => absurd ⟨List.nodup_nil, List.forall_mem_nil _⟩ repeated
  | cons taskId rest ih =>
      intro workflow valid repeated
      obtain ⟨headValid, restValid⟩ := List.forall_mem_cons.mp valid
      obtain ⟨task, step⟩ := registerChain_cons workflow rest headValid
      by_cases taken : taskId ∈ workflow.tasks
      · exact ⟨[], taskId, rest, rfl, List.nodup_nil, List.forall_mem_nil _, .inl taken,
          by rw [step, if_pos taken]⟩
      · obtain ⟨earlier, again, later, split, distinct, new, known, raised⟩ := ih
          { workflow with tasks := workflow.tasks.set taskId task } restValid fun fine => by
            obtain ⟨different, allNew⟩ := OrderedDict.apart_of_new taken fine.2
            exact repeated ⟨List.nodup_cons.mpr ⟨different, fine.1⟩, allNew⟩
        obtain ⟨different, allNew⟩ := OrderedDict.apart_of_new taken new
        refine ⟨taskId :: earlier, again, later, by rw [split, List.cons_append],
          List.nodup_cons.mpr ⟨different, distinct⟩, allNew, ?_,
          by rw [step, if_neg taken, raised]⟩
        rw [OrderedDict.mem_set] at known
        rw [List.mem_cons]
        exact or_left_comm.mp (or_assoc.mp known)

/-! ## Linking the ids -/

/-- Pairs of different tasks are linked, and nothing else. -/
theorem linkChain_eq_ok (pairs : List (String × String)) : ∀ workflow : Workflow,
    workflow.Closed →
    (∀ pair ∈ pairs, pair.1 ∈ workflow.tasks ∧ pair.2 ∈ workflow.tasks ∧ pair.2 ≠ pair.1) →
    ∃ dependencies, workflow.linkChain pairs = .ok { workflow with dependencies } ∧
      { workflow with dependencies }.Closed ∧
      ∀ up task, { workflow with dependencies }.Edge up task ↔
        workflow.Edge up task ∨ (up, task) ∈ pairs := by
  induction pairs with
  | nil =>
      intro workflow closed _
      exact ⟨workflow.dependencies, rfl, closed, fun _ _ => (or_iff_left List.not_mem_nil).symm⟩
  | cons pair rest ih =>
      intro workflow closed linkable
      obtain ⟨⟨upKnown, known, different⟩, restLinkable⟩ := List.forall_mem_cons.mp linkable
      have added := addDependency_eq_ok_iff.mpr ⟨upKnown, known, different, rfl⟩
      obtain ⟨dependencies, linked, closedAfter, edges⟩ :=
        ih _ (closed.addDependency added) restLinkable
      refine ⟨dependencies, ?_, closedAfter, fun up task => ?_⟩
      · rw [linkChain, added, Except.ok_bind, linked]
      · rw [edges, edge_of_addDependency added, List.mem_cons, or_assoc, Prod.ext_iff]

/-! ## The chain -/

/-- What a chain of distinct ids builds. -/
structure IsChainOf (taskIds : List String) (workflow : Workflow) : Prop where
  keys : workflow.tasks.keys = taskIds
  closed : workflow.Closed
  edge : ∀ up task, workflow.Edge up task ↔ (up, task) ∈ taskIds.consecutivePairs

theorem fromChain_eq_ok {workflowId : String} {taskIds : List String}
    (validId : matchesIdPattern workflowId = true)
    (validIds : ∀ taskId ∈ taskIds, matchesIdPattern taskId = true) (nodup : taskIds.Nodup) :
    ∃ workflow, fromChain workflowId taskIds = .ok workflow ∧ IsChainOf taskIds workflow := by
  obtain ⟨tasks, registered, keys⟩ := registerChain_eq_ok nodup { workflowId, description := "" }
    validIds fun taskId _ => OrderedDict.not_mem_empty taskId
  have known : ∀ taskId ∈ taskIds, taskId ∈ tasks := by
    intro taskId member
    rw [OrderedDict.mem_def, keys]
    exact List.mem_append_right _ member
  have linkable : ∀ pair ∈ taskIds.consecutivePairs,
      pair.1 ∈ tasks ∧ pair.2 ∈ tasks ∧ pair.2 ≠ pair.1 := by
    rintro ⟨up, task⟩ member
    obtain ⟨earlier, later, split⟩ := mem_consecutivePairs_iff.mp member
    refine ⟨known up (by simp [split]), known task (by simp [split]), ?_⟩
    intro same
    obtain rfl : task = up := same
    rw [split] at nodup
    exact (List.nodup_cons.mp nodup.of_append_right).1 List.mem_cons_self
  have unlinked : ∀ up task,
      ¬ ({ workflowId, description := "", tasks } : Workflow).Edge up task := by
    intro up task edge
    exact absurd edge.mem_dependencies (OrderedDict.not_mem_empty task)
  obtain ⟨dependencies, linked, closed, edges⟩ := linkChain_eq_ok taskIds.consecutivePairs
    { workflowId, description := "", tasks }
    ⟨fun task member => absurd member (OrderedDict.not_mem_empty task),
      fun task up edge => absurd edge (unlinked up task)⟩ linkable
  refine ⟨_, ?_, keys, closed, fun up task => ?_⟩
  · rw [fromChain, create_of_valid "" validId, Except.ok_bind, registered, Except.ok_bind, linked]
    rfl
  · exact (edges up task).trans (or_iff_right (unlinked up task))

namespace IsChainOf

variable {taskIds : List String} {workflow : Workflow}

theorem mem_iff (isChain : IsChainOf taskIds workflow) (taskId : String) :
    taskId ∈ taskIds ↔ taskId ∈ workflow.tasks.keySet := by
  rw [OrderedDict.mem_keySet, OrderedDict.mem_def, isChain.keys]

/-- The chain is an order of its graph. -/
theorem isLinearExtension (isChain : IsChainOf taskIds workflow) :
    IsLinearExtension workflow.Edge workflow.tasks.keySet taskIds :=
  .of_consecutive (isChain.keys ▸ workflow.tasks.keys_nodup) isChain.mem_iff
    fun up task => (isChain.edge up task).mp

theorem valid (isChain : IsChainOf taskIds workflow) (nonempty : taskIds ≠ []) :
    workflow.Valid where
  nonempty := isChain.keys ▸ nonempty
  closed := isChain.closed
  acyclic := isChain.isLinearExtension.acyclic fun up task edge =>
    OrderedDict.mem_keySet.mpr (isChain.closed.upstreams task up edge)

/-- Kahn's algorithm emits the only order there is. -/
theorem topologicalOrder_eq (isChain : IsChainOf taskIds workflow) (nonempty : taskIds ≠ []) :
    workflow.topologicalOrder = .ok taskIds := by
  obtain ⟨order, returned, extension, _⟩ := topologicalOrder_eq_ok (isChain.valid nonempty)
  have along : taskIds.IsChain workflow.Edge :=
    isChain_iff_consecutivePairs.mpr fun up task => (isChain.edge up task).mpr
  rw [returned, extension.eq_of_isChain along isChain.isLinearExtension.nodup isChain.mem_iff]

end IsChainOf

/-- **A chain of distinct ids builds a valid workflow whose topological order is
the chain, and a repeated id raises.** -/
theorem fromChain_correct (workflowId : String) (taskIds : List String)
    (validId : matchesIdPattern workflowId = true)
    (validIds : ∀ taskId ∈ taskIds, matchesIdPattern taskId = true) :
    (taskIds ≠ [] → taskIds.Nodup → ∃ workflow, fromChain workflowId taskIds = .ok workflow ∧
      workflow.validateGraph = [] ∧ workflow.topologicalOrder = .ok taskIds) ∧
    (¬ taskIds.Nodup → ∃ earlier taskId later, taskIds = earlier ++ taskId :: later ∧
      earlier.Nodup ∧ taskId ∈ earlier ∧
      fromChain workflowId taskIds = .error (.orchestration (.duplicateTask taskId))) := by
  constructor
  · intro nonempty nodup
    obtain ⟨workflow, built, isChain⟩ := fromChain_eq_ok validId validIds nodup
    exact ⟨workflow, built, validateGraph_eq_nil_iff_valid.mpr (isChain.valid nonempty),
      isChain.topologicalOrder_eq nonempty⟩
  · intro repeated
    obtain ⟨earlier, taskId, later, split, distinct, _, known, raised⟩ := registerChain_eq_error
      { workflowId, description := "" } validIds fun fine => repeated fine.1
    refine ⟨earlier, taskId, later, split, distinct,
      known.resolve_left (OrderedDict.not_mem_empty taskId), ?_⟩
    rw [fromChain, create_of_valid "" validId, Except.ok_bind, raised]
    rfl

/-- The alphabetical order of the ids is another one. -/
theorem fromChain_correct_zoned : (∃ workflow,
    fromChain "zoned" ["zone", "yield", "index"] = .ok workflow ∧ workflow.validateGraph = [] ∧
      workflow.topologicalOrder = .ok ["zone", "yield", "index"]) ∧
    ∃ taskId, fromChain "zoned" ["zone", "yield", "zone"] =
      .error (.orchestration (.duplicateTask taskId)) := by
  constructor
  · exact (fromChain_correct "zoned" ["zone", "yield", "index"] (by decide) (by decide)).1
      (by decide) (by decide)
  · obtain ⟨_, taskId, _, _, _, _, raised⟩ :=
      (fromChain_correct "zoned" ["zone", "yield", "zone"] (by decide) (by decide)).2 (by decide)
    exact ⟨taskId, raised⟩

end Workflow

end EtlOrchestrator
