import Mathlib.Data.String.Basic
import Mathlib.Data.Rat.Defs
import Mathlib.Data.Finset.Lattice.Basic
import Mathlib.Data.Finset.Insert
import Mathlib.Algebra.Order.Ring.Unbundled.Rat
import EtlOrchestrator.Foundations.OrderedDict
import EtlOrchestrator.Foundations.SortedSet
import EtlOrchestrator.Exceptions

/-!
# Tasks, workflows and their construction

A workflow is a dictionary of tasks and a dictionary of dependencies, which
sends a task id to the set of its direct upstream ids. Both dictionaries are
public: a workflow built in bulk may hold dangling keys, unknown upstream ids,
self edges and cycles, and nothing here assumes otherwise.

A task is frozen once its validators have accepted it, so its structure carries
what they check. Floats are the rational numbers they denote.
-/

set_option autoImplicit false

namespace EtlOrchestrator

open SortedSet

/-! ## Identifiers -/

/-- The characters of `[A-Za-z0-9_-]`. -/
def isIdChar (char : Char) : Bool := char.isAlphanum || char == '_' || char == '-'

/-- What `[A-Za-z0-9_-]*$` matches: `$` also matches just before a newline that
ends the string. -/
def matchesIdTail : List Char → Bool
  | [] => true
  | ['\n'] => true
  | char :: rest => isIdChar char && matchesIdTail rest

/-- `_ID_PATTERN.match(value)`. -/
def matchesIdPattern (value : String) : Bool :=
  match value.toList with
  | [] => false
  | char :: rest => char.isAlpha && matchesIdTail rest

/-- `_validate_id`: the identifier unchanged, or the text of the `ValueError`. -/
def validateId (value kind : String) : Except String String :=
  if value = "" ∨ matchesIdPattern value = false then
    .error (s!"invalid {kind} '{value}': must start with a letter and " ++
      "contain only letters, digits, underscores, and hyphens")
  else .ok value

theorem validateId_eq_ok_iff {value kind : String} :
    validateId value kind = .ok value ↔ matchesIdPattern value = true := by
  have empty : matchesIdPattern "" = false := by decide
  by_cases matching : matchesIdPattern value = true
  · have nonempty : value ≠ "" := by
      rintro rfl
      rw [empty] at matching
      cases matching
    simp [validateId, matching, nonempty]
  · simp [validateId, matching]

theorem matchesIdPattern_of_validateId {value kind accepted : String}
    (valid : validateId value kind = .ok accepted) : matchesIdPattern value = true := by
  by_cases rejected : value = "" ∨ matchesIdPattern value = false
  · simp [validateId, rejected] at valid
  · exact (Bool.not_eq_false _).mp fun mismatch => rejected (.inr mismatch)

/-! ## Tasks -/

/-- The default number of attempts is allowed. -/
theorem Task.one_le_default_maxAttempts : 1 ≤ 1 := Nat.le_refl 1

/-- The default backoff is allowed. -/
theorem Task.default_backoffSeconds_nonneg : (0 : ℚ) ≤ 0 := by decide

/-- The default multiplier is allowed. -/
theorem Task.one_le_default_backoffMultiplier : (1 : ℚ) ≤ 2 := by decide

/-- A single unit of work inside a workflow, with what its validators check. -/
structure Task where
  taskId : String
  description : String := ""
  dependsOn : List String := []
  maxAttempts : ℕ := 1
  backoffSeconds : ℚ := 0
  backoffMultiplier : ℚ := 2
  taskId_valid : matchesIdPattern taskId = true
  one_le_maxAttempts : 1 ≤ maxAttempts := by
    first | exact Task.one_le_default_maxAttempts | decide
  backoffSeconds_nonneg : 0 ≤ backoffSeconds := by
    first | exact Task.default_backoffSeconds_nonneg | decide
  one_le_backoffMultiplier : 1 ≤ backoffMultiplier := by
    first | exact Task.one_le_default_backoffMultiplier | decide

/-- `Task(...)` with the numeric fields already in range: the model's
constructor checks the id, and reports an invalid one as a `ValidationError`. -/
def Task.create (taskId description : String) (dependsOn : List String)
    (maxAttempts : ℕ) (backoffSeconds backoffMultiplier : ℚ)
    (one_le_maxAttempts : 1 ≤ maxAttempts) (backoffSeconds_nonneg : 0 ≤ backoffSeconds)
    (one_le_backoffMultiplier : 1 ≤ backoffMultiplier) : Except PyError Task :=
  match valid : validateId taskId "task id" with
  | .error message => .error (.validationError message)
  | .ok _ =>
      .ok { taskId, description, dependsOn, maxAttempts, backoffSeconds, backoffMultiplier,
            taskId_valid := matchesIdPattern_of_validateId valid, one_le_maxAttempts,
            backoffSeconds_nonneg, one_le_backoffMultiplier }

/-- Only an invalid id is rejected. -/
theorem Task.create_eq_ok_iff {taskId description : String} {dependsOn : List String}
    {maxAttempts : ℕ} {backoffSeconds backoffMultiplier : ℚ}
    {one_le_maxAttempts : 1 ≤ maxAttempts} {backoffSeconds_nonneg : 0 ≤ backoffSeconds}
    {one_le_backoffMultiplier : 1 ≤ backoffMultiplier} {task : Task} :
    Task.create taskId description dependsOn maxAttempts backoffSeconds backoffMultiplier
        one_le_maxAttempts backoffSeconds_nonneg one_le_backoffMultiplier = .ok task ↔
      ∃ valid : matchesIdPattern taskId = true,
        task = { taskId, description, dependsOn, maxAttempts, backoffSeconds, backoffMultiplier,
                 taskId_valid := valid, one_le_maxAttempts, backoffSeconds_nonneg,
                 one_le_backoffMultiplier } := by
  rw [create]
  split
  · rename_i message rejected
    refine iff_of_false nofun fun ⟨valid, _⟩ => ?_
    rw [validateId_eq_ok_iff.mpr valid] at rejected
    cases rejected
  · rename_i accepted returned
    constructor
    · rintro ⟨⟩
      exact ⟨matchesIdPattern_of_validateId returned, rfl⟩
    · rintro ⟨_, rfl⟩
      rfl

theorem Task.create_of_invalid {taskId description : String} {dependsOn : List String}
    {maxAttempts : ℕ} {backoffSeconds backoffMultiplier : ℚ}
    {one_le_maxAttempts : 1 ≤ maxAttempts} {backoffSeconds_nonneg : 0 ≤ backoffSeconds}
    {one_le_backoffMultiplier : 1 ≤ backoffMultiplier}
    (invalid : ¬ matchesIdPattern taskId = true) : ∃ message,
    Task.create taskId description dependsOn maxAttempts backoffSeconds backoffMultiplier
        one_le_maxAttempts backoffSeconds_nonneg one_le_backoffMultiplier =
      .error (.validationError message) := by
  rw [create]
  split
  · exact ⟨_, rfl⟩
  · exact absurd (matchesIdPattern_of_validateId ‹_›) invalid

/-! ## Workflows -/

/-- A graph of tasks: `dependencies` sends a task id to its upstream ids. -/
structure Workflow where
  workflowId : String
  description : String := ""
  tasks : OrderedDict String Task := ∅
  dependencies : OrderedDict String (Finset String) := ∅

namespace Workflow

/-- `Workflow(workflow_id=..., description=...)`. -/
def create (workflowId description : String) : Except PyError Workflow :=
  match validateId workflowId "workflow id" with
  | .error message => .error (.validationError message)
  | .ok _ => .ok { workflowId, description }

theorem create_eq_ok_iff {workflowId description : String} {workflow : Workflow} :
    create workflowId description = .ok workflow ↔
      matchesIdPattern workflowId = true ∧ workflow = { workflowId, description } := by
  rw [create]
  split
  · rename_i message rejected
    refine iff_of_false nofun fun ⟨valid, _⟩ => ?_
    rw [validateId_eq_ok_iff.mpr valid] at rejected
    cases rejected
  · rename_i accepted returned
    constructor
    · rintro ⟨⟩
      exact ⟨matchesIdPattern_of_validateId returned, rfl⟩
    · rintro ⟨_, rfl⟩
      rfl

theorem create_of_valid {workflowId : String} (description : String)
    (valid : matchesIdPattern workflowId = true) :
    create workflowId description = .ok { workflowId, description } :=
  create_eq_ok_iff.mpr ⟨valid, rfl⟩

theorem create_of_invalid {workflowId : String} (description : String)
    (invalid : ¬ matchesIdPattern workflowId = true) :
    ∃ message, create workflowId description = .error (.validationError message) := by
  rw [create]
  split
  · exact ⟨_, rfl⟩
  · exact absurd (matchesIdPattern_of_validateId ‹_›) invalid

/-- The direct upstream dependencies of a task. -/
def upstream (workflow : Workflow) (taskId : String) : Finset String :=
  workflow.dependencies.getD taskId ∅

/-- The direct downstream dependents of a task. -/
def downstream (workflow : Workflow) (taskId : String) : Finset String :=
  ((workflow.dependencies.entries.filter fun entry => taskId ∈ entry.2).map Prod.fst).toFinset

/-- Declare that `taskId` must run after `upstreamId`. -/
def addDependency (workflow : Workflow) (taskId upstreamId : String) :
    Except OrchestrationError Workflow :=
  if upstreamId ∉ workflow.tasks then .error (.unknownTask upstreamId)
  else if taskId ∉ workflow.tasks then .error (.unknownTask taskId)
  else if taskId = upstreamId then .error (.selfDependency taskId)
  else .ok { workflow with
    dependencies :=
      workflow.dependencies.set taskId (insert upstreamId (workflow.upstream taskId)) }

/-- The loop of `add_task` over `depends_on`. The edges wired before a raising
one stay, so the workflow is returned beside the outcome. -/
def addDependencies (workflow : Workflow) (taskId : String) :
    List String → Workflow × Except OrchestrationError Unit
  | [] => (workflow, .ok ())
  | upstreamId :: rest =>
      match workflow.addDependency taskId upstreamId with
      | .error error => (workflow, .error error)
      | .ok wired => wired.addDependencies taskId rest

/-- Register a task and wire the upstream dependencies it declares. -/
def addTask (workflow : Workflow) (task : Task) : Workflow × Except OrchestrationError Unit :=
  if task.taskId ∈ workflow.tasks then (workflow, .error (.duplicateTask task.taskId))
  else { workflow with tasks := workflow.tasks.set task.taskId task }.addDependencies
    task.taskId task.dependsOn

/-- Registering a task that declares no dependencies. -/
theorem addTask_of_undeclared (workflow : Workflow) {task : Task}
    (undeclared : task.dependsOn = []) : workflow.addTask task =
      if task.taskId ∈ workflow.tasks then (workflow, .error (.duplicateTask task.taskId))
      else ({ workflow with tasks := workflow.tasks.set task.taskId task }, .ok ()) := by
  rw [addTask, undeclared]
  rfl

/-! ## Edges -/

/-- `workflow.Edge up task`: `up` is a direct upstream of `task`. -/
def Edge (workflow : Workflow) (up task : String) : Prop := up ∈ workflow.upstream task

instance (workflow : Workflow) (up task : String) : Decidable (workflow.Edge up task) :=
  inferInstanceAs (Decidable (up ∈ workflow.upstream task))

theorem upstream_eq_of_get? {workflow : Workflow} {task : String} {ups : Finset String}
    (stored : workflow.dependencies.get? task = some ups) : workflow.upstream task = ups := by
  simp [upstream, OrderedDict.getD, stored]

theorem upstream_eq_of_not_mem {workflow : Workflow} {task : String}
    (missing : task ∉ workflow.dependencies) : workflow.upstream task = ∅ := by
  simp [upstream, OrderedDict.getD, OrderedDict.get?_eq_none_iff.mpr missing]

/-- A task with an upstream is a key of `dependencies`. -/
theorem Edge.mem_dependencies {workflow : Workflow} {up task : String}
    (edge : workflow.Edge up task) : task ∈ workflow.dependencies := by
  by_contra missing
  rw [Edge, upstream_eq_of_not_mem missing] at edge
  exact absurd edge (Finset.notMem_empty up)

@[simp] theorem mem_downstream {workflow : Workflow} {up task : String} :
    task ∈ workflow.downstream up ↔ workflow.Edge up task := by
  simp only [downstream, List.mem_toFinset, List.mem_map, List.mem_filter, decide_eq_true_eq]
  constructor
  · rintro ⟨⟨key, ups⟩, ⟨entry, member⟩, rfl⟩
    rw [Edge, upstream_eq_of_get? (OrderedDict.get?_eq_some_iff.mpr entry)]
    exact member
  · intro edge
    obtain ⟨ups, stored⟩ := OrderedDict.exists_get?_of_mem edge.mem_dependencies
    refine ⟨(task, ups), ⟨OrderedDict.get?_eq_some_iff.mp stored, ?_⟩, rfl⟩
    rwa [Edge, upstream_eq_of_get? stored] at edge

/-- Every key of `dependencies` and every upstream id is a task. -/
structure Closed (workflow : Workflow) : Prop where
  keys : ∀ task ∈ workflow.dependencies, task ∈ workflow.tasks
  upstreams : ∀ task up, workflow.Edge up task → up ∈ workflow.tasks

/-- No task depends on itself, directly or through others. -/
def Acyclic (workflow : Workflow) : Prop :=
  ∀ task, ¬ Relation.TransGen workflow.Edge task task

/-! ## Adding a dependency -/

theorem addDependency_eq_ok_iff {workflow wired : Workflow} {taskId upstreamId : String} :
    workflow.addDependency taskId upstreamId = .ok wired ↔
      upstreamId ∈ workflow.tasks ∧ taskId ∈ workflow.tasks ∧ taskId ≠ upstreamId ∧
        wired = { workflow with
          dependencies :=
            workflow.dependencies.set taskId (insert upstreamId (workflow.upstream taskId)) } := by
  by_cases upKnown : upstreamId ∈ workflow.tasks
  · by_cases known : taskId ∈ workflow.tasks
    · by_cases same : taskId = upstreamId
      · simp [addDependency, upKnown, same]
      · simp [addDependency, upKnown, known, same, eq_comm]
    · simp [addDependency, upKnown, known]
  · simp [addDependency, upKnown]

/-- The new edge is added to those of the workflow. -/
theorem edge_of_addDependency {workflow wired : Workflow} {taskId upstreamId : String}
    (added : workflow.addDependency taskId upstreamId = .ok wired) (up task : String) :
    wired.Edge up task ↔ workflow.Edge up task ∨ up = upstreamId ∧ task = taskId := by
  obtain ⟨_, _, _, rfl⟩ := addDependency_eq_ok_iff.mp added
  simp only [Edge, upstream, OrderedDict.getD, OrderedDict.get?_set]
  by_cases same : task = taskId
  · subst same
    simp [or_comm]
  · simp [same]

/-- Adding a dependency keeps the graph closed. -/
theorem Closed.addDependency {workflow wired : Workflow} {taskId upstreamId : String}
    (closed : workflow.Closed) (added : workflow.addDependency taskId upstreamId = .ok wired) :
    wired.Closed := by
  have edges := edge_of_addDependency added
  obtain ⟨upKnown, known, _, rfl⟩ := addDependency_eq_ok_iff.mp added
  refine ⟨fun task member => ?_, fun task up edge => ?_⟩
  · rcases OrderedDict.mem_set.mp member with rfl | old
    · exact known
    · exact closed.keys task old
  · rcases (edges up task).mp edge with old | ⟨rfl, _⟩
    · exact closed.upstreams task up old
    · exact upKnown

theorem Closed.target {workflow : Workflow} (closed : workflow.Closed) {up task : String}
    (edge : workflow.Edge up task) : task ∈ workflow.tasks :=
  closed.keys task edge.mem_dependencies

end Workflow

end EtlOrchestrator
