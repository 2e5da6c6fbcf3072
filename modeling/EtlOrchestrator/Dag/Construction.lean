import EtlOrchestrator.Dag.CycleErrors

/-!
# Workflows that are built by calls

`add_dependency` checks its arguments before it changes anything. `add_task` registers the
task first and wires what the task declares afterwards, one edge at a time, so that an error
leaves the task registered with a part of its edges. It leaves the workflow as it was if and
only if the id is taken, which is checked before, or the call does not fail at all
(`addsAtomically_iff`), and no later call can add the edges that are missing
(`declares_attemptAll_iff`).

What the checks of the single edges enforce survives the failed calls: the graph is closed
and no task is its own upstream, so the validation can find nothing but emptiness and cycles
through several tasks (`construction_enforces`). With `add_task` alone the tasks are
registered after their upstreams, and not even cycles are possible.
-/

set_option autoImplicit false

namespace EtlOrchestrator

open SortedSet Relation

/-! ## Workflows that are built by calls -/

namespace Workflow

/-- Each id that a task declares is an upstream of the task. -/
def Declares (workflow : Workflow) : Prop :=
  ∀ taskId task, workflow.tasks.get? taskId = some task →
    ∀ up ∈ task.dependsOn, workflow.Edge up taskId

/-- A workflow that is built by calls that all succeed. -/
inductive Built : Workflow → Prop where
  | empty (workflowId description : String) : Built { workflowId, description }
  | addTask {workflow after : Workflow} (task : Task) (built : Built workflow)
      (added : workflow.addTask task = (after, .ok ())) : Built after
  | addDependency {workflow after : Workflow} (taskId upstreamId : String)
      (built : Built workflow) (added : workflow.addDependency taskId upstreamId = .ok after) :
      Built after

/-- Wiring keeps the tasks and the edges, and adds the edges it is called for. -/
theorem edges_of_addDependencies {taskId : String} (upstreamIds : List String) :
    ∀ {workflow after : Workflow},
      workflow.addDependencies taskId upstreamIds = (after, .ok ()) →
      after.tasks = workflow.tasks ∧
        (∀ up task, workflow.Edge up task → after.Edge up task) ∧
        ∀ up ∈ upstreamIds, after.Edge up taskId := by
  induction upstreamIds with
  | nil =>
      intro workflow after wired
      cases wired
      exact ⟨rfl, fun _ _ edge => edge, List.forall_mem_nil _⟩
  | cons upstreamId rest ih =>
      intro workflow after wired
      rw [addDependencies] at wired
      split at wired
      · cases wired
      · rename_i next added
        obtain ⟨sameTasks, kept, edges⟩ := ih wired
        have addedEdge := edge_of_addDependency added
        obtain ⟨_, _, _, rfl⟩ := addDependency_eq_ok_iff.mp added
        refine ⟨sameTasks, fun up task edge => kept up task ((addedEdge up task).mpr (.inl edge)),
          fun up member => ?_⟩
        rcases List.mem_cons.mp member with rfl | later
        · exact kept up taskId ((addedEdge up taskId).mpr (.inr ⟨rfl, rfl⟩))
        · exact edges up later

/-- **A workflow that is built by calls wires what its tasks declare.** -/
theorem Built.declares {workflow : Workflow} (built : workflow.Built) : workflow.Declares := by
  induction built with
  | empty => exact fun taskId task stored => by cases stored
  | @addTask workflow after added built ran ih =>
      intro taskId task stored up member
      rw [Workflow.addTask] at ran
      split at ran
      · cases ran
      · obtain ⟨sameTasks, kept, edges⟩ := edges_of_addDependencies added.dependsOn ran
        rw [sameTasks, OrderedDict.get?_set] at stored
        split at stored
        · rename_i same
          cases stored
          exact same ▸ edges up member
        · exact kept up taskId (ih taskId task stored up member)
  | @addDependency workflow after addedTask upstreamId built added ih =>
      intro taskId task stored up member
      have edges := edge_of_addDependency added
      obtain ⟨_, _, _, rfl⟩ := addDependency_eq_ok_iff.mp added
      exact (edges up taskId).mpr (.inl (ih taskId task stored up member))

end Workflow

/-! ## Calls whose errors are caught -/

/-- A call that builds a workflow. -/
inductive ConstructionCall where
  | addTask (task : Task)
  | addDependency (taskId upstreamId : String)

namespace Workflow

/-- Make a call. The workflow is returned beside the outcome. -/
def attempt (workflow : Workflow) : ConstructionCall → Workflow × Except OrchestrationError Unit
  | .addTask task => workflow.addTask task
  | .addDependency taskId upstreamId =>
      match workflow.addDependency taskId upstreamId with
      | .error error => (workflow, .error error)
      | .ok wired => (wired, .ok ())

/-- Make the calls one after the other, and go on after an error. -/
def attemptAll (workflow : Workflow) (calls : List ConstructionCall) : Workflow :=
  calls.foldl (fun built call => (built.attempt call).1) workflow

/-- A property that every call keeps holds after all calls. -/
theorem attemptAll_induction {P : Workflow → Prop} {workflow : Workflow}
    {calls : List ConstructionCall} (before : P workflow)
    (step : ∀ built, P built → ∀ call ∈ calls, P (built.attempt call).1) :
    P (workflow.attemptAll calls) :=
  List.foldlRecOn calls _ before step

/-! ## What a call can change -/

/-- What the loop over `depends_on` does, also when an error ends it: the tasks are the same,
and the new edges lead to the task from other tasks. -/
structure Wiring (taskId : String) (before after : Workflow) : Prop where
  tasks : after.tasks = before.tasks
  kept : ∀ up task, before.Edge up task → after.Edge up task
  new : ∀ up task, after.Edge up task →
    before.Edge up task ∨ task = taskId ∧ up ∈ before.tasks ∧ up ≠ taskId
  closed : before.Closed → after.Closed

namespace Wiring

variable {taskId : String}

theorem refl (workflow : Workflow) : Wiring taskId workflow workflow :=
  ⟨rfl, fun _ _ edge => edge, fun _ _ edge => .inl edge, id⟩

theorem trans {first second third : Workflow} (earlier : Wiring taskId first second)
    (later : Wiring taskId second third) : Wiring taskId first third where
  tasks := later.tasks.trans earlier.tasks
  kept up task edge := later.kept up task (earlier.kept up task edge)
  new up task edge := by
    rcases later.new up task edge with old | ⟨same, known, different⟩
    · exact earlier.new up task old
    · exact .inr ⟨same, earlier.tasks ▸ known, different⟩
  closed := later.closed ∘ earlier.closed

end Wiring

theorem wiring_of_addDependency {workflow wired : Workflow} {taskId upstreamId : String}
    (added : workflow.addDependency taskId upstreamId = .ok wired) :
    Wiring taskId workflow wired := by
  have edges := edge_of_addDependency added
  refine ⟨?_, fun up task edge => (edges up task).mpr (.inl edge), fun up task edge => ?_,
    fun closed => closed.addDependency added⟩
  · obtain ⟨_, _, _, rfl⟩ := addDependency_eq_ok_iff.mp added
    rfl
  · obtain ⟨known, _, different, _⟩ := addDependency_eq_ok_iff.mp added
    rcases (edges up task).mp edge with old | ⟨rfl, same⟩
    · exact .inl old
    · exact .inr ⟨same, known, different.symm⟩

theorem wiring_of_addDependencies {taskId : String} (upstreamIds : List String) :
    ∀ workflow : Workflow,
      Wiring taskId workflow (workflow.addDependencies taskId upstreamIds).1 := by
  induction upstreamIds with
  | nil => exact Wiring.refl
  | cons upstreamId rest ih =>
      intro workflow
      rw [addDependencies]
      split
      · exact .refl workflow
      · rename_i wired added
        exact (wiring_of_addDependency added).trans (ih wired)

/-- Wiring succeeds exactly when every id is another task. -/
theorem addDependencies_isOk_iff {taskId : String} (upstreamIds : List String) :
    ∀ {workflow : Workflow}, taskId ∈ workflow.tasks →
      ((workflow.addDependencies taskId upstreamIds).2 = .ok () ↔
        ∀ up ∈ upstreamIds, up ∈ workflow.tasks ∧ up ≠ taskId) := by
  induction upstreamIds with
  | nil => exact fun _ => iff_of_true rfl (List.forall_mem_nil _)
  | cons upstreamId rest ih =>
      intro workflow known
      rw [addDependencies, List.forall_mem_cons]
      split
      · rename_i error failed
        refine iff_of_false (by simp) fun ⟨⟨upKnown, different⟩, _⟩ => ?_
        have added := addDependency_eq_ok_iff.mpr ⟨upKnown, known, different.symm, rfl⟩
        cases failed.symm.trans added
      · rename_i wired added
        have sameTasks := (wiring_of_addDependency added).tasks
        obtain ⟨upKnown, _, different, _⟩ := addDependency_eq_ok_iff.mp added
        rw [ih (by rwa [sameTasks]), sameTasks]
        exact (and_iff_right ⟨upKnown, different.symm⟩).symm

/-- The workflow in which a task is registered, but not wired. -/
def register (workflow : Workflow) (task : Task) : Workflow :=
  { workflow with tasks := workflow.tasks.set task.taskId task }

/-- **What `add_task` does**: it rejects an id that is taken, and otherwise registers the task
and wires what it declares, which fails unless all of that is registered already. -/
inductive Adds (workflow : Workflow) (task : Task) : Prop where
  | rejected (taken : task.taskId ∈ workflow.tasks)
      (unchanged : workflow.addTask task = (workflow, .error (.duplicateTask task.taskId)))
  | registered (new : task.taskId ∉ workflow.tasks)
      (wiring : Wiring task.taskId (workflow.register task) (workflow.addTask task).1)
      (isOk : (workflow.addTask task).2 = .ok () ↔ ∀ up ∈ task.dependsOn, up ∈ workflow.tasks)
      (edges : (workflow.addTask task).2 = .ok () →
        ∀ up ∈ task.dependsOn, (workflow.addTask task).1.Edge up task.taskId)

theorem adds (workflow : Workflow) (task : Task) : workflow.Adds task := by
  by_cases taken : task.taskId ∈ workflow.tasks
  · exact .rejected taken (by rw [addTask, if_pos taken])
  · have registers : workflow.addTask task =
        (workflow.register task).addDependencies task.taskId task.dependsOn := by
      rw [addTask, if_neg taken]
      rfl
    have known : task.taskId ∈ (workflow.register task).tasks :=
      OrderedDict.mem_set.mpr (.inl rfl)
    refine .registered taken ?_ ?_ ?_
    · rw [registers]
      exact wiring_of_addDependencies task.dependsOn _
    · rw [registers, addDependencies_isOk_iff task.dependsOn known]
      refine forall_congr' fun up => forall_congr' fun _ => ?_
      rw [register, OrderedDict.mem_set]
      exact ⟨fun both => both.1.resolve_left both.2,
        fun member => ⟨.inr member, fun same => taken (same ▸ member)⟩⟩
    · intro succeeded
      rw [registers] at succeeded ⊢
      exact (edges_of_addDependencies task.dependsOn (Prod.ext rfl succeeded)).2.2

end Workflow

/-! ## Failed calls of `add_task` -/

namespace Workflow

variable {workflow : Workflow} {task : Task}

/-- A call that raises leaves the tasks and the dependencies as they were. -/
def AddsAtomically (workflow : Workflow) (task : Task) : Prop :=
  ∀ error, (workflow.addTask task).2 = .error error →
    (workflow.addTask task).1.tasks = workflow.tasks ∧
      (workflow.addTask task).1.dependencies = workflow.dependencies

/-- The id is taken, or all that the task declares is registered. -/
def Addable (workflow : Workflow) (task : Task) : Prop :=
  task.taskId ∈ workflow.tasks ∨ ∀ up ∈ task.dependsOn, up ∈ workflow.tasks

/-- A call that raises changes nothing exactly when the task was addable. -/
theorem addsAtomically_iff : workflow.AddsAtomically task ↔ workflow.Addable task := by
  cases workflow.adds task with
  | rejected taken unchanged =>
      refine iff_of_true (fun error _ => ?_) (.inl taken)
      rw [unchanged]
      exact ⟨rfl, rfl⟩
  | registered new wiring isOk _ =>
      rw [Addable, or_iff_right new, ← isOk]
      constructor
      · intro atomic
        cases outcome : (workflow.addTask task).2 with
        | ok value => rfl
        | error error =>
            have known : task.taskId ∈ (workflow.addTask task).1.tasks := by
              rw [wiring.tasks]
              exact OrderedDict.mem_set.mpr (.inl rfl)
            rw [(atomic error outcome).1] at known
            exact absurd known new
      · intro succeeded error raised
        cases succeeded.symm.trans raised

/-- Registering a task wires nothing. -/
theorem Closed.register (closed : workflow.Closed) (task : Task) :
    (workflow.register task).Closed where
  keys key member := OrderedDict.mem_set.mpr (.inr (closed.keys key member))
  upstreams key up edge := OrderedDict.mem_set.mpr (.inr (closed.upstreams key up edge))

theorem Closed.addTask (closed : workflow.Closed) (task : Task) :
    (workflow.addTask task).1.Closed := by
  cases workflow.adds task with
  | rejected _ unchanged => rwa [unchanged]
  | registered _ wiring _ _ => exact wiring.closed (closed.register task)

/-- **After a call the tasks have the edges that they declare if and only if they had them
before and the task was addable.** -/
theorem declares_addTask_iff (closed : workflow.Closed) (task : Task) :
    (workflow.addTask task).1.Declares ↔ workflow.Declares ∧ workflow.Addable task := by
  cases workflow.adds task with
  | rejected taken unchanged =>
      rw [unchanged]
      exact (and_iff_left (.inl taken)).symm
  | registered new wiring isOk edges =>
      have stored : (workflow.addTask task).1.tasks = workflow.tasks.set task.taskId task :=
        wiring.tasks
      rw [Addable, or_iff_right new]
      constructor
      · intro declares
        refine ⟨fun taskId known get up member => ?_, fun up member => ?_⟩
        · have different : taskId ≠ task.taskId := fun same =>
            new (same ▸ OrderedDict.mem_of_get? get)
          have edge := declares taskId known
            (by rw [stored, OrderedDict.get?_set_of_ne _ _ different, get]) up member
          exact (wiring.new up taskId edge).resolve_right fun wired => different wired.1
        · have edge := declares task.taskId task (by rw [stored, OrderedDict.get?_set_self])
            up member
          rcases wiring.new up task.taskId edge with old | ⟨_, known, different⟩
          · exact closed.upstreams task.taskId up old
          · exact (OrderedDict.mem_set.mp known).resolve_left different
      · rintro ⟨declares, addable⟩ taskId known get up member
        rw [stored, OrderedDict.get?_set] at get
        split at get
        · rename_i same
          cases get
          exact same ▸ edges (isOk.mpr addable) up member
        · exact wiring.kept up taskId (declares taskId known get up member)

/-- Each task is addable when its call is made. -/
def EachAddable (workflow : Workflow) (tasks : List Task) : Prop :=
  ∀ earlier task later, tasks = earlier ++ task :: later →
    (workflow.attemptAll (earlier.map .addTask)).Addable task

theorem eachAddable_cons_iff {rest : List Task} : workflow.EachAddable (task :: rest) ↔
    workflow.Addable task ∧ (workflow.addTask task).1.EachAddable rest := by
  constructor
  · intro each
    refine ⟨each [] task rest rfl, fun earlier next later split => ?_⟩
    exact each (task :: earlier) next later (by rw [split, List.cons_append])
  · rintro ⟨first, others⟩ earlier next later split
    cases earlier with
    | nil =>
        cases split
        exact first
    | cons start earlier =>
        cases split
        exact others earlier next later rfl

/-- After a run of calls whose errors are caught, the tasks have the edges that they declare
if and only if each task was addable. -/
theorem declares_attemptAll_iff (tasks : List Task) : ∀ {workflow : Workflow},
    workflow.Closed → ((workflow.attemptAll (tasks.map .addTask)).Declares ↔
      workflow.Declares ∧ workflow.EachAddable tasks) := by
  induction tasks with
  | nil =>
      intro workflow _
      refine (and_iff_left fun earlier task later split => ?_).symm
      cases earlier <;> cases split
  | cons task rest ih =>
      intro workflow closed
      rw [eachAddable_cons_iff, ← and_assoc, ← declares_addTask_iff closed]
      exact ih (closed.addTask task)

/-- The workflow with which construction begins. -/
theorem closed_empty (workflowId description : String) :
    ({ workflowId, description } : Workflow).Closed where
  keys key member := absurd member (OrderedDict.not_mem_empty key)
  upstreams _ _ edge := absurd edge.mem_dependencies (OrderedDict.not_mem_empty _)

/-- **A failed `add_task` leaves the workflow as it was if and only if the id was taken or
nothing that the task declares was missing; and after a run of calls each registered task has
the edges that it declares if and only if this was so for each call.** -/
theorem failed_addTask_iff (workflow : Workflow) (task : Task) (workflowId description : String)
    (tasks : List Task) :
    (workflow.AddsAtomically task ↔ workflow.Addable task) ∧
      ((({ workflowId, description } : Workflow).attemptAll (tasks.map .addTask)).Declares ↔
        ({ workflowId, description } : Workflow).EachAddable tasks) := by
  refine ⟨addsAtomically_iff, ?_⟩
  rw [declares_attemptAll_iff tasks (closed_empty workflowId description)]
  exact and_iff_right fun taskId task stored => by cases stored

/-- A task that declares another one, which is registered too late. -/
def earlyTask : Task where
  taskId := "early"
  dependsOn := ["late"]
  taskId_valid := by decide

/-- What the calls for this task and for the declared one leave behind. -/
def hasty : Workflow :=
  ({ workflowId := "hasty" } : Workflow).attemptAll
    [.addTask earlyTask, .addTask { taskId := "late", taskId_valid := by decide }]

/-- The call raises, the task stays registered without its edge, and the graph is accepted with
the task ahead of the one that it declares. -/
theorem early_stays_registered :
    (({ workflowId := "hasty" } : Workflow).addTask earlyTask).2 = .error (.unknownTask "late") ∧
      "early" ∈ (({ workflowId := "hasty" } : Workflow).addTask earlyTask).1.tasks ∧
      ¬ ({ workflowId := "hasty" } : Workflow).AddsAtomically earlyTask ∧
      hasty.validateGraph = [] ∧ hasty.topologicalOrder = .ok ["early", "late"] ∧
      ¬ hasty.Declares := by
  have raised : (({ workflowId := "hasty" } : Workflow).addTask earlyTask).2 =
      .error (.unknownTask "late") := by decide +kernel
  have stays : "early" ∈ (({ workflowId := "hasty" } : Workflow).addTask earlyTask).1.tasks := by
    decide +kernel
  refine ⟨raised, stays, fun atomic => ?_, by decide +kernel, by decide +kernel,
    fun declares => ?_⟩
  · rw [(atomic _ raised).1] at stays
    exact absurd stays (OrderedDict.not_mem_empty _)
  · have edge := declares "early" earlyTask rfl "late" List.mem_cons_self
    exact absurd edge (by decide +kernel)

/-! ## What every sequence of calls enforces -/

/-- What the checks of `add_task` and `add_dependency` enforce. -/
structure Enforced (workflow : Workflow) : Prop where
  closed : workflow.Closed
  noSelf : ∀ taskId, ¬ workflow.Edge taskId taskId

theorem Enforced.wiring {taskId : String} {after : Workflow} (enforced : workflow.Enforced)
    (wiring : Wiring taskId workflow after) : after.Enforced where
  closed := wiring.closed enforced.closed
  noSelf other edge := by
    rcases wiring.new other other edge with old | ⟨rfl, _, different⟩
    · exact enforced.noSelf other old
    · exact different rfl

theorem Enforced.attempt (enforced : workflow.Enforced) (call : ConstructionCall) :
    (workflow.attempt call).1.Enforced := by
  cases call with
  | addTask task =>
      rw [Workflow.attempt]
      cases workflow.adds task with
      | rejected _ unchanged => rwa [unchanged]
      | registered _ wiring _ _ =>
          have registered : (workflow.register task).Enforced :=
            ⟨enforced.closed.register task, enforced.noSelf⟩
          exact registered.wiring wiring
  | addDependency taskId upstreamId =>
      rw [Workflow.attempt]
      split
      · exact enforced
      · rename_i wired added
        exact enforced.wiring (wiring_of_addDependency added)

theorem enforced_attemptAll (workflowId description : String) (calls : List ConstructionCall) :
    (({ workflowId, description } : Workflow).attemptAll calls).Enforced := by
  refine attemptAll_induction ⟨closed_empty workflowId description, fun taskId edge => ?_⟩
    fun built enforced call _ => enforced.attempt call
  exact absurd edge.mem_dependencies (OrderedDict.not_mem_empty _)

/-- The entries of the dependencies have no problem. -/
theorem Enforced.validateGraph_eq (enforced : workflow.Enforced) : workflow.validateGraph =
    (if workflow.tasks.keys = [] then ["workflow must define at least one task"] else []) ++
      workflow.findCycles.map fun cycle =>
        "dependency cycle: " ++ " -> ".intercalate (cycle ++ cycle.take 1) := by
  have entries := entries_ok_iff.mpr ⟨enforced.closed, enforced.noSelf⟩
  rw [validateGraph, List.flatMap_eq_nil_iff.mpr entries, List.append_nil]

/-- Without self edges a cycle has two tasks. -/
theorem Enforced.two_le_length (enforced : workflow.Enforced) {cycle : List String}
    (simple : IsSimpleCycle workflow.Follows cycle) : 2 ≤ cycle.length := by
  rcases cycle with _ | ⟨first, _ | ⟨second, rest⟩⟩
  · exact absurd rfl simple.nonempty
  · have closed := simple.closed
    rw [List.take_succ_cons, List.take_zero, List.singleton_append, List.isChain_cons_cons]
      at closed
    exact absurd closed.1.2.2 (enforced.noSelf first)
  · simp

/-- A problem that the validation can find in a workflow that is built by calls. -/
inductive BuiltProblem (workflow : Workflow) : String → Prop where
  | empty (none : workflow.tasks.keys = []) :
      BuiltProblem workflow "workflow must define at least one task"
  | cycle {cycle : List String} (genuine : workflow.GenuineCycle cycle) (two : 2 ≤ cycle.length) :
      BuiltProblem workflow
        ("dependency cycle: " ++ " -> ".intercalate (cycle ++ cycle.take 1))

theorem Enforced.builtProblem (enforced : workflow.Enforced) {message : String}
    (reported : message ∈ workflow.validateGraph) : workflow.BuiltProblem message := by
  rw [enforced.validateGraph_eq] at reported
  rcases List.mem_append.mp reported with isEmpty | isCycle
  · split at isEmpty
    · rw [List.mem_singleton.mp isEmpty]
      exact .empty ‹_›
    · exact absurd isEmpty List.not_mem_nil
  · obtain ⟨cycle, found, rfl⟩ := List.mem_map.mp isCycle
    have simple := simple_of_mem_findCycles found
    exact .cycle (genuine_of_simple simple) (enforced.two_le_length simple)

/-! ## Tasks that are registered after their upstreams -/

/-- The order in which the tasks were registered puts upstreams first. -/
def RegisteredInOrder (workflow : Workflow) : Prop :=
  IsLinearExtension workflow.Edge workflow.tasks.keySet workflow.tasks.keys

theorem RegisteredInOrder.addTask (inOrder : workflow.RegisteredInOrder)
    (enforced : workflow.Enforced) (task : Task) :
    (workflow.addTask task).1.RegisteredInOrder := by
  cases workflow.adds task with
  | rejected _ unchanged => rwa [unchanged]
  | registered new wiring _ _ =>
      have keys : (workflow.addTask task).1.tasks.keys =
          workflow.tasks.keys ++ [task.taskId] := by
        rw [wiring.tasks]
        exact OrderedDict.keys_set_of_not_mem task new
      refine ⟨OrderedDict.keys_nodup _, fun taskId => Iff.rfl, ?_⟩
      rw [keys]
      refine forall_positions_concat (fun earlier taskId later split up _ edge => ?_)
        fun up _ edge => ?_
      · have known : taskId ∈ workflow.tasks := by
          rw [OrderedDict.mem_def, split]
          exact List.mem_append_right _ List.mem_cons_self
        rcases wiring.new up taskId edge with old | ⟨rfl, _⟩
        · exact inOrder.respects earlier taskId later split up
            (enforced.closed.upstreams taskId up old) old
        · exact absurd known new
      · rcases wiring.new up task.taskId edge with old | ⟨_, known, different⟩
        · exact enforced.closed.upstreams task.taskId up old
        · exact (OrderedDict.mem_set.mp known).resolve_left different

theorem registeredInOrder_attemptAll (workflowId description : String) (tasks : List Task) :
    (({ workflowId, description } : Workflow).attemptAll
      (tasks.map .addTask)).RegisteredInOrder := by
  have both : (({ workflowId, description } : Workflow).attemptAll
      (tasks.map .addTask)).RegisteredInOrder ∧
      (({ workflowId, description } : Workflow).attemptAll (tasks.map .addTask)).Enforced := by
    refine attemptAll_induction (P := fun built => built.RegisteredInOrder ∧ built.Enforced)
      ⟨⟨List.nodup_nil, fun _ => Iff.rfl, ?_⟩, enforced_attemptAll workflowId description []⟩ ?_
    · intro earlier taskId later split
      cases earlier <;> cases split
    · rintro built ⟨inOrder, enforced⟩ call member
      obtain ⟨task, _, rfl⟩ := List.mem_map.mp member
      exact ⟨inOrder.addTask enforced task, enforced.attempt (.addTask task)⟩
  exact both.1

/-- Tasks that are registered after their upstreams have no cycle. -/
theorem RegisteredInOrder.acyclic (inOrder : workflow.RegisteredInOrder)
    (closed : workflow.Closed) : workflow.Acyclic :=
  IsLinearExtension.acyclic inOrder fun up task edge => closed.upstreams task up edge

/-- **After every sequence of calls whose errors are caught, each key and each upstream is a
registered task, no task is its own upstream, and the validation finds nothing but emptiness
and cycles through several tasks; with `add_task` alone it accepts the graph once there is a
task.** -/
theorem construction_enforces (workflowId description : String)
    (calls : List ConstructionCall) (tasks : List Task) :
    let built := ({ workflowId, description } : Workflow).attemptAll calls
    let added := ({ workflowId, description } : Workflow).attemptAll (tasks.map .addTask)
    (∀ key ∈ built.dependencies, key ∈ built.tasks) ∧
      (∀ taskId, ∀ up ∈ built.upstream taskId, up ∈ built.tasks ∧ up ≠ taskId) ∧
      (∀ message ∈ built.validateGraph, built.BuiltProblem message) ∧
      added.Acyclic ∧ (added.tasks.keys ≠ [] → added.validateGraph = []) := by
  intro built added
  have enforced : built.Enforced := enforced_attemptAll workflowId description calls
  have addedEnforced : added.Enforced := enforced_attemptAll workflowId description _
  have acyclic : added.Acyclic :=
    (registeredInOrder_attemptAll workflowId description tasks).acyclic addedEnforced.closed
  refine ⟨enforced.closed.keys,
    fun taskId up edge => ⟨enforced.closed.upstreams taskId up edge, ?_⟩,
    fun message reported => enforced.builtProblem reported, acyclic, fun nonempty => ?_⟩
  · rintro rfl
    exact enforced.noSelf up edge
  · exact validateGraph_eq_nil_iff_valid.mpr ⟨nonempty, addedEnforced.closed, acyclic⟩

/-- One call that fails half way, and one that repeats an id. -/
theorem construction_enforces_hasty : (({ workflowId := "hasty" } : Workflow).attemptAll
    ([earlyTask, earlyTask].map .addTask)).validateGraph = [] :=
  (construction_enforces "hasty" "" [] [earlyTask, earlyTask]).2.2.2.2 (by decide +kernel)

end Workflow

end EtlOrchestrator
