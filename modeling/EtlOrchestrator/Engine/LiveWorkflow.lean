import EtlOrchestrator.Engine.DeclaredDependencies
import EtlOrchestrator.Engine.SilentRuns
import EtlOrchestrator.Foundations.Rewiring
import EtlOrchestrator.Dag.DanglingKeys

/-!
# Edits of a workflow after its engine was constructed

The constructor of an engine validates the workflow and copies the callables, but it
keeps the workflow itself, whose dictionaries are public. `run` validates nothing
again. So no callable is called on an invalid graph as long as the graph at the start of
the run is guarded (`edited_run_safe`): it is executable, or it is refused before the
first task, or its plan is silent. On any other graph a first job with a callable is
called (`exists_call`).

An edit keeps an executable workflow executable if and only if it meets the condition of
its kind (`Executable.apply_iff`).
-/

set_option autoImplicit false

namespace EtlOrchestrator

open Relation

/-! ## Edits -/

/-- An edit of the public fields of a workflow, or a call of one of its methods. -/
inductive Edit where
  /-- `workflow.tasks[task_id] = task` -/
  | setTask (taskId : String) (task : Task)
  /-- `workflow.tasks.pop(task_id, None)` -/
  | removeTask (taskId : String)
  /-- `workflow.dependencies[task_id] = upstream` -/
  | setUpstreams (taskId : String) (upstream : Finset String)
  /-- `workflow.dependencies.pop(task_id, None)` -/
  | removeUpstreams (taskId : String)
  /-- `workflow.tasks = tasks` -/
  | assignTasks (tasks : OrderedDict String Task)
  /-- `workflow.dependencies = dependencies` -/
  | assignDependencies (dependencies : OrderedDict String (Finset String))
  /-- `workflow.add_task(task)`, whether it returns or raises -/
  | addTask (task : Task)
  /-- `workflow.add_dependency(task_id, upstream_id)`, whether it returns or raises -/
  | addDependency (taskId upstreamId : String)

namespace Edit

/-- The workflow after an edit. -/
def apply (workflow : Workflow) : Edit → Workflow
  | .setTask taskId task => { workflow with tasks := workflow.tasks.set taskId task }
  | .removeTask taskId => { workflow with tasks := workflow.tasks.erase taskId }
  | .setUpstreams taskId upstream =>
      { workflow with dependencies := workflow.dependencies.set taskId upstream }
  | .removeUpstreams taskId =>
      { workflow with dependencies := workflow.dependencies.erase taskId }
  | .assignTasks tasks => { workflow with tasks }
  | .assignDependencies dependencies => { workflow with dependencies }
  | .addTask task => (workflow.addTask task).1
  | .addDependency taskId upstreamId =>
      match workflow.addDependency taskId upstreamId with
      | .ok wired => wired
      | .error _ => workflow

/-- The workflow after some edits. -/
def applyAll (workflow : Workflow) (edits : List Edit) : Workflow := edits.foldl apply workflow

end Edit

/-- What the constructor of an engine asks of a workflow: it is valid, and its tasks have
callables. -/
structure Executable (callables : OrderedDict String TaskCallable) (workflow : Workflow) :
    Prop where
  valid : workflow.Valid
  covered : ∀ taskId ∈ workflow.tasks, taskId ∈ callables

/-- When an edit keeps a workflow executable. -/
def Edit.Allowed (callables : OrderedDict String TaskCallable) (workflow : Workflow) :
    Edit → Prop
  | .setTask taskId _ => taskId ∈ callables
  | .removeTask taskId => taskId ∈ workflow.tasks →
      taskId ∉ workflow.dependencies ∧ (∀ task, ¬ workflow.Edge taskId task) ∧
        ∃ other ∈ workflow.tasks, other ≠ taskId
  | .setUpstreams taskId upstream => taskId ∈ workflow.tasks ∧
      ∀ up ∈ upstream, up ∈ workflow.tasks ∧ ¬ ReflTransGen workflow.Edge taskId up
  | .removeUpstreams _ => True
  | .assignTasks tasks => tasks.keys ≠ [] ∧ (∀ taskId ∈ tasks, taskId ∈ callables) ∧
      (∀ taskId ∈ workflow.dependencies, taskId ∈ tasks) ∧
      ∀ task up, workflow.Edge up task → up ∈ tasks
  | .assignDependencies dependencies =>
      Workflow.Closed { workflow with dependencies } ∧
        Workflow.Acyclic { workflow with dependencies }
  | .addTask task => task.taskId ∈ callables
  | .addDependency taskId upstreamId => taskId ∈ workflow.tasks → upstreamId ∈ workflow.tasks →
      taskId ≠ upstreamId → ¬ ReflTransGen workflow.Edge taskId upstreamId

/-- Every edit of a list is allowed when its turn comes. -/
def Edit.AllAllowed (callables : OrderedDict String TaskCallable) : Workflow → List Edit → Prop
  | _, [] => True
  | workflow, edit :: rest => edit.Allowed callables workflow ∧
      AllAllowed callables (edit.apply workflow) rest

/-! ## Edits of the edges -/

namespace Executable

variable {callables : OrderedDict String TaskCallable} {workflow : Workflow}
  {taskId upstreamId : String}

theorem edge_setUpstreams (workflow : Workflow) (taskId : String) (upstream : Finset String) :
    ({ workflow with dependencies := workflow.dependencies.set taskId upstream } : Workflow).Edge =
      Rewired workflow.Edge taskId (· ∈ upstream) := by
  funext up task
  rw [Workflow.Edge, Workflow.upstream, OrderedDict.getD, OrderedDict.get?_set, eq_iff_iff]
  by_cases same : task = taskId
  · simp [Rewired, same]
  · simp [Rewired, same, Workflow.Edge, Workflow.upstream, OrderedDict.getD]

theorem edge_removeUpstreams (workflow : Workflow) (taskId : String) :
    ({ workflow with dependencies := workflow.dependencies.erase taskId } : Workflow).Edge =
      Rewired workflow.Edge taskId fun _ => False := by
  funext up task
  rw [Workflow.Edge, Workflow.upstream, OrderedDict.getD, OrderedDict.get?_erase, eq_iff_iff]
  by_cases same : task = taskId
  · simp [Rewired, same]
  · simp [Rewired, same, Workflow.Edge, Workflow.upstream, OrderedDict.getD]

/-- New upstreams of a task are known, and none of them depends on it. -/
theorem setUpstreams_iff (executable : Executable callables workflow) {upstream : Finset String} :
    Executable callables
        { workflow with dependencies := workflow.dependencies.set taskId upstream } ↔
      taskId ∈ workflow.tasks ∧
        ∀ up ∈ upstream, up ∈ workflow.tasks ∧ ¬ ReflTransGen workflow.Edge taskId up := by
  obtain ⟨⟨nonempty, closed, acyclic⟩, covered⟩ := executable
  have edges := edge_setUpstreams workflow taskId upstream
  have acyclicIff : Workflow.Acyclic
      { workflow with dependencies := workflow.dependencies.set taskId upstream } ↔
      ∀ up ∈ upstream, ¬ ReflTransGen workflow.Edge taskId up := by
    rw [Workflow.Acyclic, edges]
    exact Rewired.acyclic_iff acyclic
  constructor
  · rintro ⟨⟨_, newClosed, newAcyclic⟩, _⟩
    refine ⟨newClosed.keys taskId (OrderedDict.mem_set.mpr (.inl rfl)), fun up member =>
      ⟨newClosed.upstreams taskId up ?_, acyclicIff.mp newAcyclic up member⟩⟩
    rw [edges]
    exact .inr ⟨rfl, member⟩
  · rintro ⟨known, upstreams⟩
    refine ⟨⟨nonempty, ⟨fun task member => ?_, fun task up edge => ?_⟩,
      acyclicIff.mpr fun up member => (upstreams up member).2⟩, covered⟩
    · rcases OrderedDict.mem_set.mp member with rfl | old
      · exact known
      · exact closed.keys task old
    · rw [edges] at edge
      rcases edge with ⟨_, old⟩ | ⟨rfl, new⟩
      · exact closed.upstreams task up old
      · exact (upstreams up new).1

theorem removeUpstreams (executable : Executable callables workflow) (taskId : String) :
    Executable callables
      { workflow with dependencies := workflow.dependencies.erase taskId } := by
  obtain ⟨⟨nonempty, closed, acyclic⟩, covered⟩ := executable
  have edges := edge_removeUpstreams workflow taskId
  refine ⟨⟨nonempty, ⟨fun task member => closed.keys task (OrderedDict.mem_erase.mp member).1,
    fun task up edge => ?_⟩, ?_⟩, covered⟩
  · rw [edges] at edge
    rcases edge with ⟨_, old⟩ | ⟨_, none⟩
    · exact closed.upstreams task up old
    · exact none.elim
  · rw [Workflow.Acyclic, edges]
    exact (Rewired.acyclic_iff acyclic).mpr fun _ none => none.elim

/-- A dependency that is added closes no cycle. -/
theorem addDependency_iff (executable : Executable callables workflow) {wired : Workflow}
    (added : workflow.addDependency taskId upstreamId = .ok wired) :
    Executable callables wired ↔ ¬ ReflTransGen workflow.Edge taskId upstreamId := by
  obtain ⟨upKnown, known, _, rfl⟩ := Workflow.addDependency_eq_ok_iff.mp added
  rw [executable.setUpstreams_iff, and_iff_right known]
  constructor
  · exact fun upstreams => (upstreams upstreamId (Finset.mem_insert_self _ _)).2
  · intro apart up member
    rcases Finset.mem_insert.mp member with rfl | old
    · exact ⟨upKnown, apart⟩
    · exact ⟨executable.valid.closed.upstreams taskId up old, fun path =>
        executable.valid.acyclic taskId (.tail' path old)⟩

/-! ## Edits of the tasks -/

/-- Other tasks for the same edges. -/
theorem assignTasks_iff (executable : Executable callables workflow)
    {tasks : OrderedDict String Task} : Executable callables { workflow with tasks } ↔
      tasks.keys ≠ [] ∧ (∀ taskId ∈ tasks, taskId ∈ callables) ∧
        (∀ taskId ∈ workflow.dependencies, taskId ∈ tasks) ∧
        ∀ task up, workflow.Edge up task → up ∈ tasks := by
  constructor
  · rintro ⟨⟨nonempty, closed, _⟩, covered⟩
    exact ⟨nonempty, covered, closed.keys, closed.upstreams⟩
  · rintro ⟨nonempty, covered, keys, upstreams⟩
    exact ⟨⟨nonempty, ⟨keys, upstreams⟩, executable.valid.acyclic⟩, covered⟩

theorem setTask_iff (executable : Executable callables workflow) (task : Task) :
    Executable callables { workflow with tasks := workflow.tasks.set taskId task } ↔
      taskId ∈ callables := by
  rw [executable.assignTasks_iff]
  obtain ⟨⟨_, closed, _⟩, covered⟩ := executable
  constructor
  · rintro ⟨_, newCovered, _⟩
    exact newCovered taskId (OrderedDict.mem_set.mpr (.inl rfl))
  · intro member
    refine ⟨List.ne_nil_of_mem (OrderedDict.mem_set.mpr (.inl rfl)), fun other inTasks => ?_,
      fun other key => OrderedDict.mem_set.mpr (.inr (closed.keys other key)),
      fun other up edge => OrderedDict.mem_set.mpr (.inr (closed.upstreams other up edge))⟩
    rcases OrderedDict.mem_set.mp inTasks with rfl | old
    · exact member
    · exact covered other old

/-- A task that is removed is not the last one, and no entry or edge mentions it. -/
theorem removeTask_iff (executable : Executable callables workflow)
    (known : taskId ∈ workflow.tasks) :
    Executable callables { workflow with tasks := workflow.tasks.erase taskId } ↔
      taskId ∉ workflow.dependencies ∧ (∀ task, ¬ workflow.Edge taskId task) ∧
        ∃ other ∈ workflow.tasks, other ≠ taskId := by
  rw [executable.assignTasks_iff]
  obtain ⟨⟨_, closed, _⟩, covered⟩ := executable
  constructor
  · rintro ⟨nonempty, _, keys, upstreams⟩
    refine ⟨fun key => (OrderedDict.mem_erase.mp (keys taskId key)).2 rfl,
      fun task edge => (OrderedDict.mem_erase.mp (upstreams task taskId edge)).2 rfl, ?_⟩
    obtain ⟨other, member⟩ := List.exists_mem_of_ne_nil _ nonempty
    exact ⟨other, OrderedDict.mem_erase.mp member⟩
  · rintro ⟨notKey, notUp, other, otherKnown, different⟩
    refine ⟨List.ne_nil_of_mem (OrderedDict.mem_erase.mpr ⟨otherKnown, different⟩),
      fun task member => covered task (OrderedDict.mem_erase.mp member).1,
      fun task key => OrderedDict.mem_erase.mpr ⟨closed.keys task key, ?_⟩,
      fun task up edge => OrderedDict.mem_erase.mpr ⟨closed.upstreams task up edge, ?_⟩⟩
    · rintro rfl
      exact notKey key
    · rintro rfl
      exact notUp task edge

/-- Wiring a task that has no dependents closes no cycle. -/
theorem addDependencies (upstreamIds : List String) : ∀ {workflow : Workflow},
    Executable callables workflow → (∀ task, ¬ workflow.Edge taskId task) →
      Executable callables (workflow.addDependencies taskId upstreamIds).1 := by
  induction upstreamIds with
  | nil => exact fun executable _ => executable
  | cons upstreamId rest ih =>
      intro workflow executable noDependents
      rw [Workflow.addDependencies]
      cases added : workflow.addDependency taskId upstreamId with
      | error error => exact executable
      | ok wired =>
          obtain ⟨_, _, different, _⟩ := Workflow.addDependency_eq_ok_iff.mp added
          refine ih ((executable.addDependency_iff added).mpr fun path => ?_) fun task edge => ?_
          · rcases path.cases_head with same | ⟨task, first, _⟩
            · exact different same
            · exact noDependents task first
          · rcases (Workflow.edge_of_addDependency added taskId task).mp edge with old | ⟨same, _⟩
            · exact noDependents task old
            · exact different same

/-- Wiring changes no task, whether it returns or raises. -/
theorem tasks_addDependencies (upstreamIds : List String) : ∀ workflow : Workflow,
    (workflow.addDependencies taskId upstreamIds).1.tasks = workflow.tasks := by
  induction upstreamIds with
  | nil => exact fun _ => rfl
  | cons upstreamId rest ih =>
      intro workflow
      rw [Workflow.addDependencies]
      cases added : workflow.addDependency taskId upstreamId with
      | error error => rfl
      | ok wired =>
          obtain ⟨_, _, _, rfl⟩ := Workflow.addDependency_eq_ok_iff.mp added
          exact ih _

/-- A task that is added needs a callable, whatever it declares. -/
theorem addTask_iff (executable : Executable callables workflow) (task : Task) :
    Executable callables (workflow.addTask task).1 ↔ task.taskId ∈ callables := by
  rw [Workflow.addTask]
  by_cases known : task.taskId ∈ workflow.tasks
  · rw [if_pos known]
    exact iff_of_true executable (executable.covered _ known)
  · rw [if_neg known]
    constructor
    · intro added
      refine added.covered task.taskId ?_
      rw [tasks_addDependencies]
      exact OrderedDict.mem_set.mpr (.inl rfl)
    · intro member
      refine ((executable.setTask_iff task).mpr member).addDependencies _ fun other edge => ?_
      exact known (executable.valid.closed.upstreams other task.taskId edge)

/-! ## All edits -/

/-- **An edit keeps a workflow executable if and only if it is allowed.** -/
theorem apply_iff (executable : Executable callables workflow) (edit : Edit) :
    Executable callables (edit.apply workflow) ↔ edit.Allowed callables workflow := by
  cases edit with
  | setTask taskId task => exact executable.setTask_iff task
  | removeTask taskId =>
      by_cases known : taskId ∈ workflow.tasks
      · exact (executable.removeTask_iff known).trans ⟨fun removed _ => removed,
          fun removed => removed known⟩
      · refine iff_of_true ?_ fun isKnown => absurd isKnown known
        rw [Edit.apply, OrderedDict.erase_of_not_mem known]
        exact executable
  | setUpstreams taskId upstream => exact executable.setUpstreams_iff
  | removeUpstreams taskId => exact iff_of_true (executable.removeUpstreams taskId) trivial
  | assignTasks tasks => exact executable.assignTasks_iff
  | assignDependencies dependencies =>
      exact ⟨fun assigned => ⟨assigned.valid.closed, assigned.valid.acyclic⟩,
        fun assigned => ⟨⟨executable.valid.nonempty, assigned.1, assigned.2⟩, executable.covered⟩⟩
  | addTask task => exact executable.addTask_iff task
  | addDependency taskId upstreamId =>
      rw [Edit.apply, Edit.Allowed]
      cases added : workflow.addDependency taskId upstreamId with
      | ok wired =>
          obtain ⟨upKnown, known, different, _⟩ := Workflow.addDependency_eq_ok_iff.mp added
          exact (executable.addDependency_iff added).trans
            ⟨fun apart _ _ _ => apart, fun apart => apart known upKnown different⟩
      | error error =>
          refine iff_of_true executable fun known upKnown different => ?_
          have wired := Workflow.addDependency_eq_ok_iff.mpr ⟨upKnown, known, different, rfl⟩
          rw [added] at wired
          cases wired

/-- Edits that are allowed keep a workflow executable. -/
theorem applyAll (edits : List Edit) : ∀ {workflow : Workflow},
    Executable callables workflow → Edit.AllAllowed callables workflow edits →
      Executable callables (Edit.applyAll workflow edits) := by
  induction edits with
  | nil => exact fun executable _ => executable
  | cons edit rest ih =>
      exact fun executable allowed => ih ((executable.apply_iff edit).mpr allowed.1) allowed.2

end Executable

/-! ## Runs on an edited workflow -/

/-- The engine when its workflow has become another one. -/
def WorkflowEngine.onto (engine : WorkflowEngine) (workflow : Workflow) : WorkflowEngine :=
  { engine with workflow }

namespace WorkflowEngine

variable {engine : WorkflowEngine} {env : Env} {machine : Machine}

/-- Why a run on a workflow calls no callable unless the workflow is executable: it is executable,
or no batches can be made of it, or its batches are silent. -/
inductive Guarded (engine : WorkflowEngine) : Prop where
  | executable (executable : Executable engine.tasks engine.workflow)
  | refused {error : PyError} (raised : engine.batches = .error error)
  | silent {planned : List (List String)} (computed : engine.batches = .ok planned)
      (silent : engine.Silent planned)

/-- **A run that is guarded calls no callable unless its workflow is executable.** -/
theorem Guarded.executable_of_called (guarded : engine.Guarded)
    (run : engine.Steps env (engine.start env) machine) (called : machine.shared.calls ≠ []) :
    Executable engine.tasks engine.workflow := by
  cases guarded with
  | executable executable => exact executable
  | @refused error raised =>
      obtain ⟨shared, began, views, _⟩ := engine.beginRun_view env
      have uncalled : shared.calls = [] :=
        RunState.calls_eq_nil fun taskId => by rw [views]; rfl
      have start : engine.start env = { shared, levels := [], status := .raised error } := by
        rw [start, began, raised]
      rw [start] at run
      rcases run.cases_head with rfl | ⟨_, first, _⟩
      · exact absurd uncalled called
      · cases first.running
  | silent computed silent => exact absurd (silent.calls computed run) called

end WorkflowEngine

/-- Edits of which each is allowed keep the runs guarded. -/
theorem AcceptedEngine.guarded_of_allAllowed (engine : AcceptedEngine) {edits : List Edit}
    (allowed : Edit.AllAllowed engine.tasks engine.workflow edits) :
    (engine.onto (Edit.applyAll engine.workflow edits)).Guarded := by
  have executable : Executable engine.tasks engine.workflow :=
    ⟨engine.valid, fun taskId known => (engine.mem_tasks taskId).mpr known⟩
  exact .executable (executable.applyAll edits allowed)

/-- So do edits that leave a graph which is not balanced, such as one with a cycle and no dangling
key. -/
theorem AcceptedEngine.guarded_of_unbalanced (engine : AcceptedEngine) {edits : List Edit}
    (unbalanced : ¬ (Edit.applyAll engine.workflow edits).Balanced) :
    (engine.onto (Edit.applyAll engine.workflow edits)).Guarded := by
  obtain ⟨_, _, _, _, outcome⟩ := (Edit.applyAll engine.workflow edits).topologicalOrder_cases
  obtain ⟨_, cycle, unordered⟩ := outcome.resolve_left fun balanced => unbalanced balanced.1
  have same : (engine.onto (Edit.applyAll engine.workflow edits)).workflow.topologicalOrder =
      .error (.dependencyCycle cycle) := unordered
  have raised : (engine.onto (Edit.applyAll engine.workflow edits)).batches =
      .error (.orchestration (.dependencyCycle cycle)) := by
    rw [WorkflowEngine.batches, WorkflowEngine.dependencyLevels, WorkflowEngine.topologicalOrder,
      same]
    split <;> rfl
  exact .refused raised

/-! ## The first job -/

section FirstJob

open WorkflowEngine

variable {engine : WorkflowEngine} {env : Env} {taskId : String} {state : RunState}

/-- No task has been touched. -/
def RunState.Untouched (state : RunState) : Prop := ∀ taskId, state.view taskId = .fresh taskId

theorem RunState.Untouched.pending (untouched : state.Untouched) (taskId : String) :
    state.stateOf taskId = .pending := by
  rw [RunState.stateOf_eq, untouched taskId]
  rfl

theorem RunState.Untouched.record (untouched : state.Untouched) (taskId : String) :
    (state.record taskId).Untouched := by
  intro other
  rw [RunState.view_record]
  exact untouched other

theorem threadStep_of_ok {pc next : Pc} {after : RunState} (unfinished : pc.ended = false)
    (ran : (engine.act env taskId pc).run state = .ok next after) :
    engine.ThreadStep env taskId (state, pc) (after, next) :=
  ⟨unfinished, (advance_of_ok ran).symm⟩

variable (engine env taskId) in
/-- A scan of upstreams that have not been touched goes through all of them. -/
theorem scan_untouched (upstreams : List String) : ∀ {state : RunState}, state.Untouched →
    ∃ after, after.Untouched ∧
      ReflTransGen (engine.ThreadStep env taskId) (state, .scan upstreams) (after, .refresh) := by
  induction upstreams with
  | nil =>
      intro state untouched
      exact ⟨state, untouched, .single (threadStep_of_ok rfl rfl)⟩
  | cons up rest ih =>
      intro state untouched
      obtain ⟨after, stays, steps⟩ := ih (untouched.record up)
      have look : engine.ThreadStep env taskId (state, .scan (up :: rest))
          (state.record up, .scanCheck up rest) := threadStep_of_ok rfl rfl
      have pass : engine.ThreadStep env taskId (state.record up, .scanCheck up rest)
          (state.record up, .scan rest) :=
        threadStep_of_ok rfl (by simp [act, (untouched.record up).pending up])
      exact ⟨after, stays, .head look (.head pass steps)⟩

variable (env) in
/-- The first task that is executed calls its callable. -/
theorem call_of_untouched (untouched : state.Untouched) (known : taskId ∈ engine.workflow.tasks)
    (callable : taskId ∈ engine.tasks) : ∃ after, after.1.calls ≠ [] ∧
      ReflTransGen (engine.ThreadStep env taskId) (state, .enter) after := by
  obtain ⟨task, defined⟩ := OrderedDict.mem_iff_get?_isSome.mp known |> Option.isSome_iff_exists.mp
  obtain ⟨callable, found⟩ :=
    OrderedDict.mem_iff_get?_isSome.mp callable |> Option.isSome_iff_exists.mp
  have recorded := untouched.record taskId
  obtain ⟨scanned, stays, scan⟩ := scan_untouched engine env taskId
    (env.iterate taskId (engine.workflow.upstream taskId)) recorded
  have pending := (stays.record taskId).pending taskId
  have legal : canTransition ((scanned.record taskId).stateOf taskId) .running := by
    rw [pending]
    decide
  let attempt := ((scanned.record taskId).recordOf taskId).attempts + 1
  let checked := (scanned.record taskId).emit (.checked taskId
    ((scanned.record taskId).stateOf taskId) .running)
  obtain ⟨started, start, _⟩ := startAttempt_view env checked taskId task attempt
  obtain ⟨hooked, hook, _⟩ := taskHook_view started taskId .taskStart
  refine ⟨engine.advance env taskId hooked (.call task attempt), ?_, ?_⟩
  · have ran : (engine.callTask env taskId attempt).run hooked =
        .ok (callable (engine.context env taskId attempt))
          (hooked.emit (.called (engine.context env taskId attempt))) := by
      rw [callTask, found]
      rfl
    rw [advance, act, EStateM.run_bind, ran]
    cases callable (engine.context env taskId attempt) <;>
      simp [RunState.calls, RunState.emit, Event.call?]
  · have enter : engine.ThreadStep env taskId (state, .enter) (state.record taskId, .firstCheck) :=
      threadStep_of_ok rfl rfl
    have first : engine.ThreadStep env taskId (state.record taskId, .firstCheck)
        (state.record taskId, .scan (env.iterate taskId (engine.workflow.upstream taskId))) :=
      threadStep_of_ok rfl (by simp [act, recorded.pending taskId])
    have refresh : engine.ThreadStep env taskId (scanned, .refresh)
        (scanned.record taskId, .secondCheck) := threadStep_of_ok rfl rfl
    have second : engine.ThreadStep env taskId (scanned.record taskId, .secondCheck)
        (scanned.record taskId, .define) := threadStep_of_ok rfl (by simp [act, pending])
    have define : engine.ThreadStep env taskId (scanned.record taskId, .define)
        (scanned.record taskId, .checkStart task attempt) :=
      threadStep_of_ok rfl (by rw [act, taskDef, defined]; rfl)
    have check : engine.ThreadStep env taskId (scanned.record taskId, .checkStart task attempt)
        (checked, .start task attempt) :=
      threadStep_of_ok rfl (by rw [act, EStateM.run_bind, Exec.run_transition legal]; rfl)
    have begin : engine.ThreadStep env taskId (checked, .start task attempt)
        (started, .hookStart task attempt) :=
      threadStep_of_ok rfl (by rw [act, EStateM.run_bind, start]; rfl)
    have announce : engine.ThreadStep env taskId (started, .hookStart task attempt)
        (hooked, .call task attempt) :=
      threadStep_of_ok rfl (by rw [act, EStateM.run_bind, hook]; rfl)
    have call : engine.ThreadStep env taskId (hooked, .call task attempt)
        (engine.advance env taskId hooked (.call task attempt)) := ⟨rfl, rfl⟩
    exact .head enter (.head first (scan.trans (.head refresh (.head second (.head define
      (.head check (.head begin (.head announce (.single call)))))))))

/-- A run whose first job is a task with a callable calls it. -/
theorem exists_call {first : String} {rest : List String} {later : List (List String)}
    (enough : 1 ≤ engine.maxWorkers) (computed : engine.batches = .ok ((first :: rest) :: later))
    (known : first ∈ engine.workflow.tasks) (callable : first ∈ engine.tasks) :
    ∃ machine, engine.Steps env (engine.start env) machine ∧ machine.shared.calls ≠ [] := by
  obtain ⟨shared, began, untouched, _⟩ := engine.beginRun_view env
  have start : engine.start env = { shared, levels := (first :: rest) :: later } := by
    rw [start, began, computed]
  obtain ⟨after, called, steps⟩ := call_of_untouched env untouched known callable
  let held : Machine :=
    { shared, levels := later, jobs := first :: rest, queue := rest, active := [first] }
  have taken : engine.Steps env (engine.start env) held := by
    rw [start]
    have submitted : ∀ job ∈ ([] : List String), (Pc.enter).error? = none := fun _ member =>
      absurd member List.not_mem_nil
    refine .tail (.single (.submit rfl rfl rfl rfl submitted)) (.take rfl rfl ?_)
    exact Nat.lt_min.mpr ⟨enough, Nat.succ_pos _⟩
  exact ⟨_, taken.trans (steps_of_thread held rfl List.mem_cons_self steps), called⟩

end FirstJob

/-! ## Runs after edits -/

/-- **After any edits, no callable is called on a graph that is not valid or lacks callables, when
the edited graph is executable, or is refused before the first task, or has a silent plan.** -/
theorem edited_run_safe (engine : AcceptedEngine) (edits : List Edit) (env : Env)
    {machine : Machine}
    (guarded : (engine.onto (Edit.applyAll engine.workflow edits)).Guarded)
    (run : (engine.onto (Edit.applyAll engine.workflow edits)).Steps env
      ((engine.onto (Edit.applyAll engine.workflow edits)).start env) machine)
    (called : machine.shared.calls ≠ []) :
    (Edit.applyAll engine.workflow edits).validateGraph = [] ∧
      ∀ taskId ∈ (Edit.applyAll engine.workflow edits).tasks, taskId ∈ engine.tasks := by
  have executable := guarded.executable_of_called run called
  exact ⟨Workflow.validateGraph_eq_nil_iff_valid.mpr executable.valid, executable.covered⟩

namespace WorkflowEngine

/-- Two tasks without edges. -/
def pings : AcceptedEngine where
  workflow :=
    { workflowId := "pings"
      tasks := ⟨[("ping", { taskId := "ping", taskId_valid := by decide }),
        ("pong", { taskId := "pong", taskId_valid := by decide })], by decide⟩ }
  tasks := ⟨[("ping", raisesUpTo 0), ("pong", raisesUpTo 0)], by decide⟩
  valid := Workflow.validateGraph_eq_nil_iff_valid.mp (by decide +kernel)
  mem_tasks := mem_iff_of_callables (by decide +kernel) (by decide +kernel)
  one_le_maxWorkers := one_le_default_maxWorkers

/-- A task that has no callable there. -/
def quietTask : Task where
  taskId := "quiet"
  taskId_valid := by decide

/-- The engine of these tasks after some edits. -/
def pingsAfter (edits : List Edit) : WorkflowEngine :=
  pings.onto (Edit.applyAll pings.workflow edits)

end WorkflowEngine

open WorkflowEngine

/-- A task is added and removed again, and the second task is made to wait for the first one, which
is called. -/
theorem edited_run_safe_wired : ∃ machine,
    (pingsAfter [.addTask quietTask, .removeTask "quiet", .addDependency "pong" "ping"]).Steps
      { runId := "run" } ((pingsAfter [.addTask quietTask, .removeTask "quiet",
        .addDependency "pong" "ping"]).start { runId := "run" }) machine ∧
    machine.shared.calls ≠ [] ∧
    (pingsAfter [.addTask quietTask, .removeTask "quiet",
      .addDependency "pong" "ping"]).workflow.validateGraph = [] := by
  have valid : (pingsAfter [.addTask quietTask, .removeTask "quiet",
      .addDependency "pong" "ping"]).workflow.validateGraph = [] := by decide +kernel
  have covered : ∀ taskId ∈ (pingsAfter [.addTask quietTask, .removeTask "quiet",
      .addDependency "pong" "ping"]).workflow.tasks.keys, taskId ∈ pings.tasks := by decide +kernel
  have batches : (pingsAfter [.addTask quietTask, .removeTask "quiet",
      .addDependency "pong" "ping"]).batches = .ok [["ping"], ["pong"]] := by decide +kernel
  obtain ⟨machine, steps, called⟩ := exists_call le_rfl batches
    (by decide +kernel) (by decide +kernel)
  have guarded := Guarded.executable
    ⟨Workflow.validateGraph_eq_nil_iff_valid.mp valid, covered⟩
  exact ⟨machine, steps, called, (edited_run_safe pings _ _ guarded steps called).1⟩

/-- A callable is called although an edit has left an upstream that is no task, and also
although one has left a task without a callable. -/
theorem pings_unsafe_after_edits :
    (∃ machine, (pingsAfter [.setUpstreams "ping" {"ghost"}]).Steps { runId := "run" }
        ((pingsAfter [.setUpstreams "ping" {"ghost"}]).start { runId := "run" }) machine ∧
        machine.shared.calls ≠ []) ∧
      (pingsAfter [.setUpstreams "ping" {"ghost"}]).workflow.validateGraph =
        ["unknown task id: 'ghost'"] ∧
    (∃ machine, (pingsAfter [.addTask quietTask]).Steps { runId := "run" }
        ((pingsAfter [.addTask quietTask]).start { runId := "run" }) machine ∧
        machine.shared.calls ≠ []) ∧
      quietTask.taskId ∈ (pingsAfter [.addTask quietTask]).workflow.tasks ∧
      quietTask.taskId ∉ (pingsAfter [.addTask quietTask]).tasks := by
  have dangling : (pingsAfter [.setUpstreams "ping" {"ghost"}]).batches =
      .ok [["ping"], ["pong"]] := by decide +kernel
  have bare : (pingsAfter [.addTask quietTask]).batches = .ok [["ping"], ["pong"], ["quiet"]] := by
    decide +kernel
  exact ⟨exists_call le_rfl dangling (by decide +kernel) (by decide +kernel), by decide +kernel,
    exists_call le_rfl bare (by decide +kernel) (by decide +kernel), by decide +kernel,
    by decide +kernel⟩

end EtlOrchestrator
