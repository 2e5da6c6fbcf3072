import EtlOrchestrator.Foundations.Thresholds
import EtlOrchestrator.Dag.TopologicalOrder

/-!
# The topological order of a graph that was not validated

The dictionaries of a workflow are public, so `topological_order` can be called on any
graph. A dangling key of `dependencies` has an entry in the indegree table. It is
emitted as a task is, and then lowers the indegree of its dependents, although that
counts only their upstreams which are tasks.

In any graph the loop emits the keys that fire (`mem_order_iff`): those for which as many
upstreams are emitted as they have known ones. The test after the loop compares only two
numbers, and so it is passed exactly when the graph is balanced
(`topologicalOrder_cases`). What the code promises holds if and only if no key is
dangling, or the tasks have a cycle and the graph is not balanced (`ordersTasks_iff`).
-/

set_option autoImplicit false

namespace EtlOrchestrator

open SortedSet Relation

namespace Workflow

/-- The number of upstreams of a key that are tasks. -/
def knownUpstreams (workflow : Workflow) (taskId : String) : ℕ :=
  (workflow.upstream taskId ∩ workflow.tasks.keySet).card

/-- The keys that are emitted: as many of their upstreams are as they have known ones. -/
def Emits (workflow : Workflow) : String → Prop :=
  Fires (· ∈ workflow.indegreeKeys) workflow.upstream workflow.knownUpstreams

/-- The keys of `dependencies` that are no tasks. -/
def danglingKeys (workflow : Workflow) : Finset String :=
  workflow.dependencies.keySet \ workflow.tasks.keySet

open Classical in
/-- There are as many dangling keys that are emitted as tasks that are not. -/
def Balanced (workflow : Workflow) : Prop :=
  (workflow.danglingKeys.filter workflow.Emits).card =
    (workflow.tasks.keySet.filter fun taskId => ¬ workflow.Emits taskId).card

/-! ## The invariant of the loop in any graph -/

/-- How many upstreams of a key have been emitted. -/
def emittedUpstreams (workflow : Workflow) (order : List String) (taskId : String) : ℕ :=
  (workflow.upstream taskId ∩ order.toFinset).card

/-- What holds before every round in any workflow. -/
structure Counting (workflow : Workflow) (kahn : Kahn) : Prop where
  orderNodup : kahn.order.Nodup
  readyNodup : kahn.ready.Nodup
  readyNew : ∀ taskId ∈ kahn.ready, taskId ∉ kahn.order
  indegree : ∀ taskId, kahn.indegree taskId =
    workflow.knownUpstreams taskId - workflow.emittedUpstreams kahn.order taskId
  pushed : ∀ taskId, taskId ∈ kahn.ready ∨ taskId ∈ kahn.order ↔ taskId ∈ workflow.indegreeKeys ∧
    workflow.knownUpstreams taskId ≤ workflow.emittedUpstreams kahn.order taskId
  paid : ∀ earlier node later, kahn.order = earlier ++ node :: later →
    workflow.knownUpstreams node ≤ workflow.emittedUpstreams earlier node

theorem Counting.init (workflow : Workflow) : Counting workflow workflow.kahnInit where
  orderNodup := List.nodup_nil
  readyNodup := by
    have heap : workflow.kahnInit.ready = sorted (workflow.indegreeKeys.filter fun taskId =>
        workflow.kahnInit.indegree taskId = 0) := rfl
    exact heap ▸ sorted_nodup _
  readyNew taskId _ := List.not_mem_nil
  indegree taskId := by simp [kahnInit, knownUpstreams, emittedUpstreams]
  pushed taskId := by
    simp [kahnInit, knownUpstreams, emittedUpstreams]
  paid earlier node later split := by
    simp [kahnInit] at split

variable {workflow : Workflow} {kahn : Kahn} {node : String} {rest : List String}

/-- Emitting a node counts once for each of its dependents. -/
theorem emittedUpstreams_concat {order : List String} (new : node ∉ order) (taskId : String) :
    workflow.emittedUpstreams (order ++ [node]) taskId =
      workflow.emittedUpstreams order taskId + if workflow.Edge node taskId then 1 else 0 := by
  have emitted : (order ++ [node]).toFinset = insert node order.toFinset := by
    ext other
    simp
  rw [emittedUpstreams, emitted]
  by_cases edge : workflow.Edge node taskId
  · have absent : node ∉ workflow.upstream taskId ∩ order.toFinset := fun member =>
      new (List.mem_toFinset.mp (Finset.mem_inter.mp member).2)
    rw [if_pos edge, Finset.inter_insert_of_mem edge, Finset.card_insert_of_notMem absent]
    rfl
  · rw [if_neg edge, Finset.inter_insert_of_notMem edge]
    rfl

namespace Counting

/-- The node in front of the heap was pushed and is not emitted. -/
theorem head_pushed (counting : Counting workflow kahn) (heap : kahn.ready = node :: rest) :
    node ∉ kahn.order ∧ node ∉ rest ∧ node ∈ workflow.indegreeKeys ∧
      workflow.knownUpstreams node ≤ workflow.emittedUpstreams kahn.order node := by
  have isReady : node ∈ kahn.ready := heap ▸ List.mem_cons_self
  have nodup : (node :: rest).Nodup := heap ▸ counting.readyNodup
  exact ⟨counting.readyNew node isReady, (List.nodup_cons.mp nodup).1,
    (counting.pushed node).mp (.inl isReady)⟩

theorem indegree_emit (counting : Counting workflow kahn) (heap : kahn.ready = node :: rest)
    (taskId : String) : (workflow.emit kahn node rest).indegree taskId =
      workflow.knownUpstreams taskId -
        workflow.emittedUpstreams (kahn.order ++ [node]) taskId := by
  have isChild : taskId ∈ sorted (workflow.downstream node) ↔ workflow.Edge node taskId :=
    mem_sorted.trans mem_downstream
  rw [(workflow.released_emit kahn node rest).indegree, counting.indegree,
    emittedUpstreams_concat (counting.head_pushed heap).1]
  by_cases edge : workflow.Edge node taskId
  · rw [if_pos (isChild.mpr edge), if_pos edge]
    omega
  · rw [if_neg fun member => edge (isChild.mp member), if_neg edge]
    omega

/-- The children that a round pushes are those whose count it brings to their threshold. -/
theorem mem_ready_emit (counting : Counting workflow kahn) (taskId : String) :
    taskId ∈ (workflow.emit kahn node rest).ready ↔ workflow.Edge node taskId ∧
      workflow.knownUpstreams taskId = workflow.emittedUpstreams kahn.order taskId + 1 ∨
        taskId ∈ rest := by
  rw [(workflow.released_emit kahn node rest).ready.mem_iff, List.mem_append, List.mem_filter,
    mem_sorted, mem_downstream, decide_eq_true_eq, counting.indegree]
  refine or_congr_left (and_congr_right fun _ => ?_)
  omega

/-- A child that a round pushes was not pushed before. -/
theorem pushed_new (counting : Counting workflow kahn) {taskId : String}
    (reached : workflow.knownUpstreams taskId = workflow.emittedUpstreams kahn.order taskId + 1) :
    taskId ∉ kahn.ready ∧ taskId ∉ kahn.order := by
  rw [← not_or, counting.pushed]
  rintro ⟨_, enough⟩
  omega

/-- **A round keeps the invariant.** -/
theorem emit (counting : Counting workflow kahn) (heap : kahn.ready = node :: rest) :
    Counting workflow (workflow.emit kahn node rest) := by
  have released := workflow.released_emit kahn node rest
  obtain ⟨new, notRest, key, enough⟩ := counting.head_pushed heap
  have heapNodup : (node :: rest).Nodup := heap ▸ counting.readyNodup
  have restReady : ∀ taskId ∈ rest, taskId ∈ kahn.ready := fun taskId member =>
    heap ▸ List.mem_cons_of_mem node member
  refine ⟨?_, ?_, fun taskId member => ?_, fun taskId => ?_, fun taskId => ?_, ?_⟩
  · rw [released.order]
    rw [← List.concat_eq_append]
    exact counting.orderNodup.concat new
  · refine released.ready.nodup_iff.mpr (List.nodup_append.mpr
      ⟨(sorted_nodup _).filter _, heapNodup.of_cons, ?_⟩)
    rintro child isChild _ inRest rfl
    have one := of_decide_eq_true (List.mem_filter.mp isChild).2
    rw [counting.indegree] at one
    exact (counting.pushed_new (by omega)).1 (restReady child inRest)
  · rw [released.order, List.mem_append, List.mem_singleton, not_or]
    rcases (counting.mem_ready_emit taskId).mp member with ⟨_, reached⟩ | inRest
    · obtain ⟨notReady, notEmitted⟩ := counting.pushed_new reached
      exact ⟨notEmitted, fun same => notReady (same ▸ heap ▸ List.mem_cons_self)⟩
    · exact ⟨counting.readyNew taskId (restReady taskId inRest), fun same =>
        notRest (same ▸ inRest)⟩
  · rw [released.order]
    exact counting.indegree_emit heap taskId
  · rw [released.order, counting.mem_ready_emit, List.mem_append, List.mem_singleton,
      emittedUpstreams_concat new]
    have before := counting.pushed taskId
    rw [heap, List.mem_cons] at before
    by_cases edge : workflow.Edge node taskId
    · have isKey : taskId ∈ workflow.indegreeKeys :=
        Finset.mem_union_right _ edge.mem_dependencies
      simp only [edge, isKey, true_and, if_true] at before ⊢
      have step : workflow.knownUpstreams taskId ≤
          workflow.emittedUpstreams kahn.order taskId + 1 ↔
          workflow.knownUpstreams taskId = workflow.emittedUpstreams kahn.order taskId + 1 ∨
            workflow.knownUpstreams taskId ≤ workflow.emittedUpstreams kahn.order taskId := by
        omega
      rw [step, ← before]
      simp only [or_assoc, or_left_comm, or_comm]
    · simp only [edge, false_and, false_or, if_false, Nat.add_zero]
      rw [← before]
      simp only [or_assoc, or_left_comm, or_comm]
  · rw [released.order]
    exact forall_positions_concat counting.paid enough

/-- **When the heap is empty exactly the keys that fire have been emitted.** -/
theorem mem_order_iff (counting : Counting workflow kahn) (empty : kahn.ready = [])
    (taskId : String) : taskId ∈ kahn.order ↔ workflow.Emits taskId := by
  have pushed : ∀ taskId, taskId ∈ kahn.order ↔ taskId ∈ workflow.indegreeKeys ∧
      workflow.knownUpstreams taskId ≤ workflow.emittedUpstreams kahn.order taskId := by
    intro taskId
    rw [← counting.pushed, empty]
    simp
  constructor
  · exact fires_of_paid kahn.order (fun node member => ((pushed node).mp member).1)
      counting.paid taskId
  · intro fires
    refine List.mem_toFinset.mp (fires.mem_of_closed fun node key enough => ?_)
    exact List.mem_toFinset.mpr ((pushed node).mpr ⟨key, enough⟩)

end Counting

/-! ## What is returned -/

/-- The end of the loop. -/
theorem exists_counting (workflow : Workflow) : ∃ final,
    workflow.drain workflow.indegreeKeys.card workflow.kahnInit = some final ∧
      final.order.Nodup ∧ (∀ taskId, taskId ∈ final.order ↔ workflow.Emits taskId) ∧
      ∀ earlier node later, final.order = earlier ++ node :: later →
        workflow.knownUpstreams node ≤ workflow.emittedUpstreams earlier node := by
  obtain ⟨final, completed, empty⟩ :=
    workflow.drain_isSome_of_load _ _ workflow.load_kahnInit_le
  have counting := drain_induction (fun counting heap => counting.emit heap) _
    (Counting.init workflow) completed
  exact ⟨final, completed, counting.orderNodup, counting.mem_order_iff empty, counting.paid⟩

/-- Only keys of the two dictionaries are emitted. -/
theorem Emits.mem_indegreeKeys {taskId : String} (emits : workflow.Emits taskId) :
    taskId ∈ workflow.indegreeKeys := by
  cases emits with
  | intro known => exact known

/-- The test after the loop compares the dangling keys that were emitted with the tasks
that were not. -/
theorem length_eq_iff {order : List String} (nodup : order.Nodup)
    (emitted : ∀ taskId, taskId ∈ order ↔ workflow.Emits taskId) :
    order.length = workflow.tasks.keys.length ↔ workflow.Balanced := by
  classical
  have split : order.toFinset = workflow.danglingKeys.filter workflow.Emits ∪
      workflow.tasks.keySet.filter workflow.Emits := by
    ext taskId
    simp only [List.mem_toFinset, emitted, Finset.mem_union, Finset.mem_filter, danglingKeys,
      Finset.mem_sdiff]
    constructor
    · intro emits
      have key := emits.mem_indegreeKeys
      rw [indegreeKeys, Finset.mem_union] at key
      by_cases task : taskId ∈ workflow.tasks.keySet
      · exact .inr ⟨task, emits⟩
      · exact .inl ⟨⟨key.resolve_left task, task⟩, emits⟩
    · rintro (⟨_, emits⟩ | ⟨_, emits⟩) <;> exact emits
  have apart : Disjoint (workflow.danglingKeys.filter workflow.Emits)
      (workflow.tasks.keySet.filter workflow.Emits) := by
    exact Finset.disjoint_filter_filter Finset.sdiff_disjoint
  have emittedLength := congrArg Finset.card split
  rw [List.toFinset_card_of_nodup nodup, Finset.card_union_of_disjoint apart] at emittedLength
  have tasksLength := Finset.card_filter_add_card_filter_not (s := workflow.tasks.keySet)
    workflow.Emits
  have keysLength : workflow.tasks.keySet.card = workflow.tasks.keys.length := rfl
  rw [Balanced]
  omega

/-- **The order is returned exactly when the graph is balanced**, and otherwise a
`DependencyCycleError` is raised. -/
theorem topologicalOrder_cases (workflow : Workflow) : ∃ order : List String,
    order.Nodup ∧ (∀ taskId, taskId ∈ order ↔ workflow.Emits taskId) ∧
      (∀ earlier node later, order = earlier ++ node :: later →
        workflow.knownUpstreams node ≤ workflow.emittedUpstreams earlier node) ∧
      (workflow.Balanced ∧ workflow.topologicalOrder = .ok order ∨
        ¬ workflow.Balanced ∧ ∃ cycle,
          workflow.topologicalOrder = .error (.dependencyCycle cycle)) := by
  obtain ⟨final, completed, nodup, emitted, paid⟩ := exists_counting workflow
  refine ⟨final.order, nodup, emitted, paid, ?_⟩
  have lengths := length_eq_iff nodup emitted
  by_cases balanced : workflow.Balanced
  · exact .inl ⟨balanced, by simp [topologicalOrder, completed, lengths.mpr balanced]⟩
  · refine .inr ⟨balanced, ?_⟩
    have different : final.order.length ≠ workflow.tasks.keys.length := fun same =>
      balanced (lengths.mp same)
    cases found : workflow.findCycles with
    | nil => exact ⟨_, by simp [topologicalOrder, completed, different, found]; rfl⟩
    | cons cycle more => exact ⟨_, by simp [topologicalOrder, completed, different, found]; rfl⟩

/-- What `topological_order` promises: an order of the tasks when they have no cycle, and a
`DependencyCycleError` only when they have one. -/
structure OrdersTasks (workflow : Workflow) : Prop where
  returned : ∀ order, workflow.topologicalOrder = .ok order →
    (∀ taskId, ¬ TransGen workflow.KnownEdge taskId taskId) ∧
      IsLinearExtension workflow.KnownEdge workflow.tasks.keySet order
  raised : ∀ error, workflow.topologicalOrder = .error error →
    (∃ cycle, error = .dependencyCycle cycle) ∧
      ∃ taskId, TransGen workflow.KnownEdge taskId taskId

/-- Without cycles every key is emitted. -/
theorem emits_of_acyclic (acyclic : ∀ taskId, ¬ TransGen workflow.KnownEdge taskId taskId)
    {taskId : String} (key : taskId ∈ workflow.indegreeKeys) : workflow.Emits taskId := by
  have tasks : ∀ taskId ∈ workflow.tasks, workflow.Emits taskId := by
    intro taskId known
    have accessible := acc_of_findCycles_eq_nil (workflow.findCycles_eq_nil_iff.mpr acyclic) known
    induction accessible with
    | intro taskId _ ih =>
        refine .intro (Finset.mem_union_left _ known) _ Finset.inter_subset_left (le_refl _) ?_
        intro up member
        obtain ⟨edge, upKnown⟩ := Finset.mem_inter.mp member
        exact ih up ⟨upKnown, edge⟩ upKnown
  refine .intro key _ Finset.inter_subset_left (le_refl _) fun up member => ?_
  exact tasks up (Finset.mem_inter.mp member).2

/-- Without dangling keys the upstreams of an emitted node stand before it. -/
theorem respects_of_paid (closed : ∀ key ∈ workflow.dependencies, key ∈ workflow.tasks)
    {order : List String} (emitted : ∀ taskId, taskId ∈ order ↔ workflow.Emits taskId)
    (paid : ∀ earlier node later, order = earlier ++ node :: later →
      workflow.knownUpstreams node ≤ workflow.emittedUpstreams earlier node) :
    ∀ earlier node later, order = earlier ++ node :: later →
      ∀ up ∈ workflow.tasks.keySet, workflow.KnownEdge up node → up ∈ earlier := by
  intro earlier node later split up upKnown edge
  have subset : workflow.upstream node ∩ earlier.toFinset ⊆
      workflow.upstream node ∩ workflow.tasks.keySet := by
    refine Finset.inter_subset_inter_left fun other member => ?_
    have inOrder : other ∈ order := split ▸ List.mem_append_left _ (List.mem_toFinset.mp member)
    rcases Finset.mem_union.mp ((emitted other).mp inOrder).mem_indegreeKeys with task | key
    · exact task
    · exact closed other key
  have same := Finset.eq_of_subset_of_card_le subset (paid earlier node later split)
  have member : up ∈ workflow.upstream node ∩ workflow.tasks.keySet :=
    Finset.mem_inter.mpr ⟨edge.2, upKnown⟩
  rw [← same] at member
  exact List.mem_toFinset.mp (Finset.mem_inter.mp member).2

theorem danglingKeys_eq_empty_iff :
    workflow.danglingKeys = ∅ ↔ ∀ key ∈ workflow.dependencies, key ∈ workflow.tasks := by
  rw [danglingKeys, Finset.sdiff_eq_empty_iff_subset]
  exact Iff.rfl

/-- Without cycles a graph is balanced only if no key is dangling. -/
theorem balanced_iff_of_acyclic
    (acyclic : ∀ taskId, ¬ TransGen workflow.KnownEdge taskId taskId) :
    workflow.Balanced ↔ ∀ key ∈ workflow.dependencies, key ∈ workflow.tasks := by
  classical
  have dangling : workflow.danglingKeys.filter workflow.Emits = workflow.danglingKeys := by
    refine Finset.filter_true_of_mem fun key member => emits_of_acyclic acyclic ?_
    exact Finset.mem_union_right _ (Finset.mem_sdiff.mp member).1
  have tasks : (workflow.tasks.keySet.filter fun taskId => ¬ workflow.Emits taskId) = ∅ := by
    refine Finset.filter_false_of_mem fun taskId known => not_not.mpr ?_
    exact emits_of_acyclic acyclic (Finset.mem_union_left _ known)
  rw [Balanced, dangling, tasks, Finset.card_empty, Finset.card_eq_zero,
    danglingKeys_eq_empty_iff]

/-- Without dangling keys a graph is balanced only if every task is emitted. -/
theorem balanced_iff_of_closed
    (closed : ∀ key ∈ workflow.dependencies, key ∈ workflow.tasks) :
    workflow.Balanced ↔ ∀ taskId ∈ workflow.tasks, workflow.Emits taskId := by
  classical
  rw [Balanced, danglingKeys_eq_empty_iff.mpr closed, Finset.filter_empty, Finset.card_empty,
    eq_comm, Finset.card_eq_zero, Finset.filter_eq_empty_iff]
  simp only [not_not, OrderedDict.mem_keySet]

/-- Without dangling keys an order that is returned lists the tasks, upstreams first. -/
theorem isLinearExtension_of_closed
    (closed : ∀ key ∈ workflow.dependencies, key ∈ workflow.tasks)
    (balanced : workflow.Balanced) {order : List String} (nodup : order.Nodup)
    (emitted : ∀ taskId, taskId ∈ order ↔ workflow.Emits taskId)
    (paid : ∀ earlier node later, order = earlier ++ node :: later →
      workflow.knownUpstreams node ≤ workflow.emittedUpstreams earlier node) :
    IsLinearExtension workflow.KnownEdge workflow.tasks.keySet order where
  nodup := nodup
  mem_iff taskId := by
    rw [emitted]
    constructor
    · intro emits
      rcases Finset.mem_union.mp emits.mem_indegreeKeys with task | key
      · exact task
      · exact closed taskId key
    · exact (balanced_iff_of_closed closed).mp balanced taskId
  respects := respects_of_paid closed emitted paid

/-- **`topological_order` keeps its promise if and only if no key is dangling, or the tasks have
a cycle and there are not as many dangling keys that are emitted as tasks that are not.** -/
theorem ordersTasks_iff (workflow : Workflow) : workflow.OrdersTasks ↔
    (∀ key ∈ workflow.dependencies, key ∈ workflow.tasks) ∨
      (∃ taskId, TransGen workflow.KnownEdge taskId taskId) ∧ ¬ workflow.Balanced := by
  obtain ⟨order, nodup, emitted, paid, outcome⟩ := topologicalOrder_cases workflow
  constructor
  · intro promise
    rcases outcome with ⟨balanced, returned⟩ | ⟨unbalanced, cycle, raised⟩
    · have acyclic := (promise.returned order returned).1
      exact .inl ((balanced_iff_of_acyclic acyclic).mp balanced)
    · exact .inr ⟨(promise.raised _ raised).2, unbalanced⟩
  · intro condition
    refine ⟨fun other returned => ?_, fun error raised => ?_⟩
    · rcases outcome with ⟨balanced, ordered⟩ | ⟨_, cycle, ordered⟩
      · cases ordered.symm.trans returned
        have closed := condition.resolve_right fun cyclic => cyclic.2 balanced
        have extension := isLinearExtension_of_closed closed balanced nodup emitted paid
        exact ⟨extension.acyclic fun up node edge => edge.1, extension⟩
      · cases ordered.symm.trans returned
    · rcases outcome with ⟨_, ordered⟩ | ⟨unbalanced, cycle, ordered⟩
      · cases ordered.symm.trans raised
      · cases ordered.symm.trans raised
        refine ⟨⟨cycle, rfl⟩, ?_⟩
        rcases condition with closed | ⟨cyclic, _⟩
        · by_contra acyclic
          exact unbalanced ((balanced_iff_of_acyclic (not_exists.mp acyclic)).mpr closed)
        · exact cyclic

/-- One task, with some dependencies. -/
def looping (dependencies : OrderedDict String (Finset String)) : Workflow where
  workflowId := "looping"
  tasks := ⟨[("loop", { taskId := "loop", taskId_valid := by decide })], by decide⟩
  dependencies := dependencies

/-- A graph without cycles is refused because of a dangling key, and one with a cycle is
accepted, with an order that holds the dangling key in place of the task. -/
theorem looping_misordered :
    (looping ⟨[("ghost", ∅)], by decide⟩).topologicalOrder = .error (.dependencyCycle []) ∧
      (¬ ∃ taskId, TransGen (looping ⟨[("ghost", ∅)], by decide⟩).KnownEdge taskId taskId) ∧
    (looping ⟨[("loop", {"loop"}), ("ghost", ∅)], by decide⟩).topologicalOrder = .ok ["ghost"] ∧
      (∃ taskId, TransGen (looping ⟨[("loop", {"loop"}), ("ghost", ∅)],
        by decide⟩).KnownEdge taskId taskId) ∧
    ¬ (looping ⟨[("ghost", ∅)], by decide⟩).OrdersTasks ∧
    ¬ (looping ⟨[("loop", {"loop"}), ("ghost", ∅)], by decide⟩).OrdersTasks := by
  have refused : (looping ⟨[("ghost", ∅)], by decide⟩).topologicalOrder =
      .error (.dependencyCycle []) := by decide +kernel
  have none : (looping ⟨[("ghost", ∅)], by decide⟩).findCycles = [] := by decide +kernel
  have accepted : (looping ⟨[("loop", {"loop"}), ("ghost", ∅)], by decide⟩).topologicalOrder =
      .ok ["ghost"] := by decide +kernel
  have acyclic := (findCycles_eq_nil_iff _).mp none
  have cycle : TransGen (looping ⟨[("loop", {"loop"}), ("ghost", ∅)], by decide⟩).KnownEdge
      "loop" "loop" := .single ⟨by decide +kernel, by decide +kernel⟩
  exact ⟨refused, not_exists.mpr acyclic, accepted, ⟨"loop", cycle⟩,
    fun promise => not_exists.mpr acyclic (promise.raised _ refused).2,
    fun promise => (promise.returned _ accepted).1 "loop" cycle⟩

end Workflow

end EtlOrchestrator
