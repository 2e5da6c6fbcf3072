import Mathlib.Data.Int.Cast.Basic
import Mathlib.Order.Interval.Finset.Nat
import EtlOrchestrator.Foundations.LinearExtension
import EtlOrchestrator.Dag.Validation

/-!
# Topological order

`topological_order` is Kahn's algorithm with a min-heap. The heap is the list of
its elements in ascending order, so popping takes the head.

Every round of the loop pops one node and lowers the number of nodes that are
ready or still have a positive indegree (`load_emit_lt`). The loop therefore
ends within one round for each key of the indegree table, in any workflow
(`drain_isSome`).

In a valid workflow the loop keeps Kahn's invariant (`Emitting`): the indegree of
a task is the number of its upstreams not emitted, and the heap holds exactly the
tasks that are ready. The emitted order is a greedy linear extension of the
edges, hence the lexicographically least one (`topologicalOrder_least`).
-/

set_option autoImplicit false

namespace EtlOrchestrator

open SortedSet

/-- The variables of `topological_order`. -/
structure Kahn where
  indegree : String → ℤ
  ready : List String
  order : List String

/-- One round of the loop over the children of an emitted node. -/
def Kahn.release (kahn : Kahn) (child : String) : Kahn :=
  let degree := kahn.indegree child - 1
  { kahn with
    indegree := Function.update kahn.indegree child degree
    ready := if degree = 0 then kahn.ready.orderedInsert (· ≤ ·) child else kahn.ready }

namespace Workflow

/-- The keys of the indegree table. -/
def indegreeKeys (workflow : Workflow) : Finset String :=
  workflow.tasks.keySet ∪ workflow.dependencies.keySet

/-- The indegree table, the heap and the order before the loop. -/
def kahnInit (workflow : Workflow) : Kahn :=
  let indegree (taskId : String) : ℤ :=
    ((workflow.upstream taskId ∩ workflow.tasks.keySet).card : ℤ)
  { indegree
    ready := sorted (workflow.indegreeKeys.filter fun taskId => indegree taskId = 0)
    order := [] }

/-- The body of the loop, after `node` was popped and `rest` is left. -/
def emit (workflow : Workflow) (kahn : Kahn) (node : String) (rest : List String) : Kahn :=
  (sorted (workflow.downstream node)).foldl Kahn.release
    { kahn with ready := rest, order := kahn.order ++ [node] }

/-- The loop, for at most as many rounds as the fuel. -/
def drain (workflow : Workflow) : ℕ → Kahn → Option Kahn
  | 0, kahn => if kahn.ready = [] then some kahn else none
  | fuel + 1, kahn =>
      match kahn.ready with
      | [] => some kahn
      | node :: rest => workflow.drain fuel (workflow.emit kahn node rest)

end Workflow

/-! ## Releasing the children of a node -/

/-- What the loop over distinct children does: each loses one indegree, and the
ones that reach zero join the heap. -/
structure Released (children : List String) (degree : String → ℤ) (heap emitted : List String)
    (final : Kahn) : Prop where
  order : final.order = emitted
  indegree : ∀ taskId, final.indegree taskId =
    if taskId ∈ children then degree taskId - 1 else degree taskId
  ready : final.ready.Perm ((children.filter fun child => degree child = 1) ++ heap)
  ascending : heap.Pairwise (· ≤ ·) → final.ready.Pairwise (· ≤ ·)

theorem released_foldl (children : List String) : ∀ kahn : Kahn, children.Nodup →
    Released children kahn.indegree kahn.ready kahn.order
      (children.foldl Kahn.release kahn) := by
  induction children with
  | nil => exact fun kahn _ => ⟨rfl, by simp, by simp, id⟩
  | cons child rest ih =>
      intro kahn nodup
      obtain ⟨notInRest, restNodup⟩ := List.nodup_cons.mp nodup
      have released := ih (kahn.release child) restNodup
      have indegreeOf : ∀ taskId, (kahn.release child).indegree taskId =
          if taskId = child then kahn.indegree child - 1 else kahn.indegree taskId := by
        intro taskId
        by_cases same : taskId = child
        · simp [Kahn.release, same]
        · simp [Kahn.release, same]
      have restFilter : (rest.filter fun other => (kahn.release child).indegree other = 1) =
          rest.filter fun other => kahn.indegree other = 1 := by
        refine List.filter_congr fun other member => ?_
        have different : other ≠ child := fun same => notInRest (same ▸ member)
        rw [indegreeOf, if_neg different]
      refine ⟨released.order.trans rfl, fun taskId => ?_, ?_, fun ascending => ?_⟩
      · rw [List.foldl_cons, released.indegree, indegreeOf]
        by_cases same : taskId = child
        · subst same
          simp [notInRest]
        · simp [same]
      · refine released.ready.trans ?_
        rw [restFilter]
        by_cases one : kahn.indegree child = 1
        · have inserted : (kahn.release child).ready.Perm (child :: kahn.ready) := by
            simpa [Kahn.release, one] using List.perm_orderedInsert (· ≤ ·) child kahn.ready
          rw [List.filter_cons_of_pos (by simpa using one), List.cons_append]
          exact (inserted.append_left _).trans List.perm_middle
        · have notZero : kahn.indegree child - 1 ≠ 0 := by omega
          rw [List.filter_cons_of_neg (by simpa using one)]
          simp [Kahn.release, notZero]
      · refine released.ascending ?_
        simp only [Kahn.release]
        split
        · exact ascending.orderedInsert child _
        · exact ascending

namespace Workflow

theorem released_emit (workflow : Workflow) (kahn : Kahn) (node : String) (rest : List String) :
    Released (sorted (workflow.downstream node)) kahn.indegree rest (kahn.order ++ [node])
      (workflow.emit kahn node rest) :=
  released_foldl _ { kahn with ready := rest, order := kahn.order ++ [node] } (sorted_nodup _)

/-! ## The loop ends -/

/-- The number of ready nodes and of nodes with a positive indegree. -/
def load (workflow : Workflow) (kahn : Kahn) : ℕ :=
  kahn.ready.length + (workflow.indegreeKeys.filter fun taskId => 0 < kahn.indegree taskId).card

/-- A round pops a node, and a child that becomes ready stops counting as one
with a positive indegree. -/
theorem load_emit_lt (workflow : Workflow) {kahn : Kahn} {node : String} {rest : List String}
    (heap : kahn.ready = node :: rest) :
    workflow.load (workflow.emit kahn node rest) < workflow.load kahn := by
  have released := workflow.released_emit kahn node rest
  set final := workflow.emit kahn node rest
  set children := sorted (workflow.downstream node)
  have childKeys : ∀ child ∈ children, child ∈ workflow.indegreeKeys := by
    intro child member
    have edge : workflow.Edge node child := mem_downstream.mp (mem_sorted.mp member)
    exact Finset.mem_union_right _ edge.mem_dependencies
  have newReady : (children.filter fun child => kahn.indegree child = 1).length =
      (children.filter fun child => kahn.indegree child = 1).toFinset.card :=
    (List.toFinset_card_of_nodup ((sorted_nodup _).filter _)).symm
  have disjoint : Disjoint (children.filter fun child => kahn.indegree child = 1).toFinset
      (workflow.indegreeKeys.filter fun taskId => 0 < final.indegree taskId) := by
    rw [Finset.disjoint_left]
    intro taskId newlyReady positive
    simp only [List.mem_toFinset, List.mem_filter, decide_eq_true_eq] at newlyReady
    rw [Finset.mem_filter, released.indegree, if_pos newlyReady.1] at positive
    omega
  have counted := Finset.card_union_of_disjoint disjoint
  have subset : (children.filter fun child => kahn.indegree child = 1).toFinset ∪
      (workflow.indegreeKeys.filter fun taskId => 0 < final.indegree taskId) ⊆
        workflow.indegreeKeys.filter fun taskId => 0 < kahn.indegree taskId := by
    intro taskId member
    rcases Finset.mem_union.mp member with newlyReady | positive
    · simp only [List.mem_toFinset, List.mem_filter, decide_eq_true_eq] at newlyReady
      exact Finset.mem_filter.mpr ⟨childKeys _ newlyReady.1, by omega⟩
    · rw [Finset.mem_filter, released.indegree] at positive
      refine Finset.mem_filter.mpr ⟨positive.1, ?_⟩
      have bound := positive.2
      split at bound
      · exact lt_trans bound (by simp)
      · exact bound
  have fewer := Finset.card_le_card subset
  have lengths := released.ready.length_eq
  rw [List.length_append] at lengths
  simp only [load, heap, List.length_cons]
  omega

theorem load_kahnInit_le (workflow : Workflow) :
    workflow.load workflow.kahnInit ≤ workflow.indegreeKeys.card := by
  have split := Finset.card_filter_add_card_filter_not (s := workflow.indegreeKeys)
    fun taskId => workflow.kahnInit.indegree taskId = 0
  have positive : (workflow.indegreeKeys.filter fun taskId =>
      0 < workflow.kahnInit.indegree taskId).card ≤
        (workflow.indegreeKeys.filter fun taskId =>
          ¬ workflow.kahnInit.indegree taskId = 0).card := by
    refine Finset.card_le_card fun taskId member => ?_
    rw [Finset.mem_filter] at member ⊢
    exact ⟨member.1, by omega⟩
  have ready : workflow.kahnInit.ready.length = (workflow.indegreeKeys.filter fun taskId =>
      workflow.kahnInit.indegree taskId = 0).card := by
    rw [← Finset.length_sort (· ≤ ·), ← sorted_eq_sort]
    rfl
  unfold load
  omega

/-- The loop completes when the fuel is at least the load. -/
theorem drain_isSome_of_load (workflow : Workflow) : ∀ (fuel : ℕ) (kahn : Kahn),
    workflow.load kahn ≤ fuel →
      ∃ final, workflow.drain fuel kahn = some final ∧ final.ready = [] := by
  intro fuel
  induction fuel with
  | zero =>
      intro kahn bounded
      have empty : kahn.ready = [] := by
        rw [← List.length_eq_zero_iff]
        unfold load at bounded
        omega
      exact ⟨kahn, by simp [drain, empty], empty⟩
  | succ fuel ih =>
      intro kahn bounded
      cases heap : kahn.ready with
      | nil => exact ⟨kahn, by simp [drain, heap], heap⟩
      | cons node rest =>
          have smaller := workflow.load_emit_lt heap
          obtain ⟨final, completed, empty⟩ := ih (workflow.emit kahn node rest) (by omega)
          exact ⟨final, by simp [drain, heap, completed], empty⟩

/-- What each round keeps holds when the loop ends. -/
theorem drain_induction {workflow : Workflow} {P : Kahn → Prop}
    (round : ∀ {kahn node rest}, P kahn → kahn.ready = node :: rest →
      P (workflow.emit kahn node rest)) (fuel : ℕ) : ∀ {kahn final : Kahn}, P kahn →
      workflow.drain fuel kahn = some final → P final := by
  induction fuel with
  | zero =>
      intro kahn final holds completed
      rw [drain] at completed
      split at completed
      · cases completed
        exact holds
      · cases completed
  | succ fuel ih =>
      intro kahn final holds completed
      cases heap : kahn.ready with
      | nil =>
          simp only [drain, heap, Option.some.injEq] at completed
          exact completed ▸ holds
      | cons node rest =>
          simp only [drain, heap] at completed
          exact ih (round holds heap) completed

/-- **The loop ends within one round for each key of the indegree table.** -/
theorem drain_isSome (workflow : Workflow) :
    (workflow.drain workflow.indegreeKeys.card workflow.kahnInit).isSome := by
  obtain ⟨final, completed, _⟩ :=
    workflow.drain_isSome_of_load _ _ workflow.load_kahnInit_le
  rw [completed]
  rfl

/-- Return a deterministic topological order of all tasks. -/
def topologicalOrder (workflow : Workflow) : Except OrchestrationError (List String) :=
  let final := (workflow.drain workflow.indegreeKeys.card workflow.kahnInit).get
    workflow.drain_isSome
  if final.order.length ≠ workflow.tasks.keys.length then
    match workflow.findCycles with
    | cycle :: _ => .error (.dependencyCycle (cycle ++ cycle.take 1))
    | [] => .error (.dependencyCycle (sorted (workflow.tasks.keySet \ final.order.toFinset)))
  else .ok final.order

/-! ## Kahn's invariant -/

/-- What holds before every round in a valid workflow: the emitted tasks are a
greedy linear extension so far, the indegree of a task counts its upstreams not
emitted, and the heap holds exactly the ready tasks. -/
structure Emitting (workflow : Workflow) (kahn : Kahn) : Prop where
  orderNodup : kahn.order.Nodup
  orderTasks : ∀ taskId ∈ kahn.order, taskId ∈ workflow.tasks
  respects : ∀ earlier node later, kahn.order = earlier ++ node :: later →
    ∀ up ∈ workflow.tasks.keySet, workflow.Edge up node → up ∈ earlier
  greedy : IsGreedy workflow.Edge workflow.tasks.keySet kahn.order
  indegree : ∀ taskId,
    kahn.indegree taskId = (workflow.upstream taskId \ kahn.order.toFinset).card
  readyNodup : kahn.ready.Nodup
  ascending : kahn.ready.Pairwise (· ≤ ·)
  ready : ∀ taskId, taskId ∈ kahn.ready ↔ taskId ∈ workflow.tasks ∧ taskId ∉ kahn.order ∧
    ∀ up, workflow.Edge up taskId → up ∈ kahn.order

theorem Emitting.init {workflow : Workflow} (valid : workflow.Valid) :
    Emitting workflow workflow.kahnInit := by
  have noneMissing : ∀ taskId,
      workflow.upstream taskId ∩ workflow.tasks.keySet = workflow.upstream taskId :=
    fun taskId => Finset.inter_eq_left.mpr fun up edge => valid.closed.upstreams taskId up edge
  have heap : workflow.kahnInit.ready = sorted (workflow.indegreeKeys.filter fun taskId =>
      workflow.kahnInit.indegree taskId = 0) := rfl
  refine ⟨List.nodup_nil, fun taskId member => absurd member List.not_mem_nil, ?_, ?_,
    fun taskId => ?_, heap ▸ sorted_nodup _, ?_, fun taskId => ?_⟩
  · intro earlier node later split
    simp [kahnInit] at split
  · intro earlier node later split
    simp [kahnInit] at split
  · simp [kahnInit, noneMissing]
  · rw [heap, sorted_eq_sort]
    exact Finset.pairwise_sort _ _
  · simp only [kahnInit, noneMissing, mem_sorted, Finset.mem_filter, Nat.cast_eq_zero,
      Finset.card_eq_zero, indegreeKeys, Finset.mem_union, OrderedDict.mem_keySet,
      List.not_mem_nil, not_false_eq_true, true_and]
    constructor
    · rintro ⟨key, empty⟩
      refine ⟨key.elim id (valid.closed.keys taskId), fun up edge => ?_⟩
      rw [Edge, empty] at edge
      exact absurd edge (Finset.notMem_empty up)
    · rintro ⟨known, noUpstream⟩
      exact ⟨.inl known, Finset.eq_empty_of_forall_notMem noUpstream⟩

theorem mem_unemitted {workflow : Workflow} {order : List String} {up taskId : String} :
    up ∈ workflow.upstream taskId \ order.toFinset ↔ workflow.Edge up taskId ∧ up ∉ order := by
  rw [Finset.mem_sdiff, List.mem_toFinset]
  rfl

/-- Emitting a node with all its upstreams emitted leaves the other unemitted
upstreams. -/
theorem upstream_sdiff_emitted {workflow : Workflow} {order : List String} {node taskId : String} :
    workflow.upstream taskId \ (order ++ [node]).toFinset =
      (workflow.upstream taskId \ order.toFinset).erase node := by
  ext up
  simp only [Finset.mem_sdiff, List.mem_toFinset, List.mem_append, List.mem_singleton,
    Finset.mem_erase]
  tauto

namespace Emitting

variable {workflow : Workflow} {kahn : Kahn} {node : String} {rest : List String}

/-- The node in front of the heap is ready. -/
theorem head_ready (emitting : Emitting workflow kahn) (heap : kahn.ready = node :: rest) :
    node ∈ workflow.tasks ∧ node ∉ kahn.order ∧ ∀ up, workflow.Edge up node → up ∈ kahn.order :=
  (emitting.ready node).mp (heap ▸ List.mem_cons_self)

/-- A child of a node that is not emitted is not emitted before it. -/
theorem child_new (emitting : Emitting workflow kahn) (heap : kahn.ready = node :: rest)
    {taskId : String} (edge : workflow.Edge node taskId) : taskId ∉ kahn.order ++ [node] := by
  obtain ⟨known, new, ups⟩ := emitting.head_ready heap
  rw [List.mem_append, List.mem_singleton, not_or]
  constructor
  · intro member
    obtain ⟨earlier, later, split⟩ := List.append_of_mem member
    have inEarlier := emitting.respects earlier taskId later split node (by simpa) edge
    exact new (split ▸ List.mem_append_left _ inEarlier)
  · rintro rfl
    exact new (ups taskId edge)

/-- The indegree of a child is one when the node is its last upstream to be emitted. -/
theorem indegree_eq_one_iff (emitting : Emitting workflow kahn) (new : node ∉ kahn.order)
    {taskId : String} (edge : workflow.Edge node taskId) : kahn.indegree taskId = 1 ↔
      ∀ up, workflow.Edge up taskId → up ∈ kahn.order ++ [node] := by
  have unemitted := mem_unemitted.mpr ⟨edge, new⟩
  simp only [List.mem_append, List.mem_singleton]
  rw [emitting.indegree]
  constructor
  · intro one up upEdge
    obtain ⟨only, isOnly⟩ := Finset.card_eq_one.mp (Nat.cast_eq_one.mp one)
    by_cases emitted : up ∈ kahn.order
    · exact .inl emitted
    · have upIn := mem_unemitted.mpr ⟨upEdge, emitted⟩
      rw [isOnly, Finset.mem_singleton] at unemitted upIn
      exact .inr (upIn.trans unemitted.symm)
  · intro ups
    have only : workflow.upstream taskId \ kahn.order.toFinset = {node} := by
      refine Finset.eq_singleton_iff_unique_mem.mpr ⟨unemitted, fun up member => ?_⟩
      obtain ⟨upEdge, notEmitted⟩ := mem_unemitted.mp member
      exact (ups up upEdge).resolve_left notEmitted
    rw [only, Finset.card_singleton]
    rfl

theorem indegree_emit (emitting : Emitting workflow kahn) (heap : kahn.ready = node :: rest)
    (taskId : String) : (workflow.emit kahn node rest).indegree taskId =
      (workflow.upstream taskId \ (kahn.order ++ [node]).toFinset).card := by
  obtain ⟨_, new, _⟩ := emitting.head_ready heap
  have isChild : taskId ∈ sorted (workflow.downstream node) ↔ workflow.Edge node taskId :=
    mem_sorted.trans mem_downstream
  rw [upstream_sdiff_emitted, (workflow.released_emit kahn node rest).indegree, emitting.indegree]
  by_cases edge : workflow.Edge node taskId
  · have unemitted := mem_unemitted.mpr ⟨edge, new⟩
    have positive := Finset.card_pos.mpr ⟨node, unemitted⟩
    rw [if_pos (isChild.mpr edge), Finset.card_erase_of_mem unemitted]
    omega
  · have absent : node ∉ workflow.upstream taskId \ kahn.order.toFinset := fun member =>
      edge (mem_unemitted.mp member).1
    rw [if_neg fun member => edge (isChild.mp member), Finset.erase_eq_of_notMem absent]

/-- After a round the heap holds the tasks that are ready then. -/
theorem ready_emit (valid : workflow.Valid) (emitting : Emitting workflow kahn)
    (heap : kahn.ready = node :: rest) (taskId : String) :
    taskId ∈ (workflow.emit kahn node rest).ready ↔ taskId ∈ workflow.tasks ∧
      taskId ∉ kahn.order ++ [node] ∧
        ∀ up, workflow.Edge up taskId → up ∈ kahn.order ++ [node] := by
  obtain ⟨_, new, _⟩ := emitting.head_ready heap
  have restNew := (List.nodup_cons.mp (heap ▸ emitting.readyNodup)).1
  rw [(workflow.released_emit kahn node rest).ready.mem_iff, List.mem_append, List.mem_filter,
    mem_sorted, mem_downstream, decide_eq_true_eq]
  constructor
  · rintro (⟨edge, one⟩ | inRest)
    · exact ⟨valid.closed.target edge, emitting.child_new heap edge,
        (emitting.indegree_eq_one_iff new edge).mp one⟩
    · obtain ⟨known, unemitted, ups⟩ :=
        (emitting.ready taskId).mp (heap ▸ List.mem_cons_of_mem node inRest)
      have different : taskId ≠ node := fun same => restNew (same ▸ inRest)
      exact ⟨known, by simp [unemitted, different],
        fun up edge => List.mem_append_left _ (ups up edge)⟩
  · rintro ⟨known, unemitted, ups⟩
    rw [List.mem_append, List.mem_singleton, not_or] at unemitted
    by_cases edge : workflow.Edge node taskId
    · exact .inl ⟨edge, (emitting.indegree_eq_one_iff new edge).mpr ups⟩
    · have isReady : taskId ∈ kahn.ready := by
        refine (emitting.ready taskId).mpr ⟨known, unemitted.1, fun up upEdge => ?_⟩
        rcases List.mem_append.mp (ups up upEdge) with emitted | last
        · exact emitted
        · exact absurd (List.mem_singleton.mp last ▸ upEdge) edge
      rw [heap] at isReady
      exact .inr ((List.mem_cons.mp isReady).resolve_left unemitted.2)

/-- **A round keeps the invariant.** -/
theorem emit (valid : workflow.Valid) (emitting : Emitting workflow kahn)
    (heap : kahn.ready = node :: rest) : Emitting workflow (workflow.emit kahn node rest) := by
  have released := workflow.released_emit kahn node rest
  obtain ⟨nodeTask, nodeNew, nodeUps⟩ := emitting.head_ready heap
  have heapNodup : (node :: rest).Nodup := heap ▸ emitting.readyNodup
  have heapAscending : (node :: rest).Pairwise (· ≤ ·) := heap ▸ emitting.ascending
  refine ⟨?_, ?_, ?_, ?_, ?_, ?_, released.ascending heapAscending.of_cons, ?_⟩
  · rw [released.order]
    refine List.nodup_append.mpr ⟨emitting.orderNodup, List.nodup_singleton node, ?_⟩
    rintro taskId member _ (_ | ⟨_, ⟨⟩⟩) rfl
    exact nodeNew member
  · intro taskId member
    rw [released.order] at member
    rcases List.mem_append.mp member with before | last
    · exact emitting.orderTasks taskId before
    · exact List.mem_singleton.mp last ▸ nodeTask
  · rw [released.order]
    exact forall_positions_concat emitting.respects fun up _ edge => nodeUps up edge
  · rw [released.order]
    refine forall_positions_concat emitting.greedy fun other known unemitted ups => ?_
    have otherReady : other ∈ kahn.ready := (emitting.ready other).mpr
      ⟨known, unemitted, fun up edge => ups up (valid.closed.upstreams other up edge) edge⟩
    rw [heap] at otherReady
    rcases List.mem_cons.mp otherReady with rfl | inRest
    · exact le_refl _
    · exact List.rel_of_pairwise_cons heapAscending inRest
  · rw [released.order]
    exact emitting.indegree_emit heap
  · refine released.ready.nodup_iff.mpr (List.nodup_append.mpr
      ⟨(sorted_nodup _).filter _, heapNodup.of_cons, ?_⟩)
    rintro child isChild _ inRest rfl
    have edge := mem_downstream.mp (mem_sorted.mp (List.mem_filter.mp isChild).1)
    have childReady := heap ▸ List.mem_cons_of_mem node inRest
    exact nodeNew (((emitting.ready child).mp childReady).2.2 node edge)
  · rw [released.order]
    exact emitting.ready_emit valid heap

end Emitting

theorem Emitting.drain {workflow : Workflow} (valid : workflow.Valid) {fuel : ℕ}
    {kahn final : Kahn} (emitting : Emitting workflow kahn)
    (completed : workflow.drain fuel kahn = some final) : Emitting workflow final :=
  drain_induction (fun emitting heap => emitting.emit valid heap) fuel emitting completed

/-- When the heap is empty every task has been emitted: a first task that is not
would be ready. -/
theorem Emitting.complete {workflow : Workflow} (valid : workflow.Valid) {kahn : Kahn}
    (emitting : Emitting workflow kahn) (empty : kahn.ready = []) :
    IsLinearExtension workflow.Edge workflow.tasks.keySet kahn.order := by
  have emitted : ∀ taskId, taskId ∈ workflow.tasks → taskId ∈ kahn.order := by
    intro taskId
    induction taskId using valid.wellFounded.induction with
    | _ taskId ih =>
      intro known
      by_contra unemitted
      have isReady : taskId ∈ kahn.ready := (emitting.ready taskId).mpr
        ⟨known, unemitted, fun up edge => ih up edge (valid.closed.upstreams taskId up edge)⟩
      rw [empty] at isReady
      exact absurd isReady List.not_mem_nil
  exact ⟨emitting.orderNodup,
    fun taskId => ⟨emitting.orderTasks taskId, emitted taskId⟩, emitting.respects⟩

/-- In a valid workflow a greedy linear extension is returned. -/
theorem topologicalOrder_eq_ok {workflow : Workflow} (valid : workflow.Valid) :
    ∃ order, workflow.topologicalOrder = .ok order ∧
      IsLinearExtension workflow.Edge workflow.tasks.keySet order ∧
      IsGreedy workflow.Edge workflow.tasks.keySet order := by
  obtain ⟨final, completed, empty⟩ :=
    workflow.drain_isSome_of_load _ _ workflow.load_kahnInit_le
  have emitting := (Emitting.init valid).drain valid completed
  have extension := emitting.complete valid empty
  have allEmitted : final.order.length = workflow.tasks.keys.length := by
    rw [← List.toFinset_card_of_nodup extension.nodup,
      ← List.toFinset_card_of_nodup workflow.tasks.keys_nodup]
    congr 1
    ext taskId
    rw [List.mem_toFinset, List.mem_toFinset, extension.mem_iff]
    rfl
  refine ⟨final.order, ?_, extension, emitting.greedy⟩
  simp [topologicalOrder, completed, allEmitted]

/-- **The topological order of a valid workflow is the lexicographically least
of its linear extensions, and depends on nothing but the task ids and the
edges.** -/
theorem topologicalOrder_least (workflow : Workflow) (valid : workflow.validateGraph = []) :
    ∃ order, workflow.topologicalOrder = .ok order ∧
      IsLinearExtension workflow.Edge workflow.tasks.keySet order ∧
      (∀ other, IsLinearExtension workflow.Edge workflow.tasks.keySet other → order ≤ other) ∧
      ∀ same : Workflow, same.validateGraph = [] →
        (∀ taskId, taskId ∈ same.tasks ↔ taskId ∈ workflow.tasks) →
        (∀ up taskId, same.Edge up taskId ↔ workflow.Edge up taskId) →
        same.topologicalOrder = .ok order := by
  obtain ⟨order, returned, extension, greedy⟩ :=
    topologicalOrder_eq_ok (validateGraph_eq_nil_iff_valid.mp valid)
  refine ⟨order, returned, extension, fun other => extension.le_of_greedy greedy, ?_⟩
  intro same sameValid sameTasks sameEdges
  obtain ⟨sameOrder, sameReturned, sameExtension, sameGreedy⟩ :=
    topologicalOrder_eq_ok (validateGraph_eq_nil_iff_valid.mp sameValid)
  have edges : same.Edge = workflow.Edge := by
    funext up taskId
    exact propext (sameEdges up taskId)
  have tasks : same.tasks.keySet = workflow.tasks.keySet := by
    ext taskId
    simpa using sameTasks taskId
  rw [edges, tasks] at sameExtension sameGreedy
  rw [sameReturned, le_antisymm (sameExtension.le_of_greedy sameGreedy extension)
    (extension.le_of_greedy greedy sameExtension)]

/-- Two extractions that feed a join. -/
def diamond : Workflow where
  workflowId := "diamond"
  tasks := ⟨[("join", { taskId := "join", taskId_valid := by decide }),
    ("orders", { taskId := "orders", taskId_valid := by decide }),
    ("customers", { taskId := "customers", taskId_valid := by decide }),
    ("start", { taskId := "start", taskId_valid := by decide })], by decide⟩
  dependencies := ⟨[("join", {"orders", "customers"}), ("orders", {"start"}),
    ("customers", {"start"})], by decide⟩

theorem topologicalOrder_least_diamond :
    diamond.topologicalOrder = .ok ["start", "customers", "orders", "join"] ∧
      ∀ other, IsLinearExtension diamond.Edge diamond.tasks.keySet other →
        ["start", "customers", "orders", "join"] ≤ other := by
  obtain ⟨order, returned, _, least, _⟩ := topologicalOrder_least diamond (by decide +kernel)
  have computed : diamond.topologicalOrder = .ok ["start", "customers", "orders", "join"] := by
    decide +kernel
  cases computed.symm.trans returned
  exact ⟨computed, least⟩

end Workflow

end EtlOrchestrator
