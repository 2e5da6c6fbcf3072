import EtlOrchestrator.Dag.TopologicalOrder

/-!
# The order depends on the graph only

Two workflows have the same graph if they have the same set of tasks and each id has the same
upstreams. The search and Kahn's loop go through sets in ascending order, so that neither
the order in which tasks and edges were inserted nor the tasks themselves matter: closed
workflows with the same graph have the same topological order, or raise the same cycle
(`SameGraph.topologicalOrder_eq`).
-/

set_option autoImplicit false

namespace EtlOrchestrator

open SortedSet

namespace Workflow

/-- The same ids of tasks, and the same edges. -/
structure SameGraph (first second : Workflow) : Prop where
  tasks : first.tasks.keySet = second.tasks.keySet
  edge : first.Edge = second.Edge

namespace SameGraph

variable {first second : Workflow}

theorem mem_tasks (same : SameGraph first second) (taskId : String) :
    taskId ∈ first.tasks ↔ taskId ∈ second.tasks := by
  rw [← OrderedDict.mem_keySet, same.tasks, OrderedDict.mem_keySet]

theorem upstream (same : SameGraph first second) (taskId : String) :
    first.upstream taskId = second.upstream taskId := by
  ext up
  exact iff_of_eq (congrFun₂ same.edge up taskId)

theorem downstream (same : SameGraph first second) (taskId : String) :
    first.downstream taskId = second.downstream taskId := by
  ext child
  rw [mem_downstream, mem_downstream, same.edge]

theorem length_keys (same : SameGraph first second) :
    first.tasks.keys.length = second.tasks.keys.length :=
  congrArg Finset.card same.tasks

/-! ## The search -/

theorem visit (same : SameGraph first second) :
    ∀ fuel : ℕ, first.visit fuel = second.visit fuel := by
  intro fuel
  induction fuel with
  | zero => rfl
  | succ fuel ih =>
      have rounds : first.meet (first.visit fuel) = second.meet (second.visit fuel) := by
        funext dfs neighbor
        simp only [meet, same.mem_tasks, ih]
      funext node dfs
      rw [Workflow.visit, Workflow.visit, same.upstream, rounds]

theorem search (same : SameGraph first second) (fuel : ℕ) :
    first.search fuel = second.search fuel := by
  have rounds : first.visitRoot fuel = second.visitRoot fuel := by
    funext dfs taskId
    rw [visitRoot, visitRoot, same.visit]
  rw [Workflow.search, Workflow.search, same.tasks, rounds]

theorem findCycles_eq (same : SameGraph first second) : first.findCycles = second.findCycles := by
  obtain ⟨final, completed, _, returned⟩ := first.search_meets
  obtain ⟨otherFinal, otherCompleted, _, otherReturned⟩ := second.search_meets
  rw [← same.length_keys, ← same.search, completed] at otherCompleted
  cases otherCompleted
  rw [returned, otherReturned]

/-! ## Kahn's loop -/

theorem drain (same : SameGraph first second) :
    ∀ fuel : ℕ, first.drain fuel = second.drain fuel := by
  intro fuel
  induction fuel with
  | zero => rfl
  | succ fuel ih =>
      have rounds : first.emit = second.emit := by
        funext kahn node rest
        rw [emit, emit, same.downstream]
      funext kahn
      rw [Workflow.drain, Workflow.drain, rounds, ih]

/-- In a closed workflow the indegree table has a key for each task. -/
theorem indegreeKeys_of_closed {workflow : Workflow} (closed : workflow.Closed) :
    workflow.indegreeKeys = workflow.tasks.keySet :=
  Finset.union_eq_left.mpr fun key member => closed.keys key member

theorem kahnInit (same : SameGraph first second) (firstClosed : first.Closed)
    (secondClosed : second.Closed) : first.kahnInit = second.kahnInit := by
  simp only [Workflow.kahnInit, indegreeKeys_of_closed firstClosed,
    indegreeKeys_of_closed secondClosed, same.tasks, same.upstream]

/-- **Closed workflows with the same graph have the same order, or raise the same error.** -/
theorem topologicalOrder_eq (same : SameGraph first second) (firstClosed : first.Closed)
    (secondClosed : second.Closed) : first.topologicalOrder = second.topologicalOrder := by
  obtain ⟨final, completed⟩ := Option.isSome_iff_exists.mp first.drain_isSome
  have otherCompleted :
      second.drain second.indegreeKeys.card second.kahnInit = some final := by
    rw [← completed, indegreeKeys_of_closed firstClosed, indegreeKeys_of_closed secondClosed,
      ← same.tasks, ← same.drain, ← same.kahnInit firstClosed secondClosed]
  simp only [topologicalOrder, completed, otherCompleted, same.length_keys, same.findCycles_eq,
    same.tasks]

end SameGraph

end Workflow

end EtlOrchestrator
