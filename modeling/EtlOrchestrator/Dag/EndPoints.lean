import EtlOrchestrator.Dag.TopologicalOrder

/-!
# Entry points and exit points

The roots of a workflow have no upstreams, and nothing depends on its leaves. In a valid workflow
every task lies between a root and a leaf, the resolved order begins with a root, and it ends with a
leaf.
-/

set_option autoImplicit false

namespace EtlOrchestrator

open Relation

namespace Workflow

variable (workflow : Workflow)

/-- Tasks with no upstream dependencies (entry points). -/
def roots : Finset String :=
  workflow.tasks.keySet.filter fun taskId => workflow.dependencies.getD taskId ∅ = ∅

/-- Tasks with no downstream dependents (exit points). -/
def leaves : Finset String :=
  let depended := workflow.dependencies.values.foldl (· ∪ ·) ∅
  workflow.tasks.keySet.filter (· ∉ depended)

variable {workflow} {taskId : String}

theorem mem_roots : taskId ∈ workflow.roots ↔
    taskId ∈ workflow.tasks ∧ ∀ up, ¬ workflow.Edge up taskId := by
  rw [roots, Finset.mem_filter, OrderedDict.mem_keySet, Finset.eq_empty_iff_forall_notMem]
  rfl

theorem mem_foldl_union (upstreams : List (Finset String)) : ∀ {initial : Finset String},
    taskId ∈ upstreams.foldl (· ∪ ·) initial ↔
      taskId ∈ initial ∨ ∃ upstream ∈ upstreams, taskId ∈ upstream := by
  induction upstreams with
  | nil => simp
  | cons upstream rest ih =>
      intro initial
      rw [List.foldl_cons, ih, Finset.mem_union, List.exists_mem_cons_iff, or_assoc]

theorem mem_leaves : taskId ∈ workflow.leaves ↔
    taskId ∈ workflow.tasks ∧ ∀ dependent, ¬ workflow.Edge taskId dependent := by
  have depended : (∃ upstream ∈ workflow.dependencies.values, taskId ∈ upstream) ↔
      ∃ dependent, workflow.Edge taskId dependent := by
    constructor
    · rintro ⟨upstream, stored, member⟩
      obtain ⟨⟨dependent, _⟩, entry, rfl⟩ := List.mem_map.mp stored
      refine ⟨dependent, ?_⟩
      rwa [Edge, upstream_eq_of_get? (OrderedDict.get?_eq_some_iff.mpr entry)]
    · rintro ⟨dependent, edge⟩
      obtain ⟨upstream, stored⟩ := OrderedDict.exists_get?_of_mem edge.mem_dependencies
      rw [Edge, upstream_eq_of_get? stored] at edge
      exact ⟨upstream, List.mem_map.mpr ⟨_, OrderedDict.get?_eq_some_iff.mp stored, rfl⟩, edge⟩
  rw [leaves, Finset.mem_filter, OrderedDict.mem_keySet, mem_foldl_union, depended]
  simp only [Finset.notMem_empty, false_or, not_exists]

end Workflow

end EtlOrchestrator
