import EtlOrchestrator.Engine.Batches
import EtlOrchestrator.Foundations.LongestPaths

/-!
# Levels and longest dependency paths

The level of a task is a rank of the dependency relation: it grows along every
dependency, and a task beyond the first level has an upstream exactly one level
below it. So no level is left empty, the position of a level in the list is the
level of its tasks, and both are the length of the longest dependency path that
ends at such a task (`dependencyLevels_isLevelPartition`).
-/

set_option autoImplicit false

namespace EtlOrchestrator

open SortedSet Relation

/-- The levels of the tasks of a workflow, each at the index that is the length of
the longest dependency paths to its tasks. -/
structure IsLevelPartition (workflow : Workflow) (levels : List (List String)) : Prop where
  nodup : levels.flatten.Nodup
  mem_iff : ∀ taskId, taskId ∈ levels.flatten ↔ taskId ∈ workflow.tasks
  nonempty : ∀ level ∈ levels, level ≠ []
  ascending : ∀ level ∈ levels, level.Pairwise (· < ·)
  longest : ∀ (index : ℕ) (level : List String), levels[index]? = some level →
    ∀ taskId ∈ level, IsGreatest (pathLengths workflow.Edge taskId) index
  upstream : ∀ (index : ℕ) (level : List String), levels[index]? = some level →
    ∀ taskId ∈ level, ∀ up, workflow.Edge up taskId →
      ∃ lower < index, ∃ earlier, levels[lower]? = some earlier ∧ up ∈ earlier
  previous : ∀ (index : ℕ) (level : List String), levels[index + 1]? = some level →
    ∀ taskId ∈ level, ∃ up, workflow.Edge up taskId ∧
      ∃ previous, levels[index]? = some previous ∧ up ∈ previous
  independent : ∀ level ∈ levels, ∀ taskId ∈ level, ∀ other ∈ level,
    ¬ TransGen workflow.Edge taskId other

namespace WorkflowEngine

/-- A task beyond the first level is one level above some upstream. -/
theorem IsLevel.attained {workflow : Workflow} {level : String → ℕ} {taskId : String}
    (isLevel : IsLevel workflow level taskId) (positive : level taskId ≠ 0) :
    ∃ up, workflow.Edge up taskId ∧ level taskId = level up + 1 := by
  rw [IsLevel] at isLevel
  by_cases root : workflow.upstream taskId = ∅
  · rw [if_pos root] at isLevel
    exact absurd isLevel positive
  · obtain ⟨up, edge, greatest⟩ :=
      Finset.exists_mem_eq_sup _ (Finset.nonempty_iff_ne_empty.mpr root) level
    rw [if_neg root, greatest] at isLevel
    exact ⟨up, edge, by omega⟩

/-- In a valid workflow the levels of the tasks are a rank of the dependencies. -/
theorem isRank_of_isLevel {workflow : Workflow} {levels : OrderedDict String ℕ}
    (valid : workflow.Valid) (known : ∀ taskId, taskId ∈ levels ↔ taskId ∈ workflow.tasks)
    (isLevel : ∀ taskId ∈ workflow.tasks,
      IsLevel workflow (fun other => levels.getD other 0) taskId) :
    IsRank workflow.Edge fun taskId => levels.getD taskId 0 where
  grows up taskId edge :=
    (isLevel taskId (valid.closed.keys taskId edge.mem_dependencies)).lt edge
  attained taskId positive := by
    have present : taskId ∈ levels := by
      by_contra missing
      apply positive
      rw [OrderedDict.getD, OrderedDict.get?_eq_none_iff.mpr missing, Option.getD_none]
    exact (isLevel taskId ((known taskId).mp present)).attained positive

/-- The levels that tasks have are an initial segment of the natural numbers. -/
theorem exists_levels_eq_range {workflow : Workflow} {levels : OrderedDict String ℕ}
    (valid : workflow.Valid) (known : ∀ taskId, taskId ∈ levels ↔ taskId ∈ workflow.tasks)
    (isRank : IsRank workflow.Edge fun taskId => levels.getD taskId 0) :
    ∃ bound, sorted levels.values.toFinset = List.range bound := by
  obtain ⟨bound, initial⟩ : ∃ bound, levels.values.toFinset = Finset.range bound := by
    refine exists_eq_range_of_pred_mem fun level member => ?_
    obtain ⟨taskId, _, atLevel⟩ := mem_levels.mp member
    obtain ⟨up, edge, above⟩ := isRank.attained taskId (by omega)
    exact mem_levels.mpr ⟨up, (known up).mpr (valid.closed.upstreams taskId up edge), by omega⟩
  exact ⟨bound, by rw [initial, sorted_eq_sort, Finset.sort_range]⟩

/-- The list of the levels without a gap, by the levels of the tasks. -/
theorem isLevelPartition {workflow : Workflow} {levels : OrderedDict String ℕ} {bound : ℕ}
    (valid : workflow.Valid) (known : ∀ taskId, taskId ∈ levels ↔ taskId ∈ workflow.tasks)
    (isRank : IsRank workflow.Edge fun taskId => levels.getD taskId 0)
    (initial : sorted levels.values.toFinset = List.range bound)
    (layering : IsLayering workflow.Edge workflow.tasks.keySet
      ((List.range bound).map (tasksAt levels))) :
    IsLevelPartition workflow ((List.range bound).map (tasksAt levels)) := by
  have below : ∀ taskId ∈ levels, levels.getD taskId 0 < bound := by
    intro taskId member
    rw [← List.mem_range, ← initial, mem_sorted]
    exact mem_levels.mpr ⟨taskId, member, rfl⟩
  -- a level of the list is the tasks of the level that its index is
  have at_index : ∀ index level, ((List.range bound).map (tasksAt levels))[index]? = some level →
      ∀ taskId ∈ level, taskId ∈ levels ∧ levels.getD taskId 0 = index := by
    intro index level found taskId member
    obtain ⟨inside, rfl⟩ := List.getElem?_eq_some_iff.mp found
    rw [List.getElem_map, List.getElem_range] at member
    exact mem_tasksAt.mp member
  have found : ∀ taskId ∈ levels,
      ((List.range bound).map (tasksAt levels))[levels.getD taskId 0]? =
        some (tasksAt levels (levels.getD taskId 0)) := by
    intro taskId member
    rw [List.getElem?_map, List.getElem?_range (below taskId member), Option.map_some]
  have edge_known : ∀ up taskId, workflow.Edge up taskId → up ∈ levels := by
    intro up taskId edge
    exact (known up).mpr (valid.closed.upstreams taskId up edge)
  refine
    { nodup := layering.nodup
      mem_iff := layering.mem_iff
      nonempty := ?_
      ascending := ?_
      longest := ?_
      upstream := ?_
      previous := ?_
      independent := ?_ }
  · intro level member
    obtain ⟨rank, inRange, rfl⟩ := List.mem_map.mp member
    rw [← initial, mem_sorted] at inRange
    obtain ⟨taskId, present, atRank⟩ := mem_levels.mp inRange
    exact List.ne_nil_of_mem (mem_tasksAt.mpr ⟨present, atRank⟩)
  · intro level member
    obtain ⟨rank, _, rfl⟩ := List.mem_map.mp member
    have sortedLe := List.pairwise_insertionSort (· ≤ ·)
      ((levels.entries.filter fun entry => entry.2 = rank).map Prod.fst)
    exact (sortedLe.and (tasksAt_nodup levels rank)).imp fun both => lt_of_le_of_ne both.1 both.2
  · intro index level atIndex taskId member
    rw [← (at_index index level atIndex taskId member).2]
    exact isRank.isGreatest taskId
  · intro index level atIndex taskId member up edge
    have grows := isRank.grows up taskId edge
    have upKnown := edge_known up taskId edge
    rw [(at_index index level atIndex taskId member).2] at grows
    exact ⟨_, grows, _, found up upKnown, mem_tasksAt.mpr ⟨upKnown, rfl⟩⟩
  · intro index level atIndex taskId member
    have atRank := (at_index (index + 1) level atIndex taskId member).2
    obtain ⟨up, edge, above⟩ := isRank.attained taskId (by omega)
    have upKnown := edge_known up taskId edge
    have upRank : levels.getD up 0 = index := by omega
    exact ⟨up, edge, _, upRank ▸ found up upKnown, mem_tasksAt.mpr ⟨upKnown, rfl⟩⟩
  · intro level member taskId taskMember other otherMember path
    obtain ⟨rank, _, rfl⟩ := List.mem_map.mp member
    have grows : levels.getD taskId 0 < levels.getD other 0 := isRank.lt_of_below path
    rw [(mem_tasksAt.mp taskMember).2, (mem_tasksAt.mp otherMember).2] at grows
    exact lt_irrefl rank grows

/-- **The levels of an accepted engine are computed without an error, and the
index of a level is the length of the longest dependency paths to its tasks.** -/
theorem dependencyLevels_isLevelPartition (engine : AcceptedEngine) :
    ∃ levels, engine.dependencyLevels = .ok levels ∧
      IsLevelPartition engine.workflow levels := by
  obtain ⟨levels, computed, known, isLevel⟩ := dependencyLevels_eq_ok engine.valid
  have isRank := isRank_of_isLevel engine.valid known isLevel
  obtain ⟨bound, initial⟩ := exists_levels_eq_range engine.valid known isRank
  obtain ⟨layers, sameLayers, layering⟩ := dependencyLevels_layering engine.valid
  rw [initial] at computed
  rw [computed, Except.ok.injEq] at sameLayers
  subst sameLayers
  exact ⟨_, computed, isLevelPartition engine.valid known isRank initial layering⟩

end WorkflowEngine

end EtlOrchestrator
