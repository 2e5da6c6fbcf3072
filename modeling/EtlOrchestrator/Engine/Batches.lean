import Mathlib.Data.Finset.Lattice.Fold
import EtlOrchestrator.Engine.Threads
import EtlOrchestrator.Foundations.Layering

/-!
# The batches of a run

The dependency levels of a valid workflow are the layering of its tasks by
their level, which is one more than the greatest level of an upstream. The
single tasks in topological order are a layering too, so in both modes a task's
upstreams stand in strictly earlier batches (`batches_layering`).
-/

set_option autoImplicit false

namespace EtlOrchestrator

open SortedSet

namespace WorkflowEngine

variable {engine : WorkflowEngine}

theorem topologicalOrder_eq_ok (valid : engine.workflow.Valid) :
    ∃ order, engine.topologicalOrder = .ok order ∧
      engine.workflow.topologicalOrder = .ok order ∧
      IsLinearExtension engine.workflow.Edge engine.workflow.tasks.keySet order := by
  obtain ⟨order, returned, extension, _⟩ := Workflow.topologicalOrder_eq_ok valid
  exact ⟨order, by rw [topologicalOrder, returned]; rfl, returned, extension⟩

/-! ## Levels -/

/-- The level of a task is one more than the greatest level of an upstream. -/
def IsLevel (workflow : Workflow) (level : String → ℕ) (taskId : String) : Prop :=
  level taskId =
    if workflow.upstream taskId = ∅ then 0 else 1 + (workflow.upstream taskId).sup level

/-- A task is above the level of each of its upstreams. -/
theorem IsLevel.lt {workflow : Workflow} {level : String → ℕ} {up taskId : String}
    (isLevel : IsLevel workflow level taskId) (edge : workflow.Edge up taskId) :
    level up < level taskId := by
  have nonempty : workflow.upstream taskId ≠ ∅ := Finset.ne_empty_of_mem edge
  have bound : level up ≤ (workflow.upstream taskId).sup level := Finset.le_sup edge
  rw [IsLevel, if_neg nonempty] at isLevel
  omega

/-- The equation of a task looks at the task and its upstreams only. -/
theorem IsLevel.congr {workflow : Workflow} {level other : String → ℕ} {taskId : String}
    (isLevel : IsLevel workflow level taskId) (same : other taskId = level taskId)
    (upstreams : ∀ up, workflow.Edge up taskId → other up = level up) :
    IsLevel workflow other taskId := by
  rw [IsLevel, same, isLevel, Finset.sup_congr rfl upstreams]

/-- What the filled table of levels says. -/
structure Filled (workflow : Workflow) (processed : List String) (levels : OrderedDict String ℕ) :
    Prop where
  mem_iff : ∀ taskId, taskId ∈ levels ↔ taskId ∈ processed
  isLevel : ∀ taskId ∈ processed, IsLevel workflow (fun other => levels.getD other 0) taskId

/-- One more task, whose level was computed from the levels of its upstreams. -/
theorem Filled.extend {workflow : Workflow} {processed : List String}
    {levels : OrderedDict String ℕ} {taskId : String} (filled : Filled workflow processed levels)
    (fresh : taskId ∉ processed)
    (earlier : ∀ other ∈ processed ++ [taskId], ∀ up, workflow.Edge up other → up ∈ processed) :
    Filled workflow (processed ++ [taskId]) (levels.set taskId
      (if workflow.upstream taskId = ∅ then 0
        else 1 + (workflow.upstream taskId).sup fun up => levels.getD up 0)) := by
  have unchanged : ∀ level, ∀ other ∈ processed,
      (levels.set taskId level).getD other 0 = levels.getD other 0 := by
    intro level other member
    have different : other ≠ taskId := fun same => fresh (same ▸ member)
    rw [OrderedDict.getD, OrderedDict.get?_set_of_ne _ _ different, OrderedDict.getD]
  refine ⟨fun other => ?_, fun other member => ?_⟩
  · simp [filled.mem_iff, or_comm]
  · rcases List.mem_append.mp member with old | new
    · exact (filled.isLevel other old).congr (unchanged _ other old) fun up edge =>
        unchanged _ up (earlier other member up edge)
    · obtain rfl := List.mem_singleton.mp new
      rw [IsLevel, OrderedDict.getD, OrderedDict.get?_set_self, Option.getD_some,
        Finset.sup_congr rfl fun up edge => unchanged _ up (earlier other member up edge)]

/-- When no upstream is missing, the level is read off the table. -/
theorem levelOf_eq_ok {processed : List String} {levels : OrderedDict String ℕ} {taskId : String}
    (filled : Filled engine.workflow processed levels)
    (earlier : ∀ up, engine.workflow.Edge up taskId → up ∈ processed) :
    engine.levelOf levels taskId = .ok (if engine.workflow.upstream taskId = ∅ then 0
      else 1 + (engine.workflow.upstream taskId).sup fun up => levels.getD up 0) := by
  by_cases root : engine.workflow.upstream taskId = ∅
  · simp [WorkflowEngine.levelOf, root]
  · have noneMissing : (sorted (engine.workflow.upstream taskId)).find? (· ∉ levels) = none := by
      rw [List.find?_eq_none]
      intro up member
      have known := (filled.mem_iff up).mpr (earlier up (mem_sorted.mp member))
      simpa using known
    simp only [WorkflowEngine.levelOf, root, if_false, noneMissing]

/-- The loop keeps a table for the tasks already processed. -/
theorem fillLevels_filled (valid : engine.workflow.Valid) : ∀ (rest processed : List String)
    (levels : OrderedDict String ℕ),
    IsLinearExtension engine.workflow.Edge engine.workflow.tasks.keySet (processed ++ rest) →
    Filled engine.workflow processed levels →
    ∃ final, engine.fillLevels rest levels = .ok final ∧
      Filled engine.workflow (processed ++ rest) final := by
  intro rest
  induction rest with
  | nil =>
      intro processed levels _ filled
      exact ⟨levels, rfl, by rwa [List.append_nil]⟩
  | cons taskId rest ih =>
      intro processed levels extension filled
      have fresh : taskId ∉ processed := fun member =>
        List.disjoint_of_nodup_append extension.nodup member List.mem_cons_self
      have earlier : ∀ other ∈ processed ++ [taskId], ∀ up, engine.workflow.Edge up other →
          up ∈ processed := by
        intro other member up edge
        have known := OrderedDict.mem_keySet.mpr (valid.closed.upstreams other up edge)
        rcases List.mem_append.mp member with old | new
        · exact extension.pred_mem rfl old known edge
        · obtain rfl := List.mem_singleton.mp new
          exact extension.respects processed other rest rfl up known edge
      obtain ⟨final, returned, filledFinal⟩ :=
        ih (processed ++ [taskId]) _ (by simpa using extension) (filled.extend fresh earlier)
      refine ⟨final, ?_, by simpa using filledFinal⟩
      rw [fillLevels, levelOf_eq_ok filled fun up edge => earlier taskId (by simp) up edge]
      exact returned

theorem mem_tasksAt {levels : OrderedDict String ℕ} {level : ℕ} {taskId : String} :
    taskId ∈ tasksAt levels level ↔ taskId ∈ levels ∧ levels.getD taskId 0 = level := by
  simp only [tasksAt, List.mem_insertionSort, List.mem_map, List.mem_filter, decide_eq_true_eq,
    OrderedDict.getD]
  constructor
  · rintro ⟨⟨key, stored⟩, ⟨entry, rfl⟩, rfl⟩
    rw [OrderedDict.get?_eq_some_iff.mpr entry]
    exact ⟨OrderedDict.mem_of_entry entry, rfl⟩
  · rintro ⟨member, same⟩
    obtain ⟨stored, found⟩ := OrderedDict.exists_get?_of_mem member
    rw [found, Option.getD_some] at same
    exact ⟨(taskId, stored), ⟨OrderedDict.get?_eq_some_iff.mp found, same⟩, rfl⟩

theorem tasksAt_nodup (levels : OrderedDict String ℕ) (level : ℕ) :
    (tasksAt levels level).Nodup := by
  refine (List.perm_insertionSort _ _).nodup_iff.mpr ?_
  exact levels.nodupKeys.sublist (List.filter_sublist.map Prod.fst)

/-- The levels are read off a table that has the level of every task. -/
theorem dependencyLevels_eq_ok (valid : engine.workflow.Valid) : ∃ levels,
    engine.dependencyLevels = .ok ((sorted levels.values.toFinset).map (tasksAt levels)) ∧
      (∀ taskId, taskId ∈ levels ↔ taskId ∈ engine.workflow.tasks.keySet) ∧
      ∀ taskId ∈ engine.workflow.tasks.keySet,
        IsLevel engine.workflow (fun other => levels.getD other 0) taskId := by
  obtain ⟨order, ordered, _, extension⟩ := topologicalOrder_eq_ok valid
  obtain ⟨levels, computed, filled⟩ := fillLevels_filled valid order [] ∅
    (by simpa using extension) ⟨by simp, by simp⟩
  rw [List.nil_append] at filled
  refine ⟨levels, ?_, fun taskId => ?_, fun taskId member => ?_⟩
  · rw [dependencyLevels, ordered]
    simp only [bind, Except.bind, computed, pure, Except.pure]
  · exact (filled.mem_iff taskId).trans (extension.mem_iff taskId)
  · exact filled.isLevel taskId ((extension.mem_iff taskId).mpr member)

theorem mem_levels {levels : OrderedDict String ℕ} {level : ℕ} :
    level ∈ levels.values.toFinset ↔ ∃ taskId ∈ levels, levels.getD taskId 0 = level := by
  rw [List.mem_toFinset, OrderedDict.values, List.mem_map]
  constructor
  · rintro ⟨⟨taskId, stored⟩, entry, rfl⟩
    refine ⟨taskId, OrderedDict.mem_of_entry entry, ?_⟩
    rw [OrderedDict.getD, OrderedDict.get?_eq_some_iff.mpr entry, Option.getD_some]
  · rintro ⟨taskId, member, rfl⟩
    obtain ⟨stored, found⟩ := OrderedDict.exists_get?_of_mem member
    refine ⟨(taskId, stored), OrderedDict.get?_eq_some_iff.mp found, ?_⟩
    rw [OrderedDict.getD, found, Option.getD_some]

theorem dependencyLevels_layering (valid : engine.workflow.Valid) :
    ∃ levels, engine.dependencyLevels = .ok levels ∧
      IsLayering engine.workflow.Edge engine.workflow.tasks.keySet levels := by
  obtain ⟨levels, computed, known, isLevel⟩ := dependencyLevels_eq_ok valid
  refine ⟨_, computed, ?_⟩
  refine IsLayering.of_rank (fun taskId => levels.getD taskId 0) (sorted_pairwise_lt _)
    (tasksAt_nodup levels) (fun level taskId => by rw [mem_tasksAt, known])
    (fun taskId member => ?_) ?_
  · exact mem_sorted.mpr (mem_levels.mpr ⟨taskId, (known taskId).mpr member, rfl⟩)
  · intro up taskId _ member edge
    exact (isLevel taskId member).lt edge

/-- **In both modes the batches are a layering of the tasks.** -/
theorem batches_layering (valid : engine.workflow.Valid) : ∃ levels,
    engine.batches = .ok levels ∧
      IsLayering engine.workflow.Edge engine.workflow.tasks.keySet levels := by
  by_cases sequential : engine.maxWorkers ≤ 1
  · obtain ⟨order, ordered, _, extension⟩ := topologicalOrder_eq_ok valid
    refine ⟨order.map ([·]), ?_, extension.layering⟩
    rw [batches, if_pos sequential, ordered]
    rfl
  · obtain ⟨levels, computed, layering⟩ := dependencyLevels_layering valid
    exact ⟨levels, by rw [batches, if_neg sequential, computed], layering⟩

end WorkflowEngine

end EtlOrchestrator
