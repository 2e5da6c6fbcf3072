import EtlOrchestrator.Foundations.SearchForest
import EtlOrchestrator.Dag.Meetings

/-!
# Which cycles the validation lists

The log of the search determines the branch of each task: the path on which it was
visited, and the task itself. The branches are a search forest of the graph
(`SearchLog.isForest`). An edge extends a branch or leads back, unless its upstream is
black when it is met (`SearchLog.extends_or_back_iff`), and the cycles that are returned
are the loops of the forest (`SearchLog.findCycles_spec`).

`_find_cycles` is documented to return each distinct cycle once, so that all problems
can be fixed in one pass. It never returns two cycles of the same tasks. But cycles can
share edges, and one that needs an edge to a black task is no loop. All cycles are
returned if and only if no edge that lies on a cycle is met when its upstream is black
(`reportsEveryCycle_iff`).
-/

set_option autoImplicit false

namespace EtlOrchestrator

open SortedSet Relation

namespace Workflow

/-! ## The log of the whole search -/

variable {workflow : Workflow} {log : List Meeting}

/-- The log of the search for cycles. -/
def SearchLog (workflow : Workflow) (log : List Meeting) : Prop :=
  ∃ final, workflow.Logs (sorted workflow.tasks.keySet) Dfs.init final log

/-- The search has a log. -/
theorem exists_searchLog (workflow : Workflow) : ∃ log, workflow.SearchLog log := by
  obtain ⟨final, _, meets, _⟩ := workflow.search_meets
  obtain ⟨log, logs⟩ := meets.exists_log
  exact ⟨log, final, logs⟩

/-- The branch of a task: the path on which it was visited, and the task. -/
def branch (log : List Meeting) (task : String) : List String :=
  ((log.find? fun meeting => meeting.color = .white ∧ meeting.neighbor = task).elim []
    Meeting.path) ++ [task]

namespace SearchLog

theorem init_onPath (workflow : Workflow) (roots : List String) :
    Logs.OnPath workflow roots Dfs.init where
  nodup := List.nodup_nil
  gray taskId := by simp [Dfs.init]
  chain root _ _ := .singleton root

theorem wellMet (isLog : workflow.SearchLog log) :
    ∀ meeting ∈ log, Logs.WellMet workflow meeting := by
  obtain ⟨final, logs⟩ := isLog
  exact logs.wellMet (init_onPath workflow _)

/-- Each task of a path was visited on the path before it. -/
theorem entered (isLog : workflow.SearchLog log) {meeting : Meeting} (member : meeting ∈ log)
    {before after : List String} {task : String} (split : meeting.path = before ++ task :: after) :
    ⟨before, task, .white⟩ ∈ log := by
  obtain ⟨final, logs⟩ := isLog
  exact logs.entered meeting member before task after split List.nil_prefix

/-- The branch of a task that was visited on a path. -/
theorem branch_eq (isLog : workflow.SearchLog log) {path : List String} {task : String}
    (visited : ⟨path, task, .white⟩ ∈ log) : branch log task = path ++ [task] := by
  obtain ⟨final, logs⟩ := isLog
  cases found : log.find? fun meeting => meeting.color = .white ∧ meeting.neighbor = task with
  | none => simpa using List.find?_eq_none.mp found _ visited
  | some meeting =>
      have holds := List.find?_some found
      rw [decide_eq_true_eq] at holds
      obtain ⟨white, same⟩ := holds
      have only : meeting = ⟨path, task, .white⟩ := by
        by_contra different
        have symmetric : Std.Symm fun first second : Meeting =>
            first.color = .white → second.color = .white → second.neighbor ≠ first.neighbor :=
          ⟨fun _ _ apart firstWhite secondWhite => (apart secondWhite firstWhite).symm⟩
        have apart := logs.pairwise_visits.forall (List.mem_of_find?_eq_some found) visited
          different
        exact apart white rfl same.symm
      rw [branch, found, only]
      rfl

/-- Each task is visited, and its branch ends with it. -/
theorem exists_visit (isLog : workflow.SearchLog log) {task : String}
    (known : task ∈ workflow.tasks) : ∃ path, ⟨path, task, .white⟩ ∈ log := by
  obtain ⟨final, logs⟩ := isLog
  exact logs.visited_of_ne_white rfl (logs.color_ne_white task (mem_sorted.mpr known) known)

/-- What is no task has itself for a branch. -/
theorem branch_cases (isLog : workflow.SearchLog log) (task : String) :
    (∃ path, ⟨path, task, .white⟩ ∈ log ∧ branch log task = path ++ [task]) ∨
      branch log task = [task] := by
  by_cases visited : ∃ path, ⟨path, task, .white⟩ ∈ log
  · obtain ⟨path, member⟩ := visited
    exact .inl ⟨path, member, isLog.branch_eq member⟩
  · refine .inr ?_
    have none : log.find? (fun meeting => meeting.color = .white ∧ meeting.neighbor = task) =
        none := by
      refine List.find?_eq_none.mpr fun meeting member => ?_
      rw [decide_eq_true_eq]
      rintro ⟨white, rfl⟩
      exact visited ⟨meeting.path, white ▸ member⟩
    rw [branch, none]
    rfl

/-- **The branches are a search forest.** -/
theorem isForest (isLog : workflow.SearchLog log) : IsForest workflow.Follows (branch log) where
  last task := ⟨_, rfl⟩
  nodup task := by
    rcases isLog.branch_cases task with ⟨path, visited, same⟩ | same
    · obtain ⟨nodup, gray, _⟩ := isLog.wellMet _ visited
      rw [same, ← List.concat_eq_append]
      refine nodup.concat fun member => ?_
      cases gray.mpr member
    · rw [same]
      exact List.nodup_singleton task
  initial task before other after split := by
    rcases isLog.branch_cases task with ⟨path, visited, same⟩ | same
    · rw [same] at split
      rcases List.eq_nil_or_concat after with rfl | ⟨between, last, rfl⟩
      · cases List.append_inj_right' split rfl
        rw [same, split]
      · rw [List.concat_eq_append, ← List.cons_append, ← List.append_assoc] at split
        obtain ⟨onPath, _⟩ := List.append_inj' split rfl
        exact isLog.branch_eq (isLog.entered visited onPath)
    · rw [same] at split
      cases before with
      | nil =>
          cases split
          exact same
      | cons first before => simp at split
  chain task := by
    rcases isLog.branch_cases task with ⟨path, visited, same⟩ | same
    · rw [same]
      exact (isLog.wellMet _ visited).chain
    · rw [same]
      exact .singleton task

end SearchLog

/-! ## The edges and cycles that are met -/

/-- The search meets an upstream of a task when the upstream is black. -/
def MeetsBlack (workflow : Workflow) (task up : String) : Prop :=
  ∃ log path, workflow.SearchLog log ∧ ⟨path ++ [task], up, .black⟩ ∈ log

/-- Each simple cycle of the tasks is listed, and none twice. -/
structure ReportsEveryCycle (workflow : Workflow) : Prop where
  every : ∀ cycle, IsSimpleCycle workflow.Follows cycle →
    ∃ reported ∈ workflow.findCycles, reported.toFinset = cycle.toFinset
  once : workflow.findCycles.Pairwise fun first second => first.toFinset ≠ second.toFinset
  listed : ∀ reported ∈ workflow.findCycles, "dependency cycle: " ++
    " -> ".intercalate (reported ++ reported.take 1) ∈ workflow.validateGraph

instance (task up : String) : Decidable (workflow.Follows task up) :=
  inferInstanceAs (Decidable (_ ∧ _ ∧ workflow.Edge up task))

namespace SearchLog

/-- A workflow has one log. -/
theorem unique {other : List Meeting} (isLog : workflow.SearchLog log)
    (otherIsLog : workflow.SearchLog other) : log = other := by
  obtain ⟨final, logs⟩ := isLog
  obtain ⟨otherFinal, otherLogs⟩ := otherIsLog
  exact (logs.functional otherLogs).2

/-- The path of a round below a task is the branch of the task. -/
theorem branch_of_met (isLog : workflow.SearchLog log) {path : List String} {task up : String}
    {color : Color} (met : ⟨path ++ [task], up, color⟩ ∈ log) :
    branch log task = path ++ [task] :=
  isLog.branch_eq (isLog.entered met rfl)

/-- Each edge is met, on the branch of its task. -/
theorem exists_met (isLog : workflow.SearchLog log) {task up : String}
    (follows : workflow.Follows task up) : ∃ color, ⟨branch log task, up, color⟩ ∈ log := by
  obtain ⟨path, visited⟩ := isLog.exists_visit follows.1
  rw [isLog.branch_eq visited]
  obtain ⟨final, logs⟩ := isLog
  exact logs.meets_upstreams path task visited up follows

/-- **An edge that is not met at black extends a branch or leads back, and no other does.** -/
theorem extends_or_back_iff (isLog : workflow.SearchLog log) {task up : String}
    (follows : workflow.Follows task up) :
    branch log up = branch log task ++ [up] ∨ up ∈ branch log task ↔
      ⟨branch log task, up, .black⟩ ∉ log := by
  constructor
  · rintro (tree | back) met
    · obtain ⟨path, visited⟩ := isLog.exists_visit follows.2.1
      have same : path ++ [up] = branch log task ++ [up] :=
        (isLog.branch_eq visited).symm.trans tree
      rw [List.append_cancel_right_eq] at same
      obtain ⟨final, logs⟩ := isLog
      have symmetric : Std.Symm fun first second : Meeting =>
          ¬ (second.path = first.path ∧ second.neighbor = first.neighbor) :=
        ⟨fun _ _ apart same => apart ⟨same.1.symm, same.2.symm⟩⟩
      have apart := (logs.pairwise_ne (sorted_nodup _)).forall visited met (by simp)
      exact apart ⟨same.symm, rfl⟩
    · cases (isLog.wellMet _ met).gray.mpr back
  · intro notBlack
    obtain ⟨color, met⟩ := isLog.exists_met follows
    cases color with
    | white => exact .inl (isLog.branch_eq met)
    | gray => exact .inr ((isLog.wellMet _ met).gray.mp rfl)
    | black => exact absurd met notBlack

/-- **The cycles of the grey neighbours are the loops of the forest.** -/
theorem isLoop_iff (isLog : workflow.SearchLog log) (loop : List String) :
    IsLoop workflow.Follows (branch log) loop ↔
      ∃ meeting ∈ log, meeting.color = .gray ∧ loop = meeting.cycle := by
  constructor
  · rintro @⟨task, first, before, later, atEnd, back⟩
    obtain ⟨color, met⟩ := isLog.exists_met back
    have member : first ∈ branch log task := by
      rw [atEnd]
      exact List.mem_append_right _ List.mem_cons_self
    have gray := (isLog.wellMet _ met).gray.mpr member
    refine ⟨_, met, gray, ?_⟩
    have nodup := isLog.isForest.nodup task
    rw [atEnd] at nodup
    have notBefore : first ∉ before := fun above =>
      List.disjoint_of_nodup_append nodup above List.mem_cons_self
    rw [Meeting.cycle, atEnd, List.idxOf_append_of_notMem notBefore, List.idxOf_cons_self,
      Nat.add_zero, List.drop_left]
  · rintro ⟨⟨path, up, color⟩, met, gray, rfl⟩
    obtain ⟨nodup, onPath, chain⟩ := isLog.wellMet _ met
    obtain ⟨before, later, split⟩ := List.append_of_mem (onPath.mp gray)
    dsimp only at split nodup chain
    subst split
    have notBefore : up ∉ before := fun above =>
      List.disjoint_of_nodup_append nodup above List.mem_cons_self
    rw [Meeting.cycle, List.idxOf_append_of_notMem notBefore, List.idxOf_cons_self,
      Nat.add_zero, List.drop_left]
    rcases List.eq_nil_or_concat (before ++ up :: later) with none | ⟨path, task, ends⟩
    · simp at none
    · rw [List.concat_eq_append] at ends
      have atEnd : branch log task = before ++ up :: later := by
        rw [ends] at met ⊢
        exact isLog.branch_of_met met
      refine .close atEnd ?_
      rw [ends, List.append_assoc, List.singleton_append, List.isChain_append_cons_cons] at chain
      exact chain.2.1

/-- What the search returns: each loop once, up to the order of its tasks. -/
theorem findCycles_spec (isLog : workflow.SearchLog log) :
    workflow.findCycles.Pairwise (fun first second => first.toFinset ≠ second.toFinset) ∧
    (∀ cycle ∈ workflow.findCycles, IsLoop workflow.Follows (branch log) cycle) ∧
    ∀ loop, IsLoop workflow.Follows (branch log) loop →
      ∃ cycle ∈ workflow.findCycles, cycle.toFinset = loop.toFinset := by
  obtain ⟨final, _, meets, returned⟩ := workflow.search_meets
  obtain ⟨otherLog, logs⟩ := meets.exists_log
  obtain rfl := isLog.unique ⟨final, logs⟩
  have finds := logs.finds ⟨fun key => by simp [Dfs.init], .nil⟩
  rw [returned]
  refine ⟨finds.distinct.cycles, fun cycle member => (isLog.isLoop_iff cycle).mpr ?_,
    fun loop isLoop => ?_⟩
  · exact (finds.sound cycle member).resolve_left List.not_mem_nil
  · obtain ⟨meeting, met, gray, rfl⟩ := (isLog.isLoop_iff loop).mp isLoop
    exact finds.complete meeting met gray

/-- Every simple cycle is returned, up to the order of its tasks, if and only if every one
is a loop. -/
theorem every_iff (isLog : workflow.SearchLog log) :
    (∀ cycle, IsSimpleCycle workflow.Follows cycle →
        ∃ reported ∈ workflow.findCycles, reported.toFinset = cycle.toFinset) ↔
      ∀ cycle, IsSimpleCycle workflow.Follows cycle →
        ∃ loop, IsLoop workflow.Follows (branch log) loop ∧ loop.Perm cycle := by
  obtain ⟨_, sound, complete⟩ := isLog.findCycles_spec
  refine forall_congr' fun cycle => forall_congr' fun simple => ⟨?_, ?_⟩
  · rintro ⟨reported, member, same⟩
    have loopSimple := isLog.isForest.simple_of_isLoop (sound reported member)
    exact ⟨reported, sound reported member,
      List.perm_of_nodup_nodup_toFinset_eq loopSimple.nodup simple.nodup same⟩
  · rintro ⟨loop, isLoop, perm⟩
    obtain ⟨reported, member, same⟩ := complete loop isLoop
    exact ⟨reported, member, same.trans (List.toFinset_eq_of_perm _ _ perm)⟩

end SearchLog

/-- **The validation lists every simple cycle, each once, if and only if no edge that lies on a
cycle is met when its upstream is black.** -/
theorem reportsEveryCycle_iff (workflow : Workflow) : workflow.ReportsEveryCycle ↔
    ∀ task up, workflow.MeetsBlack task up → ¬ ReflTransGen workflow.Follows up task := by
  obtain ⟨log, isLog⟩ := workflow.exists_searchLog
  have kinds : (∀ task up, workflow.Follows task up → ReflTransGen workflow.Follows up task →
      branch log up = branch log task ++ [up] ∨ up ∈ branch log task) ↔
      ∀ task up, workflow.MeetsBlack task up → ¬ ReflTransGen workflow.Follows up task := by
    constructor
    · rintro kinds task up ⟨otherLog, path, otherIsLog, met⟩ reaches
      obtain rfl := isLog.unique otherIsLog
      have chain := (isLog.wellMet _ met).chain
      rw [List.append_assoc, List.singleton_append, List.isChain_append_cons_cons] at chain
      refine (isLog.extends_or_back_iff chain.2.1).mp (kinds task up chain.2.1 reaches) ?_
      rwa [isLog.branch_of_met met]
    · intro condition task up follows reaches
      refine (isLog.extends_or_back_iff follows).mpr fun met => ?_
      obtain ⟨path, atEnd⟩ := isLog.isForest.last task
      exact condition task up ⟨log, path, isLog, atEnd ▸ met⟩ reaches
  rw [← kinds, ← isLog.isForest.loops_complete_iff, ← isLog.every_iff]
  refine ⟨ReportsEveryCycle.every, fun every => ⟨every, isLog.findCycles_spec.1, ?_⟩⟩
  intro reported member
  exact List.mem_append_right _ (List.mem_map.mpr ⟨reported, member, rfl⟩)

/-- Two cycles that share an edge. -/
def rejoining : Workflow where
  workflowId := "rejoining"
  tasks := ⟨[("joined", { taskId := "joined", taskId_valid := by decide }),
    ("left", { taskId := "left", taskId_valid := by decide }),
    ("raw", { taskId := "raw", taskId_valid := by decide }),
    ("right", { taskId := "right", taskId_valid := by decide })], by decide⟩
  dependencies := ⟨[("joined", {"left", "right"}), ("left", {"raw"}), ("right", {"raw"}),
    ("raw", {"joined"})], by decide⟩

/-- One of the two cycles is not listed. -/
theorem rejoining_unreported :
    rejoining.findCycles = [["joined", "left", "raw"]] ∧
      rejoining.validateGraph = ["dependency cycle: joined -> left -> raw -> joined"] ∧
      IsSimpleCycle rejoining.Follows ["joined", "right", "raw"] ∧
      ¬ rejoining.ReportsEveryCycle := by
  have found : rejoining.findCycles = [["joined", "left", "raw"]] := by decide +kernel
  have simple : IsSimpleCycle rejoining.Follows ["joined", "right", "raw"] :=
    ⟨by decide, by decide, by decide +kernel⟩
  refine ⟨found, by decide +kernel, simple, fun reports => ?_⟩
  obtain ⟨reported, member, same⟩ := reports.every _ simple
  rw [found, List.mem_singleton] at member
  subst member
  exact absurd same (by decide)

end Workflow

end EtlOrchestrator
