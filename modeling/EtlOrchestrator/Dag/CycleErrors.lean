import EtlOrchestrator.Dag.EveryCycle
import EtlOrchestrator.Dag.DanglingKeys

/-!
# The cycles that are shown to the user

A cycle leaves the graph code in two places: `_find_cycles` lists it, and
`topological_order` raises it in a `DependencyCycleError`. The lists of the first are loops
of a search forest, hence simple cycles of the graph (`simple_of_mem_findCycles`).

The error comes from another algorithm. Kahn's loop only counts, and the search is asked for
a cycle when the count is short; a list of leftover ids stands ready for the case that it
finds none. Without dangling references the two agree: the count is short exactly when the
search finds something, and the leftover ids are never raised
(`cycles_are_genuine`).
-/

set_option autoImplicit false

namespace EtlOrchestrator

open SortedSet Relation

namespace Workflow

variable {workflow : Workflow}

/-- A walk over tasks against the edges: each task is followed by one of its upstreams. -/
def WalksUpstream (workflow : Workflow) (walk : List String) : Prop :=
  (∀ task ∈ walk, task ∈ workflow.tasks) ∧
    ∀ before task next after, walk = before ++ task :: next :: after →
      next ∈ workflow.upstream task

/-- A walk over different tasks whose first one is an upstream of the last. -/
structure GenuineCycle (workflow : Workflow) (cycle : List String) : Prop where
  nonempty : cycle ≠ []
  nodup : cycle.Nodup
  walks : workflow.WalksUpstream cycle
  closes : ∀ first last, cycle.head? = some first → cycle.getLast? = some last →
    first ∈ workflow.upstream last

theorem walksUpstream_of_chain {walk : List String} (chain : walk.IsChain workflow.Follows)
    (known : ∀ task ∈ walk, task ∈ workflow.tasks) : workflow.WalksUpstream walk := by
  refine ⟨known, fun before task next after split => ?_⟩
  rw [split, List.isChain_append_cons_cons] at chain
  exact chain.2.1.2.2

/-- The tasks of a closed walk are tasks. -/
theorem known_of_simple {cycle : List String} (simple : IsSimpleCycle workflow.Follows cycle) :
    ∀ task ∈ cycle, task ∈ workflow.tasks := by
  intro task member
  obtain ⟨before, after, rfl⟩ := List.append_of_mem member
  have closed := simple.rotate.closed
  rw [List.take_succ_cons, List.take_zero, List.cons_append] at closed
  cases split : after ++ before ++ [task] with
  | nil => simp at split
  | cons next rest =>
      rw [split, List.isChain_cons_cons] at closed
      exact closed.1.1

/-- A simple cycle, written with its first task repeated at the end. -/
theorem walksUpstream_closed {cycle : List String}
    (simple : IsSimpleCycle workflow.Follows cycle) :
    workflow.WalksUpstream (cycle ++ cycle.take 1) := by
  apply walksUpstream_of_chain simple.closed
  intro task member
  rcases List.mem_append.mp member with inCycle | repeated
  · exact known_of_simple simple task inCycle
  · exact known_of_simple simple task (List.mem_of_mem_take repeated)

theorem genuine_of_simple {cycle : List String}
    (simple : IsSimpleCycle workflow.Follows cycle) : workflow.GenuineCycle cycle where
  nonempty := simple.nonempty
  nodup := simple.nodup
  walks := walksUpstream_of_chain simple.closed.left_of_append (known_of_simple simple)
  closes first last head ends := by
    obtain ⟨before, rfl⟩ := List.getLast?_eq_some_iff.mp ends
    have repeated : (before ++ [last]).take 1 = [first] := by
      cases before with
      | nil => simpa using head
      | cons start rest => simpa using head
    have walks := (walksUpstream_closed simple).2 before last first []
    exact walks (by rw [repeated, List.append_assoc, List.singleton_append])

/-- **Every list of `_find_cycles` is a simple cycle of the graph.** -/
theorem simple_of_mem_findCycles {cycle : List String} (found : cycle ∈ workflow.findCycles) :
    IsSimpleCycle workflow.Follows cycle := by
  obtain ⟨log, isLog⟩ := workflow.exists_searchLog
  obtain ⟨_, sound, _⟩ := isLog.findCycles_spec
  exact isLog.isForest.simple_of_isLoop (sound cycle found)

/-! ## The error of the topological order -/

/-- In a closed workflow the search finds something exactly when the graph has a cycle. -/
theorem Closed.findCycles_eq_nil_iff (closed : workflow.Closed) :
    workflow.findCycles = [] ↔ workflow.Acyclic := by
  rw [Workflow.findCycles_eq_nil_iff, closed.knownEdge_eq]
  exact Iff.rfl

/-- With a cycle Kahn's loop does not emit all tasks. -/
theorem Closed.exists_raised (closed : workflow.Closed) (cyclic : ¬ workflow.Acyclic) :
    ∃ cycle, workflow.topologicalOrder = .error (.dependencyCycle cycle) := by
  obtain ⟨order, nodup, emitted, paid, outcome⟩ := workflow.topologicalOrder_cases
  rcases outcome with ⟨balanced, _⟩ | ⟨_, raised⟩
  · have extension := isLinearExtension_of_closed closed.keys balanced nodup emitted paid
    rw [closed.knownEdge_eq] at extension
    refine absurd (extension.acyclic fun up node edge => ?_) cyclic
    simpa using closed.upstreams node up edge
  · exact raised

/-- An error of the topological order carries the first cycle of the search, if there is
one. -/
theorem raised_eq_of_found {cycle raised : List String} {more : List (List String)}
    (found : workflow.findCycles = cycle :: more)
    (error : workflow.topologicalOrder = .error (.dependencyCycle raised)) :
    raised = cycle ++ cycle.take 1 := by
  simp only [topologicalOrder, found] at error
  split at error
  · cases error
    rfl
  · cases error

/-- What the error of `topological_order` shows: the first cycle of the search, from one task
round to the same task. -/
structure RaisedCycle (workflow : Workflow) (raised : List String) : Prop where
  ends : ∃ task between, raised = task :: (between ++ [task])
  walks : workflow.WalksUpstream raised
  found : ∃ cycle, workflow.findCycles.head? = some cycle ∧ raised = cycle ++ cycle.take 1
  notLeftover : ∀ leftover : Finset String, raised ≠ sorted leftover

/-- A simple cycle with its first task repeated is what the error shows. -/
theorem raisedCycle_of_head {cycle : List String}
    (head : workflow.findCycles.head? = some cycle) :
    workflow.RaisedCycle (cycle ++ cycle.take 1) := by
  have simple := simple_of_mem_findCycles (List.mem_of_head? head)
  have ends : ∃ task between, cycle ++ cycle.take 1 = task :: (between ++ [task]) := by
    obtain ⟨task, between, rfl⟩ := List.exists_cons_of_ne_nil simple.nonempty
    exact ⟨task, between, rfl⟩
  refine ⟨ends, walksUpstream_closed simple, ⟨cycle, head, rfl⟩, fun leftover same => ?_⟩
  -- The ids of the leftover list are distinct, but the first task is repeated.
  obtain ⟨task, between, repeated⟩ := ends
  have nodup := sorted_nodup leftover
  rw [← same, repeated, List.nodup_cons] at nodup
  exact nodup.1 (List.mem_append_right _ List.mem_cons_self)

/-- **The search lists simple cycles, and in a workflow without dangling references that has a
cycle the topological order raises the first of them.** -/
theorem cycles_are_genuine (workflow : Workflow) :
    (∀ cycle ∈ workflow.findCycles, workflow.GenuineCycle cycle) ∧
      (workflow.Closed → ¬ workflow.Acyclic → ∃ raised,
        workflow.topologicalOrder = .error (.dependencyCycle raised) ∧
          workflow.RaisedCycle raised) := by
  refine ⟨fun cycle found => genuine_of_simple (simple_of_mem_findCycles found),
    fun closed cyclic => ?_⟩
  obtain ⟨raised, error⟩ := closed.exists_raised cyclic
  obtain ⟨cycle, more, found⟩ := List.exists_cons_of_ne_nil
    (closed.findCycles_eq_nil_iff.not.mpr cyclic)
  rw [raised_eq_of_found found error] at error
  exact ⟨_, error, raisedCycle_of_head (by rw [found, List.head?_cons])⟩

/-- Three tasks that wait for each other in a circle, and one that waits for the circle. -/
def circle : Workflow where
  workflowId := "circle"
  tasks := ⟨[("clean", { taskId := "clean", taskId_valid := by decide }),
    ("merge", { taskId := "merge", taskId_valid := by decide }),
    ("score", { taskId := "score", taskId_valid := by decide }),
    ("sink", { taskId := "sink", taskId_valid := by decide })], by decide⟩
  dependencies := ⟨[("clean", {"score"}), ("merge", {"clean"}), ("score", {"merge"}),
    ("sink", {"score"})], by decide⟩

theorem cycles_are_genuine_circle : ∃ raised,
    circle.topologicalOrder = .error (.dependencyCycle raised) ∧ circle.RaisedCycle raised := by
  have closed : circle.Closed ∧ ∀ taskId, ¬ circle.Edge taskId taskId :=
    entries_ok_iff.mp (by decide +kernel)
  have cyclic : ¬ circle.Acyclic := by
    rw [← closed.1.findCycles_eq_nil_iff]
    decide +kernel
  exact (cycles_are_genuine circle).2 closed.1 cyclic

end Workflow

end EtlOrchestrator
