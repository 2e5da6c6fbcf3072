import EtlOrchestrator.Dag.EndPoints
import EtlOrchestrator.Engine.Correctness
import EtlOrchestrator.Engine.Levels

/-!
# Runs from the entry points to the exit points

Every task lies between a root and a leaf, the roots are the first dependency level, and the order
of execution begins with a root and ends with a leaf. A run succeeds when its leaves do, and when
all roots fail nothing else is executed (`endPoints_of_run`).
-/

set_option autoImplicit false

namespace EtlOrchestrator

open SortedSet Relation BlockingEvaluation

/-- Two ascending lists with the same members are the same. -/
theorem sorted_eq_of_ascending {set : Finset String} {items : List String}
    (ascending : items.Pairwise (· < ·)) (members : ∀ item, item ∈ items ↔ item ∈ set) :
    items = sorted set := by
  have distinct : items.Nodup := ascending.imp fun less => less.ne
  have same : items.Perm (sorted set) :=
    (List.perm_ext_iff_of_nodup distinct (sorted_nodup set)).mpr fun item => by
      rw [members, mem_sorted]
  exact same.eq_of_pairwise (fun _ _ _ _ less greater => absurd (less.trans greater) (lt_irrefl _))
    ascending (sorted_pairwise_lt set)

namespace Workflow

variable {workflow : Workflow}

/-- In a valid workflow every task lies between a root and a leaf. -/
theorem Valid.exists_root_leaf (valid : workflow.Valid) {taskId : String}
    (known : taskId ∈ workflow.tasks) : ∃ root ∈ workflow.roots, ∃ leaf ∈ workflow.leaves,
      ReflTransGen workflow.Edge root taskId ∧ ReflTransGen workflow.Edge taskId leaf := by
  obtain ⟨root, above, isFirst⟩ := valid.wellFounded.exists_first_above taskId
  obtain ⟨order, _, extension, _⟩ := topologicalOrder_eq_ok valid
  obtain ⟨leaf, member, below, isLast⟩ :=
    extension.exists_last_below (OrderedDict.mem_keySet.mpr known)
  rw [OrderedDict.mem_keySet] at member
  have rootKnown : root ∈ workflow.tasks := by
    rcases ReflTransGen.cases_head above with rfl | ⟨child, edge, _⟩
    · exact known
    · exact valid.closed.upstreams child root edge
  refine ⟨root, mem_roots.mpr ⟨rootKnown, isFirst⟩, leaf,
    mem_leaves.mpr ⟨member, fun dependent edge => isLast dependent ?_ edge⟩, above, below⟩
  exact OrderedDict.mem_keySet.mpr (valid.closed.keys dependent edge.mem_dependencies)

/-- The order of a valid workflow begins with a root and ends with a leaf. -/
theorem Valid.ends_of_order (valid : workflow.Valid) {order : List String}
    (computed : workflow.topologicalOrder = .ok order) :
    ∃ root ∈ workflow.roots, ∃ leaf ∈ workflow.leaves,
      order.head? = some root ∧ order.getLast? = some leaf := by
  obtain ⟨_, same, extension, _⟩ := topologicalOrder_eq_ok valid
  cases computed.symm.trans same
  obtain ⟨taskId, known⟩ := List.exists_mem_of_ne_nil _ valid.nonempty
  have inOrder := (extension.mem_iff taskId).mpr known
  have nonempty : order ≠ [] := List.ne_nil_of_mem inOrder
  obtain ⟨root, rest, begins⟩ := List.exists_cons_of_ne_nil nonempty
  obtain ⟨leaf, earlier, ends⟩ : ∃ leaf earlier, order = earlier ++ [leaf] :=
    ⟨_, _, (List.dropLast_append_getLast nonempty).symm⟩
  have rootKnown := (extension.mem_iff root).mp (begins ▸ List.mem_cons_self)
  have leafKnown := (extension.mem_iff leaf).mp
    (ends ▸ List.mem_append_right _ List.mem_cons_self)
  refine ⟨root, mem_roots.mpr ⟨OrderedDict.mem_keySet.mp rootKnown, fun up edge => ?_⟩,
    leaf, mem_leaves.mpr ⟨OrderedDict.mem_keySet.mp leafKnown, fun dependent edge => ?_⟩,
    by rw [begins, List.head?_cons], by rw [ends, List.getLast?_concat]⟩
  · have upKnown := OrderedDict.mem_keySet.mpr (valid.closed.upstreams root up edge)
    exact absurd (extension.respects [] root rest begins up upKnown edge) List.not_mem_nil
  · have lowerKnown :=
      OrderedDict.mem_keySet.mpr (valid.closed.keys dependent edge.mem_dependencies)
    exact absurd (extension.succ_mem ends lowerKnown edge) List.not_mem_nil

end Workflow

/-- The first level is that of the roots. -/
theorem IsLevelPartition.mem_first {workflow : Workflow} {first : List String}
    {later : List (List String)} (partition : IsLevelPartition workflow (first :: later))
    (taskId : String) : taskId ∈ first ↔ taskId ∈ workflow.roots := by
  rw [Workflow.mem_roots]
  constructor
  · intro member
    refine ⟨?_, fun up edge => ?_⟩
    · rw [← partition.mem_iff, List.flatten_cons]
      exact List.mem_append_left _ member
    · obtain ⟨lower, below, _⟩ := partition.upstream 0 first rfl taskId member up edge
      exact absurd below (Nat.not_lt_zero _)
  · rintro ⟨known, isRoot⟩
    obtain ⟨level, inLevels, member⟩ := List.mem_flatten.mp ((partition.mem_iff taskId).mpr known)
    obtain ⟨index, atIndex⟩ := List.getElem?_of_mem inLevels
    cases index with
    | zero =>
        cases atIndex
        exact member
    | succ index =>
        obtain ⟨up, edge, _⟩ := partition.previous index level atIndex taskId member
        exact absurd edge (isRoot up)

section

variable {engine : AcceptedEngine} {env : Env} {machine : Machine}

/-- What lies above a success has succeeded. -/
theorem AcceptedEngine.hasValue_of_above {up taskId : String}
    (above : ReflTransGen engine.workflow.Edge up taskId)
    (hasValue : (engine.outcome env taskId).HasValue) : (engine.outcome env up).HasValue := by
  rcases reflTransGen_iff_eq_or_transGen.mp above with rfl | below
  · exact hasValue
  · by_contra noValue
    rw [outcome_of_ancestor noValue below] at hasValue
    exact not_hasValue_blocked hasValue

end

/-- **Every task of an accepted workflow lies between a root and a leaf, the first level is that of
the roots, and the order begins with a root and ends with a leaf. A run that has returned has
succeeded if and only if all leaves have, and if all roots have failed, it has executed nothing
else.** -/
theorem endPoints_of_run (engine : AcceptedEngine) (env : Env) {machine : Machine}
    (run : engine.Steps env (engine.start env) machine) (returned : machine.status = .returned) :
    (∀ taskId ∈ engine.workflow.tasks, ∃ root ∈ engine.workflow.roots,
      ∃ leaf ∈ engine.workflow.leaves, ReflTransGen engine.workflow.Edge root taskId ∧
        ReflTransGen engine.workflow.Edge taskId leaf) ∧
    (∃ later, engine.dependencyLevels = .ok (sorted engine.workflow.roots :: later)) ∧
    (∃ order root leaf, engine.workflow.topologicalOrder = .ok order ∧
      order.head? = some root ∧ root ∈ engine.workflow.roots ∧
      order.getLast? = some leaf ∧ leaf ∈ engine.workflow.leaves) ∧
    (machine.shared.run.workflowState = .success ↔
      ∀ leaf ∈ engine.workflow.leaves, machine.stateOf leaf = .success) ∧
    ((∀ root ∈ engine.workflow.roots, machine.stateOf root = .failed) →
      ∀ taskId ∈ engine.workflow.tasks, taskId ∉ engine.workflow.roots →
        machine.stateOf taskId = .upstreamFailed ∧ machine.attemptsOf taskId = 0) := by
  have valid := engine.valid
  have result := (Reachable.steps run).isResult returned
  refine ⟨fun taskId known => valid.exists_root_leaf known, ?_, ?_, ?_, ?_⟩
  · obtain ⟨levels, computed, partition⟩ :=
      WorkflowEngine.dependencyLevels_isLevelPartition engine
    cases levels with
    | nil =>
        obtain ⟨taskId, known⟩ := List.exists_mem_of_ne_nil _ valid.nonempty
        exact absurd ((partition.mem_iff taskId).mpr known) List.not_mem_nil
    | cons first later =>
        have ascending := partition.ascending first List.mem_cons_self
        rw [computed, sorted_eq_of_ascending ascending partition.mem_first]
        exact ⟨later, rfl⟩
  · obtain ⟨order, computed, _⟩ := Workflow.topologicalOrder_eq_ok valid
    obtain ⟨root, isRoot, leaf, isLeaf, begins, ends⟩ := valid.ends_of_order computed
    exact ⟨order, root, leaf, computed, begins, isRoot, ends, isLeaf⟩
  · rw [result.workflowState_iff.1]
    constructor
    · exact fun all leaf isLeaf => all leaf (Workflow.mem_leaves.mp isLeaf).1
    · intro leaves taskId known
      obtain ⟨_, _, leaf, isLeaf, _, below⟩ := valid.exists_root_leaf known
      have leafKnown := (Workflow.mem_leaves.mp isLeaf).1
      rw [result.state_eq_success_iff known]
      exact AcceptedEngine.hasValue_of_above below
        ((result.state_eq_success_iff leafKnown).mp (leaves leaf isLeaf))
  · intro failed taskId known notRoot
    obtain ⟨root, isRoot, _, _, above, _⟩ := valid.exists_root_leaf known
    rcases reflTransGen_iff_eq_or_transGen.mp above with rfl | below
    · exact absurd isRoot notRoot
    · exact (result.blocked_iff known).mpr ⟨root, below, failed root isRoot⟩

theorem endPoints_of_run_pipeline : ∃ machine,
    (pipeline 2 (by decide)).replay { runId := "ended" }
      ((pipeline 2 (by decide)).start { runId := "ended" }) pipelineChoices = some machine ∧
    "load" ∈ (pipeline 2 (by decide)).workflow.leaves ∧
    machine.shared.run.workflowState ≠ .success := by
  have shown : ((pipeline 2 (by decide)).replay { runId := "ended" }
      ((pipeline 2 (by decide)).start { runId := "ended" }) pipelineChoices).map
        (fun machine => (machine.status, machine.stateOf "load")) =
      some (.returned, .upstreamFailed) := by
    decide +kernel
  obtain ⟨machine, replayed, shows⟩ := Option.map_eq_some_iff.mp shown
  obtain ⟨returned, blocked⟩ := Prod.mk.inj shows
  have isLeaf : "load" ∈ (pipeline 2 (by decide)).workflow.leaves := by decide +kernel
  obtain ⟨_, _, _, succeeds, _⟩ :=
    endPoints_of_run _ _ (WorkflowEngine.steps_of_replay _ _ replayed) returned
  refine ⟨machine, replayed, isLeaf, fun success => ?_⟩
  have succeeded := succeeds.mp success "load" isLeaf
  rw [blocked] at succeeded
  cases succeeded

end EtlOrchestrator
