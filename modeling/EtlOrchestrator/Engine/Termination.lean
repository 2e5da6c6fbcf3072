import Mathlib.Algebra.BigOperators.Fin
import Mathlib.Algebra.Order.BigOperators.Group.Finset
import EtlOrchestrator.Engine.Completion

/-!
# Termination and progress

Every step of a run lowers the work that is left (`Step.work_lt`): a thread
comes closer to its end, a job leaves the queue or its worker, or a batch leaves
the list of those to come. So no run goes on for ever. A reachable run that is
still in progress always has a next step (`progress`), so every run ends, and
every run that cannot go on has returned or raised.
-/

set_option autoImplicit false

namespace EtlOrchestrator

open SortedSet WorkflowEngine

namespace WorkflowEngine

variable (engine : WorkflowEngine) (env : Env)

/-! ## The work left to a thread -/

/-- The work left to a walk. -/
def walkWork (pendingVisit : List String) (visited : Finset String) : ℕ :=
  (engine.unvisited pendingVisit visited).card * (engine.workflow.dependencies.keys.length + 1) +
    pendingVisit.length

theorem downstream_card_le (taskId : String) :
    (sorted (engine.workflow.downstream taskId)).length ≤
      engine.workflow.dependencies.keys.length := by
  have subset : engine.workflow.downstream taskId ⊆ engine.workflow.dependencies.keySet :=
    fun child member => OrderedDict.mem_keySet.mpr
      (Workflow.mem_downstream.mp member).mem_dependencies
  rw [sorted_eq_sort, Finset.length_sort]
  exact Finset.card_le_card subset

theorem walkWork_skip_lt (taskId : String) (rest : List String) (visited : Finset String) :
    engine.walkWork rest visited < engine.walkWork (taskId :: rest) visited := by
  have fewer := Nat.mul_le_mul_right (engine.workflow.dependencies.keys.length + 1)
    (engine.unvisited_skip_le taskId rest visited)
  simp only [walkWork, List.length_cons]
  omega

theorem walkWork_visit_lt {taskId : String} (rest : List String) {visited : Finset String}
    (fresh : taskId ∉ visited) :
    engine.walkWork (rest ++ sorted (engine.workflow.downstream taskId)) (insert taskId visited) <
      engine.walkWork (taskId :: rest) visited := by
  have children := engine.downstream_card_le taskId
  have fewer := Nat.mul_le_mul_right (engine.workflow.dependencies.keys.length + 1)
    (Nat.succ_le_of_lt (engine.unvisited_visit_lt rest fresh))
  rw [Nat.succ_mul] at fewer
  simp only [walkWork, List.length_append, List.length_cons]
  omega

/-- A bound on the work of a walk that begins. -/
def walkBound : ℕ :=
  engine.workflow.dependencies.keys.length * (engine.workflow.dependencies.keys.length + 1) +
    engine.workflow.dependencies.keys.length

theorem walkWork_begin_le (taskId : String) :
    engine.walkWork (sorted (engine.workflow.downstream taskId)) ∅ ≤ engine.walkBound := by
  have children := engine.downstream_card_le taskId
  have subset : engine.unvisited (sorted (engine.workflow.downstream taskId)) ∅ ⊆
      engine.workflow.dependencies.keySet := by
    intro other
    simp only [unvisited, Finset.sdiff_empty, Finset.mem_union, List.mem_toFinset, mem_sorted,
      Workflow.mem_downstream, OrderedDict.mem_keySet]
    exact fun member => member.elim Workflow.Edge.mem_dependencies id
  have fewer : (engine.unvisited (sorted (engine.workflow.downstream taskId)) ∅).card ≤
      engine.workflow.dependencies.keys.length := Finset.card_le_card subset
  exact Nat.add_le_add (Nat.mul_le_mul_right _ fewer) children

/-- The work left to a thread. An attempt takes at most fifteen steps, and the
steps before the first one are counted on top of all attempts. -/
def workLeft (taskId : String) : Pc → ℕ
  | .enter => 16 * engine.maxAttempts taskId + engine.walkBound +
      2 * (env.iterate taskId (engine.workflow.upstream taskId)).length + 26
  | .firstCheck => 16 * engine.maxAttempts taskId + engine.walkBound +
      2 * (env.iterate taskId (engine.workflow.upstream taskId)).length + 25
  | .scan rest => 16 * engine.maxAttempts taskId + engine.walkBound + 2 * rest.length + 24
  | .scanCheck _ rest => 16 * engine.maxAttempts taskId + engine.walkBound + 2 * rest.length + 25
  | .walk _ pendingVisit visited =>
      16 * engine.maxAttempts taskId + engine.walkWork pendingVisit visited + 23
  | .refresh => 16 * engine.maxAttempts taskId + 22
  | .secondCheck => 16 * engine.maxAttempts taskId + 21
  | .define => 16 * engine.maxAttempts taskId + 20
  | .checkStart _ attempt => 16 * (engine.maxAttempts taskId - attempt) + 15
  | .start _ attempt => 16 * (engine.maxAttempts taskId - attempt) + 14
  | .hookStart _ attempt => 16 * (engine.maxAttempts taskId - attempt) + 13
  | .call _ attempt => 16 * (engine.maxAttempts taskId - attempt) + 12
  | .checkFail _ attempt _ => 16 * (engine.maxAttempts taskId - attempt) + 11
  | .fail _ attempt _ => 16 * (engine.maxAttempts taskId - attempt) + 10
  | .checkRetry _ attempt => 16 * (engine.maxAttempts taskId - attempt) + 9
  | .retry _ attempt _ => 16 * (engine.maxAttempts taskId - attempt) + 8
  | .hookRetry _ attempt _ => 16 * (engine.maxAttempts taskId - attempt) + 7
  | .sleep _ attempt _ => 16 * (engine.maxAttempts taskId - attempt) + 6
  | .checkSucceed _ => 3
  | .permanent _ | .succeed _ => 2
  | .skip | .hookFailure | .hookSuccess _ => 1
  | .done | .raised _ => 0

/-- Only a thread that has ended has no work left. -/
theorem workLeft_pos {taskId : String} {pc : Pc} (unfinished : pc.ended = false) :
    0 < engine.workLeft env taskId pc := by
  cases pc with
  | done => cases unfinished
  | raised error => cases unfinished
  | _ => simp only [workLeft]; omega

end WorkflowEngine

variable {engine : AcceptedEngine} {env : Env}

/-- **A step of a thread lowers its work.** -/
theorem AcceptedEngine.advance_workLeft_lt {taskId : String} {state : RunState} {pc : Pc}
    (unfinished : pc.ended = false) (ok : engine.TaskOk env taskId (state.view taskId) pc) :
    engine.workLeft env taskId (engine.advance env taskId state pc).2 <
      engine.workLeft env taskId pc := by
  rcases engine.advance_leads env taskId state pc with leads | ⟨error, raised⟩
  · generalize (engine.advance env taskId state pc).2 = next at leads ⊢
    cases leads with
    | scanFailed upstreamId rest =>
        have bound := engine.walkWork_begin_le upstreamId
        simp only [workLeft]
        omega
    | walkSkip failedTaskId dependent rest visited =>
        have less := engine.walkWork_skip_lt dependent rest visited
        simp only [workLeft]
        omega
    | walkVisit failedTaskId rest fresh =>
        have less := engine.walkWork_visit_lt rest fresh
        simp only [workLeft]
        omega
    | sleep task attempt delay =>
        -- The next attempt is allowed, so one attempt fewer is left.
        obtain ⟨_, failing, remaining, _⟩ := ok
        rw [← failing.maxAttempts] at remaining
        simp only [workLeft]
        omega
    | done => cases unfinished
    | raised error => cases unfinished
    | _ => simp only [workLeft, List.length_cons]; omega
  · rw [raised]
    exact engine.workLeft_pos env unfinished

/-! ## The work left to a run -/

/-- The work left to a run: that of all threads, and the moves of the jobs from
the batches over the queue to the workers. -/
def WorkflowEngine.machineWork (engine : WorkflowEngine) (env : Env) (machine : Machine) : ℕ :=
  match machine.status with
  | .running => 1 + ∑ taskId ∈ engine.workflow.tasks.keySet,
        engine.workLeft env taskId (machine.pcs taskId) +
      machine.levels.length + 3 * machine.levels.flatten.length +
      2 * machine.queue.length + machine.active.length
  | .returned | .raised _ => 0

theorem WorkflowEngine.machineWork_of_ended (engine : WorkflowEngine) (env : Env)
    {machine : Machine} (ended : machine.status ≠ .running) :
    engine.machineWork env machine = 0 := by
  rw [machineWork]
  split
  · exact absurd ‹_› ended
  all_goals rfl

theorem Reachable.work_lt {machine : Machine} (reachable : Reachable engine env machine)
    {taskId : String} (held : taskId ∈ machine.active)
    (unfinished : (machine.pcs taskId).ended = false) :
    ∑ other ∈ engine.workflow.tasks.keySet,
        engine.workLeft env other ((engine.work env machine taskId).pcs other) <
      ∑ other ∈ engine.workflow.tasks.keySet,
        engine.workLeft env other (machine.pcs other) := by
  obtain ⟨past, invariant⟩ := reachable.invariant
  have known := invariant.known (invariant.submitted taskId (.inr held))
  have less := AcceptedEngine.advance_workLeft_lt unfinished (invariant.tasks taskId)
  have own : engine.workLeft env taskId ((engine.work env machine taskId).pcs taskId) <
      engine.workLeft env taskId (machine.pcs taskId) := by
    rw [work_pcs_self]
    exact less
  refine Finset.sum_lt_sum (fun other _ => ?_) ⟨taskId, OrderedDict.mem_keySet.mpr known, own⟩
  by_cases same : other = taskId
  · exact same ▸ own.le
  · rw [work_pcs_of_ne same]

/-- **Every step of a run lowers the work that is left.** -/
theorem Reachable.machineWork_lt {machine next : Machine}
    (reachable : Reachable engine env machine) (step : engine.Step env machine next) :
    engine.machineWork env next < engine.machineWork env machine := by
  cases step with
  | take running waiting free =>
      simp only [machineWork, running, waiting, List.length_cons]
      omega
  | @work taskId running held unfinished =>
      have less := reachable.work_lt held unfinished
      have stillRunning : (engine.work env machine taskId).status = .running := running
      simp only [machineWork, running, stillRunning]
      simp only [work] at less ⊢
      omega
  | @leave taskId running held finished =>
      have fewer := List.length_erase_of_mem held
      have positive := List.length_pos_of_mem held
      simp only [machineWork, running, fewer]
      omega
  | submit running drained idle toCome returned =>
      simp only [machineWork, running, toCome, drained, List.length_cons, List.flatten_cons,
        List.length_append, List.length_nil]
      omega
  | raise running drained idle first =>
      simp only [machineWork, running]
      omega
  | finish running drained idle last returned =>
      have ended : (WorkflowEngine.finish env machine).status ≠ .running := by
        rw [WorkflowEngine.finish]
        split <;> exact fun same => by cases same
      rw [engine.machineWork_of_ended env ended]
      simp only [machineWork, running]
      omega

/-- A run that is in progress has a next step. -/
theorem Reachable.progress {machine : Machine} (reachable : Reachable engine env machine)
    (running : machine.status = .running) : ∃ next, engine.Step env machine next := by
  obtain ⟨past, invariant⟩ := reachable.invariant
  cases holding : machine.active with
  | cons taskId others =>
      have held : taskId ∈ machine.active := holding ▸ List.mem_cons_self
      cases ended : (machine.pcs taskId).ended with
      | true => exact ⟨_, .leave running held ended⟩
      | false => exact ⟨_, .work running held ended⟩
  | nil =>
      cases waiting : machine.queue with
      | cons taskId rest =>
          have job : taskId ∈ machine.jobs :=
            invariant.submitted taskId (.inl (waiting ▸ List.mem_cons_self))
          have free : machine.active.length < engine.workers machine.jobs := by
            have atLeastOne := engine.one_le_maxWorkers
            have nonempty := List.length_pos_of_mem job
            rw [holding, List.length_nil, workers]
            omega
          exact ⟨_, .take running waiting free⟩
      | nil =>
          cases error : batchError? machine with
          | some error => exact ⟨_, .raise running waiting holding ‹_›⟩
          | none =>
              have returned := List.findSome?_eq_none_iff.mp error
              cases toCome : machine.levels with
              | nil => exact ⟨_, .finish running waiting holding toCome returned⟩
              | cons batch later => exact ⟨_, .submit running waiting holding toCome returned⟩

/-- No run goes on for ever. -/
theorem no_infinite_run {run : ℕ → Machine} (first : run 0 = engine.start env) :
    ¬ ∀ n, engine.Step env (run n) (run (n + 1)) := by
  intro steps
  have reachable : ∀ n, Reachable engine env (run n) := by
    intro n
    induction n with
    | zero => exact first ▸ .start
    | succ n ih => exact ih.step (steps n)
  have bound : ∀ n, engine.machineWork env (run n) + n ≤ engine.machineWork env (run 0) := by
    intro n
    induction n with
    | zero => exact le_refl _
    | succ n ih =>
        have less := (reachable n).machineWork_lt (steps n)
        omega
  have tooLong := bound (engine.machineWork env (run 0) + 1)
  omega

end EtlOrchestrator
