import Mathlib.Data.Finset.Basic
import EtlOrchestrator.Exceptions

/-!
# The state machines of tasks and of workflow runs

The tables of legal transitions, the checks against them, and the state of a
run derived from the states of its tasks.
-/

set_option autoImplicit false

namespace EtlOrchestrator

/-- Lifecycle states of a single task run. -/
inductive TaskState where
  | pending
  | running
  | success
  | retrying
  | failed
  | upstreamFailed
  | skipped
  | cancelled
deriving DecidableEq, Repr

/-- The text of a task state. -/
def TaskState.value : TaskState → String
  | pending => "pending"
  | running => "running"
  | success => "success"
  | retrying => "retrying"
  | failed => "failed"
  | upstreamFailed => "upstream_failed"
  | skipped => "skipped"
  | cancelled => "cancelled"

/-- Lifecycle states of a workflow run. -/
inductive WorkflowState where
  | pending
  | running
  | success
  | failed
  | cancelled
deriving DecidableEq, Repr

/-- The text of a workflow state. -/
def WorkflowState.value : WorkflowState → String
  | pending => "pending"
  | running => "running"
  | success => "success"
  | failed => "failed"
  | cancelled => "cancelled"

/-- `TASK_TRANSITIONS`: the legal task-state transitions. -/
def taskTransitions : TaskState → Finset TaskState
  | .pending => {.running, .retrying, .upstreamFailed, .skipped, .cancelled}
  | .running => {.success, .failed, .cancelled}
  | .retrying => {.running, .cancelled}
  | .failed => {.retrying, .upstreamFailed}
  | .upstreamFailed => {.retrying, .skipped, .cancelled}
  | .success => ∅
  | .skipped => ∅
  | .cancelled => ∅

/-- `WORKFLOW_TRANSITIONS`: the legal workflow-state transitions. -/
def workflowTransitions : WorkflowState → Finset WorkflowState
  | .pending => {.running, .cancelled}
  | .running => {.success, .failed, .cancelled}
  | .success => ∅
  | .failed => ∅
  | .cancelled => ∅

/-- Whether a task-state change is legal. -/
def canTransition (current target : TaskState) : Prop := target ∈ taskTransitions current

instance (current target : TaskState) : Decidable (canTransition current target) :=
  inferInstanceAs (Decidable (target ∈ taskTransitions current))

/-- Validate a task-state change, raising when it is illegal. -/
def transitionTask (current target : TaskState) : Except OrchestrationError Unit :=
  if canTransition current target then .ok ()
  else .error (.stateTransition current.value target.value "task")

/-- Whether a workflow-state change is legal. -/
def canTransitionWorkflow (current target : WorkflowState) : Prop :=
  target ∈ workflowTransitions current

instance (current target : WorkflowState) : Decidable (canTransitionWorkflow current target) :=
  inferInstanceAs (Decidable (target ∈ workflowTransitions current))

/-- Validate a workflow-state change, raising when it is illegal. -/
def transitionWorkflow (current target : WorkflowState) : Except OrchestrationError Unit :=
  if canTransitionWorkflow current target then .ok ()
  else .error (.stateTransition current.value target.value "workflow")

theorem transitionTask_eq_ok {current target : TaskState} (legal : canTransition current target) :
    transitionTask current target = .ok () :=
  if_pos legal

theorem transitionWorkflow_eq_ok {current target : WorkflowState}
    (legal : canTransitionWorkflow current target) : transitionWorkflow current target = .ok () :=
  if_pos legal

/-- Derive a workflow state from the states of its tasks. -/
def aggregateWorkflowState (taskStates : List TaskState) : Option WorkflowState :=
  if taskStates = [] then none
  else if .running ∈ taskStates ∨ .retrying ∈ taskStates then some .running
  else if .failed ∈ taskStates then some .failed
  else if .cancelled ∈ taskStates then some .cancelled
  else some .success

/-- A run whose tasks all settled as success, permanent failure or blocked is a
success when no task failed and a failure otherwise. -/
theorem aggregateWorkflowState_of_settled {taskStates : List TaskState} (nonempty : taskStates ≠ [])
    (settled : ∀ state ∈ taskStates,
      state = .success ∨ state = .failed ∨ state = .upstreamFailed) :
    aggregateWorkflowState taskStates =
      some (if .failed ∈ taskStates then .failed else .success) := by
  have absent : ∀ state : TaskState, state ≠ .success → state ≠ .failed →
      state ≠ .upstreamFailed → state ∉ taskStates := by
    intro state notSuccess notFailed notBlocked member
    rcases settled state member with h | h | h
    · exact notSuccess h
    · exact notFailed h
    · exact notBlocked h
  have noRunning := absent .running (by decide) (by decide) (by decide)
  have noRetrying := absent .retrying (by decide) (by decide) (by decide)
  have noCancelled := absent .cancelled (by decide) (by decide) (by decide)
  by_cases failed : TaskState.failed ∈ taskStates
  · simp [aggregateWorkflowState, nonempty, noRunning, noRetrying, failed]
  · simp [aggregateWorkflowState, nonempty, noRunning, noRetrying, noCancelled, failed]

/-! ## The documented rules of the aggregation -/

/-- The states that decide the state of a run by themselves, in one of the rules
before the last. -/
def TaskState.Decisive (state : TaskState) : Prop :=
  state = .running ∨ state = .retrying ∨ state = .failed ∨ state = .cancelled

/-- The states that the last rule leaves: a run whose tasks are all in one of
them is a success. -/
def TaskState.Harmless (state : TaskState) : Prop :=
  state = .success ∨ state = .skipped ∨ state = .upstreamFailed

/-- The documented rules, applied in order, about the state derived from a list
of task states. -/
structure FollowsRules (taskStates : List TaskState) (derived : Option WorkflowState) : Prop where
  empty : derived = none ↔ taskStates = []
  running : derived = some .running ↔ .running ∈ taskStates ∨ .retrying ∈ taskStates
  failed : derived = some .failed ↔
    ¬(.running ∈ taskStates ∨ .retrying ∈ taskStates) ∧ .failed ∈ taskStates
  cancelled : derived = some .cancelled ↔
    ¬(.running ∈ taskStates ∨ .retrying ∈ taskStates) ∧ .failed ∉ taskStates ∧
      .cancelled ∈ taskStates
  success : derived = some .success → ∀ state ∈ taskStates, state.Harmless
  pending : .pending ∈ taskStates → derived ≠ some .success

theorem exists_decisive_iff (taskStates : List TaskState) :
    (∃ state ∈ taskStates, state.Decisive) ↔
      (.running ∈ taskStates ∨ .retrying ∈ taskStates) ∨ .failed ∈ taskStates ∨
        .cancelled ∈ taskStates := by
  constructor
  · rintro ⟨state, member, rfl | rfl | rfl | rfl⟩ <;> simp [member]
  · rintro ((member | member) | member | member) <;>
      exact ⟨_, member, by simp [TaskState.Decisive]⟩

/-- The rules before the last one hold of every list. -/
theorem aggregateWorkflowState_rules (taskStates : List TaskState) :
    (aggregateWorkflowState taskStates = none ↔ taskStates = []) ∧
      (aggregateWorkflowState taskStates = some .running ↔
        .running ∈ taskStates ∨ .retrying ∈ taskStates) ∧
      (aggregateWorkflowState taskStates = some .failed ↔
        ¬(.running ∈ taskStates ∨ .retrying ∈ taskStates) ∧ .failed ∈ taskStates) ∧
      (aggregateWorkflowState taskStates = some .cancelled ↔
        ¬(.running ∈ taskStates ∨ .retrying ∈ taskStates) ∧ .failed ∉ taskStates ∧
          .cancelled ∈ taskStates) := by
  rw [aggregateWorkflowState]
  split_ifs <;> simp_all

/-- The last rule is reached exactly by the nonempty lists without a decisive
state. -/
theorem aggregateWorkflowState_eq_success_iff (taskStates : List TaskState) :
    aggregateWorkflowState taskStates = some .success ↔
      taskStates ≠ [] ∧ ¬∃ state ∈ taskStates, state.Decisive := by
  rw [exists_decisive_iff, aggregateWorkflowState]
  split_ifs <;> simp_all

theorem TaskState.harmless_or_pending {state : TaskState} (ordinary : ¬state.Decisive) :
    state.Harmless ∨ state = .pending := by
  cases state <;> simp_all [TaskState.Decisive, TaskState.Harmless]

/-- **The rules hold of a list exactly when a pending task in it, if there is
one, is outranked by a task that is running, retrying, failed or cancelled.**
The last rule tests nothing, so that it also takes the lists that still hold a
pending task. -/
theorem followsRules_iff (taskStates : List TaskState) :
    FollowsRules taskStates (aggregateWorkflowState taskStates) ↔
      (.pending ∈ taskStates → ∃ state ∈ taskStates, state.Decisive) := by
  have reached := aggregateWorkflowState_eq_success_iff taskStates
  constructor
  · intro rules pending
    by_contra ordinary
    exact rules.pending pending (reached.mpr ⟨List.ne_nil_of_mem pending, ordinary⟩)
  · intro outranked
    have settled : aggregateWorkflowState taskStates = some .success →
        .pending ∉ taskStates := by
      intro success pending
      exact (reached.mp success).2 (outranked pending)
    obtain ⟨empty, running, failed, cancelled⟩ := aggregateWorkflowState_rules taskStates
    refine ⟨empty, running, failed, cancelled, ?_, fun pending success => settled success pending⟩
    intro success state member
    have ordinary : ¬state.Decisive := by
      intro decisive
      exact (reached.mp success).2 ⟨state, member, decisive⟩
    rcases TaskState.harmless_or_pending ordinary with harmless | rfl
    · exact harmless
    · exact absurd member (settled success)

/-- A task that succeeded and one that never ran make a run that succeeded. -/
theorem not_followsRules_of_pending :
    aggregateWorkflowState [.success, .pending] = some .success ∧
      ¬FollowsRules [.success, .pending] (aggregateWorkflowState [.success, .pending]) := by
  have derived : aggregateWorkflowState [.success, .pending] = some .success := by decide
  refine ⟨derived, ?_⟩
  intro rules
  exact rules.pending (by simp) derived

end EtlOrchestrator
