import Mathlib.Algebra.Order.Ring.Nat
import EtlOrchestrator.Engine.Execution
import EtlOrchestrator.Foundations.BlockingEvaluation

/-!
# The outcome of a task

What a run of a workflow is for, without the way in which it is executed. A task
whose upstreams all succeed settles on the number of its first successful
attempt, or fails when every allowed attempt fails. Any other task is blocked.

The outcomes are those of a blocking evaluation of the edges, so a task is
blocked exactly when one of its ancestors has failed.
-/

set_option autoImplicit false

namespace EtlOrchestrator

open BlockingEvaluation

namespace WorkflowEngine

variable (engine : WorkflowEngine) (env : Env)

/-- `task_def.max_attempts` of a task. -/
def maxAttempts (taskId : String) : ℕ :=
  (engine.workflow.tasks.get? taskId).elim 0 Task.maxAttempts

/-- The callable of a task returns at an attempt. -/
def Succeeds (taskId : String) (attempt : ℕ) : Prop :=
  ∃ callable, engine.tasks.get? taskId = some callable ∧
    callable (engine.context env taskId attempt) = .ok ()

/-- The least allowed attempt at which the callable returns. -/
structure IsFirstSuccess (taskId : String) (attempt : ℕ) : Prop where
  positive : 1 ≤ attempt
  allowed : attempt ≤ engine.maxAttempts taskId
  succeeds : engine.Succeeds env taskId attempt
  earlier : ∀ other, 1 ≤ other → other < attempt → ¬ engine.Succeeds env taskId other

open Classical in
/-- The first successful attempt of a task, if there is one. -/
noncomputable def firstSuccess (taskId : String) : Option ℕ :=
  if found : ∃ attempt, engine.IsFirstSuccess env taskId attempt then some found.choose else none

variable {engine env} {taskId : String} {attempt : ℕ}

theorem IsFirstSuccess.unique {other : ℕ} (first : engine.IsFirstSuccess env taskId attempt)
    (second : engine.IsFirstSuccess env taskId other) : attempt = other := by
  rcases lt_trichotomy attempt other with less | same | greater
  · exact absurd first.succeeds (second.earlier attempt first.positive less)
  · exact same
  · exact absurd second.succeeds (first.earlier other second.positive greater)

theorem firstSuccess_eq_some_iff : engine.firstSuccess env taskId = some attempt ↔
    engine.IsFirstSuccess env taskId attempt := by
  by_cases found : ∃ other, engine.IsFirstSuccess env taskId other
  · rw [firstSuccess, dif_pos found, Option.some_inj]
    constructor
    · rintro rfl
      exact found.choose_spec
    · exact fun first => found.choose_spec.unique first
  · rw [firstSuccess, dif_neg found]
    exact ⟨nofun, fun first => absurd ⟨attempt, first⟩ found⟩

/-- There is no first success exactly when every allowed attempt fails. -/
theorem firstSuccess_eq_none_iff : engine.firstSuccess env taskId = none ↔
    ∀ attempt, 1 ≤ attempt → attempt ≤ engine.maxAttempts taskId →
      ¬ engine.Succeeds env taskId attempt := by
  constructor
  · intro none attempt
    induction attempt using Nat.strong_induction_on with
    | _ attempt ih =>
      intro positive allowed succeeds
      have first : engine.IsFirstSuccess env taskId attempt :=
        ⟨positive, allowed, succeeds, fun other otherPositive less =>
          ih other less otherPositive (by omega)⟩
      rw [firstSuccess_eq_some_iff.mpr first] at none
      cases none
  · intro failing
    cases found : engine.firstSuccess env taskId with
    | none => rfl
    | some attempt =>
        have first := firstSuccess_eq_some_iff.mp found
        exact absurd first.succeeds (failing attempt first.positive first.allowed)

theorem maxAttempts_congr {other : WorkflowEngine} (sameWorkflow : other.workflow = engine.workflow)
    (taskId : String) : other.maxAttempts taskId = engine.maxAttempts taskId := by
  rw [maxAttempts, maxAttempts, sameWorkflow]

/-- The first success depends on the success of the attempts and on their limit. -/
theorem firstSuccess_congr {other : WorkflowEngine} {otherEnv : Env}
    (sameMax : other.maxAttempts taskId = engine.maxAttempts taskId)
    (sameSuccess : ∀ attempt,
      other.Succeeds otherEnv taskId attempt ↔ engine.Succeeds env taskId attempt) :
    other.firstSuccess otherEnv taskId = engine.firstSuccess env taskId := by
  rw [Option.ext_iff]
  intro attempt
  rw [firstSuccess_eq_some_iff, firstSuccess_eq_some_iff]
  constructor
  · rintro ⟨positive, allowed, succeeds, earlier⟩
    exact ⟨positive, sameMax ▸ allowed, (sameSuccess _).mp succeeds,
      fun other otherPositive less => (sameSuccess _).not.mp (earlier other otherPositive less)⟩
  · rintro ⟨positive, allowed, succeeds, earlier⟩
    exact ⟨positive, sameMax ▸ allowed, (sameSuccess _).mpr succeeds,
      fun other otherPositive less => (sameSuccess _).not.mpr (earlier other otherPositive less)⟩

end WorkflowEngine

namespace AcceptedEngine

variable (engine : AcceptedEngine) (env : Env)

/-- What a task settles on. -/
noncomputable def outcome (taskId : String) : Settled ℕ :=
  settle engine.valid.wellFounded (engine.firstSuccess env) taskId

variable {engine env} {up taskId : String} {attempt : ℕ}

/-- A task has at least one attempt. -/
theorem one_le_maxAttempts (engine : AcceptedEngine) (known : taskId ∈ engine.workflow.tasks) :
    1 ≤ engine.maxAttempts taskId := by
  obtain ⟨task, found⟩ := OrderedDict.exists_get?_of_mem known
  rw [WorkflowEngine.maxAttempts, found, Option.elim_some]
  exact task.one_le_maxAttempts

theorem outcome_eq_value_iff : engine.outcome env taskId = .value attempt ↔
    (∀ up, engine.workflow.Edge up taskId → (engine.outcome env up).HasValue) ∧
      engine.IsFirstSuccess env taskId attempt := by
  rw [outcome, settle_eq_value_iff, WorkflowEngine.firstSuccess_eq_some_iff]
  rfl

theorem outcome_eq_failed_iff : engine.outcome env taskId = .failed ↔
    (∀ up, engine.workflow.Edge up taskId → (engine.outcome env up).HasValue) ∧
      ∀ attempt, 1 ≤ attempt → attempt ≤ engine.maxAttempts taskId →
        ¬ engine.Succeeds env taskId attempt := by
  rw [outcome, settle_eq_failed_iff, WorkflowEngine.firstSuccess_eq_none_iff]
  rfl

theorem outcome_eq_blocked_iff : engine.outcome env taskId = .blocked ↔
    ∃ ancestor, Relation.TransGen engine.workflow.Edge ancestor taskId ∧
      engine.outcome env ancestor = .failed :=
  settle_eq_blocked_iff

theorem outcome_ne_blocked_iff : engine.outcome env taskId ≠ .blocked ↔
    ∀ up, engine.workflow.Edge up taskId → (engine.outcome env up).HasValue :=
  settle_ne_blocked_iff

theorem outcome_of_ancestor (noValue : ¬ (engine.outcome env up).HasValue)
    (above : Relation.TransGen engine.workflow.Edge up taskId) :
    engine.outcome env taskId = .blocked :=
  settle_of_above noValue above

/-- The outcomes depend on the success of the attempts only. -/
theorem outcome_congr {other : AcceptedEngine} {otherEnv : Env}
    (sameWorkflow : other.workflow = engine.workflow)
    (sameSuccess : ∀ taskId attempt,
      other.Succeeds otherEnv taskId attempt ↔ engine.Succeeds env taskId attempt)
    (taskId : String) : other.outcome otherEnv taskId = engine.outcome env taskId := by
  have sameFirst : other.firstSuccess otherEnv = engine.firstSuccess env := by
    funext taskId
    exact WorkflowEngine.firstSuccess_congr (WorkflowEngine.maxAttempts_congr sameWorkflow taskId)
      (sameSuccess taskId)
  have sameEdge : other.workflow.Edge = engine.workflow.Edge := by rw [sameWorkflow]
  rw [outcome, outcome, sameFirst]
  congr 1

/-- The outcomes on a set of tasks that is closed upwards depend on the tasks of
this set. -/
theorem outcome_congr_of_closed {other : AcceptedEngine} {otherEnv : Env} {closed : String → Prop}
    (sameWorkflow : other.workflow = engine.workflow)
    (upward : ∀ up taskId, engine.workflow.Edge up taskId → closed taskId → closed up)
    (sameSuccess : ∀ taskId, closed taskId → ∀ attempt,
      other.Succeeds otherEnv taskId attempt ↔ engine.Succeeds env taskId attempt)
    (taskId : String) (member : closed taskId) :
    other.outcome otherEnv taskId = engine.outcome env taskId := by
  refine settle_congr_of_closed (by rw [sameWorkflow]) upward (fun taskId member => ?_) taskId
    member
  exact WorkflowEngine.firstSuccess_congr (WorkflowEngine.maxAttempts_congr sameWorkflow taskId)
    (sameSuccess taskId member)

end AcceptedEngine

end EtlOrchestrator
