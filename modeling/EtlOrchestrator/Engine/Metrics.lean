import Mathlib.Algebra.BigOperators.Group.Finset.Basic
import EtlOrchestrator.Engine.Hooks
import EtlOrchestrator.Engine.Stamps
import EtlOrchestrator.Observability

/-!
# The metrics of a run that has returned

The metrics of a run are computed from its records alone, and they agree with what
the run has done: the retries that the records count are the transitions from
failed to retrying in the log, and the calls of the retry hook, and together with
the tasks that succeeded or failed they are the calls of the callables
(`metrics_agree`).

What a run does is counted task by task: each entry of the log, each call of a
hook and each call of a callable belongs to one task (`length_eq_sum_owners`).
-/

set_option autoImplicit false

namespace OrderedDict

variable {κ ν : Type} [DecidableEq κ] (dict : OrderedDict κ ν) (default : κ → ν)

/-- A sum over the values is one over the keys. -/
theorem sum_values (measure : ν → ℕ) : (dict.values.map measure).sum =
    ∑ key ∈ dict.keySet, measure (dict.getD key (default key)) := by
  rw [dict.values_eq_map_getD default, List.map_map]
  rfl

theorem countP_values (counted : ν → Prop) [DecidablePred counted] :
    (dict.values.countP fun value => counted value) =
      ∑ key ∈ dict.keySet, if counted (dict.getD key (default key)) then 1 else 0 := by
  rw [← dict.sum_values default fun value => if counted value then 1 else 0]
  induction dict.values with
  | nil => rfl
  | cons value rest ih =>
      rw [List.countP_cons, ih, List.map_cons, List.sum_cons, Nat.add_comm]
      simp only [decide_eq_true_eq]

end OrderedDict

namespace EtlOrchestrator

open BlockingEvaluation Relation WorkflowEngine

/-! ## Counting by tasks -/

/-- A list of owners is as long as the numbers of its elements that each owner has,
when no owner outside a set has any. -/
theorem length_eq_sum_owners {κ : Type} [DecidableEq κ] {owners : List κ} {keys : Finset κ}
    {measure : κ → ℕ} (counted : ∀ owner, owners.count owner = measure owner)
    (outside : ∀ owner ∉ keys, measure owner = 0) : owners.length = ∑ key ∈ keys, measure key := by
  have within : ∀ owner ∈ (owners : Multiset κ), owner ∈ keys := by
    intro owner member
    by_contra missing
    exact List.count_eq_zero.mp ((counted owner).trans (outside owner missing)) member
  rw [← Multiset.coe_card, ← Multiset.sum_count_eq_card within]
  exact Finset.sum_congr rfl fun key _ => (Multiset.coe_count key owners).trans (counted key)

/-! ## Retries of a task -/

/-- The task of an entry of the log that moves it from failed to retrying. -/
def LogEntry.retried? (entry : LogEntry) : Option String :=
  match entry.move? with
  | some (taskId, .failed, .retrying) => some taskId
  | _ => none

/-- The task of a call of `on_task_retry`. -/
def HookCall.retried? : HookCall → Option String
  | taskRetry _ record _ => some record.taskId
  | _ => none

/-- The retries that a record has made. -/
def TaskRunRecord.retries (record : TaskRunRecord) : ℕ :=
  if record.state = .retrying then record.attempts else record.attempts - 1

namespace TaskView

/-- The retries of a record are among the states assigned to its task. -/
def Retried (view : TaskView) : Prop :=
  (transitions .pending view.assigned).count (.failed, .retrying) = view.record.retries

variable {now : ℚ} {view after : TaskView}

/-- A stamp that assigns a state counts as a retry if it moves from failed to
retrying. -/
theorem count_transitions_concat (state : view.record.state = view.assigned.getLastD .pending)
    (target : TaskState) :
    (transitions .pending (view.assigned ++ [target])).count (.failed, .retrying) =
      (transitions .pending view.assigned).count (.failed, .retrying) +
        if view.record.state = .failed ∧ target = .retrying then 1 else 0 := by
  rw [transitions_concat, List.count_append, List.count_singleton, ← state]
  simp only [beq_iff_eq, Prod.mk.injEq]

/-- **A stamp keeps the count of the retries.** -/
theorem Retried.stamp (retried : view.Retried)
    (state : view.record.state = view.assigned.getLastD .pending) (stamp : Stamp now view after) :
    after.Retried := by
  rw [Retried, TaskRunRecord.retries] at *
  cases stamp with
  | keep record assigned => rw [record, assigned, retried]
  | start waiting =>
      rw [moving, count_transitions_concat state, retried]
      rcases waiting with ⟨pending, none⟩ | retrying
      · simp [pending, none]
      · simp [retrying]
  | fail error running =>
      rw [moving, count_transitions_concat state, retried]
      simp [running]
  | retry instant failed attempted =>
      rw [moving, count_transitions_concat state, retried]
      simp [failed]
      omega
  | abort failed attempted =>
      rw [count_transitions_concat state, retried]
      simp [failed]
      omega
  | succeed running =>
      rw [moving, count_transitions_concat state, retried]
      simp [running]
  | block failedTaskId pending =>
      rw [blocked, moving, checking, count_transitions_concat state, retried]
      simp [pending]

end TaskView

/-! ## Projections to a task -/

namespace RunState

variable (state : RunState) (taskId : String)

theorem count_calls :
    (state.calls.map TaskContext.taskId).count taskId = (state.view taskId).called.length := by
  rw [view, List.count_eq_countP, List.countP_map, ← List.countP_eq_length_filter]
  refine List.countP_congr fun context _ => ?_
  simp

theorem count_log : (state.run.log.filterMap LogEntry.retried?).count taskId =
    (state.view taskId).moved.count (.failed, .retrying) := by
  rw [view, List.count_eq_countP, List.count_eq_countP, List.countP_filterMap,
    List.countP_filterMap]
  refine List.countP_congr fun entry _ => ?_
  cases entry <;> simp [LogEntry.retried?, LogEntry.moveOf?, LogEntry.move?] <;> split <;> simp_all

theorem count_hooks : (state.hooks.filterMap HookCall.retried?).count taskId =
    (state.hooksFor taskId).countP fun call => call.1 = .taskRetry := by
  rw [hooksFor, List.count_eq_countP, List.countP_filterMap, List.countP_filterMap]
  refine List.countP_congr fun call _ => ?_
  cases call <;> simp [HookCall.retried?, HookCall.shown?, HookCall.IsFor, HookCall.record?,
    HookCall.kind] <;> split <;> simp_all

end RunState

/-! ## Runs that have returned -/

/-- The retries among the calls for a task up to the start of an attempt. -/
theorem countP_callsUpTo {attempt : ℕ} (positive : 1 ≤ attempt) :
    ((callsUpTo attempt).countP fun call => call.1 = .taskRetry) = attempt - 1 := by
  induction attempt, positive using Nat.le_induction with
  | base => rfl
  | succ attempt positive ih =>
      rw [callsUpTo, callsBefore_succ positive, List.countP_append, List.countP_append, ih]
      simp only [List.countP_singleton, decide_true, if_true, reduceCtorEq, decide_false,
        Bool.false_eq_true, if_false]
      omega

variable {engine : AcceptedEngine} {env : Env} {machine : Machine} {taskId : String}

namespace Reachable

theorem retried (run : engine.Steps env (engine.start env) machine) (taskId : String) :
    (machine.shared.view taskId).Retried := by
  refine views_of_stamps (fun taskId => ?_) (fun state stamp retried => ?_) run taskId
  · rfl
  · exact retried.stamp state stamp

/-- When a run has returned, the calls of a task's callable are its attempts, and no
record waits for a retry. -/
theorem called_of_returned (reachable : Reachable engine env machine)
    (returned : machine.status = .returned) (taskId : String) :
    (machine.shared.view taskId).called.length = machine.attemptsOf taskId ∧
      (machine.shared.view taskId).record.state ≠ .retrying := by
  by_cases known : taskId ∈ engine.workflow.tasks
  · have settles := (reachable.isResult returned).settles taskId known
    refine ⟨?_, fun retrying => ?_⟩
    · rw [settles.agrees.2, contexts, List.length_map, List.length_range']
      rfl
    · have ended := settles.state_cases
      rw [retrying] at ended
      simp at ended
  · rcases reachable.waiting_of_unknown known with at' | ⟨at', _⟩
    · refine ⟨?_, fun retrying => by cases at'.state.symm.trans retrying⟩
      rw [at'.called]
      exact at'.attempts.symm
    · refine ⟨?_, fun retrying => by cases at'.state.symm.trans retrying⟩
      rw [at'.called]
      exact at'.attempts.symm

/-- The calls of the retry hook for a task follow its attempts but the last. -/
theorem retryHooks_of_returned (reachable : Reachable engine env machine)
    (trace : HookTrace engine env machine) (returned : machine.status = .returned)
    (taskId : String) : ((machine.shared.hooksFor taskId).countP fun call => call.1 = .taskRetry) =
      machine.attemptsOf taskId - 1 := by
  rcases trace.hooksFor_of_returned reachable returned taskId with
    ⟨_, none, calls⟩ | ⟨known, settles, calls⟩
  · rw [calls, none]
    rfl
  · rw [calls, AcceptedEngine.finalCalls]
    rw [AcceptedEngine.Settles] at settles
    cases outcome : engine.outcome env taskId with
    | value attempt =>
        rw [outcome] at settles
        have positive := (AcceptedEngine.outcome_eq_value_iff.mp outcome).2.positive
        have attempts : machine.attemptsOf taskId = attempt := settles.attempts
        rw [List.countP_append, countP_callsUpTo positive, attempts]
        rfl
    | failed =>
        rw [outcome] at settles
        have attempts : machine.attemptsOf taskId = engine.maxAttempts taskId := settles.attempts
        rw [List.countP_append, countP_callsUpTo (engine.one_le_maxAttempts known), attempts]
        rfl
    | blocked =>
        rw [outcome] at settles
        have attempts : machine.attemptsOf taskId = 0 := settles.attempts
        rw [attempts]
        rfl

/-- What a run that has returned has done for a task: the calls of its callable are
its attempts, and its retries are all attempts but the first. -/
theorem accounted (run : engine.Steps env (engine.start env) machine)
    (returned : machine.status = .returned) (taskId : String) :
    (machine.shared.calls.map TaskContext.taskId).count taskId = machine.attemptsOf taskId ∧
      (machine.shared.run.log.filterMap LogEntry.retried?).count taskId =
        machine.attemptsOf taskId - 1 ∧
      (machine.shared.hooks.filterMap HookCall.retried?).count taskId =
        machine.attemptsOf taskId - 1 := by
  have reachable := Reachable.steps run
  obtain ⟨called, notRetrying⟩ := reachable.called_of_returned returned taskId
  refine ⟨?_, ?_, ?_⟩
  · rw [RunState.count_calls, called]
  · have retried := Reachable.retried run taskId
    rw [TaskView.Retried, TaskRunRecord.retries, if_neg notRetrying] at retried
    rw [RunState.count_log, (reachable.faithful_of_returned returned taskId).moved, retried]
    rfl
  · rw [RunState.count_hooks]
    exact reachable.retryHooks_of_returned (.steps run) returned taskId

end Reachable

namespace IsResult

variable {final : RunState} (result : IsResult engine env final)

include result

theorem keySet_eq : final.run.records.keySet = engine.workflow.tasks.keySet :=
  Finset.ext result.recorded

/-- A workflow has failed when one of its tasks has. -/
theorem exists_failed_iff : (∃ taskId ∈ engine.workflow.tasks, final.stateOf taskId = .failed) ↔
    final.run.workflowState = .failed := by
  obtain ⟨success, ended⟩ := result.workflowState_iff
  constructor
  · rintro ⟨taskId, known, failed⟩
    refine ended.resolve_left fun succeeded => ?_
    cases failed.symm.trans (success.mp succeeded taskId known)
  · intro workflowFailed
    have notAll : ¬ ∀ taskId ∈ engine.workflow.tasks, final.stateOf taskId = .success :=
      fun all => by cases workflowFailed.symm.trans (success.mpr all)
    push Not at notAll
    obtain ⟨taskId, known, notSuccess⟩ := notAll
    rcases result.settled_cases known with state | ⟨state, _⟩ | blocked
    · exact absurd state notSuccess
    · exact ⟨taskId, known, state⟩
    · obtain ⟨ancestor, above, failed⟩ := (result.blocked_iff known).mp blocked
      obtain ⟨child, edge, _⟩ := TransGen.head'_iff.mp above
      exact ⟨ancestor, engine.valid.closed.upstreams child ancestor edge, failed⟩

theorem length_records :
    final.run.records.values.length = engine.workflow.tasks.keys.length := by
  have card := congrArg Finset.card result.keySet_eq
  rw [OrderedDict.values, List.length_map]
  exact (List.length_map Prod.fst).symm.trans card

/-- The metrics of a result can be computed. -/
theorem exists_metrics : ∃ metrics, computeRunMetrics final.run.snapshot = .ok metrics := by
  refine (computeRunMetrics_returns_iff _).mpr fun record member => ?_
  have inStates : record.state ∈ final.run.taskStates := List.mem_map_of_mem member
  obtain ⟨taskId, inRecords, state⟩ := WorkflowRun.mem_taskStates.mp inStates
  have ended := (result.settles taskId ((result.recorded taskId).mp inRecords)).state_cases
  rw [← state]
  rcases ended with success | failed | blocked
  · exact ⟨ne_of_eq_of_ne success (by decide), ne_of_eq_of_ne success (by decide)⟩
  · exact ⟨ne_of_eq_of_ne failed (by decide), ne_of_eq_of_ne failed (by decide)⟩
  · exact ⟨ne_of_eq_of_ne blocked (by decide), ne_of_eq_of_ne blocked (by decide)⟩

/-- A counter of the metrics counts the tasks in its state. -/
theorem count_eq {metrics : RunMetrics}
    (computed : computeRunMetrics final.run.snapshot = .ok metrics) (counter : Counter) :
    metrics.count counter = ∑ taskId ∈ engine.workflow.tasks.keySet,
      if final.stateOf taskId = counter.state then 1 else 0 := by
  rw [(computeRunMetrics_spec computed).1, ← result.keySet_eq]
  exact final.run.records.countP_values (fun taskId => ({ taskId } : TaskRunRecord))
    fun record => record.state = counter.state

theorem retries_eq {metrics : RunMetrics}
    (computed : computeRunMetrics final.run.snapshot = .ok metrics) :
    metrics.retries = ∑ taskId ∈ engine.workflow.tasks.keySet,
      ((final.recordOf taskId).attempts - 1) := by
  rw [(computeRunMetrics_spec computed).2.1, ← result.keySet_eq]
  exact final.run.records.sum_values (fun taskId => ({ taskId } : TaskRunRecord))
    fun record => record.attempts - 1

/-- No task is counted in a state that is no end of a task. -/
theorem count_eq_zero {metrics : RunMetrics}
    (computed : computeRunMetrics final.run.snapshot = .ok metrics) (counter : Counter)
    (noEnd : counter.state ≠ .success ∧ counter.state ≠ .failed ∧
      counter.state ≠ .upstreamFailed) : metrics.count counter = 0 := by
  rw [result.count_eq computed]
  refine Finset.sum_eq_zero fun taskId known => if_neg fun state => ?_
  have ended := (result.settles taskId known).state_cases
  rw [← RunState.stateOf_eq, state] at ended
  simp [noEnd] at ended

/-- A run has failed when its metrics count a failed task. -/
theorem one_le_failed_iff {metrics : RunMetrics}
    (computed : computeRunMetrics final.run.snapshot = .ok metrics) :
    1 ≤ metrics.failed ↔ final.run.workflowState = .failed := by
  have failed : metrics.failed = _ := result.count_eq computed .failed
  rw [failed, ← Finset.card_filter, Nat.one_le_iff_ne_zero, Finset.card_ne_zero,
    Finset.filter_nonempty_iff]
  exact result.exists_failed_iff

/-- Every attempt of a task but its last one is a retry, and its last one succeeds or
fails. -/
theorem attempts_eq (known : taskId ∈ engine.workflow.tasks) :
    (final.recordOf taskId).attempts =
      (if final.stateOf taskId = .success then 1 else 0) +
        (if final.stateOf taskId = .failed then 1 else 0) +
        ((final.recordOf taskId).attempts - 1) := by
  have settles := result.settles taskId known
  rw [AcceptedEngine.Settles] at settles
  rw [RunState.stateOf_eq, RunState.recordOf_eq]
  cases outcome : engine.outcome env taskId with
  | value attempt =>
      rw [outcome] at settles
      have positive := (AcceptedEngine.outcome_eq_value_iff.mp outcome).2.positive
      rw [settles.state, settles.attempts, if_pos rfl, if_neg (by decide)]
      omega
  | failed =>
      rw [outcome] at settles
      have positive := engine.one_le_maxAttempts known
      rw [settles.state, settles.attempts, if_neg (by decide), if_pos rfl]
      omega
  | blocked =>
      rw [outcome] at settles
      rw [settles.state, settles.attempts, if_neg (by decide), if_neg (by decide)]

/-- The tasks that succeeded or failed and the retries make all attempts. -/
theorem sum_attempts {metrics : RunMetrics}
    (computed : computeRunMetrics final.run.snapshot = .ok metrics) :
    metrics.succeeded + metrics.failed + metrics.retries =
      ∑ taskId ∈ engine.workflow.tasks.keySet, (final.recordOf taskId).attempts := by
  have succeeded : metrics.succeeded = _ := result.count_eq computed .succeeded
  have failed : metrics.failed = _ := result.count_eq computed .failed
  rw [succeeded, failed, result.retries_eq computed, ← Finset.sum_add_distrib,
    ← Finset.sum_add_distrib]
  exact Finset.sum_congr rfl fun taskId known => (result.attempts_eq known).symm

end IsResult

/-- **The metrics of a run that has returned can be computed, and agree with what the
run has done.** -/
theorem metrics_agree (engine : AcceptedEngine) (env : Env) {machine : Machine}
    (run : engine.Steps env (engine.start env) machine) (returned : machine.status = .returned) :
    ∃ metrics, computeRunMetrics machine.shared.run.snapshot = .ok metrics ∧
      metrics.totalTasks = engine.workflow.tasks.keys.length ∧
      metrics.succeeded + metrics.failed + metrics.upstreamFailed = metrics.totalTasks ∧
      metrics.skipped = 0 ∧ metrics.cancelled = 0 ∧ metrics.pending = 0 ∧
      (1 ≤ metrics.failed ↔ metrics.workflowState = .failed) ∧
      metrics.retries = (machine.shared.run.log.filterMap LogEntry.retried?).length ∧
      metrics.retries = (machine.shared.hooks.filterMap HookCall.retried?).length ∧
      metrics.succeeded + metrics.failed + metrics.retries = machine.shared.calls.length := by
  have result := (Reachable.steps run).isResult returned
  have accounted := Reachable.accounted run returned
  have unknown : ∀ taskId ∉ engine.workflow.tasks.keySet, machine.attemptsOf taskId = 0 := by
    intro taskId missing
    rcases (Reachable.steps run).waiting_of_unknown missing with at' | ⟨at', _⟩
    · exact at'.attempts
    · exact at'.attempts
  have noRetries : ∀ taskId ∉ engine.workflow.tasks.keySet,
      machine.attemptsOf taskId - 1 = 0 := by
    intro taskId missing
    rw [unknown taskId missing]
  obtain ⟨metrics, computed⟩ := result.exists_metrics
  obtain ⟨counted, total⟩ := counted_computeRunMetrics computed
  have skipped : metrics.skipped = 0 := result.count_eq_zero computed .skipped (by decide)
  have cancelled : metrics.cancelled = 0 := result.count_eq_zero computed .cancelled (by decide)
  have pending : metrics.pending = 0 := result.count_eq_zero computed .pending (by decide)
  have retries := result.retries_eq computed
  refine ⟨metrics, computed, total.trans result.length_records, ?_, skipped, cancelled, pending,
    ?_, ?_, ?_, ?_⟩
  · rw [RunMetrics.counted, skipped, cancelled, pending] at counted
    exact counted
  · rw [(computeRunMetrics_spec computed).2.2]
    exact result.one_le_failed_iff computed
  · rw [retries, length_eq_sum_owners (fun taskId => (accounted taskId).2.1) noRetries]
    rfl
  · rw [retries, length_eq_sum_owners (fun taskId => (accounted taskId).2.2) noRetries]
    rfl
  · rw [← List.length_map TaskContext.taskId,
      length_eq_sum_owners (fun taskId => (accounted taskId).1) unknown]
    exact result.sum_attempts computed

theorem metrics_agree_pipeline : ∃ machine metrics,
    (pipeline 2 (by decide)).replay { runId := "run" }
      ((pipeline 2 (by decide)).start { runId := "run" }) pipelineChoices = some machine ∧
    computeRunMetrics machine.shared.run.snapshot = .ok metrics ∧
    metrics.totalTasks = 4 ∧ 1 ≤ metrics.failed ∧
    metrics.succeeded + metrics.failed + metrics.retries = 5 := by
  have shown : ((pipeline 2 (by decide)).replay { runId := "run" }
      ((pipeline 2 (by decide)).start { runId := "run" }) pipelineChoices).map (fun machine =>
        (machine.status, machine.shared.run.workflowState, machine.shared.calls.length)) =
      some (.returned, .failed, 5) := by decide +kernel
  obtain ⟨machine, replayed, shows⟩ := Option.map_eq_some_iff.mp shown
  simp only [Prod.mk.injEq] at shows
  obtain ⟨returned, workflowState, calls⟩ := shows
  obtain ⟨metrics, computed, total, _, _, _, _, failed, _, _, attempts⟩ :=
    metrics_agree (pipeline 2 (by decide)) { runId := "run" } (steps_of_replay _ _ replayed)
      returned
  refine ⟨machine, metrics, replayed, computed, total, failed.mpr ?_, attempts.trans calls⟩
  exact (computeRunMetrics_spec computed).2.2.trans workflowState

end EtlOrchestrator
