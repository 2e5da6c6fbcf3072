import EtlOrchestrator.Engine.ErrorTexts
import EtlOrchestrator.Engine.Hooks
import EtlOrchestrator.Engine.Stamps

/-!
# What a record keeps when its task is final

An attempt that raises writes the error of its record, and a retry writes the instant of the
next attempt. The block of a success clears the second of these fields and leaves the first,
and the exit after the last attempt clears neither.

So the records with an error are those that have failed or are blocked if and only if no
task recovers (`errors_match_iff`), and a final task has an instant of a next attempt if it
fails for good after a retry (`clearsRetries_iff`).
-/

set_option autoImplicit false

namespace EtlOrchestrator

open BlockingEvaluation Relation WorkflowEngine

variable {engine : AcceptedEngine} {env : Env} {taskId : String} {machine : Machine}

/-! ## Outcomes by attempts -/

namespace AcceptedEngine

/-- Every task above this one has a first success. -/
def Reached (engine : AcceptedEngine) (env : Env) (taskId : String) : Prop :=
  ∀ up, TransGen engine.workflow.Edge up taskId → ∃ attempt, engine.IsFirstSuccess env up attempt

/-- A task is reached exactly when its outcome is not that it is blocked. -/
theorem reached_iff : engine.Reached env taskId ↔ engine.outcome env taskId ≠ .blocked := by
  constructor
  · intro reached blocked
    obtain ⟨ancestor, above, failed⟩ := outcome_eq_blocked_iff.mp blocked
    obtain ⟨attempt, first⟩ := reached ancestor above
    exact (outcome_eq_failed_iff.mp failed).2 attempt first.positive first.allowed first.succeeds
  · intro unblocked up above
    cases outcome : engine.outcome env up with
    | value attempt => exact ⟨attempt, (outcome_eq_value_iff.mp outcome).2⟩
    | failed => exact absurd (outcome_of_ancestor (by simp [outcome]) above) unblocked
    | blocked => exact absurd (outcome_of_ancestor (by simp [outcome]) above) unblocked

theorem outcome_eq_value_iff_reached {attempt : ℕ} :
    engine.outcome env taskId = .value attempt ↔
      engine.Reached env taskId ∧ engine.IsFirstSuccess env taskId attempt := by
  rw [outcome_eq_value_iff, ← outcome_ne_blocked_iff, reached_iff]

theorem outcome_eq_failed_iff_reached : engine.outcome env taskId = .failed ↔
    engine.Reached env taskId ∧ ∀ attempt, 1 ≤ attempt → attempt ≤ engine.maxAttempts taskId →
      ¬ engine.Succeeds env taskId attempt := by
  rw [outcome_eq_failed_iff, ← outcome_ne_blocked_iff, reached_iff]

end AcceptedEngine

/-! ## Errors -/

namespace WorkflowEngine

/-- A call that does not succeed has an error text. -/
theorem errorText_ne_none {attempt : ℕ} (known : taskId ∈ engine.workflow.tasks)
    (fails : ¬ engine.Succeeds env taskId attempt) :
    engine.errorText taskId (engine.context env taskId attempt) ≠ none := by
  obtain ⟨callable, found⟩ := OrderedDict.exists_get?_of_mem ((engine.mem_tasks taskId).mpr known)
  cases result : callable (engine.context env taskId attempt) with
  | ok value => exact absurd ⟨callable, found, result⟩ fails
  | error error =>
      rw [errorText_of_error found result]
      exact Option.some_ne_none _

theorem errorText_of_succeeds {attempt : ℕ} (succeeds : engine.Succeeds env taskId attempt) :
    engine.errorText taskId (engine.context env taskId attempt) = none := by
  obtain ⟨callable, found, returns⟩ := succeeds
  exact errorText_of_ok found returns

/-- After a failed attempt there is a last error. -/
theorem lastError_ne_none {attempts : ℕ} (known : taskId ∈ engine.workflow.tasks)
    (positive : 1 ≤ attempts) (fails : ¬ engine.Succeeds env taskId attempts) :
    engine.lastError taskId (engine.contexts env taskId attempts) ≠ none := by
  obtain ⟨earlier, rfl⟩ := Nat.exists_eq_add_of_le' positive
  obtain ⟨text, raises⟩ := Option.ne_none_iff_exists'.mp (errorText_ne_none known fails)
  rw [contexts_succ, lastError_of_raises _ raises]
  exact Option.some_ne_none _

/-- After a first success there is a last error if and only if it was not the first attempt. -/
theorem lastError_of_firstSuccess {attempt : ℕ} (known : taskId ∈ engine.workflow.tasks)
    (first : engine.IsFirstSuccess env taskId attempt) :
    engine.lastError taskId (engine.contexts env taskId attempt) = none ↔ attempt = 1 := by
  obtain ⟨earlier, rfl⟩ := Nat.exists_eq_add_of_le' first.positive
  rw [contexts_succ, lastError_of_returns _ (errorText_of_succeeds first.succeeds)]
  rcases Nat.eq_zero_or_pos earlier with rfl | positive
  · exact iff_of_true rfl rfl
  · refine iff_of_false ?_ (by omega)
    exact lastError_ne_none known positive (first.earlier earlier positive (by omega))

end WorkflowEngine

/-- The records of a run that have an error are those that have failed or are blocked. -/
def WorkflowRun.ErrorsMatch (run : WorkflowRun) : Prop :=
  ∀ taskId record, run.records.get? taskId = some record →
    (record.error ≠ none ↔ record.state = .failed ∨ record.state = .upstreamFailed)

/-- No task that is reached recovers: if it succeeds at all, it does so at once. -/
def AcceptedEngine.NeverRecovers (engine : AcceptedEngine) (env : Env) : Prop :=
  ∀ taskId ∈ engine.workflow.tasks, engine.Reached env taskId →
    ∀ attempt, engine.IsFirstSuccess env taskId attempt → attempt = 1

/-- In a run that has returned, an error tells that a task has failed or is blocked, unless the
task has recovered. -/
theorem Reachable.errors_match_of_returned
    (run : engine.Steps env (engine.start env) machine) (returned : machine.status = .returned)
    (known : taskId ∈ engine.workflow.tasks) :
    ((machine.shared.recordOf taskId).error ≠ none ↔
        machine.stateOf taskId = .failed ∨ machine.stateOf taskId = .upstreamFailed) ↔
      ∀ attempt, engine.outcome env taskId = .value attempt → attempt = 1 := by
  have result := (Reachable.steps run).isResult returned
  have settles := result.settles taskId known
  rw [AcceptedEngine.Settles] at settles
  cases outcome : engine.outcome env taskId with
  | blocked =>
      rw [outcome] at settles
      have marked : machine.stateOf taskId = .upstreamFailed := settles.state
      obtain ⟨_, _, blames⟩ := Reachable.blames run
      obtain ⟨failed, names, _⟩ := blames.named taskId marked
      refine iff_of_true (iff_of_true ?_ (.inr marked)) fun attempt same => by cases same
      rw [names.error]
      exact Option.some_ne_none _
  | failed =>
      rw [outcome] at settles
      have failed : machine.stateOf taskId = .failed := settles.state
      have attempts : machine.attemptsOf taskId = engine.maxAttempts taskId := settles.attempts
      have error := Reachable.error_of_returned run returned known (by rw [failed]; decide)
      have positive := engine.one_le_maxAttempts known
      have fails := (AcceptedEngine.outcome_eq_failed_iff.mp outcome).2 _ positive le_rfl
      refine iff_of_true (iff_of_true ?_ (.inl failed)) fun attempt same => by cases same
      rw [error, attempts]
      exact lastError_ne_none known positive fails
  | value attempt =>
      rw [outcome] at settles
      have success : machine.stateOf taskId = .success := settles.state
      have attempts : machine.attemptsOf taskId = attempt := settles.attempts
      have error := Reachable.error_of_returned run returned known (by rw [success]; decide)
      have first := (AcceptedEngine.outcome_eq_value_iff.mp outcome).2
      rw [error, attempts, success, ne_eq, lastError_of_firstSuccess known first]
      simp

/-- **In a run that has returned, the records with an error are those that have failed or are
blocked if and only if no task has recovered.** -/
theorem errors_match_iff (engine : AcceptedEngine) (env : Env) {machine : Machine}
    (run : engine.Steps env (engine.start env) machine) (returned : machine.status = .returned) :
    machine.shared.run.ErrorsMatch ↔ engine.NeverRecovers env := by
  have result := (Reachable.steps run).isResult returned
  have matches_iff : machine.shared.run.ErrorsMatch ↔ ∀ taskId ∈ engine.workflow.tasks,
      ((machine.shared.recordOf taskId).error ≠ none ↔
        machine.stateOf taskId = .failed ∨ machine.stateOf taskId = .upstreamFailed) := by
    constructor
    · intro errors taskId known
      obtain ⟨record, stored⟩ := OrderedDict.exists_get?_of_mem ((result.recorded taskId).mpr known)
      have same := errors taskId record stored
      rwa [← WorkflowRun.recordOf_of_get? stored] at same
    · intro errors taskId record stored
      have known := (result.recorded taskId).mp (OrderedDict.mem_of_get? stored)
      have same := errors taskId known
      rwa [Machine.stateOf, RunState.stateOf, RunState.recordOf,
        WorkflowRun.recordOf_of_get? stored] at same
  rw [matches_iff]
  refine forall₂_congr fun taskId known => ?_
  rw [Reachable.errors_match_of_returned run returned known]
  simp only [AcceptedEngine.outcome_eq_value_iff_reached, and_imp]
  exact forall_comm

/-- A task that fails at once, and one that it blocks. -/
def staging : AcceptedEngine where
  workflow :=
    { workflowId := "staging"
      tasks := ⟨[("stage", { taskId := "stage", taskId_valid := by decide }),
        ("ship", { taskId := "ship", taskId_valid := by decide })], by decide⟩
      dependencies := ⟨[("ship", {"stage"})], by decide⟩ }
  tasks := ⟨[("stage", raisesUpTo 1), ("ship", raisesUpTo 0)], by decide⟩
  valid := Workflow.validateGraph_eq_nil_iff_valid.mp (by decide +kernel)
  mem_tasks := mem_iff_of_callables (by decide +kernel) (by decide +kernel)
  one_le_maxWorkers := one_le_default_maxWorkers

/-- The run of these two tasks. -/
def stagingChoices : List Choice :=
  .submit :: wholeJob "stage" 14 ++ .submit :: wholeJob "ship" 9 ++ [.finish]

theorem errors_match_staging : ∃ machine,
    staging.replay { runId := "run" } (staging.start { runId := "run" }) stagingChoices =
      some machine ∧ machine.shared.run.ErrorsMatch ∧ staging.NeverRecovers { runId := "run" } := by
  have shown : (staging.replay { runId := "run" } (staging.start { runId := "run" })
      stagingChoices).map (fun machine => (machine.status, machine.shared.run.records.entries)) =
      some (.returned, [("stage",
          { taskId := "stage", state := .failed, attempts := 1, error := "RuntimeError: down"
            startedAt := some 0, finishedAt := some 0 }),
        ("ship",
          { taskId := "ship", state := .upstreamFailed, error := "upstream task 'stage' failed"
            finishedAt := some 0 })]) := by decide +kernel
  obtain ⟨machine, replayed, shows⟩ := Option.map_eq_some_iff.mp shown
  obtain ⟨returned, records⟩ := Prod.mk.inj shows
  have errors : machine.shared.run.ErrorsMatch := by
    intro taskId record stored
    have entry := OrderedDict.get?_eq_some_iff.mp stored
    rw [records] at entry
    simp only [List.mem_cons, Prod.mk.injEq, List.not_mem_nil, or_false] at entry
    rcases entry with ⟨rfl, rfl⟩ | ⟨rfl, rfl⟩ <;> simp
  exact ⟨machine, replayed, errors, (errors_match_iff staging { runId := "run" }
    (steps_of_replay _ _ replayed) returned).mp errors⟩

/-- A task that has recovered keeps the error of its first attempt. -/
theorem recovered_keeps_error : ∃ machine,
    (pipeline 2 (by decide)).Steps { runId := "run" }
      ((pipeline 2 (by decide)).start { runId := "run" }) machine ∧
    machine.status = .returned ∧ machine.stateOf "extract" = .success ∧
    (machine.shared.recordOf "extract").error = some "RuntimeError: down" ∧
    ¬ machine.shared.run.ErrorsMatch := by
  have shown : ((pipeline 2 (by decide)).replay { runId := "run" }
      ((pipeline 2 (by decide)).start { runId := "run" }) pipelineChoices).map (fun machine =>
        (machine.status, machine.stateOf "extract", (machine.shared.recordOf "extract").error,
          (machine.shared.run.records.get? "extract").isSome)) =
      some (.returned, .success, some "RuntimeError: down", true) := by decide +kernel
  obtain ⟨machine, replayed, shows⟩ := Option.map_eq_some_iff.mp shown
  simp only [Prod.mk.injEq] at shows
  obtain ⟨returned, success, error, stored⟩ := shows
  refine ⟨machine, steps_of_replay _ _ replayed, returned, success, error, fun errors => ?_⟩
  obtain ⟨record, stored⟩ := Option.isSome_iff_exists.mp stored
  have same := errors "extract" record stored
  rw [← WorkflowRun.recordOf_of_get? stored] at same
  have failed := same.mp (by rw [show (machine.shared.run.recordOf "extract").error = _ from error]
                             exact Option.some_ne_none _)
  rw [show (machine.shared.run.recordOf "extract").state = _ from success] at failed
  revert failed
  decide

/-! ## Instants of a next attempt -/

/-- The run that a hook is given. -/
def HookCall.run : HookCall → WorkflowRun
  | workflowStart run => run
  | taskStart run _ => run
  | taskSuccess run _ => run
  | taskRetry run _ _ => run
  | taskFailure run _ => run
  | workflowEnd run => run

/-- The record has the final outcome of its task: it has succeeded, it is blocked, or it has
failed with all its attempts. -/
def WorkflowEngine.IsFinal (engine : WorkflowEngine) (taskId : String) (record : TaskRunRecord) :
    Prop :=
  record.state = .success ∨ record.state = .upstreamFailed ∨
    record.state = .failed ∧ record.attempts = engine.maxAttempts taskId

/-- No task with its final outcome has an instant of a next attempt. -/
def WorkflowEngine.Cleared (engine : WorkflowEngine) (run : WorkflowRun) : Prop :=
  ∀ taskId ∈ run.records, engine.IsFinal taskId (run.recordOf taskId) →
    (run.recordOf taskId).nextRetryAt = none

/-- A hook is shown a cleared run, and after the last attempt of a task it is given a cleared
record. -/
structure WorkflowEngine.ClearsAt (engine : WorkflowEngine) (call : HookCall) : Prop where
  run : engine.Cleared call.run
  success : ∀ run record, call = .taskSuccess run record → record.nextRetryAt = none
  failure : ∀ run record, call = .taskFailure run record → record.nextRetryAt = none

/-- The instant of a next attempt is set only while the attempt is to come, as the hooks see
it and in a run that has returned. -/
structure WorkflowEngine.ClearsRetries (engine : WorkflowEngine) (machine : Machine) : Prop where
  hooks : ∀ call ∈ machine.shared.hooks, engine.ClearsAt call
  returned : machine.status = .returned → engine.Cleared machine.shared.run

/-- A task that is reached and never succeeds has only one attempt. -/
def AcceptedEngine.ExhaustsAtOnce (engine : AcceptedEngine) (env : Env) : Prop :=
  ∀ taskId ∈ engine.workflow.tasks, engine.Reached env taskId →
    (∀ attempt, 1 ≤ attempt → attempt ≤ engine.maxAttempts taskId →
      ¬ engine.Succeeds env taskId attempt) → engine.maxAttempts taskId = 1

/-- The instant of a next attempt is written by a retry only. -/
def RetryMarked (view : TaskView) : Prop :=
  match view.record.state with
  | .pending | .success | .upstreamFailed => view.record.nextRetryAt = none
  | .running | .failed => view.record.attempts ≤ 1 → view.record.nextRetryAt = none
  | .retrying => 1 ≤ view.record.attempts
  | .skipped | .cancelled => True

theorem RetryMarked.stamp {now : ℚ} {view after : TaskView} (marked : RetryMarked view)
    (stamp : Stamp now view after) : RetryMarked after := by
  rw [RetryMarked] at marked
  cases stamp with
  | keep record =>
      rw [RetryMarked, record]
      exact marked
  | start waiting =>
      rcases waiting with ⟨pending, none⟩ | retrying
      · rw [pending] at marked
        exact fun _ => marked
      · rw [retrying] at marked
        have retried := Nat.pos_iff_ne_zero.mp marked
        exact fun once => absurd once (by simpa [TaskView.moving] using retried)
  | fail error running =>
      rw [running] at marked
      exact marked
  | retry instant failed attempted => exact attempted
  | abort failed attempted => exact attempted
  | succeed running => exact rfl
  | block failedTaskId pending =>
      rw [pending] at marked
      exact marked

theorem Reachable.retryMarked (run : engine.Steps env (engine.start env) machine)
    (taskId : String) : RetryMarked (machine.shared.view taskId) := by
  refine views_of_stamps (fun taskId => ?_) (fun _ stamp marked => ?_) run taskId
  · rfl
  · exact marked.stamp stamp

/-- A failed task is about to be retried, or has failed for good. -/
theorem AcceptedEngine.TaskOk.of_failed {view : TaskView} {pc : Pc}
    (ok : engine.TaskOk env taskId view pc) (failed : view.record.state = .failed) :
    view.record.attempts < engine.maxAttempts taskId ∨ engine.outcome env taskId = .failed := by
  have only : ∀ {state : TaskState} {attempts calls : ℕ},
      engine.At env taskId view state attempts calls → state = .failed := fun at' =>
    at'.state.symm.trans failed
  have waiting : ¬ engine.Waiting env taskId view := by
    rintro (at' | ⟨at', _⟩)
    · cases only at'
    · cases only at'
  cases pc with
  | enter | firstCheck => exact absurd ok.2 waiting
  | scan | scanCheck | refresh | secondCheck => exact absurd ok.2.1 waiting
  | skip => cases only ok.2.1
  | walk failedTaskId pendingVisit visited =>
      obtain ⟨_, ⟨at', _⟩ | at', _⟩ := ok
      · cases only at'
      · cases only at'
  | define => cases only ok.2.1
  | checkStart task attempt | start task attempt =>
      have state := only ok.2.2
      split at state <;> cases state
  | hookStart | call | checkFail | fail => cases only ok.2.2
  | checkRetry task attempt =>
      rw [ok.2.2.2.attempts, ok.2.1.maxAttempts]
      exact .inl ok.2.2.1
  | retry task attempt delay =>
      rw [ok.2.2.2.2.attempts, ok.2.1.maxAttempts]
      exact .inl ok.2.2.1
  | hookRetry | sleep => cases only ok.2.2.2
  | permanent | hookFailure => exact .inr (ok.2.1.state_eq_failed_iff.mp failed)
  | checkSucceed | succeed | hookSuccess => cases only ok.2.2
  | done => exact .inr (ok.2.state_eq_failed_iff.mp failed)
  | raised error =>
      obtain ⟨_, _, task, attempt, failing, allowed, at' | at'⟩ := ok
      · rw [at'.attempts, failing.maxAttempts]
        exact .inl allowed
      · cases only at'

/-- A final task has no instant of a next attempt, unless it has failed for good after a
retry. -/
theorem Reachable.nextRetryAt_of_final (run : engine.Steps env (engine.start env) machine)
    (condition : engine.ExhaustsAtOnce env) (known : taskId ∈ engine.workflow.tasks)
    (final : engine.IsFinal taskId (machine.shared.recordOf taskId)) :
    (machine.shared.recordOf taskId).nextRetryAt = none := by
  have marked := Reachable.retryMarked run taskId
  rw [RetryMarked, show (machine.shared.view taskId).record = machine.shared.recordOf taskId
    from rfl] at marked
  rcases final with success | blocked | ⟨failed, exhausted⟩
  · rw [success] at marked
    exact marked
  · rw [blocked] at marked
    exact marked
  · rw [failed] at marked
    have outcome := (((Reachable.steps run).task_ok taskId).of_failed failed).resolve_left
      (Nat.not_lt.mpr exhausted.ge)
    obtain ⟨reached, fails⟩ := AcceptedEngine.outcome_eq_failed_iff_reached.mp outcome
    exact marked (exhausted.trans (condition taskId known reached fails)).le

theorem Reachable.cleared (run : engine.Steps env (engine.start env) machine)
    (condition : engine.ExhaustsAtOnce env) : engine.Cleared machine.shared.run := by
  obtain ⟨past, invariant⟩ := (Reachable.steps run).invariant
  exact fun taskId member final =>
    Reachable.nextRetryAt_of_final run condition (invariant.recorded taskId member) final

/-- The call of a hook that a thread is about to make. -/
theorem Reachable.clearsAt (run : engine.Steps env (engine.start env) machine)
    (condition : engine.ExhaustsAtOnce env) (known : taskId ∈ engine.workflow.tasks)
    {call : WorkflowRun → TaskRunRecord → HookCall}
    (next : (machine.pcs taskId).hookCall? = some call) :
    engine.ClearsAt (call machine.shared.run (machine.shared.recordOf taskId)) := by
  have cleared := Reachable.cleared run condition
  have ok := (Reachable.steps run).task_ok taskId
  generalize machine.pcs taskId = pc at next ok
  cases pc with
  | hookStart task attempt =>
      cases next
      exact ⟨cleared, fun _ _ same => (by cases same), fun _ _ same => (by cases same)⟩
  | hookRetry task attempt delay =>
      cases next
      exact ⟨cleared, fun _ _ same => (by cases same), fun _ _ same => (by cases same)⟩
  | hookFailure =>
      cases next
      refine ⟨cleared, fun _ _ same => (by cases same), fun _ _ same => ?_⟩
      cases same
      refine Reachable.nextRetryAt_of_final run condition known (.inr (.inr ⟨ok.2.2, ?_⟩))
      have settles := ok.2.1
      have outcome := settles.state_eq_failed_iff.mp ok.2.2
      rw [AcceptedEngine.Settles, outcome] at settles
      exact settles.attempts
  | hookSuccess attempt =>
      cases next
      refine ⟨cleared, fun _ _ same => ?_, fun _ _ same => (by cases same)⟩
      cases same
      exact Reachable.nextRetryAt_of_final run condition known (.inl ok.2.2.state)
  | _ => cases next

/-- **In every state of every run the hooks were shown no instant of a next attempt of a final
task, unless a task fails for good after a retry.** -/
theorem Reachable.hooks_clearsAt (condition : engine.ExhaustsAtOnce env)
    (run : engine.Steps env (engine.start env) machine) :
    ∀ call ∈ machine.shared.hooks, engine.ClearsAt call := by
  induction run with
  | refl =>
      obtain ⟨shared, levels, same, _, began, _, noRecords, _⟩ := start_eq engine env
      obtain ⟨other, otherBegan, hooks⟩ := engine.beginRun_hooks env
      rw [began] at otherBegan
      cases otherBegan
      rw [same]
      intro call member
      rw [show shared.hooks = _ from hooks, List.mem_singleton] at member
      subst member
      refine ⟨fun taskId recorded => ?_, fun _ _ same => (by cases same),
        fun _ _ same => (by cases same)⟩
      rw [HookCall.run, noRecords] at recorded
      exact absurd recorded (OrderedDict.not_mem_empty taskId)
  | @tail machine next steps step ih =>
      have running := step.running
      obtain ⟨past, invariant⟩ := (Reachable.steps steps).invariant
      have cleared := Reachable.cleared (steps.tail step) condition
      cases step with
      | @work taskId _ held unfinished =>
          have known := invariant.known (invariant.submitted taskId (.inr held))
          intro call member
          rw [show (engine.work env machine taskId).shared.hooks = _ from
            engine.advance_hooks env taskId machine.shared (machine.pcs taskId),
            List.mem_append] at member
          rcases member with old | new
          · exact ih call old
          · cases calls : (machine.pcs taskId).hookCall? with
            | none =>
                rw [calls] at new
                cases new
            | some hook =>
                rw [calls, Option.map_some, Option.toList_some, List.mem_singleton] at new
                rw [new]
                exact Reachable.clearsAt steps condition known calls
      | finish _ drained idle last returned =>
          obtain ⟨after, ran, _⟩ :=
            (Reachable.steps steps).finishRun running drained idle last returned
          rw [WorkflowEngine.finish_of_ok ran] at cleared ⊢
          intro call member
          rw [finishRun_hooks ran, List.mem_append, List.mem_singleton] at member
          rcases member with old | rfl
          · exact ih call old
          · exact ⟨cleared, fun _ _ same => (by cases same), fun _ _ same => (by cases same)⟩
      | _ => exact ih

/-! ## Failures after a retry -/

/-- A record whose task has been retried has an instant of a next attempt, unless it is
cleared by a success. -/
def Retried (view : TaskView) : Prop :=
  view.record.state = .retrying ∨
    2 ≤ view.record.attempts ∧ (view.record.state = .running ∨ view.record.state = .failed) →
  view.record.nextRetryAt ≠ none

/-- A stamp that leaves failed records alone keeps this. -/
theorem Retried.stamp {now : ℚ} {view after : TaskView} (retried : Retried view)
    (stamp : Stamp now view after)
    (idle : view.record.state = .failed → after.record = view.record) : Retried after := by
  have quiet : after.record = view.record → Retried after := fun same => by
    rw [Retried, same]
    exact retried
  cases stamp with
  | keep record => exact quiet record
  | start waiting =>
      rcases waiting with ⟨_, none⟩ | retrying
      · rintro (state | ⟨twice, _⟩)
        · cases state
        · exact absurd twice (by simp [TaskView.moving, none])
      · exact fun _ => retried (.inl retrying)
  | fail error running =>
      rintro (state | ⟨twice, _⟩)
      · cases state
      · exact retried (.inr ⟨twice, .inl running⟩)
  | retry instant failed => exact quiet (idle failed)
  | abort failed => exact quiet (idle failed)
  | succeed running => rintro (state | ⟨_, state | state⟩) <;> cases state
  | block failedTaskId pending => rintro (state | ⟨_, state | state⟩) <;> cases state

/-- The threads that assign a state to a failed task retry it. -/
theorem AcceptedEngine.TaskOk.not_failed {view : TaskView} {pc : Pc}
    (ok : engine.TaskOk env taskId view pc) (assigns : pc.assigns = true)
    (noRetry : ∀ task attempt delay, pc ≠ .retry task attempt delay) :
    view.record.state ≠ .failed := by
  intro failed
  cases pc with
  | walk failedTaskId pendingVisit visited =>
      obtain ⟨_, ⟨at', _⟩ | at', _⟩ := ok
      · cases at'.state.symm.trans failed
      · cases at'.state.symm.trans failed
  | start task attempt =>
      have state := ok.2.2.state.symm.trans failed
      split at state <;> cases state
  | fail | succeed => cases ok.2.2.state.symm.trans failed
  | retry task attempt delay => exact noRetry task attempt delay rfl
  | _ => cases assigns

/-- Only the thread of a retry that overflows writes no instant, and it raises. -/
theorem AcceptedEngine.retried_advance {state : RunState} {pc : Pc}
    (ok : engine.TaskOk env taskId (state.view taskId) pc) (retried : Retried (state.view taskId))
    (returns : ∀ error, (engine.advance env taskId state pc).2 ≠ .raised error) :
    Retried ((engine.advance env taskId state pc).1.view taskId) := by
  by_cases isRetry : ∃ task attempt delay, pc = .retry task attempt delay
  · obtain ⟨task, attempt, delay, rfl⟩ := isRetry
    have marked := markRetrying_view env state taskId task attempt delay
    cases instant : env.arithmetic.retryAt (env.clock state.clockReads) delay with
    | ok result =>
        rw [instant] at marked
        obtain ⟨after, ran, view⟩ := marked
        have acted : (engine.act env taskId (.retry task attempt delay)).run state =
            .ok (.hookRetry task attempt delay) after := Exec.run_then ran _
        rw [advance_of_ok acted, view]
        exact fun _ => Option.some_ne_none _
    | error error =>
        rw [instant] at marked
        obtain ⟨after, ran, _⟩ := marked
        have acted : (engine.act env taskId (.retry task attempt delay)).run state =
            .error error after := Exec.run_raises ran _
        rw [advance_of_error acted] at returns
        exact absurd rfl (returns error)
  · refine retried.stamp (engine.advance_stamp ok taskId) fun failed => ?_
    cases quiet : pc.assigns with
    | false => exact (advance_of_respects (engine.act_sameStates env taskId quiet) state taskId).1
    | true =>
        refine absurd failed (ok.not_failed quiet fun task attempt delay same => ?_)
        exact isRetry ⟨task, attempt, delay, same⟩

/-- **A task that has been retried has an instant of a next attempt, unless its execution was
aborted.** -/
theorem Reachable.aborted_or_retried (run : engine.Steps env (engine.start env) machine)
    (taskId : String) : machine.Aborted taskId ∨ Retried (machine.shared.view taskId) := by
  induction run with
  | refl =>
      obtain ⟨shared, levels, same, _, _, views, _⟩ := start_eq engine env
      rw [same]
      refine .inr ?_
      rw [views]
      rintro (state | ⟨_, state | state⟩) <;> cases state
  | @tail machine next steps step ih =>
      have running := step.running
      cases step with
      | @work worker _ held unfinished =>
          have ok := (Reachable.steps steps).task_ok worker
          by_cases own : taskId = worker
          · subst own
            rw [Machine.Aborted, work_pcs_self]
            by_cases raises : ∃ error,
                (engine.advance env taskId machine.shared (machine.pcs taskId)).2 = .raised error
            · exact .inl raises
            · refine .inr (AcceptedEngine.retried_advance ok (ih.resolve_left ?_)
                (not_exists.mp raises))
              rintro ⟨error, atPc⟩
              rw [atPc] at unfinished
              cases unfinished
          · rw [Machine.Aborted, work_pcs_of_ne own]
            refine ih.imp_right fun retried =>
              retried.stamp (engine.advance_stamp ok taskId) fun failed => ?_
            rcases engine.advance_other env worker machine.shared (machine.pcs worker) (.inl own)
              with same | ⟨_, _, _, _, _, pending, _⟩
            · exact congrArg TaskView.record same
            · cases pending.symm.trans failed
      | finish _ drained idle last returned =>
          obtain ⟨after, ran, views, _⟩ :=
            (Reachable.steps steps).finishRun running drained idle last returned
          rw [WorkflowEngine.finish_of_ok ran]
          exact (views taskId).symm ▸ ih
      | _ => exact ih

/-- A task that has failed for good after a retry is not cleared. -/
theorem Reachable.not_cleared (run : engine.Steps env (engine.start env) machine)
    (returned : machine.status = .returned) (known : taskId ∈ engine.workflow.tasks)
    (outcome : engine.outcome env taskId = .failed) (retried : engine.maxAttempts taskId ≠ 1) :
    ¬ engine.Cleared machine.shared.run := by
  intro cleared
  have reachable := Reachable.steps run
  have result := reachable.isResult returned
  have settles := result.settles taskId known
  rw [AcceptedEngine.Settles, outcome] at settles
  have positive := engine.one_le_maxAttempts known
  have notAborted : ¬ machine.Aborted taskId := by
    rintro ⟨error, atPc⟩
    have stage := reachable.stage
    rw [Stage, returned] at stage
    rw [stage.1 taskId known] at atPc
    cases atPc
  refine (Reachable.aborted_or_retried run taskId).resolve_left notAborted
    (.inr ⟨by rw [settles.attempts]; omega, .inr settles.state⟩) ?_
  exact cleared taskId ((result.recorded taskId).mpr known)
    (.inr (.inr ⟨settles.state, settles.attempts⟩))

/-- **The instant of a next attempt is set only while the attempt is to come if no task fails
for good after a retry, and in a run that has returned only if none does.** -/
theorem clearsRetries_iff (engine : AcceptedEngine) (env : Env) {machine : Machine}
    (run : engine.Steps env (engine.start env) machine) :
    (engine.ExhaustsAtOnce env → engine.ClearsRetries machine) ∧
      (machine.status = .returned →
        (engine.ClearsRetries machine ↔ engine.ExhaustsAtOnce env)) := by
  have enough : engine.ExhaustsAtOnce env → engine.ClearsRetries machine := fun condition =>
    ⟨Reachable.hooks_clearsAt condition run, fun _ => Reachable.cleared run condition⟩
  refine ⟨enough, fun returned => ⟨fun clears taskId known reached fails => ?_, enough⟩⟩
  by_contra retried
  exact Reachable.not_cleared run returned known
    (AcceptedEngine.outcome_eq_failed_iff_reached.mpr ⟨reached, fails⟩) retried
    (clears.returned returned)

/-- A task that recovers after a retry, and one after it that fails at its only attempt. -/
def brewing : AcceptedEngine where
  workflow :=
    { workflowId := "brewing"
      tasks := ⟨[("brew", { taskId := "brew", maxAttempts := 12
                            one_le_maxAttempts := by decide, taskId_valid := by decide }),
        ("pour", { taskId := "pour", taskId_valid := by decide })], by decide⟩
      dependencies := ⟨[("pour", {"brew"})], by decide⟩ }
  tasks := ⟨[("brew", raisesUpTo 1), ("pour", raisesUpTo 1)], by decide⟩
  valid := Workflow.validateGraph_eq_nil_iff_valid.mp (by decide +kernel)
  mem_tasks := mem_iff_of_callables (by decide +kernel) (by decide +kernel)
  one_le_maxWorkers := one_le_default_maxWorkers

theorem brewing_exhaustsAtOnce : brewing.ExhaustsAtOnce { runId := "run" } := by
  intro taskId known _ fails
  have member : taskId ∈ ["brew", "pour"] := known
  simp only [List.mem_cons, List.not_mem_nil, or_false] at member
  rcases member with rfl | rfl
  · have recovers : brewing.Succeeds { runId := "run" } "brew" 2 := ⟨raisesUpTo 1, rfl, rfl⟩
    exact absurd recovers (fails 2 (by decide) (by decide +kernel))
  · rfl

/-- The first task is retried once, and the failure of the second one is final. -/
theorem clearsRetries_brewing : ∃ machine,
    brewing.replay { runId := "run" } (brewing.start { runId := "run" })
      (.submit :: wholeJob "brew" 23 ++ .submit :: wholeJob "pour" 16 ++ [.finish]) =
      some machine ∧
    machine.status = .returned ∧ machine.stateOf "brew" = .success ∧
    machine.attemptsOf "brew" = 2 ∧ machine.stateOf "pour" = .failed ∧
    brewing.ClearsRetries machine := by
  have shown : (brewing.replay { runId := "run" } (brewing.start { runId := "run" })
      (.submit :: wholeJob "brew" 23 ++ .submit :: wholeJob "pour" 16 ++ [.finish])).map
        (fun machine => (machine.status, machine.stateOf "brew", machine.attemptsOf "brew",
          machine.stateOf "pour")) = some (.returned, .success, 2, .failed) := by
    decide +kernel
  obtain ⟨machine, replayed, shows⟩ := Option.map_eq_some_iff.mp shown
  simp only [Prod.mk.injEq] at shows
  obtain ⟨returned, recovered, attempts, failed⟩ := shows
  exact ⟨machine, replayed, returned, recovered, attempts, failed,
    (clearsRetries_iff brewing { runId := "run" } (steps_of_replay _ _ replayed)).1
      brewing_exhaustsAtOnce⟩

/-- A task that has failed for good after a retry keeps the instant of this retry. -/
theorem exhausted_keeps_retry : ∃ machine,
    (pipeline 2 (by decide)).Steps { runId := "run" }
      ((pipeline 2 (by decide)).start { runId := "run" }) machine ∧
    machine.status = .returned ∧ machine.stateOf "transform" = .failed ∧
    machine.attemptsOf "transform" = (pipeline 2 (by decide)).maxAttempts "transform" ∧
    (machine.shared.recordOf "transform").nextRetryAt = some 0 ∧
    ¬ (pipeline 2 (by decide)).ClearsRetries machine := by
  have shown : ((pipeline 2 (by decide)).replay { runId := "run" }
      ((pipeline 2 (by decide)).start { runId := "run" }) pipelineChoices).map (fun machine =>
        (machine.status, machine.stateOf "transform", machine.attemptsOf "transform",
          (machine.shared.recordOf "transform").nextRetryAt,
          decide ("transform" ∈ machine.shared.run.records))) =
      some (.returned, .failed, 2, some 0, true) := by decide +kernel
  obtain ⟨machine, replayed, shows⟩ := Option.map_eq_some_iff.mp shown
  simp only [Prod.mk.injEq, decide_eq_true_eq] at shows
  obtain ⟨returned, failed, attempts, instant, recorded⟩ := shows
  refine ⟨machine, steps_of_replay _ _ replayed, returned, failed, attempts, instant,
    fun clears => ?_⟩
  have cleared := clears.returned returned "transform" recorded
    (.inr (.inr ⟨failed, attempts⟩))
  cases cleared.symm.trans instant

end EtlOrchestrator
