import EtlOrchestrator.Engine.FinalRecords
import EtlOrchestrator.Engine.Sequential

/-!
# The delays between attempts

The delays that a run passes to the sleeper and to `on_task_retry`. With exact
arithmetic the delays of a task are the first terms of its geometric sequence, one
for each failed attempt that another one follows, and the sleeper is given those
that are positive. In a sequential run the sleeper is given them task by task, in
topological order.
-/

set_option autoImplicit false

namespace EtlOrchestrator

open WorkflowEngine

/-! ## Delays -/

/-- The delays after the first failed attempts of a task. -/
def Task.backoffDelays (task : Task) (retries : ℕ) : List ℚ :=
  (List.range retries).map fun i => task.backoffSeconds * task.backoffMultiplier ^ i

namespace Task

variable (task : Task)

theorem backoffDelays_concat {attempt : ℕ} (positive : 1 ≤ attempt) :
    task.backoffDelays attempt =
      task.backoffDelays (attempt - 1) ++ [task.backoffDelay attempt] := by
  obtain ⟨earlier, rfl⟩ := Nat.exists_eq_add_of_le' positive
  rw [backoffDelays, List.range_succ, List.map_append]
  rfl

theorem backoffDelay_nonneg (failedAttempt : ℕ) : 0 ≤ task.backoffDelay failedAttempt := by
  have multiplier : (0 : ℚ) ≤ task.backoffMultiplier :=
    zero_le_one.trans task.one_le_backoffMultiplier
  exact mul_nonneg task.backoffSeconds_nonneg (pow_nonneg multiplier _)

/-- The delays of a task never decrease. -/
theorem backoffDelays_pairwise (retries : ℕ) :
    (task.backoffDelays retries).Pairwise (· ≤ ·) := by
  rw [backoffDelays, List.pairwise_map]
  refine List.pairwise_lt_range.imp fun {earlier later} before => ?_
  exact mul_le_mul_of_nonneg_left
    (pow_le_pow_right₀ task.one_le_backoffMultiplier before.le) task.backoffSeconds_nonneg

/-- The positive delays are those that are not zero. -/
theorem filter_backoffDelays (retries : ℕ) :
    (task.backoffDelays retries).filter (fun delay => 0 < delay) =
      (task.backoffDelays retries).filter fun delay => delay ≠ 0 := by
  refine List.filter_congr fun delay member => ?_
  obtain ⟨i, _, rfl⟩ := List.mem_map.mp member
  have nonneg := task.backoffDelay_nonneg (i + 1)
  exact decide_eq_decide.mpr nonneg.lt_iff_ne'

end Task

/-- The delays after the first failed attempts of a task of a workflow. -/
def WorkflowEngine.backoffDelays (engine : WorkflowEngine) (taskId : String) (retries : ℕ) :
    List ℚ :=
  (engine.workflow.tasks.get? taskId).elim [] fun task => task.backoffDelays retries

/-! ## Sleeps and retries of a run -/

/-- No entry about the workflow is a sleep. -/
theorem Event.sleep?_of_workflow (event : Event) (ofWorkflow : event.isOfWorkflow = true) :
    event.sleep? = none := by
  cases event with
  | slept => cases ofWorkflow
  | _ => rfl

/-- The delay that `on_task_retry` is given for a task. -/
def HookCall.retryDelay? (taskId : String) : HookCall → Option ℚ
  | taskRetry _ record delay => if record.taskId = taskId then some delay else none
  | _ => none

namespace RunState

/-- The delays passed to the sleeper so far, in order, with their tasks. -/
def sleeps (state : RunState) : List (String × ℚ) := state.events.filterMap Event.sleep?

/-- The delays passed to the sleeper for a task. -/
def sleepsFor (state : RunState) (taskId : String) : List ℚ :=
  (state.sleeps.filter fun sleep => sleep.1 = taskId).map Prod.snd

/-- The delays that `on_task_retry` was given for a task. -/
def retryDelays (state : RunState) (taskId : String) : List ℚ :=
  state.hooks.filterMap (HookCall.retryDelay? taskId)

end RunState

/-! ## The sleeps of a step -/

/-- The delay that a step passes to the sleeper. -/
def Pc.sleep? : Pc → Option ℚ
  | sleep _ _ delay => if 0 < delay then some delay else none
  | _ => none

/-- Only the wait after a failed attempt calls the sleeper. -/
theorem WorkflowEngine.act_sameSleeps (engine : WorkflowEngine) (env : Env) (taskId : String)
    {pc : Pc} (awake : ¬ pc.Allows .sleep) :
    Respects (SameTrace Event.sleep?) (engine.act env taskId pc) :=
  (engine.act_makes env taskId pc).of_closure fun _ _ =>
    SameTrace.of_change Event.sleep?_of_kind awake

variable {engine : AcceptedEngine} {env : Env} {taskId : String} {state : RunState} {pc : Pc}

/-- A step passes its delay to the sleeper, if it has one. -/
theorem WorkflowEngine.advance_sleeps (engine : WorkflowEngine) (env : Env) (taskId : String)
    (state : RunState) (pc : Pc) : (engine.advance env taskId state pc).1.sleeps =
      state.sleeps ++ pc.sleep?.toList.map (Prod.mk taskId) := by
  by_cases awake : pc.Allows .sleep
  · cases pc with
    | sleep task attempt delay =>
        by_cases positive : 0 < delay
        · have acted : (engine.act env taskId (.sleep task attempt delay)).run state =
              .ok (.checkStart task (attempt + 1)) (state.emit (.slept taskId delay)) := by
            simp only [act, WorkflowEngine.sleep, if_pos positive, EStateM.run_bind,
              Exec.run_emit, EStateM.run_pure]
          rw [advance_of_ok acted, Pc.sleep?, if_pos positive, RunState.sleeps, RunState.emit,
            List.filterMap_append]
          rfl
        · have acted : (engine.act env taskId (.sleep task attempt delay)).run state =
              .ok (.checkStart task (attempt + 1)) state := by
            simp only [act, WorkflowEngine.sleep, if_neg positive, EStateM.run_bind,
              EStateM.run_pure]
          rw [advance_of_ok acted, Pc.sleep?, if_neg positive]
          exact (List.append_nil _).symm
    | _ => exact awake.elim
  · have quiet : pc.sleep? = none := by
      cases pc with
      | sleep => exact absurd trivial awake
      | _ => rfl
    rw [quiet, Option.toList_none, List.map_nil, List.append_nil]
    exact advance_of_respects (engine.act_sameSleeps env taskId awake) state

/-! ## The retries of a step -/

/-- Only a stamp of a start counts an attempt. -/
theorem Stamp.attempts_eq {now : ℚ} {view after : TaskView} (stamp : Stamp now view after)
    (started : ¬ (view.record.state = .pending ∨ view.record.state = .retrying)) :
    after.record.attempts = view.record.attempts := by
  cases stamp with
  | keep record => rw [record]
  | start waiting => exact absurd (waiting.imp_left And.left) started
  | _ => rfl

theorem WorkflowEngine.backoffDelays_of_known {engine : WorkflowEngine} {task : Task}
    (found : engine.workflow.tasks.get? taskId = some task) (retries : ℕ) :
    engine.backoffDelays taskId retries = task.backoffDelays retries := by
  rw [WorkflowEngine.backoffDelays, found]
  rfl

theorem WorkflowEngine.backoffDelays_concat {engine : WorkflowEngine} {task : Task}
    (found : engine.workflow.tasks.get? taskId = some task) {attempt : ℕ}
    (positive : 1 ≤ attempt) : engine.backoffDelays taskId attempt =
      engine.backoffDelays taskId (attempt - 1) ++ [task.backoffDelay attempt] := by
  rw [backoffDelays_of_known found, backoffDelays_of_known found]
  exact task.backoffDelays_concat positive

theorem WorkflowEngine.backoffDelays_zero (engine : WorkflowEngine) (taskId : String) :
    engine.backoffDelays taskId 0 = [] := by
  rw [WorkflowEngine.backoffDelays]
  cases engine.workflow.tasks.get? taskId with
  | none => rfl
  | some task => rfl

/-- The delay that a step gives to `on_task_retry`. -/
def Pc.retry? : Pc → Option ℚ
  | hookRetry _ _ delay => some delay
  | _ => none

/-- The delays shown for a task grow by those of the steps of its own thread. -/
theorem WorkflowEngine.advance_retryDelays (engine : WorkflowEngine) (env : Env) (taskId : String)
    (keyed : state.run.Keyed) (pc : Pc) (other : String) :
    (engine.advance env taskId state pc).1.retryDelays other = state.retryDelays other ++
      if other = taskId then pc.retry?.toList else [] := by
  have own : (state.recordOf taskId).taskId = taskId := keyed.recordOf_taskId taskId
  rw [RunState.retryDelays, advance_hooks, List.filterMap_append, RunState.retryDelays]
  congr 1
  by_cases same : other = taskId
  · subst same
    rw [if_pos rfl]
    cases pc <;> simp [Pc.hookCall?, Pc.retry?, HookCall.retryDelay?, own]
  · rw [if_neg same]
    cases pc <;> simp [Pc.hookCall?, HookCall.retryDelay?, own, Ne.symm same]

theorem WorkflowEngine.advance_sleepsFor (engine : WorkflowEngine) (env : Env) (taskId : String)
    (state : RunState) (pc : Pc) (other : String) :
    (engine.advance env taskId state pc).1.sleepsFor other = state.sleepsFor other ++
      if other = taskId then pc.sleep?.toList else [] := by
  rw [RunState.sleepsFor, advance_sleeps, List.filter_append, List.map_append, RunState.sleepsFor]
  congr 1
  by_cases same : other = taskId
  · subst same
    rw [if_pos rfl]
    cases pc.sleep? <;> simp
  · rw [if_neg same]
    cases pc.sleep? <;> simp [Ne.symm same]

/-- The attempts of a record after a step of the thread of its task. -/
def Pc.attemptsAfter (attempts : ℕ) : Pc → ℕ
  | start _ attempt => attempt
  | _ => attempts

/-- **Only the start of an attempt counts one.** -/
theorem AcceptedEngine.advance_attempts (ok : engine.TaskOk env taskId (state.view taskId) pc) :
    ((engine.advance env taskId state pc).1.view taskId).record.attempts =
      pc.attemptsAfter (state.view taskId).record.attempts := by
  cases quiet : pc.assigns with
  | false =>
      have same := advance_of_respects (engine.act_sameStates env taskId quiet) state taskId
      rw [same.1]
      cases pc with
      | start => cases quiet
      | _ => rfl
  | true =>
      have stamp := engine.advance_stamp ok taskId
      cases pc with
      | walk failedTaskId toVisit visited =>
          have walks : ∃ source rest seen,
              Pc.walk failedTaskId toVisit visited = .walk source rest seen := ⟨_, _, _, rfl⟩
          rcases engine.advance_other env taskId state _ (.inr walks) with
            same | ⟨_, _, _, _, _, _, blocked⟩
          · rw [same]
            rfl
          · rw [blocked]
            rfl
      | start task attempt =>
          obtain ⟨after, ran, view⟩ := startAttempt_view env state taskId task attempt
          have acted : (engine.act env taskId (.start task attempt)).run state =
              .ok (.hookStart task attempt) after := Exec.run_then ran _
          rw [advance_of_ok acted, view]
          rfl
      | fail | succeed => exact stamp.attempts_eq (by simp [ok.2.2.state])
      | retry => exact stamp.attempts_eq (by simp [ok.2.2.2.2.state])
      | _ => cases quiet

/-- With exact arithmetic a retry sets the instant of the next attempt to the reading of
the clock and the delay. -/
theorem WorkflowEngine.advance_retry (engine : WorkflowEngine) (exact : env.arithmetic = .exact)
    (taskId : String) (state : RunState) (pc : Pc) (task : Task) (attempt : ℕ) (delay : ℚ)
    (atRetry : pc = .retry task attempt delay) :
    ((engine.advance env taskId state pc).1.view taskId).record.nextRetryAt =
      some (env.clock state.clockReads + delay) := by
  have marked := markRetrying_view env state taskId task attempt delay
  have instant : env.arithmetic.retryAt (env.clock state.clockReads) delay =
      .ok (env.clock state.clockReads + delay) := by
    rw [exact]
    rfl
  rw [instant] at marked
  obtain ⟨after, ran, view⟩ := marked
  have acted : (engine.act env taskId (.retry task attempt delay)).run state =
      .ok (.hookRetry task attempt delay) after := Exec.run_then ran _
  rw [atRetry, advance_of_ok acted, view]
  rfl

/-- Every other step leaves the instants of the next attempts alone, or clears one. -/
theorem AcceptedEngine.advance_nextRetryAt {other : String}
    (ok : engine.TaskOk env taskId (state.view taskId) pc)
    (apart : other ≠ taskId ∨ ∀ task attempt delay, pc ≠ .retry task attempt delay) :
    ((engine.advance env taskId state pc).1.view other).record.nextRetryAt =
        (state.view other).record.nextRetryAt ∨
      ((engine.advance env taskId state pc).1.view other).record.nextRetryAt = none := by
  by_cases own : other = taskId
  · subst own
    have noRetry := apart.resolve_left fun different => different rfl
    cases quiet : pc.assigns with
    | false =>
        have same := advance_of_respects (engine.act_sameStates env other quiet) state other
        exact .inl (congrArg TaskRunRecord.nextRetryAt same.1)
    | true =>
        have notFailed := ok.not_failed quiet noRetry
        have stamp := engine.advance_stamp ok other
        generalize (engine.advance env other state pc).1.view other = after at stamp ⊢
        cases stamp with
        | keep record => exact .inl (congrArg TaskRunRecord.nextRetryAt record)
        | retry instant failed => exact absurd failed notFailed
        | abort failed => exact absurd failed notFailed
        | succeed running => exact .inr rfl
        | _ => exact .inl rfl
  · rcases engine.advance_other env taskId state pc (.inl own) with
      same | ⟨_, _, _, _, _, _, blocked⟩
    · exact .inl (by rw [same])
    · refine .inl ?_
      rw [blocked]
      rfl

/-! ## The delays at a program point -/

namespace Pc

/-- How many delays of a task were shown to `on_task_retry`. -/
def retriesShown (attempts : ℕ) : Pc → ℕ
  | checkStart _ _ | start _ _ | sleep _ _ _ => attempts
  | _ => attempts - 1

/-- How many delays of a task have been waited out. -/
def retriesSlept (attempts : ℕ) : Pc → ℕ
  | checkStart _ _ | start _ _ => attempts
  | _ => attempts - 1

end Pc

/-- The delays of a task at a program point of its thread. -/
structure BackoffOk (engine : WorkflowEngine) (env : Env) (taskId : String) (state : RunState)
    (pc : Pc) : Prop where
  shown : state.retryDelays taskId =
    engine.backoffDelays taskId (pc.retriesShown (state.view taskId).record.attempts)
  slept : state.sleepsFor taskId =
    (engine.backoffDelays taskId (pc.retriesSlept (state.view taskId).record.attempts)).filter
      fun delay => 0 < delay
  carried : match pc with
    | .hookRetry task attempt delay => delay = task.backoffDelay attempt ∧
        ∃ reading, (state.view taskId).record.nextRetryAt = some (env.clock reading + delay)
    | .sleep task attempt delay => delay = task.backoffDelay attempt
    | _ => True

namespace BackoffOk

/-- A step that shows no delay and waits for none goes to a program point with as many. -/
theorem of_quiet (backoff : BackoffOk engine.toWorkflowEngine env taskId state pc)
    {after : RunState} {next : Pc} (delays : after.retryDelays taskId = state.retryDelays taskId)
    (sleeps : after.sleepsFor taskId = state.sleepsFor taskId)
    (shown : next.retriesShown (after.view taskId).record.attempts =
      pc.retriesShown (state.view taskId).record.attempts)
    (slept : next.retriesSlept (after.view taskId).record.attempts =
      pc.retriesSlept (state.view taskId).record.attempts)
    (notRetried : ∀ task attempt delay, next ≠ .hookRetry task attempt delay)
    (notSlept : ∀ task attempt delay, next ≠ .sleep task attempt delay) :
    BackoffOk engine.toWorkflowEngine env taskId after next := by
  refine ⟨?_, ?_, ?_⟩
  · rw [delays, shown]
    exact backoff.shown
  · rw [sleeps, slept]
    exact backoff.slept
  · cases next with
    | hookRetry task attempt delay => exact absurd rfl (notRetried task attempt delay)
    | sleep task attempt delay => exact absurd rfl (notSlept task attempt delay)
    | _ => trivial

/-- **A step of its thread keeps the delays of a task.** -/
theorem advance (exact : env.arithmetic = .exact)
    (ok : engine.TaskOk env taskId (state.view taskId) pc)
    (backoff : BackoffOk engine.toWorkflowEngine env taskId state pc) (keyed : state.run.Keyed)
    (returns : ∀ error, (engine.advance env taskId state pc).2 ≠ .raised error) :
    BackoffOk engine.toWorkflowEngine env taskId (engine.advance env taskId state pc).1
      (engine.advance env taskId state pc).2 := by
  have delays := engine.advance_retryDelays env taskId keyed pc taskId
  have sleeps := engine.advance_sleepsFor env taskId state pc taskId
  have attempts := AcceptedEngine.advance_attempts ok
  have marked := engine.advance_retry exact taskId state pc
  rw [if_pos rfl] at delays sleeps
  have leads := (engine.advance_leads env taskId state pc).resolve_right fun raised =>
    raised.elim returns
  generalize engine.advance env taskId state pc = reached at *
  obtain ⟨after, next⟩ := reached
  dsimp only at *
  -- Most steps show no delay, and keep the number of the attempts.
  have quiet : pc.retry? = none → pc.sleep? = none →
      next.retriesShown (pc.attemptsAfter (state.view taskId).record.attempts) =
        pc.retriesShown (state.view taskId).record.attempts →
      next.retriesSlept (pc.attemptsAfter (state.view taskId).record.attempts) =
        pc.retriesSlept (state.view taskId).record.attempts →
      (∀ task attempt delay, next ≠ .hookRetry task attempt delay) →
      (∀ task attempt delay, next ≠ .sleep task attempt delay) →
      BackoffOk engine.toWorkflowEngine env taskId after next := by
    intro noRetry noSleep shown slept
    rw [noRetry, Option.toList_none, List.append_nil] at delays
    rw [noSleep, Option.toList_none, List.append_nil] at sleeps
    rw [← attempts] at shown slept
    exact backoff.of_quiet delays sleeps shown slept
  cases leads with
  | define task attempt =>
      have fresh := ok.2.1.attempts
      exact quiet rfl rfl (by simp [Pc.retriesShown, Pc.attemptsAfter, fresh])
        (by simp [Pc.retriesSlept, Pc.attemptsAfter, fresh]) (by simp) (by simp)
  | start task attempt =>
      have before := ok.2.2.attempts
      exact quiet rfl rfl before.symm before.symm (by simp) (by simp)
  | retry task attempt delay =>
      have computed := ok.2.2.2.1
      rw [exact] at computed
      have instant := marked task attempt delay rfl
      refine ⟨?_, ?_, (Except.ok.inj computed).symm, state.clockReads, instant⟩
      · rw [delays, attempts, backoff.shown]
        exact List.append_nil _
      · rw [sleeps, attempts, backoff.slept]
        exact List.append_nil _
  | hookRetry task attempt delay =>
      obtain ⟨_, failing, _, at'⟩ := ok
      obtain ⟨rfl, _⟩ := backoff.carried
      refine ⟨?_, ?_, rfl⟩
      · rw [delays, attempts, backoff.shown, at'.attempts]
        exact (backoffDelays_concat failing.defined failing.positive).symm
      · rw [sleeps, attempts, backoff.slept]
        exact List.append_nil _
  | sleep task attempt delay =>
      obtain ⟨_, failing, _, at'⟩ := ok
      obtain rfl := backoff.carried
      refine ⟨?_, ?_, trivial⟩
      · rw [delays, attempts, backoff.shown]
        exact List.append_nil _
      · rw [sleeps, attempts, backoff.slept, at'.attempts]
        have concat := backoffDelays_concat failing.defined failing.positive
        by_cases positive : 0 < task.backoffDelay attempt <;>
          simp [Pc.retriesSlept, Pc.attemptsAfter, Pc.sleep?, concat, positive]
  | _ => exact quiet rfl rfl rfl rfl (by simp) (by simp)

/-- What a step does not show of a task keeps its delays. -/
theorem congr (backoff : BackoffOk engine.toWorkflowEngine env taskId state pc) {after : RunState}
    (delays : after.retryDelays taskId = state.retryDelays taskId)
    (sleeps : after.sleepsFor taskId = state.sleepsFor taskId)
    (attempts : (after.view taskId).record.attempts = (state.view taskId).record.attempts)
    (nextRetryAt : (after.view taskId).record.nextRetryAt =
      (state.view taskId).record.nextRetryAt) :
    BackoffOk engine.toWorkflowEngine env taskId after pc := by
  obtain ⟨shown, slept, carried⟩ := backoff
  rw [← delays, ← attempts] at shown
  rw [← sleeps, ← attempts] at slept
  rw [← nextRetryAt] at carried
  exact ⟨shown, slept, carried⟩

/-- A step of another thread keeps the delays of a task. -/
theorem advance_of_ne {other : String} (different : other ≠ taskId) {otherPc : Pc}
    (backoff : BackoffOk engine.toWorkflowEngine env other state otherPc)
    (keyed : state.run.Keyed) :
    BackoffOk engine.toWorkflowEngine env other (engine.advance env taskId state pc).1 otherPc := by
  have delays := engine.advance_retryDelays env taskId keyed pc other
  have sleeps := engine.advance_sleepsFor env taskId state pc other
  rw [if_neg different, List.append_nil] at delays sleeps
  rcases engine.advance_other env taskId state pc (.inl different) with
    same | ⟨_, _, _, _, _, _, blocked⟩
  · exact backoff.congr delays sleeps (by rw [same]) (by rw [same])
  · refine backoff.congr delays sleeps ?_ ?_
    · rw [blocked]
      rfl
    · rw [blocked]
      rfl

end BackoffOk

/-! ## Runs -/

/-- What the delays of a reachable state show. -/
structure BackoffTrace (engine : WorkflowEngine) (env : Env) (machine : Machine) : Prop where
  tasks : ∀ taskId, BackoffOk engine env taskId machine.shared (machine.pcs taskId)
  announced : ∀ run record delay, .taskRetry run record delay ∈ machine.shared.hooks →
    ∃ reading, record.nextRetryAt = some (env.clock reading + delay)

namespace BackoffTrace

variable {machine : Machine}

theorem start (engine : AcceptedEngine) (env : Env) :
    BackoffTrace engine.toWorkflowEngine env (engine.start env) := by
  obtain ⟨shared, levels, same, _, began, views, _⟩ := start_eq engine env
  obtain ⟨other, otherBegan, hooks⟩ := engine.beginRun_hooks env
  rw [began] at otherBegan
  cases otherBegan
  obtain ⟨other, otherBegan, ofWorkflow⟩ := engine.beginRun_events env
  rw [began] at otherBegan
  cases otherBegan
  have noSleeps : shared.sleeps = [] :=
    RunState.filterMap_eq_nil_of_workflow Event.sleep?_of_workflow ofWorkflow
  rw [same]
  refine ⟨fun taskId => ⟨?_, ?_, trivial⟩, fun run record delay member => ?_⟩
  · dsimp only
    rw [RunState.retryDelays, hooks, views]
    exact (engine.backoffDelays_zero taskId).symm
  · dsimp only
    rw [RunState.sleepsFor, noSleeps, views]
    exact (congrArg (List.filter _) (engine.backoffDelays_zero taskId)).symm
  · dsimp only at member
    rw [hooks] at member
    cases List.mem_singleton.mp member

/-- **A step of a worker keeps the delays in shape.** -/
theorem work (exact : env.arithmetic = .exact)
    (trace : BackoffTrace engine.toWorkflowEngine env machine)
    (ok : engine.TaskOk env taskId (machine.shared.view taskId) (machine.pcs taskId))
    (keyed : machine.shared.run.Keyed)
    (returns : ∀ error,
      (engine.advance env taskId machine.shared (machine.pcs taskId)).2 ≠ .raised error) :
    BackoffTrace engine.toWorkflowEngine env (engine.work env machine taskId) := by
  refine ⟨fun other => ?_, fun run record delay member => ?_⟩
  · by_cases same : other = taskId
    · subst same
      rw [work_pcs_self]
      exact (trace.tasks other).advance exact ok keyed returns
    · rw [work_pcs_of_ne same]
      exact (trace.tasks other).advance_of_ne same keyed
  · rw [show (engine.work env machine taskId).shared.hooks = _ from
      engine.advance_hooks env taskId machine.shared (machine.pcs taskId)] at member
    rcases List.mem_append.mp member with old | new
    · exact trace.announced run record delay old
    · -- The thread of the task stands at the call of the hook.
      have carried := (trace.tasks taskId).carried
      cases atPc : machine.pcs taskId with
      | hookRetry task attempt ownDelay =>
          rw [atPc] at new carried
          cases List.mem_singleton.mp new
          exact carried.2
      | hookStart | hookFailure | hookSuccess =>
          rw [atPc] at new
          cases List.mem_singleton.mp new
      | _ =>
          rw [atPc] at new
          cases new

/-- **The delays are in shape in every state of every run.** -/
theorem steps (exact : env.arithmetic = .exact)
    (run : engine.Steps env (engine.start env) machine) :
    BackoffTrace engine.toWorkflowEngine env machine := by
  induction run with
  | refl => exact .start engine env
  | @tail machine next steps step ih =>
      have reachable := Reachable.steps steps
      have keyed := (RunIdentity.steps steps).keyed
      have noOverflow : engine.NoOverflow env := noOverflow_exact _ exact
      cases step with
      | @work taskId running held unfinished =>
          refine ih.work exact (reachable.task_ok taskId) keyed fun error raised => ?_
          have aborted : (engine.work env machine taskId).Aborted taskId :=
            ⟨error, (work_pcs_self machine).trans raised⟩
          exact (reachable.step (.work running held unfinished)).not_aborted noOverflow _ aborted
      | finish running drained idle last returned =>
          obtain ⟨after, ran, views, _⟩ := reachable.finishRun running drained idle last returned
          have hooks := finishRun_hooks ran
          obtain ⟨own, added, ofWorkflow⟩ := (finishRun_addsOfWorkflow env).of_ok ran
          have sleeps : after.sleeps = machine.shared.sleeps := by
            rw [RunState.sleeps, added, List.filterMap_append,
              RunState.filterMap_eq_nil_of_workflow Event.sleep?_of_workflow ofWorkflow]
            exact List.append_nil _
          rw [finish_of_ok ran]
          refine ⟨fun taskId => (ih.tasks taskId).congr ?_ ?_ ?_ ?_,
            fun run record delay member => ?_⟩
          · rw [RunState.retryDelays, hooks, List.filterMap_append]
            exact List.append_nil _
          · rw [RunState.sleepsFor, sleeps, RunState.sleepsFor]
          · rw [views]
          · rw [views]
          · dsimp only at member
            rw [hooks] at member
            rcases List.mem_append.mp member with old | last
            · exact ih.announced run record delay old
            · cases List.mem_singleton.mp last
      | _ => exact ⟨ih.tasks, ih.announced⟩

end BackoffTrace

/-! ## The law -/

/-- What a run with exact arithmetic has shown of its delays when it returns. -/
structure BackoffLaw (engine : WorkflowEngine) (env : Env) (order : List String)
    (machine : Machine) : Prop where
  executed : CallsInOrder order machine.shared
  retried : ∀ taskId attempt, 1 ≤ attempt → attempt < machine.attemptsOf taskId →
    ¬ engine.Succeeds env taskId attempt
  slept : machine.shared.sleeps.map Prod.snd = order.flatMap fun taskId =>
    (engine.backoffDelays taskId (machine.attemptsOf taskId - 1)).filter fun delay => delay ≠ 0
  shown : ∀ taskId, machine.shared.retryDelays taskId =
    engine.backoffDelays taskId (machine.attemptsOf taskId - 1)
  announced : ∀ run record delay, .taskRetry run record delay ∈ machine.shared.hooks →
    ∃ reading, record.nextRetryAt = some (env.clock reading + delay)
  growing : ∀ taskId, (machine.shared.retryDelays taskId).Pairwise (· ≤ ·) ∧
    (machine.shared.sleepsFor taskId).Pairwise (· ≤ ·)

/-- A step sets the instant of a next attempt to the reading of the clock and the delay
after the attempt, and no other one. -/
def RetriesOnTime (engine : WorkflowEngine) (env : Env) (machine next : Machine) : Prop :=
  ∀ taskId instant, (next.shared.recordOf taskId).nextRetryAt = some instant →
    (machine.shared.recordOf taskId).nextRetryAt = some instant ∨
      ∃ task, engine.workflow.tasks.get? taskId = some task ∧
        instant = machine.now env + task.backoffDelay (machine.attemptsOf taskId)

variable {machine next : Machine}

/-- The attempts of a task before its last one have failed. -/
theorem Reachable.not_succeeds (reachable : Reachable engine env machine)
    (returned : machine.status = .returned) {attempt : ℕ} (positive : 1 ≤ attempt)
    (before : attempt < machine.attemptsOf taskId) : ¬ engine.Succeeds env taskId attempt := by
  by_cases known : taskId ∈ engine.workflow.tasks
  · have settles := (reachable.isResult returned).settles taskId known
    rw [AcceptedEngine.Settles] at settles
    cases outcome : engine.outcome env taskId with
    | value last =>
        rw [outcome] at settles
        have first := (AcceptedEngine.outcome_eq_value_iff.mp outcome).2
        exact first.earlier attempt positive (before.trans_eq settles.attempts)
    | failed =>
        rw [outcome] at settles
        have failing := (AcceptedEngine.outcome_eq_failed_iff.mp outcome).2
        exact failing attempt positive (before.trans_eq settles.attempts).le
    | blocked =>
        rw [outcome] at settles
        exact absurd (before.trans_eq settles.attempts) (Nat.not_lt_zero _)
  · rcases reachable.waiting_of_unknown known with at' | ⟨at', _⟩ <;>
      exact absurd (before.trans_eq at'.attempts) (Nat.not_lt_zero _)

/-- When a run has returned, a task has been shown and has waited for one delay less than it
has attempts. -/
theorem BackoffTrace.of_returned (trace : BackoffTrace engine.toWorkflowEngine env machine)
    (reachable : Reachable engine env machine) (returned : machine.status = .returned)
    (taskId : String) :
    machine.shared.retryDelays taskId =
        engine.backoffDelays taskId (machine.attemptsOf taskId - 1) ∧
      machine.shared.sleepsFor taskId =
        (engine.backoffDelays taskId (machine.attemptsOf taskId - 1)).filter
          fun delay => 0 < delay := by
  have stage := reachable.stage
  rw [Stage, returned] at stage
  have backoff := trace.tasks taskId
  by_cases known : taskId ∈ engine.workflow.tasks
  · rw [stage.1 taskId known] at backoff
    exact ⟨backoff.shown, backoff.slept⟩
  · rw [reachable.pc_of_unknown known] at backoff
    exact ⟨backoff.shown, backoff.slept⟩

theorem WorkflowEngine.backoffDelays_pairwise (engine : WorkflowEngine) (taskId : String)
    (retries : ℕ) : (engine.backoffDelays taskId retries).Pairwise (· ≤ ·) := by
  rw [WorkflowEngine.backoffDelays]
  cases engine.workflow.tasks.get? taskId with
  | none => exact List.Pairwise.nil
  | some task => exact task.backoffDelays_pairwise retries

theorem WorkflowEngine.filter_backoffDelays (engine : WorkflowEngine) (taskId : String)
    (retries : ℕ) : (engine.backoffDelays taskId retries).filter (fun delay => 0 < delay) =
      (engine.backoffDelays taskId retries).filter fun delay => delay ≠ 0 := by
  rw [WorkflowEngine.backoffDelays]
  cases engine.workflow.tasks.get? taskId with
  | none => rfl
  | some task => exact task.filter_backoffDelays retries

/-- In a sequential run the sleeps come task by task, in topological order. -/
theorem sleeps_in_order (one : engine.maxWorkers = 1) {order : List String}
    (computed : engine.topologicalOrder = .ok order)
    (run : engine.Steps env (engine.start env) machine) : ∃ earlier,
    order = earlier ++ machine.jobs ++ machine.levels.flatten ∧
      Grouped Prod.fst (earlier ++ machine.jobs) machine.shared.sleeps := by
  refine grouped_in_order Prod.fst Event.sleep?_of_workflow (fun {machine taskId} _ => ?_) one
    computed run
  refine ⟨_, engine.advance_sleeps env taskId machine.shared (machine.pcs taskId), ?_⟩
  intro sleep member
  obtain ⟨delay, _, rfl⟩ := List.mem_map.mp member
  rfl

/-- **A sequential run that has returned obeys the law of the delays.** -/
theorem backoffLaw_of_returned (exact : env.arithmetic = .exact) (one : engine.maxWorkers = 1)
    {order : List String} (computed : engine.topologicalOrder = .ok order)
    (run : engine.Steps env (engine.start env) machine) (returned : machine.status = .returned) :
    BackoffLaw engine.toWorkflowEngine env order machine := by
  have reachable := Reachable.steps run
  have trace := BackoffTrace.steps exact run
  have delays := trace.of_returned reachable returned
  have last := reachable.levels_of_returned returned
  refine ⟨?_, fun _ _ => reachable.not_succeeds returned, ?_, fun taskId => (delays taskId).1,
    trace.announced, fun taskId => ?_⟩
  · obtain ⟨earlier, split, inOrder⟩ := calls_in_order one computed run
    rw [last, List.append_nil] at split
    exact split ▸ inOrder
  · obtain ⟨earlier, split, grouped⟩ := sleeps_in_order one computed run
    rw [last, List.append_nil] at split
    rw [split]
    refine grouped.map_eq fun taskId _ => ?_
    rw [← WorkflowEngine.filter_backoffDelays]
    exact (delays taskId).2
  · rw [(delays taskId).1, (delays taskId).2]
    exact ⟨engine.backoffDelays_pairwise _ _, (engine.backoffDelays_pairwise _ _).filter _⟩

/-- **Every instant of a next attempt is set on time.** -/
theorem Reachable.retriesOnTime (reachable : Reachable engine env machine)
    (exact : env.arithmetic = .exact) (step : engine.Step env machine next) :
    RetriesOnTime engine.toWorkflowEngine env machine next := by
  intro taskId instant set
  cases step with
  | @work worker running held unfinished =>
      have ok := reachable.task_ok worker
      by_cases retries : taskId = worker ∧
          ∃ task attempt delay, machine.pcs worker = .retry task attempt delay
      · obtain ⟨rfl, task, attempt, delay, atPc⟩ := retries
        have marked := engine.advance_retry exact taskId machine.shared (machine.pcs taskId) task
          attempt delay atPc
        rw [atPc] at ok
        obtain ⟨_, failing, _, computed, at'⟩ := ok
        rw [exact] at computed
        refine .inr ⟨task, failing.defined, ?_⟩
        rw [Machine.attemptsOf, RunState.recordOf_eq, at'.attempts]
        exact (Option.some.inj (marked.symm.trans set)).symm.trans
          (congrArg (machine.now env + ·) (Except.ok.inj computed).symm)
      · have apart : taskId ≠ worker ∨
            ∀ task attempt delay, machine.pcs worker ≠ .retry task attempt delay := by
          by_cases own : taskId = worker
          · exact .inr fun task attempt delay atPc => retries ⟨own, task, attempt, delay, atPc⟩
          · exact .inl own
        rcases AcceptedEngine.advance_nextRetryAt ok apart with same | cleared
        · exact .inl (same.symm.trans set)
        · cases cleared.symm.trans set
  | finish running drained idle last returned =>
      obtain ⟨after, ran, views, _⟩ := reachable.finishRun running drained idle last returned
      rw [finish_of_ok ran] at set
      exact .inl ((congrArg (fun view => view.record.nextRetryAt) (views taskId)).symm.trans set)
  | _ => exact .inl set

/-- **In a sequential run with exact arithmetic the sleeper is given, task by task in
topological order, the delays of the failed attempts that another one follows, but for
those that are zero. `on_task_retry` is given all of them, each with the instant of the
next attempt that was set to a reading of the clock and the delay, and the delays of a
task never decrease.** -/
theorem backoff_law (engine : AcceptedEngine) (env : Env) (sequential : engine.maxWorkers ≤ 1)
    (exact : env.arithmetic = .exact) : ∃ order,
    engine.workflow.topologicalOrder = .ok order ∧
    (∃ machine, (engine.runSequential env).run (engine.created env) = .ok () machine.shared ∧
      engine.Steps env (engine.start env) machine ∧ machine.status = .returned) ∧
    ∀ machine, engine.Steps env (engine.start env) machine →
      (machine.status = .returned → BackoffLaw engine.toWorkflowEngine env order machine) ∧
      ∀ next, engine.Step env machine next →
        RetriesOnTime engine.toWorkflowEngine env machine next := by
  have one : engine.maxWorkers = 1 := sequential.antisymm engine.one_le_maxWorkers
  obtain ⟨order, computed, sorted, _⟩ := topologicalOrder_eq_ok engine.valid
  refine ⟨order, sorted, runSequential_eq_ok one (noOverflow_exact _ exact),
    fun machine run => ⟨backoffLaw_of_returned exact one computed run, fun next step => ?_⟩⟩
  exact (Reachable.steps run).retriesOnTime exact step

/-- A task that recovers at its third attempt, and one without backoff. -/
def polling : AcceptedEngine where
  workflow :=
    { workflowId := "polling"
      tasks := ⟨[
        ("poll", { taskId := "poll", maxAttempts := 7, backoffSeconds := 2
                   backoffMultiplier := 3, taskId_valid := by decide }),
        ("sweep", { taskId := "sweep", maxAttempts := 9, taskId_valid := by decide })],
        by decide⟩ }
  tasks := ⟨[("poll", raisesUpTo 2), ("sweep", raisesUpTo 1)], by decide⟩
  valid := Workflow.validateGraph_eq_nil_iff_valid.mp (by decide +kernel)
  mem_tasks := mem_iff_of_callables (by decide +kernel) (by decide +kernel)
  one_le_maxWorkers := one_le_default_maxWorkers

theorem backoff_law_polling : ∃ machine order,
    polling.replay { runId := "run" } (polling.start { runId := "run" })
      (.submit :: wholeJob "poll" 33 ++ .submit :: wholeJob "sweep" 23 ++ [.finish]) =
        some machine ∧
    machine.shared.sleeps = [("poll", 2), ("poll", 6)] ∧
    machine.shared.retryDelays "sweep" = [0] ∧
    BackoffLaw polling.toWorkflowEngine { runId := "run" } order machine := by
  have shown : (polling.replay { runId := "run" } (polling.start { runId := "run" })
      (.submit :: wholeJob "poll" 33 ++ .submit :: wholeJob "sweep" 23 ++ [.finish])).map
        (fun machine =>
          (machine.status, machine.shared.sleeps, machine.shared.retryDelays "sweep")) =
      some (.returned, [("poll", 2), ("poll", 6)], [0]) := by decide +kernel
  obtain ⟨machine, replayed, shows⟩ := Option.map_eq_some_iff.mp shown
  simp only [Prod.mk.injEq] at shows
  obtain ⟨returned, sleeps, delays⟩ := shows
  obtain ⟨order, _, _, law⟩ := backoff_law polling { runId := "run" } le_rfl rfl
  exact ⟨machine, order, replayed, sleeps, delays,
    (law machine (steps_of_replay _ _ replayed)).1 returned⟩

end EtlOrchestrator
