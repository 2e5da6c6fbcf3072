import Mathlib.Algebra.Order.Ring.Pow
import Mathlib.Tactic.Positivity.Basic
import EtlOrchestrator.Engine.Correctness
import EtlOrchestrator.Engine.Stamps

/-!
# The arithmetic of retries

A delay grows with a power of the backoff multiplier that nothing caps, and the
power is computed even when the base of the delay is zero. An overflow leaves the
exception handler of the attempt, so a step of a thread raises exactly at a retry
whose arithmetic overflows (`advance_raises_iff`).

So a run returns, and its failing tasks make all their attempts, if and only if no
retry of the run overflows (`retries_fit_iff`).
-/

set_option autoImplicit false

namespace EtlOrchestrator

open BlockingEvaluation SortedSet WorkflowEngine

/-! ## The arithmetic -/

/-- The power in the delay of a retry is a float. -/
def Task.PowerFits (task : Task) (failedAttempt : ℕ) : Prop :=
  task.backoffMultiplier ^ (failedAttempt - 1) < 2 ^ 1024 - 2 ^ 970

/-- The delay, rounded to microseconds, is a `timedelta`, and the instant after it a `datetime`. -/
def InstantFits (now delay : ℚ) : Prop :=
  microseconds delay < 1000000000 * 86400000000 ∧
    now + microseconds delay / 1000000 < 253402300800

/-- No step of the computation of `next_retry_at` overflows. -/
def Task.RetryFits (task : Task) (failedAttempt : ℕ) (now : ℚ) : Prop :=
  task.PowerFits failedAttempt ∧ InstantFits now (task.floatDelay failedAttempt)

/-- A delay has its whole seconds. -/
theorem floor_le_microseconds (seconds : ℚ) : ⌊seconds⌋₊ * 1000000 ≤ microseconds seconds := by
  rw [microseconds]
  have whole := roundHalfEven_natCast (⌊seconds⌋₊ * 1000000)
  rw [← whole]
  apply roundHalfEven_mono
  push_cast
  exact le_add_of_nonneg_right (Binary64.round_nonneg _)

theorem microseconds_mono {shorter longer : ℚ} (nonneg : 0 ≤ shorter) (ordered : shorter ≤ longer) :
    microseconds shorter ≤ microseconds longer := by
  have rest : 0 ≤ shorter - ⌊shorter⌋₊ := sub_nonneg.mpr (Nat.floor_le nonneg)
  rcases (Nat.floor_le_floor ordered).lt_or_eq with apart | same
  · have million : Binary64.round 1000000 = 1000000 := by decide +kernel
    have below : Binary64.round ((shorter - ⌊shorter⌋₊) * 1000000) ≤ 1000000 := by
      refine (Binary64.round_mono (mul_nonneg rest (by decide)) ?_).trans_eq million
      have part : shorter - ⌊shorter⌋₊ ≤ 1 := by linarith only [Nat.lt_floor_add_one shorter]
      linarith only [part]
    have bound : microseconds shorter ≤ (⌊shorter⌋₊ + 1) * 1000000 := by
      rw [microseconds, ← roundHalfEven_natCast ((⌊shorter⌋₊ + 1) * 1000000)]
      apply roundHalfEven_mono
      push_cast
      linarith only [below]
    calc microseconds shorter ≤ (⌊shorter⌋₊ + 1) * 1000000 := bound
      _ ≤ ⌊longer⌋₊ * 1000000 := Nat.mul_le_mul_right _ apart
      _ ≤ microseconds longer := floor_le_microseconds longer
  · rw [microseconds, microseconds, same]
    apply roundHalfEven_mono
    gcongr
    refine Binary64.round_mono (mul_nonneg (same ▸ rest) (by decide)) ?_
    gcongr

/-- An infinite delay is no `timedelta`. -/
theorem not_instantFits_of_infinite {now delay : ℚ} (infinite : 2 ^ 1024 ≤ delay) :
    ¬ InstantFits now delay := by
  rintro ⟨fits, _⟩
  have whole : 2 ^ 1024 ≤ ⌊delay⌋₊ := Nat.le_floor (by exact_mod_cast infinite)
  have seconds := floor_le_microseconds delay
  omega

namespace BackoffArithmetic

theorem python_delay_iff {task : Task} {failedAttempt : ℕ} {delay : ℚ} :
    python.delay task failedAttempt = .ok delay ↔
      task.PowerFits failedAttempt ∧ delay = task.floatDelay failedAttempt := by
  rw [Task.PowerFits, ← not_le]
  dsimp only [python]
  split <;> simp_all [eq_comm]

theorem python_delay_of_not_fits {task : Task} {failedAttempt : ℕ}
    (overflows : ¬ task.PowerFits failedAttempt) : python.delay task failedAttempt =
      .error (.overflowError "(34, 'Numerical result out of range')") :=
  if_pos (not_lt.mp overflows)

theorem python_retryAt_iff {now delay instant : ℚ} :
    python.retryAt now delay = .ok instant ↔
      InstantFits now delay ∧ instant = now + microseconds delay / 1000000 := by
  dsimp only [python]
  split
  · next infinite =>
    exact iff_of_false nofun fun both => not_instantFits_of_infinite infinite both.1
  rw [InstantFits]
  split
  · next tooLarge => exact iff_of_false nofun fun both => by omega
  split
  · next outOfRange => exact iff_of_false nofun fun both => by omega
  have inRange : microseconds delay < 1000000000 * 86400000000 := by omega
  rw [and_iff_right inRange, ← not_le]
  split <;> simp_all [eq_comm]

/-- Half a second before the year 10000, a delay of almost half a second is rounded up. -/
example : BackoffArithmetic.python.retryAt (253402300799 + 1 / 2) (4999999 / 10000000) =
    .error (.overflowError "date value out of range") := by decide +kernel

/-- A retry is computed when nothing overflows. -/
theorem python_computes_iff {task : Task} {failedAttempt : ℕ} {now : ℚ} :
    (∃ delay instant, python.delay task failedAttempt = .ok delay ∧
      python.retryAt now delay = .ok instant) ↔ task.RetryFits failedAttempt now := by
  simp only [python_delay_iff, python_retryAt_iff, Task.RetryFits]
  constructor
  · rintro ⟨delay, instant, ⟨power, rfl⟩, fits, _⟩
    exact ⟨power, fits⟩
  · rintro ⟨power, fits⟩
    exact ⟨_, _, ⟨power, rfl⟩, fits, rfl⟩

end BackoffArithmetic

/-- Delays grow with the attempts, so what fits for one fits for all earlier ones. -/
theorem Task.RetryFits.mono {task : Task} {failedAttempt earlier : ℕ} {now : ℚ}
    (fits : task.RetryFits failedAttempt now) (before : earlier ≤ failedAttempt) :
    task.RetryFits earlier now := by
  have powers : task.backoffMultiplier ^ (earlier - 1) ≤
      task.backoffMultiplier ^ (failedAttempt - 1) :=
    pow_le_pow_right₀ task.one_le_backoffMultiplier (Nat.sub_le_sub_right before 1)
  have positive : 0 ≤ task.backoffMultiplier ^ (earlier - 1) :=
    pow_nonneg (zero_le_one.trans task.one_le_backoffMultiplier) _
  have products : task.backoffSeconds * Binary64.round (task.backoffMultiplier ^ (earlier - 1)) ≤
      task.backoffSeconds * Binary64.round (task.backoffMultiplier ^ (failedAttempt - 1)) :=
    mul_le_mul_of_nonneg_left (Binary64.round_mono positive powers) task.backoffSeconds_nonneg
  have delays : task.floatDelay earlier ≤ task.floatDelay failedAttempt :=
    Binary64.round_mono (mul_nonneg task.backoffSeconds_nonneg (Binary64.round_nonneg _)) products
  have rounded : microseconds (task.floatDelay earlier) ≤
      microseconds (task.floatDelay failedAttempt) :=
    microseconds_mono (Binary64.round_nonneg _) delays
  refine ⟨powers.trans_lt fits.1, rounded.trans_lt fits.2.1, lt_of_le_of_lt ?_ fits.2.2⟩
  gcongr

/-- **All retries of a task can be computed if and only if the last one fits.** -/
theorem Task.retries_compute_iff (task : Task) (now : ℚ) :
    (∀ failedAttempt, 1 ≤ failedAttempt → failedAttempt < task.maxAttempts →
      ∃ delay instant, BackoffArithmetic.python.delay task failedAttempt = .ok delay ∧
        BackoffArithmetic.python.retryAt now delay = .ok instant) ↔
      task.maxAttempts = 1 ∨ task.RetryFits (task.maxAttempts - 1) now := by
  have positive := task.one_le_maxAttempts
  simp only [BackoffArithmetic.python_computes_iff]
  constructor
  · intro fits
    rcases positive.eq_or_lt with one | more
    · exact .inl one.symm
    · exact .inr (fits _ (by omega) (by omega))
  · rintro (one | fits) failedAttempt attempted remaining
    · omega
    · exact fits.mono (by omega)

/-! ## The steps that raise -/

/-- The arithmetic of a program point returns. -/
def Pc.Computes (env : Env) (now : ℚ) : Pc → Prop
  | .checkRetry task attempt => ∃ delay, env.arithmetic.delay task attempt = .ok delay
  | .retry _ _ delay => ∃ instant, env.arithmetic.retryAt now delay = .ok instant
  | _ => True

/-- The arithmetic of a program point does not overflow. -/
def Pc.Fits (now : ℚ) : Pc → Prop
  | .checkRetry task attempt => task.PowerFits attempt
  | .retry _ _ delay => InstantFits now delay
  | _ => True

theorem Pc.computes_iff_fits {env : Env} (python : env.arithmetic = .python) {now : ℚ} {pc : Pc} :
    pc.Computes env now ↔ pc.Fits now := by
  cases pc with
  | checkRetry task attempt =>
      rw [Computes, Fits, python]
      simp only [BackoffArithmetic.python_delay_iff, and_true, exists_and_left, exists_eq]
  | retry task attempt delay =>
      rw [Computes, Fits, python]
      simp only [BackoffArithmetic.python_retryAt_iff, exists_and_left, exists_eq, and_true]
  | _ => exact iff_of_true trivial trivial

variable {engine : AcceptedEngine} {env : Env} {taskId : String} {state : RunState} {pc : Pc}

namespace AcceptedEngine

/-- A step of a thread returns, at a program point that is no error. -/
def Returns (engine : AcceptedEngine) (env : Env) (taskId : String) (state : RunState) (pc : Pc) :
    Prop :=
  ∃ next after, (engine.act env taskId pc).run state = .ok next after ∧ next.error? = none

theorem Returns.of_ok (after : RunState) (next : Pc)
    (ran : (engine.act env taskId pc).run state = .ok next after) (noError : next.error? = none) :
    engine.Returns env taskId state pc :=
  ⟨next, after, ran, noError⟩

theorem Returns.transition (target : TaskState) (next : Pc) {source : TaskState}
    (acts : engine.act env taskId pc = Exec.transition taskId target >>= fun _ => pure next)
    (current : (state.view taskId).record.state = source) (legal : canTransition source target)
    (noError : next.error? = none) : engine.Returns env taskId state pc := by
  subst current
  refine .of_ok (state.emit (.checked taskId (state.stateOf taskId) target)) next ?_ noError
  rw [acts, EStateM.run_bind, Exec.run_transition legal]
  rfl

theorem Returns.taskHook (next : Pc) (call : WorkflowRun → TaskRunRecord → HookCall)
    (acts : engine.act env taskId pc = WorkflowEngine.taskHook call taskId >>= fun _ => pure next)
    (noError : next.error? = none) : engine.Returns env taskId state pc := by
  obtain ⟨after, ran, _⟩ := taskHook_view state taskId call
  exact .of_ok after next (acts ▸ Exec.run_then ran next) noError

/-- A step whose arithmetic returns does so too. -/
theorem act_returns (ok : engine.TaskOk env taskId (state.view taskId) pc)
    (known : taskId ∈ engine.workflow.tasks) (unfinished : pc.ended = false)
    (computes : pc.Computes env (env.clock state.clockReads)) :
    engine.Returns env taskId state pc := by
  cases pc with
  | enter => exact .of_ok _ .firstCheck rfl rfl
  | firstCheck =>
      by_cases pending : state.stateOf taskId = .pending
      · exact .of_ok state (.scan _) (by simp [act, pending]; rfl) rfl
      · exact .of_ok state .skip (by simp [act, pending]) rfl
  | skip =>
      obtain ⟨after, ran, _⟩ := skipExecution_view state taskId
      exact .of_ok after .done (Exec.run_then ran _) rfl
  | scan rest =>
      cases rest with
      | nil => exact .of_ok state .refresh rfl rfl
      | cons upstreamId rest => exact .of_ok _ (.scanCheck upstreamId rest) rfl rfl
  | scanCheck upstreamId rest =>
      by_cases failed : state.stateOf upstreamId = .failed ∨
          state.stateOf upstreamId = .upstreamFailed
      · exact .of_ok state (.walk upstreamId _ ∅)
          (by simp only [act, EStateM.run_bind, Exec.run_stateOf, if_pos failed]; rfl) rfl
      · exact .of_ok state (.scan rest)
          (by simp only [act, EStateM.run_bind, Exec.run_stateOf, if_neg failed]; rfl) rfl
  | walk failedTaskId pendingVisit visited =>
      cases pendingVisit with
      | nil => exact .of_ok state .refresh rfl rfl
      | cons dependent rest =>
          by_cases seen : dependent ∈ visited
          · exact .of_ok state (.walk failedTaskId rest visited)
              (by simp only [act, if_pos seen]; rfl) rfl
          · obtain ⟨after, ran, _⟩ := blockTask_view env state dependent failedTaskId
            exact .of_ok after
              (.walk failedTaskId (rest ++ sorted (engine.workflow.downstream dependent))
                (insert dependent visited))
              (by simp only [act, if_neg seen, EStateM.run_bind, ran, EStateM.run_pure]) rfl
  | refresh => exact .of_ok _ .secondCheck rfl rfl
  | secondCheck =>
      by_cases pending : state.stateOf taskId = .pending
      · exact .of_ok state .define (by simp [act, pending]) rfl
      · exact .of_ok state .skip (by simp [act, pending]) rfl
  | define =>
      obtain ⟨task, defined⟩ := OrderedDict.exists_get?_of_mem known
      refine .of_ok state (.checkStart task ((state.recordOf taskId).attempts + 1)) ?_ rfl
      simp only [act, taskDef, defined, Option.elim_some, EStateM.run_bind, Exec.run_ofExcept_ok,
        Exec.run_recordOf, EStateM.run_pure]
  | checkStart task attempt =>
      have legal : canTransition (if attempt = 1 then .pending else .retrying) .running := by
        split <;> decide
      exact .transition .running (.start task attempt) rfl ok.2.2.state legal rfl
  | start task attempt =>
      obtain ⟨after, ran, _⟩ := startAttempt_view env state taskId task attempt
      exact .of_ok after (.hookStart task attempt)
        (Exec.run_then ran _) rfl
  | hookStart task attempt => exact .taskHook (.call task attempt) .taskStart rfl rfl
  | call task attempt =>
      obtain ⟨callable, found⟩ :=
        OrderedDict.exists_get?_of_mem ((engine.mem_tasks taskId).mpr known)
      obtain ⟨after, ran, _⟩ := callTask_view env state taskId attempt found
      cases result : callable (engine.context env taskId attempt) with
      | ok _ =>
          exact .of_ok after (.checkSucceed attempt)
            (by simp only [act, EStateM.run_bind, ran, result, EStateM.run_pure]) rfl
      | error error =>
          exact .of_ok after (.checkFail task attempt error)
            (by simp only [act, EStateM.run_bind, ran, result, EStateM.run_pure]) rfl
  | checkFail task attempt error =>
      exact .transition .failed (.fail task attempt error) rfl ok.2.2.state (by decide) rfl
  | fail task attempt error =>
      obtain ⟨after, ran, _⟩ := failAttempt_view env state taskId error
      refine .of_ok after
        (if attempt < task.maxAttempts then .checkRetry task attempt else .permanent attempt)
        (Exec.run_then ran _) ?_
      split <;> rfl
  | checkRetry task attempt =>
      obtain ⟨delay, computed⟩ := computes
      refine .transition .retrying (.retry task attempt delay) ?_ ok.2.2.2.state (by decide) rfl
      simp only [act, checkRetry, computed, bind_assoc, pure_bind]
      rfl
  | retry task attempt delay =>
      obtain ⟨instant, computed⟩ := computes
      have marked := markRetrying_view env state taskId task attempt delay
      rw [computed] at marked
      obtain ⟨after, ran, _⟩ := marked
      exact .of_ok after (.hookRetry task attempt delay)
        (Exec.run_then ran _) rfl
  | hookRetry task attempt delay => exact .taskHook (.sleep task attempt delay) _ rfl rfl
  | sleep task attempt delay =>
      obtain ⟨after, ran, _⟩ := sleep_view state taskId delay
      exact .of_ok after (.checkStart task (attempt + 1))
        (Exec.run_then ran _) rfl
  | permanent attempt => exact .of_ok _ .hookFailure rfl rfl
  | hookFailure => exact .taskHook .done .taskFailure rfl rfl
  | checkSucceed attempt =>
      exact .transition .success (.succeed attempt) rfl ok.2.2.state (by decide) rfl
  | succeed attempt =>
      obtain ⟨after, ran, _⟩ := succeedAttempt_view env state taskId
      exact .of_ok after (.hookSuccess attempt)
        (Exec.run_then ran _) rfl
  | hookSuccess attempt => exact .taskHook .done .taskSuccess rfl rfl
  | done => cases unfinished
  | raised error => cases unfinished

/-- **A step of a thread raises if and only if the arithmetic of a retry does.** -/
theorem advance_raises_iff (ok : engine.TaskOk env taskId (state.view taskId) pc)
    (known : taskId ∈ engine.workflow.tasks) (unfinished : pc.ended = false) :
    (∃ error, (engine.advance env taskId state pc).2 = .raised error) ↔
      ¬ pc.Computes env (env.clock state.clockReads) := by
  constructor
  · rintro ⟨error, raised⟩ computes
    obtain ⟨next, after, ran, noError⟩ := act_returns ok known unfinished computes
    rw [advance_of_ok ran] at raised
    obtain rfl : next = .raised error := raised
    cases noError
  · intro overflows
    cases pc with
    | checkRetry task attempt =>
        cases computed : env.arithmetic.delay task attempt with
        | ok delay => exact absurd ⟨delay, computed⟩ overflows
        | error error =>
            have ran : (engine.act env taskId (.checkRetry task attempt)).run state =
                .error error state := by
              simp only [act, checkRetry, computed, EStateM.run_bind, Exec.run_ofExcept_error]
            exact ⟨error, by rw [advance_of_error ran]⟩
    | retry task attempt delay =>
        have marked := markRetrying_view env state taskId task attempt delay
        cases computed : env.arithmetic.retryAt (env.clock state.clockReads) delay with
        | ok instant => exact absurd ⟨instant, computed⟩ overflows
        | error error =>
            rw [computed] at marked
            obtain ⟨after, ran, _⟩ := marked
            have acted : (engine.act env taskId (.retry task attempt delay)).run state =
                .error error after := Exec.run_raises ran _
            exact ⟨error, by rw [advance_of_error acted]⟩
    | _ => exact absurd trivial overflows

end AcceptedEngine

/-! ## Runs -/

/-- No retry that is made in a run overflows, where the run is given by the choices of
its scheduler. -/
def WorkflowEngine.RetriesFit (engine : WorkflowEngine) (env : Env) (choices : List Choice) :
    Prop :=
  ∀ before taskId after machine, choices = before ++ .work taskId :: after →
    engine.replay env (engine.start env) before = some machine →
      (machine.pcs taskId).Fits (machine.now env)

namespace WorkflowEngine

variable {engine : WorkflowEngine} {machine next : Machine} {choice : Choice}
  {choices : List Choice}

theorem replay_concat {first : Machine} :
    engine.replay env first (choices ++ [choice]) = some next ↔
      ∃ machine, engine.replay env first choices = some machine ∧
        engine.choose env machine choice = some next := by
  rw [replay, List.foldlM_append, Option.bind_eq_bind, Option.bind_eq_some_iff]
  simp only [List.foldlM_cons, List.foldlM_nil, bind_pure]
  rfl

/-- The retries of a longer run fit when those of the run do, and the one of its last
step. -/
theorem retriesFit_concat
    (run : engine.replay env (engine.start env) choices = some machine) :
    engine.RetriesFit env (choices ++ [choice]) ↔ engine.RetriesFit env choices ∧
      ∀ taskId, choice = .work taskId → (machine.pcs taskId).Fits (machine.now env) := by
  constructor
  · intro fits
    refine ⟨fun before taskId after earlier split replayed => ?_, ?_⟩
    · exact fits before taskId (after ++ [choice]) earlier (by rw [split]; simp) replayed
    · rintro taskId rfl
      exact fits choices taskId [] machine rfl run
  · rintro ⟨fits, last⟩ before taskId after earlier split replayed
    rcases List.eq_nil_or_concat after with rfl | ⟨middle, final, rfl⟩
    · obtain ⟨rfl, same⟩ := List.append_inj' split rfl
      cases run.symm.trans replayed
      exact last taskId (List.cons.inj same).1
    · rw [List.concat_eq_append, ← List.cons_append, ← List.append_assoc] at split
      exact fits before taskId middle earlier (List.append_inj' split rfl).1 replayed

end WorkflowEngine

/-- A step of a worker aborts no other execution, and its own when a retry overflows. -/
theorem aborted_work_iff (python : env.arithmetic = .python) {machine : Machine}
    (reachable : Reachable engine env machine) (held : taskId ∈ machine.active)
    (unfinished : (machine.pcs taskId).ended = false) (other : String) :
    (engine.work env machine taskId).Aborted other ↔
      machine.Aborted other ∨ other = taskId ∧ ¬ (machine.pcs taskId).Fits (machine.now env) := by
  obtain ⟨past, invariant⟩ := reachable.invariant
  have known := invariant.known (invariant.submitted taskId (.inr held))
  by_cases same : other = taskId
  · subst same
    have notYet : ¬ machine.Aborted other := by
      rintro ⟨error, atPc⟩
      rw [atPc] at unfinished
      cases unfinished
    rw [Machine.Aborted, work_pcs_self, ← Pc.computes_iff_fits python]
    simp only [notYet, true_and, false_or]
    exact AcceptedEngine.advance_raises_iff (reachable.task_ok other) known unfinished
  · rw [Machine.Aborted, work_pcs_of_ne same]
    simp only [same, false_and, or_false, Machine.Aborted]

/-- **No execution is aborted in a run if and only if no retry of the run overflows.** -/
theorem not_aborted_iff_retriesFit (python : env.arithmetic = .python) {choices : List Choice}
    {machine : Machine} (run : engine.replay env (engine.start env) choices = some machine) :
    (∀ taskId, ¬ machine.Aborted taskId) ↔ engine.RetriesFit env choices := by
  induction choices using List.reverseRecOn generalizing machine with
  | nil =>
      cases run
      refine iff_of_true (fun taskId aborted => ?_) fun before taskId after earlier split => ?_
      · obtain ⟨shared, levels, same, _⟩ := start_eq engine env
        obtain ⟨error, atPc⟩ := aborted
        rw [same] at atPc
        cases atPc
      · simp at split
  | append_singleton choices choice ih =>
      obtain ⟨earlier, replayed, chosen⟩ := replay_concat.mp run
      have reachable := Reachable.steps (steps_of_replay _ _ replayed)
      rw [retriesFit_concat replayed, ← ih replayed]
      rcases choose_cases chosen with ⟨taskId, rfl, held, unfinished, rfl⟩ | ⟨noWork, same, _⟩
      · simp only [aborted_work_iff python reachable held unfinished, not_or, not_and, not_not,
          forall_and, Choice.work.injEq, forall_eq, forall_eq']
      · have kept : ∀ taskId, machine.Aborted taskId ↔ earlier.Aborted taskId := by
          intro taskId
          rw [Machine.Aborted, Machine.Aborted, same]
        simp only [kept, noWork, false_imp_iff, implies_true, and_true]

/-- A task whose upstreams have succeeded and whose attempts all fail has failed after
as many calls as it has attempts. -/
def WorkflowEngine.Exhausts (engine : WorkflowEngine) (env : Env) (machine : Machine) : Prop :=
  ∀ taskId ∈ engine.workflow.tasks,
    (∀ up, engine.workflow.Edge up taskId → machine.stateOf up = .success) →
    (∀ attempt, 1 ≤ attempt → attempt ≤ engine.maxAttempts taskId →
      ¬ engine.Succeeds env taskId attempt) →
    machine.stateOf taskId = .failed ∧
      (machine.shared.calls.filter fun context => context.taskId = taskId).length =
        engine.maxAttempts taskId

theorem Reachable.exhausts {machine : Machine} (reachable : Reachable engine env machine)
    (returned : machine.status = .returned) : engine.Exhausts env machine := by
  intro taskId known upstreams fails
  have result := reachable.isResult returned
  obtain ⟨failed, attempts⟩ := (result.failed_iff known).mpr ⟨upstreams, fails⟩
  refine ⟨failed, ?_⟩
  have called := (result.settles taskId known).agrees.2
  rw [show machine.shared.calls.filter _ = _ from called, contexts, List.length_map,
    List.length_range']
  exact attempts

/-- **All retries of a task can be computed if and only if its last one fits. Under Python's
arithmetic no run of an engine goes on for ever, and one that has come to its end has
returned, with every failing task exhausted, if and only if no retry that was made in it
overflows.** -/
theorem retries_fit_iff (task : Task) (now : ℚ) (engine : AcceptedEngine) (env : Env)
    (python : env.arithmetic = .python) {choices : List Choice} {machine : Machine}
    (run : engine.replay env (engine.start env) choices = some machine)
    (ended : ∀ next, ¬ engine.Step env machine next) :
    ((∀ failedAttempt, 1 ≤ failedAttempt → failedAttempt < task.maxAttempts → ∃ delay instant,
        BackoffArithmetic.python.delay task failedAttempt = .ok delay ∧
        BackoffArithmetic.python.retryAt now delay = .ok instant) ↔
      task.maxAttempts = 1 ∨ task.RetryFits (task.maxAttempts - 1) now) ∧
    (¬ ∃ states : ℕ → Machine, states 0 = engine.start env ∧
      ∀ n, engine.Step env (states n) (states (n + 1))) ∧
    (machine.status = .returned ∧ engine.Exhausts env machine ↔
      engine.RetriesFit env choices) := by
  refine ⟨task.retries_compute_iff now, ?_, ?_⟩
  · rintro ⟨states, first, steps⟩
    exact no_infinite_run first steps
  · have reachable := Reachable.steps (steps_of_replay _ _ run)
    rw [← not_aborted_iff_retriesFit python run, ← reachable.returned_iff ended]
    exact ⟨And.left, fun returned => ⟨returned, reachable.exhausts returned⟩⟩

theorem retries_fit_pipeline : ∃ machine,
    (pipeline 2 (by decide)).replay { runId := "run", arithmetic := .python }
      ((pipeline 2 (by decide)).start { runId := "run", arithmetic := .python })
      pipelineChoices = some machine ∧
    (pipeline 2 (by decide)).Exhausts { runId := "run", arithmetic := .python } machine ∧
    (pipeline 2 (by decide)).RetriesFit { runId := "run", arithmetic := .python }
      pipelineChoices := by
  have shown : ((pipeline 2 (by decide)).replay { runId := "run", arithmetic := .python }
      ((pipeline 2 (by decide)).start { runId := "run", arithmetic := .python })
      pipelineChoices).map Machine.status = some .returned := by decide +kernel
  obtain ⟨machine, replayed, returned⟩ := Option.map_eq_some_iff.mp shown
  have exhausts := (Reachable.steps (steps_of_replay _ _ replayed)).exhausts returned
  refine ⟨machine, replayed, exhausts, (retries_fit_iff (impatient "load" (by decide)) 0
    (pipeline 2 (by decide)) { runId := "run", arithmetic := .python } rfl replayed
      fun next step => ?_).2.2.mp ⟨returned, exhausts⟩⟩
  cases returned.symm.trans step.running

/-- A task that is retried at once, with a multiplier whose second power is no float. -/
def steepTask : Task where
  taskId := "steep"
  maxAttempts := 4
  backoffMultiplier := 2 ^ 600
  taskId_valid := by decide
  one_le_backoffMultiplier := one_le_pow₀ (by decide)

/-- A workflow of this one task, which always fails. -/
def steep : AcceptedEngine where
  workflow := { workflowId := "steep", tasks := ⟨[("steep", steepTask)], by decide⟩ }
  tasks := ⟨[("steep", raisesUpTo 4)], by decide⟩
  maxWorkers := 5
  valid := Workflow.validateGraph_eq_nil_iff_valid.mp (by decide +kernel)
  mem_tasks := mem_iff_of_callables (by decide +kernel) (by decide +kernel)
  one_le_maxWorkers := by decide

theorem steepTask_not_fits : ¬ steepTask.PowerFits 3 := by
  rw [Task.PowerFits, steepTask, not_lt, ← pow_mul]
  exact (sub_le_self _ (by positivity)).trans (pow_le_pow_right₀ (by decide) (by decide))

/-- The third retry raises although its delay is zero, so that the fourth attempt is never
made and the run does not return. -/
theorem retry_overflows :
    BackoffArithmetic.python.delay steepTask 3 =
      .error (.overflowError "(34, 'Numerical result out of range')") ∧
    steepTask.backoffDelay 3 = 0 ∧
    ∃ machine, steep.Steps { runId := "run", arithmetic := .python }
      (steep.start { runId := "run", arithmetic := .python }) machine ∧
      (∀ next, ¬ steep.Step { runId := "run", arithmetic := .python } machine next) ∧
      machine.status = .raised (.overflowError "(34, 'Numerical result out of range')") ∧
      machine.shared.calls.length = 3 ∧ steep.maxAttempts "steep" = 4 := by
  have shown : (steep.replay { runId := "run", arithmetic := .python }
      (steep.start { runId := "run", arithmetic := .python })
      (.submit :: (wholeJob "steep" 33 ++ [.raise]))).map
        (fun machine => (machine.status, machine.shared.calls.length)) =
      some (.raised (.overflowError "(34, 'Numerical result out of range')"), 3) := by
    decide +kernel
  obtain ⟨machine, replayed, shows⟩ := Option.map_eq_some_iff.mp shown
  obtain ⟨raised, calls⟩ := Prod.mk.inj shows
  refine ⟨BackoffArithmetic.python_delay_of_not_fits steepTask_not_fits, zero_mul _, machine,
    steps_of_replay _ _ replayed, fun next step => ?_, raised, calls, rfl⟩
  cases raised.symm.trans step.running

end EtlOrchestrator
