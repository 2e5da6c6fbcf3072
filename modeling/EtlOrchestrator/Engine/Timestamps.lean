import Mathlib.Data.Nat.Cast.Order.Basic
import Mathlib.Order.Monotone.Defs
import EtlOrchestrator.Engine.Correctness
import EtlOrchestrator.Engine.Identity
import EtlOrchestrator.Engine.Safety
import EtlOrchestrator.Engine.Stamps

/-!
# The timestamps of a run

With a clock that never goes backwards every stamp lies between the start of the
run and the present reading, and a task keeps the start of its first attempt while
each failed attempt moves its end.

A task starts only when its upstreams have succeeded, and the record of a task that
has succeeded is never written again. So the end of an upstream does not come after
the start of its dependents (`timestamps_nested`).
-/

set_option autoImplicit false

namespace EtlOrchestrator

open BlockingEvaluation Relation WorkflowEngine

/-! ## Records -/

/-- The dates of a record agree with its state. -/
def HasDates (record : TaskRunRecord) : Prop :=
  match record.state with
  | .pending => record.startedAt = none ∧ record.finishedAt = none
  | .running | .retrying => record.startedAt ≠ none
  | .success | .failed => record.startedAt ≠ none ∧ record.finishedAt ≠ none
  | .upstreamFailed => record.startedAt = none ∧ record.finishedAt ≠ none
  | .skipped | .cancelled => True

/-- The dates of a record lie in order between the start of the run and an instant. -/
structure Dated (first now : ℚ) (record : TaskRunRecord) : Prop where
  dates : HasDates record
  started : ∀ start ∈ record.startedAt, first ≤ start ∧ start ≤ now
  finished : ∀ stop ∈ record.finishedAt, first ≤ stop ∧ stop ≤ now
  ordered : ∀ start ∈ record.startedAt, ∀ stop ∈ record.finishedAt, start ≤ stop

namespace Dated

variable {first now later : ℚ} {record after : TaskRunRecord} {view next : TaskView}

/-- Dates stay in order as time goes on. -/
theorem mono (dated : Dated first now record) (passes : now ≤ later) :
    Dated first later record where
  dates := dated.dates
  started start member := (dated.started start member).imp_right fun before => before.trans passes
  finished stop member := (dated.finished stop member).imp_right fun before => before.trans passes
  ordered := dated.ordered

/-- An end that is written now comes after every start. -/
theorem finish (dated : Dated first now record) (begun : first ≤ now)
    (started : after.startedAt = record.startedAt) (finished : after.finishedAt = some now)
    (dates : HasDates after) : Dated first now after where
  dates := dates
  started start member := dated.started start (started ▸ member)
  finished stop member := by
    rw [finished, Option.mem_some_iff] at member
    exact member ▸ ⟨begun, le_refl now⟩
  ordered start startMember stop stopMember := by
    rw [finished, Option.mem_some_iff] at stopMember
    exact stopMember ▸ (dated.started start (started ▸ startMember)).2

/-- **A stamp keeps the dates of a record in order.** -/
theorem stamp (dated : Dated first now view.record) (begun : first ≤ now)
    (stamp : Stamp now view next) : Dated first now next.record := by
  have dates := dated.dates
  cases stamp with
  | keep record => exact record ▸ dated
  | start waiting =>
      -- Only the first attempt writes a start, and no end was written before it.
      rw [TaskView.moving]
      cases startedAt : view.record.startedAt with
      | none =>
          have notFinished : view.record.finishedAt = none := by
            rcases waiting with ⟨state, _⟩ | state
            · rw [HasDates, state] at dates
              exact dates.2
            · rw [HasDates, state] at dates
              exact absurd startedAt dates
          refine ⟨Option.some_ne_none _, fun start member => ?_, fun stop member => ?_,
            fun start _ stop member => ?_⟩
          · obtain rfl : now = start := Option.some.inj member
            exact ⟨begun, le_refl now⟩
          · rw [notFinished] at member
            cases member
          · rw [notFinished] at member
            cases member
      | some start =>
          rw [Option.getD_some, ← startedAt]
          exact ⟨by rw [HasDates, startedAt]; exact Option.some_ne_none _, dated.started,
            dated.finished, dated.ordered⟩
  | fail error running =>
      rw [HasDates, running] at dates
      exact dated.finish begun rfl rfl ⟨dates, Option.some_ne_none _⟩
  | retry instant failed =>
      rw [HasDates, failed] at dates
      exact ⟨dates.1, dated.started, dated.finished, dated.ordered⟩
  | abort failed =>
      rw [HasDates, failed] at dates
      exact ⟨dates.1, dated.started, dated.finished, dated.ordered⟩
  | succeed running =>
      rw [HasDates, running] at dates
      exact dated.finish begun rfl rfl ⟨dates, Option.some_ne_none _⟩
  | block failedTaskId pending =>
      rw [HasDates, pending] at dates
      exact dated.finish begun rfl rfl ⟨dates.1, Option.some_ne_none _⟩

end Dated

namespace Stamp

variable {now : ℚ} {view next : TaskView} (stamp : Stamp now view next)

include stamp

/-- A record of a success is not written again. -/
theorem eq_of_success (success : view.record.state = .success) : next.record = view.record := by
  cases stamp with
  | keep record => exact record
  | start waiting =>
      rcases waiting with ⟨state, _⟩ | state
      · cases success.symm.trans state
      · cases success.symm.trans state
  | fail error running => cases success.symm.trans running
  | retry instant failed => cases success.symm.trans failed
  | abort failed => cases success.symm.trans failed
  | succeed running => cases success.symm.trans running
  | block failedTaskId pending => cases success.symm.trans pending

/-- A start is written once, by the step that makes the task run. -/
theorem startedAt {start : ℚ} (started : next.record.startedAt = some start) :
    view.record.startedAt = some start ∨ start = now ∧ next.record.state = .running := by
  cases stamp with
  | keep record => exact .inl (record ▸ started)
  | start waiting =>
      rw [TaskView.moving] at started
      cases before : view.record.startedAt with
      | none =>
          rw [before] at started
          exact .inr ⟨(Option.some.inj started).symm, rfl⟩
      | some earlier =>
          rw [before] at started
          exact .inl started
  | _ => exact .inl started

end Stamp

/-! ## Runs -/

variable {engine : AcceptedEngine} {env : Env} {taskId : String} {state : RunState}

/-- The clock is read no less often in a later state. -/
def Reads (before after : RunState) : Prop := before.clockReads ≤ after.clockReads

instance : Std.Refl Reads := ⟨fun _ => le_refl _⟩

instance : IsTrans RunState Reads := ⟨fun _ _ _ => le_trans⟩

theorem Reads.changes : Changes Reads where
  record _ _ := le_refl _
  update _ _ _ _ := le_refl _
  emit _ _ := le_refl _
  note _ _ := le_refl _
  tick _ := Nat.le_succ _
  moved _ _ := le_refl _
  finished _ _ := le_refl _

/-- The dates of all records are in order, and a task starts after its upstreams
have ended. -/
structure Timed (engine : AcceptedEngine) (env : Env) (machine : Machine) : Prop where
  dated : ∀ taskId, Dated (env.clock 0) (machine.now env) (machine.shared.view taskId).record
  ordered : ∀ up taskId, engine.workflow.Edge up taskId →
    ∀ start ∈ (machine.shared.view taskId).record.startedAt,
      (machine.shared.view up).record.state = .success ∧
        ∀ stop ∈ (machine.shared.view up).record.finishedAt, stop ≤ start

namespace Timed

variable {machine : Machine}

theorem start : Timed engine env (engine.start env) := by
  obtain ⟨shared, levels, same, _, _, views, _⟩ := start_eq engine env
  have fresh : ∀ taskId, ((engine.start env).shared.view taskId).record = { taskId } := by
    intro taskId
    rw [same, views]
    rfl
  refine ⟨fun taskId => ?_, fun up taskId _ start member => ?_⟩
  · rw [fresh]
    refine ⟨⟨rfl, rfl⟩, fun start member => ?_, fun stop member => ?_, fun start member => ?_⟩
    · cases member
    · cases member
    · cases member
  · rw [fresh] at member
    cases member

/-- The dates look at the records and at the readings of the clock only. -/
theorem congr (timed : Timed engine env machine) {after : Machine}
    (shared : after.shared = machine.shared) : Timed engine env after := by
  refine ⟨fun taskId => ?_, ?_⟩
  · rw [Machine.now, shared]
    exact timed.dated taskId
  · rw [shared]
    exact timed.ordered

/-- **A step of a worker keeps the dates in order.** -/
theorem work (timed : Timed engine env machine) (forward : Monotone env.clock)
    (reachable : Reachable engine env machine)
    (reachableAfter : Reachable engine env (engine.work env machine taskId)) :
    Timed engine env (engine.work env machine taskId) := by
  have begun : env.clock 0 ≤ machine.now env := forward (Nat.zero_le _)
  have stamps : ∀ other, Stamp (machine.now env) (machine.shared.view other)
      ((engine.work env machine taskId).shared.view other) :=
    AcceptedEngine.advance_stamp (reachable.task_ok taskId)
  have passes : machine.now env ≤ (engine.work env machine taskId).now env := by
    have respects := Reads.changes.act env engine.toWorkflowEngine taskId (machine.pcs taskId)
    exact forward (advance_of_respects respects machine.shared)
  have dated : ∀ other, Dated (env.clock 0) (machine.now env)
      ((engine.work env machine taskId).shared.view other).record := fun other =>
    (timed.dated other).stamp begun (stamps other)
  refine ⟨fun other => (dated other).mono passes, fun up other edge start member => ?_⟩
  rcases (stamps other).startedAt member with old | ⟨rfl, running⟩
  · obtain ⟨success, before⟩ := timed.ordered up other edge start old
    rw [(stamps up).eq_of_success success]
    exact ⟨success, before⟩
  · -- The task has just started, so every end that was written so far comes before.
    exact ⟨reachableAfter.upstreams_succeed (.inl running) edge,
      fun stop stopMember => ((dated up).finished stop stopMember).2⟩

/-- The end of a run reads the clock, and writes its end. -/
theorem finishRun_finishedAt {after : RunState}
    (ran : (finishRun env).run state = .ok () after) :
    after.run.finishedAt = some (env.clock state.clockReads) ∧
      after.clockReads = state.clockReads + 1 := by
  obtain ⟨_, _, rfl⟩ := finishRun_eq_ok env state ran
  exact ⟨rfl, rfl⟩

/-- **The dates are in order in every state of every run**, and in one that has
returned they come before the end of the run. -/
theorem steps (forward : Monotone env.clock) (run : engine.Steps env (engine.start env) machine) :
    Timed engine env machine ∧ (machine.status = .returned → ∃ last,
      machine.shared.run.finishedAt = some last ∧ env.clock 0 ≤ last ∧
        ∀ taskId, Dated (env.clock 0) last (machine.shared.view taskId).record) := by
  induction run with
  | refl =>
      refine ⟨.start, fun returned => ?_⟩
      obtain ⟨shared, levels, same, _⟩ := start_eq engine env
      rw [same] at returned
      cases returned
  | @tail machine next steps step ih =>
      have running := step.running
      have reachable := Reachable.steps steps
      have reachableAfter := Reachable.steps (steps.tail step)
      cases step with
      | take => exact ⟨ih.1.congr rfl, fun ended => by cases running.symm.trans ended⟩
      | work =>
          exact ⟨ih.1.work forward reachable reachableAfter,
            fun ended => by cases running.symm.trans ended⟩
      | leave => exact ⟨ih.1.congr rfl, fun ended => by cases running.symm.trans ended⟩
      | submit => exact ⟨ih.1.congr rfl, fun ended => by cases running.symm.trans ended⟩
      | raise => exact ⟨ih.1.congr rfl, fun ended => by cases ended⟩
      | finish _ drained idle last returned =>
          obtain ⟨after, ran, views, _⟩ := reachable.finishRun running drained idle last returned
          rw [WorkflowEngine.finish_of_ok ran]
          have passes : machine.now env ≤ env.clock after.clockReads :=
            forward ((Reads.changes.finishRun env).of_ok ran)
          refine ⟨⟨fun taskId => ?_, fun up taskId => ?_⟩, fun _ =>
            ⟨machine.now env, (finishRun_finishedAt ran).1, forward (Nat.zero_le _),
              fun taskId => ?_⟩⟩
          · exact (views taskId).symm ▸ (ih.1.dated taskId).mono passes
          · rw [show _ = machine.shared.view taskId from views taskId,
              show _ = machine.shared.view up from views up]
            exact ih.1.ordered up taskId
          · exact (views taskId).symm ▸ ih.1.dated taskId

end Timed

/-- The callable of a task has been called. -/
def Machine.Executed (machine : Machine) (taskId : String) : Prop :=
  ∃ context ∈ machine.shared.calls, context.taskId = taskId

/-- A task that was executed does not wait. -/
theorem Machine.Executed.not_waiting {machine : Machine} (executed : machine.Executed taskId) :
    ¬ engine.Waiting env taskId (machine.shared.view taskId) := by
  obtain ⟨context, member, own⟩ := executed
  have called : (machine.shared.view taskId).called ≠ [] :=
    List.ne_nil_of_mem (List.mem_filter.mpr ⟨member, decide_eq_true own⟩)
  rintro (at' | ⟨at', _⟩)
  · exact called at'.called
  · exact called at'.called

namespace Reachable

variable {machine : Machine} (reachable : Reachable engine env machine)

include reachable

/-- A task that was executed is one of the workflow, and not blocked. -/
theorem of_executed (executed : machine.Executed taskId) :
    taskId ∈ engine.workflow.tasks ∧ engine.outcome env taskId ≠ .blocked := by
  have notWaiting : ¬ engine.Waiting env taskId (machine.shared.view taskId) :=
    executed.not_waiting
  refine ⟨?_, ((reachable.task_ok taskId).waiting_or_unblocked.resolve_left notWaiting).1⟩
  by_contra unknown
  exact notWaiting (reachable.waiting_of_unknown unknown)

/-- When the run has returned, a task that was executed has succeeded or failed. -/
theorem state_of_executed (returned : machine.status = .returned)
    (executed : machine.Executed taskId) :
    (machine.shared.view taskId).record.state = .success ∨
      (machine.shared.view taskId).record.state = .failed := by
  obtain ⟨known, unblocked⟩ := reachable.of_executed executed
  have settles := (reachable.isResult returned).settles taskId known
  rw [AcceptedEngine.Settles] at settles
  cases outcome : engine.outcome env taskId with
  | value attempt =>
      rw [outcome] at settles
      exact .inl settles.state
  | failed =>
      rw [outcome] at settles
      exact .inr settles.state
  | blocked => exact absurd outcome unblocked

end Reachable

/-- **In a run that has returned, with a clock that never goes backwards, the dates
of every executed task lie in order between the start and the end of the run, a
blocked task has an end and no start, and every upstream of an executed task has
ended when the task starts.** -/
theorem timestamps_nested (engine : AcceptedEngine) (env : Env) (forward : Monotone env.clock)
    {machine : Machine} (run : engine.Steps env (engine.start env) machine)
    (returned : machine.status = .returned) :
    ∃ first last, machine.shared.run.startedAt = some first ∧
      machine.shared.run.finishedAt = some last ∧ first ≤ last ∧
      (∀ taskId, machine.Executed taskId → ∃ start stop,
        (machine.shared.recordOf taskId).startedAt = some start ∧
        (machine.shared.recordOf taskId).finishedAt = some stop ∧
        first ≤ start ∧ start ≤ stop ∧ stop ≤ last) ∧
      (∀ taskId, machine.stateOf taskId = .upstreamFailed →
        (machine.shared.recordOf taskId).startedAt = none ∧
        ∃ stop, (machine.shared.recordOf taskId).finishedAt = some stop ∧
          first ≤ stop ∧ stop ≤ last) ∧
      ∀ up taskId, engine.workflow.Edge up taskId → machine.Executed taskId → ∃ stop start,
        (machine.shared.recordOf up).finishedAt = some stop ∧
        (machine.shared.recordOf taskId).startedAt = some start ∧ stop ≤ start := by
  have reachable := Reachable.steps run
  obtain ⟨timed, ended⟩ := Timed.steps forward run
  obtain ⟨last, finishedAt, begun, dated⟩ := ended returned
  -- An executed task has both dates.
  have both : ∀ taskId, machine.Executed taskId →
      (machine.shared.view taskId).record.startedAt ≠ none ∧
        (machine.shared.view taskId).record.finishedAt ≠ none := by
    intro taskId executed
    have dates := (dated taskId).dates
    rcases reachable.state_of_executed returned executed with state | state
    · rwa [HasDates, state] at dates
    · rwa [HasDates, state] at dates
  refine ⟨env.clock 0, last, (RunIdentity.steps run).startedAt, finishedAt, begun, ?_, ?_, ?_⟩
  · intro taskId executed
    obtain ⟨started, finished⟩ := both taskId executed
    obtain ⟨start, startedAt⟩ := Option.ne_none_iff_exists'.mp started
    obtain ⟨stop, stoppedAt⟩ := Option.ne_none_iff_exists'.mp finished
    exact ⟨start, stop, startedAt, stoppedAt, ((dated taskId).started start startedAt).1,
      (dated taskId).ordered start startedAt stop stoppedAt,
      ((dated taskId).finished stop stoppedAt).2⟩
  · intro taskId blocked
    have dates := (dated taskId).dates
    have state : (machine.shared.view taskId).record.state = .upstreamFailed := blocked
    rw [HasDates, state] at dates
    obtain ⟨stop, stoppedAt⟩ := Option.ne_none_iff_exists'.mp dates.2
    exact ⟨dates.1, stop, stoppedAt, (dated taskId).finished stop stoppedAt⟩
  · intro up taskId edge executed
    obtain ⟨start, startedAt⟩ := Option.ne_none_iff_exists'.mp (both taskId executed).1
    obtain ⟨success, before⟩ := timed.ordered up taskId edge start startedAt
    have dates := (dated up).dates
    rw [HasDates, success] at dates
    obtain ⟨stop, stoppedAt⟩ := Option.ne_none_iff_exists'.mp dates.2
    exact ⟨stop, start, stoppedAt, startedAt, before stop stoppedAt⟩

theorem timestamps_nested_pipeline : ∃ machine,
    (pipeline 2 (by decide)).replay { runId := "run", clock := fun reading => reading }
      ((pipeline 2 (by decide)).start { runId := "run", clock := fun reading => reading })
      pipelineChoices = some machine ∧
    machine.shared.run.startedAt = some 0 ∧
    ∃ stop start, (machine.shared.recordOf "extract").finishedAt = some stop ∧
      (machine.shared.recordOf "transform").startedAt = some start ∧ stop ≤ start := by
  have shown : ((pipeline 2 (by decide)).replay { runId := "run", clock := fun reading => reading }
      ((pipeline 2 (by decide)).start { runId := "run", clock := fun reading => reading })
      pipelineChoices).map (fun machine => (machine.status, machine.shared.run.startedAt,
        machine.shared.calls.any fun context => context.taskId = "transform")) =
      some (.returned, some 0, true) := by decide +kernel
  obtain ⟨machine, replayed, shows⟩ := Option.map_eq_some_iff.mp shown
  simp only [Prod.mk.injEq, List.any_eq_true, decide_eq_true_eq] at shows
  obtain ⟨returned, startedAt, executed⟩ := shows
  obtain ⟨_, _, _, _, _, _, _, ordered⟩ := timestamps_nested (pipeline 2 (by decide))
    { runId := "run", clock := fun reading => reading } (fun _ _ => Nat.cast_le.mpr)
    (steps_of_replay _ _ replayed) returned
  exact ⟨machine, replayed, startedAt, ordered "extract" "transform" (by decide) executed⟩

end EtlOrchestrator
