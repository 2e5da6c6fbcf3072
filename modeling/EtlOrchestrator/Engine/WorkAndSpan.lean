import EtlOrchestrator.Engine.Metrics
import EtlOrchestrator.Engine.Timestamps
import EtlOrchestrator.Foundations.WorkAndSpan

/-!
# How long a run takes at least

A task is executed by one worker from its start to its end, with all its attempts and the delays
between them. So all tasks together take at most as much time as the workers have during the run,
and the tasks of a chain of dependencies take at most as much as the run itself (`work_and_span`).
-/

set_option autoImplicit false

namespace EtlOrchestrator

open Relation WorkflowEngine WorkAndSpan

/-- The start and the end of a record that has both. -/
def TaskRunRecord.ends (record : TaskRunRecord) : Option (ℚ × ℚ) :=
  match record.startedAt, record.finishedAt with
  | some start, some stop => some (start, stop)
  | _, _ => none

theorem TaskRunRecord.ends_eq_some_iff {record : TaskRunRecord} {ends : ℚ × ℚ} :
    record.ends = some ends ↔ ∃ start stop, record.startedAt = some start ∧
      record.finishedAt = some stop ∧ ends = (start, stop) := by
  rw [TaskRunRecord.ends]
  cases record.startedAt with
  | none => simp
  | some start =>
      cases record.finishedAt with
      | none => simp
      | some stop => simp [eq_comm]

/-- The time from the first start of a task to its last end. -/
def TaskRunRecord.duration (record : TaskRunRecord) : ℚ :=
  record.ends.elim 0 fun ends => ends.2 - ends.1

/-- The times and the busy tasks in a state of a run. -/
def Machine.moment (env : Env) (machine : Machine) : Moment String ℚ where
  now := machine.now env
  busy := machine.active.toFinset
  start taskId := (machine.shared.recordOf taskId).startedAt
  stop taskId := (machine.shared.recordOf taskId).finishedAt

section

variable {engine : AcceptedEngine} {env : Env} {machine next : Machine} {taskId : String}

/-- The times of a task lie in the past. -/
theorem Timed.past (timed : Timed engine env machine) (taskId : String) :
    (machine.moment env).Past taskId := fun start started =>
  ⟨((timed.dated taskId).started start started).2, fun stop stopped =>
    ⟨(timed.dated taskId).ordered start started stop stopped,
      ((timed.dated taskId).finished stop stopped).2⟩⟩

/-- A task that waits has not started. -/
theorem Timed.not_started (timed : Timed engine env machine)
    (waits : (machine.shared.view taskId).record.state = .pending ∨
      (machine.shared.view taskId).record.state = .upstreamFailed) :
    (machine.moment env).start taskId = none := by
  have dates := (timed.dated taskId).dates
  rcases waits with state | state
  · rw [HasDates, state] at dates
    exact dates.1
  · rw [HasDates, state] at dates
    exact dates.1

/-- No more tasks are held than there are workers. -/
theorem Reachable.card_busy (reachable : Reachable engine env machine) :
    (machine.moment env).busy.card ≤ engine.maxWorkers := by
  obtain ⟨past, invariant⟩ := reachable.invariant
  calc (machine.moment env).busy.card ≤ machine.active.length := machine.active.toFinset_card_le
    _ ≤ engine.workers machine.jobs := invariant.width
    _ ≤ engine.maxWorkers := min_le_left _ _

/-- A step that leaves the records, the workers and the clock alone. -/
theorem passes_of_same (reachable : Reachable engine env machine)
    (shared : next.shared = machine.shared) (active : next.active = machine.active) :
    Passes engine.maxWorkers (machine.moment env) (next.moment env) := by
  have same : next.moment env = machine.moment env := by
    rw [Machine.moment, Machine.moment, Machine.now, Machine.now, shared, active]
  rw [same]
  exact ⟨le_refl _, reachable.card_busy, fun taskId =>
    Moment.elapsed_of_same rfl rfl Iff.rfl (le_refl _)⟩

/-- A step of a worker takes time of the busy tasks. -/
theorem passes_of_work (forward : Monotone env.clock) (reachable : Reachable engine env machine)
    (timed : Timed engine env machine) (held : taskId ∈ machine.active) :
    Passes engine.maxWorkers (machine.moment env)
      ((engine.work env machine taskId).moment env) := by
  have ok := reachable.task_ok taskId
  have elapses : machine.now env ≤ (engine.work env machine taskId).now env := by
    have respects := Reads.changes.act env engine.toWorkflowEngine taskId (machine.pcs taskId)
    exact forward (advance_of_respects respects machine.shared)
  refine ⟨elapses, reachable.card_busy, fun other => ?_⟩
  by_cases same : other = taskId
  · subst same
    have stamp : Stamp (machine.now env) (machine.shared.view other)
        ((engine.work env machine other).shared.view other) :=
      AcceptedEngine.advance_stamp ok other
    have busy : other ∈ (machine.moment env).busy := List.mem_toFinset.mpr held
    refine Moment.elapsed_of_busy (timed.past other) busy busy elapses fun start started => ?_
    rcases stamp.startedAt started with old | ⟨now, _⟩
    · exact .inl old
    · exact .inr now
  · rcases Invariant.advance_other ok same with view | ⟨_, _, _, _, _, pending, view⟩
    · have record : (engine.work env machine taskId).shared.recordOf other =
          machine.shared.recordOf other := congrArg TaskView.record view
      exact Moment.elapsed_of_same (congrArg TaskRunRecord.startedAt record)
        (congrArg TaskRunRecord.finishedAt record) Iff.rfl elapses
    · have notStarted := timed.not_started (.inl pending)
      have record : (engine.work env machine taskId).shared.recordOf other =
          _ := congrArg TaskView.record view
      have still : ((engine.work env machine taskId).moment env).start other = none :=
        (congrArg TaskRunRecord.startedAt record).trans notStarted
      rw [Moment.elapsed_of_not_started still, Moment.elapsed_of_not_started notStarted, zero_add]
      split
      · exact sub_nonneg.mpr elapses
      · exact le_refl _

/-- **A step of a run takes time of busy tasks only.** -/
theorem passes_of_step (forward : Monotone env.clock) (reachable : Reachable engine env machine)
    (timed : Timed engine env machine) (step : engine.Step env machine next) :
    Passes engine.maxWorkers (machine.moment env) (next.moment env) := by
  obtain ⟨past, invariant⟩ := reachable.invariant
  cases step with
  | submit => exact passes_of_same reachable rfl rfl
  | raise => exact passes_of_same reachable rfl rfl
  | work _ held => exact passes_of_work forward reachable timed held
  | @take taskId rest _ waiting _ =>
      refine ⟨le_refl _, reachable.card_busy, fun other => ?_⟩
      by_cases same : other = taskId
      · subst same
        have inQueue : other ∈ machine.queue := waiting ▸ List.mem_cons_self
        have ok := invariant.tasks other
        rw [invariant.waiting other inQueue] at ok
        have notStarted : (machine.moment env).start other = none := timed.not_started (by
          rcases ok.2 with at' | ⟨at', _⟩
          · exact .inl at'.state
          · exact .inr at'.state)
        have still : (Machine.moment env { machine with
            queue := rest, active := other :: machine.active }).start other = none := notStarted
        rw [Moment.elapsed_of_not_started still, Moment.elapsed_of_not_started notStarted,
          zero_add]
        split
        · exact (sub_self _).ge
        · exact le_refl _
      · exact Moment.elapsed_of_same rfl rfl (by simp [Machine.moment, same]) (le_refl _)
  | @leave taskId _ held _ =>
      refine ⟨le_refl _, reachable.card_busy, fun other => ?_⟩
      by_cases same : other = taskId
      · subst same
        have busy : other ∈ (machine.moment env).busy := List.mem_toFinset.mpr held
        have distinct := (List.nodup_append.mp invariant.distinct).2.1
        have left : other ∉ (machine.active.erase other).toFinset := fun member =>
          distinct.not_mem_erase (List.mem_toFinset.mp member)
        have drops : (Machine.moment env { machine with
            active := machine.active.erase other }).elapsed other ≤
              (machine.moment env).elapsed other :=
          Moment.elapsed_of_left (timed.past other) busy rfl rfl left
        rw [if_pos busy]
        exact drops.trans (le_add_of_nonneg_right (sub_self _).ge)
      · refine Moment.elapsed_of_same rfl rfl ?_ (le_refl _)
        simp [Machine.moment, List.mem_erase_of_ne same]
  | finish running drained idle last returned =>
      obtain ⟨after, ran, views, _⟩ := reachable.finishRun running drained idle last returned
      rw [WorkflowEngine.finish_of_ok ran]
      have elapses : machine.now env ≤ env.clock after.clockReads :=
        forward ((Reads.changes.finishRun env).of_ok ran)
      refine ⟨elapses, reachable.card_busy, fun other => ?_⟩
      have record : after.recordOf other = machine.shared.recordOf other :=
        congrArg TaskView.record (views other)
      exact Moment.elapsed_of_same (congrArg TaskRunRecord.startedAt record)
        (congrArg TaskRunRecord.finishedAt record) Iff.rfl elapses

/-- Where no task is busy, each has taken its duration. -/
theorem elapsed_of_idle (idle : machine.active = []) (taskId : String) :
    (machine.moment env).elapsed taskId = (machine.shared.recordOf taskId).duration := by
  have notBusy : taskId ∉ (machine.moment env).busy := by simp [Machine.moment, idle]
  have start : (machine.moment env).start taskId =
      (machine.shared.recordOf taskId).startedAt := rfl
  have stop : (machine.moment env).stop taskId =
      (machine.shared.recordOf taskId).finishedAt := rfl
  rw [Moment.elapsed, start, stop, TaskRunRecord.duration, TaskRunRecord.ends]
  cases (machine.shared.recordOf taskId).startedAt with
  | none => rfl
  | some start =>
      dsimp only
      rw [if_neg notBusy]
      cases (machine.shared.recordOf taskId).finishedAt with
      | none => exact sub_self start
      | some stop => rfl

/-- **In every state of every run the tasks are within the capacity of the workers**, and in one
that has returned so are their durations. -/
theorem within_of_steps (forward : Monotone env.clock)
    (run : engine.Steps env (engine.start env) machine) :
    WithinCapacity engine.workflow.tasks.keySet engine.maxWorkers (env.clock 0)
      (machine.moment env) ∧
    (machine.status = .returned → ∃ last, machine.shared.run.finishedAt = some last ∧
      ∑ taskId ∈ engine.workflow.tasks.keySet, (machine.shared.recordOf taskId).duration ≤
        engine.maxWorkers * (last - env.clock 0)) := by
  induction run with
  | refl =>
      obtain ⟨shared, levels, same, _, _, views, _⟩ := start_eq engine env
      rw [same]
      refine ⟨?_, fun returned => by cases returned⟩
      have notStarted : ∀ taskId,
          (Machine.moment env { shared, levels }).start taskId = none := fun taskId =>
        congrArg (fun view : TaskView => view.record.startedAt) (views taskId)
      rw [WithinCapacity, Finset.sum_eq_zero fun taskId _ =>
        Moment.elapsed_of_not_started (notStarted taskId)]
      exact mul_nonneg (Nat.cast_nonneg _) (sub_nonneg.mpr (forward (Nat.zero_le _)))
  | @tail machine next steps step ih =>
      have reachable := Reachable.steps steps
      have timed := (Timed.steps forward steps).1
      refine ⟨ih.1.passes (passes_of_step forward reachable timed step), fun returned => ?_⟩
      have running := step.running
      cases step with
      | finish _ drained idle last returnedJobs =>
          obtain ⟨after, ran, views, _⟩ :=
            reachable.finishRun running drained idle last returnedJobs
          rw [WorkflowEngine.finish_of_ok ran]
          refine ⟨machine.now env, (Timed.finishRun_finishedAt ran).1, ?_⟩
          have within := ih.1
          rw [WithinCapacity, Finset.sum_congr rfl fun taskId _ =>
            elapsed_of_idle idle taskId] at within
          refine (Finset.sum_congr rfl fun taskId _ => ?_).trans_le within
          exact congrArg (fun view : TaskView => view.record.duration) (views taskId)
      | raise => cases returned
      | _ => cases running.symm.trans returned

/-- The times of the tasks are a timetable of the dependencies. -/
theorem Timed.timetable {last : ℚ} (timed : Timed engine env machine)
    (begun : env.clock 0 ≤ last)
    (dated : ∀ taskId, Dated (env.clock 0) last (machine.shared.view taskId).record) :
    Timetable engine.workflow.Edge (env.clock 0) last fun taskId =>
      (machine.shared.recordOf taskId).ends where
  begun := begun
  inside taskId ends found := by
    obtain ⟨start, stop, startedAt, finishedAt, rfl⟩ := TaskRunRecord.ends_eq_some_iff.mp found
    exact ⟨((dated taskId).started start startedAt).1,
      (dated taskId).ordered start startedAt stop finishedAt,
      ((dated taskId).finished stop finishedAt).2⟩
  ordered up taskId edge ends found := by
    obtain ⟨start, stop, startedAt, _, rfl⟩ := TaskRunRecord.ends_eq_some_iff.mp found
    obtain ⟨success, before⟩ := timed.ordered up taskId edge start startedAt
    have dates := (timed.dated up).dates
    rw [HasDates, success] at dates
    obtain ⟨upStart, upStartedAt⟩ := Option.ne_none_iff_exists'.mp dates.1
    obtain ⟨upStop, upFinishedAt⟩ := Option.ne_none_iff_exists'.mp dates.2
    exact ⟨(upStart, upStop),
      TaskRunRecord.ends_eq_some_iff.mpr ⟨upStart, upStop, upStartedAt, upFinishedAt, rfl⟩,
      before upStop upFinishedAt⟩

end

/-- The metrics of a run that has ended have its duration. -/
theorem durationSeconds_of_computed {run : RunSnapshot} {metrics : RunMetrics}
    (computed : computeRunMetrics run = .ok metrics) {first last : ℚ}
    (startedAt : run.startedAt = some first) (finishedAt : run.finishedAt = some last) :
    metrics.durationSeconds = some (last - first) := by
  rw [computeRunMetrics, startedAt, finishedAt, Except.bind_eq_ok_iff] at computed
  obtain ⟨_, _, result⟩ := computed
  cases result
  rfl

/-- **With a clock that never goes backwards, the tasks of a run that has returned have taken at
most as much time together as its workers, and the tasks of a chain of dependencies at most as much
as the run.** -/
theorem work_and_span (engine : AcceptedEngine) (env : Env) (forward : Monotone env.clock)
    {machine : Machine} (run : engine.Steps env (engine.start env) machine)
    (returned : machine.status = .returned) :
    ∃ metrics duration, computeRunMetrics machine.shared.run.snapshot = .ok metrics ∧
      metrics.durationSeconds = some duration ∧
      ∑ taskId ∈ engine.workflow.tasks.keySet, (machine.shared.recordOf taskId).duration ≤
        engine.maxWorkers * duration ∧
      ∀ chain : List String, chain.IsChain engine.workflow.Edge →
        (chain.map fun taskId => (machine.shared.recordOf taskId).duration).sum ≤ duration := by
  obtain ⟨timed, ended⟩ := Timed.steps forward run
  obtain ⟨last, finishedAt, begun, dated⟩ := ended returned
  obtain ⟨other, otherFinishedAt, work⟩ := (within_of_steps forward run).2 returned
  cases finishedAt.symm.trans otherFinishedAt
  obtain ⟨metrics, computed⟩ := ((Reachable.steps run).isResult returned).exists_metrics
  have startedAt := (RunIdentity.steps run).startedAt
  exact ⟨metrics, last - env.clock 0, computed,
    durationSeconds_of_computed computed startedAt finishedAt, work,
    fun chain isChain => (timed.timetable begun dated).sum_chain_le isChain⟩

theorem work_and_span_pipeline : ∃ machine,
    (pipeline 2 (by decide)).replay { runId := "timed", clock := fun reading => reading }
      ((pipeline 2 (by decide)).start { runId := "timed", clock := fun reading => reading })
      pipelineChoices = some machine ∧
    ∃ metrics duration, computeRunMetrics machine.shared.run.snapshot = .ok metrics ∧
      metrics.durationSeconds = some duration ∧
      (machine.shared.recordOf "extract").duration +
        (machine.shared.recordOf "transform").duration ≤ duration := by
  have shown : ((pipeline 2 (by decide)).replay
      { runId := "timed", clock := fun reading => reading }
      ((pipeline 2 (by decide)).start { runId := "timed", clock := fun reading => reading })
      pipelineChoices).map Machine.status = some .returned := by decide +kernel
  obtain ⟨machine, replayed, returned⟩ := Option.map_eq_some_iff.mp shown
  obtain ⟨metrics, duration, computed, lasts, _, chains⟩ := work_and_span (pipeline 2 (by decide))
    { runId := "timed", clock := fun reading => reading } (fun _ _ => Nat.cast_le.mpr)
    (steps_of_replay _ _ replayed) returned
  have isChain : ["extract", "transform"].IsChain (pipeline 2 (by decide)).workflow.Edge :=
    List.isChain_pair.mpr (by decide)
  refine ⟨machine, replayed, metrics, duration, computed, lasts, ?_⟩
  have spans := chains _ isChain
  rwa [List.map_cons, List.map_cons, List.map_nil, List.sum_cons, List.sum_cons, List.sum_nil,
    add_zero] at spans

end EtlOrchestrator
