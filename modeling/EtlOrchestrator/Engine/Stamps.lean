import EtlOrchestrator.Engine.Safety

/-!
# What the steps of a thread write

A step of a thread reads the clock at most once, and what it shows of any task is
one of a few stamps (`Stamp`): it leaves the record and the assigned states alone,
or it assigns a state together with the fields that go with it. What holds of the
records along a run is proved by cases on the stamps.
-/

set_option autoImplicit false

namespace EtlOrchestrator

open BlockingEvaluation Relation WorkflowEngine

/-- The present reading of the clock in a state of a run. -/
def Machine.now (env : Env) (machine : Machine) : ℚ := env.clock machine.shared.clockReads

/-- What a step with a reading of the clock shows of a task. -/
inductive Stamp (now : ℚ) : TaskView → TaskView → Prop
  | keep {view after : TaskView} (record : after.record = view.record)
      (assigned : after.assigned = view.assigned) : Stamp now view after
  | start {view : TaskView}
      (waiting : view.record.state = .pending ∧ view.record.attempts = 0 ∨
        view.record.state = .retrying) :
      Stamp now view (view.moving view.record.state .running fun record =>
        { record with
          attempts := view.record.attempts + 1
          startedAt := some (record.startedAt.getD now) })
  | fail {view : TaskView} (error : Option String) (running : view.record.state = .running) :
      Stamp now view (view.moving .running .failed fun record =>
        { record with error, finishedAt := some now })
  | retry {view : TaskView} (instant : ℚ) (failed : view.record.state = .failed)
      (attempted : 1 ≤ view.record.attempts) :
      Stamp now view (view.moving .failed .retrying fun record =>
        { record with nextRetryAt := some instant })
  | abort {view : TaskView} (failed : view.record.state = .failed)
      (attempted : 1 ≤ view.record.attempts) :
      Stamp now view
        { view with
          record := { view.record with state := .retrying }
          assigned := view.assigned ++ [.retrying] }
  | succeed {view : TaskView} (running : view.record.state = .running) :
      Stamp now view (view.moving .running .success fun record =>
        { record with finishedAt := some now, nextRetryAt := none })
  | block {view : TaskView} (failedTaskId : String) (pending : view.record.state = .pending) :
      Stamp now view (view.blocked failedTaskId now)

/-! ## Steps that assign no state -/

/-- A step that writes no record and assigns no state. -/
def SameStates (before after : RunState) : Prop :=
  ∀ taskId, (after.view taskId).record = (before.view taskId).record ∧
    (after.view taskId).assigned = (before.view taskId).assigned

instance : Std.Refl SameStates := ⟨fun _ _ => ⟨rfl, rfl⟩⟩

instance : IsTrans RunState SameStates :=
  ⟨fun _ _ _ earlier later taskId =>
    ⟨(later taskId).1.trans (earlier taskId).1, (later taskId).2.trans (earlier taskId).2⟩⟩

namespace SameStates

theorem emit {event : Event} (noAssignment : ∀ taskId, event.assignment? taskId = none) :
    Respects SameStates (Exec.emit event) := by
  refine .modify fun state taskId => ?_
  rw [RunState.view_emit, noAssignment, Option.toList_none, List.append_nil]
  exact ⟨rfl, rfl⟩

theorem note (entry : LogEntry) : Respects SameStates (Exec.note entry) := by
  refine .modify fun state taskId => ?_
  rw [RunState.view_note]
  exact ⟨rfl, rfl⟩

theorem transition (taskId : String) (target : TaskState) :
    Respects SameStates (Exec.transition taskId target) := by
  have stateOf : Respects SameStates (Exec.stateOf taskId) := fun _ _ => ⟨rfl, rfl⟩
  refine stateOf.bind fun current => (emit fun _ => rfl).bind fun _ => ?_
  cases transitionTask current target with
  | ok _ => exact .pure ()
  | error error => exact .throw _

theorem taskHook (call : WorkflowRun → TaskRunRecord → HookCall) (taskId : String) :
    Respects SameStates (WorkflowEngine.taskHook call taskId) :=
  Respects.get.bind fun _ => emit fun _ => rfl

end SameStates

/-- The steps that assign a state. -/
def Pc.assigns : Pc → Bool
  | walk _ _ _ | start _ _ | fail _ _ _ | retry _ _ _ | succeed _ => true
  | _ => false

variable {engine : AcceptedEngine} {env : Env} {taskId : String} {state : RunState} {pc : Pc}

/-- Every other step keeps the records and the assigned states. -/
theorem WorkflowEngine.act_sameStates (engine : WorkflowEngine) (env : Env) (taskId : String)
    {pc : Pc} (quiet : pc.assigns = false) : Respects SameStates (engine.act env taskId pc) := by
  by_cases keeps : pc.keepsViews = true
  · exact (act_sameViews keeps).mono fun before after same taskId => by simp [same taskId]
  have recordOf : Respects SameStates (Exec.recordOf taskId) := fun _ _ => ⟨rfl, rfl⟩
  cases pc with
  | define => exact (Respects.ofExcept _).bind fun _ => recordOf.bind fun _ => .pure _
  | checkStart task attempt => exact (SameStates.transition _ _).bind fun _ => .pure _
  | hookStart task attempt => exact (SameStates.taskHook _ _).bind fun _ => .pure _
  | call task attempt =>
      refine Respects.bind ?_ fun result => ?_
      · rw [callTask]
        cases engine.tasks.get? taskId with
        | none => exact .pure _
        | some callable => exact (SameStates.emit fun _ => rfl).bind fun _ => .pure _
      · cases result with
        | ok _ => exact .pure _
        | error _ => exact .pure _
  | checkFail task attempt error => exact (SameStates.transition _ _).bind fun _ => .pure _
  | checkRetry task attempt =>
      exact Respects.bind ((Respects.ofExcept _).bind fun _ =>
        (SameStates.transition _ _).bind fun _ => .pure _) fun _ => .pure _
  | hookRetry task attempt delay => exact (SameStates.taskHook _ _).bind fun _ => .pure _
  | sleep task attempt delay =>
      have slept : Respects SameStates (sleep taskId delay) :=
        .ite (fun _ => SameStates.emit fun _ => rfl) fun _ => .pure ()
      exact slept.bind fun _ => .pure _
  | permanent attempt => exact (SameStates.note _).bind fun _ => .pure _
  | hookFailure => exact (SameStates.taskHook _ _).bind fun _ => .pure _
  | checkSucceed attempt => exact (SameStates.transition _ _).bind fun _ => .pure _
  | hookSuccess attempt => exact (SameStates.taskHook _ _).bind fun _ => .pure _
  | walk _ _ _ | start _ _ | fail _ _ _ | retry _ _ _ | succeed _ => cases quiet
  | _ => exact absurd rfl keeps

/-- **A step stamps every task with the present reading of the clock.** -/
theorem AcceptedEngine.advance_stamp (ok : engine.TaskOk env taskId (state.view taskId) pc)
    (other : String) : Stamp (env.clock state.clockReads) (state.view other)
      ((engine.advance env taskId state pc).1.view other) := by
  by_cases quiet : pc.assigns = false
  · have same := advance_of_respects (engine.act_sameStates env taskId quiet) state other
    exact .keep same.1 same.2
  by_cases apart : other ≠ taskId ∨ ∃ failedTaskId toVisit visited,
      pc = .walk failedTaskId toVisit visited
  · rcases engine.advance_other env taskId state pc apart with
      same | ⟨failedTaskId, rest, visited, _, _, pending, view⟩
    · rw [same]
      exact .keep rfl rfl
    · rw [view]
      exact .block _ pending
  rw [not_or, not_not] at apart
  obtain ⟨rfl, notWalk⟩ := apart
  cases pc with
  | walk failedTaskId toVisit visited => exact absurd ⟨_, _, _, rfl⟩ notWalk
  | start task attempt =>
      obtain ⟨after, ran, view⟩ := startAttempt_view env state other task attempt
      obtain ⟨_, attempting, at'⟩ := ok
      have next : attempt = (state.view other).record.attempts + 1 := by
        have positive := attempting.positive
        have attempts := at'.attempts
        omega
      have waiting : (state.view other).record.state = .pending ∧
          (state.view other).record.attempts = 0 ∨
          (state.view other).record.state = .retrying := by
        by_cases first : attempt = 1
        · exact .inl ⟨at'.state.trans (if_pos first), by omega⟩
        · exact .inr (at'.state.trans (if_neg first))
      have acted : (engine.act env other (.start task attempt)).run state =
          .ok (.hookStart task attempt) after := Exec.run_then ran _
      rw [advance_of_ok acted, view, ← at'.state, next]
      exact .start waiting
  | fail task attempt error =>
      obtain ⟨after, ran, view⟩ := failAttempt_view env state other error
      have acted : (engine.act env other (.fail task attempt error)).run state = .ok
          (if attempt < task.maxAttempts then .checkRetry task attempt else .permanent attempt)
          after := Exec.run_then ran _
      rw [advance_of_ok acted, view]
      exact .fail _ ok.2.2.state
  | retry task attempt delay =>
      obtain ⟨_, failing, _, _, at'⟩ := ok
      have attempted : 1 ≤ (state.view other).record.attempts :=
        at'.attempts.symm ▸ failing.positive
      have marked := markRetrying_view env state other task attempt delay
      cases instant : env.arithmetic.retryAt (env.clock state.clockReads) delay with
      | ok result =>
          rw [instant] at marked
          obtain ⟨after, ran, view⟩ := marked
          have acted : (engine.act env other (.retry task attempt delay)).run state =
              .ok (.hookRetry task attempt delay) after := Exec.run_then ran _
          rw [advance_of_ok acted, view]
          exact .retry _ at'.state attempted
      | error error =>
          rw [instant] at marked
          obtain ⟨after, ran, view⟩ := marked
          have acted : (engine.act env other (.retry task attempt delay)).run state =
              .error error after := Exec.run_raises ran _
          rw [advance_of_error acted, view]
          exact .abort at'.state attempted
  | succeed attempt =>
      obtain ⟨after, ran, view⟩ := succeedAttempt_view env state other
      have acted : (engine.act env other (.succeed attempt)).run state =
          .ok (.hookSuccess attempt) after := Exec.run_then ran _
      rw [advance_of_ok acted, view]
      exact .succeed ok.2.2.state
  | _ => exact absurd rfl quiet

/-- **What holds of a fresh task and is kept by the stamps holds of every task in
every state of every run.** -/
theorem Reachable.views_of_stamps {engine : AcceptedEngine} {env : Env} {Holds : TaskView → Prop}
    (fresh : ∀ taskId, Holds (.fresh taskId))
    (kept : ∀ {now : ℚ} {view after : TaskView},
      view.record.state = view.assigned.getLastD .pending → Stamp now view after →
        Holds view → Holds after)
    {machine : Machine} (run : engine.Steps env (engine.start env) machine) (taskId : String) :
    Holds (machine.shared.view taskId) := by
  induction run with
  | refl =>
      obtain ⟨shared, levels, same, _, _, views, _⟩ := start_eq engine env
      rw [same, views]
      exact fresh taskId
  | tail steps step ih =>
      have reachable := Reachable.steps steps
      cases step with
      | work running held unfinished =>
          obtain ⟨_, tracked, _⟩ := (reachable.task_ok taskId).tracked
          exact kept tracked.state (AcceptedEngine.advance_stamp (reachable.task_ok _) taskId) ih
      | finish running drained idle last returned =>
          obtain ⟨after, ran, views, _⟩ := reachable.finishRun running drained idle last returned
          rw [WorkflowEngine.finish_of_ok ran]
          exact (views taskId).symm ▸ ih
      | _ => exact ih

end EtlOrchestrator
