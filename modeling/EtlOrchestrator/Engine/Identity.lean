import EtlOrchestrator.Engine.Completion

/-!
# What a run keeps from its beginning

A preorder on the states of a run that each elementary change of the engine
respects holds between any two states of a run (`Changes.steps`). The ids, the
parameters and the start of a run are kept in this way, and so is that each of its
records stands under its own task id.
-/

set_option autoImplicit false

namespace EtlOrchestrator

open Relation

/-! ## Changes -/

/-- A relation that the changes which the engine makes to a begun run respect. -/
structure Changes (relation : RunState → RunState → Prop) : Prop where
  record : ∀ state taskId, relation state (state.record taskId)
  update : ∀ state taskId change, (∀ record : TaskRunRecord, (change record).taskId =
    record.taskId) → relation state (state.update taskId change)
  emit : ∀ state event, relation state (state.emit event)
  note : ∀ state entry, relation state (state.note entry)
  tick : ∀ state : RunState, relation state { state with clockReads := state.clockReads + 1 }
  moved : ∀ state target, relation state (state.assignWorkflow target)
  finished : ∀ state now, relation state (state.finishedAt now)

namespace Changes

variable {relation : RunState → RunState → Prop}

theorem exec_emit (changes : Changes relation) (event : Event) :
    Respects relation (Exec.emit event) :=
  .modify fun state => changes.emit state event

variable [Std.Refl relation] [IsTrans RunState relation] (changes : Changes relation) (env : Env)

include changes

/-- Every step of a thread respects the relation. -/
theorem act (engine : WorkflowEngine) (taskId : String) (pc : Pc) :
    Respects relation (engine.act env taskId pc) := by
  refine (engine.act_makes env taskId pc).of_closure fun before after change => ?_
  cases change with
  | record => exact changes.record before _
  | update sameId _ => exact changes.update before _ _ sameId
  | emit => exact changes.emit before _
  | note => exact changes.note before _
  | tick => exact changes.tick before

/-- So does the end of a run. -/
theorem finishRun : Respects relation (WorkflowEngine.finishRun env) := by
  have now : Respects relation (Exec.now env) := changes.tick
  refine Respects.get.bind fun state => ?_
  cases aggregateWorkflowState state.run.taskStates with
  | none => exact .throw _
  | some final =>
      refine Respects.bind (Respects.get.bind fun other => (changes.exec_emit _).bind fun _ => ?_)
        fun _ => now.bind fun _ => Respects.bind
          (.modify fun state => changes.finished state _) fun _ => Respects.bind
          (.modify fun state => changes.note state _) fun _ => Respects.get.bind fun _ =>
          changes.exec_emit _
      cases transitionWorkflow other.run.workflowState final with
      | ok _ => exact .modify fun state => changes.moved state final
      | error error => exact .throw _

/-! ## Runs -/

/-- A step of the machine relates the states of the run before and after it. -/
theorem step {engine : WorkflowEngine} {machine next : Machine}
    (step : engine.Step env machine next) : relation machine.shared next.shared := by
  cases step with
  | @work taskId running held unfinished =>
      have respects := changes.act env engine taskId (machine.pcs taskId)
      exact WorkflowEngine.advance_of_respects respects machine.shared
  | finish running drained idle last returned =>
      rw [WorkflowEngine.finish]
      cases ran : (WorkflowEngine.finishRun env).run machine.shared with
      | ok result after => exact (changes.finishRun env).of_ok ran
      | error error after => exact (changes.finishRun env).of_error ran
  | _ => exact refl _

/-- **A relation that all changes respect holds between any two states of a run.** -/
theorem steps {engine : WorkflowEngine} {machine next : Machine}
    (run : engine.Steps env machine next) : relation machine.shared next.shared := by
  induction run with
  | refl => exact refl _
  | tail _ last ih => exact IsTrans.trans _ _ _ ih (changes.step env last)

end Changes

/-! ## The identity of a run -/

/-- Each record stands under its own task id. -/
def WorkflowRun.Keyed (run : WorkflowRun) : Prop :=
  ∀ taskId record, run.records.get? taskId = some record → record.taskId = taskId

/-- A later state of the same run. -/
structure SameRun (before after : RunState) : Prop where
  workflowId : after.run.workflowId = before.run.workflowId
  runId : after.run.runId = before.run.runId
  params : after.run.params = before.run.params
  startedAt : after.run.startedAt = before.run.startedAt
  keyed : before.run.Keyed → after.run.Keyed

instance : Std.Refl SameRun := ⟨fun _ => ⟨rfl, rfl, rfl, rfl, id⟩⟩

instance : IsTrans RunState SameRun :=
  ⟨fun _ _ _ earlier later =>
    ⟨later.workflowId.trans earlier.workflowId, later.runId.trans earlier.runId,
      later.params.trans earlier.params, later.startedAt.trans earlier.startedAt,
      later.keyed ∘ earlier.keyed⟩⟩

theorem WorkflowRun.Keyed.set {run : WorkflowRun} (keyed : run.Keyed) {taskId : String}
    {record : TaskRunRecord} (own : record.taskId = taskId) :
    ({ run with records := run.records.set taskId record } : WorkflowRun).Keyed := by
  intro other stored found
  by_cases same : other = taskId
  · subst same
    rw [OrderedDict.get?_set_self, Option.some_inj] at found
    exact found ▸ own
  · rw [OrderedDict.get?_set_of_ne _ _ same] at found
    exact keyed other stored found

/-- The record that a keyed run gives for a task carries its id. -/
theorem WorkflowRun.Keyed.recordOf_taskId {run : WorkflowRun} (keyed : run.Keyed)
    (taskId : String) : (run.recordOf taskId).taskId = taskId := by
  rw [WorkflowRun.recordOf, OrderedDict.getD]
  cases found : run.records.get? taskId with
  | none => rfl
  | some record => exact keyed taskId record found

theorem SameRun.changes : Changes SameRun where
  record state taskId := by
    by_cases present : taskId ∈ state.run.records
    · rw [show state.record taskId = state by simp [RunState.record, WorkflowRun.record, present]]
      exact refl state
    · rw [RunState.record, WorkflowRun.record, if_neg present]
      exact ⟨rfl, rfl, rfl, rfl, fun keyed => keyed.set rfl⟩
  update state taskId change sameId :=
    ⟨rfl, rfl, rfl, rfl, fun keyed => keyed.set ((sameId _).trans (keyed.recordOf_taskId taskId))⟩
  emit _ _ := ⟨rfl, rfl, rfl, rfl, id⟩
  note _ _ := ⟨rfl, rfl, rfl, rfl, id⟩
  tick _ := ⟨rfl, rfl, rfl, rfl, id⟩
  moved _ _ := ⟨rfl, rfl, rfl, rfl, id⟩
  finished _ _ := ⟨rfl, rfl, rfl, rfl, id⟩

/-- What a run is known by in each of its states. -/
structure RunIdentity (engine : WorkflowEngine) (env : Env) (run : WorkflowRun) : Prop where
  workflowId : run.workflowId = engine.workflow.workflowId
  runId : run.runId = env.runId
  params : run.params = env.params
  startedAt : run.startedAt = some (env.clock 0)
  keyed : run.Keyed

namespace RunIdentity

variable {engine : AcceptedEngine} {env : Env} {before after : RunState} {machine : Machine}

theorem of_sameRun (identity : RunIdentity engine.toWorkflowEngine env before.run)
    (same : SameRun before after) : RunIdentity engine.toWorkflowEngine env after.run where
  workflowId := same.workflowId.trans identity.workflowId
  runId := same.runId.trans identity.runId
  params := same.params.trans identity.params
  startedAt := same.startedAt.trans identity.startedAt
  keyed := same.keyed identity.keyed

/-- `run` begins with the identity of its run, read at the first look at the clock. -/
theorem beginRun : ∃ shared, (WorkflowEngine.beginRun env).run (engine.created env) =
    .ok () shared ∧ RunIdentity engine.toWorkflowEngine env shared.run := by
  refine ⟨_, rfl, rfl, rfl, rfl, rfl, fun taskId record stored => ?_⟩
  cases stored

/-- **Every state of a run has the identity of the run.** -/
theorem steps (run : engine.Steps env (engine.start env) machine) :
    RunIdentity engine.toWorkflowEngine env machine.shared.run := by
  obtain ⟨shared, levels, same, _, began, _⟩ := start_eq engine env
  obtain ⟨other, otherBegan, identity⟩ := @beginRun engine env
  rw [began] at otherBegan
  cases otherBegan
  have first : RunIdentity engine.toWorkflowEngine env (engine.start env).shared.run := by
    rw [same]
    exact identity
  exact first.of_sameRun (SameRun.changes.steps env run)

end RunIdentity

end EtlOrchestrator
