import EtlOrchestrator.Engine.Completion

/-!
# The entries of the transition log

Every step of a thread notes only entries about the task that it touches (`act_notes`). So each
entry in the log of a run is about the workflow or about one of its tasks (`Reachable.isEntry`).
-/

set_option autoImplicit false

namespace EtlOrchestrator

open WorkflowEngine

/-! ## What programs note -/

/-- A program extends the log by entries of a kind. -/
def Notes (kind : LogEntry → Prop) (before after : RunState) : Prop :=
  ∃ own, after.run.log = before.run.log ++ own ∧ ∀ entry ∈ own, kind entry

namespace Notes

variable {kind : LogEntry → Prop} {taskId : String}

instance : Std.Refl (Notes kind) := ⟨fun _ => ⟨[], (List.append_nil _).symm, nofun⟩⟩

instance : IsTrans RunState (Notes kind) := by
  refine ⟨fun first second third earlier later => ?_⟩
  obtain ⟨own, sameLog, ofKind⟩ := earlier
  obtain ⟨more, moreLog, moreOfKind⟩ := later
  refine ⟨own ++ more, by rw [moreLog, sameLog, List.append_assoc], fun entry member => ?_⟩
  exact (List.mem_append.mp member).elim (ofKind entry) (moreOfKind entry)

/-- A change that keeps the log adds no entry. -/
theorem silent {change : RunState → RunState}
    (sameLog : ∀ state, (change state).run.log = state.run.log) :
    Respects (Notes kind) (modify change : Exec Unit) :=
  .modify fun state => ⟨[], by rw [sameLog, List.append_nil], nofun⟩

theorem note {entry : LogEntry} (ofKind : kind entry) : Respects (Notes kind) (Exec.note entry) :=
  .modify fun _ => ⟨[entry], rfl, fun _ member => List.mem_singleton.mp member ▸ ofKind⟩

theorem emit (event : Event) : Respects (Notes kind) (Exec.emit event) := silent fun _ => rfl

theorem now (env : Env) : Respects (Notes kind) (Exec.now env) :=
  fun state => ⟨[], (List.append_nil state.run.log).symm, nofun⟩

theorem moveWorkflow (target : WorkflowState) :
    Respects (Notes kind) (Exec.moveWorkflow target) := by
  refine Respects.get.bind fun state => (emit _).bind fun _ => ?_
  cases transitionWorkflow state.run.workflowState target with
  | ok _ => exact silent fun _ => rfl
  | error error => exact .throw _

/-- An elementary change notes an entry about its task, if any. -/
theorem of_change {touched : String} {allowed : ChangeKind → Prop} {before after : RunState}
    (change : Change touched allowed before after) :
    Notes (fun entry => entry.owner? = some touched) before after := by
  cases change with
  | note isAbout => exact ⟨[_], rfl, fun _ member => List.mem_singleton.mp member ▸ isAbout⟩
  | record => exact ⟨[], by simp [RunState.record], nofun⟩
  | _ => exact ⟨[], (List.append_nil _).symm, nofun⟩

end Notes

/-- **The entries that a step of a thread adds are about the task that it touches.** -/
theorem WorkflowEngine.act_notes (engine : WorkflowEngine) (env : Env) (taskId : String) (pc : Pc) :
    Respects (Notes fun entry => entry.owner? = some (pc.touched taskId))
      (engine.act env taskId pc) :=
  (engine.act_makes env taskId pc).of_closure fun _ _ => Notes.of_change

/-! ## The entries of a run -/

/-- An entry of a run is about the workflow or about one of its tasks. -/
def WorkflowEngine.IsEntry (engine : WorkflowEngine) (entry : LogEntry) : Prop :=
  (∃ source target, entry = .workflowMoved source target) ∨
    ∃ taskId ∈ engine.workflow.tasks, entry.owner? = some taskId

variable {engine : AcceptedEngine} {env : Env} {machine : Machine}

theorem WorkflowEngine.beginRun_notes (engine : WorkflowEngine) (env : Env) :
    Respects (Notes engine.IsEntry) (beginRun env) := by
  refine .bind (Notes.silent fun _ => rfl) fun _ => (Notes.now env).bind fun _ => ?_
  refine .bind (Notes.silent fun _ => rfl) fun _ => (Notes.moveWorkflow _).bind fun _ => ?_
  exact (Notes.note (.inl ⟨_, _, rfl⟩)).bind fun _ => Respects.get.bind fun _ => Notes.emit _

theorem WorkflowEngine.finishRun_notes (engine : WorkflowEngine) (env : Env) :
    Respects (Notes engine.IsEntry) (finishRun env) := by
  refine Respects.get.bind fun state => ?_
  cases aggregateWorkflowState state.run.taskStates with
  | none => exact .throw _
  | some final =>
      refine (Notes.moveWorkflow _).bind fun _ => (Notes.now env).bind fun _ => ?_
      refine .bind (Notes.silent fun _ => rfl) fun _ => ?_
      exact (Notes.note (.inl ⟨_, _, rfl⟩)).bind fun _ => Respects.get.bind fun _ => Notes.emit _

/-- What extends a log of entries of a kind by entries of the kind. -/
theorem Notes.forall_mem {kind : LogEntry → Prop} {before after : RunState}
    (notes : Notes kind before after) (old : ∀ entry ∈ before.run.log, kind entry) :
    ∀ entry ∈ after.run.log, kind entry := by
  obtain ⟨own, sameLog, ofKind⟩ := notes
  intro entry member
  rw [sameLog, List.mem_append] at member
  exact member.elim (old entry) (ofKind entry)

/-- **The entries of a run are about the workflow or about one of its tasks.** -/
theorem Reachable.isEntry (run : engine.Steps env (engine.start env) machine) :
    ∀ entry ∈ machine.shared.run.log, engine.IsEntry entry := by
  induction run with
  | refl =>
      obtain ⟨shared, levels, same, _, began, _⟩ := start_eq engine env
      rw [same]
      exact ((engine.beginRun_notes env).of_ok began).forall_mem nofun
  | @tail machine next steps step ih =>
      have reachable := Reachable.steps steps
      cases step with
      | @work taskId running held unfinished =>
          obtain ⟨past, invariant⟩ := reachable.invariant
          have known := Invariant.touched_known (invariant.tasks taskId)
            (invariant.known (invariant.submitted taskId (.inr held)))
          have notes : Respects (Notes engine.IsEntry)
              (engine.act env taskId (machine.pcs taskId)) := by
            have own := engine.act_notes env taskId (machine.pcs taskId)
            refine own.mono fun before after added => ?_
            obtain ⟨own, sameLog, about⟩ := added
            exact ⟨own, sameLog, fun entry member => .inr ⟨_, known, about entry member⟩⟩
          exact (WorkflowEngine.advance_of_respects notes machine.shared).forall_mem ih
      | finish running drained idle last returned =>
          obtain ⟨after, ran, _⟩ := reachable.finishRun running drained idle last returned
          rw [WorkflowEngine.finish_of_ok ran]
          exact ((engine.finishRun_notes env).of_ok ran).forall_mem ih
      | _ => exact ih

end EtlOrchestrator
