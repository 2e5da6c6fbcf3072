import EtlOrchestrator.Engine.ControlFlow
import EtlOrchestrator.Engine.Views

/-!
# What the steps of a thread change

Every step of a thread is a sequence of elementary changes on behalf of one task
(`act_makes`): `record()`, an update of the record, an entry of the trace or of
the log, and a look at the clock. Only some steps write an error, call the
callable or call a hook. A preorder on states that holds across each elementary
change holds across a step.

The first one is `Frame`: a step keeps the views of all other tasks, the view of
the workflow, and every record that exists.
-/

set_option autoImplicit false

namespace EtlOrchestrator

open SortedSet Relation

/-- A program that touches one task keeps the views of the others and of the
workflow, and every record, and calls no other callable. -/
structure Frame (touched : String) (before after : RunState) : Prop where
  view : ∀ other, other ≠ touched → after.view other = before.view other
  recorded : ∀ other, other ∈ after.run.records → other = touched ∨ other ∈ before.run.records
  kept : ∀ other, other ∈ before.run.records → other ∈ after.run.records
  workflow : after.workflowView = before.workflowView
  calls : ∃ own, after.calls = before.calls ++ own ∧ ∀ context ∈ own, context.taskId = touched

namespace Frame

variable {touched : String}

theorem no_calls {before after : RunState} (same : after.calls = before.calls) :
    ∃ own, after.calls = before.calls ++ own ∧ ∀ context ∈ own, context.taskId = touched :=
  ⟨[], by rw [same, List.append_nil], nofun⟩

instance : Std.Refl (Frame touched) :=
  ⟨fun _ => ⟨fun _ _ => rfl, fun _ => .inr, fun _ => id, rfl, no_calls rfl⟩⟩

instance : IsTrans RunState (Frame touched) := by
  refine ⟨fun first second third earlier later =>
    ⟨fun other different => ?_, fun other member => ?_,
      fun other member => later.kept other (earlier.kept other member),
      later.workflow.trans earlier.workflow, ?_⟩⟩
  · exact (later.view other different).trans (earlier.view other different)
  · rcases later.recorded other member with same | inSecond
    · exact .inl same
    · exact earlier.recorded other inSecond
  · obtain ⟨own, calls, about⟩ := earlier.calls
    obtain ⟨more, moreCalls, moreAbout⟩ := later.calls
    refine ⟨own ++ more, by rw [moreCalls, calls, List.append_assoc], fun context member => ?_⟩
    exact (List.mem_append.mp member).elim (about context) (moreAbout context)

/-- The entry of the trace is about the touched task. -/
structure IsEvent (touched : String) (event : Event) : Prop where
  assignment : ∀ other, other ≠ touched → event.assignment? other = none
  check : ∀ other, other ≠ touched → event.check? other = none
  call : ∀ context, event.call? = some context → context.taskId = touched
  workflowAssignment : event.workflowAssignment? = none
  workflowCheck : event.workflowCheck? = none

end Frame

/-! ## Elementary changes -/

/-- The changes that not every step may make. -/
inductive ChangeKind where
  | error
  | call
  | hook
  | sleep

/-- The kind of an entry of the trace that not every step adds. -/
def Event.kind? : Event → Option ChangeKind
  | called _ => some .call
  | hook _ => some .hook
  | slept _ _ => some .sleep
  | _ => none

/-- An elementary change on behalf of a task: an error is written, and the callable, a
hook or the sleeper is called, only where this is allowed. -/
inductive Change (touched : String) (allowed : ChangeKind → Prop) : RunState → RunState → Prop
  | record (state : RunState) : Change touched allowed state (state.record touched)
  | update (state : RunState) {change : TaskRunRecord → TaskRunRecord}
      (sameId : ∀ record, (change record).taskId = record.taskId)
      (sameError : (∀ record, (change record).error = record.error) ∨ allowed .error) :
      Change touched allowed state (state.update touched change)
  | emit (state : RunState) {event : Event} (isEvent : Frame.IsEvent touched event)
      (allows : ∀ kind, event.kind? = some kind → allowed kind) :
      Change touched allowed state (state.emit event)
  | note (state : RunState) {entry : LogEntry} (isAbout : entry.owner? = some touched) :
      Change touched allowed state (state.note entry)
  | tick (state : RunState) :
      Change touched allowed state { state with clockReads := state.clockReads + 1 }

/-- A program makes elementary changes on behalf of a task, and no other ones. -/
abbrev Makes (touched : String) (allowed : ChangeKind → Prop) {α : Type} (program : Exec α) :
    Prop :=
  Respects (ReflTransGen (Change touched allowed)) program

namespace Makes

variable {touched : String} {allowed : ChangeKind → Prop}

theorem record : Makes touched allowed (Exec.record touched) :=
  .modify fun state => .single (.record state)

/-- An update that writes neither the task id nor the error. -/
theorem update {change : TaskRunRecord → TaskRunRecord}
    (sameId : ∀ record, (change record).taskId = record.taskId)
    (sameError : ∀ record, (change record).error = record.error) :
    Makes touched allowed (Exec.update touched change) :=
  .modify fun state => .single (.update state sameId (.inl sameError))

theorem updateError {change : TaskRunRecord → TaskRunRecord}
    (sameId : ∀ record, (change record).taskId = record.taskId) (error : allowed .error) :
    Makes touched allowed (Exec.update touched change) :=
  .modify fun state => .single (.update state sameId (.inr error))

theorem emit {event : Event} (isEvent : Frame.IsEvent touched event)
    (allows : ∀ kind, event.kind? = some kind → allowed kind) :
    Makes touched allowed (Exec.emit event) :=
  .modify fun state => .single (.emit state isEvent allows)

theorem note {entry : LogEntry} (isAbout : entry.owner? = some touched) :
    Makes touched allowed (Exec.note entry) :=
  .modify fun state => .single (.note state isAbout)

theorem now (env : Env) : Makes touched allowed (Exec.now env) := fun state => .single (.tick state)

theorem recordOf (taskId : String) : Makes touched allowed (Exec.recordOf taskId) := fun _ => .refl

theorem stateOf (taskId : String) : Makes touched allowed (Exec.stateOf taskId) := fun _ => .refl

theorem assign (target : TaskState) : Makes touched allowed (Exec.assign touched target) := by
  have isEvent : Frame.IsEvent touched (.assigned touched target) :=
    ⟨fun _ different => if_neg different.symm, fun _ _ => rfl, nofun, rfl, rfl⟩
  have updated : Makes touched allowed
      (Exec.update touched fun record => { record with state := target }) :=
    update (fun _ => rfl) fun _ => rfl
  exact updated.bind fun _ => emit isEvent nofun

theorem transition (target : TaskState) :
    Makes touched allowed (Exec.transition touched target) := by
  refine (stateOf touched).bind fun current => (emit ?_ nofun).bind fun _ => ?_
  · exact ⟨fun _ _ => rfl, fun _ different => if_neg different.symm, nofun, rfl, rfl⟩
  · cases transitionTask current target with
    | ok _ => exact .pure ()
    | error error => exact .throw _

/-! ## Programs -/

variable (env : Env)

theorem blockTask (error : allowed .error) (failedTaskId : String) :
    Makes touched allowed (WorkflowEngine.blockTask env failedTaskId touched) := by
  refine record.bind fun _ => (stateOf touched).bind fun state =>
    .ite (fun _ => ?_) fun _ => .pure ()
  refine (transition _).bind fun _ => (assign _).bind fun _ => ?_
  refine .bind (updateError (fun _ => rfl) error) fun _ => (now env).bind fun _ => ?_
  exact .bind (update (fun _ => rfl) fun _ => rfl) fun _ => note rfl

theorem skipExecution : Makes touched allowed (WorkflowEngine.skipExecution touched) :=
  (stateOf touched).bind fun _ => note rfl

theorem startAttempt (task : Task) (attempt : ℕ) :
    Makes touched allowed (WorkflowEngine.startAttempt env touched task attempt) := by
  refine (assign _).bind fun _ => .bind (update (fun _ => rfl) fun _ => rfl) fun _ =>
    (recordOf _).bind fun _ => ?_
  have noted : Makes touched allowed (Exec.note (.started touched
      (if attempt = 1 then .pending else .retrying) attempt task.maxAttempts)) :=
    note rfl
  refine .ite (fun _ => ?_) fun _ => noted
  exact (now env).bind fun _ => .bind (update (fun _ => rfl) fun _ => rfl) fun _ => noted

theorem callTask (engine : WorkflowEngine) (call : allowed .call) (attempt : ℕ) :
    Makes touched allowed (engine.callTask env touched attempt) := by
  rw [WorkflowEngine.callTask]
  cases engine.tasks.get? touched with
  | none => exact .pure _
  | some callable =>
      have isEvent : Frame.IsEvent touched (.called (engine.context env touched attempt)) := by
        refine ⟨fun _ _ => rfl, fun _ _ => rfl, fun context same => ?_, rfl, rfl⟩
        cases same
        rfl
      refine (emit isEvent fun kind same => ?_).bind fun _ => .pure _
      cases same
      exact call

theorem failAttempt (error : allowed .error) (raised : PyError) :
    Makes touched allowed (WorkflowEngine.failAttempt env touched raised) := by
  refine (assign _).bind fun _ => .bind (updateError (fun _ => rfl) error) fun _ => ?_
  exact (now env).bind fun _ => .bind (update (fun _ => rfl) fun _ => rfl) fun _ => note rfl

theorem succeedAttempt : Makes touched allowed (WorkflowEngine.succeedAttempt env touched) := by
  refine (assign _).bind fun _ => (now env).bind fun _ => ?_
  refine .bind (update (fun _ => rfl) fun _ => rfl) fun _ => ?_
  exact .bind (update (fun _ => rfl) fun _ => rfl) fun _ => note rfl

theorem markRetrying (task : Task) (failedAttempt : ℕ) (delay : ℚ) : Makes touched allowed
    (WorkflowEngine.markRetrying env touched task failedAttempt delay) := by
  refine (assign _).bind fun _ => (now env).bind fun _ => (Respects.ofExcept _).bind fun _ => ?_
  exact .bind (update (fun _ => rfl) fun _ => rfl) fun _ => note rfl

theorem checkRetry (task : Task) (failedAttempt : ℕ) :
    Makes touched allowed (WorkflowEngine.checkRetry env touched task failedAttempt) :=
  (Respects.ofExcept _).bind fun _ => (transition _).bind fun _ => .pure _

theorem taskHook (hook : allowed .hook) (call : WorkflowRun → TaskRunRecord → HookCall) :
    Makes touched allowed (WorkflowEngine.taskHook call touched) := by
  refine Respects.get.bind fun state => emit ⟨fun _ _ => rfl, fun _ _ => rfl, nofun, rfl, rfl⟩ ?_
  intro kind same
  cases same
  exact hook

theorem sleep (awake : allowed .sleep) (delay : ℚ) :
    Makes touched allowed (WorkflowEngine.sleep touched delay) := by
  refine .ite (fun _ => emit ⟨fun _ _ => rfl, fun _ _ => rfl, nofun, rfl, rfl⟩ ?_) fun _ => .pure ()
  intro kind same
  cases same
  exact awake

end Makes

/-! ## Steps of threads -/

/-- The task whose record a step may touch: a block of `_block_downstream`
touches the dependent, `record()` in the scan touches the upstream, and every
other step touches the task of its thread. -/
def Pc.touched (taskId : String) : Pc → String
  | walk _ (dependent :: _) _ => dependent
  | scan (upstreamId :: _) => upstreamId
  | _ => taskId

/-- The hook that a step calls, with the run and the record of its task. -/
def Pc.hookCall? : Pc → Option (WorkflowRun → TaskRunRecord → HookCall)
  | hookStart _ _ => some .taskStart
  | hookRetry _ _ delay => some fun run record => .taskRetry run record delay
  | hookFailure => some .taskFailure
  | hookSuccess _ => some .taskSuccess
  | _ => none

/-- The changes that a step may make. -/
def Pc.Allows (pc : Pc) : ChangeKind → Prop
  | .error => match pc with
    | fail _ _ _ | walk _ _ _ => True
    | _ => False
  | .call => match pc with
    | call _ _ => True
    | _ => False
  | .hook => pc.hookCall? ≠ none
  | .sleep => match pc with
    | sleep _ _ _ => True
    | _ => False

/-- **A step of a thread makes the changes that its program point allows.** -/
theorem WorkflowEngine.act_makes (engine : WorkflowEngine) (env : Env) (taskId : String) (pc : Pc) :
    Makes (pc.touched taskId) pc.Allows (engine.act env taskId pc) := by
  cases pc with
  | enter => exact Makes.record.bind fun _ => .pure _
  | firstCheck =>
      exact (Makes.stateOf taskId).bind fun _ => .ite (fun _ => .pure _) fun _ => .pure _
  | skip => exact Makes.skipExecution.bind fun _ => .pure _
  | scan rest =>
      cases rest with
      | nil => exact .pure _
      | cons upstreamId rest => exact Makes.record.bind fun _ => .pure _
  | scanCheck upstreamId rest =>
      exact (Makes.stateOf upstreamId).bind fun _ => .ite (fun _ => .pure _) fun _ => .pure _
  | walk failedTaskId pendingVisit visited =>
      cases pendingVisit with
      | nil => exact .pure _
      | cons dependent rest =>
          exact .ite (fun _ => .pure _) fun _ =>
            (Makes.blockTask env trivial failedTaskId).bind fun _ => .pure _
  | refresh => exact Makes.record.bind fun _ => .pure _
  | secondCheck =>
      exact (Makes.stateOf taskId).bind fun _ => .ite (fun _ => .pure _) fun _ => .pure _
  | define =>
      exact (Respects.ofExcept _).bind fun _ => (Makes.recordOf taskId).bind fun _ => .pure _
  | checkStart task attempt => exact (Makes.transition _).bind fun _ => .pure _
  | start task attempt => exact (Makes.startAttempt env task attempt).bind fun _ => .pure _
  | hookStart task attempt =>
      exact (Makes.taskHook (Option.some_ne_none _) _).bind fun _ => .pure _
  | call task attempt =>
      refine (Makes.callTask env engine trivial attempt).bind fun result => ?_
      cases result with
      | ok _ => exact .pure _
      | error _ => exact .pure _
  | checkFail task attempt error => exact (Makes.transition _).bind fun _ => .pure _
  | fail task attempt error => exact (Makes.failAttempt env trivial error).bind fun _ => .pure _
  | checkRetry task attempt => exact (Makes.checkRetry env task attempt).bind fun _ => .pure _
  | retry task attempt delay =>
      exact (Makes.markRetrying env task attempt delay).bind fun _ => .pure _
  | hookRetry task attempt delay =>
      exact (Makes.taskHook (Option.some_ne_none _) _).bind fun _ => .pure _
  | sleep task attempt delay => exact (Makes.sleep trivial delay).bind fun _ => .pure _
  | permanent attempt =>
      have noted : Makes taskId (Pc.permanent attempt).Allows
          (Exec.note (.permanentFailure taskId attempt)) := Makes.note rfl
      exact noted.bind fun _ => .pure _
  | hookFailure => exact (Makes.taskHook (Option.some_ne_none _) _).bind fun _ => .pure _
  | checkSucceed attempt => exact (Makes.transition _).bind fun _ => .pure _
  | succeed attempt => exact (Makes.succeedAttempt env).bind fun _ => .pure _
  | hookSuccess attempt => exact (Makes.taskHook (Option.some_ne_none _) _).bind fun _ => .pure _
  | done => exact .pure _
  | raised error => exact .pure _

/-- What every run of a step relates. -/
theorem WorkflowEngine.advance_of_respects {engine : WorkflowEngine} {env : Env} {taskId : String}
    {pc : Pc} {relation : RunState → RunState → Prop}
    (respects : Respects relation (engine.act env taskId pc)) (state : RunState) :
    relation state (engine.advance env taskId state pc).1 := by
  cases ran : (engine.act env taskId pc).run state with
  | ok next after =>
      rw [advance_of_ok ran]
      exact respects.of_ok ran
  | error error after =>
      rw [advance_of_error ran]
      exact respects.of_error ran

/-! ## What stays of the trace -/

/-- What is selected from the trace stays as it is. -/
def SameTrace {α : Type} (select : Event → Option α) (before after : RunState) : Prop :=
  after.events.filterMap select = before.events.filterMap select

namespace SameTrace

variable {α : Type} {select : Event → Option α}

instance : Std.Refl (SameTrace select) := ⟨fun _ => rfl⟩

instance : IsTrans RunState (SameTrace select) :=
  ⟨fun _ _ _ earlier later => Eq.trans later earlier⟩

theorem emit {event : Event} (unselected : select event = none) (state : RunState) :
    SameTrace select state (state.emit event) := by
  rw [SameTrace, RunState.emit, List.filterMap_append, List.filterMap_cons, unselected]
  exact List.append_nil _

/-- Entries of a kind stay what they are where no more of them are allowed. -/
theorem of_change {kind : ChangeKind}
    (ofKind : ∀ event, event.kind? ≠ some kind → select event = none)
    {touched : String} {allowed : ChangeKind → Prop} {before after : RunState}
    (forbidden : ¬ allowed kind) (change : Change touched allowed before after) :
    SameTrace select before after := by
  cases change with
  | emit isEvent allows => exact emit (ofKind _ fun same => forbidden (allows kind same)) before
  | _ => rfl

end SameTrace

theorem Event.call?_of_kind (event : Event) (other : event.kind? ≠ some .call) :
    event.call? = none := by
  cases event with
  | called => exact absurd rfl other
  | _ => rfl

theorem Event.hook?_of_kind (event : Event) (other : event.kind? ≠ some .hook) :
    event.hook? = none := by
  cases event with
  | hook => exact absurd rfl other
  | _ => rfl

theorem Event.sleep?_of_kind (event : Event) (other : event.kind? ≠ some .sleep) :
    event.sleep? = none := by
  cases event with
  | slept => exact absurd rfl other
  | _ => rfl

/-! ## Frames -/

namespace Frame

variable {touched : String} {allowed : ChangeKind → Prop} {before after : RunState}

/-- An elementary change keeps the frame of its task. -/
theorem of_change (change : Change touched allowed before after) : Frame touched before after := by
  cases change with
  | record =>
      refine ⟨fun other _ => before.view_record touched other, ?_, ?_, ?_, no_calls rfl⟩
      · intro other member
        simpa [RunState.record] using member
      · intro other member
        simp [RunState.record, member]
      · simp [RunState.workflowView, RunState.record]
  | update sameId sameError =>
      refine ⟨fun other different => ?_, ?_, ?_, rfl, no_calls rfl⟩
      · rw [RunState.view_update, if_neg different]
      · intro other member
        simpa [RunState.update] using member
      · intro other member
        simp [RunState.update, member]
  | @emit event isEvent allows =>
      refine ⟨fun other different => ?_, fun _ => .inr, fun _ => id, ?_, event.call?.toList, ?_, ?_⟩
      · have noCall : (event.call?.toList.filter fun context => context.taskId = other) = [] := by
          rw [List.filter_eq_nil_iff]
          intro context member
          have about := isEvent.call context (Option.mem_toList.mp member)
          simp [about, different.symm]
        simp [isEvent.assignment other different, isEvent.check other different, noCall]
      · simp [RunState.workflowView, RunState.emit, isEvent.workflowAssignment,
          isEvent.workflowCheck]
      · cases called : event.call? <;> simp [RunState.calls, RunState.emit, called]
      · exact fun context member => isEvent.call context (Option.mem_toList.mp member)
  | note isAbout =>
      refine ⟨fun other different => ?_, fun _ => .inr, fun _ => id, ?_, no_calls rfl⟩
      · simp [LogEntry.moveOf?_of_owner isAbout different]
      · simp [RunState.workflowView, RunState.note, WorkflowRun.note,
          LogEntry.workflowMove?_of_owner isAbout]
  | tick => exact ⟨fun _ _ => rfl, fun _ => .inr, fun _ => id, rfl, no_calls rfl⟩

theorem of_makes {α : Type} {program : Exec α} (makes : Makes touched allowed program) :
    Respects (Frame touched) program :=
  makes.of_closure fun _ _ => of_change

theorem blockTask (env : Env) (failedTaskId : String) :
    Respects (Frame touched) (WorkflowEngine.blockTask env failedTaskId touched) := by
  have makes : Makes touched (fun _ => True) (WorkflowEngine.blockTask env failedTaskId touched) :=
    Makes.blockTask env trivial failedTaskId
  exact of_makes makes

end Frame

/-- A step of a thread keeps the frame of the task it touches. -/
theorem WorkflowEngine.advance_frame (engine : WorkflowEngine) (env : Env) (taskId : String)
    (state : RunState) (pc : Pc) :
    Frame (pc.touched taskId) state (engine.advance env taskId state pc).1 :=
  advance_of_respects (Frame.of_makes (engine.act_makes env taskId pc)) state

/-! ## What a step shows -/

/-- Nothing is shown of any task. -/
def SameViews (before after : RunState) : Prop :=
  ∀ taskId, after.view taskId = before.view taskId

instance : Std.Refl SameViews := ⟨fun _ _ => rfl⟩

instance : IsTrans RunState SameViews :=
  ⟨fun _ _ _ earlier later taskId => (later taskId).trans (earlier taskId)⟩

/-- The steps that come before the first attempt, but for the walks. -/
def Pc.keepsViews : Pc → Bool
  | enter | firstCheck | skip | scan _ | scanCheck _ _ | refresh | secondCheck => true
  | done | raised _ => true
  | _ => false

namespace WorkflowEngine

variable {engine : WorkflowEngine} {env : Env} {taskId : String}

theorem act_sameViews {pc : Pc} (keeps : pc.keepsViews = true) :
    Respects SameViews (engine.act env taskId pc) := by
  have record : ∀ other, Respects SameViews (Exec.record other) := fun other =>
    .modify fun state taskId => state.view_record other taskId
  have stateOf : ∀ other, Respects SameViews (Exec.stateOf other) := fun _ _ _ => rfl
  cases pc with
  | enter => exact (record taskId).bind fun _ => .pure _
  | firstCheck => exact (stateOf taskId).bind fun _ => .ite (fun _ => .pure _) fun _ => .pure _
  | skip =>
      refine Respects.bind ((stateOf taskId).bind fun _ => .modify fun state other => ?_)
        fun _ => .pure _
      simp [LogEntry.moveOf?, LogEntry.move?]
  | scan rest =>
      cases rest with
      | nil => exact .pure _
      | cons upstreamId rest => exact (record upstreamId).bind fun _ => .pure _
  | scanCheck upstreamId rest =>
      exact (stateOf upstreamId).bind fun _ => .ite (fun _ => .pure _) fun _ => .pure _
  | refresh => exact (record taskId).bind fun _ => .pure _
  | secondCheck => exact (stateOf taskId).bind fun _ => .ite (fun _ => .pure _) fun _ => .pure _
  | done => exact .pure _
  | raised error => exact .pure _
  | _ => cases keeps

variable (engine env taskId) (state : RunState)

/-- A visit of a walk blocks its task when it is pending, and no other one. -/
theorem advance_visit (failedTaskId dependent : String) (rest : List String)
    {visited : Finset String} (fresh : dependent ∉ visited) : ∃ after,
    engine.advance env taskId state (.walk failedTaskId (dependent :: rest) visited) =
      (after, .walk failedTaskId (rest ++ sorted (engine.workflow.downstream dependent))
        (insert dependent visited)) ∧
    (∀ other, other ≠ dependent → after.view other = state.view other) ∧
    after.view dependent =
      if (state.view dependent).record.state = .pending then
        (state.view dependent).blocked failedTaskId (env.clock state.clockReads)
      else state.view dependent := by
  obtain ⟨after, ran, view⟩ := blockTask_view env state dependent failedTaskId
  refine ⟨after, advance_of_ok ?_, ?_, view⟩
  · simp only [act, if_neg fresh, EStateM.run_bind, ran, EStateM.run_pure]
  · exact fun other different => ((Frame.blockTask env failedTaskId).of_ok ran).view other different

/-- A task that was visited before is dropped. -/
theorem advance_skip (failedTaskId dependent : String) (rest : List String)
    {visited : Finset String} (seen : dependent ∈ visited) :
    engine.advance env taskId state (.walk failedTaskId (dependent :: rest) visited) =
      (state, .walk failedTaskId rest visited) :=
  advance_of_ok (by simp only [act, if_pos seen]; rfl)

/-- The step of a thread visits a pending task and marks it. -/
def Visits (env : Env) (state : RunState) (pc : Pc) (other : String) (after : TaskView) : Prop :=
  ∃ failedTaskId rest visited, pc = .walk failedTaskId (other :: rest) visited ∧
    other ∉ visited ∧ (state.view other).record.state = .pending ∧
    after = (state.view other).blocked failedTaskId (env.clock state.clockReads)

/-- What a step of a thread shows of the other tasks, and a step of a walk of any
task: nothing, or a visit. -/
theorem advance_other (pc : Pc) {other : String} (apart : other ≠ taskId ∨
      ∃ failedTaskId toVisit visited, pc = .walk failedTaskId toVisit visited) :
    (engine.advance env taskId state pc).1.view other = state.view other ∨
      Visits env state pc other ((engine.advance env taskId state pc).1.view other) := by
  by_cases keeps : pc.keepsViews = true
  · exact .inl (advance_of_respects (act_sameViews keeps) state other)
  have frame := engine.advance_frame env taskId state pc
  cases pc with
  | walk failedTaskId toVisit visited =>
      cases toVisit with
      | nil => exact .inl rfl
      | cons dependent rest =>
          by_cases seen : dependent ∈ visited
          · rw [engine.advance_skip env taskId state failedTaskId dependent rest seen]
            exact .inl rfl
          by_cases touched : other = dependent
          · subst touched
            obtain ⟨after, same, _, view⟩ :=
              engine.advance_visit env taskId state failedTaskId other rest seen
            rw [same]
            by_cases pending : (state.view other).record.state = .pending
            · rw [if_pos pending] at view
              exact .inr ⟨failedTaskId, rest, visited, rfl, seen, pending, view⟩
            · rw [if_neg pending] at view
              exact .inl view
          · exact .inl (frame.view other touched)
  | scan rest => exact absurd rfl keeps
  | _ =>
      refine .inl (frame.view other (apart.resolve_right ?_))
      rintro ⟨_, _, _, same⟩
      cases same

end WorkflowEngine

end EtlOrchestrator
