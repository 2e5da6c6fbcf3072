import EtlOrchestrator.Engine.FinalRecords
import EtlOrchestrator.Foundations.Interruptions

/-!
# Hooks that raise

The engine hands its hooks the run and the record themselves, which a hook could write to. The
hooks of this module only read what they are given: each call returns or raises, as the run and the
record decide.

Such a hook that raises ends the run with its exception. Up to there the engine does what it does
without hooks: a sequential run with hooks is the run without them, cut off behind the first call of
a hook that raises (`run_with_hooks`). So hooks that return change nothing, and after a hook that
raises no callable is called and no record changes.
-/

set_option autoImplicit false

namespace EtlOrchestrator

open Relation Exec

/-! ## Hooks -/

/-- Optional lifecycle callbacks for the execution engine that change nothing they are given. -/
structure EngineHooks where
  onWorkflowStart : Option (WorkflowRun → Except PyError Unit) := none
  onTaskStart : Option (WorkflowRun → TaskRunRecord → Except PyError Unit) := none
  onTaskSuccess : Option (WorkflowRun → TaskRunRecord → Except PyError Unit) := none
  onTaskRetry : Option (WorkflowRun → TaskRunRecord → ℚ → Except PyError Unit) := none
  onTaskFailure : Option (WorkflowRun → TaskRunRecord → Except PyError Unit) := none
  onWorkflowEnd : Option (WorkflowRun → Except PyError Unit) := none

namespace EngineHooks

variable (hooks : EngineHooks)

/-- Call a hook, if there is one. -/
def fire : HookCall → Except PyError Unit
  | .workflowStart run => hooks.onWorkflowStart.elim (.ok ()) fun hook => hook run
  | .taskStart run record => hooks.onTaskStart.elim (.ok ()) fun hook => hook run record
  | .taskSuccess run record => hooks.onTaskSuccess.elim (.ok ()) fun hook => hook run record
  | .taskRetry run record delay =>
      hooks.onTaskRetry.elim (.ok ()) fun hook => hook run record delay
  | .taskFailure run record => hooks.onTaskFailure.elim (.ok ()) fun hook => hook run record
  | .workflowEnd run => hooks.onWorkflowEnd.elim (.ok ()) fun hook => hook run

/-- `if self._hooks.hook is not None: self._hooks.hook(...)`. -/
def call (call : HookCall) : Exec Unit := do
  emit (.hook call)
  ofExcept (hooks.fire call)

/-- A call of a hook that is given the run and the record of a task. -/
def taskHook (call : WorkflowRun → TaskRunRecord → HookCall) (taskId : String) : Exec Unit := do
  let state ← get
  hooks.call (call state.run (state.recordOf taskId))

/-! ## The engine with hooks -/

variable (engine : WorkflowEngine) (env : Env)

/-- Move a failed task to `retrying` and wait out the backoff. -/
def scheduleRetry (taskId : String) (task : Task) (failedAttempt : ℕ) : Exec Unit := do
  let delay ← WorkflowEngine.checkRetry env taskId task failedAttempt
  WorkflowEngine.markRetrying env taskId task failedAttempt delay
  hooks.taskHook (fun run record => .taskRetry run record delay) taskId
  WorkflowEngine.sleep taskId delay

/-- The loop of `_execute_task` over the attempts. -/
def runAttempts (taskId : String) (task : Task) (attempt : ℕ) : Exec Unit := do
  transition taskId .running
  WorkflowEngine.startAttempt env taskId task attempt
  hooks.taskHook .taskStart taskId
  match ← engine.callTask env taskId attempt with
  | .error error =>
      transition taskId .failed
      WorkflowEngine.failAttempt env taskId error
      if remaining : attempt < task.maxAttempts then
        hooks.scheduleRetry env taskId task attempt
        runAttempts taskId task (attempt + 1)
      else
        note (.permanentFailure taskId attempt)
        hooks.taskHook .taskFailure taskId
  | .ok () =>
      transition taskId .success
      WorkflowEngine.succeedAttempt env taskId
      hooks.taskHook .taskSuccess taskId
termination_by task.maxAttempts - attempt

/-- Run one task with retries, unless its state forbids execution. -/
def executeTask (taskId : String) : Exec Unit := do
  record taskId
  if (← stateOf taskId) ≠ .pending then
    WorkflowEngine.skipExecution taskId
  else
    engine.blockIfUpstreamFailed env taskId
    record taskId
    if (← stateOf taskId) ≠ .pending then
      WorkflowEngine.skipExecution taskId
    else
      let task ← engine.taskDef taskId
      let attempts := (← recordOf taskId).attempts
      hooks.runAttempts engine env taskId task (attempts + 1)

/-- `run` up to the first task. -/
def beginRun : Exec Unit := do
  modify fun state => { state with run := { state.run with params := env.params } }
  let now ← now env
  modify (·.startedAt now)
  moveWorkflow .running
  note (.workflowMoved .pending .running)
  hooks.call (.workflowStart (← get).run)

/-- `run` after the last task. -/
def finishRun : Exec Unit := do
  match aggregateWorkflowState (← get).run.taskStates with
  | none => throw (.other "AssertionError" "validated workflows have >= 1 task")
  | some final =>
      moveWorkflow final
      let now ← now env
      modify (·.finishedAt now)
      note (.workflowMoved .running final)
      hooks.call (.workflowEnd (← get).run)

/-- Execute tasks one after the other. -/
def executeAll : List String → Exec Unit
  | [] => pure ()
  | taskId :: rest => do
      hooks.executeTask engine env taskId
      executeAll rest

/-- `run` with `max_workers <= 1`. -/
def runSequential : Exec Unit := do
  hooks.beginRun env
  hooks.executeAll engine env (← ofExcept engine.topologicalOrder)
  hooks.finishRun env

end EngineHooks

/-! ## Growing runs -/

/-- The trace and the log of a run have only been extended. -/
structure Grows (before after : RunState) : Prop where
  events : before.events <+: after.events
  log : before.run.log <+: after.run.log

instance : Std.Refl Grows := ⟨fun _ => ⟨List.prefix_rfl, List.prefix_rfl⟩⟩

instance : IsTrans RunState Grows :=
  ⟨fun _ _ _ earlier later => ⟨earlier.events.trans later.events, earlier.log.trans later.log⟩⟩

theorem Grows.hooks {before after : RunState} (grows : Grows before after) :
    before.hooks <+: after.hooks :=
  grows.events.filterMap _

theorem Grows.changes : Changes Grows where
  record state taskId := by
    rw [RunState.record, WorkflowRun.record]
    split_ifs
    · exact refl state
    · exact ⟨List.prefix_rfl, List.prefix_rfl⟩
  update _ _ _ _ := ⟨List.prefix_rfl, List.prefix_rfl⟩
  emit _ _ := ⟨List.prefix_append _ _, List.prefix_rfl⟩
  note _ _ := ⟨List.prefix_rfl, List.prefix_append _ _⟩
  tick _ := ⟨List.prefix_rfl, List.prefix_rfl⟩
  moved _ _ := ⟨List.prefix_append _ _, List.prefix_rfl⟩
  finished _ _ := ⟨List.prefix_rfl, List.prefix_rfl⟩

/-- The run has grown without a call of a hook. -/
structure Quiet (before after : RunState) : Prop where
  sameHooks : SameHooks before after
  grows : Grows before after

instance : Std.Refl Quiet := ⟨fun _ => ⟨rfl, refl _⟩⟩

instance : IsTrans RunState Quiet :=
  ⟨fun _ _ _ earlier later => ⟨later.sameHooks.trans earlier.sameHooks,
    IsTrans.trans _ _ _ earlier.grows later.grows⟩⟩

theorem Quiet.of_makes {touched : String} {α : Type} {program : Exec α}
    (makes : Makes touched (· ≠ .hook) program) : Respects Quiet program := by
  refine makes.of_closure fun before after change => ?_
  have sameHooks : SameHooks before after := .of_change (fun hooked => hooked rfl) change
  refine ⟨sameHooks, ?_⟩
  cases change with
  | record => exact Grows.changes.record before _
  | update sameId _ => exact Grows.changes.update before _ _ sameId
  | emit => exact Grows.changes.emit before _
  | note => exact Grows.changes.note before _
  | tick => exact Grows.changes.tick before

namespace Quiet

variable (engine : WorkflowEngine) (env : Env)

theorem modify {change : WorkflowRun → WorkflowRun} (sameLog : ∀ run, (change run).log = run.log) :
    Respects Quiet (modify fun state => { state with run := change state.run } : Exec Unit) := by
  refine .modify fun state => ⟨rfl, List.prefix_rfl, ?_⟩
  dsimp only
  rw [sameLog]

theorem note (entry : LogEntry) : Respects Quiet (Exec.note entry) :=
  .modify fun state => ⟨rfl, Grows.changes.note state entry⟩

theorem now : Respects Quiet (Exec.now env) := fun state => ⟨rfl, Grows.changes.tick state⟩

theorem moveWorkflow (target : WorkflowState) : Respects Quiet (Exec.moveWorkflow target) := by
  refine Respects.get.bind fun state => Respects.bind (.modify fun other => ?_) fun _ => ?_
  · exact ⟨SameTrace.emit rfl other, Grows.changes.emit other _⟩
  · cases transitionWorkflow state.run.workflowState target with
    | ok _ =>
        exact .modify fun other => ⟨SameTrace.emit rfl { other with
          run := { other.run with workflowState := target } }, Grows.changes.moved other target⟩
    | error error => exact .throw _

theorem blockTask (failedTaskId dependent : String) :
    Respects Quiet (WorkflowEngine.blockTask env failedTaskId dependent) := by
  have failure : ChangeKind.error ≠ .hook := fun same => by cases same
  exact of_makes (Makes.blockTask env failure failedTaskId)

theorem walkDownstream (failedTaskId : String) (pendingVisit : List String)
    (visited : Finset String) :
    Respects Quiet (engine.walkDownstream env failedTaskId pendingVisit visited) := by
  induction pendingVisit, visited using WorkflowEngine.walkDownstream.induct engine with
  | case1 visited =>
      rw [WorkflowEngine.walkDownstream]
      exact .pure ()
  | case2 visited dependent rest seen ih =>
      rw [WorkflowEngine.walkDownstream, if_pos seen]
      exact ih
  | case3 visited dependent rest fresh ih =>
      rw [WorkflowEngine.walkDownstream, if_neg fresh]
      exact (blockTask env failedTaskId dependent).bind fun _ => ih

theorem scanUpstream (upstreamIds : List String) :
    Respects Quiet (engine.scanUpstream env upstreamIds) := by
  induction upstreamIds with
  | nil => exact .pure ()
  | cons upstreamId rest ih =>
      have recorded : Respects Quiet (Exec.record upstreamId) := of_makes Makes.record
      have read : Respects Quiet (Exec.stateOf upstreamId) := fun _ => refl _
      exact recorded.bind fun _ => read.bind fun _ => .ite
        (fun _ => walkDownstream engine env upstreamId _ ∅) fun _ => ih

end Quiet

namespace EngineHooks

/-- The calls of the hooks as signals. -/
def signalling (hooks : EngineHooks) : Signalling RunState PyError HookCall where
  signals := RunState.hooks
  handle := hooks.fire
  grows := Grows
  shows := fun call state => state.run = call.run

/-- A program of an engine with hooks runs as that of one without them up to the first hook that
raises. -/
structure Heeds (hooks : EngineHooks) {α : Type} (heeding plain : Exec α) : Prop where
  follows : hooks.signalling.Follows heeding plain
  growing : Respects Grows plain

namespace Heeds

variable {hooks : EngineHooks} {α β : Type} {touched : String}

theorem of_quiet {program : Exec α} (quiet : Respects Quiet program) :
    hooks.Heeds program program :=
  ⟨.of_silent (quiet.mono fun _ _ => Quiet.sameHooks), quiet.mono fun _ _ => Quiet.grows⟩

theorem of_makes {program : Exec α} (makes : Makes touched (· ≠ .hook) program) :
    hooks.Heeds program program :=
  of_quiet (Quiet.of_makes makes)

theorem bind {heeding plain : Exec α} {rest otherRest : α → Exec β}
    (first : hooks.Heeds heeding plain) (second : ∀ result, hooks.Heeds (rest result)
      (otherRest result)) : hooks.Heeds (heeding >>= rest) (plain >>= otherRest) := by
  have trans : IsTrans RunState hooks.signalling.grows := inferInstanceAs (IsTrans _ Grows)
  exact ⟨first.follows.bind (fun result => (second result).follows)
    fun result => (second result).growing, first.growing.bind fun result =>
      (second result).growing⟩

theorem ite {condition : Prop} [Decidable condition] {heeding plain other otherPlain : Exec α}
    (positive : condition → hooks.Heeds heeding plain)
    (negative : ¬ condition → hooks.Heeds other otherPlain) :
    hooks.Heeds (if condition then heeding else other)
      (if condition then plain else otherPlain) := by
  by_cases holds : condition
  · rw [if_pos holds, if_pos holds]
    exact positive holds
  · rw [if_neg holds, if_neg holds]
    exact negative holds

/-- A hook that is called with what it is given. -/
theorem hook (makeCall : RunState → HookCall)
    (shows : ∀ state, (makeCall state).run = state.run) :
    hooks.Heeds (do hooks.call (makeCall (← get))) (do emit (.hook (makeCall (← get)))) := by
  refine ⟨fun state => ?_, Respects.get.bind fun state => Grows.changes.exec_emit _⟩
  have isEmitted : (state.emit (.hook (makeCall state))).hooks =
      state.hooks ++ [makeCall state] := state.hooks_emit _
  cases fired : hooks.fire (makeCall state) with
  | ok result =>
      refine .inl ⟨?_, [makeCall state], isEmitted, List.forall_mem_singleton.mpr fired⟩
      simp only [EStateM.run_bind, EStateM.run_get, EngineHooks.call, fired]
      rfl
  | error error =>
      refine .inr ⟨[], makeCall state, error, _, ?_, isEmitted, List.forall_mem_nil _, fired,
        (shows state).symm, Std.Refl.refl (r := Grows) _⟩
      simp only [EStateM.run_bind, EStateM.run_get, EngineHooks.call, fired]
      rfl

/-! ## The programs of the engine -/

variable (hooks) (engine : WorkflowEngine) (env : Env) (taskId : String)

theorem taskHook (call : WorkflowRun → TaskRunRecord → HookCall)
    (shows : ∀ run record, (call run record).run = run) :
    hooks.Heeds (hooks.taskHook call taskId) (WorkflowEngine.taskHook call taskId) :=
  hook (fun state => call state.run (state.recordOf taskId)) fun _ => shows _ _

theorem scheduleRetry (task : Task) (failedAttempt : ℕ) :
    hooks.Heeds (hooks.scheduleRetry env taskId task failedAttempt)
      (WorkflowEngine.scheduleRetry env taskId task failedAttempt) := by
  have awake : ChangeKind.sleep ≠ .hook := fun same => by cases same
  exact (of_makes (Makes.checkRetry env task failedAttempt)).bind fun delay =>
    (of_makes (Makes.markRetrying env task failedAttempt delay)).bind fun _ =>
      (taskHook hooks taskId _ fun _ _ => rfl).bind fun _ => of_makes (Makes.sleep awake delay)

theorem runAttempts (task : Task) (attempt : ℕ) :
    hooks.Heeds (hooks.runAttempts engine env taskId task attempt)
      (engine.runAttempts env taskId task attempt) := by
  have call : ChangeKind.call ≠ .hook := fun same => by cases same
  have failure : ChangeKind.error ≠ .hook := fun same => by cases same
  have noted : ∀ attempt, Makes taskId (· ≠ .hook) (note (.permanentFailure taskId attempt)) :=
    fun _ => Makes.note rfl
  induction attempt using WorkflowEngine.runAttempts.induct task with
  | case1 attempt ih =>
      rw [EngineHooks.runAttempts, WorkflowEngine.runAttempts]
      refine (of_makes (Makes.transition _)).bind fun _ =>
        (of_makes (Makes.startAttempt env task attempt)).bind fun _ =>
        (taskHook hooks taskId _ fun _ _ => rfl).bind fun _ =>
        (of_makes (Makes.callTask env engine call attempt)).bind fun result => ?_
      cases result with
      | ok _ =>
          exact (of_makes (Makes.transition _)).bind fun _ =>
            (of_makes (Makes.succeedAttempt env)).bind fun _ =>
            taskHook hooks taskId _ fun _ _ => rfl
      | error error =>
          refine (of_makes (Makes.transition _)).bind fun _ =>
            (of_makes (Makes.failAttempt env failure error)).bind fun _ => ?_
          by_cases remaining : attempt < task.maxAttempts
          · rw [dif_pos remaining, dif_pos remaining]
            exact (scheduleRetry hooks env taskId task attempt).bind fun _ => ih remaining
          · rw [dif_neg remaining, dif_neg remaining]
            exact (of_makes (noted attempt)).bind fun _ => taskHook hooks taskId _ fun _ _ => rfl

theorem executeTask :
    hooks.Heeds (hooks.executeTask engine env taskId) (engine.executeTask env taskId) := by
  have recorded : hooks.Heeds (record taskId) (record taskId) := of_makes Makes.record
  have read : hooks.Heeds (stateOf taskId) (stateOf taskId) := of_quiet fun _ => refl _
  have skipped : hooks.Heeds (WorkflowEngine.skipExecution taskId)
      (WorkflowEngine.skipExecution taskId) := of_makes Makes.skipExecution
  refine recorded.bind fun _ => read.bind fun _ => .ite (fun _ => skipped) fun _ => ?_
  refine (of_quiet (Quiet.scanUpstream engine env _)).bind fun _ => recorded.bind fun _ =>
    read.bind fun _ => .ite (fun _ => skipped) fun _ => ?_
  have current : hooks.Heeds (recordOf taskId) (recordOf taskId) := of_quiet fun _ => refl _
  exact (of_quiet (.ofExcept _)).bind fun task => current.bind fun record =>
    runAttempts hooks engine env taskId task (record.attempts + 1)

theorem executeAll (order : List String) :
    hooks.Heeds (hooks.executeAll engine env order) (engine.executeAll env order) := by
  induction order with
  | nil => exact of_quiet (.pure ())
  | cons taskId rest ih => exact (executeTask hooks engine env taskId).bind fun _ => ih

/-- A change of the run that leaves its trace and its log alone. -/
theorem modify (change : WorkflowRun → WorkflowRun) (sameLog : ∀ run, (change run).log = run.log) :
    hooks.Heeds (modify fun state => { state with run := change state.run } : Exec Unit)
      (modify fun state => { state with run := change state.run }) :=
  of_quiet (Quiet.modify sameLog)

theorem beginRun : hooks.Heeds (hooks.beginRun env) (WorkflowEngine.beginRun env) :=
  (modify hooks (fun run => { run with params := env.params }) fun _ => rfl).bind fun _ =>
    (of_quiet (Quiet.now env)).bind fun now =>
    (modify hooks (fun run => { run with startedAt := some now }) fun _ => rfl).bind fun _ =>
    (of_quiet (Quiet.moveWorkflow _)).bind fun _ => (of_quiet (Quiet.note _)).bind fun _ =>
    hook (fun state => .workflowStart state.run) fun _ => rfl

theorem finishRun : hooks.Heeds (hooks.finishRun env) (WorkflowEngine.finishRun env) := by
  refine (of_quiet .get).bind fun state => ?_
  cases aggregateWorkflowState state.run.taskStates with
  | none => exact of_quiet (.throw _)
  | some final =>
      exact (of_quiet (Quiet.moveWorkflow final)).bind fun _ =>
        (of_quiet (Quiet.now env)).bind fun now =>
        (modify hooks (fun run => { run with finishedAt := some now }) fun _ => rfl).bind fun _ =>
        (of_quiet (Quiet.note _)).bind fun _ =>
        hook (fun state => .workflowEnd state.run) fun _ => rfl

theorem runSequential :
    hooks.Heeds (hooks.runSequential engine env) (engine.runSequential env) :=
  (beginRun hooks env).bind fun _ => (of_quiet (.ofExcept _)).bind fun order =>
    (executeAll hooks engine env order).bind fun _ => finishRun hooks env

end Heeds

end EngineHooks

/-! ## Runs with hooks -/

/-- **A run with hooks is the run without them, up to the first hook that raises.** It ends with the
exception of this hook, and leaves the run as the hook has seen it. -/
theorem run_with_hooks (engine : WorkflowEngine) (env : Env) (hooks : EngineHooks) :
    let final := endState (engine.runSequential env) (engine.created env)
    ((∀ call ∈ final.hooks, hooks.fire call = .ok ()) →
      (hooks.runSequential engine env).run (engine.created env) =
        (engine.runSequential env).run (engine.created env)) ∧
    ∀ earlier call later error, final.hooks = earlier ++ call :: later →
      (∀ other ∈ earlier, hooks.fire other = .ok ()) → hooks.fire call = .error error →
      ∃ interrupted : RunState,
        (hooks.runSequential engine env).run (engine.created env) = .error error interrupted ∧
        interrupted.hooks = earlier ++ [call] ∧ interrupted.run = call.run ∧
        interrupted.events <+: final.events ∧ interrupted.calls <+: final.calls ∧
        interrupted.run.log <+: final.run.log := by
  intro final
  have follows := (EngineHooks.Heeds.runSequential hooks engine env).follows
  have grown : ∀ before after, hooks.signalling.grows before after →
      hooks.signalling.signals before <+: hooks.signalling.signals after :=
    fun before after => Grows.hooks
  refine ⟨fun accepts => follows.run_eq grown (List.nil_append _).symm accepts, ?_⟩
  intro earlier call later error whole accepts raises
  obtain ⟨interrupted, ran, isEmitted, isShown, grows⟩ :=
    follows.run_eq_error grown whole accepts raises
  exact ⟨interrupted, ran, isEmitted, isShown, grows.events, grows.events.filterMap _, grows.log⟩

/-- A hook that cannot report the end of a run. -/
def failingReport : EngineHooks where
  onWorkflowEnd := some fun _ => .error (.runtimeError "mail server is down")

theorem run_with_hooks_pipeline : ∃ last interrupted,
    (failingReport.runSequential (pipeline 1 (by decide)).toWorkflowEngine
        { runId := "reported" }).run ((pipeline 1 (by decide)).created { runId := "reported" }) =
      .error (.runtimeError "mail server is down") interrupted ∧
    interrupted.run = last ∧ interrupted.hooks.getLast? = some (.workflowEnd last) := by
  have one : (pipeline 1 (by decide)).maxWorkers = 1 := rfl
  have noOverflow : (pipeline 1 (by decide)).NoOverflow { runId := "reported" } :=
    WorkflowEngine.noOverflow_exact _ rfl
  obtain ⟨machine, ran, steps, returned⟩ := runSequential_eq_ok one noOverflow
  obtain ⟨first, calls, last, whole, areTasks⟩ :=
    ((HookTrace.steps steps).wellFormed (Reachable.steps steps) returned).enclosed
  have accepts : ∀ other ∈ HookCall.workflowStart first :: calls,
      failingReport.fire other = .ok () := by
    refine List.forall_mem_cons.mpr ⟨rfl, fun call member => ?_⟩
    obtain ⟨taskId, isFor⟩ := areTasks call member
    cases call with
    | workflowEnd run => cases isFor
    | _ => rfl
  rw [← endState_of_ok ran] at whole
  obtain ⟨interrupted, raised, emitted, shown, _⟩ := (run_with_hooks _ _ failingReport).2
    (.workflowStart first :: calls) (.workflowEnd last) [] _ whole accepts rfl
  refine ⟨last, interrupted, raised, shown, ?_⟩
  rw [emitted, List.getLast?_concat]

end EtlOrchestrator
