import EtlOrchestrator.Engine.Correctness
import EtlOrchestrator.Engine.Identity
import EtlOrchestrator.Engine.Safety
import EtlOrchestrator.Engine.Termination

/-!
# The calls of the hooks

The calls of the hooks of a run, and what a well-formed sequence of them is
(`HooksWellFormed`): the workflow's start and end enclose all other calls, the
calls for a task tell its attempts, each of them sees the number of the attempts
so far, and the calls for a task come after all calls for its upstreams.

A run that returns has made a well-formed sequence of calls. An overflow in the
arithmetic of a retry leaves the calls of its task without a last one, and the
run without `on_workflow_end`.
-/

set_option autoImplicit false

namespace EtlOrchestrator

open BlockingEvaluation Relation WorkflowEngine

/-! ## Calls -/

/-- The hooks of an engine. -/
inductive HookKind where
  | workflowStart
  | taskStart
  | taskSuccess
  | taskRetry
  | taskFailure
  | workflowEnd
deriving DecidableEq

namespace HookCall

/-- The hook that is called. -/
def kind : HookCall → HookKind
  | workflowStart _ => .workflowStart
  | taskStart _ _ => .taskStart
  | taskSuccess _ _ => .taskSuccess
  | taskRetry _ _ _ => .taskRetry
  | taskFailure _ _ => .taskFailure
  | workflowEnd _ => .workflowEnd

/-- The record that a task hook is given. -/
def record? : HookCall → Option TaskRunRecord
  | taskStart _ record => some record
  | taskSuccess _ record => some record
  | taskRetry _ record _ => some record
  | taskFailure _ record => some record
  | workflowStart _ | workflowEnd _ => none

/-- The call is one for a task. -/
def IsFor (call : HookCall) (taskId : String) : Prop :=
  call.record?.map TaskRunRecord.taskId = some taskId

instance (call : HookCall) (taskId : String) : Decidable (call.IsFor taskId) :=
  inferInstanceAs (Decidable (_ = _))

/-- What a call shows of a task: the hook and the attempts that it sees. -/
def shown? (taskId : String) (call : HookCall) : Option (HookKind × ℕ) :=
  if call.IsFor taskId then call.record?.map fun record => (call.kind, record.attempts) else none

end HookCall

namespace RunState

/-- The calls of the hooks so far, in order. -/
def hooks (state : RunState) : List HookCall := state.events.filterMap Event.hook?

/-- The calls for a task, with the attempts that they see. -/
def hooksFor (state : RunState) (taskId : String) : List (HookKind × ℕ) :=
  state.hooks.filterMap (HookCall.shown? taskId)

end RunState

/-- The number of starts among the calls for a task. -/
def starts (calls : List (HookKind × ℕ)) : ℕ := calls.countP fun call => call.1 = .taskStart

/-- The hooks called for a task with a number of attempts, of which the last one
ends with a call of its own. -/
def attemptKinds (attempts : ℕ) (last : HookKind) : List HookKind :=
  .taskStart :: ((List.replicate (attempts - 1) [.taskRetry, .taskStart]).flatten ++ [last])

/-- The calls of the hooks of a run are well formed. -/
structure HooksWellFormed (engine : WorkflowEngine) (machine : Machine) : Prop where
  enclosed : ∃ first calls last, machine.shared.hooks =
    .workflowStart first :: (calls ++ [.workflowEnd last]) ∧
      ∀ call ∈ calls, ∃ taskId, call.IsFor taskId
  attempted : ∀ taskId, 1 ≤ machine.attemptsOf taskId →
    machine.stateOf taskId = .success ∧ (machine.shared.hooksFor taskId).map Prod.fst =
        attemptKinds (machine.attemptsOf taskId) .taskSuccess ∨
      machine.stateOf taskId = .failed ∧ (machine.shared.hooksFor taskId).map Prod.fst =
        attemptKinds (machine.attemptsOf taskId) .taskFailure
  blocked : ∀ taskId, machine.stateOf taskId = .upstreamFailed →
    machine.shared.hooksFor taskId = []
  counted : ∀ taskId before call after,
    machine.shared.hooksFor taskId = before ++ call :: after → call.2 = starts (before ++ [call])
  ordered : ∀ up taskId, engine.workflow.Edge up taskId → ∀ before call after,
    machine.shared.hooks = before ++ call :: after → call.IsFor taskId →
      ∀ later ∈ after, ¬ later.IsFor up

/-! ## The calls of a step -/

/-- A step that keeps the calls of the hooks. -/
abbrev SameHooks : RunState → RunState → Prop := SameTrace Event.hook?

theorem RunState.hooks_emit (state : RunState) (event : Event) :
    (state.emit event).hooks = state.hooks ++ event.hook?.toList := by
  rw [hooks, emit, List.filterMap_append]
  cases event <;> rfl

theorem SameHooks.of_change {touched : String} {allowed : ChangeKind → Prop}
    {before after : RunState} (noHook : ¬ allowed .hook)
    (change : Change touched allowed before after) : SameHooks before after :=
  SameTrace.of_change Event.hook?_of_kind noHook change

variable {engine : AcceptedEngine} {env : Env} {taskId other : String} {state : RunState} {pc : Pc}

theorem WorkflowEngine.taskHook_hooks (state : RunState) (taskId : String)
    (call : WorkflowRun → TaskRunRecord → HookCall) : ∃ after,
    (taskHook call taskId).run state = .ok () after ∧
      after.hooks = state.hooks ++ [call state.run (state.recordOf taskId)] := by
  refine ⟨_, by simp [taskHook]; rfl, ?_⟩
  rw [RunState.hooks_emit]
  rfl

/-- A step calls its hook with the run and the record as they are before it. -/
theorem WorkflowEngine.advance_hooks (engine : WorkflowEngine) (env : Env) (taskId : String)
    (state : RunState) (pc : Pc) : (engine.advance env taskId state pc).1.hooks =
      state.hooks ++
        (pc.hookCall?.map fun call => call state.run (state.recordOf taskId)).toList := by
  have hooked : ∀ {call next}, pc.hookCall? = some call →
      engine.act env taskId pc = taskHook call taskId >>= (fun _ => pure next) →
      (engine.advance env taskId state pc).1.hooks = state.hooks ++
        (pc.hookCall?.map fun call => call state.run (state.recordOf taskId)).toList := by
    intro call next calls acts
    obtain ⟨after, ran, hooks⟩ := taskHook_hooks state taskId call
    have acted : (engine.act env taskId pc).run state = .ok next after := by
      rw [acts, EStateM.run_bind, ran]
      rfl
    rw [advance_of_ok acted, hooks, calls]
    rfl
  have quiet : pc.hookCall? = none → (engine.advance env taskId state pc).1.hooks = state.hooks ++
      (pc.hookCall?.map fun call => call state.run (state.recordOf taskId)).toList := by
    intro none
    rw [none, Option.map_none, Option.toList_none, List.append_nil]
    exact advance_of_respects ((engine.act_makes env taskId pc).of_closure fun _ _ =>
      SameHooks.of_change (not_not_intro none)) state
  cases pc with
  | hookStart task attempt => exact hooked rfl rfl
  | hookRetry task attempt delay => exact hooked rfl rfl
  | hookFailure => exact hooked rfl rfl
  | hookSuccess attempt => exact hooked rfl rfl
  | _ => exact quiet rfl

/-- A step makes one call at most, for the task of its thread. -/
theorem WorkflowEngine.advance_hooks_own (engine : WorkflowEngine) (env : Env)
    (taskId : String) (keyed : state.run.Keyed) (pc : Pc) : ∃ own : Option HookCall,
    (engine.advance env taskId state pc).1.hooks = state.hooks ++ own.toList ∧
      ∀ call ∈ own.toList, call.IsFor taskId := by
  have ownId : (state.recordOf taskId).taskId = taskId := keyed.recordOf_taskId taskId
  refine ⟨_, engine.advance_hooks env taskId state pc, fun call member => ?_⟩
  cases pc <;> simp [Pc.hookCall?] at member <;> subst member <;>
    simp [HookCall.IsFor, HookCall.record?, ownId]

/-- The calls of a step are for the task of its thread, with the attempts of its record. -/
theorem WorkflowEngine.advance_hooksFor (engine : WorkflowEngine) (env : Env)
    (taskId : String) (keyed : state.run.Keyed) (pc : Pc) (other : String) :
    (engine.advance env taskId state pc).1.hooksFor other = state.hooksFor other ++
      if other = taskId then
        (pc.hookCall?.map fun call => ((call state.run (state.recordOf taskId)).kind,
          (state.recordOf taskId).attempts)).toList
      else [] := by
  have own : (state.recordOf taskId).taskId = taskId := keyed.recordOf_taskId taskId
  rw [RunState.hooksFor, advance_hooks, List.filterMap_append, RunState.hooksFor]
  congr 1
  by_cases same : other = taskId
  · subst same
    rw [if_pos rfl]
    cases pc <;> simp [Pc.hookCall?, HookCall.shown?, HookCall.IsFor, HookCall.record?, own]
  · rw [if_neg same]
    cases pc <;> simp [Pc.hookCall?, HookCall.shown?, HookCall.IsFor, HookCall.record?, own,
      Ne.symm same]

/-! ## The calls for a task -/

/-- The calls for a task before the start of an attempt. -/
def callsBefore : ℕ → List (HookKind × ℕ)
  | 0 | 1 => []
  | attempt + 2 =>
      callsBefore (attempt + 1) ++ [(.taskStart, attempt + 1), (.taskRetry, attempt + 1)]

/-- The calls for a task up to the start of an attempt. -/
def callsUpTo (attempt : ℕ) : List (HookKind × ℕ) := callsBefore attempt ++ [(.taskStart, attempt)]

theorem callsBefore_succ {attempt : ℕ} (positive : 1 ≤ attempt) :
    callsBefore (attempt + 1) = callsUpTo attempt ++ [(.taskRetry, attempt)] := by
  obtain ⟨earlier, rfl⟩ := Nat.exists_eq_add_of_le' positive
  rw [callsBefore, callsUpTo, List.append_assoc]
  rfl

namespace AcceptedEngine

variable (engine : AcceptedEngine) (env : Env) (taskId : String)

/-- The calls for a task that has returned. -/
noncomputable def finalCalls : List (HookKind × ℕ) :=
  match engine.outcome env taskId with
  | .value attempt => callsUpTo attempt ++ [(.taskSuccess, attempt)]
  | .failed => callsUpTo (engine.maxAttempts taskId) ++ [(.taskFailure, engine.maxAttempts taskId)]
  | .blocked => []

/-- The calls for a task at each program point of its thread. -/
def HooksOk (calls : List (HookKind × ℕ)) : Pc → Prop
  | .enter | .firstCheck | .skip | .scan _ | .scanCheck _ _ | .walk _ _ _ | .refresh
  | .secondCheck | .define => calls = []
  | .checkStart _ attempt | .start _ attempt | .hookStart _ attempt => calls = callsBefore attempt
  | .call _ attempt | .checkFail _ attempt _ | .fail _ attempt _ | .checkRetry _ attempt
  | .retry _ attempt _ | .hookRetry _ attempt _ | .permanent attempt | .checkSucceed attempt
  | .succeed attempt | .hookSuccess attempt => calls = callsUpTo attempt
  | .sleep _ attempt _ => calls = callsUpTo attempt ++ [(.taskRetry, attempt)]
  | .hookFailure => calls = callsUpTo (engine.maxAttempts taskId)
  | .done => calls = engine.finalCalls env taskId
  | .raised _ => True

variable {engine env taskId} {calls : List (HookKind × ℕ)}

/-- A step that calls no hook goes to a program point with the same calls. -/
theorem hooksOk_of_quiet (ok : engine.TaskOk env taskId (state.view taskId) pc)
    (hooksOk : engine.HooksOk env taskId calls pc) (unfinished : pc.ended = false)
    (quiet : pc.hookCall? = none) (defined : pc ≠ .define) :
    engine.HooksOk env taskId calls (engine.advance env taskId state pc).2 := by
  rcases engine.advance_leads env taskId state pc with leads | ⟨error, raised⟩
  · generalize (engine.advance env taskId state pc).2 = next at leads ⊢
    cases leads with
    | skip =>
        rw [HooksOk, finalCalls, ok.2.2]
        exact hooksOk
    | define => exact absurd rfl defined
    | sleep task attempt delay =>
        rw [HooksOk, callsBefore_succ ok.2.1.positive]
        exact hooksOk
    | permanent attempt =>
        -- The attempt that has failed was the last allowed one.
        have outcome := ok.2.1.state_eq_failed_iff.mp ok.2.2.state
        have settles := ok.2.1
        rw [Settles, outcome] at settles
        rw [HooksOk, ← settles.attempts, ok.2.2.attempts]
        exact hooksOk
    | hookStart | hookRetry | hookFailure | hookSuccess => cases quiet
    | done | raised => cases unfinished
    | _ => exact hooksOk
  · rw [raised]
    trivial

/-- **After a step of its thread, the calls for a task are those of its next
program point.** -/
theorem advance_hooksOk (ok : engine.TaskOk env taskId (state.view taskId) pc)
    (hooksOk : engine.HooksOk env taskId calls pc) (unfinished : pc.ended = false)
    (known : taskId ∈ engine.workflow.tasks) :
    engine.HooksOk env taskId (calls ++ (pc.hookCall?.map fun call =>
        ((call state.run (state.recordOf taskId)).kind, (state.recordOf taskId).attempts)).toList)
      (engine.advance env taskId state pc).2 := by
  have quiet : pc.hookCall? = none → pc ≠ .define →
      engine.HooksOk env taskId (calls ++ (pc.hookCall?.map fun call =>
          ((call state.run (state.recordOf taskId)).kind, (state.recordOf taskId).attempts)).toList)
        (engine.advance env taskId state pc).2 := by
    intro none defined
    rw [none, Option.map_none, Option.toList_none, List.append_nil]
    exact hooksOk_of_quiet ok hooksOk unfinished none defined
  cases pc with
  | define =>
      obtain ⟨task, found⟩ := OrderedDict.exists_get?_of_mem known
      have ran : (engine.act env taskId .define).run state = .ok (.checkStart task 1) state := by
        simp only [act, taskDef, found, Option.elim_some, EStateM.run_bind, Exec.run_ofExcept_ok,
          Exec.run_recordOf, EStateM.run_pure, RunState.recordOf_eq, ok.2.1.attempts]
      rw [advance_of_ok ran]
      exact (List.append_nil calls).trans hooksOk
  | hookStart task attempt =>
      have ran : (engine.act env taskId (.hookStart task attempt)).run state =
          .ok (.call task attempt) _ := rfl
      rw [advance_of_ok ran, show calls = callsBefore attempt from hooksOk,
        show (state.recordOf taskId).attempts = attempt from ok.2.2.attempts]
      rfl
  | hookRetry task attempt delay =>
      have ran : (engine.act env taskId (.hookRetry task attempt delay)).run state =
          .ok (.sleep task attempt delay) _ := rfl
      rw [advance_of_ok ran, show calls = callsUpTo attempt from hooksOk,
        show (state.recordOf taskId).attempts = attempt from ok.2.2.2.attempts]
      rfl
  | hookFailure =>
      have ran : (engine.act env taskId .hookFailure).run state = .ok .done _ := rfl
      have outcome := ok.2.1.state_eq_failed_iff.mp ok.2.2
      have settles := ok.2.1
      rw [Settles, outcome] at settles
      rw [advance_of_ok ran, HooksOk, finalCalls, outcome,
        show calls = callsUpTo (engine.maxAttempts taskId) from hooksOk,
        show (state.recordOf taskId).attempts = engine.maxAttempts taskId from settles.attempts]
      rfl
  | hookSuccess attempt =>
      have ran : (engine.act env taskId (.hookSuccess attempt)).run state = .ok .done _ := rfl
      rw [advance_of_ok ran, HooksOk, finalCalls, ok.2.1,
        show calls = callsUpTo attempt from hooksOk,
        show (state.recordOf taskId).attempts = attempt from ok.2.2.attempts]
      rfl
  | _ => exact quiet rfl (by simp)

end AcceptedEngine

/-! ## Runs -/

/-- `run` begins with the call of `on_workflow_start`. -/
theorem WorkflowEngine.beginRun_hooks (engine : WorkflowEngine) (env : Env) : ∃ shared,
    (beginRun env).run (engine.created env) = .ok () shared ∧
      shared.hooks = [.workflowStart shared.run] :=
  ⟨_, rfl, rfl⟩

/-- `run` ends with the call of `on_workflow_end`. -/
theorem WorkflowEngine.finishRun_hooks {after : RunState}
    (ran : (finishRun env).run state = .ok () after) :
    after.hooks = state.hooks ++ [.workflowEnd after.run] := by
  obtain ⟨final, _, rfl⟩ := finishRun_eq_ok env state ran
  simp [RunState.hooks, RunState.emit, RunState.note, RunState.finishedAt,
    RunState.assignWorkflow, Event.hook?, List.filterMap_cons]

/-- What the hooks of a reachable state show. -/
structure HookTrace (engine : AcceptedEngine) (env : Env) (machine : Machine) : Prop where
  tasks : ∀ taskId, engine.HooksOk env taskId (machine.shared.hooksFor taskId) (machine.pcs taskId)
  begun : ∃ first calls, (∀ call ∈ calls, ∃ taskId, call.IsFor taskId) ∧
    (machine.status = .returned → ∃ last,
      machine.shared.hooks = .workflowStart first :: (calls ++ [.workflowEnd last])) ∧
    (machine.status ≠ .returned → machine.shared.hooks = .workflowStart first :: calls)
  ordered : machine.shared.hooks.Pairwise fun first second => ∀ up taskId,
    engine.workflow.Edge up taskId → first.IsFor taskId → ¬ second.IsFor up

theorem RunState.hooksFor_ne_nil {call : HookCall} (member : call ∈ state.hooks)
    (isFor : call.IsFor taskId) : state.hooksFor taskId ≠ [] := by
  cases given : call.record? with
  | none => simp [HookCall.IsFor, given] at isFor
  | some record =>
      have shown : call.shown? taskId = some (call.kind, record.attempts) := by
        rw [HookCall.shown?, if_pos isFor, given, Option.map_some]
      exact List.ne_nil_of_mem (List.mem_filterMap.mpr ⟨call, member, shown⟩)

namespace HookTrace

variable {machine : Machine}

theorem start : HookTrace engine env (engine.start env) := by
  obtain ⟨shared, levels, same, _, began, _⟩ := start_eq engine env
  obtain ⟨other, otherBegan, hooks⟩ := engine.beginRun_hooks env
  rw [began] at otherBegan
  cases otherBegan
  rw [same]
  refine ⟨fun taskId => ?_, ⟨shared.run, [], ?_, fun ended => ?_, fun _ => hooks⟩, ?_⟩
  · change shared.hooksFor taskId = []
    rw [RunState.hooksFor, hooks]
    rfl
  · exact fun _ member => absurd member List.not_mem_nil
  · cases ended
  · rw [hooks]
    exact List.pairwise_singleton _ _

/-- No hook was called for a task below a job. -/
theorem not_called_below (trace : HookTrace engine env machine) {past : List (List String)}
    (invariant : Invariant engine env past machine)
    (unfinished : (machine.pcs taskId).ended = false) (edge : engine.workflow.Edge taskId other) :
    machine.shared.hooksFor other = [] := by
  have notPast : taskId ∉ past.flatten := by
    intro member
    rw [invariant.returned taskId member] at unfinished
    cases unfinished
  have entering : machine.pcs other = .enter := by
    apply invariant.untouched
    · exact fun member => notPast (invariant.ancestor_mem (.single edge) member)
    · exact fun otherJob => notPast (invariant.up_mem otherJob edge)
  have hooksOk := trace.tasks other
  rw [entering] at hooksOk
  exact hooksOk

/-- **A step of a worker keeps the hooks in shape.** -/
theorem work (trace : HookTrace engine env machine) {past : List (List String)}
    (invariant : Invariant engine env past machine) (keyed : machine.shared.run.Keyed)
    (running : machine.status = .running) (held : taskId ∈ machine.active)
    (unfinished : (machine.pcs taskId).ended = false) :
    HookTrace engine env (engine.work env machine taskId) := by
  have job := invariant.submitted taskId (.inr held)
  have ok := invariant.tasks taskId
  obtain ⟨own, hooks, isOwn⟩ :=
    engine.advance_hooks_own env taskId keyed (machine.pcs taskId)
  have hooksFor := engine.advance_hooksFor env taskId keyed (machine.pcs taskId)
  obtain ⟨first, calls, areTasks, _, begun⟩ := trace.begun
  refine ⟨fun other => ?_, ⟨first, calls ++ own.toList, ?_, fun ended => ?_, fun _ => ?_⟩, ?_⟩
  · by_cases same : other = taskId
    · subst same
      have next := AcceptedEngine.advance_hooksOk ok (trace.tasks other) unfinished
        (invariant.known job)
      rw [work_pcs_self,
        show (engine.work env machine other).shared.hooksFor other = _ from hooksFor other,
        if_pos rfl]
      exact next
    · rw [work_pcs_of_ne same,
        show (engine.work env machine taskId).shared.hooksFor other = _ from hooksFor other,
        if_neg same, List.append_nil]
      exact trace.tasks other
  · intro call member
    rcases List.mem_append.mp member with old | new
    · exact areTasks call old
    · exact ⟨taskId, isOwn call new⟩
  · cases running.symm.trans ended
  · have notReturned : machine.status ≠ .returned := fun ended => by cases running.symm.trans ended
    rw [begun notReturned] at hooks
    exact hooks
  · rw [show (engine.work env machine taskId).shared.hooks = _ from hooks, List.pairwise_append]
    refine ⟨trace.ordered, ?_, fun earlier member call new up other edge isFor isUp => ?_⟩
    · cases own with
      | none => exact List.Pairwise.nil
      | some call => exact List.pairwise_singleton _ _
    · -- The new call is for the task of the thread, and nothing below it was called.
      obtain rfl : up = taskId := Option.some.inj (isUp.symm.trans (isOwn call new))
      exact RunState.hooksFor_ne_nil member isFor (trace.not_called_below invariant unfinished edge)

/-- The end of `run` adds the call of `on_workflow_end`. -/
theorem finish (trace : HookTrace engine env machine) (running : machine.status = .running)
    {after : RunState} (hooks : after.hooks = machine.shared.hooks ++ [.workflowEnd after.run]) :
    HookTrace engine env { machine with shared := after, status := .returned } := by
  obtain ⟨first, calls, areTasks, _, begun⟩ := trace.begun
  have notReturned : machine.status ≠ .returned := fun ended => by cases running.symm.trans ended
  have sameFor : ∀ taskId, after.hooksFor taskId = machine.shared.hooksFor taskId := by
    intro taskId
    rw [RunState.hooksFor, hooks, List.filterMap_append]
    exact List.append_nil _
  refine ⟨fun taskId => ?_, ⟨first, calls, areTasks, fun _ => ⟨after.run, ?_⟩, fun ended => ?_⟩, ?_⟩
  · rw [sameFor taskId]
    exact trace.tasks taskId
  · rw [hooks, begun notReturned, List.cons_append]
  · exact absurd rfl ended
  · rw [hooks, List.pairwise_append]
    refine ⟨trace.ordered, List.pairwise_singleton _ _, fun _ _ call last up _ _ _ isUp => ?_⟩
    obtain rfl := List.mem_singleton.mp last
    cases isUp

/-- The trace looks at the hooks, the program points and the status only. -/
theorem congr (trace : HookTrace engine env machine) {after : Machine}
    (shared : after.shared = machine.shared) (pcs : after.pcs = machine.pcs)
    (running : machine.status ≠ .returned) (stillRunning : after.status ≠ .returned) :
    HookTrace engine env after := by
  obtain ⟨first, calls, areTasks, _, begun⟩ := trace.begun
  refine ⟨fun taskId => ?_, ⟨first, calls, areTasks, fun ended => absurd ended stillRunning,
    fun _ => ?_⟩, ?_⟩
  · rw [shared, pcs]
    exact trace.tasks taskId
  · rw [shared]
    exact begun running
  · rw [shared]
    exact trace.ordered

/-- **The hooks are in shape in every state of every run.** -/
theorem steps (run : engine.Steps env (engine.start env) machine) :
    HookTrace engine env machine := by
  induction run with
  | refl => exact .start
  | @tail machine next steps step ih =>
      have running := step.running
      have notReturned : machine.status ≠ .returned := fun ended => by
        cases running.symm.trans ended
      have keyed := (RunIdentity.steps steps).keyed
      obtain ⟨past, invariant⟩ := (Reachable.steps steps).invariant
      cases step with
      | take => exact ih.congr rfl rfl notReturned notReturned
      | work _ held unfinished => exact ih.work invariant keyed running held unfinished
      | leave => exact ih.congr rfl rfl notReturned notReturned
      | submit => exact ih.congr rfl rfl notReturned notReturned
      | raise => exact ih.congr rfl rfl notReturned fun ended => by cases ended
      | finish _ drained idle last returned =>
          obtain ⟨after, ran, _⟩ :=
            (Reachable.steps steps).finishRun running drained idle last returned
          rw [WorkflowEngine.finish_of_ok ran]
          exact ih.finish running (finishRun_hooks ran)

end HookTrace

/-! ## Well-formed calls -/

/-- Each call sees the number of starts up to it. -/
def Counted (calls : List (HookKind × ℕ)) : Prop :=
  ∀ before call after, calls = before ++ call :: after → call.2 = starts (before ++ [call])

theorem Counted.nil : Counted [] := by
  intro before call after split
  simp at split

theorem Counted.concat {calls : List (HookKind × ℕ)} {call : HookKind × ℕ} (counted : Counted calls)
    (sees : call.2 = starts (calls ++ [call])) : Counted (calls ++ [call]) := by
  intro before other after split
  rcases List.eq_nil_or_concat after with rfl | ⟨rest, last, rfl⟩
  · obtain ⟨rfl, same⟩ := List.append_inj' split rfl
    cases same
    exact sees
  · rw [List.concat_eq_append, ← List.cons_append, ← List.append_assoc] at split
    exact counted before other rest (List.append_inj' split rfl).1

theorem starts_concat (calls : List (HookKind × ℕ)) (call : HookKind × ℕ) :
    starts (calls ++ [call]) = starts calls + if call.1 = .taskStart then 1 else 0 := by
  rw [starts, starts, List.countP_append, List.countP_singleton]
  simp

/-- Before the start of an attempt all earlier attempts have started. -/
theorem starts_callsBefore (attempt : ℕ) : starts (callsBefore (attempt + 1)) = attempt := by
  induction attempt with
  | zero => rfl
  | succ attempt ih =>
      rw [callsBefore_succ (Nat.succ_pos attempt), callsUpTo, starts_concat, starts_concat, ih]
      rfl

theorem starts_callsUpTo {attempt : ℕ} (positive : 1 ≤ attempt) :
    starts (callsUpTo attempt) = attempt := by
  obtain ⟨earlier, rfl⟩ := Nat.exists_eq_add_of_le' positive
  rw [callsUpTo, starts_concat, starts_callsBefore]
  rfl

theorem counted_callsUpTo {attempt : ℕ} (positive : 1 ≤ attempt) :
    Counted (callsUpTo attempt) := by
  induction attempt, positive using Nat.le_induction with
  | base => exact Counted.nil.concat rfl
  | succ attempt positive ih =>
      have starts' := starts_callsUpTo (Nat.le_succ_of_le positive)
      refine Counted.concat ?_ starts'.symm
      rw [callsBefore_succ positive]
      refine ih.concat ?_
      rw [starts_concat, starts_callsUpTo positive]
      rfl

/-- The hooks that are called up to the start of an attempt. -/
theorem map_callsUpTo {attempt : ℕ} (positive : 1 ≤ attempt) : (callsUpTo attempt).map Prod.fst =
    .taskStart :: (List.replicate (attempt - 1) [.taskRetry, .taskStart]).flatten := by
  induction attempt, positive using Nat.le_induction with
  | base => rfl
  | succ attempt positive ih =>
      obtain ⟨earlier, rfl⟩ := Nat.exists_eq_add_of_le' positive
      rw [callsUpTo, callsBefore_succ positive, List.map_append, List.map_append, ih]
      simp [List.replicate_succ']

namespace HookTrace

variable {machine : Machine}

/-- In a run that has returned, the calls for every task are those of its outcome. -/
theorem hooksFor_of_returned (trace : HookTrace engine env machine)
    (reachable : Reachable engine env machine) (returned : machine.status = .returned)
    (taskId : String) :
    taskId ∉ engine.workflow.tasks ∧ machine.attemptsOf taskId = 0 ∧
        machine.shared.hooksFor taskId = [] ∨
      taskId ∈ engine.workflow.tasks ∧ engine.Settles env taskId (machine.shared.view taskId) ∧
        machine.shared.hooksFor taskId = engine.finalCalls env taskId := by
  have stage := reachable.stage
  rw [Stage, returned] at stage
  have ok := reachable.task_ok taskId
  have hooksOk := trace.tasks taskId
  by_cases known : taskId ∈ engine.workflow.tasks
  · rw [stage.1 taskId known] at ok hooksOk
    exact .inr ⟨known, ok.2, hooksOk⟩
  · rw [reachable.pc_of_unknown known] at hooksOk
    refine .inl ⟨known, ?_, hooksOk⟩
    rcases reachable.waiting_of_unknown known with at' | ⟨at', _⟩
    · exact at'.attempts
    · exact at'.attempts

/-- **The calls of a run that has returned are well formed.** -/
theorem wellFormed (trace : HookTrace engine env machine)
    (reachable : Reachable engine env machine) (returned : machine.status = .returned) :
    HooksWellFormed engine.toWorkflowEngine machine where
  enclosed := by
    obtain ⟨first, calls, areTasks, enclosed, _⟩ := trace.begun
    obtain ⟨last, hooks⟩ := enclosed returned
    exact ⟨first, calls, last, hooks, areTasks⟩
  attempted := by
    intro taskId positive
    rcases trace.hooksFor_of_returned reachable returned taskId with
      ⟨_, none, _⟩ | ⟨_, settles, calls⟩
    · omega
    · rw [calls, AcceptedEngine.finalCalls]
      rw [AcceptedEngine.Settles] at settles
      cases outcome : engine.outcome env taskId with
      | value attempt =>
          rw [outcome] at settles
          obtain rfl : machine.attemptsOf taskId = attempt := settles.attempts
          refine .inl ⟨settles.state, ?_⟩
          rw [List.map_append, map_callsUpTo positive]
          rfl
      | failed =>
          rw [outcome] at settles
          have attempts : machine.attemptsOf taskId = engine.maxAttempts taskId := settles.attempts
          refine .inr ⟨settles.state, ?_⟩
          rw [← attempts, List.map_append, map_callsUpTo positive]
          rfl
      | blocked =>
          rw [outcome] at settles
          have attempts : machine.attemptsOf taskId = 0 := settles.attempts
          omega
  blocked := by
    intro taskId blocked
    rcases trace.hooksFor_of_returned reachable returned taskId with
      ⟨_, _, none⟩ | ⟨_, _, calls⟩
    · exact none
    · have outcome := ((reachable.task_ok taskId).of_upstreamFailed blocked).2
      rw [calls, AcceptedEngine.finalCalls, outcome]
  counted := by
    intro taskId
    change Counted _
    rcases trace.hooksFor_of_returned reachable returned taskId with
      ⟨_, _, none⟩ | ⟨known, _, calls⟩
    · rw [none]
      exact .nil
    · rw [calls, AcceptedEngine.finalCalls]
      cases outcome : engine.outcome env taskId with
      | value attempt =>
          have positive := (AcceptedEngine.outcome_eq_value_iff.mp outcome).2.positive
          refine (counted_callsUpTo positive).concat ?_
          rw [starts_concat, starts_callsUpTo positive]
          rfl
      | failed =>
          have positive := engine.one_le_maxAttempts known
          refine (counted_callsUpTo positive).concat ?_
          rw [starts_concat, starts_callsUpTo positive]
          rfl
      | blocked => exact .nil
  ordered := by
    intro up taskId edge before call after split isFor later member
    have ordered := trace.ordered
    rw [split, List.pairwise_append] at ordered
    exact List.rel_of_pairwise_cons ordered.2.1 member up taskId edge isFor

end HookTrace

/-- **The calls of a run that has come to its end are well formed if and only if no
execution of a task was aborted by an overflow in the arithmetic of a retry.** -/
theorem hooks_wellFormed_iff (engine : AcceptedEngine) (env : Env) {machine : Machine}
    (run : engine.Steps env (engine.start env) machine)
    (ended : ∀ next, ¬ engine.Step env machine next) :
    (HooksWellFormed engine.toWorkflowEngine machine ↔ ∀ taskId, ¬ machine.Aborted taskId) ∧
      (engine.NoOverflow env → HooksWellFormed engine.toWorkflowEngine machine) := by
  have reachable := Reachable.steps run
  have trace := HookTrace.steps run
  have complete : (∀ taskId, ¬ machine.Aborted taskId) →
      HooksWellFormed engine.toWorkflowEngine machine := fun noneAborted =>
    trace.wellFormed reachable ((reachable.returned_iff ended).mpr noneAborted)
  refine ⟨⟨fun wellFormed taskId aborted => ?_, complete⟩,
    fun noOverflow => complete (reachable.not_aborted noOverflow)⟩
  -- A run with an aborted task does not return, so it has not called `on_workflow_end`.
  have notReturned : machine.status ≠ .returned := fun returned =>
    reachable.not_aborted_of_returned returned taskId aborted
  obtain ⟨first, calls, areTasks, _, begun⟩ := trace.begun
  obtain ⟨_, others, last, hooks, _⟩ := wellFormed.enclosed
  rw [begun notReturned] at hooks
  obtain ⟨other, isFor⟩ := areTasks (.workflowEnd last) (by
    rw [(List.cons.inj hooks).2]
    exact List.mem_append_right _ (List.mem_singleton_self _))
  cases isFor

theorem hooks_wellFormed_pipeline : ∃ machine,
    (pipeline 2 (by decide)).replay { runId := "run" }
      ((pipeline 2 (by decide)).start { runId := "run" }) pipelineChoices = some machine ∧
    machine.shared.hooksFor "extract" =
      [(.taskStart, 1), (.taskRetry, 1), (.taskStart, 2), (.taskSuccess, 2)] ∧
    HooksWellFormed (pipeline 2 (by decide)).toWorkflowEngine machine := by
  have shown : ((pipeline 2 (by decide)).replay { runId := "run" }
      ((pipeline 2 (by decide)).start { runId := "run" }) pipelineChoices).map
        (fun machine => (machine.status, machine.shared.hooksFor "extract")) =
      some (.returned,
        [(.taskStart, 1), (.taskRetry, 1), (.taskStart, 2), (.taskSuccess, 2)]) := by
    decide +kernel
  obtain ⟨machine, replayed, shows⟩ := Option.map_eq_some_iff.mp shown
  obtain ⟨returned, calls⟩ := Prod.mk.inj shows
  refine ⟨machine, replayed, calls, (hooks_wellFormed_iff (pipeline 2 (by decide))
    { runId := "run" } (steps_of_replay _ _ replayed) fun next step => ?_).2
      (WorkflowEngine.noOverflow_exact _ rfl)⟩
  cases returned.symm.trans step.running

/-- An overflow ends a run without `on_workflow_end`, and leaves the calls of its
task without a last one. -/
theorem hooks_not_wellFormed_of_overflow : ∃ machine,
    overflowing.Steps { runId := "run", arithmetic := .python }
      (overflowing.start { runId := "run", arithmetic := .python }) machine ∧
    (∀ next, ¬ overflowing.Step { runId := "run", arithmetic := .python } machine next) ∧
    machine.shared.hooks.map HookCall.kind =
      [.workflowStart, .taskStart, .taskStart, .taskStart] ∧
    machine.attemptsOf "a" = 1 ∧ machine.shared.hooksFor "a" = [(.taskStart, 1)] ∧
    ¬ HooksWellFormed overflowing.toWorkflowEngine machine := by
  have shown : (overflowing.replay { runId := "run", arithmetic := .python }
      (overflowing.start { runId := "run", arithmetic := .python })
      (.submit :: (wholeJob "a" 14 ++ wholeJob "b" 14 ++ wholeJob "c" 14 ++ [.raise]))).map
        (fun machine => ((machine.status, machine.stateOf "a", machine.attemptsOf "a"),
          machine.shared.hooks.map HookCall.kind, machine.shared.hooksFor "a")) =
      some ((.raised (.overflowError "days=1000000000; must have magnitude <= 999999999"),
        .retrying, 1),
        [.workflowStart, .taskStart, .taskStart, .taskStart], [(.taskStart, 1)]) := by
    decide +kernel
  obtain ⟨machine, replayed, shows⟩ := Option.map_eq_some_iff.mp shown
  simp only [Prod.mk.injEq] at shows
  obtain ⟨⟨raised, retrying, attempts⟩, kinds, calls⟩ := shows
  refine ⟨machine, steps_of_replay _ _ replayed, fun next step => ?_, kinds, attempts, calls,
    fun wellFormed => ?_⟩
  · cases raised.symm.trans step.running
  · rcases wellFormed.attempted "a" attempts.ge with ⟨state, _⟩ | ⟨state, _⟩
    · cases retrying.symm.trans state
    · cases retrying.symm.trans state

end EtlOrchestrator
