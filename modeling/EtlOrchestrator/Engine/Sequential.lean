import EtlOrchestrator.Engine.Safety
import EtlOrchestrator.Engine.Termination
import EtlOrchestrator.Foundations.Grouping

/-!
# Sequential runs

With one worker, `run` executes the tasks one after the other. The program
`executeTask` is carried out by the steps of the task's thread, and so the whole
program is carried out by a run of the machine whose batches are the single
tasks. What is known of reachable states therefore holds of its result.

What the threads append to the trace comes task by task, in topological order,
and so do the calls of the callables.
-/

set_option autoImplicit false

namespace EtlOrchestrator

open SortedSet Exec Relation

namespace WorkflowEngine

variable {engine : WorkflowEngine} {env : Env} {taskId : String}

/-! ## `executeTask` as steps of a thread -/

section

/-- The steps of a task's thread carry out a program. -/
abbrev Carries {α : Type} (engine : WorkflowEngine) (env : Env) (taskId : String)
    (program : Exec α) (entry : Pc) (exit : α → Pc) : Prop :=
  Performs (engine.ThreadStep env taskId) .raised program entry exit

/-- A step of a thread carries out its program. -/
theorem carries_act {α : Type} {program : Exec α} {pc : Pc} (exit : α → Pc)
    (unfinished : pc.ended = false)
    (same : engine.act env taskId pc = program >>= fun result => pure (exit result)) :
    Carries engine env taskId program pc exit := by
  refine .single fun state => ?_
  cases ran : program.run state with
  | ok result after =>
      refine ⟨unfinished, (advance_of_ok ?_).symm⟩
      rw [same, EStateM.run_bind, ran]
      rfl
  | error error after =>
      refine ⟨unfinished, (advance_of_error ?_).symm⟩
      rw [same, EStateM.run_bind, ran]

/-- A step of a thread that leaves the state as it is. -/
theorem threadStep_of_pure {pc next : Pc} (unfinished : pc.ended = false)
    (same : engine.act env taskId pc = pure next) (state : RunState) :
    engine.ThreadStep env taskId (state, pc) (state, next) :=
  ⟨unfinished, (advance_of_ok (by rw [same]; rfl)).symm⟩

theorem carries_walkDownstream (failedTaskId : String) (pendingVisit : List String)
    (visited : Finset String) :
    Carries engine env taskId (engine.walkDownstream env failedTaskId pendingVisit visited)
      (.walk failedTaskId pendingVisit visited) fun _ => .refresh := by
  induction pendingVisit, visited using walkDownstream.induct engine with
  | case1 visited =>
      rw [walkDownstream]
      exact .head (threadStep_of_pure rfl (by rw [act])) (.pure () _)
  | case2 visited dependent rest seen ih =>
      rw [walkDownstream, if_pos seen]
      exact .head (threadStep_of_pure rfl (by rw [act, if_pos seen])) ih
  | case3 visited dependent rest fresh ih =>
      rw [walkDownstream, if_neg fresh]
      refine .bind (carries_act (fun _ => .walk failedTaskId
        (rest ++ sorted (engine.workflow.downstream dependent)) (insert dependent visited)) rfl ?_)
        fun _ => ih
      rw [act, if_neg fresh]

theorem carries_scanUpstream (upstreamIds : List String) :
    Carries engine env taskId (engine.scanUpstream env upstreamIds) (.scan upstreamIds)
      fun _ => .refresh := by
  induction upstreamIds with
  | nil => exact .head (threadStep_of_pure rfl (by rw [act])) (.pure () _)
  | cons upstreamId rest ih =>
      refine .bind (carries_act (fun _ => .scanCheck upstreamId rest) rfl rfl) fun _ => ?_
      refine .bind (carries_act (fun state : TaskState =>
        if state = .failed ∨ state = .upstreamFailed then
          .walk upstreamId (sorted (engine.workflow.downstream upstreamId)) ∅
        else .scan rest) rfl ?_) fun state => ?_
      · simp only [act, apply_ite pure]
      · by_cases failed : state = .failed ∨ state = .upstreamFailed
        · rw [if_pos failed, if_pos failed]
          exact carries_walkDownstream upstreamId _ ∅
        · rw [if_neg failed, if_neg failed]
          exact ih

theorem carries_scheduleRetry (task : Task) (attempt : ℕ) :
    Carries engine env taskId (scheduleRetry env taskId task attempt) (.checkRetry task attempt)
      fun _ => .checkStart task (attempt + 1) := by
  refine .bind (carries_act (.retry task attempt) rfl rfl) fun delay => ?_
  refine .bind (carries_act (fun _ => .hookRetry task attempt delay) rfl rfl) fun _ => ?_
  refine .bind (carries_act (fun _ => .sleep task attempt delay) rfl rfl) fun _ => ?_
  exact carries_act _ rfl rfl

/-- Where a thread stands after a call of its callable. -/
def afterCall (task : Task) (attempt : ℕ) : Except PyError Unit → Pc
  | .ok () => .checkSucceed attempt
  | .error error => .checkFail task attempt error

theorem carries_runAttempts (task : Task) (attempt : ℕ) :
    Carries engine env taskId (engine.runAttempts env taskId task attempt)
      (.checkStart task attempt) fun _ => .done := by
  induction attempt using runAttempts.induct task with
  | case1 attempt ih =>
      rw [runAttempts]
      refine .bind (carries_act (fun _ => .start task attempt) rfl rfl) fun _ => ?_
      refine .bind (carries_act (fun _ => .hookStart task attempt) rfl rfl) fun _ => ?_
      refine .bind (carries_act (fun _ => .call task attempt) rfl rfl) fun _ => ?_
      refine .bind (carries_act (afterCall task attempt) rfl ?_) fun result => ?_
      · rw [act]
        congr 1
        funext result
        cases result <;> rfl
      · cases result with
        | ok _ =>
            refine .bind (carries_act (fun _ => .succeed attempt) rfl rfl) fun _ => ?_
            refine .bind (carries_act (fun _ => .hookSuccess attempt) rfl rfl) fun _ => ?_
            exact carries_act _ rfl rfl
        | error error =>
            refine .bind (carries_act (fun _ => .fail task attempt error) rfl rfl)
              fun _ => ?_
            refine .bind (carries_act (fun _ => if attempt < task.maxAttempts then
              .checkRetry task attempt else .permanent attempt) rfl rfl) fun _ => ?_
            by_cases remaining : attempt < task.maxAttempts
            · rw [dif_pos remaining, if_pos remaining]
              exact .bind (carries_scheduleRetry task attempt) fun _ => ih remaining
            · rw [dif_neg remaining, if_neg remaining]
              refine .bind (carries_act (fun _ => .hookFailure) rfl rfl) fun _ => ?_
              exact carries_act _ rfl rfl

theorem carries_skipExecution :
    Carries engine env taskId (skipExecution taskId) .skip fun _ => .done :=
  carries_act _ rfl rfl

/-- **The thread of a task carries out `_execute_task`.** -/
theorem carries_executeTask :
    Carries engine env taskId (engine.executeTask env taskId) .enter fun _ => .done := by
  refine .bind (carries_act (fun _ => .firstCheck) rfl rfl) fun _ => ?_
  refine .bind (carries_act (fun state : TaskState => if state ≠ .pending then .skip
    else .scan (env.iterate taskId (engine.workflow.upstream taskId))) rfl ?_) fun state => ?_
  · simp only [act, apply_ite pure]
  by_cases started : state ≠ .pending
  · rw [if_pos started, if_pos started]
    exact carries_skipExecution
  rw [if_neg started, if_neg started]
  refine .bind (carries_scanUpstream _) fun _ => ?_
  refine .bind (carries_act (fun _ => .secondCheck) rfl rfl) fun _ => ?_
  refine .bind (carries_act (fun state : TaskState => if state ≠ .pending then .skip
    else .define) rfl ?_) fun state => ?_
  · simp only [act, apply_ite pure]
  by_cases blocked : state ≠ .pending
  · rw [if_pos blocked, if_pos blocked]
    exact carries_skipExecution
  rw [if_neg blocked, if_neg blocked]
  -- The lookup of the task and the read of its attempts are one step.
  have defined : Carries engine env taskId
      (engine.taskDef taskId >>= fun task => do return (task, (← recordOf taskId).attempts + 1))
      .define fun first => .checkStart first.1 first.2 := by
    refine carries_act _ rfl ?_
    simp only [act, bind_assoc, pure_bind]
  have continued := defined.bind fun first => carries_runAttempts first.1 first.2
  simpa only [bind_assoc, pure_bind] using continued

end

/-! ## Batches of one task -/

/-- The steps of a thread are steps of the machine while a worker holds its task. -/
theorem steps_of_thread (machine : Machine) (running : machine.status = .running)
    (held : taskId ∈ machine.active) {after : RunState × Pc}
    (threadSteps : ReflTransGen (engine.ThreadStep env taskId)
      (machine.shared, machine.pcs taskId) after) :
    engine.Steps env machine
      { machine with shared := after.1, pcs := Function.update machine.pcs taskId after.2 } := by
  induction threadSteps with
  | refl => rw [Function.update_eq_self]
  | @tail middle last _ step ih =>
      obtain ⟨unfinished, rfl⟩ := step
      have worked : engine.Step env _ (engine.work env
          { machine with shared := middle.1, pcs := Function.update machine.pcs taskId middle.2 }
          taskId) :=
        .work running held (by simpa using unfinished)
      refine ih.tail ?_
      simpa [work] using worked

/-- A run between two batches, of which the last one has not raised. -/
structure BetweenBatches (machine : Machine) : Prop where
  running : machine.status = .running
  drained : machine.queue = []
  idle : machine.active = []
  returned : ∀ taskId ∈ machine.jobs, (machine.pcs taskId).error? = none

/-- A batch of one task executes the task. -/
theorem steps_of_batch (env : Env) {machine : Machine} {later : List (List String)}
    (atLeastOne : 1 ≤ engine.maxWorkers) (between : BetweenBatches machine)
    (toCome : machine.levels = [taskId] :: later) (fresh : machine.pcs taskId = .enter) :
    match (engine.executeTask env taskId).run machine.shared with
    | .ok () after => engine.Steps env machine
        { machine with
          shared := after, pcs := Function.update machine.pcs taskId .done
          levels := later, jobs := [taskId] }
    | .error error after => engine.Steps env machine
        { machine with
          shared := after, pcs := Function.update machine.pcs taskId (.raised error)
          levels := later, jobs := [taskId], status := .raised error } := by
  obtain ⟨shared, pcs, levels, jobs, queue, active, status⟩ := machine
  obtain ⟨rfl, rfl, rfl, returned⟩ := between
  let held : Machine := { shared, pcs, levels := later, jobs := [taskId], active := [taskId] }
  have taken : engine.Steps env _ held :=
    .tail (.single (.submit rfl rfl rfl toCome returned)) (.take rfl rfl (by simpa [workers]))
  have left : ∀ after pc, pc.ended = true →
      ReflTransGen (engine.ThreadStep env taskId) (shared, .enter) (after, pc) →
      engine.Steps env { shared, pcs, levels, jobs }
        { shared := after, pcs := Function.update pcs taskId pc, levels := later
          jobs := [taskId] } := by
    intro after pc ended threadSteps
    rw [← show pcs taskId = .enter from fresh] at threadSteps
    have worked := steps_of_thread held rfl List.mem_cons_self threadSteps
    have leave : engine.Step env
        { held with shared := after, pcs := Function.update held.pcs taskId pc }
        { held with
          shared := after, pcs := Function.update held.pcs taskId pc
          active := held.active.erase taskId } :=
      .leave rfl List.mem_cons_self (by simpa using ended)
    simpa [held] using (taken.trans worked).tail leave
  have carried := (carries_executeTask : Carries engine env taskId _ _ _) shared
  cases ran : (engine.executeTask env taskId).run shared with
  | ok result after =>
      rw [ran] at carried
      exact left after .done rfl carried
  | error error after =>
      rw [ran] at carried
      exact (left after (.raised error) rfl carried).tail (.raise rfl rfl rfl (by simp [Pc.error?]))

/-- The batches of one task each execute the tasks one after the other. -/
theorem steps_of_executeAll (env : Env) (atLeastOne : 1 ≤ engine.maxWorkers)
    (later : List (List String)) (order : List String) : ∀ machine : Machine,
      BetweenBatches machine → machine.levels = order.map ([·]) ++ later →
      order.Nodup → (∀ taskId ∈ order, machine.pcs taskId = .enter) →
      match (engine.executeAll env order).run machine.shared with
      | .ok () after => ∃ next, engine.Steps env machine next ∧ BetweenBatches next ∧
          next.levels = later ∧ next.shared = after
      | .error error _ => ∃ next, engine.Steps env machine next ∧ next.status = .raised error := by
  induction order with
  | nil => exact fun _ between toCome _ _ => ⟨_, .refl, between, toCome, rfl⟩
  | cons taskId rest ih =>
      intro machine between toCome nodup fresh
      obtain ⟨new, restNodup⟩ := List.nodup_cons.mp nodup
      have batch := steps_of_batch env atLeastOne between toCome
        (fresh taskId List.mem_cons_self)
      rw [executeAll, EStateM.run_bind]
      cases ran : (engine.executeTask env taskId).run machine.shared with
      | error error after =>
          rw [ran] at batch
          exact ⟨_, batch, rfl⟩
      | ok result after =>
          rw [ran] at batch
          have continues := ih
            { machine with
              shared := after, pcs := Function.update machine.pcs taskId .done
              levels := rest.map ([·]) ++ later, jobs := [taskId] }
            ⟨between.running, between.drained, between.idle, by simp [Pc.error?]⟩ rfl restNodup
            fun other member => by
              have different : other ≠ taskId := fun same => new (same ▸ member)
              simpa [different] using fresh other (List.mem_cons_of_mem _ member)
          dsimp only at continues ⊢
          cases continued : (engine.executeAll env rest).run after with
          | ok _ _ =>
              rw [continued] at continues
              obtain ⟨next, steps, facts⟩ := continues
              exact ⟨next, batch.trans steps, facts⟩
          | error _ _ =>
              rw [continued] at continues
              obtain ⟨next, steps, raised⟩ := continues
              exact ⟨next, batch.trans steps, raised⟩

end WorkflowEngine

/-! ## Sequential runs -/

variable {engine : AcceptedEngine} {env : Env}

/-- With one worker the batches are the single tasks in topological order. -/
theorem batches_of_one_worker (one : engine.maxWorkers = 1) : ∃ order,
    engine.topologicalOrder = .ok order ∧ engine.batches = .ok (order.map ([·])) ∧
      order.Nodup := by
  obtain ⟨order, computed, _, extension⟩ := WorkflowEngine.topologicalOrder_eq_ok engine.valid
  refine ⟨order, computed, ?_, extension.nodup⟩
  rw [WorkflowEngine.batches, if_pos one.le, computed]
  rfl

/-- **The sequential program is a run of the machine.** -/
theorem steps_of_runSequential (env : Env) (one : engine.maxWorkers = 1) :
    match (engine.runSequential env).run (engine.created env) with
    | .ok () after => ∃ machine, engine.Steps env (engine.start env) machine ∧
        machine.status = .returned ∧ machine.shared = after
    | .error error _ => ∃ machine, engine.Steps env (engine.start env) machine ∧
        machine.status = .raised error := by
  obtain ⟨order, computed, batches, nodup⟩ := batches_of_one_worker one
  obtain ⟨shared, levels, same, sameBatches, began, _⟩ := start_eq engine env
  rw [batches] at sameBatches
  cases sameBatches
  have executed := WorkflowEngine.steps_of_executeAll env one.ge [] order
    { shared, levels := order.map ([·]) } ⟨rfl, rfl, rfl, by simp⟩ (List.append_nil _).symm nodup
    fun _ _ => rfl
  dsimp only at executed
  rw [WorkflowEngine.runSequential, EStateM.run_bind, began, computed, same]
  dsimp only [ofExcept]
  rw [pure_bind, EStateM.run_bind]
  cases ran : (engine.executeAll env order).run shared with
  | error error after =>
      rw [ran] at executed
      exact executed
  | ok result after =>
      rw [ran] at executed
      obtain ⟨next, steps, between, last, rfl⟩ := executed
      have finished := steps.tail (.finish between.running between.drained between.idle last
        between.returned)
      dsimp only
      rw [WorkflowEngine.finish] at finished
      cases ended : (WorkflowEngine.finishRun env).run next.shared with
      | ok _ _ =>
          rw [ended] at finished
          exact ⟨_, finished, rfl, rfl⟩
      | error _ _ =>
          rw [ended] at finished
          exact ⟨_, finished, rfl⟩

/-- Without overflows the sequential program returns, at the end of a run of the
machine. -/
theorem runSequential_eq_ok (one : engine.maxWorkers = 1) (noOverflow : engine.NoOverflow env) :
    ∃ machine, (engine.runSequential env).run (engine.created env) = .ok () machine.shared ∧
      engine.Steps env (engine.start env) machine ∧ machine.status = .returned := by
  have run := steps_of_runSequential env one
  cases ran : (engine.runSequential env).run (engine.created env) with
  | ok _ after =>
      rw [ran] at run
      obtain ⟨machine, steps, returned, rfl⟩ := run
      exact ⟨machine, rfl, steps, returned⟩
  | error error after =>
      rw [ran] at run
      obtain ⟨machine, steps, raised⟩ := run
      exact absurd raised ((Reachable.steps steps).not_raised noOverflow error)

/-! ## The order of the trace -/

/-- The entries of the trace that are about the workflow as a whole. -/
def Event.isOfWorkflow : Event → Bool
  | checkedWorkflow _ _ | assignedWorkflow _ => true
  | hook (.workflowStart _) | hook (.workflowEnd _) => true
  | _ => false

theorem WorkflowEngine.beginRun_events (engine : WorkflowEngine) (env : Env) : ∃ shared,
    (beginRun env).run (engine.created env) = .ok () shared ∧
      ∀ event ∈ shared.events, event.isOfWorkflow = true := by
  refine ⟨_, rfl, fun event member => ?_⟩
  rcases member with _ | ⟨_, _ | ⟨_, _ | ⟨_, member⟩⟩⟩
  · rfl
  · rfl
  · rfl
  · cases member

/-- The trace grows by entries that are about the workflow. -/
def AddsOfWorkflow (before after : RunState) : Prop :=
  ∃ own, after.events = before.events ++ own ∧ ∀ event ∈ own, event.isOfWorkflow = true

namespace AddsOfWorkflow

theorem of_events_eq {before after : RunState} (same : after.events = before.events) :
    AddsOfWorkflow before after :=
  ⟨[], by rw [same, List.append_nil], fun _ member => absurd member List.not_mem_nil⟩

instance : Std.Refl AddsOfWorkflow := ⟨fun _ => of_events_eq rfl⟩

instance : IsTrans RunState AddsOfWorkflow := by
  refine ⟨fun first second third earlier later => ?_⟩
  obtain ⟨own, added, ofWorkflow⟩ := earlier
  obtain ⟨more, addedLater, alsoOfWorkflow⟩ := later
  refine ⟨own ++ more, by rw [addedLater, added, List.append_assoc], fun event member => ?_⟩
  exact (List.mem_append.mp member).elim (ofWorkflow event) (alsoOfWorkflow event)

theorem emit {event : Event} (ofWorkflow : event.isOfWorkflow = true) (state : RunState) :
    AddsOfWorkflow state (state.emit event) :=
  ⟨[event], rfl, fun _ member => List.mem_singleton.mp member ▸ ofWorkflow⟩

theorem moveWorkflow (target : WorkflowState) :
    Respects AddsOfWorkflow (Exec.moveWorkflow target) := by
  refine Respects.get.bind fun state => Respects.bind (.modify (emit rfl)) fun _ => ?_
  cases transitionWorkflow state.run.workflowState target with
  | ok _ => exact .modify fun state => emit rfl { state with run := _ }
  | error error => exact .throw _

end AddsOfWorkflow

/-- The end of `run` adds entries that are about the workflow. -/
theorem WorkflowEngine.finishRun_addsOfWorkflow (env : Env) :
    Respects AddsOfWorkflow (finishRun env) := by
  refine Respects.get.bind fun state => ?_
  cases aggregateWorkflowState state.run.taskStates with
  | none => exact .throw _
  | some final =>
      have now : Respects AddsOfWorkflow (Exec.now env) := fun _ => .of_events_eq rfl
      refine (AddsOfWorkflow.moveWorkflow final).bind fun _ => now.bind fun _ => ?_
      refine Respects.bind (.modify fun _ => .of_events_eq rfl) fun _ => ?_
      refine Respects.bind (.modify fun _ => .of_events_eq rfl) fun _ => ?_
      exact Respects.get.bind fun _ => .modify (AddsOfWorkflow.emit rfl)

/-- What a part of the trace shows of a run is nothing at its start, and nothing
new at its end. -/
theorem RunState.filterMap_eq_nil_of_workflow {α : Type} {select : Event → Option α}
    (ofTasks : ∀ event, event.isOfWorkflow = true → select event = none) {events : List Event}
    (ofWorkflow : ∀ event ∈ events, event.isOfWorkflow = true) :
    events.filterMap select = [] :=
  List.filterMap_eq_nil_iff.mpr fun event member => ofTasks event (ofWorkflow event member)

/-- In a sequential run a job is the only one of its batch. -/
theorem Invariant.jobs_eq_singleton (one : engine.maxWorkers = 1) {past : List (List String)}
    {machine : Machine} (invariant : Invariant engine env past machine) {taskId : String}
    (job : taskId ∈ machine.jobs) : machine.jobs = [taskId] := by
  obtain ⟨order, _, batches, _⟩ := batches_of_one_worker one
  obtain ⟨other, sameBatches, split⟩ := invariant.position
  rw [batches] at sameBatches
  cases sameBatches
  have member : machine.jobs ∈ [] :: order.map ([·]) := by
    rw [split]
    exact List.mem_append_right _ List.mem_cons_self
  rcases List.mem_cons.mp member with empty | single
  · rw [empty] at job
    cases job
  · obtain ⟨single, _, same⟩ := List.mem_map.mp single
    rw [← same] at job ⊢
    rw [List.mem_singleton.mp job]

/-- A run that has returned has no batches to come. -/
theorem Reachable.levels_of_returned {machine : Machine} (reachable : Reachable engine env machine)
    (returned : machine.status = .returned) : machine.levels.flatten = [] := by
  obtain ⟨past, invariant⟩ := reachable.invariant
  have allDone := reachable.stage
  rw [Stage, returned] at allDone
  rw [List.eq_nil_iff_forall_not_mem]
  intro taskId toCome
  have known : taskId ∈ engine.workflow.tasks := by
    rw [← OrderedDict.mem_keySet, ← invariant.layering.mem_iff, List.flatten_append,
      List.flatten_cons]
    exact List.mem_append_right _ (List.mem_append_right _ toCome)
  have entering := invariant.untouched_of_toCome toCome
  rw [allDone.1 taskId known] at entering
  cases entering

/-- **What the steps of the threads of a sequential run append for their tasks
comes task by task, in topological order.** -/
theorem grouped_in_order {α : Type} (key : α → String) {select : Event → Option α}
    (ofTasks : ∀ event, event.isOfWorkflow = true → select event = none)
    (work : ∀ {machine : Machine} {taskId : String}, Reachable engine env machine → ∃ own,
      (engine.work env machine taskId).shared.events.filterMap select =
        machine.shared.events.filterMap select ++ own ∧ ∀ item ∈ own, key item = taskId)
    (one : engine.maxWorkers = 1) {order : List String}
    (computed : engine.topologicalOrder = .ok order) {machine : Machine}
    (run : engine.Steps env (engine.start env) machine) : ∃ earlier,
    order = earlier ++ machine.jobs ++ machine.levels.flatten ∧
      Grouped key (earlier ++ machine.jobs) (machine.shared.events.filterMap select) := by
  obtain ⟨other, otherComputed, batches, nodup⟩ := batches_of_one_worker one
  rw [computed] at otherComputed
  cases otherComputed
  induction run with
  | refl =>
      obtain ⟨shared, levels, same, sameBatches, began, _⟩ := start_eq engine env
      obtain ⟨other, otherBegan, ofWorkflow⟩ := engine.beginRun_events env
      rw [began] at otherBegan
      cases otherBegan
      rw [batches] at sameBatches
      cases sameBatches
      rw [same]
      refine ⟨[], ?_, ?_⟩
      · simp [← List.flatMap_def]
      · dsimp only
        rw [RunState.filterMap_eq_nil_of_workflow ofTasks ofWorkflow]
        exact .nil _
  | @tail machine next steps step ih =>
      obtain ⟨earlier, split, grouped⟩ := ih
      have reachable := Reachable.steps steps
      obtain ⟨past, invariant⟩ := reachable.invariant
      cases step with
      | @work taskId running held unfinished =>
          have job := invariant.submitted taskId (.inr held)
          have single := invariant.jobs_eq_singleton one job
          obtain ⟨own, added, about⟩ := work reachable
          have new : taskId ∉ earlier := fun old =>
            List.disjoint_of_nodup_append (split ▸ nodup).of_append_left old job
          refine ⟨earlier, split, ?_⟩
          rw [single] at grouped
          rw [show (engine.work env machine taskId).jobs = [taskId] from single, added]
          exact grouped.append new about
      | submit running drained idle toCome returned =>
          have apart := split ▸ nodup
          rw [toCome, List.flatten_cons, ← List.append_assoc] at apart
          refine ⟨earlier ++ machine.jobs, ?_, grouped.extend ?_⟩
          · rw [split, toCome, List.flatten_cons, List.append_assoc _ _ (List.flatten _)]
          · exact List.disjoint_of_nodup_append apart.of_append_left
      | finish running drained idle last returned =>
          obtain ⟨after, ran, _⟩ := reachable.finishRun running drained idle last returned
          obtain ⟨own, added, ofWorkflow⟩ :=
            (WorkflowEngine.finishRun_addsOfWorkflow env).of_ok ran
          rw [WorkflowEngine.finish_of_ok ran]
          refine ⟨earlier, split, ?_⟩
          dsimp only
          rw [added, List.filterMap_append,
            RunState.filterMap_eq_nil_of_workflow ofTasks ofWorkflow, List.append_nil]
          exact grouped
      | _ => exact ⟨earlier, split, grouped⟩

/-! ## The order of the calls -/

/-- The calls of a run are those of a list of tasks, one task after the other. -/
def CallsInOrder (tasks : List String) (state : RunState) : Prop :=
  state.calls = tasks.flatMap fun taskId => (state.view taskId).called

theorem RunState.calls_eq_nil {state : RunState}
    (none : ∀ taskId, (state.view taskId).called = []) : state.calls = [] := by
  rw [List.eq_nil_iff_forall_not_mem]
  intro context member
  have noCall := List.filter_eq_nil_iff.mp (none context.taskId) context member
  simp at noCall

/-- The calls that a step adds are those of the task of its thread. -/
theorem WorkflowEngine.advance_calls {taskId : String} {state : RunState} {pc : Pc}
    (ok : engine.TaskOk env taskId (state.view taskId) pc) : ∃ own,
    (engine.advance env taskId state pc).1.calls = state.calls ++ own ∧
      ∀ context ∈ own, context.taskId = taskId := by
  obtain ⟨own, calls, about⟩ := (engine.advance_frame env taskId state pc).calls
  refine ⟨own, calls, fun context member => ?_⟩
  by_contra different
  rw [about context member] at different
  -- A step that touches another task does not call its callable.
  have same : ((engine.advance env taskId state pc).1.view (pc.touched taskId)).called =
      (state.view (pc.touched taskId)).called := by
    rcases Invariant.advance_other ok different with sameView | ⟨_, _, _, _, _, _, blocked⟩
    · rw [sameView]
    · rw [blocked]
      rfl
  simp only [RunState.view, calls, List.filter_append, List.append_right_eq_self,
    List.filter_eq_nil_iff] at same
  exact same context member (by simp [about context member])

/-- **In a sequential run the calls come task by task, in topological order.** -/
theorem calls_in_order (one : engine.maxWorkers = 1) {order : List String}
    (computed : engine.topologicalOrder = .ok order) {machine : Machine}
    (run : engine.Steps env (engine.start env) machine) : ∃ earlier,
    order = earlier ++ machine.jobs ++ machine.levels.flatten ∧
      CallsInOrder (earlier ++ machine.jobs) machine.shared := by
  refine grouped_in_order TaskContext.taskId (fun event ofWorkflow => ?_)
    (fun reachable => WorkflowEngine.advance_calls (reachable.task_ok _)) one computed run
  cases event with
  | called context => cases ofWorkflow
  | _ => rfl

end EtlOrchestrator
