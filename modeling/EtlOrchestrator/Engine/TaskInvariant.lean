import EtlOrchestrator.Engine.ControlFlow
import EtlOrchestrator.Engine.Frames
import EtlOrchestrator.Engine.Outcome
import EtlOrchestrator.Foundations.GraphWalk

/-!
# The invariant of one task

`TaskOk` says, for each program point of a task's thread, what its view shows
there: the state and the attempts of its record, the calls of its callable, the
legal path of the assigned states, and that the checks and the log agree with
this path. What it says of the future of the task is said through the outcome,
which no step changes.

A step of the thread keeps the invariant of its own task (`act_ok`), and a block
by another task's walk keeps it too (`TaskOk.blocked`).
-/

set_option autoImplicit false

namespace EtlOrchestrator

open BlockingEvaluation SortedSet Relation

/-! ## Paths of states -/

/-- The transitions along a path of states. -/
def transitions {α : Type} (first : α) : List α → List (α × α)
  | [] => []
  | next :: rest => (first, next) :: transitions next rest

theorem transitions_concat {α : Type} (path : List α) (next : α) : ∀ first,
    transitions first (path ++ [next]) =
      transitions first path ++ [(path.getLastD first, next)] := by
  induction path with
  | nil => exact fun _ => rfl
  | cons second rest ih =>
      intro first
      rw [List.cons_append, transitions, transitions, ih, List.getLastD_cons]
      rfl

namespace TaskView

/-- The states assigned to a task form a legal path to its state, and the checks
made are the transitions of this path and the one that comes next, which is legal
from the stored state. -/
structure Tracked (view : TaskView) (ahead : List (TaskState × TaskState)) : Prop where
  legal : ∀ move ∈ transitions .pending view.assigned, canTransition move.1 move.2
  state : view.record.state = view.assigned.getLastD .pending
  checked : view.checked = transitions .pending view.assigned ++ ahead
  next : ∀ move ∈ ahead, move.1 = view.record.state ∧ canTransition move.1 move.2

/-- The log states exactly the transitions of the path. -/
structure Faithful (view : TaskView) (ahead : List (TaskState × TaskState)) : Prop
    extends Tracked view ahead where
  moved : view.moved = transitions .pending view.assigned

variable {view : TaskView} {source target : TaskState} {change : TaskRunRecord → TaskRunRecord}

theorem Faithful.checking (faithful : Faithful view []) (current : view.record.state = source)
    (legal : canTransition source target) :
    Faithful (view.checking target) [(source, target)] where
  legal := faithful.legal
  state := faithful.state
  checked := by
    rw [TaskView.checking, faithful.checked, List.append_nil, current]
  next := by
    intro move member
    obtain rfl := List.mem_singleton.mp member
    exact ⟨current.symm, legal⟩
  moved := faithful.moved

/-- Assigning the state that was checked. -/
theorem Tracked.assign (tracked : Tracked view [(source, target)])
    (current : view.record.state = source) (legal : canTransition source target)
    {after : TaskView} (assigned : after.assigned = view.assigned ++ [target])
    (state : after.record.state = target) (checked : after.checked = view.checked) :
    Tracked after [] := by
  have last : view.assigned.getLastD .pending = source := tracked.state.symm.trans current
  refine ⟨?_, ?_, ?_, nofun⟩
  · rw [assigned, transitions_concat, last]
    intro move member
    rcases List.mem_append.mp member with old | new
    · exact tracked.legal move old
    · obtain rfl := List.mem_singleton.mp new
      exact legal
  · rw [state, assigned, List.getLastD_concat]
  · rw [checked, tracked.checked, assigned, transitions_concat, last, List.append_nil]

theorem Faithful.moving (faithful : Faithful view [(source, target)])
    (current : view.record.state = source) (legal : canTransition source target)
    (state : (change { view.record with state := target }).state = target) :
    Faithful (view.moving source target change) [] where
  toTracked := faithful.toTracked.assign current legal rfl state rfl
  moved := by
    rw [TaskView.moving, faithful.moved, transitions_concat, ← faithful.state, current]

/-- Blocking a pending task. -/
theorem Faithful.blocked (faithful : Faithful view []) (pending : view.record.state = .pending)
    (failedTaskId : String) (now : ℚ) : Faithful (view.blocked failedTaskId now) [] := by
  exact (faithful.checking pending (by decide)).moving pending (by decide) rfl

end TaskView

/-! ## The invariant -/

namespace WorkflowEngine

/-- The contexts of the first attempts of a task. -/
def contexts (engine : WorkflowEngine) (env : Env) (taskId : String) (count : ℕ) :
    List TaskContext :=
  (List.range' 1 count).map (engine.context env taskId)

theorem contexts_succ (engine : WorkflowEngine) (env : Env) (taskId : String) (count : ℕ) :
    engine.contexts env taskId (count + 1) =
      engine.contexts env taskId count ++ [engine.context env taskId (count + 1)] := by
  rw [contexts, contexts, List.range'_concat, List.map_append, List.map_singleton, Nat.one_mul,
    Nat.add_comm]

end WorkflowEngine

namespace AcceptedEngine

variable (engine : AcceptedEngine) (env : Env) (taskId : String)

/-- The record of a task stands at a state and a number of attempts, after its
callable was called for the first ones. -/
structure At (view : TaskView) (state : TaskState) (attempts calls : ℕ) : Prop where
  state : view.record.state = state
  attempts : view.record.attempts = attempts
  called : view.called = engine.contexts env taskId calls

/-- A task that has not started is pending, or blocked for good. -/
def Waiting (view : TaskView) : Prop :=
  engine.At env taskId view .pending 0 0 ∨
    engine.At env taskId view .upstreamFailed 0 0 ∧ engine.outcome env taskId = .blocked

/-- An attempt of a task is made: its upstreams succeed, and all its earlier
attempts fail. -/
structure Attempting (task : Task) (attempt : ℕ) : Prop where
  defined : engine.workflow.tasks.get? taskId = some task
  unblocked : engine.outcome env taskId ≠ .blocked
  positive : 1 ≤ attempt
  allowed : attempt ≤ task.maxAttempts
  failing : ∀ earlier, 1 ≤ earlier → earlier < attempt → ¬ engine.Succeeds env taskId earlier

/-- The attempt fails too. -/
structure Failing (task : Task) (attempt : ℕ) : Prop extends
    Attempting engine env taskId task attempt where
  fails : ¬ engine.Succeeds env taskId attempt

/-- A record that agrees with the outcome of its task. -/
def Settles (view : TaskView) : Prop :=
  match engine.outcome env taskId with
  | .value attempt => engine.At env taskId view .success attempt attempt
  | .failed => engine.At env taskId view .failed (engine.maxAttempts taskId)
      (engine.maxAttempts taskId)
  | .blocked => engine.At env taskId view .upstreamFailed 0 0

/-- The error comes from the arithmetic of a retry. -/
def IsBackoffError (error : PyError) : Prop :=
  ∃ task attempt, engine.workflow.tasks.get? taskId = some task ∧ 1 ≤ attempt ∧
    attempt < task.maxAttempts ∧
    (env.arithmetic.delay task attempt = .error error ∨
      ∃ delay reading, env.arithmetic.delay task attempt = .ok delay ∧
        env.arithmetic.retryAt (env.clock reading) delay = .error error)

/-- What the view of a task shows at each program point of its thread. -/
def TaskOk (view : TaskView) : Pc → Prop
  | .enter | .firstCheck => view.Faithful [] ∧ engine.Waiting env taskId view
  | .skip => view.Faithful [] ∧ engine.At env taskId view .upstreamFailed 0 0 ∧
      engine.outcome env taskId = .blocked
  | .scan rest => view.Faithful [] ∧ engine.Waiting env taskId view ∧
      (∀ up ∈ rest, engine.workflow.Edge up taskId) ∧
      ∀ up, engine.workflow.Edge up taskId → up ∈ rest ∨ (engine.outcome env up).HasValue
  | .scanCheck upstreamId rest => view.Faithful [] ∧ engine.Waiting env taskId view ∧
      (∀ up ∈ upstreamId :: rest, engine.workflow.Edge up taskId) ∧
      ∀ up, engine.workflow.Edge up taskId →
        up ∈ upstreamId :: rest ∨ (engine.outcome env up).HasValue
  | .walk failedTaskId pendingVisit visited => view.Faithful [] ∧
      (engine.At env taskId view .pending 0 0 ∧ taskId ∈ pendingVisit ∧ taskId ∉ visited ∨
        engine.At env taskId view .upstreamFailed 0 0) ∧
      engine.workflow.Edge failedTaskId taskId ∧ ¬ (engine.outcome env failedTaskId).HasValue ∧
      (∀ dependent ∈ pendingVisit, TransGen engine.workflow.Edge failedTaskId dependent) ∧
      ∀ dependent ∈ visited, TransGen engine.workflow.Edge failedTaskId dependent
  | .refresh | .secondCheck => view.Faithful [] ∧ engine.Waiting env taskId view ∧
      (view.record.state = .pending → engine.outcome env taskId ≠ .blocked)
  | .define => view.Faithful [] ∧ engine.At env taskId view .pending 0 0 ∧
      engine.outcome env taskId ≠ .blocked
  | .checkStart task attempt => view.Faithful [] ∧ engine.Attempting env taskId task attempt ∧
      engine.At env taskId view (if attempt = 1 then .pending else .retrying) (attempt - 1)
        (attempt - 1)
  | .start task attempt =>
      view.Faithful [(if attempt = 1 then .pending else .retrying, .running)] ∧
      engine.Attempting env taskId task attempt ∧
      engine.At env taskId view (if attempt = 1 then .pending else .retrying) (attempt - 1)
        (attempt - 1)
  | .hookStart task attempt | .call task attempt => view.Faithful [] ∧
      engine.Attempting env taskId task attempt ∧
      engine.At env taskId view .running attempt (attempt - 1)
  | .checkFail task attempt _ => view.Faithful [] ∧ engine.Failing env taskId task attempt ∧
      engine.At env taskId view .running attempt attempt
  | .fail task attempt _ => view.Faithful [(.running, .failed)] ∧
      engine.Failing env taskId task attempt ∧ engine.At env taskId view .running attempt attempt
  | .checkRetry task attempt => view.Faithful [] ∧ engine.Failing env taskId task attempt ∧
      attempt < task.maxAttempts ∧ engine.At env taskId view .failed attempt attempt
  | .retry task attempt delay => view.Faithful [(.failed, .retrying)] ∧
      engine.Failing env taskId task attempt ∧ attempt < task.maxAttempts ∧
      env.arithmetic.delay task attempt = .ok delay ∧
      engine.At env taskId view .failed attempt attempt
  | .hookRetry task attempt _ | .sleep task attempt _ => view.Faithful [] ∧
      engine.Failing env taskId task attempt ∧ attempt < task.maxAttempts ∧
      engine.At env taskId view .retrying attempt attempt
  | .permanent attempt => view.Faithful [] ∧ engine.Settles env taskId view ∧
      engine.At env taskId view .failed attempt attempt
  | .hookFailure => view.Faithful [] ∧ engine.Settles env taskId view ∧
      view.record.state = .failed
  | .checkSucceed attempt => view.Faithful [] ∧ engine.outcome env taskId = .value attempt ∧
      engine.At env taskId view .running attempt attempt
  | .succeed attempt => view.Faithful [(.running, .success)] ∧
      engine.outcome env taskId = .value attempt ∧
      engine.At env taskId view .running attempt attempt
  | .hookSuccess attempt => view.Faithful [] ∧ engine.outcome env taskId = .value attempt ∧
      engine.At env taskId view .success attempt attempt
  | .done => view.Faithful [] ∧ engine.Settles env taskId view
  | .raised error => view.Tracked [] ∧ engine.IsBackoffError env taskId error ∧
      ∃ task attempt, engine.Failing env taskId task attempt ∧ attempt < task.maxAttempts ∧
        (engine.At env taskId view .failed attempt attempt ∨
          engine.At env taskId view .retrying attempt attempt)

variable {engine env taskId} {view : TaskView}

/-! ## Blocks by other tasks -/

theorem At.not_pending {state : TaskState} {attempts calls : ℕ}
    (at' : engine.At env taskId view state attempts calls)
    (pending : view.record.state = .pending) (different : state ≠ .pending) : False :=
  different (at'.state.symm.trans pending)

theorem Waiting.at_pending (waiting : engine.Waiting env taskId view)
    (pending : view.record.state = .pending) : engine.At env taskId view .pending 0 0 :=
  waiting.resolve_right fun blocked => blocked.1.not_pending pending (by decide)

theorem At.blocked (at' : engine.At env taskId view .pending 0 0) (failedTaskId : String)
    (now : ℚ) : engine.At env taskId (view.blocked failedTaskId now) .upstreamFailed 0 0 :=
  ⟨rfl, at'.attempts, at'.called⟩

/-- A block by a walk keeps the invariant of a task whose outcome is blocked. -/
theorem TaskOk.blocked {pc : Pc} (ok : engine.TaskOk env taskId view pc)
    (pending : view.record.state = .pending) (blocked : engine.outcome env taskId = .blocked)
    (failedTaskId : String) (now : ℚ) :
    engine.TaskOk env taskId (view.blocked failedTaskId now) pc := by
  have after : engine.Waiting env taskId view →
      engine.Waiting env taskId (view.blocked failedTaskId now) := fun waiting =>
    .inr ⟨(waiting.at_pending pending).blocked failedTaskId now, blocked⟩
  cases pc with
  | enter => exact ⟨ok.1.blocked pending _ _, after ok.2⟩
  | firstCheck => exact ⟨ok.1.blocked pending _ _, after ok.2⟩
  | skip => exact (ok.2.1.not_pending pending (by decide)).elim
  | scan rest => exact ⟨ok.1.blocked pending _ _, after ok.2.1, ok.2.2⟩
  | scanCheck upstreamId rest => exact ⟨ok.1.blocked pending _ _, after ok.2.1, ok.2.2⟩
  | walk failed pendingVisit visited =>
      obtain ⟨faithful, ⟨at', _⟩ | at', rest⟩ := ok
      · exact ⟨faithful.blocked pending _ _, .inr (at'.blocked failedTaskId now), rest⟩
      · exact (at'.not_pending pending (by decide)).elim
  | refresh => exact (ok.2.2 pending blocked).elim
  | secondCheck => exact (ok.2.2 pending blocked).elim
  | define => exact (ok.2.2 blocked).elim
  | checkStart task attempt => exact (ok.2.1.unblocked blocked).elim
  | start task attempt => exact (ok.2.1.unblocked blocked).elim
  | hookStart task attempt => exact (ok.2.1.unblocked blocked).elim
  | call task attempt => exact (ok.2.1.unblocked blocked).elim
  | checkFail task attempt error => exact (ok.2.1.unblocked blocked).elim
  | fail task attempt error => exact (ok.2.1.unblocked blocked).elim
  | checkRetry task attempt => exact (ok.2.1.unblocked blocked).elim
  | retry task attempt delay => exact (ok.2.1.unblocked blocked).elim
  | hookRetry task attempt delay => exact (ok.2.1.unblocked blocked).elim
  | sleep task attempt delay => exact (ok.2.1.unblocked blocked).elim
  | permanent attempt => exact (ok.2.2.not_pending pending (by decide)).elim
  | hookFailure => exact absurd (ok.2.2.symm.trans pending) (by decide)
  | checkSucceed attempt => exact (ok.2.2.not_pending pending (by decide)).elim
  | succeed attempt => exact (ok.2.2.not_pending pending (by decide)).elim
  | hookSuccess attempt => exact (ok.2.2.not_pending pending (by decide)).elim
  | done =>
      have settles := ok.2
      rw [Settles, blocked] at settles
      exact (settles.not_pending pending (by decide)).elim
  | raised error =>
      obtain ⟨_, _, _, _, failing, _⟩ := ok
      exact (failing.unblocked blocked).elim

/-! ## Steps of the own thread -/

/-- What the records of two settled tasks say of their outcomes. -/
theorem Settles.hasValue_iff (settles : engine.Settles env taskId view) :
    (engine.outcome env taskId).HasValue ↔
      ¬ (view.record.state = .failed ∨ view.record.state = .upstreamFailed) := by
  rw [Settles] at settles
  cases outcome : engine.outcome env taskId with
  | value attempt =>
      rw [outcome] at settles
      simp [settles.state]
  | failed =>
      rw [outcome] at settles
      simp [settles.state]
  | blocked =>
      rw [outcome] at settles
      simp [settles.state]

theorem At.moving {state target : TaskState} {attempts calls : ℕ} {source : TaskState}
    {change : TaskRunRecord → TaskRunRecord} (at' : engine.At env taskId view state attempts calls)
    {after : ℕ} (sameState : (change { view.record with state := target }).state = target)
    (newAttempts : (change { view.record with state := target }).attempts = after) :
    engine.At env taskId (view.moving source target change) target after calls :=
  ⟨sameState, newAttempts, at'.called⟩

theorem At.checking {state target : TaskState} {attempts calls : ℕ}
    (at' : engine.At env taskId view state attempts calls) :
    engine.At env taskId (view.checking target) state attempts calls :=
  ⟨at'.state, at'.attempts, at'.called⟩

end AcceptedEngine

namespace AcceptedEngine

open WorkflowEngine

/-- The invariant holds of a task after a step of its thread. -/
def NextOk (engine : AcceptedEngine) (env : Env) (taskId : String) (state : RunState) (pc : Pc) :
    Prop :=
  engine.TaskOk env taskId ((engine.advance env taskId state pc).1.view taskId)
    (engine.advance env taskId state pc).2

variable {engine : AcceptedEngine} {env : Env} {taskId : String} {state : RunState}

theorem NextOk.of_ok (after : RunState) (next : Pc) {pc : Pc}
    (ran : (engine.act env taskId pc).run state = .ok next after)
    (ok : engine.TaskOk env taskId (after.view taskId) next) :
    engine.NextOk env taskId state pc := by
  rw [NextOk, advance_of_ok ran]
  exact ok

theorem NextOk.of_error (after : RunState) (error : PyError) {pc : Pc}
    (ran : (engine.act env taskId pc).run state = .error error after)
    (ok : engine.TaskOk env taskId (after.view taskId) (.raised error)) :
    engine.NextOk env taskId state pc := by
  rw [NextOk, advance_of_error ran]
  exact ok

/-! ### Before the first attempt -/

theorem enter_ok (next : Pc) {pc : Pc}
    (ran : (engine.act env taskId pc).run state = .ok next (state.record taskId))
    (ok : engine.TaskOk env taskId (state.view taskId) next) :
    engine.NextOk env taskId state pc :=
  .of_ok _ next ran (by rwa [RunState.view_record])

theorem firstCheck_ok (ok : engine.TaskOk env taskId (state.view taskId) .firstCheck) :
    engine.NextOk env taskId state .firstCheck := by
  obtain ⟨faithful, waiting⟩ := ok
  by_cases pending : state.stateOf taskId = .pending
  · refine .of_ok state (.scan _) (by simp [act, pending]; rfl) ?_
    refine ⟨faithful, waiting, fun up member => ?_, fun up edge => .inl ?_⟩
    · exact (env.mem_iterate _ _ _).mp member
    · exact (env.mem_iterate _ _ _).mpr edge
  · refine .of_ok state .skip (by simp [act, pending]) ?_
    obtain at' | ⟨at', blocked⟩ := waiting
    · exact absurd at'.state pending
    · exact ⟨faithful, at', blocked⟩

theorem scanCheck_ok {upstreamId : String} {rest : List String}
    (ok : engine.TaskOk env taskId (state.view taskId) (.scanCheck upstreamId rest))
    (settles : engine.Settles env upstreamId (state.view upstreamId)) :
    engine.NextOk env taskId state (.scanCheck upstreamId rest) := by
  obtain ⟨faithful, waiting, edges, others⟩ := ok
  have edge := edges upstreamId List.mem_cons_self
  by_cases failed : state.stateOf upstreamId = .failed ∨ state.stateOf upstreamId = .upstreamFailed
  · refine .of_ok state (.walk upstreamId _ ∅)
      (by simp only [act, EStateM.run_bind, Exec.run_stateOf, if_pos failed]; rfl) ?_
    have noValue : ¬ (engine.outcome env upstreamId).HasValue := fun value =>
      settles.hasValue_iff.mp value failed
    refine ⟨faithful, ?_, edge, noValue, fun dependent member => ?_, fun _ member => ?_⟩
    · exact waiting.imp (fun at' => ⟨at', by simpa using edge, Finset.notMem_empty _⟩) And.left
    · exact .single (Workflow.mem_downstream.mp (mem_sorted.mp member))
    · exact absurd member (Finset.notMem_empty _)
  · refine .of_ok state (.scan rest)
      (by simp only [act, EStateM.run_bind, Exec.run_stateOf, if_neg failed]; rfl) ?_
    refine ⟨faithful, waiting, fun up member => edges up (List.mem_cons_of_mem _ member), ?_⟩
    intro up upEdge
    rcases others up upEdge with member | value
    · rcases List.mem_cons.mp member with rfl | inRest
      · exact .inr (settles.hasValue_iff.mpr failed)
      · exact .inl inRest
    · exact .inr value

/-- The walk from a failed upstream has blocked the task when it ends. -/
theorem walk_nil_ok {failedTaskId : String} {visited : Finset String}
    (ok : engine.TaskOk env taskId (state.view taskId) (.walk failedTaskId [] visited)) :
    engine.NextOk env taskId state (.walk failedTaskId [] visited) := by
  obtain ⟨faithful, ⟨_, member, _⟩ | at', edge, noValue, _⟩ := ok
  · exact absurd member List.not_mem_nil
  · refine .of_ok state .refresh rfl ?_
    exact ⟨faithful, .inr ⟨at', outcome_of_ancestor noValue (.single edge)⟩,
      fun pending => (at'.not_pending pending (by decide)).elim⟩

theorem walk_cons_ok {failedTaskId dependent : String} {rest : List String}
    {visited : Finset String}
    (ok : engine.TaskOk env taskId (state.view taskId)
      (.walk failedTaskId (dependent :: rest) visited)) :
    engine.NextOk env taskId state (.walk failedTaskId (dependent :: rest) visited) := by
  obtain ⟨faithful, own, edge, noValue, below, belowVisited⟩ := ok
  have dependentBelow := below dependent List.mem_cons_self
  by_cases seen : dependent ∈ visited
  · refine .of_ok state (.walk failedTaskId rest visited)
      (by simp only [act, if_pos seen]; rfl) ?_
    refine ⟨faithful, own.imp_left ?_, edge, noValue,
      fun other member => below other (List.mem_cons_of_mem _ member), belowVisited⟩
    rintro ⟨at', member, fresh⟩
    rcases List.mem_cons.mp member with rfl | inRest
    · exact absurd seen fresh
    · exact ⟨at', inRest, fresh⟩
  · obtain ⟨after, ran, view⟩ := blockTask_view env state dependent failedTaskId
    refine .of_ok after
      (.walk failedTaskId (rest ++ sorted (engine.workflow.downstream dependent))
        (insert dependent visited))
      (by simp only [act, if_neg seen, EStateM.run_bind, ran, EStateM.run_pure]) ?_
    have belowLater := below_of_visit below fun child member =>
      Workflow.mem_downstream.mp (mem_sorted.mp member)
    have belowSeen : ∀ other ∈ insert dependent visited,
        TransGen engine.workflow.Edge failedTaskId other := by
      intro other member
      rcases Finset.mem_insert.mp member with rfl | old
      · exact dependentBelow
      · exact belowVisited other old
    suffices (after.view taskId).Faithful [] ∧
        (engine.At env taskId (after.view taskId) .pending 0 0 ∧
          taskId ∈ rest ++ sorted (engine.workflow.downstream dependent) ∧
          taskId ∉ insert dependent visited ∨
        engine.At env taskId (after.view taskId) .upstreamFailed 0 0) from
      ⟨this.1, this.2, edge, noValue, belowLater, belowSeen⟩
    by_cases same : taskId = dependent
    · subst same
      rw [view]
      obtain ⟨at', _⟩ | at' := own
      · rw [if_pos at'.state]
        exact ⟨faithful.blocked at'.state _ _, .inr (at'.blocked _ _)⟩
      · rw [if_neg fun pending => at'.not_pending pending (by decide)]
        exact ⟨faithful, .inr at'⟩
    · rw [((Frame.blockTask env failedTaskId).of_ok ran).view taskId same]
      refine ⟨faithful, own.imp_left ?_⟩
      rintro ⟨at', member, fresh⟩
      exact ⟨at', List.mem_append_left _ ((List.mem_cons.mp member).resolve_left same),
        by simp [same, fresh]⟩

theorem secondCheck_ok (ok : engine.TaskOk env taskId (state.view taskId) .secondCheck) :
    engine.NextOk env taskId state .secondCheck := by
  obtain ⟨faithful, waiting, unblocked⟩ := ok
  by_cases pending : state.stateOf taskId = .pending
  · refine .of_ok state .define (by simp [act, pending]) ?_
    exact ⟨faithful, waiting.at_pending pending, unblocked pending⟩
  · refine .of_ok state .skip (by simp [act, pending]) ?_
    obtain at' | ⟨at', blocked⟩ := waiting
    · exact absurd at'.state pending
    · exact ⟨faithful, at', blocked⟩

theorem define_ok (ok : engine.TaskOk env taskId (state.view taskId) .define)
    (known : taskId ∈ engine.workflow.tasks) : engine.NextOk env taskId state .define := by
  obtain ⟨faithful, at', unblocked⟩ := ok
  obtain ⟨task, defined⟩ := OrderedDict.exists_get?_of_mem known
  refine .of_ok state (.checkStart task 1) ?_ ?_
  · simp only [act, taskDef, defined, Option.elim_some, EStateM.run_bind, Exec.run_ofExcept_ok,
      Exec.run_recordOf, EStateM.run_pure, RunState.recordOf_eq, at'.attempts]
  · exact ⟨faithful, ⟨defined, unblocked, le_refl 1, task.one_le_maxAttempts,
      fun earlier _ less => by omega⟩, at'⟩

/-! ### Attempts -/

theorem Attempting.maxAttempts {task : Task} {attempt : ℕ}
    (attempting : engine.Attempting env taskId task attempt) :
    engine.maxAttempts taskId = task.maxAttempts := by
  rw [WorkflowEngine.maxAttempts, attempting.defined, Option.elim_some]

/-- A first attempt that succeeds after failing ones is the outcome. -/
theorem Attempting.outcome_of_succeeds {task : Task} {attempt : ℕ}
    (attempting : engine.Attempting env taskId task attempt)
    (succeeds : engine.Succeeds env taskId attempt) :
    engine.outcome env taskId = .value attempt :=
  outcome_eq_value_iff.mpr ⟨outcome_ne_blocked_iff.mp attempting.unblocked, attempting.positive,
    attempting.maxAttempts ▸ attempting.allowed, succeeds, attempting.failing⟩

/-- When the last allowed attempt fails too, so does the task. -/
theorem Failing.outcome_of_last {task : Task} {attempt : ℕ}
    (failing : engine.Failing env taskId task attempt) (last : ¬ attempt < task.maxAttempts) :
    engine.outcome env taskId = .failed ∧ engine.maxAttempts taskId = attempt := by
  have allowed := failing.allowed
  have sameMax : engine.maxAttempts taskId = attempt := by
    rw [failing.maxAttempts]
    omega
  refine ⟨outcome_eq_failed_iff.mpr ⟨outcome_ne_blocked_iff.mp failing.unblocked, ?_⟩, sameMax⟩
  intro other positive within
  rcases Nat.lt_or_ge other attempt with less | notLess
  · exact failing.failing other positive less
  · obtain rfl : other = attempt := by omega
    exact failing.fails

theorem transition_ok (target : TaskState) (next : Pc) {pc : Pc} {source : TaskState}
    (acts : engine.act env taskId pc = Exec.transition taskId target >>= fun _ => pure next)
    (current : (state.view taskId).record.state = source) (legal : canTransition source target)
    (ok : engine.TaskOk env taskId ((state.view taskId).checking target) next) :
    engine.NextOk env taskId state pc := by
  subst current
  refine .of_ok (state.emit (.checked taskId (state.stateOf taskId) target))
    next ?_ ?_
  · rw [acts, EStateM.run_bind, Exec.run_transition legal]
    rfl
  · rwa [view_checked]

theorem checkStart_ok {task : Task} {attempt : ℕ}
    (ok : engine.TaskOk env taskId (state.view taskId) (.checkStart task attempt)) :
    engine.NextOk env taskId state (.checkStart task attempt) := by
  obtain ⟨faithful, attempting, at'⟩ := ok
  have legal : canTransition (if attempt = 1 then .pending else .retrying) .running := by
    split <;> decide
  exact transition_ok .running (.start task attempt) rfl at'.state legal
    ⟨faithful.checking at'.state legal, attempting, at'.checking⟩

theorem start_ok {task : Task} {attempt : ℕ}
    (ok : engine.TaskOk env taskId (state.view taskId) (.start task attempt)) :
    engine.NextOk env taskId state (.start task attempt) := by
  obtain ⟨faithful, attempting, at'⟩ := ok
  obtain ⟨after, ran, view⟩ := startAttempt_view env state taskId task attempt
  refine .of_ok after (.hookStart task attempt)
    (Exec.run_then ran _) ?_
  rw [view]
  refine ⟨faithful.moving at'.state ?_ rfl, attempting, at'.moving rfl rfl⟩
  split <;> decide

theorem call_ok {task : Task} {attempt : ℕ}
    (ok : engine.TaskOk env taskId (state.view taskId) (.call task attempt))
    (known : taskId ∈ engine.workflow.tasks) :
    engine.NextOk env taskId state (.call task attempt) := by
  obtain ⟨faithful, attempting, at'⟩ := ok
  obtain ⟨callable, found⟩ := OrderedDict.exists_get?_of_mem ((engine.mem_tasks taskId).mpr known)
  obtain ⟨after, ran, view⟩ := callTask_view env state taskId attempt found
  have called : engine.At env taskId (after.view taskId) .running attempt attempt := by
    rw [view]
    refine ⟨at'.state, at'.attempts, ?_⟩
    have succ := engine.contexts_succ env taskId (attempt - 1)
    rw [Nat.sub_add_cancel attempting.positive] at succ
    rw [succ, at'.called]
  have faithfulAfter : (after.view taskId).Faithful [] := by
    rw [view]
    exact ⟨⟨faithful.legal, faithful.state, faithful.checked, faithful.next⟩, faithful.moved⟩
  cases result : callable (engine.context env taskId attempt) with
  | ok _ =>
      refine .of_ok after (.checkSucceed attempt)
        (by simp only [act, EStateM.run_bind, ran, result, EStateM.run_pure]) ?_
      exact ⟨faithfulAfter, attempting.outcome_of_succeeds ⟨callable, found, result⟩, called⟩
  | error error =>
      refine .of_ok after (.checkFail task attempt error)
        (by simp only [act, EStateM.run_bind, ran, result, EStateM.run_pure]) ?_
      refine ⟨faithfulAfter, ⟨attempting, ?_⟩, called⟩
      rintro ⟨other, otherFound, returned⟩
      rw [found, Option.some_inj] at otherFound
      subst otherFound
      rw [result] at returned
      cases returned

theorem checkFail_ok {task : Task} {attempt : ℕ} {error : PyError}
    (ok : engine.TaskOk env taskId (state.view taskId) (.checkFail task attempt error)) :
    engine.NextOk env taskId state (.checkFail task attempt error) := by
  obtain ⟨faithful, failing, at'⟩ := ok
  exact transition_ok .failed (.fail task attempt error) rfl at'.state (by decide)
    ⟨faithful.checking at'.state (by decide), failing, at'.checking⟩

theorem fail_ok {task : Task} {attempt : ℕ} {error : PyError}
    (ok : engine.TaskOk env taskId (state.view taskId) (.fail task attempt error)) :
    engine.NextOk env taskId state (.fail task attempt error) := by
  obtain ⟨faithful, failing, at'⟩ := ok
  obtain ⟨after, ran, view⟩ := failAttempt_view env state taskId error
  refine .of_ok after
    (if attempt < task.maxAttempts then .checkRetry task attempt else .permanent attempt)
    (Exec.run_then ran _) ?_
  have faithfulAfter : (after.view taskId).Faithful [] := by
    rw [view]
    exact faithful.moving at'.state (by decide) rfl
  have failed : engine.At env taskId (after.view taskId) .failed attempt attempt := by
    rw [view]
    exact at'.moving rfl at'.attempts
  by_cases remaining : attempt < task.maxAttempts
  · rw [if_pos remaining]
    exact ⟨faithfulAfter, failing, remaining, failed⟩
  · rw [if_neg remaining]
    obtain ⟨outcome, sameMax⟩ := failing.outcome_of_last remaining
    refine ⟨faithfulAfter, ?_, failed⟩
    rw [Settles, outcome, sameMax]
    exact failed

theorem checkSucceed_ok {attempt : ℕ}
    (ok : engine.TaskOk env taskId (state.view taskId) (.checkSucceed attempt)) :
    engine.NextOk env taskId state (.checkSucceed attempt) := by
  obtain ⟨faithful, outcome, at'⟩ := ok
  exact transition_ok .success (.succeed attempt) rfl at'.state (by decide)
    ⟨faithful.checking at'.state (by decide), outcome, at'.checking⟩

theorem succeed_ok {attempt : ℕ}
    (ok : engine.TaskOk env taskId (state.view taskId) (.succeed attempt)) :
    engine.NextOk env taskId state (.succeed attempt) := by
  obtain ⟨faithful, outcome, at'⟩ := ok
  obtain ⟨after, ran, view⟩ := succeedAttempt_view env state taskId
  refine .of_ok after (.hookSuccess attempt)
    (Exec.run_then ran _) ?_
  rw [view]
  exact ⟨faithful.moving at'.state (by decide) rfl, outcome, at'.moving rfl at'.attempts⟩

/-! ### Retries -/

theorem checkRetry_ok {task : Task} {attempt : ℕ}
    (ok : engine.TaskOk env taskId (state.view taskId) (.checkRetry task attempt)) :
    engine.NextOk env taskId state (.checkRetry task attempt) := by
  obtain ⟨faithful, failing, remaining, at'⟩ := ok
  cases computed : env.arithmetic.delay task attempt with
  | ok delay =>
      refine transition_ok .retrying (.retry task attempt delay) ?_ at'.state
        (by decide) ⟨faithful.checking at'.state (by decide), failing, remaining, computed,
          at'.checking⟩
      simp only [act, checkRetry, computed, bind_assoc, pure_bind]
      rfl
  | error error =>
      refine .of_error state error ?_ ?_
      · simp only [act, checkRetry, computed, EStateM.run_bind, Exec.run_ofExcept_error]
      · exact ⟨faithful.toTracked,
          ⟨task, attempt, failing.defined, failing.positive, remaining, .inl computed⟩,
          task, attempt, failing, remaining, .inl at'⟩

theorem retry_ok {task : Task} {attempt : ℕ} {delay : ℚ}
    (ok : engine.TaskOk env taskId (state.view taskId) (.retry task attempt delay)) :
    engine.NextOk env taskId state (.retry task attempt delay) := by
  obtain ⟨faithful, failing, remaining, computed, at'⟩ := ok
  have marked := markRetrying_view env state taskId task attempt delay
  cases instant : env.arithmetic.retryAt (env.clock state.clockReads) delay with
  | ok result =>
      rw [instant] at marked
      obtain ⟨after, ran, view⟩ := marked
      refine .of_ok after (.hookRetry task attempt delay)
        (Exec.run_then ran _) ?_
      rw [view]
      exact ⟨faithful.moving at'.state (by decide) rfl, failing, remaining,
        at'.moving rfl at'.attempts⟩
  | error error =>
      rw [instant] at marked
      obtain ⟨after, ran, view⟩ := marked
      refine .of_error after error
        (Exec.run_raises ran _) ?_
      rw [view]
      exact ⟨faithful.toTracked.assign at'.state (by decide) rfl rfl rfl,
        ⟨task, attempt, failing.defined, failing.positive, remaining,
          .inr ⟨delay, _, computed, instant⟩⟩,
        task, attempt, failing, remaining, .inr ⟨rfl, at'.attempts, at'.called⟩⟩

theorem sleep_ok {task : Task} {attempt : ℕ} {delay : ℚ}
    (ok : engine.TaskOk env taskId (state.view taskId) (.sleep task attempt delay)) :
    engine.NextOk env taskId state (.sleep task attempt delay) := by
  obtain ⟨faithful, failing, remaining, at'⟩ := ok
  obtain ⟨after, ran, view⟩ := sleep_view state taskId delay
  refine .of_ok after (.checkStart task (attempt + 1))
    (Exec.run_then ran _) ?_
  rw [view]
  have positive := failing.positive
  refine ⟨faithful, ⟨failing.defined, failing.unblocked, by omega, remaining, ?_⟩, ?_⟩
  · intro earlier earlierPositive less
    rcases Nat.lt_succ_iff_lt_or_eq.mp less with before | rfl
    · exact failing.failing earlier earlierPositive before
    · exact failing.fails
  · rw [if_neg (by omega), Nat.add_sub_cancel]
    exact at'

/-- A step that only notes or traces keeps the view. -/
theorem unchanged_ok (after : RunState) (next : Pc) {pc : Pc}
    (ran : (engine.act env taskId pc).run state = .ok next after)
    (view : after.view taskId = state.view taskId)
    (ok : engine.TaskOk env taskId (state.view taskId) next) : engine.NextOk env taskId state pc :=
  .of_ok after next ran (by rwa [view])

theorem taskHook_ok (next : Pc) {pc : Pc} (call : WorkflowRun → TaskRunRecord → HookCall)
    (acts : engine.act env taskId pc = taskHook call taskId >>= fun _ => pure next)
    (ok : engine.TaskOk env taskId (state.view taskId) next) :
    engine.NextOk env taskId state pc := by
  obtain ⟨after, ran, view⟩ := taskHook_view state taskId call
  exact unchanged_ok after next (acts ▸ Exec.run_then ran next) view ok

/-- **A step of a thread keeps the invariant of its task.** -/
theorem act_ok {pc : Pc} (unfinished : pc.ended = false)
    (ok : engine.TaskOk env taskId (state.view taskId) pc)
    (known : taskId ∈ engine.workflow.tasks)
    (settled : ∀ up, engine.workflow.Edge up taskId → engine.Settles env up (state.view up)) :
    engine.NextOk env taskId state pc := by
  cases pc with
  | enter => exact enter_ok .firstCheck rfl ok
  | firstCheck => exact firstCheck_ok ok
  | skip =>
      obtain ⟨after, ran, view⟩ := skipExecution_view state taskId
      refine unchanged_ok after .done
        (Exec.run_then ran _) view ⟨ok.1, ?_⟩
      rw [Settles, ok.2.2]
      exact ok.2.1
  | scan rest =>
      cases rest with
      | nil =>
          refine unchanged_ok state .refresh rfl rfl ⟨ok.1, ok.2.1, fun _ => ?_⟩
          exact outcome_ne_blocked_iff.mpr fun up edge =>
            (ok.2.2.2 up edge).resolve_left List.not_mem_nil
      | cons upstreamId rest =>
          exact unchanged_ok (state.record upstreamId)
            (.scanCheck upstreamId rest) rfl (RunState.view_record _ _ _) ok
  | scanCheck upstreamId rest =>
      exact scanCheck_ok ok (settled upstreamId (ok.2.2.1 upstreamId List.mem_cons_self))
  | walk failedTaskId pendingVisit visited =>
      cases pendingVisit with
      | nil => exact walk_nil_ok ok
      | cons dependent rest => exact walk_cons_ok ok
  | refresh => exact enter_ok .secondCheck rfl ok
  | secondCheck => exact secondCheck_ok ok
  | define => exact define_ok ok known
  | checkStart task attempt => exact checkStart_ok ok
  | start task attempt => exact start_ok ok
  | hookStart task attempt => exact taskHook_ok (.call task attempt) .taskStart rfl ok
  | call task attempt => exact call_ok ok known
  | checkFail task attempt error => exact checkFail_ok ok
  | fail task attempt error => exact fail_ok ok
  | checkRetry task attempt => exact checkRetry_ok ok
  | retry task attempt delay => exact retry_ok ok
  | hookRetry task attempt delay =>
      exact taskHook_ok (.sleep task attempt delay) _ rfl ok
  | sleep task attempt delay => exact sleep_ok ok
  | permanent attempt =>
      refine unchanged_ok (state.note (.permanentFailure taskId attempt))
        .hookFailure rfl ?_ ⟨ok.1, ok.2.1, ok.2.2.state⟩
      simp [LogEntry.moveOf?, LogEntry.move?]
  | hookFailure => exact taskHook_ok .done .taskFailure rfl ⟨ok.1, ok.2.1⟩
  | checkSucceed attempt => exact checkSucceed_ok ok
  | succeed attempt => exact succeed_ok ok
  | hookSuccess attempt =>
      refine taskHook_ok .done .taskSuccess rfl ⟨ok.1, ?_⟩
      rw [Settles, ok.2.1]
      exact ok.2.2
  | done => cases unfinished
  | raised error => cases unfinished

end AcceptedEngine

end EtlOrchestrator
