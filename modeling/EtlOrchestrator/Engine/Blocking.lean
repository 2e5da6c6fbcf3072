import EtlOrchestrator.Engine.Frames
import EtlOrchestrator.Foundations.GraphWalk

/-!
# What blocking does

The programs of a blocking walk and of the execution of one task, as functions of
the state. A walk from a task marks the transitive dependents that are pending
and leaves every other record as it is (`Marks`). The loop over the upstreams
ends at the first one in its iteration order that has failed, so a task is
executed in one of three ways: it is skipped, it starts a walk from that
upstream, or it makes its attempts.
-/

set_option autoImplicit false

namespace EtlOrchestrator

open SortedSet Relation WorkflowEngine

variable {engine : WorkflowEngine} {env : Env} {failedTaskId taskId : String} {state : RunState}

/-! ## Blocking one task -/

/-- A record as a walk from a failed task leaves it. -/
def TaskRunRecord.blocked (record : TaskRunRecord) (failedTaskId : String) (now : ℚ) :
    TaskRunRecord :=
  { record with
    state := .upstreamFailed
    error := some s!"upstream task '{failedTaskId}' failed"
    finishedAt := some now }

namespace RunState

/-- The state after the block under the lock, for a pending task. -/
def block (env : Env) (failedTaskId : String) (state : RunState) (taskId : String) : RunState :=
  let checked := (state.record taskId).emit (.checked taskId .pending .upstreamFailed)
  let marked := (checked.assign taskId .upstreamFailed).update taskId fun record =>
    { record with error := some s!"upstream task '{failedTaskId}' failed" }
  let stamped := { marked with clockReads := marked.clockReads + 1 }.update taskId fun record =>
    { record with finishedAt := some (env.clock state.clockReads) }
  stamped.note (.blocked taskId failedTaskId)

theorem recordOf_block (taskId other : String) :
    (state.block env failedTaskId taskId).recordOf other =
      if other = taskId then
        (state.recordOf other).blocked failedTaskId (env.clock state.clockReads)
      else state.recordOf other := by
  simp only [recordOf, block, note, update, assign, emit, record, WorkflowRun.recordOf_note,
    WorkflowRun.recordOf_update, WorkflowRun.recordOf_record]
  split
  · rename_i same
    subst same
    simp [TaskRunRecord.blocked]
  · rfl

end RunState

/-- A record that exists is not created again. -/
theorem RunState.record_of_mem (recorded : taskId ∈ state.run.records) :
    state.record taskId = state := by
  rw [RunState.record, WorkflowRun.record, if_pos recorded]

theorem RunState.stateOf_record (state : RunState) (taskId other : String) :
    (state.record taskId).stateOf other = state.stateOf other := by
  rw [RunState.stateOf_eq, RunState.view_record]
  rfl

/-- A task without a record is pending. -/
theorem RunState.mem_records_of_started (started : state.stateOf taskId ≠ .pending) :
    taskId ∈ state.run.records := by
  by_contra missing
  apply started
  rw [RunState.stateOf, RunState.recordOf, WorkflowRun.recordOf, OrderedDict.getD,
    OrderedDict.get?_eq_none_iff.mpr missing]
  rfl

theorem blockTask_of_pending (pending : state.stateOf taskId = .pending) :
    (blockTask env failedTaskId taskId).run state =
      .ok () (state.block env failedTaskId taskId) := by
  have current : (state.record taskId).stateOf taskId = .pending :=
    (state.stateOf_record taskId taskId).trans pending
  have legal : canTransition ((state.record taskId).stateOf taskId) .upstreamFailed := by
    rw [current]
    decide
  have checked := Exec.run_transition legal
  rw [current] at checked
  simp [blockTask, current, checked]
  rfl

theorem blockTask_of_started (started : state.stateOf taskId ≠ .pending) :
    (blockTask env failedTaskId taskId).run state = .ok () state := by
  simp [blockTask, RunState.record_of_mem (RunState.mem_records_of_started started), started]

/-- Only the view of the blocked task changes. -/
theorem RunState.view_block (pending : state.stateOf taskId = .pending) (other : String) :
    (state.block env failedTaskId taskId).view other =
      if other = taskId then (state.view taskId).blocked failedTaskId (env.clock state.clockReads)
      else state.view other := by
  have ran : (blockTask env failedTaskId taskId).run state = _ := blockTask_of_pending pending
  by_cases same : other = taskId
  · subst same
    obtain ⟨after, again, view⟩ := blockTask_view env state other failedTaskId
    cases ran.symm.trans again
    rw [stateOf_eq] at pending
    rw [if_pos rfl, view, if_pos pending]
  · rw [if_neg same]
    exact ((Frame.blockTask env failedTaskId).of_ok ran).view other same

/-! ## Walks -/

/-- **The walk blocks the pending tasks below the failed one, each once.** The
induction is the loop's own. Every task that was visited is no longer pending. -/
theorem walkDownstream_run (failedTaskId : String) (toVisit : List String)
    (visited : Finset String) : ∀ state : RunState,
      Covers engine.workflow.Edge failedTaskId toVisit visited →
      (∀ dependent ∈ toVisit, TransGen engine.workflow.Edge failedTaskId dependent) →
      (∀ dependent ∈ visited, state.stateOf dependent ≠ .pending) →
      ∃ blocked : List String,
        (engine.walkDownstream env failedTaskId toVisit visited).run state =
          .ok () (blocked.foldl (RunState.block env failedTaskId) state) ∧
        blocked.Nodup ∧
        ∀ taskId, taskId ∈ blocked ↔
          TransGen engine.workflow.Edge failedTaskId taskId ∧ state.stateOf taskId = .pending := by
  induction toVisit, visited using walkDownstream.induct engine with
  | case1 visited =>
      intro state covers _ settled
      refine ⟨[], by rw [walkDownstream]; rfl, List.nodup_nil, fun taskId => ?_⟩
      constructor
      · intro member
        exact absurd member List.not_mem_nil
      · intro blocked
        exact absurd blocked.2 (settled taskId (covers.mem_of_below blocked.1))
  | case2 visited dependent rest seen ih =>
      intro state covers below settled
      rw [walkDownstream, if_pos seen]
      exact ih state (covers.skip seen)
        (fun other member => below other (List.mem_cons_of_mem _ member)) settled
  | case3 visited dependent rest fresh ih =>
      intro state covers below settled
      have dependentBelow := below dependent List.mem_cons_self
      have covered : Covers engine.workflow.Edge failedTaskId
          (rest ++ sorted (engine.workflow.downstream dependent)) (insert dependent visited) :=
        covers.visit fun child edge => mem_sorted.mpr (Workflow.mem_downstream.mpr edge)
      have belowLater := below_of_visit below fun child member =>
        Workflow.mem_downstream.mp (mem_sorted.mp member)
      rw [walkDownstream, if_neg fresh, EStateM.run_bind]
      by_cases pending : state.stateOf dependent = .pending
      · -- the dependent is blocked, and the rest of the walk leaves it alone
        have others : ∀ other, other ≠ dependent →
            (state.block env failedTaskId dependent).stateOf other = state.stateOf other := by
          intro other different
          rw [RunState.stateOf, RunState.recordOf_block, if_neg different]
          rfl
        have own : (state.block env failedTaskId dependent).stateOf dependent ≠ .pending := by
          simp [RunState.stateOf, RunState.recordOf_block, TaskRunRecord.blocked]
        obtain ⟨blocked, ran, nodup, mem_iff⟩ := ih (state.block env failedTaskId dependent)
          covered belowLater fun other member => by
            by_cases same : other = dependent
            · exact same ▸ own
            · rw [others other same]
              exact settled other ((Finset.mem_insert.mp member).resolve_left same)
        refine ⟨dependent :: blocked, ?_, ?_, fun taskId => ?_⟩
        · rw [blockTask_of_pending pending]
          exact ran
        · refine List.nodup_cons.mpr ⟨?_, nodup⟩
          intro again
          exact own ((mem_iff dependent).mp again).2
        · by_cases same : taskId = dependent
          · subst same
            simp [dependentBelow, pending]
          · rw [List.mem_cons, or_iff_right same, mem_iff, others taskId same]
      · obtain ⟨blocked, ran, nodup, mem_iff⟩ := ih state covered belowLater
          fun other member => by
            rcases Finset.mem_insert.mp member with rfl | old
            · exact pending
            · exact settled other old
        refine ⟨blocked, ?_, nodup, mem_iff⟩
        rw [blockTask_of_started pending]
        exact ran

/-- The views after pending tasks were blocked one after the other. -/
theorem RunState.view_foldl_block {blocked : List String} (nodup : blocked.Nodup) :
    ∀ state : RunState, (∀ taskId ∈ blocked, state.stateOf taskId = .pending) → ∀ other,
      (other ∈ blocked → ∃ now, (blocked.foldl (block env failedTaskId) state).view other =
        (state.view other).blocked failedTaskId now) ∧
      (other ∉ blocked → (blocked.foldl (block env failedTaskId) state).view other =
        state.view other) := by
  induction blocked with
  | nil => exact fun state _ other => ⟨fun member => absurd member List.not_mem_nil, fun _ => rfl⟩
  | cons taskId rest ih =>
      intro state pending other
      obtain ⟨fresh, restNodup⟩ := List.nodup_cons.mp nodup
      obtain ⟨headPending, restPending⟩ := List.forall_mem_cons.mp pending
      have view : ∀ other, (state.block env failedTaskId taskId).view other = _ :=
        view_block headPending
      obtain ⟨marked, kept⟩ := ih restNodup (state.block env failedTaskId taskId)
        (fun later member => by
          have different : later ≠ taskId := fun same => fresh (same ▸ member)
          rw [stateOf_eq, view, if_neg different]
          exact restPending later member) other
      rw [view] at marked kept
      by_cases same : other = taskId
      · subst same
        rw [if_pos rfl] at kept
        exact ⟨fun _ => ⟨_, kept fresh⟩, fun missing => absurd List.mem_cons_self missing⟩
      · rw [if_neg same] at marked kept
        refine ⟨fun member => marked ((List.mem_cons.mp member).resolve_left same), ?_⟩
        exact fun missing => kept fun inRest => missing (List.mem_cons_of_mem _ inRest)

/-- A walk from the children of a failed task. -/
theorem blockDownstream_run (engine : WorkflowEngine) (env : Env) (failedTaskId : String)
    (state : RunState) : ∃ blocked : List String,
      (engine.blockDownstream env failedTaskId).run state =
        .ok () (blocked.foldl (RunState.block env failedTaskId) state) ∧
      blocked.Nodup ∧
      ∀ taskId, taskId ∈ blocked ↔
        TransGen engine.workflow.Edge failedTaskId taskId ∧ state.stateOf taskId = .pending := by
  refine walkDownstream_run failedTaskId _ ∅ state (.begin fun child edge => ?_)
    (fun dependent member => ?_) (fun _ member => absurd member (Finset.notMem_empty _))
  · exact mem_sorted.mpr (Workflow.mem_downstream.mpr edge)
  · exact .single (Workflow.mem_downstream.mp (mem_sorted.mp member))

/-- The pending transitive dependents of a task were marked, and nothing else. -/
structure Marks (engine : WorkflowEngine) (failedTaskId : String) (before after : RunState) :
    Prop where
  marked : ∀ taskId, TransGen engine.workflow.Edge failedTaskId taskId →
    before.stateOf taskId = .pending →
    ∃ now, after.view taskId = (before.view taskId).blocked failedTaskId now
  kept : ∀ taskId, (TransGen engine.workflow.Edge failedTaskId taskId →
    before.stateOf taskId ≠ .pending) → after.view taskId = before.view taskId

namespace Marks

variable {before after : RunState}

theorem stateOf (marks : Marks engine failedTaskId before after)
    (below : TransGen engine.workflow.Edge failedTaskId taskId)
    (pending : before.stateOf taskId = .pending) : after.stateOf taskId = .upstreamFailed := by
  obtain ⟨now, view⟩ := marks.marked taskId below pending
  rw [RunState.stateOf_eq, view]
  rfl

theorem error (marks : Marks engine failedTaskId before after)
    (below : TransGen engine.workflow.Edge failedTaskId taskId)
    (pending : before.stateOf taskId = .pending) :
    (after.recordOf taskId).error = some s!"upstream task '{failedTaskId}' failed" := by
  obtain ⟨now, view⟩ := marks.marked taskId below pending
  rw [RunState.recordOf_eq, view]
  rfl

/-- The walk looks at the views only. -/
theorem congr (marks : Marks engine failedTaskId before after) {earlier later : RunState}
    (sameBefore : ∀ taskId, earlier.view taskId = before.view taskId)
    (sameAfter : ∀ taskId, later.view taskId = after.view taskId) :
    Marks engine failedTaskId earlier later := by
  have states : ∀ taskId, earlier.stateOf taskId = before.stateOf taskId := fun taskId =>
    congrArg (·.record.state) (sameBefore taskId)
  refine ⟨fun taskId below pending => ?_, fun taskId untouched => ?_⟩
  · rw [sameBefore, sameAfter]
    exact marks.marked taskId below (states taskId ▸ pending)
  · rw [sameBefore, sameAfter]
    exact marks.kept taskId fun below => states taskId ▸ untouched below

end Marks

/-- **`_block_downstream` marks the pending transitive dependents.** -/
theorem blockDownstream_marks (engine : WorkflowEngine) (env : Env) (failedTaskId : String)
    (state : RunState) : ∃ after,
      (engine.blockDownstream env failedTaskId).run state = .ok () after ∧
        Marks engine failedTaskId state after := by
  obtain ⟨blocked, ran, nodup, mem_iff⟩ := blockDownstream_run engine env failedTaskId state
  have pending : ∀ taskId ∈ blocked, state.stateOf taskId = .pending := fun taskId member =>
    ((mem_iff taskId).mp member).2
  refine ⟨_, ran, fun taskId below waiting => ?_, fun taskId untouched => ?_⟩
  · exact (RunState.view_foldl_block nodup state pending taskId).1
      ((mem_iff taskId).mpr ⟨below, waiting⟩)
  · refine (RunState.view_foldl_block nodup state pending taskId).2 fun member => ?_
    obtain ⟨below, waiting⟩ := (mem_iff taskId).mp member
    exact untouched below waiting

/-! ## The search for a failed upstream -/

/-- `record.state in (TaskState.FAILED, TaskState.UPSTREAM_FAILED)`. -/
def RunState.hasFailed (state : RunState) (taskId : String) : Bool :=
  state.stateOf taskId = .failed ∨ state.stateOf taskId = .upstreamFailed

theorem RunState.hasFailed_iff : state.hasFailed taskId = true ↔
    state.stateOf taskId = .failed ∨ state.stateOf taskId = .upstreamFailed :=
  decide_eq_true_iff

/-- The upstream at which the loop of `_block_if_upstream_failed` ends. -/
def WorkflowEngine.failedUpstream (engine : WorkflowEngine) (env : Env) (state : RunState)
    (taskId : String) : Option String :=
  (env.iterate taskId (engine.workflow.upstream taskId)).find? state.hasFailed

theorem edge_of_failedUpstream {up : String}
    (found : engine.failedUpstream env state taskId = some up) :
    engine.workflow.Edge up taskId ∧ state.hasFailed up = true :=
  ⟨(env.mem_iterate _ _ _).mp (List.mem_of_find?_eq_some found), List.find?_some found⟩

theorem failedUpstream_eq_none_iff : engine.failedUpstream env state taskId = none ↔
    ∀ up, engine.workflow.Edge up taskId → ¬ state.hasFailed up = true := by
  rw [failedUpstream, List.find?_eq_none]
  exact forall_congr' fun up => imp_congr_left (env.mem_iterate _ _ _)

/-- The search ends at the first failed upstream. -/
theorem scanUpstream_run (upstreamIds : List String)
    (recorded : ∀ up ∈ upstreamIds, up ∈ state.run.records) :
    (engine.scanUpstream env upstreamIds).run state =
      match upstreamIds.find? state.hasFailed with
      | none => .ok () state
      | some up => (engine.blockDownstream env up).run state := by
  induction upstreamIds with
  | nil => rfl
  | cons upstreamId rest ih =>
      have first := RunState.record_of_mem (recorded upstreamId List.mem_cons_self)
      simp only [scanUpstream, EStateM.run_bind, Exec.run_record, Exec.run_stateOf, first]
      by_cases failed : state.hasFailed upstreamId
      · rw [if_pos (RunState.hasFailed_iff.mp failed), List.find?_cons_of_pos failed]
      · rw [if_neg (RunState.hasFailed_iff.not.mp failed), List.find?_cons_of_neg failed]
        exact ih fun up member => recorded up (List.mem_cons_of_mem _ member)

/-! ## The execution of one task -/

/-- The records of the upstreams of a task exist. -/
def WorkflowEngine.UpstreamsRecorded (engine : WorkflowEngine) (state : RunState)
    (taskId : String) : Prop :=
  ∀ up, engine.workflow.Edge up taskId → up ∈ state.run.records

theorem blockIfUpstreamFailed_run (recorded : engine.UpstreamsRecorded state taskId) :
    (engine.blockIfUpstreamFailed env taskId).run state =
      match engine.failedUpstream env state taskId with
      | none => .ok () state
      | some up => (engine.blockDownstream env up).run state :=
  scanUpstream_run _ fun up member => recorded up ((env.mem_iterate _ _ _).mp member)

/-- A task that has started, or was marked, is skipped. -/
theorem executeTask_of_not_pending (engine : WorkflowEngine) (env : Env)
    (started : state.stateOf taskId ≠ .pending) : ∃ after,
      (engine.executeTask env taskId).run state = .ok () after ∧
        ∀ other, after.view other = state.view other := by
  have current : (state.record taskId).stateOf taskId ≠ .pending := by
    rwa [RunState.stateOf_eq, RunState.view_record]
  refine ⟨(state.record taskId).note
    (.skippedExecution taskId ((state.record taskId).stateOf taskId)), ?_, fun other => ?_⟩
  · simp only [executeTask, EStateM.run_bind, Exec.run_record, Exec.run_stateOf, if_pos current]
    rfl
  · rw [RunState.view_note, RunState.view_record]
    simp [LogEntry.moveOf?, LogEntry.move?]

/-- The attempts of a task whose search has found no failed upstream. -/
def WorkflowEngine.makeAttempts (engine : WorkflowEngine) (env : Env) (taskId : String) :
    Exec Unit := do
  let task ← engine.taskDef taskId
  let attempts := (← Exec.recordOf taskId).attempts
  engine.runAttempts env taskId task (attempts + 1)

/-- `_execute_task` after the search for a failed upstream. -/
def WorkflowEngine.afterSearch (engine : WorkflowEngine) (env : Env) (taskId : String) :
    Exec Unit := do
  Exec.record taskId
  if (← Exec.stateOf taskId) ≠ .pending then skipExecution taskId
  else engine.makeAttempts env taskId

/-- A pending task searches for a failed upstream first. -/
theorem executeTask_run (recorded : engine.UpstreamsRecorded state taskId)
    (pending : state.stateOf taskId = .pending) :
    (engine.executeTask env taskId).run state =
      match engine.failedUpstream env state taskId with
      | none => (engine.afterSearch env taskId).run (state.record taskId)
      | some up => (engine.blockDownstream env up >>= fun _ => engine.afterSearch env taskId).run
          (state.record taskId) := by
  have current : ¬ (state.record taskId).stateOf taskId ≠ .pending :=
    not_not_intro ((state.stateOf_record taskId taskId).trans pending)
  have recordedAfter : engine.UpstreamsRecorded (state.record taskId) taskId := fun other edge => by
    simp [RunState.record, recorded other edge]
  have sameFailed : (state.record taskId).hasFailed = state.hasFailed := by
    funext other
    rw [RunState.hasFailed, RunState.hasFailed, RunState.stateOf_record]
  have searched : (engine.blockIfUpstreamFailed env taskId).run (state.record taskId) =
      match engine.failedUpstream env state taskId with
      | none => .ok () (state.record taskId)
      | some up => (engine.blockDownstream env up).run (state.record taskId) := by
    rw [blockIfUpstreamFailed_run recordedAfter, failedUpstream, sameFailed, ← failedUpstream]
  have begun : (engine.executeTask env taskId).run state =
      (engine.blockIfUpstreamFailed env taskId >>= fun _ => engine.afterSearch env taskId).run
        (state.record taskId) := by
    simp only [executeTask, EStateM.run_bind, Exec.run_record, Exec.run_stateOf, if_neg current]
    rfl
  rw [begun, EStateM.run_bind, searched]
  cases engine.failedUpstream env state taskId with
  | none => rfl
  | some up =>
      dsimp only
      rw [EStateM.run_bind]

/-- A pending task with a failed upstream starts a walk from it, and is skipped. -/
theorem executeTask_of_failedUpstream {up : String}
    (recorded : engine.UpstreamsRecorded state taskId)
    (pending : state.stateOf taskId = .pending)
    (found : engine.failedUpstream env state taskId = some up) : ∃ after,
      (engine.executeTask env taskId).run state = .ok () after ∧ Marks engine up state after := by
  obtain ⟨blocked, walked, marks⟩ := blockDownstream_marks engine env up (state.record taskId)
  have marked : blocked.stateOf taskId = .upstreamFailed :=
    marks.stateOf (.single (edge_of_failedUpstream found).1)
      ((state.stateOf_record taskId taskId).trans pending)
  have skipped : (blocked.record taskId).stateOf taskId ≠ .pending := by
    rw [RunState.stateOf_record, marked]
    decide
  refine ⟨(blocked.record taskId).note
    (.skippedExecution taskId ((blocked.record taskId).stateOf taskId)), ?_, ?_⟩
  · rw [executeTask_run recorded pending, found]
    simp only [EStateM.run_bind, walked, afterSearch, Exec.run_record, Exec.run_stateOf,
      if_pos skipped]
    rfl
  · refine marks.congr (fun other => (state.view_record taskId other).symm) fun other => ?_
    rw [RunState.view_note, RunState.view_record]
    simp [LogEntry.moveOf?, LogEntry.move?]

/-- A pending task without a failed upstream makes its attempts. -/
theorem executeTask_of_free (recorded : engine.UpstreamsRecorded state taskId)
    (pending : state.stateOf taskId = .pending)
    (none : engine.failedUpstream env state taskId = none) :
    (engine.executeTask env taskId).run state =
      (engine.makeAttempts env taskId).run (state.record taskId) := by
  have again : (state.record taskId).record taskId = state.record taskId :=
    RunState.record_of_mem (by simp [RunState.record])
  have current : ¬ (state.record taskId).stateOf taskId ≠ .pending :=
    not_not_intro ((state.stateOf_record taskId taskId).trans pending)
  rw [executeTask_run recorded pending, none]
  simp only [afterSearch, EStateM.run_bind, Exec.run_record, Exec.run_stateOf, again,
    if_neg current]

/-! ## Frames -/

namespace Makes

variable {touched : String} {allowed : ChangeKind → Prop} (env : Env)

theorem scheduleRetry (hook : allowed .hook) (awake : allowed .sleep) (task : Task)
    (failedAttempt : ℕ) :
    Makes touched allowed (WorkflowEngine.scheduleRetry env touched task failedAttempt) :=
  (checkRetry env task failedAttempt).bind fun _ => (markRetrying env task failedAttempt _).bind
    fun _ => (taskHook hook _).bind fun _ => sleep awake _

theorem runAttempts (engine : WorkflowEngine) (all : ∀ kind, allowed kind) (task : Task)
    (attempt : ℕ) : Makes touched allowed (engine.runAttempts env touched task attempt) := by
  have hooked : ∀ call, Makes touched allowed (WorkflowEngine.taskHook call touched) :=
    taskHook (all .hook)
  induction attempt using runAttempts.induct task with
  | case1 attempt ih =>
      rw [WorkflowEngine.runAttempts]
      refine (transition _).bind fun _ => (startAttempt env task attempt).bind fun _ =>
        (hooked _).bind fun _ => (callTask env engine (all .call) attempt).bind fun result => ?_
      cases result with
      | ok _ =>
          exact (transition _).bind fun _ => (succeedAttempt env).bind fun _ => hooked _
      | error error =>
          refine (transition _).bind fun _ => (failAttempt env (all .error) error).bind fun _ => ?_
          by_cases remaining : attempt < task.maxAttempts
          · rw [dif_pos remaining]
            exact (scheduleRetry env (all .hook) (all .sleep) task attempt).bind fun _ =>
              ih remaining
          · rw [dif_neg remaining]
            exact (note rfl).bind fun _ => hooked _

end Makes

theorem Frame.skipExecution {touched : String} :
    Respects (Frame touched) (WorkflowEngine.skipExecution touched) := by
  have makes : Makes touched (fun _ => False) (WorkflowEngine.skipExecution touched) :=
    Makes.skipExecution
  exact of_makes makes

theorem Frame.makeAttempts {touched : String} (env : Env) (engine : WorkflowEngine) :
    Respects (Frame touched) (engine.makeAttempts env touched) := by
  have makes : Makes touched (fun _ => True) (engine.makeAttempts env touched) :=
    (Respects.ofExcept _).bind fun task => (Makes.recordOf _).bind fun _ =>
      Makes.runAttempts env engine (fun _ => trivial) task _
  exact of_makes makes

/-! ## Marked tasks -/

/-- A task that is marked keeps its view. -/
def KeepsMarked (taskId : String) (before after : RunState) : Prop :=
  before.stateOf taskId = .upstreamFailed → after.view taskId = before.view taskId

namespace KeepsMarked

instance : Std.Refl (KeepsMarked taskId) := ⟨fun _ _ => rfl⟩

instance : IsTrans RunState (KeepsMarked taskId) := by
  refine ⟨fun first second third earlier later marked => ?_⟩
  have same := earlier marked
  rw [← same]
  exact later (by rw [RunState.stateOf_eq, same]; exact marked)

variable {α : Type} {program : Exec α} {touched : String}

/-- A program that touches another task keeps it. -/
theorem of_frame (different : taskId ≠ touched) (frame : Respects (Frame touched) program) :
    Respects (KeepsMarked taskId) program :=
  frame.mono fun _ _ related _ => related.view taskId different

theorem of_views (same : ∀ state : RunState, (endState program state).view taskId =
    state.view taskId) : Respects (KeepsMarked taskId) program :=
  .of_endState fun state _ => same state

theorem record (other : String) : Respects (KeepsMarked taskId) (Exec.record other) :=
  of_views fun state => state.view_record other taskId

theorem stateOf (other : String) : Respects (KeepsMarked taskId) (Exec.stateOf other) :=
  of_views fun _ => rfl

theorem blockTask (env : Env) (failedTaskId dependent : String) :
    Respects (KeepsMarked taskId) (WorkflowEngine.blockTask env failedTaskId dependent) := by
  by_cases same : taskId = dependent
  · subst same
    refine .of_endState fun state marked => ?_
    obtain ⟨after, ran, view⟩ := blockTask_view env state taskId failedTaskId
    rw [endState_of_ok ran, view, if_neg]
    exact fun pending => absurd (pending.symm.trans marked) (by decide)
  · exact of_frame same (Frame.blockTask env failedTaskId)

theorem walkDownstream (env : Env) (failedTaskId : String) (toVisit : List String)
    (visited : Finset String) : Respects (KeepsMarked taskId)
      (engine.walkDownstream env failedTaskId toVisit visited) := by
  induction toVisit, visited using walkDownstream.induct engine with
  | case1 visited =>
      rw [WorkflowEngine.walkDownstream]
      exact .pure ()
  | case2 visited dependent rest seen ih =>
      rw [WorkflowEngine.walkDownstream, if_pos seen]
      exact ih
  | case3 visited dependent rest fresh ih =>
      rw [WorkflowEngine.walkDownstream, if_neg fresh]
      exact (blockTask env failedTaskId dependent).bind fun _ => ih

theorem scanUpstream (env : Env) (upstreamIds : List String) :
    Respects (KeepsMarked taskId) (engine.scanUpstream env upstreamIds) := by
  induction upstreamIds with
  | nil => exact .pure ()
  | cons upstreamId rest ih =>
      refine (record upstreamId).bind fun _ => (stateOf upstreamId).bind fun state =>
        .ite (fun _ => ?_) fun _ => ih
      exact walkDownstream env upstreamId _ ∅

theorem executeTask (env : Env) (other : String) :
    Respects (KeepsMarked taskId) (engine.executeTask env other) := by
  by_cases same : taskId = other
  · subst same
    refine .of_endState fun state marked => ?_
    have started : state.stateOf taskId ≠ .pending := fun pending =>
      absurd (pending.symm.trans marked) (by decide)
    obtain ⟨after, ran, views⟩ := executeTask_of_not_pending engine env started
    rw [endState_of_ok ran, views]
  · have skip : Respects (KeepsMarked taskId) (skipExecution other) :=
      of_frame same Frame.skipExecution
    refine (record other).bind fun _ => (stateOf other).bind fun _ =>
      .ite (fun _ => skip) fun _ => ?_
    refine (scanUpstream env _).bind fun _ => (record other).bind fun _ =>
      (stateOf other).bind fun _ => .ite (fun _ => skip) fun _ => ?_
    exact of_frame same (Frame.makeAttempts env engine)

theorem executeAll (env : Env) (order : List String) :
    Respects (KeepsMarked taskId) (engine.executeAll env order) := by
  induction order with
  | nil => exact .pure ()
  | cons other rest ih => exact (executeTask env other).bind fun _ => ih

end KeepsMarked

/-! ## The end of a run -/

namespace SameViews

theorem moveWorkflow (target : WorkflowState) : Respects SameViews (Exec.moveWorkflow target) := by
  refine Respects.get.bind fun state => Respects.bind (.modify fun _ taskId => ?_) fun _ => ?_
  · simp [Event.assignment?, Event.check?, Event.call?]
  · cases transitionWorkflow state.run.workflowState target with
    | ok _ => exact .modify fun _ taskId => RunState.view_assignWorkflow _ _ taskId
    | error error => exact .throw _

/-- The end of a run changes no record. -/
theorem finishRun (env : Env) : Respects SameViews (WorkflowEngine.finishRun env) := by
  refine Respects.get.bind fun state => ?_
  cases aggregateWorkflowState state.run.taskStates with
  | none => exact .throw _
  | some final =>
      refine (moveWorkflow final).bind fun _ => Respects.bind (fun _ taskId => rfl) fun _ =>
        Respects.bind (.modify fun _ taskId => rfl) fun _ =>
          Respects.bind (.modify fun _ taskId => ?_) fun _ =>
            Respects.get.bind fun _ => .modify fun _ taskId => ?_
      · simp [LogEntry.moveOf?, LogEntry.move?]
      · simp [Event.assignment?, Event.check?, Event.call?]

end SameViews

end EtlOrchestrator
