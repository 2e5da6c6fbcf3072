import EtlOrchestrator.Engine.Batches
import EtlOrchestrator.Engine.TaskInvariant

/-!
# The invariant of the machine

`Invariant` says where a run stands among its batches: the tasks of the earlier
batches have returned, those of the later ones have not started, and a job of the
current batch waits, is held by a worker or has ended. Every task satisfies its
own invariant at its program point, so the tasks of the earlier batches agree
with their outcomes. A job reads its upstreams, which all stand in earlier
batches, and blocks its dependents, whose outcome is blocked.

The invariant holds at the start of a run and is kept by every step
(`Invariant.step`), so it holds in every reachable state (`Invariant.steps`).
-/

set_option autoImplicit false

namespace EtlOrchestrator

open BlockingEvaluation SortedSet Relation WorkflowEngine

/-! ## What the invariant of a task says of its record -/

namespace AcceptedEngine

variable {engine : AcceptedEngine} {env : Env} {taskId : String} {view : TaskView} {pc : Pc}

/-- A task either waits or is not blocked. -/
theorem TaskOk.waiting_or_unblocked (ok : engine.TaskOk env taskId view pc) :
    engine.Waiting env taskId view ∨
      engine.outcome env taskId ≠ .blocked ∧ view.record.state ≠ .upstreamFailed := by
  have busy : ∀ {state : TaskState} {attempts calls : ℕ},
      engine.At env taskId view state attempts calls → state ≠ .upstreamFailed →
      view.record.state ≠ .upstreamFailed := fun at' different => at'.state ▸ different
  have settled : engine.Settles env taskId view → engine.Waiting env taskId view ∨
      engine.outcome env taskId ≠ .blocked ∧ view.record.state ≠ .upstreamFailed := by
    intro settles
    rw [Settles] at settles
    cases outcome : engine.outcome env taskId with
    | value attempt =>
        rw [outcome] at settles
        exact .inr ⟨by simp, busy settles (by decide)⟩
    | failed =>
        rw [outcome] at settles
        exact .inr ⟨by simp, busy settles (by decide)⟩
    | blocked =>
        rw [outcome] at settles
        exact .inl (.inr ⟨settles, outcome⟩)
  cases pc with
  | enter => exact .inl ok.2
  | firstCheck => exact .inl ok.2
  | skip => exact .inl (.inr ok.2)
  | scan rest => exact .inl ok.2.1
  | scanCheck upstreamId rest => exact .inl ok.2.1
  | walk failedTaskId pendingVisit visited =>
      obtain ⟨_, ⟨at', _⟩ | at', edge, noValue, _⟩ := ok
      · exact .inl (.inl at')
      · exact .inl (.inr ⟨at', outcome_of_ancestor noValue (.single edge)⟩)
  | refresh => exact .inl ok.2.1
  | secondCheck => exact .inl ok.2.1
  | define => exact .inl (.inl ok.2.1)
  | checkStart task attempt =>
      exact .inr ⟨ok.2.1.unblocked, busy ok.2.2 (by split <;> decide)⟩
  | start task attempt => exact .inr ⟨ok.2.1.unblocked, busy ok.2.2 (by split <;> decide)⟩
  | hookStart task attempt => exact .inr ⟨ok.2.1.unblocked, busy ok.2.2 (by decide)⟩
  | call task attempt => exact .inr ⟨ok.2.1.unblocked, busy ok.2.2 (by decide)⟩
  | checkFail task attempt error => exact .inr ⟨ok.2.1.unblocked, busy ok.2.2 (by decide)⟩
  | fail task attempt error => exact .inr ⟨ok.2.1.unblocked, busy ok.2.2 (by decide)⟩
  | checkRetry task attempt => exact .inr ⟨ok.2.1.unblocked, busy ok.2.2.2 (by decide)⟩
  | retry task attempt delay => exact .inr ⟨ok.2.1.unblocked, busy ok.2.2.2.2 (by decide)⟩
  | hookRetry task attempt delay => exact .inr ⟨ok.2.1.unblocked, busy ok.2.2.2 (by decide)⟩
  | sleep task attempt delay => exact .inr ⟨ok.2.1.unblocked, busy ok.2.2.2 (by decide)⟩
  | permanent attempt => exact settled ok.2.1
  | hookFailure => exact settled ok.2.1
  | checkSucceed attempt => exact .inr ⟨by rw [ok.2.1]; simp, busy ok.2.2 (by decide)⟩
  | succeed attempt => exact .inr ⟨by rw [ok.2.1]; simp, busy ok.2.2 (by decide)⟩
  | hookSuccess attempt => exact .inr ⟨by rw [ok.2.1]; simp, busy ok.2.2 (by decide)⟩
  | done => exact settled ok.2
  | raised error =>
      obtain ⟨_, _, task, attempt, failing, _, at' | at'⟩ := ok
      · exact .inr ⟨failing.unblocked, busy at' (by decide)⟩
      · exact .inr ⟨failing.unblocked, busy at' (by decide)⟩

/-- A task that is marked `upstream_failed` is blocked and was never attempted. -/
theorem TaskOk.of_upstreamFailed (ok : engine.TaskOk env taskId view pc)
    (state : view.record.state = .upstreamFailed) :
    engine.At env taskId view .upstreamFailed 0 0 ∧ engine.outcome env taskId = .blocked := by
  obtain (at' | blocked) | ⟨_, different⟩ := ok.waiting_or_unblocked
  · exact absurd (at'.state.symm.trans state) (by decide)
  · exact blocked
  · exact absurd state different

end AcceptedEngine

/-! ## The first state of a run -/

namespace WorkflowView

/-- The view of a workflow that went through a list of states. -/
def along (states : List WorkflowState) : WorkflowView where
  state := states.getLastD .pending
  assigned := states
  checked := transitions .pending states
  moved := transitions .pending states

end WorkflowView

/-- The view of a task of which nothing has happened. -/
def TaskView.fresh (taskId : String) : TaskView := ⟨{ taskId }, [], [], [], []⟩

/-- `run` begins with no record and the workflow running. -/
theorem WorkflowEngine.beginRun_view (engine : WorkflowEngine) (env : Env) : ∃ shared,
    (beginRun env).run (engine.created env) = .ok () shared ∧
      (∀ taskId, shared.view taskId = .fresh taskId) ∧ shared.run.records = ∅ ∧
      shared.workflowView = .along [.running] := by
  refine ⟨_, rfl, fun taskId => rfl, rfl, rfl⟩

/-! ## The invariant -/

/-- What holds of a reachable machine whose earlier batches are `past`. -/
structure Invariant (engine : AcceptedEngine) (env : Env) (past : List (List String))
    (machine : Machine) : Prop where
  position : ∃ batches, engine.batches = .ok batches ∧
    [] :: batches = past ++ machine.jobs :: machine.levels
  tasks : ∀ taskId, engine.TaskOk env taskId (machine.shared.view taskId) (machine.pcs taskId)
  returned : ∀ taskId ∈ past.flatten, machine.pcs taskId = .done
  untouched : ∀ taskId, taskId ∉ past.flatten → taskId ∉ machine.jobs →
    machine.pcs taskId = .enter
  waiting : ∀ taskId ∈ machine.queue, machine.pcs taskId = .enter
  submitted : ∀ taskId, taskId ∈ machine.queue ∨ taskId ∈ machine.active → taskId ∈ machine.jobs
  ended : ∀ taskId ∈ machine.jobs, taskId ∉ machine.queue → taskId ∉ machine.active →
    (machine.pcs taskId).ended = true
  distinct : (machine.queue ++ machine.active).Nodup
  width : machine.active.length ≤ engine.workers machine.jobs
  recorded : ∀ taskId ∈ machine.shared.run.records, taskId ∈ engine.workflow.tasks
  entered : ∀ taskId, machine.pcs taskId ≠ .enter → taskId ∈ machine.shared.run.records
  source : ∀ taskId, (machine.shared.view taskId).record.state = .upstreamFailed →
    ∃ ancestor, TransGen engine.workflow.Edge ancestor taskId ∧ ancestor ∈ past.flatten ∧
      engine.outcome env ancestor = .failed

namespace Invariant

variable {engine : AcceptedEngine} {env : Env} {past : List (List String)} {machine : Machine}

/-- The batches are a layering, also with an empty one in front. -/
theorem layering (invariant : Invariant engine env past machine) :
    IsLayering engine.workflow.Edge engine.workflow.tasks.keySet
      (past ++ machine.jobs :: machine.levels) := by
  obtain ⟨batches, computed, split⟩ := invariant.position
  obtain ⟨other, otherComputed, layering⟩ := batches_layering engine.valid
  rw [computed] at otherComputed
  cases otherComputed
  rw [← split]
  exact layering.nil_cons

/-- A job is a task of the workflow. -/
theorem known (invariant : Invariant engine env past machine) {taskId : String}
    (job : taskId ∈ machine.jobs) : taskId ∈ engine.workflow.tasks := by
  rw [← OrderedDict.mem_keySet, ← invariant.layering.mem_iff, List.flatten_append,
    List.flatten_cons]
  exact List.mem_append_right _ (List.mem_append_left _ job)

/-- The upstreams of a job stand in earlier batches. -/
theorem up_mem (invariant : Invariant engine env past machine) {up taskId : String}
    (job : taskId ∈ machine.jobs) (edge : engine.workflow.Edge up taskId) :
    up ∈ past.flatten :=
  invariant.layering.respects past machine.jobs machine.levels rfl taskId job up
    (OrderedDict.mem_keySet.mpr (engine.valid.closed.upstreams taskId up edge)) edge

/-- So do the ancestors of the tasks there. -/
theorem ancestor_mem (invariant : Invariant engine env past machine) {ancestor taskId : String}
    (above : TransGen engine.workflow.Edge ancestor taskId) (member : taskId ∈ past.flatten) :
    ancestor ∈ past.flatten :=
  invariant.layering.ancestor_mem
    (fun up node edge => OrderedDict.mem_keySet.mpr (engine.valid.closed.upstreams node up edge))
    rfl above member

/-- The tasks of earlier batches agree with their outcomes. -/
theorem settles (invariant : Invariant engine env past machine) {taskId : String}
    (member : taskId ∈ past.flatten) :
    engine.Settles env taskId (machine.shared.view taskId) := by
  have ok := invariant.tasks taskId
  rw [invariant.returned taskId member] at ok
  exact ok.2

/-- A blocked task in or before the current batch has a failed ancestor that has
returned. -/
theorem source_of_up (invariant : Invariant engine env past machine) {up taskId : String}
    (member : up ∈ past.flatten) (noValue : ¬ (engine.outcome env up).HasValue)
    (below : TransGen engine.workflow.Edge up taskId) :
    ∃ ancestor, TransGen engine.workflow.Edge ancestor taskId ∧ ancestor ∈ past.flatten ∧
      engine.outcome env ancestor = .failed := by
  cases outcome : engine.outcome env up with
  | value attempt =>
      rw [outcome] at noValue
      exact absurd (hasValue_value attempt) noValue
  | failed => exact ⟨up, below, member, outcome⟩
  | blocked =>
      obtain ⟨ancestor, above, failed⟩ := AcceptedEngine.outcome_eq_blocked_iff.mp outcome
      exact ⟨ancestor, above.trans below, invariant.ancestor_mem above member, failed⟩

/-! ## Steps of threads -/

/-- A walk has blocked a pending dependent of a failed upstream of its task. -/
def BlockedBy (engine : AcceptedEngine) (env : Env) (taskId other : String)
    (before after : TaskView) : Prop :=
  ∃ failedTaskId now, engine.workflow.Edge failedTaskId taskId ∧
    ¬ (engine.outcome env failedTaskId).HasValue ∧
    TransGen engine.workflow.Edge failedTaskId other ∧ before.record.state = .pending ∧
    after = before.blocked failedTaskId now

/-- What a step of a thread shows of the other tasks: nothing, or a block. -/
theorem advance_other {taskId other : String} {state : RunState} {pc : Pc}
    (ok : engine.TaskOk env taskId (state.view taskId) pc) (different : other ≠ taskId) :
    (engine.advance env taskId state pc).1.view other = state.view other ∨
      BlockedBy engine env taskId other (state.view other)
        ((engine.advance env taskId state pc).1.view other) := by
  rcases engine.advance_other env taskId state pc (.inl different) with
    same | ⟨failedTaskId, rest, visited, rfl, _, pending, view⟩
  · exact .inl same
  · obtain ⟨_, _, edge, noValue, below, _⟩ := ok
    exact .inr ⟨failedTaskId, _, edge, noValue, below other List.mem_cons_self, pending, view⟩

/-- The task that a step touches is a task of the workflow. -/
theorem touched_known {taskId : String} {view : TaskView} {pc : Pc}
    (ok : engine.TaskOk env taskId view pc) (known : taskId ∈ engine.workflow.tasks) :
    pc.touched taskId ∈ engine.workflow.tasks := by
  have closed := engine.valid.closed
  cases pc with
  | walk failedTaskId pendingVisit visited =>
      cases pendingVisit with
      | nil => exact known
      | cons dependent rest =>
          obtain ⟨up, _, edge⟩ :=
            TransGen.tail'_iff.mp (ok.2.2.2.2.1 dependent List.mem_cons_self)
          exact closed.target edge
  | scan rest =>
      cases rest with
      | nil => exact known
      | cons upstreamId rest =>
          exact closed.upstreams taskId upstreamId (ok.2.2.1 upstreamId List.mem_cons_self)
  | _ => exact known

/-- The ancestors of a job stand in earlier batches. -/
theorem job_ancestor_mem (invariant : Invariant engine env past machine)
    {ancestor taskId : String} (job : taskId ∈ machine.jobs)
    (above : TransGen engine.workflow.Edge ancestor taskId) : ancestor ∈ past.flatten := by
  obtain ⟨up, toUp, edge⟩ := TransGen.tail'_iff.mp above
  have upMember := invariant.up_mem job edge
  rcases reflTransGen_iff_eq_or_transGen.mp toUp with rfl | toUp
  · exact upMember
  · exact invariant.ancestor_mem toUp upMember

/-- After its step a task has a record. -/
theorem advance_recorded {taskId : String} {state : RunState} {pc : Pc}
    (recorded : pc ≠ .enter → taskId ∈ state.run.records) :
    taskId ∈ (engine.advance env taskId state pc).1.run.records := by
  by_cases entering : pc = .enter
  · subst entering
    have ran : (engine.act env taskId .enter).run state =
        .ok .firstCheck (state.record taskId) := rfl
    rw [advance_of_ok ran]
    simp [RunState.record]
  · exact (engine.advance_frame env taskId state pc).kept taskId (recorded entering)

/-- A step of a worker keeps the invariants of all tasks. -/
theorem work_tasks (invariant : Invariant engine env past machine) {taskId : String}
    (held : taskId ∈ machine.active) (unfinished : (machine.pcs taskId).ended = false)
    (other : String) : engine.TaskOk env other ((engine.work env machine taskId).shared.view other)
      ((engine.work env machine taskId).pcs other) := by
  have job := invariant.submitted taskId (.inr held)
  have ok := invariant.tasks taskId
  by_cases same : other = taskId
  · subst same
    have next : engine.NextOk env other machine.shared (machine.pcs other) :=
      AcceptedEngine.act_ok unfinished ok (invariant.known job) fun up edge =>
        invariant.settles (invariant.up_mem job edge)
    rw [work_pcs_self]
    exact next
  · rw [work_pcs_of_ne same]
    rcases advance_other ok same with
      sameView | ⟨failedTaskId, now, _, noValue, below, pending, blocked⟩
    · exact sameView.symm ▸ invariant.tasks other
    · have blockedOk := (invariant.tasks other).blocked pending
        (AcceptedEngine.outcome_of_ancestor noValue below) failedTaskId now
      exact blocked.symm ▸ blockedOk

/-- A step of a worker keeps the invariant. -/
theorem work (invariant : Invariant engine env past machine) {taskId : String}
    (held : taskId ∈ machine.active) (unfinished : (machine.pcs taskId).ended = false) :
    Invariant engine env past (engine.work env machine taskId) := by
  have job := invariant.submitted taskId (.inr held)
  have known := invariant.known job
  have ok := invariant.tasks taskId
  have frame := engine.advance_frame env taskId machine.shared (machine.pcs taskId)
  have tasks := invariant.work_tasks held unfinished
  exact
    { position := invariant.position
      tasks := tasks
      returned := by
        intro other member
        have done := invariant.returned other member
        have different : other ≠ taskId := by
          rintro rfl
          rw [done] at unfinished
          cases unfinished
        rw [work_pcs_of_ne different, done]
      untouched := by
        intro other notPast notJob
        have different : other ≠ taskId := fun same => notJob (same ▸ job)
        rw [work_pcs_of_ne different, invariant.untouched other notPast notJob]
      waiting := by
        intro other inQueue
        have different : other ≠ taskId := fun same =>
          List.disjoint_of_nodup_append invariant.distinct inQueue (same ▸ held)
        rw [work_pcs_of_ne different, invariant.waiting other inQueue]
      submitted := invariant.submitted
      ended := by
        intro other otherJob notQueued notHeld
        have different : other ≠ taskId := fun same => notHeld (same ▸ held)
        rw [work_pcs_of_ne different]
        exact invariant.ended other otherJob notQueued notHeld
      distinct := invariant.distinct
      width := invariant.width
      recorded := by
        intro other member
        rcases frame.recorded other member with rfl | old
        · exact touched_known ok known
        · exact invariant.recorded other old
      entered := by
        intro other started
        by_cases same : other = taskId
        · subst same
          exact advance_recorded (invariant.entered other)
        · rw [work_pcs_of_ne same] at started
          exact frame.kept other (invariant.entered other started)
      source := by
        intro other state
        by_cases same : other = taskId
        · subst same
          have blocked := ((tasks other).of_upstreamFailed state).2
          obtain ⟨ancestor, above, failed⟩ := AcceptedEngine.outcome_eq_blocked_iff.mp blocked
          exact ⟨ancestor, above, invariant.job_ancestor_mem job above, failed⟩
        · rcases advance_other ok same with sameView | ⟨_, _, edge, noValue, below, _⟩
          · exact invariant.source other (by rw [← sameView]; exact state)
          · exact invariant.source_of_up (invariant.up_mem job edge) noValue below }

/-- The tasks of the batches to come have not entered their execution. -/
theorem untouched_of_toCome (invariant : Invariant engine env past machine) {taskId : String}
    (toCome : taskId ∈ machine.levels.flatten) : machine.pcs taskId = .enter := by
  have nodup := invariant.layering.nodup
  rw [List.flatten_append, List.flatten_cons] at nodup
  obtain ⟨_, laterNodup, apart⟩ := List.nodup_append.mp nodup
  obtain ⟨_, _, jobsApart⟩ := List.nodup_append.mp laterNodup
  exact invariant.untouched taskId
    (fun old => apart taskId old taskId (List.mem_append_right _ toCome) rfl)
    (fun job => jobsApart taskId job taskId toCome rfl)

/-! ## Steps of the pool and of the main thread -/

theorem take (invariant : Invariant engine env past machine) {taskId : String}
    {rest : List String} (waiting : machine.queue = taskId :: rest)
    (free : machine.active.length < engine.workers machine.jobs) :
    Invariant engine env past
      { machine with queue := rest, active := taskId :: machine.active } := by
  have distinct := invariant.distinct
  rw [waiting] at distinct
  exact
    { invariant with
      waiting := fun other member =>
        invariant.waiting other (waiting ▸ List.mem_cons_of_mem _ member)
      submitted := by
        rintro other (inRest | inActive)
        · exact invariant.submitted other (.inl (waiting ▸ List.mem_cons_of_mem _ inRest))
        · rcases List.mem_cons.mp inActive with rfl | old
          · exact invariant.submitted other (.inl (waiting ▸ List.mem_cons_self))
          · exact invariant.submitted other (.inr old)
      ended := by
        intro other job notQueued notHeld
        simp only [List.mem_cons, not_or] at notHeld
        refine invariant.ended other job ?_ notHeld.2
        rw [waiting]
        simp only [List.mem_cons, not_or]
        exact ⟨notHeld.1, notQueued⟩
      distinct := List.perm_middle.nodup_iff.mpr distinct
      width := free }

theorem leave (invariant : Invariant engine env past machine) {taskId : String}
    (finished : (machine.pcs taskId).ended = true) :
    Invariant engine env past { machine with active := machine.active.erase taskId } :=
  { invariant with
    submitted := fun other member =>
      invariant.submitted other (member.imp_right List.mem_of_mem_erase)
    ended := by
      intro other job notQueued notHeld
      by_cases same : other = taskId
      · exact same ▸ finished
      · exact invariant.ended other job notQueued fun held =>
          notHeld ((List.mem_erase_of_ne same).mpr held)
    distinct := invariant.distinct.sublist (List.Sublist.append_left List.erase_sublist _)
    width := (List.length_erase_le ..).trans invariant.width }

/-- An ended thread without an error has returned. -/
theorem eq_done_of_ended {pc : Pc} (ended : pc.ended = true) (noError : pc.error? = none) :
    pc = .done := by
  cases pc with
  | done => rfl
  | raised error => cases noError
  | _ => cases ended

theorem submit (invariant : Invariant engine env past machine) {batch : List String}
    {later : List (List String)} (drained : machine.queue = []) (idle : machine.active = [])
    (toCome : machine.levels = batch :: later)
    (returned : ∀ taskId ∈ machine.jobs, (machine.pcs taskId).error? = none) :
    Invariant engine env (past ++ [machine.jobs])
      { machine with levels := later, jobs := batch, queue := batch } := by
  have layering := invariant.layering
  have nodup := layering.nodup
  rw [toCome, List.flatten_append, List.flatten_cons, List.flatten_cons] at nodup
  have fromPast : ∀ taskId, taskId ∉ (past ++ [machine.jobs]).flatten →
      taskId ∉ past.flatten ∧ taskId ∉ machine.jobs := by
    intro taskId notMember
    simpa [not_or] using notMember
  have untouched : ∀ taskId, taskId ∉ (past ++ [machine.jobs]).flatten →
      machine.pcs taskId = .enter := fun taskId notMember =>
    invariant.untouched taskId (fromPast taskId notMember).1 (fromPast taskId notMember).2
  exact
    { position := by
        obtain ⟨batches, computed, split⟩ := invariant.position
        exact ⟨batches, computed, by rw [split, toCome]; simp⟩
      tasks := invariant.tasks
      returned := by
        intro taskId member
        simp only [List.flatten_append, List.flatten_cons, List.flatten_nil, List.append_nil,
          List.mem_append] at member
        rcases member with old | job
        · exact invariant.returned taskId old
        · have ended := invariant.ended taskId job (by simp [drained]) (by simp [idle])
          exact eq_done_of_ended ended (returned taskId job)
      untouched := fun taskId notMember _ => untouched taskId notMember
      waiting := fun taskId member =>
        invariant.untouched_of_toCome (by rw [toCome]; exact List.mem_append_left _ member)
      submitted := by
        rintro taskId (inQueue | inActive)
        · exact inQueue
        · rw [idle] at inActive
          cases inActive
      ended := fun taskId job notQueued _ => absurd job notQueued
      distinct := by
        have batchNodup := ((List.nodup_append.mp nodup).2.1)
        simp only [idle, List.append_nil]
        exact ((List.nodup_append.mp ((List.nodup_append.mp batchNodup).2.1)).1)
      width := by simp [idle]
      recorded := invariant.recorded
      entered := invariant.entered
      source := by
        intro taskId state
        obtain ⟨ancestor, above, member, failed⟩ := invariant.source taskId state
        exact ⟨ancestor, above, by rw [List.flatten_append]; exact List.mem_append_left _ member,
          failed⟩ }

end Invariant

end EtlOrchestrator
