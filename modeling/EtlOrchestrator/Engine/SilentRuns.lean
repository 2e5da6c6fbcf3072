import EtlOrchestrator.Engine.Blocking
import EtlOrchestrator.Engine.Sequential
import EtlOrchestrator.Engine.Stamps

/-!
# Runs without calls

A run on a graph that is not valid goes its way all the same. A task without a callable fails, a
task below a failed one is blocked, and a key of the dependencies that is no task raises. So no
callable is called when each task that has one comes behind an upstream of its own, or behind such a
key that no emitted task is above of (`Silent.calls`).
-/

set_option autoImplicit false

namespace EtlOrchestrator

open Relation SortedSet WorkflowEngine

/-! ## What a step does to the state of its task -/

/-- The state that a step assigns to the task of its thread. -/
def Pc.target? : Pc → Option TaskState
  | start _ _ => some .running
  | fail _ _ _ => some .failed
  | retry _ _ _ => some .retrying
  | succeed _ => some .success
  | _ => none

/-- The points from the start of an attempt to its failure and the wait for the next one. -/
def Pc.attempts : Pc → Bool
  | checkStart _ _ | start _ _ | hookStart _ _ | call _ _ | checkFail _ _ _ | fail _ _ _
  | checkRetry _ _ | retry _ _ _ | hookRetry _ _ _ | sleep _ _ _ => true
  | _ => false

namespace WorkflowEngine

variable (engine : WorkflowEngine) (env : Env) (taskId : String) (state : RunState)

/-- A step that is no walk assigns its own state, if any. -/
theorem advance_stateOf {pc : Pc}
    (apart : ∀ failedTaskId toVisit visited, pc ≠ .walk failedTaskId toVisit visited) :
    (engine.advance env taskId state pc).1.stateOf taskId =
      pc.target?.getD (state.stateOf taskId) := by
  by_cases quiet : pc.assigns = false
  · have same := advance_of_respects (engine.act_sameStates env taskId quiet) state taskId
    have none : pc.target? = none := by
      cases pc with
      | start | fail | retry | succeed => cases quiet
      | _ => rfl
    rw [none]
    exact congrArg TaskRunRecord.state same.1
  · cases pc with
    | walk failedTaskId toVisit visited => exact absurd rfl (apart failedTaskId toVisit visited)
    | start task attempt =>
        obtain ⟨after, ran, view⟩ := startAttempt_view env state taskId task attempt
        have acted : (engine.act env taskId (.start task attempt)).run state =
            .ok (.hookStart task attempt) after := Exec.run_then ran _
        rw [advance_of_ok acted, RunState.stateOf_eq, view]
        rfl
    | fail task attempt error =>
        obtain ⟨after, ran, view⟩ := failAttempt_view env state taskId error
        have acted : (engine.act env taskId (.fail task attempt error)).run state = .ok
            (if attempt < task.maxAttempts then .checkRetry task attempt else .permanent attempt)
            after := Exec.run_then ran _
        rw [advance_of_ok acted, RunState.stateOf_eq, view]
        rfl
    | retry task attempt delay =>
        have marked := markRetrying_view env state taskId task attempt delay
        split at marked
        · obtain ⟨after, ran, view⟩ := marked
          have acted : (engine.act env taskId (.retry task attempt delay)).run state =
              .ok (.hookRetry task attempt delay) after := Exec.run_then ran _
          rw [advance_of_ok acted, RunState.stateOf_eq, view]
          rfl
        · obtain ⟨after, ran, view⟩ := marked
          have acted : (engine.act env taskId (.retry task attempt delay)).run state =
              .error _ after := Exec.run_raises ran _
          rw [advance_of_error acted, RunState.stateOf_eq, view]
          rfl
    | succeed attempt =>
        obtain ⟨after, ran, view⟩ := succeedAttempt_view env state taskId
        have acted : (engine.act env taskId (.succeed attempt)).run state =
            .ok (.hookSuccess attempt) after := Exec.run_then ran _
        rw [advance_of_ok acted, RunState.stateOf_eq, view]
        rfl
    | _ => exact absurd rfl quiet

/-- A step of another thread, or of a walk, blocks a task or leaves its state. -/
theorem advance_stateOf_other (pc : Pc) {other : String} (apart : other ≠ taskId ∨
      ∃ failedTaskId toVisit visited, pc = .walk failedTaskId toVisit visited) :
    (engine.advance env taskId state pc).1.stateOf other = state.stateOf other ∨
      state.stateOf other = .pending ∧
        (engine.advance env taskId state pc).1.stateOf other = .upstreamFailed ∧
        ∃ failedTaskId rest visited, pc = .walk failedTaskId (other :: rest) visited := by
  rcases engine.advance_other env taskId state pc apart with
    same | ⟨failedTaskId, rest, visited, walks, _, pending, view⟩
  · exact .inl (congrArg (fun view => view.record.state) same)
  · refine .inr ⟨pending, ?_, failedTaskId, rest, visited, walks⟩
    rw [RunState.stateOf_eq, view]
    rfl

theorem advance_firstCheck : engine.advance env taskId state .firstCheck =
    (state, if state.stateOf taskId = .pending then
      .scan (env.iterate taskId (engine.workflow.upstream taskId)) else .skip) := by
  apply advance_of_ok
  by_cases pending : state.stateOf taskId = .pending <;> simp [act, pending]

theorem advance_secondCheck : engine.advance env taskId state .secondCheck =
    (state, if state.stateOf taskId = .pending then .define else .skip) := by
  apply advance_of_ok
  by_cases pending : state.stateOf taskId = .pending <;> simp [act, pending]

theorem advance_scanCheck (upstreamId : String) (rest : List String) :
    engine.advance env taskId state (.scanCheck upstreamId rest) =
      (state, if state.hasFailed upstreamId then
        .walk upstreamId (sorted (engine.workflow.downstream upstreamId)) ∅ else .scan rest) := by
  apply advance_of_ok
  by_cases failed : state.stateOf upstreamId = .failed ∨ state.stateOf upstreamId = .upstreamFailed
  · simp [act, failed, RunState.hasFailed]
  · simp [act, failed, RunState.hasFailed]

end WorkflowEngine

/-! ## Threads without a callable -/

/-- What holds of the state of a task at a point of its thread when it has no callable to call. -/
def Pc.Failing (known : Prop) (state : TaskState) : Pc → Prop
  | enter | firstCheck | scan _ | scanCheck _ _ | walk _ _ _ | refresh | secondCheck | define =>
      state = .pending ∨ state = .upstreamFailed
  | skip => state = .upstreamFailed
  | checkStart _ _ | start _ _ =>
      known ∧ (state = .pending ∨ state = .upstreamFailed ∨ state = .retrying)
  | hookStart _ _ | call _ _ | checkFail _ _ _ | fail _ _ _ => known ∧ state = .running
  | checkRetry _ _ | retry _ _ _ | permanent _ | hookFailure => known ∧ state = .failed
  | hookRetry _ _ _ | sleep _ _ _ => known ∧ state = .retrying
  | checkSucceed _ | succeed _ | hookSuccess _ => False
  | done => state = .upstreamFailed ∨ known ∧ state = .failed
  | raised _ => True

namespace Pc.Failing

variable {known : Prop} {state : TaskState} {pc : Pc}

/-- A block keeps it. -/
theorem blocked (failing : pc.Failing known .pending) : pc.Failing known .upstreamFailed := by
  cases pc <;> simp_all [Failing]

/-- An attempt is made for a task. -/
theorem known_of_attempts (failing : pc.Failing known state) (attempts : pc.attempts = true) :
    known := by
  cases pc with
  | checkStart | start | hookStart | call | checkFail | fail | checkRetry | retry | hookRetry
  | sleep => exact failing.1
  | _ => cases attempts

end Pc.Failing

namespace WorkflowEngine

variable {engine : WorkflowEngine} {env : Env} {taskId : String} {state : RunState} {pc : Pc}

/-- **A step of a thread without a callable keeps the thread failing.** -/
theorem advance_failing
    (failing : pc.Failing (taskId ∈ engine.workflow.tasks) (state.stateOf taskId))
    (uncallable : pc.attempts = true → taskId ∉ engine.tasks) :
    (engine.advance env taskId state pc).2.Failing (taskId ∈ engine.workflow.tasks)
      ((engine.advance env taskId state pc).1.stateOf taskId) := by
  by_cases walks : ∃ failedTaskId toVisit visited, pc = .walk failedTaskId toVisit visited
  · have kept : (engine.advance env taskId state pc).1.stateOf taskId = .pending ∨
        (engine.advance env taskId state pc).1.stateOf taskId = .upstreamFailed := by
      obtain ⟨failedTaskId, toVisit, visited, rfl⟩ := walks
      rcases engine.advance_stateOf_other env taskId state _ (.inr ⟨_, _, _, rfl⟩) with
        same | ⟨_, blocked, _⟩
      · rw [same]
        exact failing
      · exact .inr blocked
    obtain ⟨failedTaskId, toVisit, visited, rfl⟩ := walks
    rcases engine.advance_leads env taskId state _ with leads | ⟨error, raised⟩
    · generalize (engine.advance env taskId state (.walk failedTaskId toVisit visited)).2 = next
        at leads ⊢
      cases leads <;> exact kept
    · rw [raised]
      trivial
  · have after := engine.advance_stateOf env taskId state fun failedTaskId toVisit visited same =>
      walks ⟨failedTaskId, toVisit, visited, same⟩
    rw [after]
    rcases engine.advance_leads env taskId state pc with leads | ⟨error, raised⟩
    · cases pc with
      | firstCheck =>
          rw [advance_firstCheck]
          split
          · exact failing
          · exact failing.resolve_left ‹_›
      | secondCheck =>
          rw [advance_secondCheck]
          split
          · exact failing
          · exact failing.resolve_left ‹_›
      | define =>
          cases found : engine.workflow.tasks.get? taskId with
          | some task =>
              have known := OrderedDict.mem_of_get? found
              rw [advance, act, taskDef, found]
              exact ⟨known, failing.imp_right .inl⟩
          | none =>
              rw [advance, act, taskDef, found]
              trivial
      | call task attempt =>
          have missing := OrderedDict.get?_eq_none_iff.mpr (uncallable rfl)
          rw [advance, act, callTask, missing]
          exact failing
      | walk failedTaskId toVisit visited => exact absurd ⟨_, _, _, rfl⟩ walks
      | _ =>
          generalize (engine.advance env taskId state _).2 = next at leads ⊢
          cases leads <;> simp_all [Pc.Failing, Pc.target?]
    · rw [raised]
      trivial

end WorkflowEngine

/-! ## Threads behind a failed upstream -/

/-- A thread that is going to find one of the tasks in `earlier` among its upstreams, and then
to block its own task: the walk comes to it, or has done so. -/
def Pc.Heads (earlier : List String) (taskId : String) (state : TaskState) : Pc → Prop
  | enter | firstCheck | skip | done | raised _ => True
  | scan rest => ∃ up ∈ rest, up ∈ earlier
  | scanCheck upstreamId rest => ∃ up ∈ upstreamId :: rest, up ∈ earlier
  | walk _ toVisit visited => state = .upstreamFailed ∨ taskId ∈ toVisit ∧ taskId ∉ visited
  | refresh | secondCheck => state = .upstreamFailed
  | _ => False

/-- Some emitted task is above a task. -/
def Workflow.Below (workflow : Workflow) (emitted : List String) (taskId : String) : Prop :=
  ∃ up ∈ emitted, TransGen workflow.Edge up taskId

/-- A thread scans upstreams of its task, and walks below emitted tasks. -/
def Pc.StaysBelow (workflow : Workflow) (emitted : List String) (taskId : String) : Pc → Prop
  | scan rest => ∀ up ∈ rest, workflow.Edge up taskId
  | scanCheck upstreamId rest => ∀ up ∈ upstreamId :: rest, workflow.Edge up taskId
  | walk _ toVisit _ => ∀ dependent ∈ toVisit, workflow.Below emitted dependent
  | _ => True

theorem Pc.Heads.not_attempts {earlier : List String} {taskId : String} {state : TaskState}
    {pc : Pc} (heads : pc.Heads earlier taskId state) : pc.attempts = false := by
  cases pc with
  | checkStart | start | hookStart | call | checkFail | fail | checkRetry | retry | hookRetry
  | sleep => exact heads.elim
  | _ => rfl

/-- A block of the task is what the thread is waiting for. -/
theorem Pc.Heads.blocked {earlier : List String} {taskId : String} {pc : Pc}
    (heads : pc.Heads earlier taskId .pending) : pc.Heads earlier taskId .upstreamFailed := by
  cases pc with
  | walk => exact .inl rfl
  | refresh | secondCheck => rfl
  | _ => exact heads

namespace WorkflowEngine

variable {engine : WorkflowEngine} {env : Env} {taskId : String} {state : RunState} {pc : Pc}
  {emitted earlier : List String}

/-- What comes behind a failed task is below an emitted one. -/
theorem below_of_edge
    (placed : ∀ other, state.hasFailed other →
      other ∈ emitted ∨ engine.workflow.Below emitted other)
    {up dependent : String} (failed : state.hasFailed up)
    (edge : engine.workflow.Edge up dependent) : engine.workflow.Below emitted dependent := by
  rcases placed up failed with member | ⟨above, member, path⟩
  · exact ⟨up, member, .single edge⟩
  · exact ⟨above, member, path.tail edge⟩

/-- **A step keeps the scan at the upstreams and the walk below emitted tasks.** -/
theorem advance_staysBelow
    (placed : ∀ other, state.hasFailed other →
      other ∈ emitted ∨ engine.workflow.Below emitted other)
    (below : pc.StaysBelow engine.workflow emitted taskId) :
    (engine.advance env taskId state pc).2.StaysBelow engine.workflow emitted taskId := by
  rcases engine.advance_leads env taskId state pc with leads | ⟨error, raised⟩
  · cases pc with
    | firstCheck =>
        rw [advance_firstCheck]
        split
        · exact fun up member => (env.mem_iterate _ _ _).mp member
        · trivial
    | scanCheck upstreamId rest =>
        rw [advance_scanCheck]
        split
        · exact fun dependent member => below_of_edge placed ‹_›
            (Workflow.mem_downstream.mp (mem_sorted.mp member))
        · exact (List.forall_mem_cons.mp below).2
    | scan rest =>
        generalize (engine.advance env taskId state (.scan rest)).2 = next at leads ⊢
        cases leads with
        | scanEnd => trivial
        | scanNext => exact below
    | walk failedTaskId toVisit visited =>
        generalize (engine.advance env taskId state (.walk failedTaskId toVisit visited)).2 = next
          at leads ⊢
        cases leads with
        | walkEnd => trivial
        | walkSkip => exact (List.forall_mem_cons.mp below).2
        | walkVisit failedTaskId rest fresh =>
            obtain ⟨⟨above, member, path⟩, others⟩ := List.forall_mem_cons.mp below
            refine List.forall_mem_append.mpr ⟨others, fun dependent next => ?_⟩
            exact ⟨above, member, path.tail (Workflow.mem_downstream.mp (mem_sorted.mp next))⟩
    | _ =>
        generalize (engine.advance env taskId state _).2 = next at leads ⊢
        cases leads <;> trivial
  · rw [raised]
    trivial

/-- A step blocks only what is below emitted tasks. -/
theorem advance_marked (below : pc.StaysBelow engine.workflow emitted taskId)
    (marked : ∀ other, state.stateOf other = .upstreamFailed → engine.workflow.Below emitted other)
    (other : String)
    (blocked : (engine.advance env taskId state pc).1.stateOf other = .upstreamFailed) :
    engine.workflow.Below emitted other := by
  by_cases apart : other ≠ taskId ∨ ∃ failedTaskId toVisit visited,
      pc = .walk failedTaskId toVisit visited
  · rcases engine.advance_stateOf_other env taskId state pc apart with
      same | ⟨_, _, failedTaskId, rest, visited, rfl⟩
    · exact marked other (same.symm.trans blocked)
    · exact below other List.mem_cons_self
  · rw [not_or, not_not] at apart
    obtain ⟨rfl, notWalk⟩ := apart
    rw [engine.advance_stateOf env other state fun failedTaskId toVisit visited same =>
      notWalk ⟨failedTaskId, toVisit, visited, same⟩] at blocked
    cases pc with
    | start | fail | retry | succeed => cases blocked
    | _ => exact marked other blocked

/-- **A step of a thread behind a failed upstream keeps it from its attempts.** -/
theorem advance_heads (settled : ∀ up ∈ earlier, state.hasFailed up)
    (behind : ∃ up ∈ earlier, engine.workflow.Edge up taskId)
    (below : pc.StaysBelow engine.workflow emitted taskId)
    (failing : pc.Failing (taskId ∈ engine.workflow.tasks) (state.stateOf taskId))
    (heads : pc.Heads earlier taskId (state.stateOf taskId)) :
    (engine.advance env taskId state pc).2.Heads earlier taskId
      ((engine.advance env taskId state pc).1.stateOf taskId) := by
  cases pc with
  | firstCheck =>
      rw [advance_firstCheck]
      split
      · obtain ⟨up, member, edge⟩ := behind
        exact ⟨up, (env.mem_iterate _ _ _).mpr edge, member⟩
      · trivial
  | secondCheck =>
      rw [advance_secondCheck, if_neg]
      · trivial
      · exact fun pending => absurd (pending.symm.trans heads) (by decide)
  | scan rest =>
      obtain ⟨up, member, isEarlier⟩ := heads
      cases rest with
      | nil => cases member
      | cons upstreamId rest => exact ⟨up, member, isEarlier⟩
  | scanCheck upstreamId rest =>
      obtain ⟨up, member, isEarlier⟩ := heads
      rw [advance_scanCheck]
      split
      · refine .inr ⟨mem_sorted.mpr (Workflow.mem_downstream.mpr ?_), Finset.notMem_empty _⟩
        exact below upstreamId List.mem_cons_self
      · rcases List.mem_cons.mp member with rfl | later
        · exact absurd (settled up isEarlier) ‹_›
        · exact ⟨up, later, isEarlier⟩
  | walk failedTaskId toVisit visited =>
      cases toVisit with
      | nil => exact heads.resolve_right fun toCome => List.not_mem_nil toCome.1
      | cons dependent rest =>
          by_cases seen : dependent ∈ visited
          · rw [engine.advance_skip env taskId state failedTaskId dependent rest seen]
            refine heads.imp_right fun toCome => ⟨?_, toCome.2⟩
            rcases List.mem_cons.mp toCome.1 with rfl | later
            · exact absurd seen toCome.2
            · exact later
          · obtain ⟨after, same, others, view⟩ :=
              engine.advance_visit env taskId state failedTaskId dependent rest seen
            rw [same]
            dsimp only
            by_cases own : taskId = dependent
            · subst own
              left
              rw [RunState.stateOf_eq, view]
              rcases failing with pending | marked
              · rw [if_pos (show (state.view taskId).record.state = .pending from pending)]
                rfl
              · have notPending : ¬ (state.view taskId).record.state = .pending := fun pending =>
                  absurd (pending.symm.trans marked) (by decide)
                rwa [if_neg notPending]
            · rw [RunState.stateOf_eq, others taskId own]
              refine heads.imp_right fun toCome => ⟨?_, ?_⟩
              · exact List.mem_append_left _ ((List.mem_cons.mp toCome.1).resolve_left own)
              · rw [Finset.mem_insert, not_or]
                exact ⟨own, toCome.2⟩
  | refresh =>
      have marked : (state.record taskId).stateOf taskId = .upstreamFailed := by
        rwa [RunState.stateOf_eq, RunState.view_record]
      exact marked
  | enter | skip | done | raised =>
      rcases engine.advance_leads env taskId state _ with leads | ⟨error, raised⟩
      · generalize (engine.advance env taskId state _).2 = next at leads ⊢
        cases leads
        trivial
      · rw [raised]
        trivial
  | _ => exact heads.elim

end WorkflowEngine

/-! ## Steps without calls -/

namespace WorkflowEngine

variable {engine : WorkflowEngine} {env : Env} {taskId : String}

/-- A step calls no callable unless its task has one. -/
theorem advance_calls_of_uncallable {state : RunState} {pc : Pc}
    (uncallable : pc.attempts = true → taskId ∉ engine.tasks) :
    (engine.advance env taskId state pc).1.calls = state.calls := by
  by_cases call : pc.Allows .call
  · cases pc with
    | call task attempt =>
        have missing := OrderedDict.get?_eq_none_iff.mpr (uncallable rfl)
        rw [advance, act, callTask, missing]
        rfl
    | _ => exact call.elim
  · have same : Respects (SameTrace Event.call?) (engine.act env taskId pc) :=
      (engine.act_makes env taskId pc).of_closure fun _ _ =>
        SameTrace.of_change Event.call?_of_kind call
    exact advance_of_respects same state

/-- The end of a run calls no callable. -/
theorem finish_calls (env : Env) (machine : Machine) :
    (finish env machine).shared.calls = machine.shared.calls := by
  have none : ∀ before after, AddsOfWorkflow before after → after.calls = before.calls := by
    rintro before after ⟨own, added, ofWorkflow⟩
    have noCall : own.filterMap Event.call? = [] := by
      refine RunState.filterMap_eq_nil_of_workflow (fun event ofWorkflow => ?_) ofWorkflow
      cases event with
      | called => cases ofWorkflow
      | _ => rfl
    rw [RunState.calls, added, List.filterMap_append, noCall, List.append_nil]
    rfl
  have adds := finishRun_addsOfWorkflow env
  rw [finish]
  cases ran : (finishRun env).run machine.shared with
  | ok result after => exact none _ _ (adds.of_ok ran)
  | error error after => exact none _ _ (adds.of_error ran)

end WorkflowEngine

/-! ## Silent plans -/

/-- Each emitted task with a callable comes behind an upstream of its own, or behind a key of the
dependencies that is no task and below no emitted one. -/
def WorkflowEngine.Silent (engine : WorkflowEngine) (planned : List (List String)) : Prop :=
  ∀ before batch later, planned = before ++ batch :: later → ∀ taskId ∈ batch,
    taskId ∈ engine.workflow.tasks → taskId ∈ engine.tasks →
      (∃ up ∈ before.flatten, engine.workflow.Edge up taskId) ∨
      ∃ key ∈ before.flatten, key ∉ engine.workflow.tasks ∧
        ¬ engine.workflow.Below planned.flatten key

namespace WorkflowEngine

variable {engine : WorkflowEngine} {env : Env} {machine next : Machine} {taskId : String}
  {planned before : List (List String)}

/-- What holds in a run of a silent plan behind the batches in `before`. -/
structure Hushed (engine : WorkflowEngine) (planned before : List (List String))
    (machine : Machine) : Prop where
  position : planned = before ++ machine.jobs :: machine.levels ∨
    before = [] ∧ machine.jobs = [] ∧ planned = machine.levels
  past : ∀ taskId ∈ before.flatten, machine.pcs taskId = .done
  placed : ∀ taskId ∈ machine.jobs, taskId ∈ machine.queue ∨ taskId ∈ machine.active ∨
    (machine.pcs taskId).ended = true
  queue : ∀ taskId ∈ machine.queue, taskId ∈ machine.jobs
  active : ∀ taskId ∈ machine.active, taskId ∈ machine.jobs
  fresh : ∀ taskId, taskId ∉ before.flatten → taskId ∉ machine.jobs → machine.pcs taskId = .enter
  failing : ∀ taskId,
    (machine.pcs taskId).Failing (taskId ∈ engine.workflow.tasks) (machine.stateOf taskId)
  below : ∀ taskId, (machine.pcs taskId).StaysBelow engine.workflow planned.flatten taskId
  marked : ∀ taskId, machine.stateOf taskId = .upstreamFailed →
    engine.workflow.Below planned.flatten taskId
  heads : ∀ taskId ∈ machine.jobs, (∃ up ∈ before.flatten, engine.workflow.Edge up taskId) →
    (machine.pcs taskId).Heads before.flatten taskId (machine.stateOf taskId)

namespace Hushed

/-- The tasks of the earlier batches have failed or are blocked. -/
theorem settled (hushed : engine.Hushed planned before machine) {up : String}
    (earlier : up ∈ before.flatten) : machine.shared.hasFailed up := by
  have failing := hushed.failing up
  rw [hushed.past up earlier] at failing
  exact RunState.hasFailed_iff.mpr (failing.symm.imp_left And.right)

/-- The jobs are emitted. -/
theorem emitted_of_job (hushed : engine.Hushed planned before machine)
    (job : taskId ∈ machine.jobs) :
    planned = before ++ machine.jobs :: machine.levels := by
  rcases hushed.position with position | ⟨_, none, _⟩
  · exact position
  · rw [none] at job
    cases job

/-- A task that has failed or is blocked is emitted, or below an emitted one. -/
theorem placed_of_failed (hushed : engine.Hushed planned before machine) (other : String)
    (failed : machine.shared.hasFailed other) :
    other ∈ planned.flatten ∨ engine.workflow.Below planned.flatten other := by
  rcases RunState.hasFailed_iff.mp failed with failed | marked
  · left
    by_contra apart
    have inPlanned : other ∈ before.flatten ∨ other ∈ machine.jobs → other ∈ planned.flatten := by
      rintro (earlier | job)
      · rcases hushed.position with position | ⟨none, _, _⟩
        · rw [position, List.flatten_append]
          exact List.mem_append_left _ earlier
        · rw [none] at earlier
          cases earlier
      · rw [hushed.emitted_of_job job, List.flatten_append, List.flatten_cons]
        exact List.mem_append_right _ (List.mem_append_left _ job)
    have failing := hushed.failing other
    rw [hushed.fresh other (fun earlier => apart (inPlanned (.inl earlier)))
      fun job => apart (inPlanned (.inr job))] at failing
    rcases failing with pending | marked
    · cases pending.symm.trans failed
    · cases marked.symm.trans failed
  · exact .inr (hushed.marked other marked)

/-- A job that is at an attempt has no callable. -/
theorem uncallable (hushed : engine.Hushed planned before machine) (silent : engine.Silent planned)
    (job : taskId ∈ machine.jobs) (attempts : (machine.pcs taskId).attempts = true) :
    taskId ∉ engine.tasks := by
  intro callable
  have known := (hushed.failing taskId).known_of_attempts attempts
  rcases silent before machine.jobs machine.levels (hushed.emitted_of_job job) taskId job known
    callable with behind | ⟨key, earlier, unknown, notBelow⟩
  · exact Bool.false_ne_true ((hushed.heads taskId job behind).not_attempts.symm.trans attempts)
  · have failing := hushed.failing key
    rw [hushed.past key earlier] at failing
    rcases failing with marked | ⟨isTask, _⟩
    · exact notBelow (hushed.marked key marked)
    · exact unknown isTask

/-- **A step of a thread keeps the run hushed.** -/
theorem work (hushed : engine.Hushed planned before machine) (silent : engine.Silent planned)
    (held : taskId ∈ machine.active) (unfinished : (machine.pcs taskId).ended = false) :
    engine.Hushed planned before (engine.work env machine taskId) := by
  have job := hushed.active taskId held
  have uncallable := hushed.uncallable silent job
  have notPast : taskId ∉ before.flatten := fun earlier => by
    rw [hushed.past taskId earlier] at unfinished
    cases unfinished
  have apart : ∀ other ∈ before.flatten, other ≠ taskId := by
    rintro other earlier rfl
    exact notPast earlier
  have others : ∀ other, other ≠ taskId →
      (engine.work env machine taskId).stateOf other = machine.stateOf other ∨
        machine.stateOf other = .pending ∧
          (engine.work env machine taskId).stateOf other = .upstreamFailed := by
    intro other different
    refine (engine.advance_stateOf_other env taskId machine.shared (machine.pcs taskId)
      (.inl different)).imp_right fun blocked => ?_
    exact ⟨blocked.1, blocked.2.1⟩
  refine ⟨hushed.position, fun other earlier => ?_, fun other isJob => ?_, hushed.queue,
    hushed.active, fun other notEarlier notJob => ?_, fun other => ?_, fun other => ?_,
    fun other marked => ?_, fun other isJob behind => ?_⟩
  · rw [work_pcs_of_ne (apart other earlier)]
    exact hushed.past other earlier
  · by_cases same : other = taskId
    · exact .inr (.inl (same ▸ held))
    · rw [work_pcs_of_ne same]
      exact hushed.placed other isJob
  · have different : other ≠ taskId := by
      rintro rfl
      exact notJob job
    rw [work_pcs_of_ne different]
    exact hushed.fresh other notEarlier notJob
  · by_cases same : other = taskId
    · subst same
      rw [work_pcs_self]
      exact advance_failing (hushed.failing other) uncallable
    · rw [work_pcs_of_ne same]
      rcases others other same with kept | ⟨pending, blocked⟩
      · rw [kept]
        exact hushed.failing other
      · have failing := hushed.failing other
        rw [pending] at failing
        rw [blocked]
        exact failing.blocked
  · by_cases same : other = taskId
    · subst same
      rw [work_pcs_self]
      exact advance_staysBelow hushed.placed_of_failed (hushed.below other)
    · rw [work_pcs_of_ne same]
      exact hushed.below other
  · exact advance_marked (hushed.below taskId) hushed.marked other marked
  · by_cases same : other = taskId
    · subst same
      rw [work_pcs_self]
      exact advance_heads (fun _ => hushed.settled) behind (hushed.below other)
        (hushed.failing other) (hushed.heads other isJob behind)
    · rw [work_pcs_of_ne same]
      have heads := hushed.heads other isJob behind
      rcases others other same with kept | ⟨pending, blocked⟩
      · rwa [kept]
      · rw [pending] at heads
        rw [blocked]
        exact heads.blocked

/-- The submission of a batch ends the one before, whose jobs have all returned. -/
theorem submit (hushed : engine.Hushed planned before machine) {batch : List String}
    {later : List (List String)} (drained : machine.queue = []) (idle : machine.active = [])
    (toCome : machine.levels = batch :: later)
    (returned : ∀ taskId ∈ machine.jobs, (machine.pcs taskId).error? = none) :
    ∃ passed, engine.Hushed planned passed
      { machine with levels := later, jobs := batch, queue := batch } := by
  have ended : ∀ taskId ∈ machine.jobs, machine.pcs taskId = .done := by
    intro taskId job
    have placed := hushed.placed taskId job
    rw [drained, idle] at placed
    have finished := (placed.resolve_left List.not_mem_nil).resolve_left List.not_mem_nil
    have noError := returned taskId job
    cases pc : machine.pcs taskId with
    | done => rfl
    | raised error =>
        rw [pc] at noError
        cases noError
    | _ =>
        rw [pc] at finished
        cases finished
  obtain ⟨passed, position, past, covers⟩ : ∃ passed : List (List String),
      planned = passed ++ batch :: later ∧ (∀ taskId ∈ passed.flatten, machine.pcs taskId = .done) ∧
        ∀ taskId, taskId ∉ passed.flatten → machine.pcs taskId = .enter := by
    rcases hushed.position with position | ⟨none, noJobs, position⟩
    · refine ⟨before ++ [machine.jobs], ?_, fun taskId member => ?_, fun taskId apart => ?_⟩
      · rw [position, toCome, List.append_assoc, List.singleton_append]
      · rw [List.flatten_append, List.flatten_singleton, List.mem_append] at member
        exact member.elim (hushed.past taskId) (ended taskId)
      · rw [List.flatten_append, List.flatten_singleton, List.mem_append, not_or] at apart
        exact hushed.fresh taskId apart.1 apart.2
    · refine ⟨[], by rw [position, toCome, List.nil_append], fun taskId member => ?_,
        fun taskId _ => ?_⟩
      · cases member
      · refine hushed.fresh taskId ?_ ?_
        · rw [none]
          exact List.not_mem_nil
        · rw [noJobs]
          exact List.not_mem_nil
  refine ⟨passed, .inl position, past, fun taskId => .inl, fun taskId => id, fun taskId held => ?_,
    fun taskId apart _ => covers taskId apart, hushed.failing, hushed.below, hushed.marked,
    fun taskId _ _ => ?_⟩
  · rw [show ({ machine with levels := later, jobs := batch, queue := batch } : Machine).active =
      machine.active from rfl, idle] at held
    cases held
  · dsimp only
    by_cases earlier : taskId ∈ passed.flatten
    · rw [past taskId earlier]
      trivial
    · rw [covers taskId earlier]
      trivial

/-- **A step of a hushed run calls nothing and keeps the run hushed.** -/
theorem step (hushed : engine.Hushed planned before machine) (silent : engine.Silent planned)
    (step : engine.Step env machine next) : next.shared.calls = machine.shared.calls ∧
      (next.status = .running → ∃ passed, engine.Hushed planned passed next) := by
  cases step with
  | take running waiting free =>
      have queue := hushed.queue
      rw [waiting, List.forall_mem_cons] at queue
      refine ⟨rfl, fun _ => ⟨before, hushed.position, hushed.past, fun other job => ?_, queue.2,
        List.forall_mem_cons.mpr ⟨queue.1, hushed.active⟩, hushed.fresh, hushed.failing,
        hushed.below, hushed.marked, hushed.heads⟩⟩
      rcases hushed.placed other job with inQueue | inActive | ended
      · rw [waiting] at inQueue
        rcases List.mem_cons.mp inQueue with rfl | inRest
        · exact .inr (.inl List.mem_cons_self)
        · exact .inl inRest
      · exact .inr (.inl (List.mem_cons_of_mem _ inActive))
      · exact .inr (.inr ended)
  | work running held unfinished =>
      refine ⟨?_, fun _ => ⟨before, hushed.work silent held unfinished⟩⟩
      exact advance_calls_of_uncallable (hushed.uncallable silent (hushed.active _ held))
  | @leave taskId running held finished =>
      refine ⟨rfl, fun _ => ⟨before, hushed.position, hushed.past, fun other job => ?_,
        hushed.queue, fun other member => hushed.active other (List.mem_of_mem_erase member),
        hushed.fresh, hushed.failing, hushed.below, hushed.marked, hushed.heads⟩⟩
      by_cases same : other = taskId
      · exact .inr (.inr (same ▸ finished))
      · exact (hushed.placed other job).imp_right (.imp_left (List.mem_erase_of_ne same).mpr)
  | submit running drained idle toCome returned =>
      exact ⟨rfl, fun _ => hushed.submit drained idle toCome returned⟩
  | raise => exact ⟨rfl, fun running => (by cases running)⟩
  | finish =>
      refine ⟨finish_calls env machine, fun running => ?_⟩
      rw [finish] at running
      split at running <;> cases running

end Hushed

/-- **A run of a silent plan calls no callable.** -/
theorem Silent.calls (silent : engine.Silent planned) (computed : engine.batches = .ok planned)
    (run : engine.Steps env (engine.start env) machine) : machine.shared.calls = [] := by
  obtain ⟨shared, began, views, _⟩ := engine.beginRun_view env
  have hushed : engine.Hushed planned [] { shared, levels := planned } := by
    refine ⟨.inr ⟨rfl, rfl, rfl⟩, fun _ member => (by cases member), fun _ job => (by cases job),
      fun _ => id, fun _ => id, fun _ _ _ => rfl, fun taskId => ?_, fun _ => trivial,
      fun taskId marked => ?_, fun _ job => (by cases job)⟩
    · exact .inl (congrArg (fun view => view.record.state) (views taskId))
    · have pending : shared.stateOf taskId = .pending :=
        congrArg (fun view => view.record.state) (views taskId)
      cases pending.symm.trans marked
  have whole : machine.shared.calls = [] ∧
      (machine.status = .running → ∃ before, engine.Hushed planned before machine) := by
    induction run with
    | refl =>
        rw [start, began, computed]
        refine ⟨RunState.calls_eq_nil fun taskId => ?_, fun _ => ⟨[], hushed⟩⟩
        rw [views]
        rfl
    | tail _ step ih =>
        obtain ⟨before, hushed⟩ := ih.2 step.running
        obtain ⟨calls, kept⟩ := hushed.step silent step
        exact ⟨calls.trans ih.1, kept⟩
  exact whole.1

end WorkflowEngine

end EtlOrchestrator
