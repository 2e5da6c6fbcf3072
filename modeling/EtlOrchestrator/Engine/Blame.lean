import EtlOrchestrator.Engine.Safety
import EtlOrchestrator.Foundations.GraphWalk

/-!
# Who is blamed for a blocked task

A thread that finds one of its upstreams failed walks over everything below that
upstream and marks what is still pending. `_block_if_upstream_failed` would also
start a walk from an upstream that is only `upstream_failed`, and would then
blame that one. No thread does: by the time a task is past, everything below its
failed ancestor is marked, so that a task is not pending any more when one of
its direct upstreams is marked.

`Blames` is the invariant behind this, for any order of the steps of overlapping
walks. A marked task names a failed task above it, and either everything below
that one is marked or a walk from it is under way.
-/

set_option autoImplicit false

namespace EtlOrchestrator

open BlockingEvaluation SortedSet Relation WorkflowEngine

/-! ## Steps that mark -/

/-- A thread stands in the search for a failed upstream. -/
def Pc.Searches : Pc → Prop
  | .scan _ | .scanCheck _ _ | .walk _ _ _ => True
  | _ => False

variable {engine : AcceptedEngine} {env : Env} {taskId other : String} {state : RunState} {pc : Pc}

/-- The thread of a blocked task changes its record by a walk only. -/
theorem AcceptedEngine.TaskOk.advance_blocked
    (ok : engine.TaskOk env taskId (state.view taskId) pc)
    (blocked : engine.outcome env taskId = .blocked)
    (noWalk : ∀ failed toVisit visited, pc ≠ .walk failed toVisit visited) :
    (engine.advance env taskId state pc).1.view taskId = state.view taskId := by
  by_cases keeps : pc.keepsViews = true
  · exact advance_of_respects (act_sameViews keeps) state taskId
  -- The other program points are those of a task that is not blocked.
  exfalso
  cases pc with
  | walk failed toVisit visited => exact noWalk failed toVisit visited rfl
  | define => exact ok.2.2 blocked
  | checkStart | start | hookStart | call => exact ok.2.1.unblocked blocked
  | checkFail | fail | checkRetry | retry | hookRetry | sleep => exact ok.2.1.unblocked blocked
  | permanent attempt =>
      have settles := ok.2.1
      rw [AcceptedEngine.Settles, blocked] at settles
      exact absurd (settles.state.symm.trans ok.2.2.state) (by decide)
  | hookFailure =>
      have settles := ok.2.1
      rw [AcceptedEngine.Settles, blocked] at settles
      exact absurd (settles.state.symm.trans ok.2.2) (by decide)
  | checkSucceed | succeed | hookSuccess => cases blocked.symm.trans ok.2.1
  | _ => exact keeps rfl

/-- What a step of a thread shows of any task: nothing, a visit, or progress of
its own task, which is not blocked. -/
theorem AcceptedEngine.TaskOk.advance_cases
    (ok : engine.TaskOk env taskId (state.view taskId) pc) (other : String) :
    (engine.advance env taskId state pc).1.view other = state.view other ∨
      Visits env state pc other ((engine.advance env taskId state pc).1.view other) ∨
      other = taskId ∧ engine.outcome env taskId ≠ .blocked := by
  by_cases walking : ∃ failed toVisit visited, pc = .walk failed toVisit visited
  · exact (engine.advance_other env taskId state pc (.inr walking)).imp_right .inl
  by_cases own : other = taskId
  · subst own
    by_cases blocked : engine.outcome env other = .blocked
    · exact .inl (ok.advance_blocked blocked fun failed toVisit visited same =>
        walking ⟨failed, toVisit, visited, same⟩)
    · exact .inr (.inr ⟨rfl, blocked⟩)
  · exact (engine.advance_other env taskId state pc (.inl own)).imp_right .inl

/-! ## The invariant -/

/-- Every transitive dependent of a task is marked. -/
def WorkflowEngine.ConeMarked (engine : WorkflowEngine) (state : RunState) (taskId : String) :
    Prop :=
  ∀ dependent, TransGen engine.workflow.Edge taskId dependent →
    state.stateOf dependent = .upstreamFailed

/-- What a thread in the search relies on: no upstream is only marked, and a walk
has marked everything between its failed task and the tasks that are to come. -/
def AcceptedEngine.SearchOk (engine : AcceptedEngine) (env : Env) (state : RunState)
    (taskId : String) : Pc → Prop
  | .scan _ | .scanCheck _ _ =>
      ∀ up, engine.workflow.Edge up taskId → state.stateOf up ≠ .upstreamFailed
  | .walk failedTaskId toVisit visited => engine.outcome env failedTaskId = .failed ∧
      Covers engine.workflow.Edge failedTaskId toVisit visited ∧
      ∀ dependent ∈ visited, state.stateOf dependent = .upstreamFailed
  | _ => True

/-- A record names a failed task above it that is past. -/
structure AcceptedEngine.Names (engine : AcceptedEngine) (env : Env) (past : List (List String))
    (record : TaskRunRecord) (taskId failedTaskId : String) : Prop where
  above : TransGen engine.workflow.Edge failedTaskId taskId
  outcome : engine.outcome env failedTaskId = .failed
  member : failedTaskId ∈ past.flatten
  error : record.error = some s!"upstream task '{failedTaskId}' failed"

/-- Each marked task names a failed one, below which everything is marked unless
a walk from it is under way. -/
structure Blames (engine : AcceptedEngine) (env : Env) (past : List (List String))
    (machine : Machine) : Prop where
  searches : ∀ taskId, engine.SearchOk env machine.shared taskId (machine.pcs taskId)
  named : ∀ taskId, machine.stateOf taskId = .upstreamFailed → ∃ failedTaskId,
    engine.Names env past (machine.shared.recordOf taskId) taskId failedTaskId ∧
      (engine.ConeMarked machine.shared failedTaskId ∨ taskId ∉ past.flatten ∧
        ∃ walker toVisit visited, machine.pcs walker = .walk failedTaskId toVisit visited)

/-! ## Steps of threads -/

/-- The search begins at the first check only. -/
theorem WorkflowEngine.advance_searches (engine : WorkflowEngine) (env : Env) (state : RunState)
    (notFirst : pc ≠ .firstCheck) (outside : ¬ pc.Searches) :
    ¬ (engine.advance env taskId state pc).2.Searches := by
  rcases engine.advance_leads env taskId state pc with leads | ⟨error, raised⟩
  · generalize (engine.advance env taskId state pc).2 = next at leads ⊢
    cases leads with
    | firstSkip | firstScan => exact absurd rfl notFirst
    | scanEnd | scanNext | scanFailed | scanPassed => exact absurd trivial outside
    | walkEnd | walkSkip | walkVisit => exact absurd trivial outside
    | _ => exact id
  · rw [raised]
    exact id

/-- A thread outside the search relies on nothing. -/
theorem AcceptedEngine.SearchOk.of_not_searches (outside : ¬ pc.Searches) :
    engine.SearchOk env state taskId pc := by
  cases pc with
  | scan rest => exact absurd trivial outside
  | scanCheck upstreamId rest => exact absurd trivial outside
  | walk failedTaskId toVisit visited => exact absurd trivial outside
  | _ => trivial

/-- A marked task stays as it is. -/
theorem AcceptedEngine.TaskOk.advance_marked
    (ok : engine.TaskOk env taskId (state.view taskId) pc)
    (marked : state.stateOf other = .upstreamFailed) :
    (engine.advance env taskId state pc).1.view other = state.view other := by
  rcases ok.advance_cases other with same | ⟨_, _, _, _, _, pending, _⟩ | ⟨rfl, unblocked⟩
  · exact same
  · exact absurd (pending.symm.trans marked) (by decide)
  · exact absurd (ok.of_upstreamFailed marked).2 unblocked

theorem AcceptedEngine.TaskOk.stateOf_advance_marked
    (ok : engine.TaskOk env taskId (state.view taskId) pc)
    (marked : state.stateOf other = .upstreamFailed) :
    (engine.advance env taskId state pc).1.stateOf other = .upstreamFailed := by
  rw [RunState.stateOf_eq, ok.advance_marked marked]
  exact marked

namespace Invariant

variable {past : List (List String)} {machine : Machine}

/-- So does a task that is past. -/
theorem advance_past (invariant : Invariant engine env past machine)
    (unfinished : (machine.pcs taskId).ended = false) (member : other ∈ past.flatten) :
    (engine.advance env taskId machine.shared (machine.pcs taskId)).1.view other =
      machine.shared.view other := by
  rcases (invariant.tasks taskId).advance_cases other with
    same | ⟨_, _, _, _, _, pending, _⟩ | ⟨rfl, _⟩
  · exact same
  · rcases (invariant.settles member).state_cases with state | state | state <;>
      exact absurd (pending.symm.trans state) (by decide)
  · rw [invariant.returned other member] at unfinished
    cases unfinished

/-- The batches that are past are known from those to come. -/
theorem past_eq (invariant : Invariant engine env past machine) {otherPast : List (List String)}
    {after : Machine} (otherInvariant : Invariant engine env otherPast after)
    (sameJobs : after.jobs = machine.jobs) (sameLevels : after.levels = machine.levels) :
    past = otherPast := by
  obtain ⟨batches, computed, split⟩ := invariant.position
  obtain ⟨other, otherComputed, otherSplit⟩ := otherInvariant.position
  rw [computed] at otherComputed
  cases otherComputed
  rw [sameJobs, sameLevels] at otherSplit
  exact List.append_cancel_right (split.symm.trans otherSplit)

/-- A thread in the search executes a job. -/
theorem job_of_searches (invariant : Invariant engine env past machine)
    (searching : (machine.pcs taskId).Searches) : taskId ∈ machine.jobs := by
  by_contra notJob
  by_cases member : taskId ∈ past.flatten
  · rw [invariant.returned taskId member] at searching
    exact searching
  · rw [invariant.untouched taskId member notJob] at searching
    exact searching

end Invariant

namespace Blames

variable {past : List (List String)} {machine : Machine}

/-- A pending task that is about to be executed has no marked upstream. -/
theorem up_not_marked (blames : Blames engine env past machine)
    (invariant : Invariant engine env past machine) (job : taskId ∈ machine.jobs)
    (pending : machine.stateOf taskId = .pending) {up : String}
    (edge : engine.workflow.Edge up taskId) : machine.stateOf up ≠ .upstreamFailed := by
  intro marked
  obtain ⟨failedTaskId, names, cone | ⟨notPast, _⟩⟩ := blames.named up marked
  · have below := cone taskId (names.above.tail edge)
    exact absurd (pending.symm.trans below) (by decide)
  · exact notPast (invariant.up_mem job edge)

/-- A failed upstream that the scan finds was not marked, so the walk starts at a
task that has failed. -/
theorem searches_scanCheck (blames : Blames engine env past machine)
    (invariant : Invariant engine env past machine) (job : taskId ∈ machine.jobs)
    {upstreamId : String} {rest : List String}
    (atPc : machine.pcs taskId = .scanCheck upstreamId rest) :
    engine.SearchOk env
      (engine.advance env taskId machine.shared (.scanCheck upstreamId rest)).1 taskId
      (engine.advance env taskId machine.shared (.scanCheck upstreamId rest)).2 := by
  have searches := blames.searches taskId
  have ok := invariant.tasks taskId
  rw [atPc] at searches ok
  have edge := ok.2.2.1 upstreamId List.mem_cons_self
  by_cases failed : machine.shared.stateOf upstreamId = .failed ∨
      machine.shared.stateOf upstreamId = .upstreamFailed
  · have ran : (engine.act env taskId (.scanCheck upstreamId rest)).run machine.shared =
        .ok (.walk upstreamId (sorted (engine.workflow.downstream upstreamId)) ∅)
          machine.shared := by
      simp only [act, EStateM.run_bind, Exec.run_stateOf, if_pos failed]
      rfl
    rw [advance_of_ok ran]
    have isFailed := failed.resolve_right (searches upstreamId edge)
    refine ⟨(invariant.settles (invariant.up_mem job edge)).state_eq_failed_iff.mp isFailed,
      .begin fun child below => ?_, fun _ member => absurd member (Finset.notMem_empty _)⟩
    exact mem_sorted.mpr (Workflow.mem_downstream.mpr below)
  · have ran : (engine.act env taskId (.scanCheck upstreamId rest)).run machine.shared =
        .ok (.scan rest) machine.shared := by
      simp only [act, EStateM.run_bind, Exec.run_stateOf, if_neg failed]
      rfl
    rw [advance_of_ok ran]
    exact searches

/-- After a visit the dependent is marked: one that is not pending any more was
marked before. -/
theorem searches_visit (blames : Blames engine env past machine)
    (invariant : Invariant engine env past machine) {failed dependent : String}
    {rest : List String} {visited : Finset String} (fresh : dependent ∉ visited)
    (atPc : machine.pcs taskId = .walk failed (dependent :: rest) visited) :
    engine.SearchOk env
      (engine.advance env taskId machine.shared (.walk failed (dependent :: rest) visited)).1 taskId
      (engine.advance env taskId machine.shared (.walk failed (dependent :: rest) visited)).2 := by
  have searches := blames.searches taskId
  have ok := invariant.tasks taskId
  rw [atPc] at searches ok
  obtain ⟨isFailed, covers, marked⟩ := searches
  obtain ⟨after, same, others, view⟩ :=
    engine.advance_visit env taskId machine.shared failed dependent rest fresh
  rw [same]
  refine ⟨isFailed, covers.visit fun child edge =>
    mem_sorted.mpr (Workflow.mem_downstream.mpr edge), fun node member => ?_⟩
  by_cases own : node = dependent
  · subst own
    have below := ok.2.2.2.2.1 node List.mem_cons_self
    have blocked : engine.outcome env node = .blocked :=
      AcceptedEngine.outcome_of_ancestor (by rw [isFailed]; exact not_hasValue_failed) below
    rw [RunState.stateOf_eq, view]
    by_cases pending : (machine.shared.view node).record.state = .pending
    · rw [if_pos pending]
      rfl
    · rw [if_neg pending]
      obtain (at' | at') | ⟨unblocked, _⟩ := (invariant.tasks node).waiting_or_unblocked
      · exact absurd at'.state pending
      · exact at'.1.state
      · exact absurd blocked unblocked
  · rw [RunState.stateOf_eq, others node own]
    exact marked node ((Finset.mem_insert.mp member).resolve_left own)

/-- The search of the thread itself goes on from what it relies on. -/
theorem searches_own (blames : Blames engine env past machine)
    (invariant : Invariant engine env past machine) (job : taskId ∈ machine.jobs) :
    engine.SearchOk env (engine.advance env taskId machine.shared (machine.pcs taskId)).1 taskId
      (engine.advance env taskId machine.shared (machine.pcs taskId)).2 := by
  have searches := blames.searches taskId
  generalize atPc : machine.pcs taskId = pc at searches ⊢
  cases pc with
  | firstCheck =>
      by_cases pending : machine.shared.stateOf taskId = .pending
      · have ran : (engine.act env taskId .firstCheck).run machine.shared =
            .ok (.scan (env.iterate taskId (engine.workflow.upstream taskId))) machine.shared := by
          simp [act, pending]
        rw [advance_of_ok ran]
        exact fun up edge => blames.up_not_marked invariant job pending edge
      · have ran : (engine.act env taskId .firstCheck).run machine.shared =
            .ok .skip machine.shared := by
          simp [act, pending]
        rw [advance_of_ok ran]
        trivial
  | scan rest =>
      cases rest with
      | nil => trivial
      | cons upstreamId rest =>
          have ran : (engine.act env taskId (.scan (upstreamId :: rest))).run machine.shared =
              .ok (.scanCheck upstreamId rest) (machine.shared.record upstreamId) := rfl
          rw [advance_of_ok ran]
          intro up edge
          rw [RunState.stateOf_eq, RunState.view_record]
          exact searches up edge
  | scanCheck upstreamId rest => exact blames.searches_scanCheck invariant job atPc
  | walk failed toVisit visited =>
      cases toVisit with
      | nil => trivial
      | cons dependent rest =>
          by_cases seen : dependent ∈ visited
          · obtain ⟨isFailed, covers, marked⟩ := searches
            rw [engine.advance_skip env taskId _ failed dependent rest seen]
            exact ⟨isFailed, covers.skip seen, marked⟩
          · exact blames.searches_visit invariant seen atPc
  | _ => exact .of_not_searches (engine.advance_searches env machine.shared (by simp) id)

/-- A step of another thread keeps what a search relies on. -/
theorem searches_other (blames : Blames engine env past machine)
    (invariant : Invariant engine env past machine)
    (unfinished : (machine.pcs taskId).ended = false) (walker : String) :
    engine.SearchOk env (engine.advance env taskId machine.shared (machine.pcs taskId)).1 walker
      (machine.pcs walker) := by
  have searches := blames.searches walker
  have ok := invariant.tasks taskId
  have upstreams : (machine.pcs walker).Searches →
      (∀ up, engine.workflow.Edge up walker → machine.shared.stateOf up ≠ .upstreamFailed) →
      ∀ up, engine.workflow.Edge up walker →
        (engine.advance env taskId machine.shared (machine.pcs taskId)).1.stateOf up ≠
          .upstreamFailed := by
    intro searching clean up edge
    have member := invariant.up_mem (invariant.job_of_searches searching) edge
    rw [RunState.stateOf_eq, invariant.advance_past unfinished member]
    exact clean up edge
  cases atPc : machine.pcs walker with
  | scan rest =>
      rw [atPc] at searches upstreams
      exact upstreams trivial searches
  | scanCheck upstreamId rest =>
      rw [atPc] at searches upstreams
      exact upstreams trivial searches
  | walk failed toVisit visited =>
      rw [atPc] at searches
      obtain ⟨isFailed, covers, marked⟩ := searches
      exact ⟨isFailed, covers, fun node member => ok.stateOf_advance_marked (marked node member)⟩
  | _ => trivial

/-- A walk from a failed task goes on, or has marked everything below it. -/
theorem walk_advance {failed : String} {toVisit : List String} {visited : Finset String}
    (walks : engine.SearchOk env state taskId pc) (atPc : pc = .walk failed toVisit visited) :
    engine.ConeMarked (engine.advance env taskId state pc).1 failed ∨
      ∃ later seen, (engine.advance env taskId state pc).2 = .walk failed later seen := by
  subst atPc
  cases toVisit with
  | nil =>
      obtain ⟨_, covers, marked⟩ := walks
      have ran : (engine.act env taskId (.walk failed [] visited)).run state =
          .ok .refresh state := rfl
      rw [advance_of_ok ran]
      exact .inl fun dependent below => marked dependent (covers.mem_of_below below)
  | cons dependent rest =>
      right
      by_cases seen : dependent ∈ visited
      · rw [engine.advance_skip env taskId state failed dependent rest seen]
        exact ⟨_, _, rfl⟩
      · obtain ⟨after, same, _⟩ :=
          engine.advance_visit env taskId state failed dependent rest seen
        rw [same]
        exact ⟨_, _, rfl⟩

/-- **A step of a worker keeps the invariant.** -/
theorem work (blames : Blames engine env past machine)
    (invariant : Invariant engine env past machine) (held : taskId ∈ machine.active)
    (unfinished : (machine.pcs taskId).ended = false) :
    Blames engine env past (engine.work env machine taskId) := by
  have job := invariant.submitted taskId (.inr held)
  have ok := invariant.tasks taskId
  refine ⟨fun walker => ?_, fun other marked => ?_⟩
  · by_cases own : walker = taskId
    · subst own
      rw [work_pcs_self]
      exact blames.searches_own invariant job
    · rw [work_pcs_of_ne own]
      exact blames.searches_other invariant unfinished walker
  · rcases ok.advance_cases other with same |
      ⟨failed, rest, visited, atPc, fresh, pending, view⟩ | ⟨rfl, unblocked⟩
    · -- It was marked before: its failed task is the same.
      have before : machine.stateOf other = .upstreamFailed :=
        (congrArg (·.record.state) same).symm.trans marked
      obtain ⟨failed, names, covered⟩ := blames.named other before
      have sameRecord : (engine.work env machine taskId).shared.recordOf other =
          machine.shared.recordOf other := congrArg TaskView.record same
      refine ⟨failed, sameRecord ▸ names, ?_⟩
      rcases covered with cone | ⟨notPast, walker, toVisit, visited, atPc⟩
      · exact .inl fun dependent below => ok.stateOf_advance_marked (cone dependent below)
      · by_cases own : walker = taskId
        · subst own
          rcases walk_advance (blames.searches walker) atPc with cone | ⟨later, seen, next⟩
          · exact .inl cone
          · exact .inr ⟨notPast, walker, later, seen, (work_pcs_self machine).trans next⟩
        · exact .inr ⟨notPast, walker, toVisit, visited, (work_pcs_of_ne own).trans atPc⟩
    · -- The step has marked it, for the failed task of its walk.
      have searches := blames.searches taskId
      rw [atPc] at ok searches
      obtain ⟨isFailed, _⟩ := searches
      have names : engine.Names env past ((engine.work env machine taskId).shared.recordOf other)
          other failed :=
        { above := ok.2.2.2.2.1 other List.mem_cons_self
          outcome := isFailed
          member := invariant.up_mem job ok.2.2.1
          error := congrArg (fun shown => shown.record.error) view }
      have notPast : other ∉ past.flatten := by
        intro member
        rcases (invariant.settles member).state_cases with state | state | state <;>
          exact absurd (pending.symm.trans state) (by decide)
      obtain ⟨after, next, _⟩ :=
        engine.advance_visit env taskId machine.shared failed other rest fresh
      have walks : (engine.work env machine taskId).pcs taskId = .walk failed
          (rest ++ sorted (engine.workflow.downstream other)) (insert other visited) := by
        rw [work_pcs_self, atPc, next]
      exact ⟨failed, names, .inr ⟨notPast, taskId, _, _, walks⟩⟩
    · have after := invariant.work_tasks held unfinished other
      exact absurd (after.of_upstreamFailed marked).2 unblocked

/-! ## Runs -/

/-- Between two batches no walk is under way. -/
theorem cone_marked (blames : Blames engine env past machine)
    (invariant : Invariant engine env past machine) (drained : machine.queue = [])
    (idle : machine.active = []) (marked : machine.stateOf taskId = .upstreamFailed) :
    ∃ failedTaskId,
      engine.Names env past (machine.shared.recordOf taskId) taskId failedTaskId ∧
        engine.ConeMarked machine.shared failedTaskId := by
  obtain ⟨failed, names, cone | ⟨_, walker, toVisit, visited, atPc⟩⟩ := blames.named taskId marked
  · exact ⟨failed, names, cone⟩
  · have searching : (machine.pcs walker).Searches := by rw [atPc]; trivial
    have job := invariant.job_of_searches searching
    have ended := invariant.ended walker job (by simp [drained]) (by simp [idle])
    rw [atPc] at ended
    cases ended

theorem submit (blames : Blames engine env past machine)
    (invariant : Invariant engine env past machine) (drained : machine.queue = [])
    (idle : machine.active = []) {batch : List String} {later : List (List String)} :
    Blames engine env (past ++ [machine.jobs])
      { machine with levels := later, jobs := batch, queue := batch } where
  searches := blames.searches
  named := by
    intro taskId marked
    obtain ⟨failed, names, cone⟩ := blames.cone_marked invariant drained idle marked
    refine ⟨failed, ⟨names.above, names.outcome, ?_, names.error⟩, .inl cone⟩
    rw [List.flatten_append]
    exact List.mem_append_left _ names.member

/-- The invariant looks at the records and the program points only. -/
theorem congr (blames : Blames engine env past machine) {after : Machine}
    (views : ∀ taskId, after.shared.view taskId = machine.shared.view taskId)
    (pcs : after.pcs = machine.pcs) : Blames engine env past after := by
  have states : ∀ taskId, after.shared.stateOf taskId = machine.shared.stateOf taskId :=
    fun taskId => congrArg (·.record.state) (views taskId)
  refine ⟨fun taskId => ?_, fun taskId marked => ?_⟩
  · have searches := blames.searches taskId
    rw [pcs]
    cases atPc : machine.pcs taskId with
    | scan rest =>
        rw [atPc] at searches
        exact fun up edge => (states up).symm ▸ searches up edge
    | scanCheck upstreamId rest =>
        rw [atPc] at searches
        exact fun up edge => (states up).symm ▸ searches up edge
    | walk failed toVisit visited =>
        rw [atPc] at searches
        exact ⟨searches.1, searches.2.1, fun node member =>
          (states node).trans (searches.2.2 node member)⟩
    | _ => trivial
  · have before : machine.stateOf taskId = .upstreamFailed := (states taskId).symm.trans marked
    obtain ⟨failed, names, covered⟩ := blames.named taskId before
    have sameRecord : after.shared.recordOf taskId = machine.shared.recordOf taskId :=
      congrArg TaskView.record (views taskId)
    refine ⟨failed, sameRecord ▸ names, ?_⟩
    rw [pcs]
    exact covered.imp_left fun cone dependent below =>
      (states dependent).trans (cone dependent below)

end Blames

/-- **In every state of every run a marked task names a failed one, and everything
below that one is marked unless a walk from it is under way.** -/
theorem Reachable.blames {machine : Machine} (run : engine.Steps env (engine.start env) machine) :
    ∃ past, Invariant engine env past machine ∧ Blames engine env past machine := by
  induction run with
  | refl =>
      have reachable : Reachable engine env (engine.start env) := .start
      obtain ⟨past, invariant⟩ := reachable.invariant
      refine ⟨past, invariant, ?_⟩
      obtain ⟨shared, levels, same, _, _, views, _⟩ := start_eq engine env
      rw [same]
      refine ⟨fun taskId => trivial, fun taskId marked => ?_⟩
      rw [Machine.stateOf, RunState.stateOf_eq, views] at marked
      cases marked
  | @tail machine next steps step ih =>
      obtain ⟨past, invariant, blames⟩ := ih
      cases step with
      | take running waiting free =>
          exact ⟨past, invariant.take waiting free, blames.congr (fun _ => rfl) rfl⟩
      | work running held unfinished =>
          exact ⟨past, invariant.work held unfinished, blames.work invariant held unfinished⟩
      | leave running held finished =>
          exact ⟨past, invariant.leave finished, blames.congr (fun _ => rfl) rfl⟩
      | submit running drained idle toCome returned =>
          exact ⟨_, invariant.submit drained idle toCome returned,
            blames.submit invariant drained idle⟩
      | raise running drained idle first =>
          exact ⟨past, { invariant with }, blames.congr (fun _ => rfl) rfl⟩
      | finish running drained idle last returned =>
          obtain ⟨after, ran, views, _⟩ :=
            (Reachable.steps steps).finishRun running drained idle last returned
          obtain ⟨other, otherInvariant⟩ :=
            ((Reachable.steps steps).finish running drained idle last returned).invariant
          rw [WorkflowEngine.finish_of_ok ran] at otherInvariant ⊢
          obtain rfl := invariant.past_eq otherInvariant rfl rfl
          exact ⟨past, otherInvariant, blames.congr views rfl⟩

/-! ## The blamed task -/

/-- **In every state of every run, the error of a task that is `upstream_failed`
names a task above it that has failed with all its attempts.** -/
theorem blamed_task_failed (engine : AcceptedEngine) (env : Env) {machine : Machine}
    (run : engine.Steps env (engine.start env) machine) {taskId : String}
    (blocked : machine.stateOf taskId = .upstreamFailed) : ∃ failedTaskId,
    (machine.shared.recordOf taskId).error = some s!"upstream task '{failedTaskId}' failed" ∧
      TransGen engine.workflow.Edge failedTaskId taskId ∧
      machine.stateOf failedTaskId = .failed ∧
      machine.attemptsOf failedTaskId = engine.maxAttempts failedTaskId := by
  obtain ⟨past, invariant, blames⟩ := Reachable.blames run
  obtain ⟨failed, names, _⟩ := blames.named taskId blocked
  have settles := invariant.settles names.member
  rw [AcceptedEngine.Settles, names.outcome] at settles
  exact ⟨failed, names.error, names.above, settles.state, settles.attempts⟩

theorem blamed_task_failed_pipeline : ∃ machine,
    (pipeline 2 (by decide)).replay { runId := "run" }
      ((pipeline 2 (by decide)).start { runId := "run" }) pipelineChoices = some machine ∧
    (machine.shared.recordOf "load").error = some "upstream task 'transform' failed" ∧
    ∃ failedTaskId, (machine.shared.recordOf "load").error =
        some s!"upstream task '{failedTaskId}' failed" ∧
      machine.stateOf failedTaskId = .failed ∧
      machine.attemptsOf failedTaskId = (pipeline 2 (by decide)).maxAttempts failedTaskId := by
  have shown : ((pipeline 2 (by decide)).replay { runId := "run" }
      ((pipeline 2 (by decide)).start { runId := "run" }) pipelineChoices).map (fun machine =>
        (machine.stateOf "load", (machine.shared.recordOf "load").error)) =
      some (.upstreamFailed, some "upstream task 'transform' failed") := by decide +kernel
  obtain ⟨machine, replayed, shows⟩ := Option.map_eq_some_iff.mp shown
  obtain ⟨blocked, error⟩ := Prod.mk.inj shows
  obtain ⟨failed, named, _, isFailed, attempts⟩ := blamed_task_failed (pipeline 2 (by decide))
    { runId := "run" } (steps_of_replay _ _ replayed) blocked
  exact ⟨machine, replayed, error, failed, named, isFailed, attempts⟩

end EtlOrchestrator
