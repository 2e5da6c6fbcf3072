import Mathlib.Data.List.Find
import EtlOrchestrator.Engine.ErrorTexts
import EtlOrchestrator.Engine.Reproducibility
import EtlOrchestrator.Foundations.Attribution

/-!
# What one branch does to another

When the callables of a task and of its transitive dependents change, every other
task ends in the same state after the same number of attempts. Its error text may
change nevertheless. A task below several failed ones is blamed on the one from
which the first walk has started, and a walk may start at the turn of a dependent
of the changed task, or not.

Which failed tasks are walked from, and in which order, is a function of the graph
and of the set of failed tasks (`walkSources`). A sequential run blames each
blocked task on the first of them above it.
-/

set_option autoImplicit false

namespace EtlOrchestrator

open BlockingEvaluation Relation WorkflowEngine

/-! ## The failed tasks that are blamed -/

section

variable (engine : AcceptedEngine) (env : Env)

open Classical in
/-- The first failed upstream of a task in its iteration order. -/
noncomputable def AcceptedEngine.firstFailed (taskId : String) : Option String :=
  (env.iterate taskId (engine.workflow.upstream taskId)).find? fun up =>
    engine.outcome env up = .failed

open Classical in
/-- The failed tasks from which the turns of a list of tasks start walks: a task
that no earlier one stands above starts a walk from its first failed upstream. -/
noncomputable def AcceptedEngine.walkSources (tasks : List String) : List String :=
  Attribution.sources (TransGen engine.workflow.Edge) (engine.firstFailed env) tasks

open Classical in
/-- The first of these tasks above a task. -/
noncomputable def AcceptedEngine.blamed (tasks : List String) (taskId : String) : Option String :=
  Attribution.firstAbove (TransGen engine.workflow.Edge) (engine.walkSources env tasks) taskId

end

variable {engine : AcceptedEngine} {env : Env} {taskId up : String}
  {before later : List String} {state after : RunState}

theorem AcceptedEngine.outcome_of_firstFailed (found : engine.firstFailed env taskId = some up) :
    engine.workflow.Edge up taskId ∧ engine.outcome env up = .failed := by
  classical
  rw [firstFailed] at found
  have failed := List.find?_some found
  exact ⟨(env.mem_iterate _ _ _).mp (List.mem_of_find?_eq_some found), of_decide_eq_true failed⟩

/-- A task is blamed on a failed one above it. -/
theorem AcceptedEngine.failed_of_blamed {tasks : List String}
    (blamed : engine.blamed env tasks taskId = some up) :
    TransGen engine.workflow.Edge up taskId ∧ engine.outcome env up = .failed := by
  classical
  have member := Attribution.mem_of_firstAbove blamed
  obtain ⟨node, found⟩ := Attribution.picked_of_mem_sources tasks member
  exact ⟨Attribution.above_of_firstAbove blamed, (outcome_of_firstFailed found).2⟩

/-- At the turn of a pending task the search finds the first failed upstream. -/
theorem AtTurn.failedUpstream_eq (turn : AtTurn engine env before taskId state)
    (pending : state.stateOf taskId = .pending) :
    engine.failedUpstream env state taskId = engine.firstFailed env taskId := by
  classical
  rw [failedUpstream, AcceptedEngine.firstFailed]
  refine List.find?_congr fun up member => ?_
  have edge := (env.mem_iterate _ _ _).mp member
  have settles := turn.settles up (turn.upstream up edge)
  rw [Bool.eq_iff_iff, decide_eq_true_iff, RunState.hasFailed_iff, ← settles.state_eq_failed_iff]
  constructor
  · exact fun failed => failed.resolve_right (turn.unmarked pending up edge)
  · exact .inl

/-- A blocked task that is not marked yet is pending. -/
theorem AtTurn.pending_of_blocked (turn : AtTurn engine env before taskId state) {other : String}
    (blocked : engine.outcome env other = .blocked)
    (notMarked : state.stateOf other ≠ .upstreamFailed) : state.stateOf other = .pending := by
  by_cases member : other ∈ before
  · have settles := turn.settles other member
    rw [AcceptedEngine.Settles, blocked] at settles
    exact absurd settles.state notMarked
  · rcases turn.waiting other member with pending | marked
    · exact pending.state
    · exact absurd marked.1.state notMarked

/-- A pending task without a failed upstream is not blocked. -/
theorem AtTurn.unblocked_of_firstFailed (turn : AtTurn engine env before taskId state)
    (pending : state.stateOf taskId = .pending)
    (notFound : engine.firstFailed env taskId = none) : engine.outcome env taskId ≠ .blocked := by
  rw [← turn.failedUpstream_eq pending] at notFound
  refine AcceptedEngine.outcome_ne_blocked_iff.mpr fun up edge => ?_
  have notFailed := failedUpstream_eq_none_iff.mp notFound up edge
  exact (turn.settles up (turn.upstream up edge)).hasValue_iff.mpr
    (RunState.hasFailed_iff.not.mp notFailed)

/-- A task is marked exactly when one of the walks has started above it, and its
error names the first one. -/
def AcceptedEngine.BlamesAs (engine : AcceptedEngine) (env : Env) (tasks : List String)
    (state : RunState) : Prop :=
  ∀ taskId, match engine.blamed env tasks taskId with
    | some up => state.stateOf taskId = .upstreamFailed ∧
        (state.recordOf taskId).error = some s!"upstream task '{up}' failed"
    | none => state.stateOf taskId ≠ .upstreamFailed

namespace AcceptedEngine.BlamesAs

variable {tasks : List String} {current : String}

/-- No walk starts at the turn of a task, and no other one changes. -/
theorem keep (blames : engine.BlamesAs env tasks state)
    (noSource : engine.walkSources env (tasks ++ [current]) = engine.walkSources env tasks)
    (others : ∀ other, other ≠ current → after.view other = state.view other)
    (own : after.view current = state.view current ∨ state.stateOf current ≠ .upstreamFailed ∧
      after.stateOf current ≠ .upstreamFailed) :
    engine.BlamesAs env (tasks ++ [current]) after := by
  intro taskId
  have before := blames taskId
  rw [blamed, noSource, ← blamed]
  have same : after.view taskId = state.view taskId →
      after.stateOf taskId = state.stateOf taskId ∧ after.recordOf taskId = state.recordOf taskId :=
    fun view => ⟨congrArg (·.record.state) view, congrArg (·.record) view⟩
  by_cases isCurrent : taskId = current
  · subst isCurrent
    rcases own with view | ⟨notBefore, notAfter⟩
    · rw [(same view).1, (same view).2]
      exact before
    · cases first : engine.blamed env tasks taskId with
      | some up =>
          rw [first] at before
          exact absurd before.1 notBefore
      | none => exact notAfter
  · rw [(same (others taskId isCurrent)).1, (same (others taskId isCurrent)).2]
    exact before

/-- A walk that starts at the turn of a task marks what it reaches. -/
theorem walk (blames : engine.BlamesAs env tasks state)
    (notBlamed : engine.blamed env tasks current = none)
    (found : engine.firstFailed env current = some up)
    (marks : Marks engine.toWorkflowEngine up state after)
    (pending : ∀ taskId, TransGen engine.workflow.Edge up taskId →
      state.stateOf taskId ≠ .upstreamFailed → state.stateOf taskId = .pending) :
    engine.BlamesAs env (tasks ++ [current]) after := by
  classical
  have added : engine.walkSources env (tasks ++ [current]) = engine.walkSources env tasks ++ [up] :=
    Attribution.sources_concat_of_pick notBlamed found
  intro taskId
  have before := blames taskId
  cases first : engine.blamed env tasks taskId with
  | some earlier =>
      have next : engine.blamed env (tasks ++ [current]) taskId = some earlier := by
        rw [blamed, added]
        exact Attribution.firstAbove_append_of_some first
      rw [first] at before
      have view := marks.kept taskId fun _ pending =>
        absurd (pending.symm.trans before.1) (by decide)
      rw [next, RunState.stateOf_eq, RunState.recordOf_eq, view]
      exact before
  | none =>
      rw [first] at before
      by_cases below : TransGen engine.workflow.Edge up taskId
      · have next : engine.blamed env (tasks ++ [current]) taskId = some up := by
          rw [blamed, added]
          exact Attribution.firstAbove_concat_of_above first below
        rw [next]
        exact ⟨marks.stateOf below (pending taskId below before),
          marks.error below (pending taskId below before)⟩
      · have next : engine.blamed env (tasks ++ [current]) taskId = none := by
          rw [blamed, added]
          exact Attribution.firstAbove_concat_of_not_above first below
        rw [next, RunState.stateOf_eq, marks.kept taskId fun other => absurd other below]
        exact before

/-- The turn of a task, in its three cases: it was marked by an earlier walk and
is skipped, it starts a walk, or it is attempted. -/
theorem step (blames : engine.BlamesAs env tasks state)
    (turn : AtTurn engine env tasks current state) (fresh : current ∉ tasks)
    (ran : (engine.executeTask env current).run state = .ok () after)
    (blocked : after.stateOf current = .upstreamFailed → engine.outcome env current = .blocked) :
    engine.BlamesAs env (tasks ++ [current]) after := by
  classical
  cases own : engine.blamed env tasks current with
  | some up =>
      have marked := blames current
      rw [own] at marked
      have started : state.stateOf current ≠ .pending := fun pending =>
        absurd (pending.symm.trans marked.1) (by decide)
      obtain ⟨other, skipped, views⟩ :=
        executeTask_of_not_pending engine.toWorkflowEngine env started
      rw [ran] at skipped
      cases skipped
      exact blames.keep (Attribution.sources_concat_of_some own) (fun other _ => views other)
        (.inl (views current))
  | none =>
      have notMarked := blames current
      rw [own] at notMarked
      have pending : state.stateOf current = .pending :=
        (turn.waiting current fresh).elim (fun at' => at'.state) fun waiting =>
          absurd waiting.1.state notMarked
      have search := turn.failedUpstream_eq pending
      cases found : engine.firstFailed env current with
      | some up =>
          obtain ⟨other, walked, marks⟩ := executeTask_of_failedUpstream
            turn.upstreamsRecorded pending (search.trans found)
          rw [ran] at walked
          cases walked
          refine blames.walk own found marks fun other below unmarked => ?_
          have failed := (AcceptedEngine.outcome_of_firstFailed found).2
          exact turn.pending_of_blocked (AcceptedEngine.outcome_of_ancestor
            (by rw [failed]; exact not_hasValue_failed) below) unmarked
      | none =>
          rw [executeTask_of_free turn.upstreamsRecorded pending (search.trans found)] at ran
          have attempts : Respects (Frame current) (engine.makeAttempts env current) :=
            Frame.makeAttempts env engine.toWorkflowEngine
          have frame := attempts.of_ok ran
          refine blames.keep (Attribution.sources_concat_of_none found) (fun other different => ?_)
            (.inr ⟨notMarked, fun marked => ?_⟩)
          · rw [frame.view other different, RunState.view_record]
          · exact turn.unblocked_of_firstFailed pending found (blocked marked)

end AcceptedEngine.BlamesAs

namespace WorkflowEngine.Executed

/-- A marked task is blocked. -/
theorem blocked_of_marked (one : engine.maxWorkers = 1)
    (computed : engine.topologicalOrder = .ok (before ++ later))
    (executed : engine.Executed env before state)
    (marked : state.stateOf taskId = .upstreamFailed) : engine.outcome env taskId = .blocked := by
  obtain ⟨machine, run, _, _, rfl⟩ := executed.machine one computed
  obtain ⟨past, invariant⟩ := (Reachable.steps run).invariant
  exact ((invariant.tasks taskId).of_upstreamFailed marked).2

/-- **A sequential run blames each marked task on the first walk above it.** -/
theorem blamesAs (one : engine.maxWorkers = 1) (before : List String) : ∀ later state,
    engine.topologicalOrder = .ok (before ++ later) → engine.Executed env before state →
    engine.BlamesAs env before state := by
  induction before using List.reverseRecOn with
  | nil =>
      intro later state computed executed taskId
      obtain ⟨begun, began, views, _⟩ := engine.beginRun_view env
      obtain rfl : state = begun := by
        have ran := executed_nil_iff.mp executed
        rw [began] at ran
        cases ran
        rfl
      rw [show engine.blamed env [] taskId = none from rfl]
      dsimp only
      rw [RunState.stateOf_eq, views]
      exact nofun
  | append_singleton earlier current ih =>
      intro later after computed executed
      have whole := computed
      rw [List.append_assoc, List.singleton_append] at computed
      obtain ⟨state, earlierExecuted, ran⟩ := executed_concat_iff.mp executed
      have blames := ih (current :: later) state computed earlierExecuted
      have fresh : current ∉ earlier := by
        obtain ⟨order, otherComputed, _, nodup⟩ := batches_of_one_worker one
        rw [computed] at otherComputed
        cases otherComputed
        exact fun old => List.disjoint_of_nodup_append nodup old List.mem_cons_self
      exact blames.step (earlierExecuted.atTurn one computed) fresh ran
        (executed.blocked_of_marked one whole)

end WorkflowEngine.Executed

/-! ## Runs that return -/

section

variable {final : RunState} {order : List String}

/-- A sequential run that returns has executed all tasks, and its end changes no
record. -/
theorem executed_of_runSequential (computed : engine.topologicalOrder = .ok order)
    (ran : (engine.runSequential env).run (engine.created env) = .ok () final) : ∃ state,
    engine.Executed env order state ∧ ∀ taskId, final.view taskId = state.view taskId := by
  have split : engine.runSequential env =
      (beginRun env >>= fun _ => engine.executeAll env order) >>= fun _ => finishRun env := by
    rw [runSequential, computed]
    dsimp only [ofExcept]
    simp only [pure_bind, bind_assoc]
  rw [split, EStateM.run_bind] at ran
  cases executed : (beginRun env >>= fun _ => engine.executeAll env order).run
      (engine.created env) with
  | error _ _ =>
      rw [executed] at ran
      cases ran
  | ok _ state =>
      rw [executed] at ran
      exact ⟨state, executed, (SameViews.finishRun env).of_ok ran⟩

/-- What a sequential run that returns shows of its tasks. -/
theorem blamesAs_of_runSequential (one : engine.maxWorkers = 1)
    (computed : engine.topologicalOrder = .ok order)
    (ran : (engine.runSequential env).run (engine.created env) = .ok () final) :
    engine.BlamesAs env order final := by
  obtain ⟨state, executed, views⟩ := executed_of_runSequential computed ran
  have blames := executed.blamesAs one order [] state (by rw [computed, List.append_nil])
  intro taskId
  rw [RunState.stateOf_eq, RunState.recordOf_eq, views]
  exact blames taskId

/-- A sequential run that returns is a run of the machine. -/
theorem machine_of_runSequential (one : engine.maxWorkers = 1)
    (ran : (engine.runSequential env).run (engine.created env) = .ok () final) : ∃ machine,
    engine.Steps env (engine.start env) machine ∧ machine.status = .returned ∧
      machine.shared = final := by
  have run := steps_of_runSequential env one
  rw [ran] at run
  exact run

end

/-! ## Two families of callables -/

/-- What an attempt of a task gives. -/
def WorkflowEngine.attemptResult (engine : WorkflowEngine) (env : Env) (taskId : String)
    (attempt : ℕ) : Option (Except PyError Unit) :=
  (engine.tasks.get? taskId).map fun callable => callable (engine.context env taskId attempt)

/-- Two runs of one workflow that iterate its upstream sets alike, and in which
every attempt gives the same except for one task and its transitive dependents. -/
structure AgreeOutside (changed : String) (left right : AcceptedEngine) (leftEnv rightEnv : Env) :
    Prop where
  workflow : right.workflow = left.workflow
  iterate : rightEnv.iterate = leftEnv.iterate
  results : ∀ taskId, ¬ ReflTransGen left.workflow.Edge changed taskId → ∀ attempt,
    right.attemptResult rightEnv taskId attempt = left.attemptResult leftEnv taskId attempt

namespace AgreeOutside

variable {changed : String} {left right : AcceptedEngine} {leftEnv rightEnv : Env}

theorem succeeds_iff (engine : WorkflowEngine) (env : Env) (taskId : String) (attempt : ℕ) :
    engine.Succeeds env taskId attempt ↔
      engine.attemptResult env taskId attempt = some (.ok ()) := by
  rw [Succeeds, attemptResult, Option.map_eq_some_iff]

theorem outcome (agree : AgreeOutside changed left right leftEnv rightEnv)
    (outside : ¬ ReflTransGen left.workflow.Edge changed taskId) :
    right.outcome rightEnv taskId = left.outcome leftEnv taskId := by
  have upward : ∀ up taskId, left.workflow.Edge up taskId →
      ¬ ReflTransGen left.workflow.Edge changed taskId →
      ¬ ReflTransGen left.workflow.Edge changed up :=
    fun up taskId edge outside above => outside (above.tail edge)
  apply AcceptedEngine.outcome_congr_of_closed agree.workflow upward ?_ taskId outside
  intro taskId outside attempt
  rw [succeeds_iff, succeeds_iff, agree.results taskId outside]

theorem lastError (agree : AgreeOutside changed left right leftEnv rightEnv)
    (outside : ¬ ReflTransGen left.workflow.Edge changed taskId) (attempts : ℕ) :
    right.lastError taskId (right.contexts rightEnv taskId attempts) =
      left.lastError taskId (left.contexts leftEnv taskId attempts) := by
  have texts : ∀ attempt, right.errorText taskId (right.context rightEnv taskId attempt) =
      left.errorText taskId (left.context leftEnv taskId attempt) := by
    intro attempt
    have same := agree.results taskId outside attempt
    rw [attemptResult, attemptResult] at same
    cases leftFound : left.tasks.get? taskId with
    | none =>
        rw [leftFound, Option.map_none, Option.map_eq_none_iff] at same
        rw [errorText, errorText, leftFound, same]
        rfl
    | some leftCallable =>
        rw [leftFound, Option.map_some] at same
        obtain ⟨rightCallable, rightFound, sameResult⟩ := Option.map_eq_some_iff.mp same
        rw [errorText, errorText, leftFound, rightFound, Option.bind_some, Option.bind_some,
          sameResult]
  rw [WorkflowEngine.lastError, WorkflowEngine.lastError, contexts, contexts, List.filterMap_map,
    List.filterMap_map]
  congr 2
  funext attempt
  exact texts attempt

theorem topologicalOrder (agree : AgreeOutside changed left right leftEnv rightEnv) :
    right.topologicalOrder = left.topologicalOrder := by
  rw [WorkflowEngine.topologicalOrder, WorkflowEngine.topologicalOrder, agree.workflow]

end AgreeOutside

/-- The error of a task that ends unmarked, and of one that ends marked. -/
theorem error_of_runSequential (one : engine.maxWorkers = 1) {order : List String}
    (computed : engine.topologicalOrder = .ok order) {final : RunState}
    (ran : (engine.runSequential env).run (engine.created env) = .ok () final)
    (known : taskId ∈ engine.workflow.tasks) :
    (final.recordOf taskId).error =
      match engine.blamed env order taskId with
      | some up => some s!"upstream task '{up}' failed"
      | none => engine.lastError taskId
          (engine.contexts env taskId (final.recordOf taskId).attempts) := by
  have blames := blamesAs_of_runSequential one computed ran taskId
  obtain ⟨machine, run, returned, rfl⟩ := machine_of_runSequential one ran
  cases blamed : engine.blamed env order taskId with
  | some up =>
      rw [blamed] at blames
      exact blames.2
  | none =>
      rw [blamed] at blames
      exact Reachable.error_of_returned run returned known blames

section

variable {changed : String} {left right : AcceptedEngine} {leftEnv rightEnv : Env}
  {order : List String} {leftFinal rightFinal : RunState}

/-- A task outside ends in the same state after the same number of attempts. -/
theorem AgreeOutside.settled (agree : AgreeOutside changed left right leftEnv rightEnv)
    (leftOne : left.maxWorkers = 1) (rightOne : right.maxWorkers = 1)
    (leftRan : (left.runSequential leftEnv).run (left.created leftEnv) = .ok () leftFinal)
    (rightRan : (right.runSequential rightEnv).run (right.created rightEnv) = .ok () rightFinal)
    (known : taskId ∈ left.workflow.tasks)
    (outside : ¬ ReflTransGen left.workflow.Edge changed taskId) :
    rightFinal.stateOf taskId = leftFinal.stateOf taskId ∧
      (rightFinal.recordOf taskId).attempts = (leftFinal.recordOf taskId).attempts := by
  obtain ⟨leftMachine, leftRun, leftReturned, rfl⟩ := machine_of_runSequential leftOne leftRan
  obtain ⟨rightMachine, rightRun, rightReturned, rfl⟩ := machine_of_runSequential rightOne rightRan
  have leftResult := (Reachable.steps leftRun).isResult leftReturned
  have rightResult := (Reachable.steps rightRun).isResult rightReturned
  have leftAgrees := (leftResult.agrees_iff known).mpr rfl
  have rightAgrees := (rightResult.agrees_iff (agree.workflow ▸ known)).mpr rfl
  rw [agree.outcome outside, settledAs_congr agree.workflow] at rightAgrees
  exact Prod.mk.inj (rightAgrees.trans leftAgrees.symm)

/-- It is blamed on a failed task in both runs, or in none. -/
theorem AgreeOutside.blamed_cases (agree : AgreeOutside changed left right leftEnv rightEnv)
    (leftOne : left.maxWorkers = 1) (rightOne : right.maxWorkers = 1)
    (computed : left.topologicalOrder = .ok order)
    (leftRan : (left.runSequential leftEnv).run (left.created leftEnv) = .ok () leftFinal)
    (rightRan : (right.runSequential rightEnv).run (right.created rightEnv) = .ok () rightFinal)
    (known : taskId ∈ left.workflow.tasks)
    (outside : ¬ ReflTransGen left.workflow.Edge changed taskId) :
    (∃ leftUp rightUp, left.blamed leftEnv order taskId = some leftUp ∧
      right.blamed rightEnv order taskId = some rightUp) ∨
    left.blamed leftEnv order taskId = none ∧ right.blamed rightEnv order taskId = none := by
  have sameState := (agree.settled leftOne rightOne leftRan rightRan known outside).1
  have leftBlames := blamesAs_of_runSequential leftOne computed leftRan taskId
  have rightBlames := blamesAs_of_runSequential rightOne
    (agree.topologicalOrder.trans computed) rightRan taskId
  cases leftBlamed : left.blamed leftEnv order taskId with
  | some leftUp =>
      cases rightBlamed : right.blamed rightEnv order taskId with
      | some rightUp => exact .inl ⟨leftUp, rightUp, rfl, rfl⟩
      | none =>
          rw [leftBlamed] at leftBlames
          rw [rightBlamed] at rightBlames
          exact absurd (sameState.trans leftBlames.1) rightBlames
  | none =>
      cases rightBlamed : right.blamed rightEnv order taskId with
      | some rightUp =>
          rw [leftBlamed] at leftBlames
          rw [rightBlamed] at rightBlames
          exact absurd (sameState.symm.trans rightBlames.1) leftBlames
      | none => exact .inr ⟨rfl, rfl⟩

/-- It ends with the same error when the same failed task is blamed. -/
theorem AgreeOutside.error_eq_iff (agree : AgreeOutside changed left right leftEnv rightEnv)
    (leftOne : left.maxWorkers = 1) (rightOne : right.maxWorkers = 1)
    (computed : left.topologicalOrder = .ok order)
    (leftRan : (left.runSequential leftEnv).run (left.created leftEnv) = .ok () leftFinal)
    (rightRan : (right.runSequential rightEnv).run (right.created rightEnv) = .ok () rightFinal)
    (known : taskId ∈ left.workflow.tasks)
    (outside : ¬ ReflTransGen left.workflow.Edge changed taskId) :
    (rightFinal.recordOf taskId).error = (leftFinal.recordOf taskId).error ↔
      right.blamed rightEnv order taskId = left.blamed leftEnv order taskId := by
  rw [error_of_runSequential leftOne computed leftRan known,
    error_of_runSequential rightOne (agree.topologicalOrder.trans computed) rightRan
      (agree.workflow ▸ known)]
  rcases agree.blamed_cases leftOne rightOne computed leftRan rightRan known outside with
    ⟨leftUp, rightUp, leftBlamed, rightBlamed⟩ | ⟨leftNone, rightNone⟩
  · rw [leftBlamed, rightBlamed, Option.some_inj, Option.some_inj]
    exact ⟨blockedText_inj, congrArg fun up => s!"upstream task '{up}' failed"⟩
  · rw [leftNone, rightNone]
    refine iff_of_true ?_ rfl
    dsimp only
    rw [(agree.settled leftOne rightOne leftRan rightRan known outside).2,
      agree.lastError outside]

/-- So it does when at most one task above it has failed. -/
theorem AgreeOutside.error_eq_of_single (agree : AgreeOutside changed left right leftEnv rightEnv)
    (leftOne : left.maxWorkers = 1) (rightOne : right.maxWorkers = 1)
    (leftRan : (left.runSequential leftEnv).run (left.created leftEnv) = .ok () leftFinal)
    (rightRan : (right.runSequential rightEnv).run (right.created rightEnv) = .ok () rightFinal)
    (known : taskId ∈ left.workflow.tasks)
    (outside : ¬ ReflTransGen left.workflow.Edge changed taskId)
    (single : ∀ up other, TransGen left.workflow.Edge up taskId →
      TransGen left.workflow.Edge other taskId → left.outcome leftEnv up = .failed →
      left.outcome leftEnv other = .failed → up = other) :
    (rightFinal.recordOf taskId).error = (leftFinal.recordOf taskId).error := by
  obtain ⟨order, computed, _⟩ := WorkflowEngine.topologicalOrder_eq_ok left.valid
  refine (agree.error_eq_iff leftOne rightOne computed leftRan rightRan known outside).mpr ?_
  rcases agree.blamed_cases leftOne rightOne computed leftRan rightRan known outside with
    ⟨leftUp, rightUp, leftBlamed, rightBlamed⟩ | ⟨leftNone, rightNone⟩
  · obtain ⟨leftAbove, leftFailed⟩ := AcceptedEngine.failed_of_blamed leftBlamed
    obtain ⟨rightAbove, rightFailed⟩ := AcceptedEngine.failed_of_blamed rightBlamed
    rw [agree.workflow] at rightAbove
    have upOutside : ¬ ReflTransGen left.workflow.Edge changed rightUp :=
      fun above => outside (above.trans rightAbove.to_reflTransGen)
    rw [agree.outcome upOutside] at rightFailed
    rw [leftBlamed, rightBlamed, single leftUp rightUp leftAbove rightAbove leftFailed rightFailed]
  · rw [leftNone, rightNone]

end

/-! ## Two joins that share an upstream -/

/-- The sequential run of a workflow whose turns were evaluated. -/
theorem runSequential_of_driveAll (one : engine.maxWorkers = 1) (noOverflow : engine.NoOverflow env)
    {order : List String} (computed : engine.topologicalOrder = .ok order) {steps : ℕ}
    (driven : engine.driveAll env steps order (endState (beginRun env) (engine.created env)) =
      some state) : ∃ final,
    (engine.runSequential env).run (engine.created env) = .ok () final ∧
      ∀ taskId, final.view taskId = state.view taskId := by
  obtain ⟨machine, ran, _⟩ := runSequential_eq_ok one noOverflow
  obtain ⟨other, executed, views⟩ := executed_of_runSequential computed ran
  cases executed.unique (executed_of_driveAll driven)
  exact ⟨machine.shared, ran, views⟩

/-- The tasks `p` and `s` are all that differs between the two runs of the crossing. -/
theorem agreeOutside_crossing :
    AgreeOutside "p" (crossing false) (crossing true) { runId := "run" } { runId := "run" } where
  workflow := rfl
  iterate := rfl
  results taskId outside attempt := by
    have notFirst : (taskId == "p") = false := by
      simpa using fun same : taskId = "p" => outside (same ▸ .refl)
    have found : (crossing true).tasks.get? taskId = (crossing false).tasks.get? taskId := by
      simp only [crossing, OrderedDict.get?, List.lookup_cons, notFirst]
    rw [attemptResult, attemptResult, found]
    rfl

theorem crossing_errors (fails : Bool) : ∃ final,
    ((crossing fails).runSequential { runId := "run" }).run
        ((crossing fails).created { runId := "run" }) = .ok () final ∧
      (final.recordOf "t").error =
        some (if fails then "upstream task 'q' failed" else "upstream task 'r' failed") := by
  have order : (crossing fails).topologicalOrder = .ok ["p", "q", "r", "s", "t"] := by
    cases fails with
    | false => decide +kernel
    | true => decide +kernel
  have shown : ((crossing fails).driveAll { runId := "run" } 20 ["p", "q", "r", "s", "t"]
      (endState (beginRun { runId := "run" }) ((crossing fails).created { runId := "run" }))).map
        (fun state => (state.recordOf "t").error) =
      some (some (if fails then "upstream task 'q' failed" else "upstream task 'r' failed")) := by
    cases fails with
    | false => decide +kernel
    | true => decide +kernel
  obtain ⟨state, driven, error⟩ := Option.map_eq_some_iff.mp shown
  obtain ⟨final, ran, views⟩ := runSequential_of_driveAll rfl
    (WorkflowEngine.noOverflow_exact _ rfl) order driven
  refine ⟨final, ran, ?_⟩
  rw [RunState.recordOf_eq, views]
  exact error

theorem crossing_outside : ¬ ReflTransGen (crossing false).workflow.Edge "p" "t" := by
  have joins : ∀ up, (crossing false).workflow.Edge up "t" → up = "q" ∨ up = "r" := by
    intro up edge
    have member : up ∈ ({"q", "r"} : Finset String) :=
      (show (crossing false).workflow.upstream "t" = {"q", "r"} by decide +kernel) ▸ edge
    simpa using member
  have noUpstream : ∀ taskId, taskId = "q" ∨ taskId = "r" →
      (crossing false).workflow.upstream taskId = ∅ := by
    rintro taskId (rfl | rfl)
    · decide +kernel
    · decide +kernel
  intro above
  obtain same | ⟨up, toUp, edge⟩ := above.cases_tail
  · exact absurd same (by decide)
  · have isJoined := joins up edge
    obtain rfl | ⟨other, _, upEdge⟩ := toUp.cases_tail
    · exact absurd isJoined (by decide)
    · rw [Workflow.Edge, noUpstream up isJoined] at upEdge
      exact absurd upEdge (Finset.notMem_empty other)

/-- **A task that is neither the changed one nor below it ends in the same state
after the same number of attempts, and with the same error exactly when the first
walk above it starts from the same failed task.** That is so when at most one task
above it has failed. -/
theorem independent_tasks_iff (left right : AcceptedEngine) (leftEnv rightEnv : Env)
    {changed : String} (agree : AgreeOutside changed left right leftEnv rightEnv)
    (leftOne : left.maxWorkers = 1) (rightOne : right.maxWorkers = 1) {order : List String}
    (computed : left.topologicalOrder = .ok order) {leftFinal rightFinal : RunState}
    (leftRan : (left.runSequential leftEnv).run (left.created leftEnv) = .ok () leftFinal)
    (rightRan : (right.runSequential rightEnv).run (right.created rightEnv) = .ok () rightFinal) :
    (∀ taskId ∈ left.workflow.tasks, ¬ ReflTransGen left.workflow.Edge changed taskId →
      rightFinal.stateOf taskId = leftFinal.stateOf taskId ∧
        (rightFinal.recordOf taskId).attempts = (leftFinal.recordOf taskId).attempts) ∧
    ((∀ taskId ∈ left.workflow.tasks, ¬ ReflTransGen left.workflow.Edge changed taskId →
        (rightFinal.recordOf taskId).error = (leftFinal.recordOf taskId).error) ↔
      ∀ taskId ∈ left.workflow.tasks, ¬ ReflTransGen left.workflow.Edge changed taskId →
        right.blamed rightEnv order taskId = left.blamed leftEnv order taskId) ∧
    ∀ taskId ∈ left.workflow.tasks, ¬ ReflTransGen left.workflow.Edge changed taskId →
      (∀ up other, TransGen left.workflow.Edge up taskId →
        TransGen left.workflow.Edge other taskId → left.outcome leftEnv up = .failed →
        left.outcome leftEnv other = .failed → up = other) →
      (rightFinal.recordOf taskId).error = (leftFinal.recordOf taskId).error := by
  refine ⟨?_, ?_, ?_⟩
  · intro taskId known outside
    exact agree.settled leftOne rightOne leftRan rightRan known outside
  · apply forall₂_congr
    intro taskId known
    apply forall_congr'
    intro outside
    exact agree.error_eq_iff leftOne rightOne computed leftRan rightRan known outside
  · intro taskId known outside single
    exact agree.error_eq_of_single leftOne rightOne leftRan rightRan known outside single

theorem independent_tasks_crossing : ∃ leftFinal rightFinal,
    ((crossing false).runSequential { runId := "run" }).run
      ((crossing false).created { runId := "run" }) = .ok () leftFinal ∧
    ((crossing true).runSequential { runId := "run" }).run
      ((crossing true).created { runId := "run" }) = .ok () rightFinal ∧
    rightFinal.stateOf "t" = leftFinal.stateOf "t" ∧
    ¬ ∀ taskId ∈ (crossing false).workflow.tasks,
      ¬ ReflTransGen (crossing false).workflow.Edge "p" taskId →
      (crossing true).blamed { runId := "run" } ["p", "q", "r", "s", "t"] taskId =
        (crossing false).blamed { runId := "run" } ["p", "q", "r", "s", "t"] taskId := by
  obtain ⟨leftFinal, leftRan, leftError⟩ := crossing_errors false
  obtain ⟨rightFinal, rightRan, rightError⟩ := crossing_errors true
  obtain ⟨settled, errors, _⟩ := independent_tasks_iff (crossing false) (crossing true)
    { runId := "run" } { runId := "run" } agreeOutside_crossing rfl rfl rfl leftRan rightRan
  refine ⟨leftFinal, rightFinal, leftRan, rightRan,
    (settled "t" (by decide) crossing_outside).1, fun blamed => ?_⟩
  have same := errors.mpr blamed "t" (by decide) crossing_outside
  rw [leftError, rightError] at same
  exact absurd same (by decide)

/-- The error of `t` changes with the callable of `p`, although `t` does not depend
on `p`. -/
theorem independent_error_changes : ∃ leftFinal rightFinal,
    AgreeOutside "p" (crossing false) (crossing true) { runId := "run" } { runId := "run" } ∧
    ((crossing false).runSequential { runId := "run" }).run
      ((crossing false).created { runId := "run" }) = .ok () leftFinal ∧
    ((crossing true).runSequential { runId := "run" }).run
      ((crossing true).created { runId := "run" }) = .ok () rightFinal ∧
    "t" ∈ (crossing false).workflow.tasks ∧
    ¬ ReflTransGen (crossing false).workflow.Edge "p" "t" ∧
    (leftFinal.recordOf "t").error = some "upstream task 'r' failed" ∧
    (rightFinal.recordOf "t").error = some "upstream task 'q' failed" := by
  obtain ⟨leftFinal, leftRan, leftError⟩ := crossing_errors false
  obtain ⟨rightFinal, rightRan, rightError⟩ := crossing_errors true
  exact ⟨leftFinal, rightFinal, agreeOutside_crossing, leftRan, rightRan, by decide,
    crossing_outside, leftError, rightError⟩

end EtlOrchestrator
