import EtlOrchestrator.Engine.LogText
import EtlOrchestrator.Engine.Turns

/-!
# What the iteration order of a set decides

The upstreams of a task form a set, and `_block_if_upstream_failed` iterates it
without sorting and breaks at the first failed one. Python iterates a set of
strings in an order that varies between processes, so which failed upstream is
blamed varies with it.

Sequential runs that differ in these orders only are the same as long as no task
is executed that is pending while two of its upstreams have failed. As soon as
there is one, two orders give its record different errors.
-/

set_option autoImplicit false

namespace EtlOrchestrator

open SortedSet BlockingEvaluation Relation WorkflowEngine

/-! ## Programs that iterate no set -/

/-- The environments differ in the orders of iteration only. -/
structure Env.SameSettings (env other : Env) : Prop where
  runId : other.runId = env.runId
  params : other.params = env.params
  clock : other.clock = env.clock
  arithmetic : other.arithmetic = env.arithmetic

namespace Env.SameSettings

variable {engine : WorkflowEngine} {env other : Env}

theorem created (same : env.SameSettings other) : engine.created other = engine.created env := by
  rw [WorkflowEngine.created, WorkflowEngine.created, same.runId]

theorem beginRun (same : env.SameSettings other) :
    WorkflowEngine.beginRun other = WorkflowEngine.beginRun env := by
  obtain ⟨runId, params, clock, arithmetic, iterate⟩ := env
  obtain ⟨otherRunId, otherParams, otherClock, otherArithmetic, otherIterate⟩ := other
  obtain ⟨rfl, rfl, rfl, rfl⟩ := same
  rfl

theorem finishRun (same : env.SameSettings other) :
    WorkflowEngine.finishRun other = WorkflowEngine.finishRun env := by
  obtain ⟨runId, params, clock, arithmetic, iterate⟩ := env
  obtain ⟨otherRunId, otherParams, otherClock, otherArithmetic, otherIterate⟩ := other
  obtain ⟨rfl, rfl, rfl, rfl⟩ := same
  rfl

theorem walkDownstream (same : env.SameSettings other) (failedTaskId : String)
    (toVisit : List String) (visited : Finset String) :
    engine.walkDownstream other failedTaskId toVisit visited =
      engine.walkDownstream env failedTaskId toVisit visited := by
  have blockTask : WorkflowEngine.blockTask other = WorkflowEngine.blockTask env := by
    unfold WorkflowEngine.blockTask Exec.now
    rw [same.clock]
  induction toVisit, visited using walkDownstream.induct engine with
  | case1 visited => rw [WorkflowEngine.walkDownstream, WorkflowEngine.walkDownstream]
  | case2 visited dependent rest seen ih =>
      rw [WorkflowEngine.walkDownstream, if_pos seen, ih, WorkflowEngine.walkDownstream,
        if_pos seen]
  | case3 visited dependent rest fresh ih =>
      rw [WorkflowEngine.walkDownstream, if_neg fresh, ih, WorkflowEngine.walkDownstream,
        if_neg fresh, blockTask]

theorem runAttempts (same : env.SameSettings other) (taskId : String) (task : Task) (attempt : ℕ) :
    engine.runAttempts other taskId task attempt = engine.runAttempts env taskId task attempt := by
  have now : Exec.now other = Exec.now env := by
    unfold Exec.now
    rw [same.clock]
  have start : startAttempt other = startAttempt env := by
    unfold startAttempt
    rw [now]
  have call : engine.callTask other = engine.callTask env := by
    unfold callTask WorkflowEngine.context
    rw [same.runId, same.params]
  have fail : failAttempt other = failAttempt env := by
    unfold failAttempt
    rw [now]
  have succeed : succeedAttempt other = succeedAttempt env := by
    unfold succeedAttempt
    rw [now]
  have retry : scheduleRetry other = scheduleRetry env := by
    unfold scheduleRetry checkRetry markRetrying
    rw [now, same.arithmetic]
  induction attempt using runAttempts.induct task with
  | case1 attempt ih =>
      rw [WorkflowEngine.runAttempts.eq_1 engine other, WorkflowEngine.runAttempts.eq_1 engine env,
        start, call, fail, succeed, retry]
      by_cases remaining : attempt < task.maxAttempts
      · simp only [dif_pos remaining, ih remaining]
      · simp only [dif_neg remaining]

theorem afterSearch (same : env.SameSettings other) (taskId : String) :
    engine.afterSearch other taskId = engine.afterSearch env taskId := by
  have makeAttempts : engine.makeAttempts other taskId = engine.makeAttempts env taskId :=
    bind_congr fun _ => bind_congr fun _ => same.runAttempts taskId _ _
  rw [WorkflowEngine.afterSearch, WorkflowEngine.afterSearch, makeAttempts]

/-- Tasks are executed alike when their searches end alike. -/
theorem executeTask (same : env.SameSettings other) {taskId : String} {state : RunState}
    (recorded : engine.UpstreamsRecorded state taskId)
    (sameFound : state.stateOf taskId = .pending →
      engine.failedUpstream other state taskId = engine.failedUpstream env state taskId) :
    (engine.executeTask other taskId).run state = (engine.executeTask env taskId).run state := by
  by_cases pending : state.stateOf taskId = .pending
  · have blockDownstream : engine.blockDownstream other = engine.blockDownstream env := by
      funext failedTaskId
      exact same.walkDownstream failedTaskId _ ∅
    rw [executeTask_run recorded pending, executeTask_run recorded pending, sameFound pending,
      same.afterSearch, blockDownstream]
  · have current : (state.record taskId).stateOf taskId ≠ .pending := by
      rwa [RunState.stateOf_record]
    simp only [WorkflowEngine.executeTask, EStateM.run_bind, Exec.run_record, Exec.run_stateOf,
      if_pos current]

end Env.SameSettings

/-! ## Orders of iteration -/

/-- The environment that iterates every set from one member on. -/
def Env.leading (env : Env) (first : String) : Env where
  runId := env.runId
  params := env.params
  clock := env.clock
  arithmetic := env.arithmetic
  iterate taskId set :=
    if first ∈ set then first :: (env.iterate taskId set).erase first else env.iterate taskId set
  mem_iterate taskId set member := by
    by_cases isMember : first ∈ set
    · rw [if_pos isMember, List.mem_cons, (env.iterate_nodup taskId set).mem_erase_iff,
        env.mem_iterate]
      by_cases same : member = first
      · simp [same, isMember]
      · simp [same]
    · rw [if_neg isMember, env.mem_iterate]
  iterate_nodup taskId set := by
    split
    · exact List.nodup_cons.mpr ⟨(env.iterate_nodup taskId set).not_mem_erase,
        (env.iterate_nodup taskId set).erase first⟩
    · exact env.iterate_nodup taskId set

theorem Env.sameSettings_leading (env : Env) (first : String) :
    env.SameSettings (env.leading first) :=
  ⟨rfl, rfl, rfl, rfl⟩

section

variable {engine : WorkflowEngine} {env other : Env} {taskId up : String} {state : RunState}

/-- The search ends at a failed upstream that is iterated first. -/
theorem failedUpstream_leading (edge : engine.workflow.Edge up taskId)
    (failed : state.hasFailed up = true) :
    engine.failedUpstream (env.leading up) state taskId = some up := by
  have leads : (env.leading up).iterate taskId (engine.workflow.upstream taskId) =
      up :: (env.iterate taskId (engine.workflow.upstream taskId)).erase up := if_pos edge
  rw [failedUpstream, leads, List.find?_cons_of_pos failed]

/-- When no two upstreams have failed, the search ends alike in every order. -/
theorem failedUpstream_eq_of_unique (unique : ∀ up other, engine.workflow.Edge up taskId →
      engine.workflow.Edge other taskId → state.hasFailed up = true →
      state.hasFailed other = true → up = other) :
    engine.failedUpstream other state taskId = engine.failedUpstream env state taskId := by
  cases found : engine.failedUpstream env state taskId with
  | none => exact failedUpstream_eq_none_iff.mpr (failedUpstream_eq_none_iff.mp found)
  | some up =>
      obtain ⟨edge, failed⟩ := edge_of_failedUpstream found
      cases otherFound : engine.failedUpstream other state taskId with
      | none => exact absurd failed (failedUpstream_eq_none_iff.mp otherFound up edge)
      | some otherUp =>
          obtain ⟨otherEdge, otherFailed⟩ := edge_of_failedUpstream otherFound
          rw [unique otherUp up otherEdge edge otherFailed failed]

end

/-! ## Reports -/

/-- Two runs have written the same log and the same error texts. -/
structure SameReport (first second : RunState) : Prop where
  log : first.run.log.map LogEntry.text = second.run.log.map LogEntry.text
  errors : ∀ taskId, (first.recordOf taskId).error = (second.recordOf taskId).error

/-- No task is pending at its turn while two of its upstreams have failed. -/
def AcceptedEngine.OneFailedUpstream (engine : AcceptedEngine) (env : Env) : Prop :=
  ∀ before taskId later state,
    engine.topologicalOrder = .ok (before ++ taskId :: later) →
    engine.Executed env before state → state.stateOf taskId = .pending →
    ∀ up other, engine.workflow.Edge up taskId → engine.workflow.Edge other taskId →
      state.stateOf up = .failed → state.stateOf other = .failed → up = other

variable {engine : AcceptedEngine} {env other : Env} {taskId up : String}
  {before later : List String} {state : RunState}

namespace AtTurn

theorem upstreamsRecorded (turn : AtTurn engine env before taskId state) :
    engine.UpstreamsRecorded state taskId :=
  fun up edge => turn.recorded up (turn.upstream up edge)

theorem failed_of_hasFailed (turn : AtTurn engine env before taskId state)
    (pending : state.stateOf taskId = .pending) (edge : engine.workflow.Edge up taskId)
    (failed : state.hasFailed up = true) : state.stateOf up = .failed :=
  (RunState.hasFailed_iff.mp failed).resolve_right (turn.unmarked pending up edge)

end AtTurn

/-- Without two failed upstreams the rest of the run is the same in every order. -/
theorem AcceptedEngine.OneFailedUpstream.executeAll (one : engine.maxWorkers = 1)
    (only : engine.OneFailedUpstream env) (same : env.SameSettings other)
    (later : List String) : ∀ before state,
      engine.topologicalOrder = .ok (before ++ later) → engine.Executed env before state →
      (engine.executeAll other later).run state = (engine.executeAll env later).run state := by
  induction later with
  | nil => exact fun _ _ _ _ => rfl
  | cons taskId rest ih =>
      intro before state computed executed
      have turn := executed.atTurn one computed
      have step : (engine.executeTask other taskId).run state =
          (engine.executeTask env taskId).run state := by
        refine same.executeTask turn.upstreamsRecorded fun pending =>
          failedUpstream_eq_of_unique fun up otherUp edge otherEdge failed otherFailed => ?_
        exact only before taskId rest state computed executed pending up otherUp edge otherEdge
          (turn.failed_of_hasFailed pending edge failed)
          (turn.failed_of_hasFailed pending otherEdge otherFailed)
      rw [WorkflowEngine.executeAll, WorkflowEngine.executeAll, EStateM.run_bind,
        EStateM.run_bind, step]
      cases ran : (engine.executeTask env taskId).run state with
      | error _ _ => rfl
      | ok _ after =>
          refine ih (before ++ [taskId]) after ?_ (executed_concat_iff.mpr ⟨state, executed, ran⟩)
          rw [computed, List.append_assoc, List.singleton_append]

/-- So is the whole run. -/
theorem AcceptedEngine.OneFailedUpstream.endState (one : engine.maxWorkers = 1)
    (only : engine.OneFailedUpstream env) (same : env.SameSettings other) :
    endState (engine.runSequential other) (engine.created other) =
      endState (engine.runSequential env) (engine.created env) := by
  obtain ⟨order, computed, _⟩ := WorkflowEngine.topologicalOrder_eq_ok engine.valid
  obtain ⟨begun, began, _⟩ := engine.beginRun_view env
  have executed : engine.Executed env [] begun := executed_nil_iff.mpr began
  have otherExecuted : engine.Executed other [] begun := by
    rw [executed_nil_iff, same.beginRun, same.created]
    exact began
  rw [executed.endState_runSequential computed, otherExecuted.endState_runSequential computed,
    same.finishRun]
  apply endState_congr
  rw [EStateM.run_bind, EStateM.run_bind, only.executeAll one same order [] begun computed executed]

/-- A task that is blocked at its turn keeps its error to the end of the run. -/
theorem error_of_failedUpstream (one : engine.maxWorkers = 1)
    (computed : engine.topologicalOrder = .ok (before ++ taskId :: later))
    (executed : engine.Executed env before state) (pending : state.stateOf taskId = .pending)
    (found : engine.failedUpstream env state taskId = some up) :
    ((endState (engine.runSequential env) (engine.created env)).recordOf taskId).error =
      some s!"upstream task '{up}' failed" := by
  have turn := executed.atTurn one computed
  obtain ⟨after, ran, marks⟩ := executeTask_of_failedUpstream turn.upstreamsRecorded pending found
  have below := TransGen.single (edge_of_failedUpstream found).1
  have next : engine.Executed env (before ++ [taskId]) after :=
    executed_concat_iff.mpr ⟨state, executed, ran⟩
  have order : engine.topologicalOrder = .ok ((before ++ [taskId]) ++ later) := by
    rw [computed, List.append_assoc, List.singleton_append]
  rw [next.endState_runSequential order]
  have kept : Respects (KeepsMarked taskId)
      (engine.executeAll env later >>= fun _ => finishRun env) :=
    (KeepsMarked.executeAll env later).bind fun _ =>
      (SameViews.finishRun env).mono fun _ _ same _ => same taskId
  have view := kept.at_end after (marks.stateOf below pending)
  rw [RunState.recordOf_eq, view]
  exact marks.error below pending

theorem blockedText_inj {up other : String}
    (same : s!"upstream task '{up}' failed" = s!"upstream task '{other}' failed") : up = other := by
  have texts : toString up = toString other := by simpa using same
  exact texts

/-- When all reports agree, a pending task has at most one failed upstream. -/
theorem up_eq_of_reports (one : engine.maxWorkers = 1)
    (reports : ∀ first second, env.SameSettings first → env.SameSettings second →
      SameReport (endState (engine.runSequential first) (engine.created first))
        (endState (engine.runSequential second) (engine.created second)))
    (computed : engine.topologicalOrder = .ok (before ++ taskId :: later))
    (executed : ∀ other, env.SameSettings other → engine.Executed other before state)
    (pending : state.stateOf taskId = .pending) {other : String}
    (edge : engine.workflow.Edge up taskId) (otherEdge : engine.workflow.Edge other taskId)
    (failed : state.hasFailed up = true) (otherFailed : state.hasFailed other = true) :
    up = other := by
  have first := error_of_failedUpstream one computed (executed _ (env.sameSettings_leading up))
    pending (failedUpstream_leading edge failed)
  have second := error_of_failedUpstream one computed
    (executed _ (env.sameSettings_leading other)) pending
    (failedUpstream_leading otherEdge otherFailed)
  have same := (reports _ _ (env.sameSettings_leading up) (env.sameSettings_leading other)).errors
    taskId
  rw [first, second, Option.some_inj] at same
  exact blockedText_inj same

/-- When all reports agree, all runs go through the same states. -/
theorem executed_of_reports (one : engine.maxWorkers = 1)
    (reports : ∀ first second, env.SameSettings first → env.SameSettings second →
      SameReport (endState (engine.runSequential first) (engine.created first))
        (endState (engine.runSequential second) (engine.created second)))
    (before : List String) : ∀ later state,
      engine.topologicalOrder = .ok (before ++ later) → engine.Executed env before state →
      ∀ other, env.SameSettings other → engine.Executed other before state := by
  induction before using List.reverseRecOn with
  | nil =>
      intro later state computed executed other same
      rw [executed_nil_iff, same.beginRun, same.created]
      exact executed_nil_iff.mp executed
  | append_singleton earlier taskId ih =>
      intro later after computed executed other same
      rw [List.append_assoc, List.singleton_append] at computed
      obtain ⟨state, earlierExecuted, ran⟩ := executed_concat_iff.mp executed
      have all := ih (taskId :: later) state computed earlierExecuted
      have turn := earlierExecuted.atTurn one computed
      refine executed_concat_iff.mpr ⟨state, all other same, ?_⟩
      rw [same.executeTask turn.upstreamsRecorded fun pending => ?_]
      · exact ran
      · exact failedUpstream_eq_of_unique fun up otherUp edge otherEdge failed otherFailed =>
          up_eq_of_reports one reports computed all pending edge otherEdge failed otherFailed

/-- **Sequential runs that differ in the iteration orders of the upstream sets
write the same log and the same error texts exactly when no task is pending at its
turn while two of its upstreams have failed.** -/
theorem same_report_iff (engine : AcceptedEngine) (env : Env) (one : engine.maxWorkers = 1) :
    (∀ first second, env.SameSettings first → env.SameSettings second →
      SameReport (endState (engine.runSequential first) (engine.created first))
        (endState (engine.runSequential second) (engine.created second))) ↔
      engine.OneFailedUpstream env := by
  constructor
  · intro reports before taskId later state computed executed pending up other edge otherEdge
      failed otherFailed
    exact up_eq_of_reports one reports computed
      (executed_of_reports one reports before (taskId :: later) state computed executed) pending
      edge otherEdge (RunState.hasFailed_iff.mpr (.inl failed))
      (RunState.hasFailed_iff.mpr (.inl otherFailed))
  · intro only first second sameFirst sameSecond
    rw [only.endState one sameFirst, only.endState one sameSecond]
    exact ⟨rfl, fun _ => rfl⟩

/-- When only `q` and `r` fail, the first join has one failed upstream, and the second one is
blocked before its turn. -/
theorem crossing_oneFailedUpstream :
    (crossing false).OneFailedUpstream { runId := "run" } := by
  intro before taskId later state computed executed pending up other edge otherEdge failed
    otherFailed
  have order : (crossing false).topologicalOrder = .ok ["p", "q", "r", "s", "t"] := by rfl
  have split : ["p", "q", "r", "s", "t"] = before ++ taskId :: later :=
    Except.ok.inj (order.symm.trans computed)
  have joins : taskId ∈ ["s", "t"] := edge.mem_dependencies
  simp only [List.mem_cons, List.not_mem_nil, or_false] at joins
  rcases joins with rfl | rfl
  · have begun : ["p", "q", "r"] = before :=
      ((List.append_cons_inj_of_notMem (by decide) (by decide)).mp
        (show ["p", "q", "r"] ++ "s" :: ["t"] = before ++ "s" :: later from split)).1
    subst begun
    have shown : ((crossing false).driveAll { runId := "run" } 20 ["p", "q", "r"]
        (endState (beginRun { runId := "run" }) ((crossing false).created { runId := "run" }))).map
          (fun state => (state.stateOf "p")) = some .success := by decide +kernel
    obtain ⟨reached, driven, succeeded⟩ := Option.map_eq_some_iff.mp shown
    have same : reached = state := executed.unique (executed_of_driveAll driven)
    subst same
    have onlyR : ∀ up, (crossing false).workflow.Edge up "s" → reached.stateOf up = .failed →
        up = "r" := by
      intro up edge failed
      have member : up ∈ ({"p", "r"} : Finset String) := edge
      rcases Finset.mem_insert.mp member with rfl | last
      · cases succeeded.symm.trans failed
      · exact Finset.mem_singleton.mp last
    rw [onlyR up edge failed, onlyR other otherEdge otherFailed]
  · have begun : ["p", "q", "r", "s"] = before :=
      ((List.append_cons_inj_of_notMem (by decide) (by decide)).mp
        (show ["p", "q", "r", "s"] ++ "t" :: [] = before ++ "t" :: later from split)).1
    subst begun
    have shown : ((crossing false).driveAll { runId := "run" } 20 ["p", "q", "r", "s"]
        (endState (beginRun { runId := "run" }) ((crossing false).created { runId := "run" }))).map
          (fun state => (state.stateOf "t")) = some .upstreamFailed := by decide +kernel
    obtain ⟨reached, driven, blocked⟩ := Option.map_eq_some_iff.mp shown
    have same : reached = state := executed.unique (executed_of_driveAll driven)
    subst same
    cases blocked.symm.trans pending

/-- A join of a task that succeeds and one that fails, iterated in both orders. -/
theorem same_report_crossing :
    (crossing false).workflow.upstream "s" = {"p", "r"} ∧
    (crossing false).OneFailedUpstream { runId := "run" } ∧
    SameReport
      (endState ((crossing false).runSequential { runId := "run" })
        ((crossing false).created { runId := "run" }))
      (endState ((crossing false).runSequential (Env.leading { runId := "run" } "r"))
        ((crossing false).created (Env.leading { runId := "run" } "r"))) :=
  ⟨by decide +kernel, crossing_oneFailedUpstream,
    (same_report_iff (crossing false) { runId := "run" } rfl).mpr crossing_oneFailedUpstream _ _
      ⟨rfl, rfl, rfl, rfl⟩ (Env.sameSettings_leading _ "r")⟩

/-- When both upstreams of a join have failed, the order in which they are iterated
decides which of them is blamed. -/
theorem reports_differ_of_two_failed : ∃ first second,
    Env.SameSettings { runId := "run" } first ∧ Env.SameSettings { runId := "run" } second ∧
    ((endState ((crossing true).runSequential first)
      ((crossing true).created first)).recordOf "s").error = some "upstream task 'p' failed" ∧
    ((endState ((crossing true).runSequential second)
      ((crossing true).created second)).recordOf "s").error = some "upstream task 'r' failed" ∧
    ¬ SameReport
      (endState ((crossing true).runSequential first) ((crossing true).created first))
      (endState ((crossing true).runSequential second) ((crossing true).created second)) := by
  have order : (crossing true).topologicalOrder = .ok ["p", "q", "r", "s", "t"] := by rfl
  have blames : ∀ env up,
      ((crossing true).driveAll env 20 ["p", "q", "r"] (endState (beginRun env)
        ((crossing true).created env))).map (fun state =>
          (state.stateOf "s", (crossing true).failedUpstream env state "s")) =
        some (.pending, some up) →
      ((endState ((crossing true).runSequential env)
        ((crossing true).created env)).recordOf "s").error =
          some s!"upstream task '{up}' failed" := by
    intro env up shown
    obtain ⟨state, driven, shows⟩ := Option.map_eq_some_iff.mp shown
    obtain ⟨pending, found⟩ := Prod.mk.inj shows
    exact error_of_failedUpstream rfl order (executed_of_driveAll driven) pending found
  have first := blames { runId := "run" } "p" (by decide +kernel)
  have second := blames (Env.leading { runId := "run" } "r") "r" (by decide +kernel)
  refine ⟨_, _, ⟨rfl, rfl, rfl, rfl⟩, Env.sameSettings_leading _ "r", first, second,
    fun same => ?_⟩
  have errors := same.errors "s"
  rw [first, second, Option.some_inj] at errors
  exact absurd (blockedText_inj errors) (by decide)

end EtlOrchestrator
