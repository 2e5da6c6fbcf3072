import EtlOrchestrator.Cli.Sessions
import EtlOrchestrator.Engine.ErrorTexts
import EtlOrchestrator.Persistence.NewestFirst

/-!
# What is printed of a run

`workflow run` prints the state of each task in the resolved order, which is a linear extension of
the dependencies, and exits with 0 if and only if every task has succeeded
(`workflowRun_reports`). The later commands of a session print the stored runs: `workflow history`
lists the runs of a workflow from the latest start to the earliest, with the runs that have no start
at the end, `workflow status` shows the first of them, and `run show` any (`session_history`).
-/

set_option autoImplicit false

namespace EtlOrchestrator

open RunStore Commanding SortedSet Relation

/-! ## The report of `workflow run` -/

namespace Commanding

theorem run_printTasks {records : OrderedDict String TaskRunRecord} (order : List String) :
    ∀ terminal : Terminal, (∀ taskId ∈ order, taskId ∈ records) →
      (printTasks records order).run terminal = .ok () { terminal with
        lines := terminal.lines ++ order.flatMap fun taskId =>
          taskReport taskId (records.getD taskId { taskId }) } := by
  induction order with
  | nil =>
      intro terminal _
      simp [printTasks]
  | cons taskId rest ih =>
      intro terminal recorded
      obtain ⟨known, restKnown⟩ := List.forall_mem_cons.mp recorded
      obtain ⟨record, stored⟩ := OrderedDict.exists_get?_of_mem known
      have isRecord : records.getD taskId { taskId } = record := by
        rw [OrderedDict.getD, stored, Option.getD_some]
      simp only [printTasks, stored, EStateM.run_bind, run_echoAll]
      rw [ih _ restKnown, List.flatMap_cons, isRecord, List.append_assoc]

/-- A report prints the tasks, and exits with 1 unless the workflow has succeeded. -/
theorem run_reportRun {built : Workflow} {run : WorkflowRun} {order : List String}
    (ordered : built.topologicalOrder = .ok order) (recorded : ∀ taskId ∈ order,
      taskId ∈ run.records) (terminal : Terminal) : (reportRun built run).run terminal =
      let after : Terminal := { terminal with
        lines := terminal.lines ++ s!"run {run.runId}: {run.workflowState.value}" ::
          order.flatMap fun taskId => taskReport taskId (run.recordOf taskId) }
      if run.workflowState = .success then .ok () after
      else .error (.other "SystemExit" "1") after := by
  rw [reportRun, EStateM.run_bind, run_echo]
  dsimp only
  rw [EStateM.run_bind, ordered]
  dsimp only [Except.mapError]
  rw [run_ofExcept_ok]
  dsimp only
  rw [EStateM.run_bind, run_printTasks order _ recorded, List.append_assoc,
    List.singleton_append]
  dsimp only
  by_cases succeeded : run.workflowState = .success
  · rw [if_neg (not_not.mpr succeeded), if_pos succeeded]
    rfl
  · rw [if_pos succeeded, if_neg succeeded]
    rfl

end Commanding

/-- The record of a task at the end of a run: it is in the state and has the attempts of the
outcome. Its error is that of the last attempt that has raised or, for a task that was never
executed, the text that names a failed task above it. -/
structure ShowsOutcome (engine : AcceptedEngine) (env : Env) (run : WorkflowRun)
    (taskId : String) : Prop where
  settled : ((run.recordOf taskId).state, (run.recordOf taskId).attempts) =
    engine.settledAs taskId (engine.outcome env taskId)
  executed : (run.recordOf taskId).state ≠ .upstreamFailed → (run.recordOf taskId).error =
    engine.lastError taskId (engine.contexts env taskId (run.recordOf taskId).attempts)
  blocked : (run.recordOf taskId).state = .upstreamFailed → ∃ failed,
    (run.recordOf taskId).error = some s!"upstream task '{failed}' failed" ∧
      TransGen engine.workflow.Edge failed taskId ∧ (run.recordOf failed).state = .failed

theorem Reachable.showsOutcome {engine : AcceptedEngine} {env : Env} {machine : Machine}
    (run : engine.Steps env (engine.start env) machine) (returned : machine.status = .returned)
    {taskId : String} (known : taskId ∈ engine.workflow.tasks) :
    ShowsOutcome engine env machine.shared.run taskId where
  settled := (((Reachable.steps run).isResult returned).settles taskId known).agrees.1
  executed notMarked := Reachable.error_of_returned run returned known notMarked
  blocked marked := by
    obtain ⟨past, invariant, blames⟩ := Reachable.blames run
    obtain ⟨failed, names, _⟩ := blames.named taskId marked
    have settles := invariant.settles names.member
    rw [AcceptedEngine.Settles, names.outcome] at settles
    exact ⟨failed, names.error, names.above, settles.state⟩

namespace Commanding

variable {encoding : Encoding} (terminal : Terminal)

theorem run_workflowHistory {workflowId : String} {summaries : List RunSummary}
    (listed : listRuns encoding terminal.store (some workflowId) = .ok summaries) :
    (workflowHistory encoding workflowId).run terminal = .ok () { terminal with
      lines := terminal.lines ++ if summaries.isEmpty then
        [s!"no runs recorded for workflow '{workflowId}'"] else
          summaries.map (historyLine encoding) } := by
  rw [workflowHistory, EStateM.run_bind, run_withStore, EStateM.run_bind, EStateM.run_get]
  dsimp only
  rw [listed]
  dsimp only [ofExcept, EStateM.run_pure]
  cases summaries with
  | nil => exact run_echo _ _
  | cons summary rest => exact run_echoAll _ _

theorem run_workflowStatus_of_none {workflowId : String}
    (latest : latestRun encoding terminal.store workflowId = .ok none) :
    (workflowStatus encoding workflowId).run terminal = .ok () { terminal with
      lines := terminal.lines ++ [s!"no runs recorded for workflow '{workflowId}'"] } := by
  rw [workflowStatus, EStateM.run_bind, run_withStore, EStateM.run_bind, EStateM.run_get]
  dsimp only
  rw [EStateM.run_bind, latest]
  exact run_echo _ _

theorem run_workflowStatus_of_some {workflowId : String} {summary : RunSummary}
    {loaded : RunSnapshot}
    (latest : latestRun encoding terminal.store workflowId = .ok (some summary))
    (found : loadRun encoding terminal.store summary.runId = .ok (some loaded)) :
    (workflowStatus encoding workflowId).run terminal = .ok () { terminal with
      lines := terminal.lines ++ statusReport encoding summary loaded } := by
  rw [workflowStatus, EStateM.run_bind, run_withStore, EStateM.run_bind, EStateM.run_get]
  dsimp only
  rw [EStateM.run_bind, latest]
  dsimp only [ofExcept, EStateM.run_pure]
  rw [EStateM.run_bind, EStateM.run_get]
  dsimp only
  rw [EStateM.run_bind, found]
  exact run_echoAll _ _

theorem run_runShow {runId : String} {loaded : RunSnapshot}
    (found : loadRun encoding terminal.store runId = .ok (some loaded)) :
    (runShow encoding runId).run terminal =
      .ok () { terminal with lines := terminal.lines ++ showReport loaded } := by
  rw [runShow, EStateM.run_bind, run_withStore, EStateM.run_bind, EStateM.run_get]
  dsimp only
  rw [found]
  exact run_echoAll _ _

end Commanding

/-- The records that are printed of a run are those that it was saved with. -/
theorem RunSnapshot.Same.sortedRecords {run other : RunSnapshot} (same : run.Same other) :
    run.sortedRecords = other.sortedRecords := by
  have keys : run.records.keySet = other.records.keySet := by
    ext taskId
    simp only [OrderedDict.mem_keySet, OrderedDict.mem_iff_get?_isSome, same.records taskId]
  have records : ∀ taskId, run.records.getD taskId { taskId } =
      other.records.getD taskId { taskId } := fun taskId => by
    rw [OrderedDict.getD, OrderedDict.getD, same.records taskId]
  rw [RunSnapshot.sortedRecords, RunSnapshot.sortedRecords, keys]
  simp only [records]

theorem RunSnapshot.Same.statusReport {run other : RunSnapshot} (same : run.Same other)
    (encoding : Encoding) (summary : RunSummary) :
    EtlOrchestrator.statusReport encoding summary run =
      EtlOrchestrator.statusReport encoding summary other := by
  rw [EtlOrchestrator.statusReport, EtlOrchestrator.statusReport, same.sortedRecords]

theorem RunSnapshot.Same.showReport {run other : RunSnapshot} (same : run.Same other) :
    EtlOrchestrator.showReport run = EtlOrchestrator.showReport other := by
  rw [EtlOrchestrator.showReport, EtlOrchestrator.showReport, same.sortedRecords, same.workflowId,
    same.workflowState, same.log]

/-! ## The history of a session -/

/-- **At the end of a session `workflow history` prints the runs of a workflow that the session has
saved, each once, from the latest start to the earliest and then those without a start,
`workflow status` shows the first of them, and `run show` any saved run, each as it was saved.** -/
theorem session_history {encoding : Encoding} (writes : encoding.WritesTexts)
    (prints : encoding.PrintsIso) (processes : List Process)
    (distinct : ((processes.flatMap Process.saved).map RunSnapshot.runId).Nodup)
    (moments : ∀ run ∈ processes.flatMap Process.saved, ∀ instant,
      run.startedAt = some instant → ∃ moment : UtcDatetime, moment.instant = instant)
    (workflowId : String) :
    let store := Process.storeAfterAll encoding ∅ processes
    let nothing := [s!"no runs recorded for workflow '{workflowId}'"]
    ∃ listed, RunStore.IsHistory (· ∈ processes.flatMap Process.saved) (some workflowId) listed ∧
      ∀ process : Process,
        (process.command = .workflowHistory workflowId → process.error? encoding store = none ∧
          process.output encoding store = if listed = [] then nothing else
            listed.map fun run => historyLine encoding run.summary) ∧
        (process.command = .workflowStatus workflowId → process.error? encoding store = none ∧
          process.output encoding store = (listed.head?.map fun newest =>
            statusReport encoding newest.summary newest).getD nothing) ∧
        ∀ run ∈ processes.flatMap Process.saved, process.command = .runShow run.runId →
          process.error? encoding store = none ∧
            process.output encoding store = showReport run := by
  intro store nothing
  have lists : Lists encoding store (keptAfter [] (processes.flatMap Process.saved)) := by
    rw [show store = _ from Process.storeAfterAll_eq_saveAll encoding processes]
    have lists : Lists encoding (saveAll encoding ∅ (processes.flatMap Process.saved)) _ :=
      Lists.empty.saves _
    rwa [Process.returned_saved writes] at lists
  have sameRuns : (· ∈ keptAfter [] (processes.flatMap Process.saved)) =
      (· ∈ processes.flatMap Process.saved) :=
    funext fun run => propext (mem_keptAfter_iff.trans (lastSaved_eq_some_iff distinct))
  have chronological : encoding.Chronological
      (RunSnapshot.starts (keptAfter [] (processes.flatMap Process.saved))) := by
    refine prints.chronological fun instant member => ?_
    obtain ⟨run, kept, started⟩ := member
    exact moments run ((congrFun sameRuns run).mp kept) instant started
  obtain ⟨listed, returns, history⟩ :=
    lists.listRuns_eq (some workflowId) chronological (nodup_keptAfter _)
  rw [sameRuns] at history
  refine ⟨listed, history, fun process => ⟨fun isHistory => ?_, fun isStatus => ?_,
    fun run saved isShow => ?_⟩⟩
  · have ran := run_workflowHistory { store } returns
    rw [Process.error?, Process.output, Process.program, isHistory]
    dsimp only
    rw [ran]
    cases listed with
    | nil => exact ⟨rfl, rfl⟩
    | cons newest rest => exact ⟨rfl, by simp [Function.comp_def]⟩
  · have latest := latestRun_eq_of_listRuns returns
    rw [Process.error?, Process.output, Process.program, isStatus]
    dsimp only
    cases listed with
    | nil =>
        rw [run_workflowStatus_of_none { store } latest]
        exact ⟨rfl, rfl⟩
    | cons newest rest =>
        have saved := ((history.mem_iff newest).mp List.mem_cons_self).1
        obtain ⟨loaded, found, same⟩ := Process.exists_loadRun writes distinct saved
        rw [run_workflowStatus_of_some { store } latest found]
        exact ⟨rfl, same.statusReport encoding newest.summary⟩
  · obtain ⟨loaded, found, same⟩ := Process.exists_loadRun writes distinct saved
    rw [Process.error?, Process.output, Process.program, isShow]
    dsimp only
    rw [run_runShow { store } found]
    exact ⟨rfl, same.showReport⟩

/-- The starts of the runs of the session. -/
theorem instants_sampleSession :
    wholeStart.instant = 1709251199 ∧ halfStart.instant = 3418502399 / 2 := by
  have whole : wholeStart.microseconds = 63844934399000000 := by decide +kernel
  have half : halfStart.microseconds = 63844934399500000 := by decide +kernel
  rw [UtcDatetime.instant, UtcDatetime.instant, whole, half]
  norm_num

theorem startedAt_sampleSession :
    (sampleSession.flatMap Process.saved).map RunSnapshot.startedAt =
      [some 1709251199, some (3418502399 / 2)] := by
  decide +kernel

/-- The run of the scheduler is the newer one. -/
theorem session_history_sampleSession :
    let encoding := Encoding.iso.withJson sampleFloats
    let store := Process.storeAfterAll encoding ∅ sampleSession
    ∃ listed, RunStore.IsHistory (· ∈ sampleSession.flatMap Process.saved) (some "daily") listed ∧
      (sampleProcess "unused" 1709251199 (.workflowHistory "daily")).output encoding store =
        if listed = [] then ["no runs recorded for workflow 'daily'"]
        else listed.map fun run => historyLine encoding run.summary := by
  have distinct : ((sampleSession.flatMap Process.saved).map RunSnapshot.runId).Nodup := by
    rw [ids_sampleSession]
    decide
  obtain ⟨listed, history, prints⟩ := session_history
    (Encoding.writesTexts_withJson sampleFloats .iso) Encoding.isoText_instant sampleSession
    distinct (fun run member instant started => by
      have start := List.mem_map_of_mem (f := RunSnapshot.startedAt) member
      rw [startedAt_sampleSession, started] at start
      rcases List.mem_cons.mp start with first | second
      · exact ⟨wholeStart, by rw [Option.some.inj first, instants_sampleSession.1]⟩
      · have second := List.mem_singleton.mp second
        exact ⟨halfStart, by rw [Option.some.inj second, instants_sampleSession.2]⟩) "daily"
  exact ⟨listed, history, ((prints _).1 rfl).2⟩

end EtlOrchestrator
