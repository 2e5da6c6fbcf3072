import EtlOrchestrator.Cli.Parameters
import EtlOrchestrator.Persistence.Cancellation
import EtlOrchestrator.Scheduler.History

/-!
# Sessions of the command line

The processes of a session share one database. `workflow run` and `scheduler run-once` save a run
when it has ended, and no other command of the session writes a run that is in progress. So the
database is at each moment what the saves of the session have left (`storeAfterAll_eq_saveAll`),
every run in it has ended, and no run is ever changed again. In particular `run cancel` has
nothing to cancel (`session_keeps_runs`).
-/

set_option autoImplicit false

namespace EtlOrchestrator

open RunStore Commanding
open Except (bind_eq_ok_iff mapError_eq_ok_iff)

/-! ## Runs that have ended -/

/-- A run that has ended: the workflow is no longer in progress, and no task is. -/
structure RunSnapshot.Settled (run : RunSnapshot) : Prop where
  workflow : run.workflowState = .success ∨ run.workflowState = .failed
  tasks : ∀ record ∈ run.records.values,
    record.state = .success ∨ record.state = .failed ∨ record.state = .upstreamFailed

namespace RunSnapshot.Settled

variable {run : RunSnapshot}

theorem isTerminal (settled : run.Settled) : run.workflowState.IsTerminal :=
  settled.workflow.imp_right .inl

/-- The metrics of such a run can be computed. -/
theorem exists_metrics (settled : run.Settled) :
    ∃ metrics, computeRunMetrics run = .ok metrics := by
  refine (computeRunMetrics_returns_iff run).mpr fun record member => ?_
  rcases settled.tasks record member with state | state | state <;>
    exact ⟨by simp [state], by simp [state]⟩

/-- It is loaded as it was saved. -/
theorem reload (settled : run.Settled)
    (distinct : (run.records.values.map TaskRunRecord.taskId).Nodup) : run.reload.Settled where
  workflow := settled.workflow
  tasks record member := by
    obtain ⟨taskId, stored⟩ := mem_values_iff.mp member
    exact settled.tasks record ((get?_reload distinct).mp stored).1

end RunSnapshot.Settled

/-- A run with one worker has the end of a run of the machine. -/
theorem machine_of_runWith {engine : AcceptedEngine} {env : Env} {run : WorkflowRun}
    (one : engine.maxWorkers = 1) (ran : engine.runWith env = .ok run) : ∃ machine,
    engine.Steps env (engine.start env) machine ∧ machine.status = .returned ∧
      machine.shared.run = run := by
  have steps := steps_of_runSequential env one
  rw [AcceptedEngine.runWith] at ran
  split at ran
  · rename_i after sequential
    rw [sequential] at steps
    cases ran
    obtain ⟨machine, reached, returned, rfl⟩ := steps
    exact ⟨machine, reached, returned, rfl⟩
  · cases ran

/-- What `run` returns has ended. -/
theorem settled_of_runWith {engine : AcceptedEngine} {env : Env} {run : WorkflowRun}
    (one : engine.maxWorkers = 1) (ran : engine.runWith env = .ok run) : run.snapshot.Settled := by
  obtain ⟨machine, steps, returned, rfl⟩ := machine_of_runWith one ran
  have result := (Reachable.steps steps).isResult returned
  refine ⟨result.workflowState_iff.2, fun record member => ?_⟩
  obtain ⟨taskId, stored⟩ := RunSnapshot.mem_values_iff.mp member
  have known := (result.recorded taskId).mp (OrderedDict.mem_of_get? stored)
  have state : machine.shared.stateOf taskId = record.state :=
    congrArg TaskRunRecord.state (WorkflowRun.recordOf_of_get? stored)
  rw [← state]
  exact (result.settled_cases known).imp_right (Or.imp And.left And.left)

/-- The records of what `run` returns stand under their task ids. -/
theorem keyed_of_runWith {engine : AcceptedEngine} {env : Env} {run : WorkflowRun}
    (one : engine.maxWorkers = 1) (ran : engine.runWith env = .ok run) : run.Keyed := by
  obtain ⟨machine, steps, _, rfl⟩ := machine_of_runWith one ran
  exact (RunIdentity.steps steps).keyed

/-- And it has the parameters that it was given. -/
theorem params_of_runWith {engine : AcceptedEngine} {env : Env} {run : WorkflowRun}
    (one : engine.maxWorkers = 1) (ran : engine.runWith env = .ok run) :
    run.params = env.params := by
  obtain ⟨machine, steps, _, rfl⟩ := machine_of_runWith one ran
  exact (RunIdentity.steps steps).params

/-- So has the run that stands for a workflow that cannot be loaded. -/
theorem settled_unrunnable (name runId message : String) :
    (unrunnable name runId message).snapshot.Settled :=
  ⟨.inr rfl, fun _ member => absurd member List.not_mem_nil⟩

/-- And so has what `_run_schedule` returns. -/
theorem settled_of_runOf {world : Surroundings} {registry : OrderedDict String TaskCallable}
    {schedule : Schedule} {run : WorkflowRun} (ran : runOf world registry schedule = .ok run) :
    run.snapshot.Settled ∧ run.Keyed ∧ TextParams run.params := by
  rw [runOf] at ran
  split at ran
  · cases ran
    exact ⟨settled_unrunnable _ _ _, (fun _ _ stored => by cases stored), textParams_empty⟩
  · cases ran
  · rename_i engine loaded
    have one := maxWorkers_of_loadEngine loaded
    have ran : engine.runWith { world.env schedule.name with params := ∅ } = .ok run := ran
    refine ⟨settled_of_runWith one ran, keyed_of_runWith one ran, ?_⟩
    rw [params_of_runWith one ran]
    exact textParams_empty

/-! ## The runs that a process saves -/

/-- The run of `workflow run`, as far as it comes to be saved. -/
def runToSave (workspace : Workspace) (reader : ConfigReader)
    (registry : OrderedDict String TaskCallable) (env : Env) (name : String)
    (pairs : List String) : Except PyError WorkflowRun := do
  let opened ← openWorkflow workspace reader registry name
  let params ← parseParams pairs ∅
  opened.1.runWith { env with params }

/-- The runs that a process gives to `save_run`. -/
def Process.saved (process : Process) : List RunSnapshot :=
  match process.command with
  | .workflowRun name pairs =>
      match runToSave process.workspace process.world.reader process.registry
        (process.world.env name) name pairs with
      | .ok run => [run.snapshot]
      | .error _ => []
  | .schedulerRunOnce entries =>
      (Scheduling.finalState (schedulerRunOnce process.world entries)
        { scheduler := .init process.registry }).saved.map WorkflowRun.snapshot
  | _ => []

theorem maxWorkers_of_openWorkflow {workspace : Workspace} {reader : ConfigReader}
    {registry : OrderedDict String TaskCallable} {name : String}
    {opened : AcceptedEngine × Workflow}
    (opens : openWorkflow workspace reader registry name = .ok opened) :
    opened.1.maxWorkers = 1 := by
  obtain ⟨_, _, _, _, setsUp⟩ := exists_setsUp_of_openWorkflow opens
  exact setsUp.one

theorem finalState_runOnce (world : Surroundings) (state : SchedulerState) :
    Scheduling.finalState (Scheduling.runOnce world) state = tick world state := by
  rw [Scheduling.finalState, tick]
  cases (Scheduling.runOnce world).run state <;> rfl

/-- Each run that `scheduler run-once` saves is the run of a schedule. -/
theorem runOf_of_mem_saved {world : Surroundings} {registry : OrderedDict String TaskCallable}
    {entries : List ScheduleEntry} {run : WorkflowRun}
    (member : run ∈ (Scheduling.finalState (schedulerRunOnce world entries)
      { scheduler := .init registry }).saved) :
    ∃ registry schedule, runOf world registry schedule = .ok run := by
  cases empty : entries.isEmpty with
  | true =>
      rw [Scheduling.finalState, schedulerRunOnce, empty, if_pos rfl] at member
      cases member
  | false =>
      cases accepted : registerEntries (.init registry) entries with
      | error error =>
          rw [Scheduling.finalState, schedulerRunOnce, empty, if_neg Bool.false_ne_true,
            EStateM.run_bind, EStateM.run_get] at member
          dsimp only at member
          rw [accepted] at member
          cases member
      | ok scheduler =>
          rw [finalState_schedulerRunOnce empty accepted, finalState_runOnce, (tick_saves _ _).1,
            List.nil_append] at member
          obtain ⟨⟨name, _⟩, inRounds, rfl⟩ := List.mem_map.mp member
          obtain ⟨_, schedule, _, ran⟩ := runOf_of_mem_rounds inRounds
          exact ⟨_, schedule, ran⟩

/-- **A process saves runs that have ended only.** -/
theorem Process.settled_of_mem_saved {process : Process} {run : RunSnapshot}
    (member : run ∈ process.saved) : run.Settled ∧ run.Keyed ∧ TextParams run.params := by
  rw [saved] at member
  split at member
  · split at member
    · rename_i ended ran
      obtain rfl := List.mem_singleton.mp member
      simp only [runToSave, bind_eq_ok_iff] at ran
      obtain ⟨opened, opens, params, parses, ran⟩ := ran
      have one := maxWorkers_of_openWorkflow opens
      refine ⟨settled_of_runWith one ran, keyed_of_runWith one ran, ?_⟩
      change TextParams ended.params
      rw [params_of_runWith one ran]
      exact textParams_of_parseParams parses
    · cases member
  · obtain ⟨ended, inState, rfl⟩ := List.mem_map.mp member
    obtain ⟨_, _, ran⟩ := runOf_of_mem_saved inState
    exact settled_of_runOf ran
  · cases member

/-! ## Saves one after the other -/

namespace RunStore

variable {encoding : Encoding}

theorem saveAll_append (encoding : Encoding) (runs more : List RunSnapshot) :
    ∀ store : RunStore, saveAll encoding store (runs ++ more) =
      saveAll encoding (saveAll encoding store runs) more := by
  induction runs with
  | nil => exact fun _ => rfl
  | cons run rest ih => exact fun store => ih _

open Classical in
/-- The saves that return are those of the storable runs. -/
theorem returned_eq_filter (runs : List RunSnapshot) : ∀ store : RunStore,
    returned encoding store runs = runs.filter fun run => Storable encoding run := by
  induction runs with
  | nil => exact fun _ => rfl
  | cons run rest ih =>
      intro store
      rcases returned_cons store run rest with ⟨split, storable⟩ | ⟨split, refused⟩
      · rw [split, ih]
        exact (List.filter_cons_of_pos (by simpa using storable)).symm
      · rw [split, ih]
        exact (List.filter_cons_of_neg (by simpa using refused)).symm

/-- A run that is loaded after some saves is one of theirs. -/
theorem exists_of_loadRun_saveAll {runs : List RunSnapshot} {runId : String} {loaded : RunSnapshot}
    (found : loadRun encoding (saveAll encoding ∅ runs) runId = .ok (some loaded)) :
    ∃ run ∈ runs, Storable encoding run ∧ run.runId = runId ∧ run.reload = loaded := by
  classical
  rw [loadRun_saveAll, loadRun_empty] at found
  cases last : lastSaved (returned encoding ∅ runs) runId with
  | none =>
      rw [last] at found
      cases found
  | some run =>
      rw [last] at found
      cases found
      rw [lastSaved] at last
      have member := List.mem_reverse.mp (List.mem_of_find?_eq_some last)
      rw [returned_eq_filter, List.mem_filter, decide_eq_true_eq] at member
      have sameId := List.find?_some last
      exact ⟨run, member.1, member.2, of_decide_eq_true sameId, rfl⟩

/-- A run that is loaded after some saves is loaded after further ones, if these are saves of
other runs. -/
theorem loadRun_saveAll_append {runs more : List RunSnapshot} {runId : String}
    (other : ∀ run ∈ more, run.runId ≠ runId) :
    loadRun encoding (saveAll encoding ∅ (runs ++ more)) runId =
      loadRun encoding (saveAll encoding ∅ runs) runId := by
  classical
  rw [saveAll_append, loadRun_saveAll more]
  have unsaved : lastSaved (returned encoding (saveAll encoding ∅ runs) more) runId = none := by
    refine List.find?_eq_none.mpr fun run member => ?_
    rw [List.mem_reverse, returned_eq_filter] at member
    simpa using other run (List.mem_filter.mp member).1
  rw [unsaved]
  rfl

/-- What is loaded after some saves of ended runs has ended. -/
theorem settled_of_loadRun_saveAll {runs : List RunSnapshot} (settled : ∀ run ∈ runs, run.Settled)
    {runId : String} {loaded : RunSnapshot}
    (found : loadRun encoding (saveAll encoding ∅ runs) runId = .ok (some loaded)) :
    loaded.Settled := by
  obtain ⟨run, member, storable, _, rfl⟩ := exists_of_loadRun_saveAll found
  exact (settled run member).reload storable.distinct

/-- Loading does not raise after some saves. -/
theorem loadRun_saveAll_isOk (runs : List RunSnapshot) (runId : String) :
    ∃ loaded, loadRun encoding (saveAll encoding ∅ runs) runId = .ok loaded := by
  rw [loadRun_saveAll, loadRun_empty]
  cases lastSaved (returned encoding ∅ runs) runId with
  | none => exact ⟨none, rfl⟩
  | some run => exact ⟨some run.reload, rfl⟩

/-- There is nothing to cancel among ended runs. -/
theorem cancelRun_of_settled {runs : List RunSnapshot} (settled : ∀ run ∈ runs, run.Settled)
    (runId : String) : (cancelRun encoding runId).run (saveAll encoding ∅ runs) =
      .ok false (saveAll encoding ∅ runs) := by
  obtain ⟨loaded, found⟩ := @loadRun_saveAll_isOk encoding runs runId
  rw [cancelRun_run, found]
  cases loaded with
  | none => rfl
  | some run => exact if_pos (settled_of_loadRun_saveAll settled found).isTerminal

end RunStore

/-! ## What a process leaves -/

/-- Only lines are printed. -/
def Prints (before after : Terminal) : Prop := after.store = before.store

instance : Std.Refl Prints := ⟨fun _ => rfl⟩

instance : IsTrans Terminal Prints := ⟨fun _ _ _ earlier later => Eq.trans later earlier⟩

theorem prints_echo (line : String) : Respects Prints (echo line) := .modify fun _ => rfl

theorem prints_echoAll (lines : List String) : Respects Prints (echoAll lines) := by
  induction lines with
  | nil => exact .pure ()
  | cons line rest ih => exact (prints_echo line).bind fun _ => ih

theorem prints_printTasks (records : OrderedDict String TaskRunRecord) (order : List String) :
    Respects Prints (printTasks records order) := by
  induction order with
  | nil => exact .pure ()
  | cons taskId rest ih =>
      rw [printTasks]
      split
      · exact .throw _
      · exact (prints_echoAll _).bind fun _ => ih

theorem prints_reportRun (built : Workflow) (run : WorkflowRun) :
    Respects Prints (reportRun built run) := by
  refine (prints_echo _).bind fun _ => (Respects.ofExcept _).bind fun order =>
    (prints_printTasks _ order).bind fun _ => ?_
  exact .ite (fun _ => .throw _) fun _ => .pure ()

/-- The store is only read. -/
def OnlyReads (before after : RunStore) : Prop := after = before

instance : Std.Refl OnlyReads := ⟨fun _ => rfl⟩

instance : IsTrans RunStore OnlyReads := ⟨fun _ _ _ earlier later => Eq.trans later earlier⟩

theorem prints_withStore {α : Type} {program : Storing α} (reads : Respects OnlyReads program) :
    Respects Prints (withStore program) := by
  intro terminal
  rw [run_withStore]
  cases ran : program.run terminal.store with
  | ok result after => exact reads.of_ok ran
  | error error after => exact reads.of_error ran

variable (encoding : Encoding)

theorem prints_workflowStatus (name : String) : Respects Prints (workflowStatus encoding name) := by
  refine (prints_withStore (Respects.get.bind fun store => ?_)).bind fun found => ?_
  · refine (Respects.ofExcept _).bind fun summary => ?_
    cases summary with
    | none => exact .pure _
    | some summary =>
        exact Respects.get.bind fun store => (Respects.ofExcept _).bind fun _ => .pure _
  · cases found with
    | none => exact prints_echo _
    | some found => exact prints_echoAll _

theorem prints_workflowHistory (name : String) :
    Respects Prints (workflowHistory encoding name) := by
  refine (prints_withStore (Respects.get.bind fun store => Respects.ofExcept _)).bind
    fun summaries => ?_
  exact .ite (fun _ => prints_echo _) fun _ => prints_echoAll _

theorem prints_runShow (runId : String) : Respects Prints (runShow encoding runId) := by
  refine (prints_withStore (Respects.get.bind fun store => Respects.ofExcept _)).bind
    fun loaded => ?_
  cases loaded with
  | none => exact .throw _
  | some loaded => exact prints_echoAll _

/-- `workflow run` leaves what the save of its run leaves. -/
theorem endState_workflowRun (workspace : Workspace) (reader : ConfigReader)
    (registry : OrderedDict String TaskCallable) (env : Env) (name : String)
    (pairs : List String) (terminal : Terminal) :
    (endState (workflowRun encoding workspace reader registry env name pairs) terminal).store =
      match runToSave workspace reader registry env name pairs with
      | .ok run => storeAfter (saveRun encoding run.snapshot) terminal.store
      | .error _ => terminal.store := by
  rw [workflowRun, runToSave]
  cases openWorkflow workspace reader registry name with
  | error error => rfl
  | ok opened =>
      rw [endState_bind (run_ofExcept_ok opened terminal), Except.ok_bind]
      cases parseParams pairs ∅ with
      | error error => rfl
      | ok params =>
          rw [endState_bind (run_ofExcept_ok params terminal), Except.ok_bind]
          cases opened.1.runWith { env with params } with
          | error error => rfl
          | ok run =>
              rw [endState_bind (run_ofExcept_ok run terminal)]
              dsimp only
              rw [storeAfter]
              have saved := run_withStore (saveRun encoding run.snapshot) terminal
              cases ran : (saveRun encoding run.snapshot).run terminal.store with
              | error error after =>
                  rw [ran] at saved
                  rw [endState, EStateM.run_bind, saved]
              | ok _ after =>
                  rw [ran] at saved
                  rw [endState_bind saved]
                  exact (prints_reportRun opened.2 run).at_end _

/-- `scheduler run-once` leaves what the saves of its runs leave. -/
theorem endState_runDueSchedules (registry : OrderedDict String TaskCallable)
    (world : Surroundings) (entries : List ScheduleEntry) (terminal : Terminal) :
    (endState (runDueSchedules encoding registry world entries) terminal).store =
      saveAll encoding terminal.store
        ((Scheduling.finalState (schedulerRunOnce world entries)
          { scheduler := .init registry }).saved.map WorkflowRun.snapshot) := by
  unfold endState runDueSchedules
  dsimp only [EStateM.run]
  cases schedulerRunOnce world entries { scheduler := .init registry } <;> rfl

namespace Process

theorem storeAfter_eq_endState (process : Process) (store : RunStore) :
    process.storeAfter encoding store = (endState (process.program encoding) { store }).store := by
  rw [storeAfter, endState]
  cases (process.program encoding).run { store } <;> rfl

/-- `run cancel` fails in a database of ended runs. -/
theorem runCancel_of_settled {runs : List RunSnapshot} (settled : ∀ run ∈ runs, run.Settled)
    (runId : String) : (runCancel encoding runId).run { store := saveAll encoding ∅ runs } =
      .error (clickException s!"run '{runId}' not found or already terminal")
        { store := saveAll encoding ∅ runs } := by
  rw [runCancel, EStateM.run_bind, run_withStore, cancelRun_of_settled settled runId]
  rfl

/-- **In a database of ended runs a process leaves what its saves leave.** -/
theorem storeAfter_eq_saveAll {runs : List RunSnapshot} (settled : ∀ run ∈ runs, run.Settled)
    (process : Process) : process.storeAfter encoding (saveAll encoding ∅ runs) =
      saveAll encoding ∅ (runs ++ process.saved) := by
  rw [storeAfter_eq_endState, program, saved, saveAll_append]
  cases process.command with
  | workflowRun name pairs =>
      dsimp only
      rw [endState_workflowRun]
      cases runToSave process.workspace process.world.reader process.registry
        (process.world.env name) name pairs <;> rfl
  | workflowStatus name => exact (prints_workflowStatus encoding name).at_end _
  | workflowHistory name => exact (prints_workflowHistory encoding name).at_end _
  | runShow runId => exact (prints_runShow encoding runId).at_end _
  | runCancel runId =>
      dsimp only
      rw [endState_of_error (runCancel_of_settled encoding settled runId)]
      rfl
  | schedulerRunOnce entries =>
      exact endState_runDueSchedules encoding process.registry process.world entries _

/-- **The database of a session is what its saves leave, each of a run that has ended.** -/
theorem storeAfterAll_eq_saveAll (processes : List Process) :
    storeAfterAll encoding ∅ processes = saveAll encoding ∅ (processes.flatMap saved) := by
  induction processes using List.reverseRecOn with
  | nil => rfl
  | append_singleton processes process ih =>
      have settled : ∀ run ∈ processes.flatMap saved, run.Settled := by
        intro run member
        obtain ⟨other, _, inOther⟩ := List.mem_flatMap.mp member
        exact (settled_of_mem_saved inOther).1
      rw [storeAfterAll, List.foldl_append]
      change process.storeAfter encoding (storeAfterAll encoding ∅ processes) = _
      rw [ih, storeAfter_eq_saveAll encoding settled, List.flatMap_append, List.flatMap_singleton]

end Process

/-- The last run of an id is the only one, if the ids of the saved runs are distinct. -/
theorem RunStore.lastSaved_eq_some_iff {saved : List RunSnapshot} {run : RunSnapshot}
    (distinct : (saved.map RunSnapshot.runId).Nodup) :
    lastSaved saved run.runId = some run ↔ run ∈ saved := by
  rw [lastSaved]
  refine ⟨fun last => List.mem_reverse.mp (List.mem_of_find?_eq_some last), fun member => ?_⟩
  cases last : saved.reverse.find? (·.runId = run.runId) with
  | none =>
      have unknown := List.find?_eq_none.mp last run (List.mem_reverse.mpr member)
      exact absurd (decide_eq_true rfl) unknown
  | some other =>
      have sameId := List.find?_some last
      have otherMember := List.mem_reverse.mp (List.mem_of_find?_eq_some last)
      exact congrArg some
        (List.inj_on_of_nodup_map distinct otherMember member (of_decide_eq_true sameId))

namespace Process

variable {encoding} {processes : List Process} {run : RunSnapshot}

theorem settled_of_mem_flatMap (member : run ∈ processes.flatMap saved) :
    run.Settled ∧ run.Keyed ∧ TextParams run.params := by
  obtain ⟨process, _, inProcess⟩ := List.mem_flatMap.mp member
  exact settled_of_mem_saved inProcess

/-- Every save of a session returns. -/
theorem returned_saved (writes : encoding.WritesTexts) (processes : List Process) :
    returned encoding ∅ (processes.flatMap saved) = processes.flatMap saved := by
  classical
  rw [returned_eq_filter, List.filter_eq_self]
  intro run member
  obtain ⟨_, keyed, texts⟩ := settled_of_mem_flatMap member
  exact decide_eq_true ⟨writes run.params texts, keyed.distinct⟩

/-- A saved run is loaded as it was saved. -/
theorem exists_loadRun (writes : encoding.WritesTexts)
    (distinct : ((processes.flatMap saved).map RunSnapshot.runId).Nodup)
    (member : run ∈ processes.flatMap saved) : ∃ loaded,
    loadRun encoding (storeAfterAll encoding ∅ processes) run.runId = .ok (some loaded) ∧
      loaded.Same run := by
  refine ⟨run.reload, ?_, (settled_of_mem_flatMap member).2.1.same_reload⟩
  rw [storeAfterAll_eq_saveAll, loadRun_saveAll, returned_saved writes,
    (lastSaved_eq_some_iff distinct).mpr member]
  rfl

end Process

/-- **In every session each stored run has ended, and it stays in the database as it is. A `run
cancel` fails, whatever its run id, and changes nothing.** -/
theorem session_keeps_runs (encoding : Encoding) (earlier : List Process) (process : Process)
    (later : List Process)
    (distinct : (((earlier ++ process :: later).flatMap Process.saved).map
      RunSnapshot.runId).Nodup) :
    let reached := Process.storeAfterAll encoding ∅ earlier
    let final := Process.storeAfterAll encoding ∅ (earlier ++ process :: later)
    (∀ runId run, loadRun encoding reached runId = .ok (some run) →
      run.Settled ∧ (∃ metrics, computeRunMetrics run = .ok metrics) ∧
        loadRun encoding final runId = .ok (some run)) ∧
    ∀ runId, process.command = .runCancel runId →
      process.error? encoding reached =
          some (clickException s!"run '{runId}' not found or already terminal") ∧
        process.storeAfter encoding reached = reached := by
  have settled : ∀ run ∈ earlier.flatMap Process.saved, run.Settled := by
    intro run member
    obtain ⟨other, _, inOther⟩ := List.mem_flatMap.mp member
    exact (Process.settled_of_mem_saved inOther).1
  dsimp only
  rw [Process.storeAfterAll_eq_saveAll, Process.storeAfterAll_eq_saveAll, List.flatMap_append]
  refine ⟨fun runId run found => ?_, fun runId cancels => ?_⟩
  · have ended := settled_of_loadRun_saveAll settled found
    obtain ⟨saved, member, _, sameId, _⟩ := exists_of_loadRun_saveAll found
    refine ⟨ended, ended.exists_metrics, ?_⟩
    rw [loadRun_saveAll_append, found]
    intro other otherMember same
    rw [List.flatMap_append, List.map_append, List.nodup_append] at distinct
    exact distinct.2.2 _ (List.mem_map_of_mem member) _ (List.mem_map_of_mem otherMember)
      (sameId.trans same.symm)
  · have cancelled := Process.runCancel_of_settled encoding settled runId
    rw [Process.error?, Process.storeAfter, Process.program, cancels]
    dsimp only
    rw [cancelled]
    exact ⟨rfl, rfl⟩

/-- A process with a run id of its own, which begins at some instant. -/
def sampleProcess (runId : String) (start : ℚ) (command : Command) : Process where
  workspace := sampleWorkspace
  registry := exampleRegistry
  world := { exampleWorld with env := fun _ => { runId, clock := fun reading => start + reading } }
  command

/-- A run of the command line, and half a second later one of the scheduler. -/
def sampleSession : List Process :=
  [sampleProcess "first" 1709251199 (.workflowRun "daily.yaml" ["day=monday", "day=tuesday"]),
    sampleProcess "unused" 1709251199 (.runCancel "first"),
    sampleProcess "second" (3418502399 / 2) (.schedulerRunOnce [⟨"daily", "daily.yaml", 60⟩])]

theorem ids_sampleSession :
    (sampleSession.flatMap Process.saved).map RunSnapshot.runId = ["first", "second"] := by
  decide +kernel

/-- An encoding with parameters in JSON. -/
def sampleJson : Encoding := Encoding.sample.withJson sampleFloats

/-- The run of the command line is still there when the scheduler has saved another one. -/
theorem session_keeps_runs_sampleSession : ∃ run,
    loadRun sampleJson (Process.storeAfterAll sampleJson ∅ (sampleSession.take 1)) "first" =
      .ok (some run) ∧
    loadRun sampleJson (Process.storeAfterAll sampleJson ∅ sampleSession) "first" =
      .ok (some run) ∧
    (sampleProcess "unused" 1709251199 (.runCancel "first")).error? sampleJson
        (Process.storeAfterAll sampleJson ∅ (sampleSession.take 1)) =
      some (clickException "run 'first' not found or already terminal") := by
  have distinct : ((sampleSession.flatMap Process.saved).map RunSnapshot.runId).Nodup := by
    rw [ids_sampleSession]
    decide
  obtain ⟨keeps, cancels⟩ := session_keeps_runs sampleJson (sampleSession.take 1)
    (sampleProcess "unused" 1709251199 (.runCancel "first")) (sampleSession.drop 2) distinct
  have onlyFirst : ((sampleSession.take 1).flatMap Process.saved).map RunSnapshot.runId =
      ["first"] := by decide +kernel
  obtain ⟨run, member, isFirst⟩ := List.mem_map.mp (onlyFirst ▸ List.mem_singleton_self "first")
  obtain ⟨loaded, found, _⟩ := Process.exists_loadRun
    (Encoding.writesTexts_withJson sampleFloats .sample) (by rw [onlyFirst]; decide) member
  rw [isFirst] at found
  exact ⟨loaded, found, (keeps "first" loaded found).2.2, (cancels "first" rfl).1⟩

end EtlOrchestrator
