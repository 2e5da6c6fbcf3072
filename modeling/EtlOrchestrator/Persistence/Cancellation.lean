import EtlOrchestrator.Engine.Identity
import EtlOrchestrator.Engine.Safety
import EtlOrchestrator.Observability
import EtlOrchestrator.Persistence.FiniteMap

/-!
# Cancelling stored runs

A cancel that returns `true` replaces the stored run by its cancelled copy, and any
other cancel leaves the store as it was. The engine of a run knows nothing of the
cancel: a later save of its run takes the place of the cancelled one, and the
records of the tasks stay as the engine left them.
-/

set_option autoImplicit false

namespace EtlOrchestrator

open Relation WorkflowEngine

namespace RunStore

variable {encoding : Encoding} {store after : RunStore} {runId : String} {run : RunSnapshot}

/-! ## One cancel -/

/-- A loaded run has the id it was loaded by. -/
theorem runId_of_loadRun (loaded : loadRun encoding store runId = .ok (some run)) :
    run.runId = runId := by
  rw [loadRun] at loaded
  split at loaded
  · cases loaded
  · simp only [Except.bind_eq_ok_iff] at loaded
    obtain ⟨_, _, _, _, _, _, _, _, _, _, _, _, result⟩ := loaded
    cases result
    rfl

/-- `cancel_run`, by what it loads. -/
theorem cancelRun_run (runId : String) (store : RunStore) :
    (cancelRun encoding runId).run store =
      match loadRun encoding store runId with
      | .error error => .error error store
      | .ok none => .ok false store
      | .ok (some run) =>
          if run.workflowState.IsTerminal then .ok false store
          else match (saveRun encoding run.cancelled).run store with
            | .ok _ after => .ok true after
            | .error error after => .error error after := by
  rw [cancelRun, EStateM.run_bind, EStateM.run_get]
  dsimp only
  rw [EStateM.run_bind]
  cases loadRun encoding store runId with
  | error error => rfl
  | ok loaded =>
      cases loaded with
      | none => rfl
      | some run =>
          dsimp only [ofExcept, EStateM.run_pure]
          split
          · rfl
          · rw [EStateM.run_bind]
            cases (saveRun encoding run.cancelled).run store <;> rfl

/-- **A cancel returns `true` exactly when it has saved the cancelled copy of a
stored run that was not terminal.** -/
theorem cancelRun_eq_true_iff : (cancelRun encoding runId).run store = .ok true after ↔
    ∃ run, loadRun encoding store runId = .ok (some run) ∧ ¬ run.workflowState.IsTerminal ∧
      Saved encoding run.cancelled store after := by
  rw [cancelRun_run]
  cases loaded : loadRun encoding store runId with
  | error error => simp
  | ok result =>
      cases result with
      | none => simp
      | some run =>
          by_cases terminal : run.workflowState.IsTerminal
          · simp [terminal]
          · have saved : (saveRun encoding run.cancelled).run store = .ok () after ↔
                Saved encoding run.cancelled store after := saveRun_run_iff
            cases ran : (saveRun encoding run.cancelled).run store with
            | ok result other =>
                rw [ran] at saved
                simp [terminal, ran, ← saved]
            | error error other =>
                rw [ran] at saved
                simp [terminal, ran, ← saved]

/-- Any other cancel leaves the store as it was. -/
theorem storeAfter_cancelRun (encoding : Encoding) (runId : String) (store : RunStore) :
    storeAfter (cancelRun encoding runId) store = store ∨
      (cancelRun encoding runId).run store =
        .ok true (storeAfter (cancelRun encoding runId) store) := by
  rw [storeAfter]
  cases ran : (cancelRun encoding runId).run store with
  | ok result other =>
      cases result with
      | true => exact .inr rfl
      | false =>
          left
          rw [cancelRun_run] at ran
          split at ran
          · cases ran
          · cases ran
            rfl
          · split at ran
            · cases ran
              rfl
            · split at ran <;> cases ran
  | error error other =>
      left
      rw [cancelRun_run] at ran
      split at ran
      · cases ran
        rfl
      · cases ran
      · split at ran
        · cases ran
        · split at ran
          · cases ran
          · cases ran
            exact eq_of_saveRun_error ‹_›

end RunStore

/-! ## The records of a cancelled run -/

/-- The states from which `task` has still to move. -/
def TaskState.IsActive (state : TaskState) : Prop :=
  state = .pending ∨ state = .running ∨ state = .retrying

instance (state : TaskState) : Decidable state.IsActive :=
  inferInstanceAs (Decidable (_ ∨ _))

/-- The state of a task after its run was cancelled. -/
def TaskState.onCancel (state : TaskState) : TaskState :=
  if state.IsActive then .cancelled else state

/-- A cancel has settled the tasks of a run: the active ones are cancelled and the
others are as they were, and the metrics of the run count every task once. -/
structure SettledByCancel (run cancelled : RunSnapshot) : Prop where
  settled : ∀ taskId record, cancelled.records.get? taskId = some record → ¬ record.state.IsActive
  states : ∀ taskId, (cancelled.records.get? taskId).map TaskRunRecord.state =
    (run.records.get? taskId).map fun record => record.state.onCancel
  metrics : ∃ metrics, computeRunMetrics cancelled = .ok metrics ∧
    metrics.counted = metrics.totalTasks

namespace RunSnapshot

/-- The copy of a run that is read back after it was saved and then cancelled. -/
theorem Keyed.get?_cancelled {run : RunSnapshot} (keyed : run.Keyed) (taskId : String) :
    run.reload.cancelled.reload.records.get? taskId = run.records.get? taskId := by
  have reloaded : run.reload.cancelled.Keyed := keyed_reload keyed.distinct
  exact (reloaded.same_reload.records taskId).trans (keyed.same_reload.records taskId)

/-- **The tasks of a run are settled by a cancel exactly when none was active.** -/
theorem settledByCancel_iff {run cancelled : RunSnapshot}
    (same : ∀ taskId, cancelled.records.get? taskId = run.records.get? taskId) :
    SettledByCancel run cancelled ↔
      ∀ taskId record, run.records.get? taskId = some record → ¬ record.state.IsActive := by
  constructor
  · intro settles taskId record stored
    exact settles.settled taskId record ((same taskId).trans stored)
  · intro inactive
    refine ⟨fun taskId record stored => inactive taskId record ((same taskId).symm.trans stored),
      fun taskId => ?_, ?_⟩
    · rw [same]
      cases stored : run.records.get? taskId with
      | none => rfl
      | some record =>
          rw [Option.map_some, Option.map_some, TaskState.onCancel,
            if_neg (inactive taskId record stored)]
    · obtain ⟨metrics, computed⟩ := (computeRunMetrics_returns_iff cancelled).mpr (by
        intro record member
        obtain ⟨taskId, stored⟩ := mem_values_iff.mp member
        have notActive := inactive taskId record ((same taskId).symm.trans stored)
        simp only [TaskState.IsActive, not_or] at notActive
        exact notActive.2)
      exact ⟨metrics, computed, (counted_computeRunMetrics computed).1⟩

end RunSnapshot

namespace RunStore

variable {encoding : Encoding} {engine : AcceptedEngine} {env : Env} {machine : Machine}

/-- What is read back of a run that was saved and then cancelled. -/
theorem loadRun_cancelRun (run : engine.Steps env (engine.start env) machine)
    {before store after : RunStore}
    (saved : (saveRun encoding machine.shared.run.snapshot).run before = .ok () store)
    (cancelled : (cancelRun encoding env.runId).run store = .ok true after) :
    loadRun encoding after env.runId =
      .ok (some machine.shared.run.snapshot.reload.cancelled.reload) := by
  have sameId : machine.shared.run.runId = env.runId := (RunIdentity.steps run).runId
  have stored := (saveRun_run_iff.mp saved).loadRun
  obtain ⟨other, otherStored, _, rewritten⟩ := cancelRun_eq_true_iff.mp cancelled
  rw [show machine.shared.run.snapshot.runId = env.runId from sameId, otherStored] at stored
  cases stored
  rw [← rewritten.loadRun]
  exact congrArg _ sameId.symm

/-- A run in progress whose parameters can be written is saved, and then cancelled. -/
theorem exists_cancelRun (encoding : Encoding) (run : engine.Steps env (engine.start env) machine)
    (inProgress : ¬ machine.shared.run.workflowState.IsTerminal) {text : String}
    (dumped : encoding.dumps env.params = .ok text) (before : RunStore) : ∃ store after,
    (saveRun encoding machine.shared.run.snapshot).run before = .ok () store ∧
      (cancelRun encoding env.runId).run store = .ok true after := by
  have identity := RunIdentity.steps run
  have keyed : machine.shared.run.snapshot.Keyed := identity.keyed
  have serializable : encoding.dumps machine.shared.run.snapshot.params = .ok text := by
    rw [show machine.shared.run.snapshot.params = env.params from identity.params, dumped]
  obtain ⟨store, saved⟩ := (saveRun_returns_iff before).mpr ⟨⟨text, serializable⟩, keyed.distinct⟩
  have stored := (saveRun_run_iff.mp saved).loadRun
  rw [show machine.shared.run.snapshot.runId = env.runId from identity.runId] at stored
  have storable : Storable encoding machine.shared.run.snapshot.reload.cancelled :=
    ⟨⟨text, serializable⟩,
      RunSnapshot.Keyed.distinct (RunSnapshot.keyed_reload keyed.distinct)⟩
  obtain ⟨after, rewritten⟩ := (saveRun_returns_iff store).mpr storable
  exact ⟨store, after, saved,
    cancelRun_eq_true_iff.mpr ⟨_, stored, inProgress, saveRun_run_iff.mp rewritten⟩⟩

/-- The records of the snapshot of a run, as the machine shows them. -/
theorem inactive_iff (machine : Machine) :
    (∀ taskId record, machine.shared.run.snapshot.records.get? taskId = some record →
        ¬ record.state.IsActive) ↔
      ∀ taskId ∈ machine.shared.run.records, ¬ (machine.stateOf taskId).IsActive := by
  refine forall_congr' fun taskId => ?_
  have own : ∀ record, machine.shared.run.records.get? taskId = some record →
      machine.stateOf taskId = record.state := fun record found =>
    congrArg TaskRunRecord.state (WorkflowRun.recordOf_of_get? found)
  constructor
  · intro inactive present
    obtain ⟨record, found⟩ := OrderedDict.exists_get?_of_mem present
    rw [own record found]
    exact inactive record found
  · intro inactive record found
    rw [← own record found]
    exact inactive (OrderedDict.mem_of_get? found)

/-- **When a run is saved in progress and then cancelled, the cancel settles its
tasks exactly when none of them was pending, running or waiting for a retry.** -/
theorem cancelRun_settles_iff (encoding : Encoding)
    (run : engine.Steps env (engine.start env) machine) {before store after : RunStore}
    (saved : (saveRun encoding machine.shared.run.snapshot).run before = .ok () store)
    (cancelled : (cancelRun encoding env.runId).run store = .ok true after) :
    (∃ loaded, loadRun encoding after env.runId = .ok (some loaded) ∧
        SettledByCancel machine.shared.run.snapshot loaded) ↔
      ∀ taskId ∈ machine.shared.run.records, ¬ (machine.stateOf taskId).IsActive := by
  have keyed : machine.shared.run.snapshot.Keyed := (RunIdentity.steps run).keyed
  have reloaded := loadRun_cancelRun run saved cancelled
  rw [← inactive_iff, ← RunSnapshot.settledByCancel_iff keyed.get?_cancelled]
  constructor
  · rintro ⟨loaded, sameLoaded, settled⟩
    rw [reloaded] at sameLoaded
    cases sameLoaded
    exact settled
  · exact fun settled => ⟨_, reloaded, settled⟩

/-- The pipeline up to the end of its second batch, in which a task fails for good. -/
def twoBatches : List Choice :=
  [.submit, .take] ++ List.replicate 12 (.work "audit") ++ wholeJob "extract" 23 ++
    [.work "audit", .leave "audit"] ++ .submit :: wholeJob "transform" 26

/-- A cancel between two batches settles the run. -/
theorem cancelRun_settles_pipeline : ∃ machine store after,
    (pipeline 2 (by decide)).replay { runId := "run" }
      ((pipeline 2 (by decide)).start { runId := "run" }) twoBatches = some machine ∧
    machine.shared.run.records.keys = ["audit", "extract", "transform"] ∧
    machine.stateOf "extract" = .success ∧ machine.stateOf "transform" = .failed ∧
    (saveRun .sample machine.shared.run.snapshot).run ∅ = .ok () store ∧
    (cancelRun .sample "run").run store = .ok true after ∧
    ∃ loaded, loadRun .sample after "run" = .ok (some loaded) ∧
      SettledByCancel machine.shared.run.snapshot loaded := by
  have shown : ((pipeline 2 (by decide)).replay { runId := "run" }
      ((pipeline 2 (by decide)).start { runId := "run" }) twoBatches).map
        (fun machine => (machine.shared.run.workflowState, machine.shared.run.records.keys,
          ["audit", "extract", "transform"].map machine.stateOf)) =
      some (.running, ["audit", "extract", "transform"], [.success, .success, .failed]) := by
    decide +kernel
  obtain ⟨machine, replayed, shows⟩ := Option.map_eq_some_iff.mp shown
  simp only [Prod.mk.injEq, List.map_cons, List.map_nil, List.cons.injEq, and_true] at shows
  obtain ⟨running, keys, audit, extract, transform⟩ := shows
  have run := steps_of_replay _ _ replayed
  have inProgress : ¬ machine.shared.run.workflowState.IsTerminal := by
    rw [running]
    decide
  obtain ⟨store, after, saved, cancelled⟩ := exists_cancelRun .sample run inProgress rfl ∅
  refine ⟨machine, store, after, replayed, keys, extract, transform, saved, cancelled,
    (cancelRun_settles_iff .sample run saved cancelled).mpr fun taskId present => ?_⟩
  rw [OrderedDict.mem_def, keys] at present
  simp only [List.mem_cons, List.not_mem_nil, or_false] at present
  rcases present with rfl | rfl | rfl
  · rw [audit]
    decide
  · rw [extract]
    decide
  · rw [transform]
    decide

/-- A cancel leaves the record of a task that was pending. -/
theorem cancelRun_leaves_pending : ∃ machine store after,
    (pipeline 2 (by decide)).Steps { runId := "run" }
        ((pipeline 2 (by decide)).start { runId := "run" }) machine ∧
      ¬ machine.shared.run.workflowState.IsTerminal ∧
      (saveRun .sample machine.shared.run.snapshot).run ∅ = .ok () store ∧
      (cancelRun .sample "run").run store = .ok true after ∧
      ¬ ∃ loaded, loadRun .sample after "run" = .ok (some loaded) ∧
        SettledByCancel machine.shared.run.snapshot loaded := by
  have shown : ((pipeline 2 (by decide)).replay { runId := "run" }
      ((pipeline 2 (by decide)).start { runId := "run" }) [.submit, .take, .work "audit"]).map
        (fun machine => (machine.stateOf "audit", decide ("audit" ∈ machine.shared.run.records),
          machine.shared.run.workflowState)) = some (.pending, true, .running) := by decide +kernel
  obtain ⟨machine, replayed, shows⟩ := Option.map_eq_some_iff.mp shown
  obtain ⟨pending, present, running⟩ := Prod.mk.inj shows |>.imp_right Prod.mk.inj
  have run := steps_of_replay _ _ replayed
  have inProgress : ¬ machine.shared.run.workflowState.IsTerminal := by
    rw [running]
    decide
  obtain ⟨store, after, saved, cancelled⟩ :=
    exists_cancelRun .sample run inProgress rfl ∅
  refine ⟨machine, store, after, run, inProgress, saved, cancelled, ?_⟩
  rintro ⟨loaded, sameLoaded, settled⟩
  rw [show "run" = ({ runId := "run" } : Env).runId from rfl,
    loadRun_cancelRun run saved cancelled] at sameLoaded
  cases sameLoaded
  have keyed : machine.shared.run.snapshot.Keyed := (RunIdentity.steps run).keyed
  have inactive := (inactive_iff machine).mp
    ((RunSnapshot.settledByCancel_iff keyed.get?_cancelled).mp settled)
  apply inactive "audit" (of_decide_eq_true present)
  rw [pending]
  decide

end RunStore

end EtlOrchestrator
