import EtlOrchestrator.Persistence.Cancellation

/-!
# Serial histories of a store

The saves and cancels of several runs, one after the other. The saves of one run
are the successive snapshots that its engine takes of it, between any steps. Its
stored state then follows `WORKFLOW_TRANSITIONS` exactly when no snapshot is saved
over a cancelled run: the engine goes on from its own copy of the run, in which no
cancel is seen.
-/

set_option autoImplicit false

namespace EtlOrchestrator

open Relation WorkflowEngine

/-- A call on a store. -/
inductive StoreCall where
  | save (run : RunSnapshot)
  | cancel (runId : String)

namespace StoreCall

/-- What a call does, and what it returns: `save_run` returns `None`. -/
def program (encoding : Encoding) : StoreCall → Storing (Option Bool)
  | save run => do
      RunStore.saveRun encoding run
      return none
  | cancel runId => do
      let result ← RunStore.cancelRun encoding runId
      return some result

end StoreCall

namespace RunStore

variable (encoding : Encoding)

/-- The store after some calls. -/
def afterCalls : RunStore → List StoreCall → RunStore
  | store, [] => store
  | store, call :: rest => afterCalls (storeAfter (call.program encoding) store) rest

/-- The state of a run as `load_run` gives it. -/
def loadState (store : RunStore) (runId : String) : Except PyError (Option WorkflowState) :=
  (loadRun encoding store runId).map fun loaded => loaded.map RunSnapshot.workflowState

/-- The states that are loaded before the first call and after each call. -/
def loadStates (runId : String) : RunStore → List StoreCall →
    List (Except PyError (Option WorkflowState))
  | store, [] => [loadState encoding store runId]
  | store, call :: rest => loadState encoding store runId ::
      loadStates runId (storeAfter (call.program encoding) store) rest

end RunStore

/-- A loaded state advances by a transition, or not at all. A run that is unknown
may become known in any state. -/
inductive Advances : Except PyError (Option WorkflowState) →
    Except PyError (Option WorkflowState) → Prop where
  | unknown (next : Option WorkflowState) : Advances (.ok none) (.ok next)
  | stutter (state : WorkflowState) : Advances (.ok (some state)) (.ok (some state))
  | move {state next : WorkflowState} (legal : canTransitionWorkflow state next) :
      Advances (.ok (some state)) (.ok (some next))

/-- The saves of the run of an engine, among other calls, are successive snapshots
of the run. -/
inductive EngineSaves (engine : WorkflowEngine) (env : Env) : Machine → List StoreCall → Prop where
  | nil (machine : Machine) : EngineSaves engine env machine []
  /-- A snapshot of the run, some steps later. -/
  | snapshot {machine next : Machine} {rest : List StoreCall}
      (run : engine.Steps env machine next) (later : EngineSaves engine env next rest) :
      EngineSaves engine env machine (.save next.shared.run.snapshot :: rest)
  /-- A save of another run. -/
  | other {machine : Machine} {run : RunSnapshot} {rest : List StoreCall}
      (different : run.runId ≠ env.runId) (later : EngineSaves engine env machine rest) :
      EngineSaves engine env machine (.save run :: rest)
  | cancel {machine : Machine} {rest : List StoreCall} (runId : String)
      (later : EngineSaves engine env machine rest) :
      EngineSaves engine env machine (.cancel runId :: rest)

/-- No call saves a run over its cancelled copy. -/
def NoSaveAfterCancel (encoding : Encoding) (runId : String) (store : RunStore)
    (calls : List StoreCall) : Prop :=
  ∀ before run after, calls = before ++ .save run :: after → run.runId = runId →
    (RunStore.afterCalls encoding store before).loadState encoding runId ≠ .ok (some .cancelled)

/-- The stored states of a run form a path of `WORKFLOW_TRANSITIONS`, and a run
stays cancelled after a cancel of it has returned `true`. -/
structure IsHistory (encoding : Encoding) (runId : String) (store : RunStore)
    (calls : List StoreCall) : Prop where
  path : (RunStore.loadStates encoding runId store calls).IsChain Advances
  cancelled : ∀ before later after, calls = before ++ .cancel runId :: (later ++ after) →
    (∃ next, (RunStore.cancelRun encoding runId).run (RunStore.afterCalls encoding store before) =
      .ok true next) →
    (RunStore.afterCalls encoding store (before ++ .cancel runId :: later)).loadState encoding
      runId = .ok (some .cancelled)

section

variable {encoding : Encoding} {engine : AcceptedEngine} {env : Env} {machine next : Machine}
  {store : RunStore} {runId : String}

/-! ## The states of the engine's run -/

/-- A run is running until it returns, and has then succeeded or failed. -/
theorem workflowState_cases (run : engine.Steps env (engine.start env) machine) :
    machine.shared.run.workflowState = .running ∨
      machine.status = .returned ∧ (machine.shared.run.workflowState = .success ∨
        machine.shared.run.workflowState = .failed) := by
  have stage := (Reachable.steps run).stage
  rw [Stage] at stage
  cases status : machine.status with
  | running =>
      rw [status] at stage
      exact .inl (congrArg WorkflowView.state stage)
  | returned =>
      rw [status] at stage
      have final : machine.shared.run.workflowState = engine.finalState env :=
        congrArg WorkflowView.state stage.2
      rw [final, AcceptedEngine.finalState]
      split
      · exact .inr ⟨rfl, .inl rfl⟩
      · exact .inr ⟨rfl, .inr rfl⟩
  | raised error =>
      rw [status] at stage
      exact .inl (congrArg WorkflowView.state stage.1)

/-- The state of a run follows `WORKFLOW_TRANSITIONS`. -/
theorem Advances.of_steps (begun : engine.Steps env (engine.start env) machine)
    (run : engine.Steps env machine next) :
    Advances (.ok (some machine.shared.run.workflowState))
      (.ok (some next.shared.run.workflowState)) := by
  rcases ReflTransGen.cases_head run with rfl | ⟨_, first, _⟩
  · exact .stutter _
  · rcases workflowState_cases begun with running | ⟨returned, _⟩
    · rw [running]
      rcases workflowState_cases (begun.trans run) with state | ⟨_, state | state⟩
      · rw [state]
        exact .stutter _
      · rw [state]
        exact .move (by decide)
      · rw [state]
        exact .move (by decide)
    · rw [first.running] at returned
      cases returned

/-- Nothing follows a cancelled run but the cancelled run. -/
theorem Advances.eq_cancelled {state : Except PyError (Option WorkflowState)}
    (advances : Advances (.ok (some .cancelled)) state) : state = .ok (some .cancelled) := by
  rcases advances with _ | _ | legal
  · rfl
  · cases legal

/-- In its engine no run is cancelled. -/
theorem workflowState_ne_cancelled (run : engine.Steps env (engine.start env) machine) :
    machine.shared.run.workflowState ≠ .cancelled := by
  rcases workflowState_cases run with state | ⟨_, state | state⟩ <;> rw [state] <;> decide

/-! ## The stored state -/

theorem storeAfter_save (run : RunSnapshot) (store : RunStore) :
    RunStore.storeAfter ((StoreCall.save run).program encoding) store =
      RunStore.storeAfter (RunStore.saveRun encoding run) store := by
  rw [RunStore.storeAfter, StoreCall.program, EStateM.run_bind, RunStore.storeAfter]
  cases (RunStore.saveRun encoding run).run store <;> rfl

theorem storeAfter_cancel (runId : String) (store : RunStore) :
    RunStore.storeAfter ((StoreCall.cancel runId).program encoding) store =
      RunStore.storeAfter (RunStore.cancelRun encoding runId) store := by
  rw [RunStore.storeAfter, StoreCall.program, EStateM.run_bind, RunStore.storeAfter]
  cases (RunStore.cancelRun encoding runId).run store <;> rfl

/-- What the store holds of the run of an engine: the last snapshot that it took,
or a cancelled copy. -/
def Holds (encoding : Encoding) (env : Env) (machine : Machine) (store : RunStore) : Prop :=
  store.loadState encoding env.runId = .ok none ∨
    (∃ text, encoding.dumps env.params = .ok text) ∧
      (store.loadState encoding env.runId = .ok (some .cancelled) ∨
        store.loadState encoding env.runId = .ok (some machine.shared.run.workflowState))

namespace Holds

theorem loadState_of_loadRun {run : RunSnapshot}
    (loaded : RunStore.loadRun encoding store runId = .ok (some run)) :
    store.loadState encoding runId = .ok (some run.workflowState) := by
  rw [RunStore.loadState, loaded]
  rfl

/-- A snapshot of the run is stored, when its parameters can be written. -/
theorem snapshot (holds : Holds encoding env machine store)
    (run : engine.Steps env (engine.start env) next) :
    Holds encoding env next
        (RunStore.storeAfter (RunStore.saveRun encoding next.shared.run.snapshot) store) ∧
      (store.loadState encoding env.runId ≠ .ok none →
        (RunStore.storeAfter (RunStore.saveRun encoding next.shared.run.snapshot) store).loadState
          encoding env.runId = .ok (some next.shared.run.workflowState)) := by
  have identity := RunIdentity.steps run
  have keyed : next.shared.run.snapshot.Keyed := identity.keyed
  have params : next.shared.run.snapshot.params = env.params := identity.params
  by_cases serializable : ∃ text, encoding.dumps env.params = .ok text
  · have storable : RunStore.Storable encoding next.shared.run.snapshot :=
      ⟨params ▸ serializable, keyed.distinct⟩
    have loaded := (RunStore.storeAfter_saveRun storable store).loadRun
    rw [show next.shared.run.snapshot.runId = env.runId from identity.runId] at loaded
    have state := loadState_of_loadRun loaded
    exact ⟨.inr ⟨serializable, .inr state⟩, fun _ => state⟩
  · have refused : ¬ RunStore.Storable encoding next.shared.run.snapshot := fun storable =>
      serializable (params ▸ storable.serializable)
    have unknown := holds.resolve_right fun known => serializable known.1
    rw [RunStore.storeAfter_saveRun_of_not refused]
    exact ⟨.inl unknown, fun known => absurd unknown known⟩

/-- A save of another run is not seen. -/
theorem loadState_other (encoding : Encoding) {run : RunSnapshot} (different : run.runId ≠ runId)
    (store : RunStore) :
    (RunStore.storeAfter (RunStore.saveRun encoding run) store).loadState encoding runId =
      store.loadState encoding runId := by
  rcases RunStore.loadRun_storeAfter_saveRun encoding run store runId with
    same | ⟨_, sameId, _⟩
  · rw [RunStore.loadState, same, RunStore.loadState]
  · exact absurd sameId different

/-- A cancel changes the state of a run to `cancelled`, which is legal, or not at all. -/
theorem loadState_cancel (encoding : Encoding) (runId other : String) (store : RunStore) :
    let after := RunStore.storeAfter (RunStore.cancelRun encoding other) store
    after.loadState encoding runId = store.loadState encoding runId ∨
      ∃ state, store.loadState encoding runId = .ok (some state) ∧ ¬ state.IsTerminal ∧
        after.loadState encoding runId = .ok (some .cancelled) := by
  intro after
  rcases RunStore.storeAfter_cancelRun encoding other store with same | cancelled
  · exact .inl (congrArg (·.loadState encoding runId) same)
  · obtain ⟨run, loaded, inProgress, saved⟩ := RunStore.cancelRun_eq_true_iff.mp cancelled
    have sameId : run.cancelled.runId = other :=
      (RunStore.runId_of_loadRun loaded : run.runId = other)
    by_cases own : runId = other
    · subst own
      have reloaded := saved.loadRun
      rw [sameId] at reloaded
      exact .inr ⟨run.workflowState, loadState_of_loadRun loaded, inProgress,
        loadState_of_loadRun reloaded⟩
    · left
      have different : runId ≠ run.cancelled.runId := by
        rw [sameId]
        exact own
      have unseen := saved.loadRun_of_ne different
      simp only [RunStore.loadState]
      exact congrArg _ unseen

/-- A step that keeps the loaded state, or cancels it, keeps what the store holds. -/
theorem of_loadState (holds : Holds encoding env machine store) {after : RunStore}
    (state : after.loadState encoding env.runId = store.loadState encoding env.runId ∨
      ∃ state, store.loadState encoding env.runId = .ok (some state) ∧ ¬ state.IsTerminal ∧
        after.loadState encoding env.runId = .ok (some .cancelled)) :
    Holds encoding env machine after := by
  rcases state with same | ⟨state, known, _, cancelled⟩
  · rw [Holds, same]
    exact holds
  · rcases holds with unknown | ⟨serializable, _⟩
    · rw [known] at unknown
      cases unknown
    · exact .inr ⟨serializable, .inl cancelled⟩

/-- What the store holds has a state, which stutters. -/
theorem stutters (holds : Holds encoding env machine store) :
    Advances (store.loadState encoding env.runId) (store.loadState encoding env.runId) := by
  rcases holds with unknown | ⟨_, state | state⟩
  · rw [unknown]
    exact .unknown none
  · rw [state]
    exact .stutter _
  · rw [state]
    exact .stutter _

/-- A cancel is a legal step of the stored state. -/
theorem advances (holds : Holds encoding env machine store) {after : RunStore}
    (state : after.loadState encoding env.runId = store.loadState encoding env.runId ∨
      ∃ state, store.loadState encoding env.runId = .ok (some state) ∧ ¬ state.IsTerminal ∧
        after.loadState encoding env.runId = .ok (some .cancelled)) :
    Advances (store.loadState encoding env.runId) (after.loadState encoding env.runId) := by
  rcases state with same | ⟨state, known, inProgress, cancelled⟩
  · rw [same]
    exact holds.stutters
  · rw [known, cancelled]
    apply Advances.move
    cases state with
    | pending => decide
    | running => decide
    | success => exact absurd (.inl rfl) inProgress
    | failed => exact absurd (.inr (.inl rfl)) inProgress
    | cancelled => exact absurd (.inr (.inr rfl)) inProgress

/-- A snapshot is a legal step of the stored state unless the run is cancelled there. -/
theorem advances_snapshot_iff (holds : Holds encoding env machine store)
    (begun : engine.Steps env (engine.start env) machine)
    (run : engine.Steps env machine next) :
    Advances (store.loadState encoding env.runId)
        ((RunStore.storeAfter (RunStore.saveRun encoding next.shared.run.snapshot)
          store).loadState encoding env.runId) ↔
      store.loadState encoding env.runId ≠ .ok (some .cancelled) := by
  obtain ⟨_, state⟩ := holds.snapshot (begun.trans run)
  rcases holds with unknown | ⟨_, cancelled | current⟩
  · obtain ⟨after, _⟩ := Holds.snapshot (.inl unknown : Holds encoding env machine store)
      (begun.trans run)
    rw [unknown]
    refine iff_of_true ?_ nofun
    rcases after with loaded | ⟨_, loaded | loaded⟩ <;> rw [loaded] <;> exact .unknown _
  · rw [cancelled] at state ⊢
    rw [state nofun]
    refine iff_of_false (fun advances => ?_) fun different => different rfl
    exact workflowState_ne_cancelled (begun.trans run)
      (Option.some.inj (Except.ok.inj advances.eq_cancelled))
  · rw [current] at state ⊢
    rw [state nofun]
    refine iff_of_true (.of_steps begun run) fun same => ?_
    exact workflowState_ne_cancelled begun (Option.some.inj (Except.ok.inj same))

end Holds

/-! ## Histories -/

theorem NoSaveAfterCancel.cons_iff {call : StoreCall} {rest : List StoreCall} :
    NoSaveAfterCancel encoding runId store (call :: rest) ↔
      (∀ run, call = .save run → run.runId = runId →
        store.loadState encoding runId ≠ .ok (some .cancelled)) ∧
      NoSaveAfterCancel encoding runId
        (RunStore.storeAfter (call.program encoding) store) rest := by
  constructor
  · intro none
    refine ⟨fun run save own => ?_, fun before run after split own => ?_⟩
    · subst save
      exact none [] run rest rfl own
    · exact none (call :: before) run after (by rw [split]; rfl) own
  · rintro ⟨first, later⟩ before run after split own
    cases before with
    | nil =>
        obtain ⟨rfl, rfl⟩ := List.cons.inj split
        exact first run rfl own
    | cons other before =>
        obtain ⟨rfl, rfl⟩ := List.cons.inj split
        exact later before run after rfl own

theorem head?_loadStates (runId : String) (store : RunStore) (calls : List StoreCall) :
    (RunStore.loadStates encoding runId store calls).head? =
      some (store.loadState encoding runId) := by
  cases calls <;> rfl

theorem isChain_loadStates_cons {call : StoreCall} {rest : List StoreCall} :
    (RunStore.loadStates encoding runId store (call :: rest)).IsChain Advances ↔
      Advances (store.loadState encoding runId)
        ((RunStore.storeAfter (call.program encoding) store).loadState encoding runId) ∧
      (RunStore.loadStates encoding runId
        (RunStore.storeAfter (call.program encoding) store) rest).IsChain Advances := by
  rw [RunStore.loadStates, List.isChain_cons, head?_loadStates]
  simp

/-- The stored states form a path exactly when no snapshot is saved over a
cancelled run. -/
theorem isChain_loadStates_iff (encoding : Encoding) {calls : List StoreCall}
    (saves : EngineSaves engine.toWorkflowEngine env machine calls) :
    engine.Steps env (engine.start env) machine → ∀ store, Holds encoding env machine store →
      ((RunStore.loadStates encoding env.runId store calls).IsChain Advances ↔
        NoSaveAfterCancel encoding env.runId store calls) := by
  induction saves with
  | nil machine =>
      intro _ store _
      refine iff_of_true (List.isChain_singleton _) fun before run after split => ?_
      simp at split
  | @snapshot machine next rest run later ih =>
      intro begun store holds
      have sameId : next.shared.run.snapshot.runId = env.runId :=
        (RunIdentity.steps (begun.trans run)).runId
      rw [isChain_loadStates_cons, NoSaveAfterCancel.cons_iff, storeAfter_save,
        holds.advances_snapshot_iff begun run,
        ih (begun.trans run) _ (holds.snapshot (begun.trans run)).1]
      refine and_congr_left fun _ => ⟨fun different _ _ _ => different, fun none => ?_⟩
      exact none _ rfl sameId
  | @other machine run rest different later ih =>
      intro begun store holds
      have unseen := Holds.loadState_other encoding different store
      rw [isChain_loadStates_cons, NoSaveAfterCancel.cons_iff, storeAfter_save,
        ih begun _ (holds.of_loadState (.inl unseen))]
      refine and_congr_left fun _ => iff_of_true (holds.advances (.inl unseen)) ?_
      intro saved same own
      cases same
      exact absurd own different
  | @cancel machine rest runId later ih =>
      intro begun store holds
      have seen := Holds.loadState_cancel encoding env.runId runId store
      rw [isChain_loadStates_cons, NoSaveAfterCancel.cons_iff, storeAfter_cancel,
        ih begun _ (holds.of_loadState seen)]
      exact and_congr_left fun _ => iff_of_true (holds.advances seen) nofun

theorem afterCalls_append (encoding : Encoding) (store : RunStore) (before later : List StoreCall) :
    RunStore.afterCalls encoding store (before ++ later) =
      RunStore.afterCalls encoding (RunStore.afterCalls encoding store before) later := by
  induction before generalizing store with
  | nil => rfl
  | cons call rest ih => exact ih _

/-- A part of a path is a path. -/
theorem isChain_of_append (before : List StoreCall) {later : List StoreCall} :
    ∀ {store : RunStore},
      (RunStore.loadStates encoding runId store (before ++ later)).IsChain Advances →
        (RunStore.loadStates encoding runId (RunStore.afterCalls encoding store before)
          later).IsChain Advances := by
  induction before with
  | nil => exact id
  | cons call rest ih => exact fun path => ih (isChain_loadStates_cons.mp path).2

/-- On a path a cancelled run stays cancelled. -/
theorem loadState_eq_cancelled (later : List StoreCall) {after : List StoreCall} :
    ∀ {store : RunStore},
      (RunStore.loadStates encoding runId store (later ++ after)).IsChain Advances →
        store.loadState encoding runId = .ok (some .cancelled) →
          (RunStore.afterCalls encoding store later).loadState encoding runId =
            .ok (some .cancelled) := by
  induction later with
  | nil => exact fun _ cancelled => cancelled
  | cons call rest ih =>
      intro store path cancelled
      obtain ⟨advances, laterPath⟩ := isChain_loadStates_cons.mp path
      rw [cancelled] at advances
      exact ih laterPath advances.eq_cancelled

theorem loadState_of_cancelRun {after : RunStore}
    (returned : (RunStore.cancelRun encoding runId).run store = .ok true after) :
    (RunStore.storeAfter ((StoreCall.cancel runId).program encoding) store).loadState encoding
      runId = .ok (some .cancelled) := by
  obtain ⟨run, loaded, _, saved⟩ := RunStore.cancelRun_eq_true_iff.mp returned
  have sameId : run.cancelled.runId = runId :=
    (RunStore.runId_of_loadRun loaded : run.runId = runId)
  have reloaded := saved.loadRun
  rw [sameId] at reloaded
  rw [storeAfter_cancel, RunStore.storeAfter, returned]
  exact Holds.loadState_of_loadRun reloaded

/-- **A store in which a run is not yet known keeps to the transitions of the run,
and to its cancels, exactly when no snapshot of the run is saved while the run is
cancelled there.** -/
theorem isHistory_iff (encoding : Encoding) (engine : AcceptedEngine) (env : Env)
    (store : RunStore) (unknown : store.loadRun encoding env.runId = .ok none)
    (calls : List StoreCall)
    (saves : EngineSaves engine.toWorkflowEngine env (engine.start env) calls) :
    IsHistory encoding env.runId store calls ↔
      NoSaveAfterCancel encoding env.runId store calls := by
  have holds : Holds encoding env (engine.start env) store := by
    left
    rw [RunStore.loadState, unknown]
    rfl
  rw [← isChain_loadStates_iff encoding saves .refl store holds]
  refine ⟨IsHistory.path, fun path => ⟨path, fun before later after split returned => ?_⟩⟩
  obtain ⟨next, returned⟩ := returned
  rw [split] at path
  have suffix := isChain_loadStates_cons.mp (isChain_of_append before path)
  rw [afterCalls_append]
  exact loadState_eq_cancelled later suffix.2 (loadState_of_cancelRun returned)

end

/-- A run that is saved at its start and then cancelled. -/
theorem isHistory_pipeline :
    IsHistory .sample "run" ∅ [.save ((pipeline 2 (by decide)).start
      { runId := "run" }).shared.run.snapshot, .cancel "run"] := by
  refine (isHistory_iff .sample (pipeline 2 (by decide)) { runId := "run" } ∅ rfl _
    (.snapshot .refl (.cancel "run" (.nil _)))).mpr ?_
  rw [NoSaveAfterCancel.cons_iff, NoSaveAfterCancel.cons_iff]
  refine ⟨fun _ _ _ => nofun, nofun, fun before run after split => ?_⟩
  simp at split

/-- A run is cancelled while its engine executes it, and the engine saves it at the
end: the stored state goes from `cancelled` to `failed`. -/
theorem not_isHistory_of_final_save : ∃ final,
    (pipeline 2 (by decide)).Steps { runId := "run" }
        ((pipeline 2 (by decide)).start { runId := "run" }) final ∧
      final.status = .returned ∧
      EngineSaves (pipeline 2 (by decide)).toWorkflowEngine { runId := "run" }
        ((pipeline 2 (by decide)).start { runId := "run" })
        [.save ((pipeline 2 (by decide)).start { runId := "run" }).shared.run.snapshot,
          .cancel "run", .save final.shared.run.snapshot] ∧
      ¬ IsHistory .sample "run" ∅
        [.save ((pipeline 2 (by decide)).start { runId := "run" }).shared.run.snapshot,
          .cancel "run", .save final.shared.run.snapshot] := by
  have ended : ((pipeline 2 (by decide)).replay { runId := "run" }
      ((pipeline 2 (by decide)).start { runId := "run" }) pipelineChoices).map
        (·.status) = some .returned := by decide +kernel
  obtain ⟨final, replayed, returned⟩ := Option.map_eq_some_iff.mp ended
  have run := steps_of_replay _ _ replayed
  have saves : EngineSaves (pipeline 2 (by decide)).toWorkflowEngine { runId := "run" }
      ((pipeline 2 (by decide)).start { runId := "run" })
      [.save ((pipeline 2 (by decide)).start { runId := "run" }).shared.run.snapshot,
        .cancel "run", .save final.shared.run.snapshot] :=
    .snapshot .refl (.cancel "run" (.snapshot run (.nil final)))
  refine ⟨final, run, returned, saves, fun history => ?_⟩
  have noSave := (isChain_loadStates_iff .sample saves .refl ∅ (.inl rfl)).mp
    history.path
  obtain ⟨store, after, saved, cancelled⟩ := RunStore.exists_cancelRun .sample
    (.refl : (pipeline 2 (by decide)).Steps { runId := "run" } _ _) (by decide +kernel) rfl ∅
  have stored : RunStore.afterCalls .sample ∅
      [.save ((pipeline 2 (by decide)).start { runId := "run" }).shared.run.snapshot] = store := by
    rw [RunStore.afterCalls, RunStore.afterCalls, storeAfter_save, RunStore.storeAfter, saved]
  apply noSave [.save _, .cancel "run"] final.shared.run.snapshot [] rfl
    (RunIdentity.steps run).runId
  have split := afterCalls_append .sample ∅
    [.save ((pipeline 2 (by decide)).start { runId := "run" }).shared.run.snapshot]
    [.cancel "run"]
  rw [List.singleton_append, stored] at split
  rw [split]
  exact loadState_of_cancelRun cancelled

end EtlOrchestrator
