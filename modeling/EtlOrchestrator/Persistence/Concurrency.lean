import EtlOrchestrator.Foundations.SerialOrder
import EtlOrchestrator.Persistence.SerialHistory

/-!
# Concurrent calls on one store

The calls of several threads, of which each section under the lock is one atomic
step. A save is a single section. A cancel is two: it loads the run, and if the run
is in progress it saves the cancelled copy of what it has loaded.

When each cancel writes while the store still has the run that it loaded, the calls
are serial in the order in which they return. A cancel that writes later discards
what was saved in between.
-/

set_option autoImplicit false

namespace EtlOrchestrator

open Relation

/-- Where a call stands. -/
inductive CallStage where
  | notStarted
  /-- A cancel has loaded a run in progress and is going to save its cancelled copy. -/
  | holding (run : RunSnapshot)
  | returned (result : Except PyError (Option Bool))

/-- The result of a call that has returned or raised. -/
def CallStage.result? : CallStage → Option (Except PyError (Option Bool))
  | returned result => some result
  | _ => none

/-- A store with concurrent calls. -/
structure Concurrent (ι : Type) where
  store : RunStore
  stage : ι → CallStage := fun _ => .notStarted

namespace RunStore

/-- What a program returns or raises. -/
def resultOf {α : Type} (program : Storing α) (store : RunStore) : Except PyError α :=
  match program.run store with
  | .ok result _ => .ok result
  | .error error _ => .error error

variable (encoding : Encoding)

/-- `cancel_run` up to its save. -/
def cancelLoad (runId : String) (store : RunStore) : CallStage :=
  match loadRun encoding store runId with
  | .error error => .returned (.error error)
  | .ok none => .returned (.ok (some false))
  | .ok (some run) =>
      if run.workflowState.IsTerminal then .returned (.ok (some false)) else .holding run

/-- `cancel_run` from its save on. -/
def cancelWrite (run : RunSnapshot) : Storing (Option Bool) := do
  saveRun encoding run.cancelled
  return some true

end RunStore

/-- What a call does as a whole. -/
def StoreCall.effect (encoding : Encoding) (call : StoreCall) (store : RunStore) :
    Except PyError (Option Bool) × RunStore :=
  (RunStore.resultOf (call.program encoding) store,
    RunStore.storeAfter (call.program encoding) store)

section

variable {ι : Type} [DecidableEq ι]

/-- The atomic step of a call. -/
inductive CallStep (encoding : Encoding) (calls : ι → StoreCall) (thread : ι) :
    Concurrent ι → Concurrent ι → Prop where
  | save {state : Concurrent ι} {run : RunSnapshot} (call : calls thread = .save run)
      (fresh : state.stage thread = .notStarted) :
      CallStep encoding calls thread state
        { store := RunStore.storeAfter ((StoreCall.save run).program encoding) state.store
          stage := Function.update state.stage thread
            (.returned (RunStore.resultOf ((StoreCall.save run).program encoding) state.store)) }
  | load {state : Concurrent ι} {runId : String} (call : calls thread = .cancel runId)
      (fresh : state.stage thread = .notStarted) :
      CallStep encoding calls thread state
        { state with
          stage := Function.update state.stage thread
            (RunStore.cancelLoad encoding runId state.store) }
  | write {state : Concurrent ι} {runId : String} {run : RunSnapshot}
      (call : calls thread = .cancel runId) (held : state.stage thread = .holding run) :
      CallStep encoding calls thread state
        { store := RunStore.storeAfter (RunStore.cancelWrite encoding run) state.store
          stage := Function.update state.stage thread
            (.returned (RunStore.resultOf (RunStore.cancelWrite encoding run) state.store)) }

/-- A cancel that is going to save holds the run that the store has. -/
def UpToDate (encoding : Encoding) (calls : ι → StoreCall) (thread : ι)
    (state : Concurrent ι) : Prop :=
  ∀ runId run, calls thread = .cancel runId → state.stage thread = .holding run →
    state.store.loadRun encoding runId = .ok (some run)

/-- The runs of concurrent calls. -/
abbrev CallSteps (encoding : Encoding) (calls : ι → StoreCall) :
    Concurrent ι → Concurrent ι → Prop :=
  ReflTransGen fun state next => ∃ thread, CallStep encoding calls thread state next

/-- The runs in which every save of a cancel is up to date. -/
abbrev UpToDateSteps (encoding : Encoding) (calls : ι → StoreCall) :
    Concurrent ι → Concurrent ι → Prop :=
  ReflTransGen fun state next => ∃ thread,
    UpToDate encoding calls thread state ∧ CallStep encoding calls thread state next

/-! ## Calls as a whole -/

variable {encoding : Encoding} {calls : ι → StoreCall} {thread : ι} {state next : Concurrent ι}
  {runId : String} {run : RunSnapshot} {store initial : RunStore}

theorem effect_cancel (runId : String) (store : RunStore) :
    (StoreCall.cancel runId).effect encoding store =
      match (RunStore.cancelRun encoding runId).run store with
      | .ok result after => (.ok (some result), after)
      | .error error after => (.error error, after) := by
  rw [StoreCall.effect, RunStore.resultOf, RunStore.storeAfter, StoreCall.program,
    EStateM.run_bind]
  cases (RunStore.cancelRun encoding runId).run store <;> rfl

/-- A cancel that returns after its load has read the store and nothing else. -/
theorem effect_cancel_of_returned {result : Except PyError (Option Bool)}
    (loaded : RunStore.cancelLoad encoding runId store = .returned result) :
    (StoreCall.cancel runId).effect encoding store = (result, store) := by
  rw [effect_cancel, RunStore.cancelRun_run]
  rw [RunStore.cancelLoad] at loaded
  cases found : RunStore.loadRun encoding store runId with
  | error error =>
      rw [found] at loaded
      cases loaded
      rfl
  | ok run =>
      rw [found] at loaded
      cases run with
      | none =>
          cases loaded
          rfl
      | some run =>
          dsimp only at loaded ⊢
          split at loaded
          · rw [if_pos ‹_›]
            cases loaded
            rfl
          · cases loaded

/-- A cancel of a run that the store has in progress writes its cancelled copy. -/
theorem effect_cancel_of_loadRun (loaded : store.loadRun encoding runId = .ok (some run))
    (inProgress : ¬ run.workflowState.IsTerminal) :
    (StoreCall.cancel runId).effect encoding store =
      (RunStore.resultOf (RunStore.cancelWrite encoding run) store,
        RunStore.storeAfter (RunStore.cancelWrite encoding run) store) := by
  rw [effect_cancel, RunStore.cancelRun_run, loaded, RunStore.resultOf, RunStore.storeAfter,
    RunStore.cancelWrite, EStateM.run_bind]
  dsimp only
  rw [if_neg inProgress]
  cases (RunStore.saveRun encoding run.cancelled).run store <;> rfl

/-- A cancel holds only a run in progress. -/
theorem inProgress_of_cancelLoad
    (loaded : RunStore.cancelLoad encoding runId store = .holding run) :
    ¬ run.workflowState.IsTerminal := by
  rw [RunStore.cancelLoad] at loaded
  split at loaded
  · cases loaded
  · cases loaded
  · split at loaded
    · cases loaded
    · cases loaded
      assumption

/-! ## The serial order -/

/-- The results so far. -/
def Concurrent.results (state : Concurrent ι) (thread : ι) :
    Option (Except PyError (Option Bool)) :=
  (state.stage thread).result?

/-- What holds in each state of a run in which every save of a cancel is up to date. -/
structure ConcurrentOk (encoding : Encoding) (calls : ι → StoreCall) (initial : RunStore)
    (state : Concurrent ι) : Prop where
  serial : ∃ order, SerialOrder (fun thread => (calls thread).effect encoding) initial order
    state.results state.store
  inProgress : ∀ thread run, state.stage thread = .holding run → ¬ run.workflowState.IsTerminal

theorem results_update (state : Concurrent ι) (store : RunStore) (thread : ι) (stage : CallStage) :
    Concurrent.results { store, stage := Function.update state.stage thread stage } =
      Function.update state.results thread stage.result? :=
  Function.comp_update CallStage.result? state.stage thread stage

/-- A step that returns takes effect as a whole. -/
theorem ConcurrentOk.returns (ok : ConcurrentOk encoding calls initial state)
    (pending : state.results thread = none) {result : Except PyError (Option Bool)}
    {after : RunStore} (effect : (calls thread).effect encoding state.store = (result, after)) :
    ConcurrentOk encoding calls initial
      { store := after, stage := Function.update state.stage thread (.returned result) } := by
  obtain ⟨⟨order, serial⟩, inProgress⟩ := ok
  refine ⟨⟨order ++ [thread], ?_⟩, fun other run held => ?_⟩
  · have concat := serial.concat pending
    rw [effect] at concat
    rw [results_update]
    exact concat
  · dsimp only at held
    by_cases same : other = thread
    · subst same
      simp at held
    · rw [Function.update_of_ne same] at held
      exact inProgress other run held

/-- **An up-to-date step keeps the calls serial.** -/
theorem ConcurrentOk.step (ok : ConcurrentOk encoding calls initial state)
    (upToDate : UpToDate encoding calls thread state)
    (step : CallStep encoding calls thread state next) :
    ConcurrentOk encoding calls initial next := by
  cases step with
  | save call fresh =>
      have pending : state.results thread = none := by rw [Concurrent.results, fresh]; rfl
      exact ok.returns pending (by rw [call]; rfl)
  | @load runId call fresh =>
      have pending : state.results thread = none := by rw [Concurrent.results, fresh]; rfl
      cases loaded : RunStore.cancelLoad encoding runId state.store with
      | returned result =>
          exact ok.returns pending (by rw [call]; exact effect_cancel_of_returned loaded)
      | notStarted =>
          rw [RunStore.cancelLoad] at loaded
          split at loaded
          · cases loaded
          · cases loaded
          · split at loaded <;> cases loaded
      | holding run =>
          refine ⟨?_, fun other held isHeld => ?_⟩
          · have same : Concurrent.results
                { state with stage := Function.update state.stage thread (.holding run) } =
                  state.results := by
              rw [results_update, Function.update_eq_self_iff, pending]
              rfl
            rw [same]
            exact ok.serial
          · dsimp only at isHeld
            by_cases same : other = thread
            · subst same
              rw [Function.update_self] at isHeld
              cases isHeld
              exact inProgress_of_cancelLoad loaded
            · rw [Function.update_of_ne same] at isHeld
              exact ok.inProgress other held isHeld
  | @write runId run call held =>
      have pending : state.results thread = none := by rw [Concurrent.results, held]; rfl
      apply ok.returns pending
      rw [call]
      exact effect_cancel_of_loadRun (upToDate runId run call held)
        (ok.inProgress thread run held)

theorem ConcurrentOk.steps (run : UpToDateSteps encoding calls { store := initial } state) :
    ConcurrentOk encoding calls initial state := by
  induction run with
  | refl => exact ⟨⟨[], .nil fun _ => rfl⟩, fun _ _ held => by cases held⟩
  | tail _ last ih =>
      obtain ⟨thread, upToDate, step⟩ := last
      exact ih.step upToDate step

/-! ## Two cancels of one run -/

/-- A call that does not save a run leaves it cancelled. -/
theorem loadState_effect (call : StoreCall)
    (noSave : ∀ run, call = .save run → run.runId ≠ runId)
    (cancelled : store.loadState encoding runId = .ok (some .cancelled)) :
    (call.effect encoding store).2.loadState encoding runId = .ok (some .cancelled) := by
  cases call with
  | save run =>
      rw [StoreCall.effect, storeAfter_save, Holds.loadState_other _ (noSave run rfl), cancelled]
  | cancel other =>
      rw [StoreCall.effect, storeAfter_cancel]
      rcases Holds.loadState_cancel encoding runId other store with
        same | ⟨_, _, _, again⟩
      · rw [same, cancelled]
      · exact again

omit [DecidableEq ι] in
theorem loadState_serialState (later : List ι)
    (noSave : ∀ thread ∈ later, ∀ run, calls thread = .save run → run.runId ≠ runId) :
    ∀ store : RunStore, store.loadState encoding runId = .ok (some .cancelled) →
      (serialState (fun thread => (calls thread).effect encoding) store later).loadState encoding
        runId = .ok (some .cancelled) := by
  induction later with
  | nil => exact fun _ cancelled => cancelled
  | cons thread rest ih =>
      intro store cancelled
      apply ih fun other member => noSave other (List.mem_cons_of_mem _ member)
      exact loadState_effect (calls thread) (noSave thread List.mem_cons_self) cancelled

/-- What a cancel that returns `true` has met and what it leaves. -/
theorem cancelRun_of_effect (returned : ((StoreCall.cancel runId).effect encoding store).1 =
    .ok (some true)) : ∃ after, (RunStore.cancelRun encoding runId).run store = .ok true after ∧
      ((StoreCall.cancel runId).effect encoding store).2 = after := by
  rw [effect_cancel] at returned ⊢
  cases ran : (RunStore.cancelRun encoding runId).run store with
  | ok result after =>
      rw [ran] at returned
      cases returned
      exact ⟨after, rfl, rfl⟩
  | error error after =>
      rw [ran] at returned
      cases returned

omit [DecidableEq ι] in
/-- Of two cancels of one run that return `true`, the second one comes after a save
of the run. -/
theorem save_between {order : List ι} {result : ι → Option (Except PyError (Option Bool))}
    (serial : SerialOrder (fun thread => (calls thread).effect encoding) initial order result store)
    {before later after : List ι} {first second : ι}
    (split : order = before ++ first :: (later ++ second :: after))
    (firstCall : calls first = .cancel runId) (secondCall : calls second = .cancel runId)
    (firstTrue : result first = some (.ok (some true)))
    (secondTrue : result second = some (.ok (some true))) :
    ∃ thread ∈ later, ∃ run, calls thread = .save run ∧ run.runId = runId := by
  by_contra none
  have noSave : ∀ thread ∈ later, ∀ run, calls thread = .save run → run.runId ≠ runId :=
    fun thread member run call own => none ⟨thread, member, run, call, own⟩
  have firstResult := serial.results before first (later ++ second :: after) split
  have secondResult := serial.results (before ++ first :: later) second after (by rw [split]; simp)
  rw [firstTrue, Option.some_inj, firstCall] at firstResult
  rw [secondTrue, Option.some_inj, secondCall, serialState_append] at secondResult
  obtain ⟨middle, cancelled, next⟩ := cancelRun_of_effect firstResult.symm
  obtain ⟨_, again, _⟩ := cancelRun_of_effect secondResult.symm
  -- After the first cancel the run is terminal, and stays so until the second one.
  have state : (serialState (fun thread => (calls thread).effect encoding)
      (serialState (fun thread => (calls thread).effect encoding) initial before)
      (first :: later)).loadState encoding runId = .ok (some .cancelled) := by
    apply loadState_serialState later noSave
    dsimp only
    rw [firstCall, StoreCall.effect]
    exact loadState_of_cancelRun cancelled
  obtain ⟨run, loaded, inProgress, _⟩ := RunStore.cancelRun_eq_true_iff.mp again
  rw [Holds.loadState_of_loadRun loaded] at state
  exact inProgress (.inr (.inr (Option.some.inj (Except.ok.inj state))))

/-- An up-to-date write of a cancel replaces the stored run by its cancelled copy. -/
theorem loadRun_of_write (loaded : store.loadRun encoding runId = .ok (some run))
    (inProgress : ¬ run.workflowState.IsTerminal)
    (returned : RunStore.resultOf (RunStore.cancelWrite encoding run) store = .ok (some true)) :
    (RunStore.storeAfter (RunStore.cancelWrite encoding run) store).loadRun encoding runId =
      .ok (some run.cancelled.reload) := by
  have effect := effect_cancel_of_loadRun loaded inProgress
  obtain ⟨after, cancelled, same⟩ := cancelRun_of_effect
    (show ((StoreCall.cancel runId).effect encoding store).1 = .ok (some true) by
      rw [effect, returned])
  rw [effect] at same
  obtain ⟨other, otherLoaded, _, saved⟩ := RunStore.cancelRun_eq_true_iff.mp cancelled
  rw [loaded] at otherLoaded
  cases otherLoaded
  have sameId : run.cancelled.runId = runId :=
    (RunStore.runId_of_loadRun loaded : run.runId = runId)
  rw [← saved.loadRun, sameId, ← same]

/-- **When no cancel writes a run that the store no longer has, the calls are serial
in the order in which they return. Each cancel that writes then replaces the stored
run, which is in progress, by its own cancelled copy, and two cancels of one run
that both return `true` have a save of the run between them.** -/
theorem concurrent_calls_serial (encoding : Encoding) (calls : ι → StoreCall) (initial : RunStore)
    {state : Concurrent ι} (run : UpToDateSteps encoding calls { store := initial } state) :
    (∃ order, SerialOrder (fun thread => (calls thread).effect encoding) initial order
        state.results state.store ∧
      ∀ before first later second after runId,
        order = before ++ first :: (later ++ second :: after) →
        calls first = .cancel runId → calls second = .cancel runId →
        state.results first = some (.ok (some true)) →
        state.results second = some (.ok (some true)) →
        ∃ thread ∈ later, ∃ saved, calls thread = .save saved ∧ saved.runId = runId) ∧
    ∀ thread next runId held, calls thread = .cancel runId → state.stage thread = .holding held →
      UpToDate encoding calls thread state → CallStep encoding calls thread state next →
      ∃ stored, state.store.loadRun encoding runId = .ok (some stored) ∧
        ¬ stored.workflowState.IsTerminal ∧
        (next.results thread = some (.ok (some true)) →
          next.store.loadRun encoding runId = .ok (some stored.cancelled.reload)) := by
  have ok := ConcurrentOk.steps run
  obtain ⟨order, serial⟩ := ok.serial
  refine ⟨⟨order, serial, fun before first later second after runId split firstCall secondCall
    firstTrue secondTrue => save_between serial split firstCall secondCall firstTrue secondTrue⟩,
    fun thread next runId held call isHeld upToDate step => ?_⟩
  have loaded := upToDate runId held call isHeld
  have inProgress := ok.inProgress thread held isHeld
  refine ⟨held, loaded, inProgress, fun returned => ?_⟩
  cases step with
  | save otherCall fresh =>
      rw [isHeld] at fresh
      cases fresh
  | load otherCall fresh =>
      rw [isHeld] at fresh
      cases fresh
  | write otherCall otherHeld =>
      rw [isHeld] at otherHeld
      cases otherHeld
      rw [results_update, Function.update_self] at returned
      exact loadRun_of_write loaded inProgress (Option.some.inj returned)

/-! ## Cancels of the sample run -/

namespace RunStore

/-- The store after the sample run was saved. -/
def sampleStore : RunStore := storeAfter (saveRun .sample sampleRun) ∅

theorem loadRun_sampleStore : sampleStore.loadRun .sample "r" = .ok (some sampleRun.reload) :=
  (storeAfter_saveRun sampleRun_storable ∅).loadRun

theorem cancelLoad_sampleRun {store : RunStore}
    (loaded : store.loadRun .sample "r" = .ok (some sampleRun.reload)) :
    cancelLoad .sample "r" store = .holding sampleRun.reload := by
  rw [cancelLoad, loaded]
  rfl

theorem resultOf_cancelWrite (store : RunStore) :
    resultOf (cancelWrite .sample sampleRun.reload) store = .ok (some true) := by
  have keyed := RunSnapshot.keyed_reload sampleRun_keyed.distinct
  have storable : Storable .sample sampleRun.reload.cancelled :=
    ⟨⟨"{}", rfl⟩, RunSnapshot.Keyed.distinct keyed⟩
  obtain ⟨after, saved⟩ := (saveRun_returns_iff store).mpr storable
  rw [resultOf, cancelWrite, EStateM.run_bind, saved]
  rfl

end RunStore

/-- A cancel of the sample run loads it. -/
theorem CallStep.sampleLoad {calls : ι → StoreCall} {thread : ι} (call : calls thread = .cancel "r")
    (state : Concurrent ι)
    (loaded : state.store.loadRun .sample "r" = .ok (some RunStore.sampleRun.reload))
    (fresh : state.stage thread = .notStarted) :
    CallStep .sample calls thread state { state with
      stage := Function.update state.stage thread (.holding RunStore.sampleRun.reload) } := by
  rw [← RunStore.cancelLoad_sampleRun loaded]
  exact .load call fresh

/-- A cancel that has loaded the sample run writes it, whatever the store has. -/
theorem CallStep.sampleWrite {calls : ι → StoreCall} {thread : ι}
    (call : calls thread = .cancel "r") (state : Concurrent ι)
    (held : state.stage thread = .holding RunStore.sampleRun.reload) :
    CallStep .sample calls thread state
      { store := RunStore.storeAfter (RunStore.cancelWrite .sample RunStore.sampleRun.reload)
          state.store
        stage := Function.update state.stage thread (.returned (.ok (some true))) } := by
  rw [← RunStore.resultOf_cancelWrite state.store]
  exact .write call held

end

/-- A run of its own beside the sample run. -/
def otherRun : RunSnapshot := { RunStore.sampleRun with runId := "s" }

/-- Two cancels of the sample run and a save of the other one. -/
def sampleCalls : Fin 3 → StoreCall
  | 0 => .cancel "r"
  | 1 => .save otherRun
  | 2 => .cancel "r"

/-- A save of the other run does not touch the sample run. -/
theorem RunStore.loadRun_of_save_otherRun :
    (storeAfter ((StoreCall.save otherRun).program .sample) sampleStore).loadRun .sample "r" =
      .ok (some sampleRun.reload) := by
  have storable : Storable .sample otherRun := ⟨⟨"{}", rfl⟩, by decide⟩
  have different : "r" ≠ otherRun.runId := by decide
  rw [storeAfter_save, (storeAfter_saveRun storable _).loadRun_of_ne different]
  exact loadRun_sampleStore

/-- The other run is saved between the two sections of a cancel, and another cancel comes behind
them. -/
theorem concurrent_calls_serial_sample : ∃ state : Concurrent (Fin 3),
    UpToDateSteps .sample sampleCalls { store := RunStore.sampleStore } state ∧
      state.results 0 = some (.ok (some true)) ∧ state.results 1 = some (.ok none) ∧
      state.results 2 = some (.ok (some false)) ∧
      ∃ order, SerialOrder (fun thread => (sampleCalls thread).effect .sample)
        RunStore.sampleStore order state.results state.store := by
  let first : Concurrent (Fin 3) := { store := RunStore.sampleStore }
  let held : Concurrent (Fin 3) :=
    { first with stage := Function.update first.stage 0 (.holding RunStore.sampleRun.reload) }
  let saved : Concurrent (Fin 3) :=
    { store := RunStore.storeAfter ((StoreCall.save otherRun).program .sample) held.store
      stage := Function.update held.stage 1 (.returned
        (RunStore.resultOf ((StoreCall.save otherRun).program .sample) held.store)) }
  let written : Concurrent (Fin 3) :=
    { store := RunStore.storeAfter (RunStore.cancelWrite .sample RunStore.sampleRun.reload)
        saved.store
      stage := Function.update saved.stage 0 (.returned (.ok (some true))) }
  have kept : saved.store.loadRun .sample "r" = .ok (some RunStore.sampleRun.reload) :=
    RunStore.loadRun_of_save_otherRun
  have cancelled :
      RunStore.cancelLoad .sample "r" written.store = .returned (.ok (some false)) := by
    rw [RunStore.cancelLoad, loadRun_of_write kept (by decide)
      (RunStore.resultOf_cancelWrite saved.store)]
    rfl
  have cancels : sampleCalls 0 = .cancel "r" := rfl
  have load : CallStep .sample sampleCalls 0 first held :=
    .sampleLoad cancels first RunStore.loadRun_sampleStore rfl
  have save : CallStep .sample sampleCalls 1 held saved := .save rfl rfl
  have write : CallStep .sample sampleCalls 0 saved written :=
    .sampleWrite cancels saved rfl
  have again : CallStep .sample sampleCalls 2 written { written with
      stage := Function.update written.stage 2 (.returned (.ok (some false))) } := by
    rw [← cancelled]
    exact .load rfl rfl
  have current : UpToDate .sample sampleCalls 0 saved := by
    intro runId run call isHeld
    cases call
    cases isHeld
    exact kept
  have run := (((ReflTransGen.single ⟨0, fun _ _ _ isHeld => (by cases isHeld), load⟩ :
    UpToDateSteps .sample sampleCalls first held).tail
      ⟨1, fun _ _ isCancel _ => (by cases isCancel), save⟩).tail ⟨0, current, write⟩).tail
      ⟨2, fun _ _ _ isHeld => (by cases isHeld), again⟩
  obtain ⟨⟨order, serial, _⟩, _⟩ :=
    concurrent_calls_serial .sample sampleCalls RunStore.sampleStore run
  exact ⟨_, run, rfl, rfl, rfl, order, serial⟩

/-- Two cancels that both load a run before either of them writes it both return
`true`, as in no serial order. -/
theorem concurrent_cancels_not_serial : ∃ state : Concurrent Bool,
    CallSteps .sample (fun _ => .cancel "r") { store := RunStore.sampleStore } state ∧
      state.results false = some (.ok (some true)) ∧
      state.results true = some (.ok (some true)) ∧
      ¬ ∃ order, SerialOrder (fun _ => (StoreCall.cancel "r").effect .sample)
        RunStore.sampleStore order state.results state.store := by
  let calls : Bool → StoreCall := fun _ => .cancel "r"
  have isCancel : ∀ thread, calls thread = .cancel "r" := fun _ => rfl
  have firstLoad := CallStep.sampleLoad (isCancel false) { store := RunStore.sampleStore }
    RunStore.loadRun_sampleStore rfl
  have secondLoad := CallStep.sampleLoad (isCancel true)
    { store := RunStore.sampleStore
      stage := Function.update (fun _ => .notStarted) false (.holding RunStore.sampleRun.reload) }
    RunStore.loadRun_sampleStore rfl
  have firstWrite := CallStep.sampleWrite (isCancel false)
    { store := RunStore.sampleStore
      stage := Function.update (Function.update (fun _ => .notStarted) false
        (.holding RunStore.sampleRun.reload)) true (.holding RunStore.sampleRun.reload) } rfl
  have secondWrite := CallStep.sampleWrite (isCancel true)
    { store := RunStore.storeAfter
        (RunStore.cancelWrite .sample RunStore.sampleRun.reload) RunStore.sampleStore
      stage := Function.update (Function.update (Function.update (fun _ => .notStarted) false
        (.holding RunStore.sampleRun.reload)) true (.holding RunStore.sampleRun.reload)) false
          (.returned (.ok (some true))) } rfl
  refine ⟨_, (((ReflTransGen.single ⟨false, firstLoad⟩).tail ⟨true, secondLoad⟩).tail
    ⟨false, firstWrite⟩).tail ⟨true, secondWrite⟩, rfl, rfl, ?_⟩
  rintro ⟨order, serial⟩
  have noSave : ∀ later : List Bool, ¬ ∃ thread ∈ later, ∃ run,
      (fun _ : Bool => StoreCall.cancel "r") thread = .save run ∧ run.runId = "r" := by
    rintro later ⟨_, _, run, call, _⟩
    cases call
  obtain ⟨before, later, after, split | split⟩ := serial.split_pair
    (by decide : false ≠ true) rfl rfl
  · exact noSave later (save_between serial split rfl rfl rfl rfl)
  · exact noSave later (save_between serial split rfl rfl rfl rfl)

end EtlOrchestrator
