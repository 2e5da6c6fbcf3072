import EtlOrchestrator.Scheduler.BackgroundLoop

/-!
# Registrations that change during a tick

`run_once` reads the due names once, and looks each of them up when its turn comes.
Between two of these steps other threads and the callables of the tasks may call
`register` and `unregister`, where a call from a callable counts after the iteration
that runs it. A name that is unregistered in between is not passed over: its lookup
raises, and the due schedules after it are not run (`undisturbed_iff`).
-/

set_option autoImplicit false

namespace EtlOrchestrator

open Scheduling

/-! ## A call of `run_once` -/

/-- A call of `run_once` and the scheduler it works on. The call begins at `call`, and
has returned at `sleep`. -/
structure OnceCall where
  state : SchedulerState
  pc : LoopPc := .call

namespace OnceCall

/-- What can happen next. -/
inductive Action where
  | register (name path : String) (intervalSeconds : ℚ)
  | unregister (name : String)
  /-- `run_once` takes a step. -/
  | proceed (world : Surroundings)

variable (call : OnceCall)

/-- The state after a step of `run_once`. -/
def proceed (world : Surroundings) : OnceCall :=
  match call.pc with
  | .call | .iterate _ =>
      let next := LoopThread.advance { world } false { pc := call.pc } call.state
      { state := next.1, pc := next.2.pc }
  | _ => call

/-- The state after an action. -/
def step : Action → OnceCall
  | .register name path intervalSeconds =>
      { call with state := call.state.register name path intervalSeconds }
  | .unregister name => { call with state := call.state.unregister name }
  | .proceed world => call.proceed world

/-- The state after some actions. -/
def after (actions : List Action) : OnceCall := actions.foldl step call

/-- An iteration of the loop in a run, for a name and with others to come. -/
def Iterates (actions : List Action) (current : OnceCall) (world : Surroundings) (name : String)
    (rest : List String) : Prop :=
  ∃ before later, actions = before ++ .proceed world :: later ∧ call.after before = current ∧
    current.pc = .iterate (name :: rest)

/-- The due names are read in a run. -/
def Snapshots (actions : List Action) (current : OnceCall) (world : Surroundings) : Prop :=
  ∃ before later, actions = before ++ .proceed world :: later ∧ call.after before = current ∧
    current.pc = .call

/-- What an iteration is there for: the schedule is run, its run is saved and its last
run is set, and a name that is not registered any more is passed over. -/
def Serves (world : Surroundings) (name : String) (before after : SchedulerState) : Prop :=
  match before.scheduler.schedules.get? name with
  | none => after = before
  | some schedule => ∃ run, IsRunFor world before.scheduler name run ∧
      after.saved = before.saved ++ [run] ∧
      after.scheduler.schedules.get? name =
        some { schedule with lastRunAt := some (world.clock before.clockReads) } ∧
      ∀ other, other ≠ name →
        after.scheduler.schedules.get? other = before.scheduler.schedules.get? other

/-- In a run `run_once` has not raised, every iteration has served its schedule, and once
`run_once` has returned there was one for each due name. -/
structure Undisturbed (actions : List Action) : Prop where
  noError : ∀ error, (call.after actions).pc ≠ .raised error
  served : ∀ current world name rest, call.Iterates actions current world name rest →
    (current.proceed world).pc = .iterate rest ∧
      Serves world name current.state (current.proceed world).state
  complete : (call.after actions).pc = .sleep → ∃ current world,
    call.Snapshots actions current world ∧ ∀ name ∈ current.state.dueNow world,
      ∃ later laterWorld rest, call.Iterates actions later laterWorld name rest

/-! ## One iteration -/

variable {call} {world : Surroundings} {name : String} {rest : List String}

theorem proceed_iterate {current : OnceCall} (atName : current.pc = .iterate (name :: rest)) :
    current.proceed world =
      match (iteration world name).run current.state with
      | .ok _ after => { state := after, pc := .iterate rest }
      | .error error after => { state := after, pc := .raised error } := by
  rw [proceed, atName]
  dsimp only
  have advanced :=
    LoopThread.advance_iterate { world } false { pc := .call } name rest current.state
  dsimp only at advanced
  rw [advanced]
  cases (iteration world name).run current.state <;> rfl

/-- **An iteration serves its schedule if and only if the schedule can be run.** -/
theorem serves_iff {current : OnceCall} (atName : current.pc = .iterate (name :: rest)) :
    (current.proceed world).pc = .iterate rest ∧
        Serves world name current.state (current.proceed world).state ↔
      CanRun world current.state.scheduler name := by
  rw [proceed_iterate atName, canRun_iff]
  cases registered : current.state.scheduler.schedules.get? name with
  | none =>
      -- The lookup raises a `KeyError`.
      have raised : (iteration world name).run current.state =
          .error (.keyError name) current.state := by
        rw [iteration, EStateM.run_bind, EStateM.run_get]
        simp only [registered]
        rfl
      rw [raised]
      simp
  | some schedule =>
      rw [iteration_run registered]
      cases ran : runOf world current.state.scheduler.registry schedule with
      | error error => simp [ran]
      | ok run =>
          refine iff_of_true ⟨rfl, ?_⟩ ⟨schedule, rfl, run, ran⟩
          rw [Serves, registered]
          refine ⟨run, isRunFor_of_runOf registered ran, ?_, ?_, fun other different => ?_⟩
          · simp [SchedulerState.round]
          · rw [round_get?, if_pos rfl, registered]
            rfl
          · exact round_get?_of_ne current.state schedule run different

/-! ## Whole runs -/

variable {actions : List Action} {current : OnceCall}

theorem after_concat (actions : List Action) (action : Action) :
    call.after (actions ++ [action]) = (call.after actions).step action := by
  rw [after, List.foldl_append]
  rfl

theorem Iterates.pc (iterates : call.Iterates actions current world name rest) :
    current.pc = .iterate (name :: rest) := by
  obtain ⟨_, _, _, _, atName⟩ := iterates
  exact atName

theorem Iterates.concat (iterates : call.Iterates actions current world name rest)
    (action : Action) : call.Iterates (actions ++ [action]) current world name rest := by
  obtain ⟨before, later, rfl, reached, atName⟩ := iterates
  exact ⟨before, later ++ [action], by simp, reached, atName⟩

theorem Snapshots.concat (snapshots : call.Snapshots actions current world) (action : Action) :
    call.Snapshots (actions ++ [action]) current world := by
  obtain ⟨before, later, rfl, reached, atCall⟩ := snapshots
  exact ⟨before, later ++ [action], by simp, reached, atCall⟩

/-- The due names have been read, and each of them is still to come or had its iteration. -/
def Covers (call : OnceCall) (actions : List Action) (rest : List String) : Prop :=
  ∃ current world, call.Snapshots actions current world ∧ ∀ name ∈ current.state.dueNow world,
    name ∈ rest ∨ ∃ later laterWorld others, call.Iterates actions later laterWorld name others

theorem Covers.concat (covers : call.Covers actions rest) (action : Action) :
    call.Covers (actions ++ [action]) rest := by
  obtain ⟨current, world, snapshots, due⟩ := covers
  refine ⟨current, world, snapshots.concat action, fun name member => ?_⟩
  rcases due name member with toCome | ⟨later, laterWorld, others, iterates⟩
  · exact .inl toCome
  · exact .inr ⟨later, laterWorld, others, iterates.concat action⟩

/-- What has been done at each program point. -/
def Progress (call : OnceCall) (actions : List Action) : Prop :=
  match (call.after actions).pc with
  | .iterate rest => call.Covers actions rest
  | .sleep => call.Covers actions []
  | _ => True

/-- A step of `run_once` covers one more name. -/
theorem Progress.proceed (progress : call.Progress actions) (world : Surroundings) :
    call.Progress (actions ++ [.proceed world]) := by
  have next : call.after (actions ++ [.proceed world]) = (call.after actions).proceed world :=
    after_concat actions (.proceed world)
  rw [Progress] at progress
  rw [Progress, next]
  cases at' : (call.after actions).pc with
  | call =>
      have due : ((call.after actions).proceed world).pc =
          .iterate ((call.after actions).state.dueNow world) := by
        rw [OnceCall.proceed, at']
        rfl
      rw [due]
      exact ⟨_, world, ⟨actions, [], rfl, rfl, at'⟩, fun name member => .inl member⟩
  | iterate names =>
      rw [at'] at progress
      cases names with
      | nil =>
          have ended : ((call.after actions).proceed world).pc = .sleep := by
            rw [OnceCall.proceed, at']
            rfl
          rw [ended]
          exact progress.concat _
      | cons name rest =>
          rw [proceed_iterate at']
          cases (iteration world name).run (call.after actions).state with
          | error error after => trivial
          | ok run after =>
              obtain ⟨current, snapshot, snapshots, due⟩ := progress.concat (.proceed world)
              refine ⟨current, snapshot, snapshots, fun other member => ?_⟩
              rcases due other member with toCome | iterated
              · rcases List.mem_cons.mp toCome with rfl | inRest
                · exact .inr ⟨_, world, rest, actions, [], rfl, rfl, at'⟩
                · exact .inl inRest
              · exact .inr iterated
  | sleep =>
      rw [at'] at progress
      have same : (call.after actions).proceed world = call.after actions := by
        rw [OnceCall.proceed, at']
      rw [same, at']
      exact progress.concat _
  | _ =>
      have same : (call.after actions).proceed world = call.after actions := by
        rw [OnceCall.proceed, at']
      rw [same, at']
      trivial

/-- **A call covers the due names.** -/
theorem progress (state : SchedulerState) (actions : List Action) :
    Progress { state } actions := by
  induction actions using List.reverseRecOn with
  | nil => trivial
  | append_singleton actions action ih =>
      cases action with
      | proceed world => exact ih.proceed world
      | register name path intervalSeconds =>
          have same : (OnceCall.after { state } (actions ++
              [.register name path intervalSeconds])).pc =
              (OnceCall.after { state } actions).pc := by
            rw [after_concat, step]
          rw [Progress] at ih
          rw [Progress, same]
          split <;> simp_all [Covers.concat]
      | unregister name =>
          have same : (OnceCall.after { state } (actions ++ [.unregister name])).pc =
              (OnceCall.after { state } actions).pc := by
            rw [after_concat, step]
          rw [Progress] at ih
          rw [Progress, same]
          split <;> simp_all [Covers.concat]

/-- A call whose iterations can all be made does not raise. -/
theorem pc_ne_raised (state : SchedulerState) (actions : List Action)
    (canRun : ∀ current world name rest, Iterates { state } actions current world name rest →
      CanRun world current.state.scheduler name) (error : PyError) :
    (OnceCall.after { state } actions).pc ≠ .raised error := by
  induction actions using List.reverseRecOn with
  | nil => exact nofun
  | append_singleton actions action ih =>
      have before := ih fun current world name rest iterates =>
        canRun current world name rest (iterates.concat action)
      rw [after_concat]
      cases action with
      | register name path intervalSeconds => exact before
      | unregister name => exact before
      | proceed world =>
          rw [step]
          cases at' : (OnceCall.after { state } actions).pc with
          | call =>
              rw [OnceCall.proceed, at']
              exact nofun
          | iterate names =>
              cases names with
              | nil =>
                  rw [OnceCall.proceed, at']
                  exact nofun
              | cons name rest =>
                  have runs := canRun _ world name rest ⟨actions, [], rfl, rfl, at'⟩
                  have served := (serves_iff at').mpr runs
                  rw [served.1]
                  exact nofun
          | _ =>
              have same : (OnceCall.after { state } actions).proceed world =
                  OnceCall.after { state } actions := by
                rw [OnceCall.proceed, at']
              rw [same]
              exact before

end OnceCall

/-- **`run_once` is not disturbed by registrations if and only if each name is registered,
and its run returns, when its turn comes.** -/
theorem undisturbed_iff (state : SchedulerState) (actions : List OnceCall.Action) :
    OnceCall.Undisturbed { state } actions ↔
      ∀ current world name rest, OnceCall.Iterates { state } actions current world name rest →
        CanRun world current.state.scheduler name := by
  constructor
  · intro undisturbed current world name rest iterates
    exact (OnceCall.serves_iff iterates.pc).mp
      (undisturbed.served current world name rest iterates)
  · intro canRun
    refine ⟨OnceCall.pc_ne_raised state actions canRun, ?_, fun returned => ?_⟩
    · intro current world name rest iterates
      exact (OnceCall.serves_iff iterates.pc).mpr (canRun current world name rest iterates)
    · have progress := OnceCall.progress state actions
      rw [OnceCall.Progress, returned] at progress
      obtain ⟨current, world, snapshots, due⟩ := progress
      exact ⟨current, world, snapshots, fun name member =>
        (due name member).resolve_left List.not_mem_nil⟩

/-- Three due schedules, of which the second is unregistered while the first one runs. -/
theorem unregistered_disturbs : ∃ scheduler,
    exampleScheduler [("a", "missing.yaml"), ("b", "daily.yaml"), ("c", "daily.yaml")] =
      .ok scheduler ∧
    SchedulerState.dueNow exampleWorld { scheduler } = ["a", "b", "c"] ∧
    (OnceCall.after { state := { scheduler } }
      [.proceed exampleWorld, .proceed exampleWorld, .unregister "b",
        .proceed exampleWorld]).pc = .raised (.keyError "b") ∧
    ¬ OnceCall.Undisturbed { state := { scheduler } }
      [.proceed exampleWorld, .proceed exampleWorld, .unregister "b", .proceed exampleWorld] := by
  have facts : (exampleScheduler [("a", "missing.yaml"), ("b", "daily.yaml"),
      ("c", "daily.yaml")]).map (fun scheduler =>
        (SchedulerState.dueNow exampleWorld { scheduler },
          (OnceCall.after { state := { scheduler } }
            [.proceed exampleWorld, .proceed exampleWorld, .unregister "b",
              .proceed exampleWorld]).pc)) =
      .ok (["a", "b", "c"], .raised (.keyError "b")) := by decide +kernel
  obtain ⟨scheduler, registered, facts⟩ := Except.map_eq_ok_iff.mp facts
  obtain ⟨due, raised⟩ := Prod.mk.inj facts
  exact ⟨scheduler, registered, due, raised, fun undisturbed => undisturbed.noError _ raised⟩

end EtlOrchestrator
