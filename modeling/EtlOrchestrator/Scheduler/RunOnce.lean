import EtlOrchestrator.Config.Errors
import EtlOrchestrator.Engine.Correctness
import EtlOrchestrator.Scheduler

/-!
# Running every due schedule

One round of the loop of `run_once` runs a schedule, saves its run and sets its
last run (`runDue_cons`), and leaves all other schedules as they are. The loop
goes on as long as each workflow file is recoverable: then every due schedule is
run, in ascending order of the names. At a file that is not, the exception leaves
`run_once`, and the schedules after it are not run.
-/

set_option autoImplicit false

namespace EtlOrchestrator

open SortedSet Scheduling

/-! ## The engine of a workflow file -/

/-- **The engine of a file is set up, or an `OrchestrationError` is raised, exactly
when the file is recoverable.** -/
theorem reports_loadEngine_iff {reader : ConfigReader}
    (registry : OrderedDict String TaskCallable) {path : String} :
    Reports (loadEngine reader registry path) ↔ reader.Recoverable path := by
  have paramsReport : ∀ config, loadWorkflowConfig reader path = .ok config →
      Reports (loadTaskParams reader path) := by
    intro config loaded
    rw [loadTaskParams, loaded]
    exact .ok _
  rw [recoverable_iff, loadWorkflow, loadEngine, Reports.bind_iff, Reports.bind_iff]
  refine and_congr_right fun _ => forall₂_congr fun config loaded => ?_
  simp only [Reports.bind_iff, reports_resolveCallables, Reports.mapError, implies_true, and_true,
    paramsReport config loaded]

/-- What `_run_schedule` returns or raises. -/
def runOf (world : Surroundings) (registry : OrderedDict String TaskCallable)
    (schedule : Schedule) : Except PyError WorkflowRun :=
  match loadEngine world.reader registry schedule.path with
  | .error (.orchestration error) =>
      .ok (unrunnable schedule.name (world.env schedule.name).runId error.str)
  | .error error => .error error
  | .ok engine => engine.run (world.env schedule.name)

/-- The workflow of a schedule is executed. -/
def IsRunnable (world : Surroundings) (registry : OrderedDict String TaskCallable)
    (schedule : Schedule) : Prop :=
  ∃ engine, loadEngine world.reader registry schedule.path = .ok engine

/-- No run of an engine overflows in the arithmetic of a retry. -/
def Surroundings.NoOverflow (world : Surroundings) (scheduler : Scheduler) : Prop :=
  ∀ name schedule engine, scheduler.schedules.get? name = some schedule →
    loadEngine world.reader scheduler.registry schedule.path = .ok engine →
      engine.NoOverflow { world.env name with params := ∅ }

/-- An engine of a workflow file has one worker. -/
theorem maxWorkers_of_loadEngine {reader : ConfigReader}
    {registry : OrderedDict String TaskCallable} {path : String} {engine : AcceptedEngine}
    (loaded : loadEngine reader registry path = .ok engine) : engine.maxWorkers = 1 := by
  simp only [loadEngine, Except.bind_eq_ok_iff, Except.mapError_eq_ok_iff] at loaded
  obtain ⟨_, _, _, _, _, _, _, _, accepted⟩ := loaded
  rw [WorkflowEngine.of_init_eq_ok accepted]
  rfl

/-- The run of a schedule is returned when its file is recoverable and the run of its engine
returns. -/
theorem runOf_isOk_iff_returns {world : Surroundings} {registry : OrderedDict String TaskCallable}
    {schedule : Schedule} : (∃ run, runOf world registry schedule = .ok run) ↔
      world.reader.Recoverable schedule.path ∧
        ∀ engine, loadEngine world.reader registry schedule.path = .ok engine →
          ∃ run, engine.run (world.env schedule.name) = .ok run := by
  rw [← reports_loadEngine_iff registry, runOf]
  cases loaded : loadEngine world.reader registry schedule.path with
  | error error =>
      cases error with
      | orchestration error => simp [Reports, PyError.isOrchestrationError]
      | _ => simp [Reports, PyError.isOrchestrationError]
  | ok engine => simp [Reports]

theorem runOf_isOk_iff {world : Surroundings} {scheduler : Scheduler}
    (noOverflow : world.NoOverflow scheduler) {name : String} {schedule : Schedule}
    (registered : scheduler.schedules.get? name = some schedule) :
    (∃ run, runOf world scheduler.registry schedule = .ok run) ↔
      world.reader.Recoverable schedule.path := by
  refine runOf_isOk_iff_returns.trans (and_iff_left fun engine loaded => ?_)
  obtain ⟨machine, ran, _⟩ := runSequential_eq_ok (maxWorkers_of_loadEngine loaded)
    (noOverflow name schedule engine registered loaded)
  refine ⟨machine.shared.run, ?_⟩
  rw [AcceptedEngine.run, scheduler.named name schedule registered, ran]

/-- What the run of a schedule needs: the name is registered, its file is recoverable, and
the run of its engine returns. -/
def CanRun (world : Surroundings) (scheduler : Scheduler) (name : String) : Prop :=
  ∃ schedule, scheduler.schedules.get? name = some schedule ∧
    world.reader.Recoverable schedule.path ∧
    ∀ engine, loadEngine world.reader scheduler.registry schedule.path = .ok engine →
      ∃ run, engine.run (world.env name) = .ok run

theorem canRun_iff {world : Surroundings} {scheduler : Scheduler} {name : String} :
    CanRun world scheduler name ↔ ∃ schedule, scheduler.schedules.get? name = some schedule ∧
      ∃ run, runOf world scheduler.registry schedule = .ok run := by
  refine exists_congr fun schedule => and_congr_right fun registered => ?_
  rw [runOf_isOk_iff_returns, scheduler.named name schedule registered]

/-! ## One round of the loop -/

namespace Scheduler

@[simp] theorem registry_markRun (scheduler : Scheduler) (name : String) (now : ℚ) :
    (scheduler.markRun name now).registry = scheduler.registry := by
  rw [markRun]
  split <;> rfl

theorem get?_markRun (scheduler : Scheduler) (name other : String) (now : ℚ) :
    (scheduler.markRun name now).schedules.get? other =
      if other = name then
        (scheduler.schedules.get? name).map fun schedule => { schedule with lastRunAt := some now }
      else scheduler.schedules.get? other := by
  rw [markRun]
  split
  · rename_i missing
    by_cases same : other = name
    · simp [same, missing]
    · simp [same]
  · rename_i schedule stored
    simp [OrderedDict.get?_set, stored]

end Scheduler

namespace SchedulerState

variable (world : Surroundings) (state : SchedulerState) (schedule : Schedule)

/-- The state in which the run of a schedule ends. -/
def ran : SchedulerState :=
  match loadEngine world.reader state.scheduler.registry schedule.path with
  | .ok _ => { state with executed := state.executed ++ [schedule.name] }
  | .error _ => state

/-- The state after a round of the loop. -/
def round (name : String) (run : WorkflowRun) : SchedulerState :=
  let ended := state.ran world schedule
  { scheduler := ended.scheduler.markRun name (world.clock ended.clockReads)
    saved := ended.saved ++ [run]
    executed := ended.executed
    clockReads := ended.clockReads + 1 }

@[simp] theorem round_executed (name : String) (run : WorkflowRun) :
    (state.round world schedule name run).executed = (state.ran world schedule).executed := rfl

@[simp] theorem ran_scheduler : (state.ran world schedule).scheduler = state.scheduler := by
  rw [ran]
  split <;> rfl

@[simp] theorem ran_saved : (state.ran world schedule).saved = state.saved := by
  rw [ran]
  split <;> rfl

@[simp] theorem ran_clockReads : (state.ran world schedule).clockReads = state.clockReads := by
  rw [ran]
  split <;> rfl

/-- The run of a schedule executes its workflow if it can be set up. -/
theorem mem_ran_executed {other : String} : other ∈ (state.ran world schedule).executed ↔
    other ∈ state.executed ∨
      other = schedule.name ∧ IsRunnable world state.scheduler.registry schedule := by
  rw [ran, IsRunnable]
  split
  · rename_i loaded
    simp [loaded]
  · rename_i loaded
    simp [loaded]

end SchedulerState

namespace Scheduling

variable {world : Surroundings}

theorem runSchedule_run (state : SchedulerState) (schedule : Schedule) :
    (runSchedule world schedule).run state =
      match runOf world state.scheduler.registry schedule with
      | .ok run => .ok run (state.ran world schedule)
      | .error error => .error error (state.ran world schedule) := by
  rw [runSchedule, EStateM.run_bind, EStateM.run_get, runOf, SchedulerState.ran]
  dsimp only
  cases loadEngine world.reader state.scheduler.registry schedule.path with
  | error error => cases error <;> rfl
  | ok engine =>
      rw [EStateM.run_bind, EStateM.run_modify]
      dsimp only
      cases engine.run (world.env schedule.name) <;> rfl

/-- A round of the loop. -/
theorem iteration_run {state : SchedulerState} {name : String} {schedule : Schedule}
    (registered : state.scheduler.schedules.get? name = some schedule) :
    (iteration world name).run state =
      match runOf world state.scheduler.registry schedule with
      | .error error => .error error (state.ran world schedule)
      | .ok run => .ok run (state.round world schedule name run) := by
  rw [iteration, EStateM.run_bind, EStateM.run_get]
  simp only [registered, EStateM.run_bind, runSchedule_run]
  cases runOf world state.scheduler.registry schedule <;> rfl

/-- **A round comes before the rounds of the schedules to come.** -/
theorem runDue_cons {state : SchedulerState} {name : String} {schedule : Schedule}
    (registered : state.scheduler.schedules.get? name = some schedule) (rest : List String) :
    (runDue world (name :: rest)).run state =
      match runOf world state.scheduler.registry schedule with
      | .error error => .error error (state.ran world schedule)
      | .ok run =>
          match (runDue world rest).run (state.round world schedule name run) with
          | .ok completed after => .ok (run :: completed) after
          | .error error after => .error error after := by
  rw [runDue, EStateM.run_bind, iteration_run registered]
  cases runOf world state.scheduler.registry schedule with
  | error error => rfl
  | ok run =>
      dsimp only
      rw [EStateM.run_bind]
      cases (runDue world rest).run (state.round world schedule name run) <;> rfl

/-! ## The whole loop -/

/-- A round leaves the registry and the other schedules as they are. -/
theorem round_get? (state : SchedulerState) (schedule : Schedule) (name other : String)
    (run : WorkflowRun) :
    (state.round world schedule name run).scheduler.schedules.get? other =
      if other = name then
        (state.scheduler.schedules.get? name).map fun schedule =>
          { schedule with lastRunAt := some (world.clock state.clockReads) }
      else state.scheduler.schedules.get? other := by
  rw [SchedulerState.round]
  simp only [SchedulerState.ran_scheduler, SchedulerState.ran_clockReads, Scheduler.get?_markRun]

theorem round_get?_of_ne (state : SchedulerState) (schedule : Schedule) {name other : String}
    (run : WorkflowRun) (different : other ≠ name) :
    (state.round world schedule name run).scheduler.schedules.get? other =
      state.scheduler.schedules.get? other := by
  rw [round_get?, if_neg different]

@[simp] theorem round_registry (state : SchedulerState) (schedule : Schedule) (name : String)
    (run : WorkflowRun) : (state.round world schedule name run).scheduler.registry =
      state.scheduler.registry := by
  simp [SchedulerState.round]

/-- The schedules to come are still registered after a round. -/
theorem round_registered {state : SchedulerState} {schedule : Schedule} {name : String}
    {run : WorkflowRun} {rest : List String} (new : name ∉ rest)
    (registered : ∀ other ∈ rest, other ∈ state.scheduler.schedules) :
    ∀ other ∈ rest, other ∈ (state.round world schedule name run).scheduler.schedules := by
  intro other member
  have different : other ≠ name := fun same => new (same ▸ member)
  rw [OrderedDict.mem_iff_get?_isSome, round_get?_of_ne _ _ _ different,
    ← OrderedDict.mem_iff_get?_isSome]
  exact registered other member

/-- The state in which the loop ends, by its first round. -/
theorem endState_runDue_cons {state : SchedulerState} {name : String} {schedule : Schedule}
    (registered : state.scheduler.schedules.get? name = some schedule) (rest : List String) :
    endState (runDue world (name :: rest)) state =
      match runOf world state.scheduler.registry schedule with
      | .error _ => state.ran world schedule
      | .ok run => endState (runDue world rest) (state.round world schedule name run) := by
  rw [endState, runDue_cons registered]
  cases runOf world state.scheduler.registry schedule with
  | error error => rfl
  | ok run =>
      dsimp only
      rw [endState]
      cases (runDue world rest).run (state.round world schedule name run) <;> rfl

/-- **What each round extends to the loop holds when the loop returns or raises.** -/
theorem runDue_induction {P : SchedulerState → List String → SchedulerState → Prop}
    (done : ∀ state, P state [] state)
    (raises : ∀ {state name rest schedule error},
      state.scheduler.schedules.get? name = some schedule →
      runOf world state.scheduler.registry schedule = .error error →
      P state (name :: rest) (state.ran world schedule))
    (round : ∀ {state name rest schedule run after},
      state.scheduler.schedules.get? name = some schedule → name ∉ rest →
      runOf world state.scheduler.registry schedule = .ok run →
      P (state.round world schedule name run) rest after → P state (name :: rest) after)
    (names : List String) : ∀ state : SchedulerState, names.Nodup →
      (∀ name ∈ names, name ∈ state.scheduler.schedules) →
        P state names (endState (runDue world names) state) := by
  induction names with
  | nil => exact fun state _ _ => done state
  | cons name rest ih =>
      intro state nodup registered
      obtain ⟨new, restNodup⟩ := List.nodup_cons.mp nodup
      obtain ⟨schedule, stored⟩ :=
        OrderedDict.exists_get?_of_mem (registered name List.mem_cons_self)
      rw [endState_runDue_cons stored]
      cases ran : runOf world state.scheduler.registry schedule with
      | error error => exact raises stored ran
      | ok run =>
          refine round stored new ran (ih _ restNodup (round_registered new fun other member => ?_))
          exact registered other (List.mem_cons_of_mem _ member)

/-- What the loop has done when it returns. -/
structure Completes (world : Surroundings) (before : SchedulerState) (names : List String)
    (completed : List WorkflowRun) (after : SchedulerState) : Prop where
  runs : List.Forall₂ (fun name run => ∃ schedule,
    before.scheduler.schedules.get? name = some schedule ∧
      runOf world before.scheduler.registry schedule = .ok run) names completed
  saved : after.saved = before.saved ++ completed
  marked : ∀ name ∈ names, ∃ schedule reading, before.clockReads ≤ reading ∧
    before.scheduler.schedules.get? name = some schedule ∧
    after.scheduler.schedules.get? name =
      some { schedule with lastRunAt := some (world.clock reading) }
  others : ∀ name, name ∉ names →
    after.scheduler.schedules.get? name = before.scheduler.schedules.get? name

/-- Each schedule has a run. -/
theorem Completes.ran {before after : SchedulerState} {names : List String}
    {completed : List WorkflowRun} (completes : Completes world before names completed after)
    {name : String} (member : name ∈ names) : ∃ run schedule,
    before.scheduler.schedules.get? name = some schedule ∧
      runOf world before.scheduler.registry schedule = .ok run := by
  obtain ⟨sameLength, runs⟩ := List.forall₂_iff_get.mp completes.runs
  obtain ⟨index, rfl⟩ := List.get_of_mem member
  exact ⟨_, runs index index.isLt (sameLength ▸ index.isLt)⟩

/-- A round before the rounds of the schedules to come. -/
theorem Completes.cons {state after : SchedulerState} {name : String} {schedule : Schedule}
    {rest : List String} {run : WorkflowRun} {completed : List WorkflowRun} (new : name ∉ rest)
    (stored : state.scheduler.schedules.get? name = some schedule)
    (ran : runOf world state.scheduler.registry schedule = .ok run)
    (later : Completes world (state.round world schedule name run) rest completed after) :
    Completes world state (name :: rest) (run :: completed) after := by
  have kept : ∀ other ∈ rest,
      (state.round world schedule name run).scheduler.schedules.get? other =
        state.scheduler.schedules.get? other := fun other member =>
    round_get?_of_ne state schedule run fun same => new (same ▸ member)
  refine ⟨.cons ⟨schedule, stored, ran⟩ ?_, ?_, ?_, ?_⟩
  · have members := (List.forall₂_and_left rest completed).mpr
      ⟨fun other member => member, later.runs⟩
    refine members.imp fun other otherRun ⟨member, otherSchedule, otherStored, otherRan⟩ => ?_
    rw [kept other member] at otherStored
    rw [round_registry] at otherRan
    exact ⟨otherSchedule, otherStored, otherRan⟩
  · rw [later.saved]
    simp [SchedulerState.round]
  · intro other member
    rcases List.mem_cons.mp member with rfl | inRest
    · refine ⟨schedule, state.clockReads, le_refl _, stored, ?_⟩
      rw [later.others other new, round_get?, if_pos rfl, stored]
      rfl
    · obtain ⟨otherSchedule, reading, laterReading, otherStored, marked⟩ :=
        later.marked other inRest
      refine ⟨otherSchedule, reading, ?_, kept other inRest ▸ otherStored, marked⟩
      have one : (state.round world schedule name run).clockReads = state.clockReads + 1 := by
        simp [SchedulerState.round]
      omega
  · intro other notMember
    rw [List.mem_cons, not_or] at notMember
    obtain ⟨different, notInRest⟩ := notMember
    rw [later.others other notInRest, round_get?, if_neg different]

/-- **The loop runs, saves and marks every schedule in turn, or raises what the run
of one of them raises.** -/
theorem runDue_spec (world : Surroundings) (names : List String) :
    ∀ state : SchedulerState, names.Nodup →
    (∀ name ∈ names, name ∈ state.scheduler.schedules) →
    match (runDue world names).run state with
    | .ok completed after => Completes world state names completed after
    | .error error _ => ∃ name ∈ names, ∃ schedule,
        state.scheduler.schedules.get? name = some schedule ∧
          runOf world state.scheduler.registry schedule = .error error := by
  induction names with
  | nil =>
      intro state _ _
      exact ⟨.nil, (List.append_nil _).symm, nofun, fun _ _ => rfl⟩
  | cons name rest ih =>
      intro state nodup registered
      obtain ⟨new, restNodup⟩ := List.nodup_cons.mp nodup
      obtain ⟨schedule, stored⟩ :=
        OrderedDict.exists_get?_of_mem (registered name List.mem_cons_self)
      rw [runDue_cons stored]
      cases ran : runOf world state.scheduler.registry schedule with
      | error error => exact ⟨name, List.mem_cons_self, schedule, stored, ran⟩
      | ok run =>
          have later := ih (state.round world schedule name run) restNodup
            (round_registered new fun other member =>
              registered other (List.mem_cons_of_mem _ member))
          dsimp only
          cases continued : (runDue world rest).run (state.round world schedule name run) with
          | ok completed after =>
              rw [continued] at later
              exact later.cons new stored ran
          | error error after =>
              rw [continued] at later
              obtain ⟨other, member, otherSchedule, otherStored, raised⟩ := later
              have different : other ≠ name := fun same => new (same ▸ member)
              rw [round_get?_of_ne state schedule run different] at otherStored
              rw [round_registry] at raised
              exact ⟨other, List.mem_cons_of_mem _ member, otherSchedule, otherStored, raised⟩

end Scheduling

/-! ## `run_once` -/

theorem Scheduler.mem_due {scheduler : Scheduler} {now : ℚ} {name : String} :
    name ∈ scheduler.due now ↔ ∃ schedule, scheduler.schedules.get? name = some schedule ∧
      schedule.isDue now = true := by
  simp only [due, mem_sorted, List.mem_toFinset, List.mem_map, List.mem_filter]
  constructor
  · rintro ⟨⟨_, schedule⟩, ⟨entry, isDue⟩, rfl⟩
    exact ⟨schedule, OrderedDict.get?_eq_some_iff.mpr entry, isDue⟩
  · rintro ⟨schedule, stored, isDue⟩
    exact ⟨(name, schedule), ⟨OrderedDict.get?_eq_some_iff.mp stored, isDue⟩, rfl⟩

theorem Scheduler.mem_of_due {scheduler : Scheduler} {now : ℚ} :
    ∀ name ∈ scheduler.due now, name ∈ scheduler.schedules := by
  intro name member
  obtain ⟨schedule, stored, _⟩ := mem_due.mp member
  exact OrderedDict.mem_of_get? stored

theorem Scheduler.due_nodup (scheduler : Scheduler) (now : ℚ) : (scheduler.due now).Nodup :=
  sorted_nodup _

/-- The schedules that are due when `run_once` reads the clock. -/
def SchedulerState.dueNow (world : Surroundings) (state : SchedulerState) : List String :=
  state.scheduler.due (world.clock state.clockReads)

theorem runOnce_run (world : Surroundings) (state : SchedulerState) :
    (runOnce world).run state = (runDue world (state.dueNow world)).run
      { state with clockReads := state.clockReads + 1 } := rfl

/-- A run of a schedule: the run of its engine, or a failed run when its workflow
cannot be loaded, built or configured. -/
def IsRunFor (world : Surroundings) (scheduler : Scheduler) (name : String) (run : WorkflowRun) :
    Prop :=
  ∃ schedule, scheduler.schedules.get? name = some schedule ∧
    (∀ error, loadEngine world.reader scheduler.registry schedule.path = .error error →
      run.workflowId = name ∧ run.workflowState = .failed ∧ run.log = [.cannotLoad error.str]) ∧
    ∀ engine, loadEngine world.reader scheduler.registry schedule.path = .ok engine →
      engine.run (world.env name) = .ok run

theorem isRunFor_of_runOf {world : Surroundings} {scheduler : Scheduler} {name : String}
    {schedule : Schedule} {run : WorkflowRun}
    (registered : scheduler.schedules.get? name = some schedule)
    (ran : runOf world scheduler.registry schedule = .ok run) :
    IsRunFor world scheduler name run := by
  refine ⟨schedule, registered, fun error failed => ?_, fun engine loaded => ?_⟩
  · rw [runOf, failed] at ran
    cases error with
    | orchestration error =>
        cases ran
        exact ⟨scheduler.named name schedule registered, rfl, rfl⟩
    | _ => cases ran
  · rw [runOf, loaded, scheduler.named name schedule registered] at ran
    exact ran

/-- **`run_once` returns one run for each due schedule, in ascending order of the
names, saves all of them and sets the last run of every due schedule, exactly when
the file of every due schedule is recoverable.** -/
theorem runOnce_completes_iff (world : Surroundings) (state : SchedulerState)
    (noOverflow : world.NoOverflow state.scheduler) :
    (∃ completed after, (runOnce world).run state = .ok completed after ∧
      List.Forall₂ (IsRunFor world state.scheduler) (state.dueNow world) completed ∧
      after.saved = state.saved ++ completed ∧
      ∀ name ∈ state.dueNow world, ∃ schedule reading,
        state.scheduler.schedules.get? name = some schedule ∧ state.clockReads < reading ∧
        after.scheduler.schedules.get? name =
          some { schedule with lastRunAt := some (world.clock reading) }) ↔
    ∀ name ∈ state.dueNow world, ∀ schedule,
      state.scheduler.schedules.get? name = some schedule →
        world.reader.Recoverable schedule.path := by
  have spec := runDue_spec world (state.dueNow world)
    { state with clockReads := state.clockReads + 1 } (state.scheduler.due_nodup _)
    Scheduler.mem_of_due
  rw [runOnce_run]
  cases ran : (runDue world (state.dueNow world)).run
      { state with clockReads := state.clockReads + 1 } with
  | error error after =>
      rw [ran] at spec
      obtain ⟨name, member, schedule, registered, raised⟩ := spec
      refine iff_of_false (fun ⟨_, _, returned, _⟩ => by cases returned) fun recoverable => ?_
      obtain ⟨run, returned⟩ :=
        (runOf_isOk_iff noOverflow registered).mpr (recoverable name member schedule registered)
      rw [raised] at returned
      cases returned
  | ok completed after =>
      rw [ran] at spec
      refine iff_of_true ⟨completed, after, rfl, ?_, spec.saved, fun name member => ?_⟩ ?_
      · exact spec.runs.imp fun name run ⟨schedule, registered, returned⟩ =>
          isRunFor_of_runOf registered returned
      · obtain ⟨schedule, reading, later, registered, marked⟩ := spec.marked name member
        exact ⟨schedule, reading, registered, later, marked⟩
      · intro name member schedule registered
        obtain ⟨run, other, otherRegistered, returned⟩ := spec.ran member
        cases registered.symm.trans otherRegistered
        exact (runOf_isOk_iff noOverflow registered).mp ⟨run, returned⟩

/-- The text of a sound workflow file. -/
def dailyText : String :=
  "workflow_id: daily\ntasks:\n  - {task_id: extract, callable: echo}\n" ++
    "  - {task_id: load, callable: echo, depends_on: [extract]}\n"

/-- The text of a file whose workflow id holds a space. -/
def misnamedText : String :=
  "workflow_id: daily load\ntasks:\n  - {task_id: load, callable: echo}\n"

/-- Two files, with the documents and the configurations in them. -/
def exampleReader : ConfigReader where
  Raw := PyValue
  readText path :=
    if path = "daily.yaml" then some dailyText
    else if path = "misnamed.yaml" then some misnamedText
    else none
  safeLoad text :=
    if text = misnamedText then
      .ok (.dict [("workflow_id", .str "daily load"), ("tasks", .list
        [.dict [("task_id", .str "load"), ("callable", .str "echo")]])])
    else
      .ok (.dict [("workflow_id", .str "daily"), ("tasks", .list
        [.dict [("task_id", .str "extract"), ("callable", .str "echo")],
          .dict [("task_id", .str "load"), ("callable", .str "echo"),
            ("depends_on", .list [.str "extract"])]])])
  modelValidate
    | .dict (("workflow_id", .str "daily load") :: _) =>
        .ok { workflowId := "daily load", tasks := [{ taskId := "load", callable := "echo" }] }
    | _ => .ok sequence

theorem exampleReader_recoverable {path : String} (different : path ≠ "misnamed.yaml") :
    exampleReader.Recoverable path := by
  intro text read
  have daily : text = dailyText := by
    by_cases same : path = "daily.yaml"
    · simpa [exampleReader, same, eq_comm] using read
    · simp [exampleReader, same, different] at read
  have loaded : text ≠ misnamedText := daily ▸ by decide
  simp only [exampleReader, if_neg loaded]
  refine ⟨nofun, ?_⟩
  rintro raw config ⟨⟩ ⟨⟩
  exact .of_forall (by decide) (by decide)

/-- A clock that counts its readings, and runs that are named by their schedules. -/
def exampleWorld : Surroundings where
  reader := exampleReader
  clock := fun reading => reading
  env := fun name => { runId := "run-of-" ++ name }

/-- A registry with one callable. -/
def exampleRegistry : OrderedDict String TaskCallable := ⟨[("echo", raisesUpTo 0)], by decide⟩

/-- A scheduler with an hourly schedule for each of some files. -/
def exampleScheduler (files : List (String × String)) : Except PyError Scheduler :=
  files.foldlM (fun scheduler entry => scheduler.register entry.1 entry.2 3600)
    (.init exampleRegistry)

theorem runOnce_completes_iff_example : ∃ scheduler completed after,
    exampleScheduler [("daily", "daily.yaml"), ("gone", "missing.yaml")] = .ok scheduler ∧
    (runOnce exampleWorld).run { scheduler } = .ok completed after ∧
    List.Forall₂ (IsRunFor exampleWorld scheduler) ["daily", "gone"] completed ∧
    after.saved = completed := by
  have facts : (exampleScheduler [("daily", "daily.yaml"), ("gone", "missing.yaml")]).map
      (fun scheduler => (SchedulerState.dueNow exampleWorld { scheduler },
        scheduler.schedules.values.all (·.path ≠ "misnamed.yaml"))) =
      .ok (["daily", "gone"], true) := by decide +kernel
  obtain ⟨scheduler, registered, facts⟩ := Except.map_eq_ok_iff.mp facts
  obtain ⟨due, sound⟩ := Prod.mk.inj facts
  have recoverable : ∀ name ∈ SchedulerState.dueNow exampleWorld { scheduler }, ∀ schedule,
      scheduler.schedules.get? name = some schedule →
        exampleWorld.reader.Recoverable schedule.path := by
    intro name _ schedule stored
    have member := List.mem_map_of_mem (f := Prod.snd) (OrderedDict.get?_eq_some_iff.mp stored)
    exact exampleReader_recoverable (by simpa using List.all_eq_true.mp sound schedule member)
  obtain ⟨completed, after, returned, runs, saved, _⟩ :=
    (runOnce_completes_iff exampleWorld { scheduler }
      fun _ _ _ _ _ => WorkflowEngine.noOverflow_exact _ rfl).mpr recoverable
  rw [due] at runs
  exact ⟨scheduler, completed, after, registered, returned, runs, saved⟩

/-- The `ValidationError` of the second schedule's workflow id leaves `run_once`, and
the third schedule is not run. -/
theorem misnamed_stops_runOnce : ∃ scheduler error after,
    exampleScheduler [("a", "missing.yaml"), ("b", "misnamed.yaml"), ("c", "daily.yaml")] =
      .ok scheduler ∧
    SchedulerState.dueNow exampleWorld { scheduler } = ["a", "b", "c"] ∧
    (runOnce exampleWorld).run { scheduler } = .error (.validationError error) after ∧
    after.saved.length = 1 ∧ after.executed = [] := by
  have facts : (exampleScheduler [("a", "missing.yaml"), ("b", "misnamed.yaml"),
      ("c", "daily.yaml")]).map (fun scheduler =>
        (SchedulerState.dueNow exampleWorld { scheduler },
          match (runOnce exampleWorld).run { scheduler } with
          | .error (.validationError _) after => some (after.saved.length, after.executed)
          | _ => none)) = .ok (["a", "b", "c"], some (1, [])) := by decide +kernel
  obtain ⟨scheduler, registered, facts⟩ := Except.map_eq_ok_iff.mp facts
  obtain ⟨due, outcome⟩ := Prod.mk.inj facts
  split at outcome
  · rename_i message after raised
    obtain ⟨saved, executed⟩ := Prod.mk.inj (Option.some.inj outcome)
    exact ⟨scheduler, message, after, registered, due, raised, saved, executed⟩
  · cases outcome

end EtlOrchestrator
