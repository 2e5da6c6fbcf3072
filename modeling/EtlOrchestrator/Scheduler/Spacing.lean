import EtlOrchestrator.Engine.Timestamps
import EtlOrchestrator.Scheduler.History

/-!
# The spacing of the runs of a schedule

`register`, `unregister` and `run_once` are called one after the other. A schedule
that has run keeps the reading that stamped the end of its last run until it is
registered anew, and a tick runs it again when its interval has passed since. The run
before ends before its stamp, and the next one starts after the reading of the due
names, so that the two are apart by the interval.

All this rests on ticks in which the run of each due schedule returns. One that
raises takes the runs of the schedules after it away (`onSchedule_iff`).
-/

set_option autoImplicit false

namespace EtlOrchestrator

open Scheduling

/-! ## Calls on a scheduler -/

namespace SchedulerState

/-- A call on a scheduler. -/
inductive Action where
  | runOnce (world : Surroundings)
  | register (name path : String) (intervalSeconds : ℚ)
  | unregister (name : String)

/-- The state after a call. -/
def act (state : SchedulerState) : Action → SchedulerState
  | .runOnce world => tick world state
  | .register name path intervalSeconds => state.register name path intervalSeconds
  | .unregister name => state.unregister name

/-- The state after a history of calls, which has the latest one first. -/
def afterHistory (registry : OrderedDict String TaskCallable) : List Action → SchedulerState
  | [] => { scheduler := .init registry }
  | action :: earlier => (afterHistory registry earlier).act action

/-- A call that registers a name. -/
def Action.Registers (name : String) (action : Action) : Prop :=
  ∃ path intervalSeconds, 0 < intervalSeconds ∧ action = .register name path intervalSeconds

/-- A tick of a history, with the calls before it. -/
def Ticks (history : List Action) (world : Surroundings) (earlier : List Action) : Prop :=
  .runOnce world :: earlier <:+ history

/-- The runs of the ticks of a history. -/
def allRuns (registry : OrderedDict String TaskCallable) :
    List Action → List (String × WorkflowRun)
  | [] => []
  | .runOnce world :: earlier =>
      allRuns registry earlier ++ tickRuns world (afterHistory registry earlier)
  | .register _ _ _ :: earlier => allRuns registry earlier
  | .unregister _ :: earlier => allRuns registry earlier

end SchedulerState

/-- A run that has its place among those of a tick. -/
structure PlacedRun where
  world : Surroundings
  state : SchedulerState
  index : ℕ
  run : WorkflowRun

namespace PlacedRun

/-- It is a run of the schedule. -/
def IsOf (placed : PlacedRun) (name : String) : Prop :=
  (tickRuns placed.world placed.state)[placed.index]? = some (name, placed.run)

/-- The reading after the run. -/
def stamp (placed : PlacedRun) : ℚ :=
  placed.world.clock (placed.state.clockReads + 1 + placed.index)

end PlacedRun

open SchedulerState

/-- The last run of a schedule since its registration. -/
inductive LastRun (registry : OrderedDict String TaskCallable) (name : String) :
    List Action → PlacedRun → Prop where
  | run {earlier : List Action} {placed : PlacedRun}
      (before : placed.state = afterHistory registry earlier) (ran : placed.IsOf name) :
      LastRun registry name (.runOnce placed.world :: earlier) placed
  | keep {action : Action} {earlier : List Action} {placed : PlacedRun}
      (last : LastRun registry name earlier placed) (notAnew : ¬ action.Registers name)
      (notRun : ∀ world run, action = .runOnce world →
        (name, run) ∉ tickRuns world (afterHistory registry earlier)) :
      LastRun registry name (action :: earlier) placed

/-- The readings of the clock in the run of an engine. -/
def AcceptedEngine.readings (engine : AcceptedEngine) (env : Env) : ℕ :=
  match (engine.runSequential { env with params := ∅ }).run
      (engine.created { env with params := ∅ }) with
  | .ok _ state => state.clockReads
  | .error _ state => state.clockReads

/-- The readings of a tick come from one clock that never goes backwards: those of each run
lie between the reading of the due names and the one after the run. -/
def Surroundings.OneClock (world : Surroundings) (state : SchedulerState) : Prop :=
  ∀ index name run schedule engine, let placed : PlacedRun := { world, state, index, run }
    placed.IsOf name → state.scheduler.schedules.get? name = some schedule →
    loadEngine world.reader state.scheduler.registry schedule.path = .ok engine →
    ∀ reading < engine.readings (world.env name),
      world.clock state.clockReads ≤ (world.env name).clock reading ∧
        (world.env name).clock reading ≤ placed.stamp

/-- What a tick does: it runs a registered schedule, once, if and only if the schedule has
never run or its interval has passed, it saves its runs, and it starts each of them
an interval after the end of the one before. -/
structure OnTime (registry : OrderedDict String TaskCallable) (world : Surroundings)
    (earlier : List Action) (state : SchedulerState) : Prop where
  runs : ∀ name, (∃ run, (name, run) ∈ tickRuns world state) ↔
    ∃ schedule, state.scheduler.schedules.get? name = some schedule ∧
      ((∀ placed, ¬ LastRun registry name earlier placed) ∨ ∃ last ∈ schedule.lastRunAt,
        schedule.intervalSeconds ≤ world.clock state.clockReads - last)
  once : ((tickRuns world state).map Prod.fst).Nodup
  stamped : ∀ name schedule previous, LastRun registry name earlier previous →
    state.scheduler.schedules.get? name = some schedule →
      schedule.lastRunAt = some previous.stamp
  apart : ∀ name schedule previous next, LastRun registry name earlier previous →
    state.scheduler.schedules.get? name = some schedule → (name, next) ∈ tickRuns world state →
      schedule.intervalSeconds ≤ world.clock state.clockReads - previous.stamp ∧
        ∀ start ∈ next.startedAt, ∀ stop ∈ previous.run.finishedAt,
          schedule.intervalSeconds ≤ start - stop

/-- The runs of a history are on schedule, and each of them is saved once. -/
structure OnSchedule (registry : OrderedDict String TaskCallable) (history : List Action) :
    Prop where
  onTime : ∀ world earlier, Ticks history world earlier →
    OnTime registry world earlier (afterHistory registry earlier)
  saved : (afterHistory registry history).saved = (allRuns registry history).map Prod.snd
  stored : ∀ encoding : Encoding, (∃ text, encoding.dumps ∅ = .ok text) →
    ((afterHistory registry history).saved.map WorkflowRun.runId).Nodup →
    RunStore.Lists encoding (RunStore.saveAll encoding ∅
      ((afterHistory registry history).saved.map WorkflowRun.snapshot))
      ((afterHistory registry history).saved.map WorkflowRun.snapshot)

/-! ## The dates of a run -/

/-- A run ends at a reading of the clock. -/
theorem finishedAt_of_run {engine : AcceptedEngine} {env : Env} (one : engine.maxWorkers = 1)
    {run : WorkflowRun} (ran : engine.run env = .ok run) : ∃ reading < engine.readings env,
      run.finishedAt = some (env.clock reading) := by
  have steps := steps_of_runSequential { env with params := ∅ } one
  rw [AcceptedEngine.run] at ran
  rw [AcceptedEngine.readings]
  split at ran
  · rename_i after sequential
    cases ran
    rw [sequential] at steps ⊢
    obtain ⟨machine, reached, returned, rfl⟩ := steps
    rcases reached.cases_tail with rfl | ⟨before, earlier, last⟩
    · obtain ⟨shared, levels, same, _⟩ := start_eq engine { env with params := ∅ }
      rw [same] at returned
      cases returned
    · cases last with
      | take running => cases running.symm.trans returned
      | work running => cases running.symm.trans returned
      | leave running => cases running.symm.trans returned
      | submit running => cases running.symm.trans returned
      | raise => cases returned
      | finish running drained idle last threads =>
          obtain ⟨after, ended, _⟩ :=
            (Reachable.steps earlier).finishRun running drained idle last threads
          obtain ⟨finished, reads⟩ := Timed.finishRun_finishedAt ended
          rw [WorkflowEngine.finish_of_ok ended]
          refine ⟨before.shared.clockReads, ?_, finished⟩
          dsimp only
          omega
  · cases ran

/-! ## The stamps of a tick -/

/-- What the loop has stamped, from a reading on, when it returns or raises. -/
structure StampsRuns (world : Surroundings) (before : SchedulerState)
    (runs : List (String × WorkflowRun)) (after : SchedulerState) : Prop where
  marked : ∀ index name run, runs[index]? = some (name, run) → ∃ schedule,
    before.scheduler.schedules.get? name = some schedule ∧
    after.scheduler.schedules.get? name =
      some { schedule with lastRunAt := some (world.clock (before.clockReads + index)) }
  kept : ∀ name, (∀ run, (name, run) ∉ runs) →
    after.scheduler.schedules.get? name = before.scheduler.schedules.get? name

/-- A round before the rounds of the schedules to come. -/
theorem StampsRuns.cons {world : Surroundings} {state after : SchedulerState} {name : String}
    {schedule : Schedule} {run : WorkflowRun} {runs : List (String × WorkflowRun)}
    (stored : state.scheduler.schedules.get? name = some schedule)
    (new : name ∉ runs.map Prod.fst)
    (later : StampsRuns world (state.round world schedule name run) runs after) :
    StampsRuns world state ((name, run) :: runs) after := by
  have notLater : ∀ other, (name, other) ∉ runs := fun other member =>
    new (List.mem_map_of_mem member)
  refine ⟨fun index other otherRun found => ?_, fun other absent => ?_⟩
  · cases index with
    | zero =>
        obtain ⟨rfl, rfl⟩ := Prod.mk.inj (Option.some.inj found)
        refine ⟨schedule, stored, ?_⟩
        rw [later.kept _ notLater, round_get?, if_pos rfl, stored]
        rfl
    | succ index =>
        obtain ⟨otherSchedule, otherStored, marked⟩ := later.marked index other otherRun found
        have different : other ≠ name := by
          rintro rfl
          exact notLater otherRun (List.mem_of_getElem? found)
        rw [round_get?_of_ne state schedule run different] at otherStored
        refine ⟨otherSchedule, otherStored, ?_⟩
        rw [marked, show (state.round world schedule name run).clockReads = state.clockReads + 1
          by simp [SchedulerState.round], Nat.add_right_comm]
        rfl
  · have different : other ≠ name := fun same => absent run (same ▸ List.mem_cons_self)
    rw [later.kept other fun otherRun member => absent otherRun (List.mem_cons_of_mem _ member),
      round_get?_of_ne state schedule run different]

/-- **The loop stamps the schedules of its rounds.** -/
theorem runDue_marks (world : Surroundings) (names : List String) (state : SchedulerState)
    (nodup : names.Nodup) (registered : ∀ name ∈ names, name ∈ state.scheduler.schedules) :
    StampsRuns world state (state.scheduler.rounds world names)
      (endState (runDue world names) state) := by
  have nothing : ∀ state : SchedulerState, StampsRuns world state [] state := fun state =>
    ⟨fun _ _ _ found => (by cases found), fun _ _ => rfl⟩
  refine runDue_induction
    (P := fun state names after =>
      StampsRuns world state (state.scheduler.rounds world names) after)
    nothing (fun {state name rest schedule error} stored ran => ?_)
    (fun {state name rest schedule run after} stored new ran marks => ?_) names state nodup
    registered
  · have none : state.scheduler.rounds world (name :: rest) = [] := by
      simp [Scheduler.rounds, stored, ran]
    rw [none]
    exact ⟨fun _ _ _ found => (by cases found), fun _ _ => by simp⟩
  · have runs : state.scheduler.rounds world (name :: rest) =
        (name, run) :: (state.round world schedule name run).scheduler.rounds world rest := by
      rw [(sameSchedules_round world state schedule name run).rounds]
      simp [Scheduler.rounds, stored, ran]
    rw [runs]
    exact marks.cons stored fun member => new ((rounds_names_sublist world _ rest).mem member)

/-- **A tick stamps the schedules that it runs, whether it returns or raises.** -/
theorem tick_marks (world : Surroundings) (state : SchedulerState) :
    StampsRuns world { state with clockReads := state.clockReads + 1 } (tickRuns world state)
      (tick world state) := by
  rw [tick_eq_endState]
  exact runDue_marks world (state.dueNow world) _ (state.scheduler.due_nodup _)
    Scheduler.mem_of_due

/-! ## The stamps of a history -/

section

variable {registry : OrderedDict String TaskCallable} {history earlier : List Action}
  {name : String} {placed : PlacedRun} {schedule : Schedule} {world : Surroundings}
  {state : SchedulerState}

/-- A last run is one of a tick of the history. -/
theorem LastRun.tick (last : LastRun registry name history placed) : placed.IsOf name ∧
    ∃ earlier, Ticks history placed.world earlier ∧
      placed.state = afterHistory registry earlier := by
  induction last with
  | @run earlier placed before ran => exact ⟨ran, earlier, List.suffix_refl _, before⟩
  | keep last notAnew notRun ih =>
      obtain ⟨isOf, earlier, ticks, before⟩ := ih
      exact ⟨isOf, earlier, ticks.trans (List.suffix_cons _ _), before⟩

/-- After a tick a schedule has the stamp of its run, if it was run. -/
theorem lastRunAt_of_tick (isOf : placed.IsOf name)
    (stored : (tick placed.world placed.state).scheduler.schedules.get? name = some schedule) :
    schedule.lastRunAt = some placed.stamp := by
  obtain ⟨before, _, marked⟩ := (tick_marks placed.world placed.state).marked _ _ _ isOf
  rw [marked] at stored
  cases stored
  rfl

/-- A registered schedule has the stamp of its last run since its registration, and none
if there was no run. -/
def Stamped (registry : OrderedDict String TaskCallable) (history : List Action) (name : String)
    (lastRunAt : Option ℚ) : Prop :=
  (∀ placed, LastRun registry name history placed → lastRunAt = some placed.stamp) ∧
    (lastRunAt ≠ none → ∃ placed, LastRun registry name history placed)

/-- A call that neither registers nor runs a schedule keeps its stamp. -/
theorem Stamped.keep {lastRunAt : Option ℚ} (stamped : Stamped registry history name lastRunAt)
    {action : Action} (notAnew : ¬ action.Registers name)
    (notRun : ∀ world run, action = .runOnce world →
      (name, run) ∉ tickRuns world (afterHistory registry history)) :
    Stamped registry (action :: history) name lastRunAt := by
  refine ⟨fun placed last => ?_, fun set => ?_⟩
  · cases last with
    | run before ran =>
        refine absurd (List.mem_of_getElem? ran) ?_
        rw [before]
        exact notRun _ _ rfl
    | keep last => exact stamped.1 placed last
  · obtain ⟨placed, last⟩ := stamped.2 set
    exact ⟨placed, last.keep notAnew notRun⟩

/-- **Every registered schedule has the stamp of its last run.** -/
theorem stamped (registry : OrderedDict String TaskCallable) (history : List Action) :
    ∀ name schedule,
      (afterHistory registry history).scheduler.schedules.get? name = some schedule →
        Stamped registry history name schedule.lastRunAt := by
  induction history with
  | nil => exact fun name schedule stored => by cases stored
  | cons action earlier ih =>
      intro name schedule stored
      rw [afterHistory] at stored
      cases action with
      | runOnce world =>
          rw [act] at stored
          by_cases ran : ∃ run, (name, run) ∈ tickRuns world (afterHistory registry earlier)
          · obtain ⟨run, member⟩ := ran
            obtain ⟨index, found⟩ := List.getElem?_of_mem member
            have isOf : PlacedRun.IsOf { world, state := afterHistory registry earlier, index, run }
                name := found
            refine ⟨fun placed last => ?_, fun _ => ⟨_, .run rfl isOf⟩⟩
            cases last with
            | run before placedRan =>
                rw [← before] at stored
                exact lastRunAt_of_tick placedRan stored
            | keep last notAnew notRun => exact absurd member (notRun world run rfl)
          · have notRun := not_exists.mp ran
            rw [(tick_marks world _).kept name notRun] at stored
            refine (ih name schedule stored).keep (fun ⟨_, _, _, same⟩ => by cases same) ?_
            intro other run same
            cases same
            exact notRun run
      | register other path intervalSeconds =>
          have notRun : ∀ world run, Action.register other path intervalSeconds =
              .runOnce world → (name, run) ∉ tickRuns world (afterHistory registry earlier) :=
            fun _ _ same => by cases same
          rw [act, SchedulerState.register, Scheduler.register] at stored
          split at stored
          · rename_i scheduler registered
            split at registered
            · rename_i positive
              cases registered
              dsimp only at stored
              rw [OrderedDict.get?_set] at stored
              split at stored
              · rename_i same
                cases stored
                subst same
                refine ⟨fun placed last => ?_, fun set => absurd rfl set⟩
                cases last with
                | keep last notAnew =>
                    exact absurd ⟨path, intervalSeconds, positive, rfl⟩ notAnew
              · rename_i different
                refine (ih name schedule stored).keep ?_ notRun
                rintro ⟨_, _, _, same⟩
                cases same
                exact different rfl
            · cases registered
          · rename_i error registered
            split at registered
            · cases registered
            · rename_i notPositive
              refine (ih name schedule stored).keep ?_ notRun
              rintro ⟨_, _, positive, same⟩
              cases same
              exact notPositive positive
      | unregister other =>
          rw [act, SchedulerState.unregister, Scheduler.unregister] at stored
          dsimp only at stored
          rw [OrderedDict.get?_erase] at stored
          split at stored
          · cases stored
          · refine (ih name schedule stored).keep (fun ⟨_, _, _, same⟩ => by cases same) ?_
            exact fun _ _ same => by cases same

/-! ## Ticks that are on time -/

/-- A schedule is due when it has never run since its registration or its interval has passed. -/
theorem mem_dueNow_iff :
    name ∈ (afterHistory registry earlier).dueNow world ↔ ∃ schedule,
      (afterHistory registry earlier).scheduler.schedules.get? name = some schedule ∧
        ((∀ placed, ¬ LastRun registry name earlier placed) ∨ ∃ last ∈ schedule.lastRunAt,
          schedule.intervalSeconds ≤
            world.clock (afterHistory registry earlier).clockReads - last) := by
  rw [SchedulerState.dueNow, Scheduler.mem_due]
  refine exists_congr fun schedule => and_congr_right fun stored => ?_
  have stamped := stamped registry earlier name schedule stored
  rw [Schedule.isDue]
  cases lastRunAt : schedule.lastRunAt with
  | none =>
      rw [lastRunAt] at stamped
      refine iff_of_true rfl (.inl fun placed last => ?_)
      cases stamped.1 placed last
  | some last =>
      rw [lastRunAt] at stamped
      obtain ⟨placed, ran⟩ := stamped.2 (Option.some_ne_none last)
      rw [or_iff_right fun never => never placed ran]
      simp

/-- A run lies between the reading of the due names and its stamp. -/
theorem Surroundings.OneClock.dates (oneClock : placed.world.OneClock placed.state)
    (isOf : placed.IsOf name) :
    (∀ start ∈ placed.run.startedAt, placed.world.clock placed.state.clockReads ≤ start) ∧
      ∀ stop ∈ placed.run.finishedAt, stop ≤ placed.stamp := by
  obtain ⟨_, schedule, stored, ran⟩ := runOf_of_mem_rounds (List.mem_of_getElem? isOf)
  have between := oneClock placed.index name placed.run schedule
  have start := (startedAt_of_runOf stored ran).1.start
  rw [runOf, placed.state.scheduler.named name schedule stored] at ran
  split at ran
  · rw [← Except.ok.inj ran]
    exact ⟨fun _ member => (by cases member), fun _ member => (by cases member)⟩
  · cases ran
  · rename_i engine loaded
    obtain ⟨reading, read, finished⟩ := finishedAt_of_run (maxWorkers_of_loadEngine loaded) ran
    have ends := between engine isOf stored loaded
    refine ⟨fun instant member => ?_, fun instant member => ?_⟩
    · rcases start with none | started
      · rw [none] at member
        cases member
      · rw [started] at member
        cases member
        exact (ends 0 (Nat.zero_lt_of_lt read)).1
    · rw [finished] at member
      cases member
      exact (ends reading read).2

/-- The loop has a round for each name whose schedule can be run. -/
theorem Scheduler.rounds_names {scheduler : Scheduler} {names : List String}
    (canRun : ∀ name ∈ names, CanRun world scheduler name) :
    (scheduler.rounds world names).map Prod.fst = names := by
  induction names with
  | nil => rfl
  | cons name rest ih =>
      obtain ⟨schedule, stored, run, ran⟩ := canRun_iff.mp (canRun name List.mem_cons_self)
      rw [Scheduler.rounds, stored]
      dsimp only
      rw [ran]
      dsimp only
      rw [List.map_cons, ih fun other member => canRun other (List.mem_cons_of_mem _ member)]

/-- **A tick is on time if and only if every due schedule can be run.** -/
theorem onTime_iff
    (oneClock : ∀ ticked before, Ticks (.runOnce world :: earlier) ticked before →
      ticked.OneClock (afterHistory registry before)) :
    OnTime registry world earlier (afterHistory registry earlier) ↔
      ∀ name ∈ (afterHistory registry earlier).dueNow world,
        CanRun world (afterHistory registry earlier).scheduler name := by
  constructor
  · intro onTime name due
    obtain ⟨run, member⟩ := (onTime.runs name).mpr (mem_dueNow_iff.mp due)
    obtain ⟨_, schedule, stored, ran⟩ := runOf_of_mem_rounds member
    exact canRun_iff.mpr ⟨schedule, stored, run, ran⟩
  · intro canRun
    have names : (tickRuns world (afterHistory registry earlier)).map Prod.fst =
        (afterHistory registry earlier).dueNow world := Scheduler.rounds_names canRun
    refine ⟨fun name => ?_, tickRuns_names_nodup world _, ?_, ?_⟩
    · rw [← mem_dueNow_iff, ← names, List.mem_map]
      exact ⟨fun ⟨run, member⟩ => ⟨(name, run), member, rfl⟩,
        fun ⟨⟨_, run⟩, member, same⟩ => ⟨run, same ▸ member⟩⟩
    · intro name schedule previous last stored
      exact (stamped registry earlier name schedule stored).1 previous last
    · intro name schedule previous next last stored member
      have stamp := (stamped registry earlier name schedule stored).1 previous last
      have due := mem_dueNow_iff.mp (names ▸ List.mem_map_of_mem member)
      obtain ⟨isOf, before, ticks, same⟩ := last.tick
      obtain ⟨other, otherStored, elapsed⟩ := due
      cases stored.symm.trans otherStored
      rcases elapsed with never | ⟨instant, set, elapsed⟩
      · exact absurd last (never previous)
      · rw [stamp] at set
        cases set
        refine ⟨elapsed, fun start started stop stopped => ?_⟩
        have earlierClock := oneClock _ _ (ticks.trans (List.suffix_cons _ _))
        rw [← same] at earlierClock
        have ended := (earlierClock.dates isOf).2 stop stopped
        obtain ⟨index, found⟩ := List.getElem?_of_mem member
        let current : PlacedRun := ⟨world, afterHistory registry earlier, index, next⟩
        have currentIsOf : current.IsOf name := found
        have clock : current.world.OneClock current.state :=
          oneClock world earlier (List.suffix_refl _)
        have begun := (clock.dates currentIsOf).1 start started
        dsimp only [current] at begun
        linarith

/-! ## Whole histories -/

/-- Only ticks save runs, each of its own. -/
theorem saved_eq_allRuns (registry : OrderedDict String TaskCallable) (history : List Action) :
    (afterHistory registry history).saved = (allRuns registry history).map Prod.snd := by
  induction history with
  | nil => rfl
  | cons action earlier ih =>
      rw [afterHistory]
      cases action with
      | runOnce world =>
          rw [act, (tick_saves world _).1, ih, allRuns, List.map_append]
      | register name path intervalSeconds =>
          rw [act, SchedulerState.register, allRuns, ← ih]
          split <;> rfl
      | unregister name => exact ih

/-- Each saved run is one of a schedule in a tick. -/
theorem scheduledRun_of_mem_allRuns {run : WorkflowRun}
    (member : (name, run) ∈ allRuns registry history) :
    ∃ world, ScheduledRun world name run := by
  induction history with
  | nil => cases member
  | cons action earlier ih =>
      cases action with
      | runOnce world =>
          rw [allRuns, List.mem_append] at member
          rcases member with old | new
          · exact ih old
          · exact ⟨world, scheduledRun_of_mem_tickRuns new⟩
      | register other path intervalSeconds => exact ih member
      | unregister other => exact ih member

/-- A store to which the runs were saved lists them, each under its own id. -/
theorem lists_saved {encoding : Encoding} (empty : ∃ text, encoding.dumps ∅ = .ok text)
    (distinct : ((afterHistory registry history).saved.map WorkflowRun.runId).Nodup) :
    RunStore.Lists encoding (RunStore.saveAll encoding ∅
      ((afterHistory registry history).saved.map WorkflowRun.snapshot))
      ((afterHistory registry history).saved.map WorkflowRun.snapshot) := by
  refine RunStore.Lists.saveAll _ (.empty : RunStore.Lists encoding ∅ []) ?_ ?_
  · intro snapshot member
    rw [saved_eq_allRuns, List.map_map] at member
    obtain ⟨⟨name, run⟩, saved, rfl⟩ := List.mem_map.mp member
    obtain ⟨world, scheduled⟩ := scheduledRun_of_mem_allRuns saved
    exact scheduled.storable empty
  · rw [List.nil_append, List.map_map]
    exact distinct

end

/-- **The runs of a history are on schedule if and only if in each of its ticks the runs of
the engines of the due schedules return.** -/
theorem onSchedule_iff (registry : OrderedDict String TaskCallable) (history : List Action)
    (files : ∀ world earlier, Ticks history world earlier → ∀ name schedule,
      (afterHistory registry earlier).scheduler.schedules.get? name = some schedule →
        Reports (loadEngine world.reader (afterHistory registry earlier).scheduler.registry
          schedule.path))
    (oneClock : ∀ world earlier, Ticks history world earlier →
      world.OneClock (afterHistory registry earlier)) :
    OnSchedule registry history ↔ ∀ world earlier, Ticks history world earlier →
      ∀ name ∈ (afterHistory registry earlier).dueNow world, ∀ schedule engine,
        (afterHistory registry earlier).scheduler.schedules.get? name = some schedule →
        loadEngine world.reader (afterHistory registry earlier).scheduler.registry schedule.path =
          .ok engine →
        ∃ run, engine.run (world.env name) = .ok run := by
  have onTime : ∀ world earlier, Ticks history world earlier →
      (OnTime registry world earlier (afterHistory registry earlier) ↔
        ∀ name ∈ (afterHistory registry earlier).dueNow world,
          CanRun world (afterHistory registry earlier).scheduler name) :=
    fun world earlier ticks => onTime_iff fun ticked before inTick =>
      oneClock ticked before (inTick.trans ticks)
  constructor
  · intro onSchedule world earlier ticks name due schedule engine stored loaded
    obtain ⟨other, otherStored, _, returns⟩ :=
      (onTime world earlier ticks).mp (onSchedule.onTime world earlier ticks) name due
    cases stored.symm.trans otherStored
    exact returns engine loaded
  · intro returns
    refine ⟨fun world earlier ticks => (onTime world earlier ticks).mpr fun name due => ?_,
      saved_eq_allRuns registry history, fun encoding empty => lists_saved empty⟩
    obtain ⟨schedule, stored, _⟩ := Scheduler.mem_due.mp due
    exact ⟨schedule, stored,
      (reports_loadEngine_iff _).mp (files world earlier ticks name schedule stored),
      fun engine => returns world earlier ticks name due schedule engine stored⟩

/-! ## Ticks with and without an overflow -/

/-- A task whose retries soon overflow. -/
def surging : WorkflowConfig where
  workflowId := "surging"
  tasks := [{ taskId := "surge", callable := "down", maxAttempts := 6, backoffMultiplier := 2 ^ 800,
              one_le_backoffMultiplier := one_le_pow₀ (by decide) }]

/-- Files that hold this workflow or a sound one. -/
def surgingReader : ConfigReader where
  Raw := WorkflowConfig
  readText path := some path
  safeLoad text := .ok (if text = "surging.yaml" then surging else sequence)
  modelValidate := .ok

theorem surgingReader_reports (registry : OrderedDict String TaskCallable) (path : String) :
    Reports (loadEngine surgingReader registry path) := by
  refine (reports_loadEngine_iff registry).mpr fun text _ => ⟨fun _ same => (by cases same), ?_⟩
  rintro raw config ⟨⟩ ⟨⟩
  split
  · exact .of_forall (by decide) (by decide)
  · exact .of_forall (by decide) (by decide)

/-- A tick at one instant. -/
def surgingTick (arithmetic : BackoffArithmetic) (instant : ℚ) : Surroundings where
  reader := surgingReader
  clock := fun _ => instant
  env := fun name => { runId := name, clock := fun _ => instant, arithmetic }

/-- A registry with a callable that always fails. -/
def surgingRegistry : OrderedDict String TaskCallable :=
  ⟨[("echo", raisesUpTo 0), ("down", raisesUpTo 6)], by decide⟩

theorem oneClock_surgingTick (arithmetic : BackoffArithmetic) (instant : ℚ)
    (state : SchedulerState) : (surgingTick arithmetic instant).OneClock state :=
  fun _ _ _ _ _ _ _ _ _ _ => ⟨le_refl instant, le_refl instant⟩

/-- A schedule that is due every minute, in two ticks. -/
def minuteHistory : List Action :=
  [.runOnce (surgingTick .exact 60), .runOnce (surgingTick .exact 0),
    .register "daily" "daily.yaml" 60]

theorem onSchedule_iff_minutes : OnSchedule surgingRegistry minuteHistory ∧
    (allRuns surgingRegistry minuteHistory).map (fun entry => (entry.1, entry.2.startedAt)) =
      [("daily", some 0), ("daily", some 60)] := by
  have ticked : ∀ world earlier, Ticks minuteHistory world earlier →
      ∃ instant, world = surgingTick .exact instant := by
    intro world earlier ticks
    simp only [Ticks, minuteHistory, List.suffix_cons_iff, List.suffix_nil] at ticks
    rcases ticks with same | same | same | same
    · cases same
      exact ⟨60, rfl⟩
    · cases same
      exact ⟨0, rfl⟩
    · cases same
    · cases same
  refine ⟨(onSchedule_iff surgingRegistry minuteHistory ?_ ?_).mpr ?_, by decide +kernel⟩
  · intro world earlier ticks name schedule _
    obtain ⟨instant, rfl⟩ := ticked world earlier ticks
    exact surgingReader_reports _ schedule.path
  · intro world earlier ticks
    obtain ⟨instant, rfl⟩ := ticked world earlier ticks
    exact oneClock_surgingTick .exact instant _
  · intro world earlier ticks name _ schedule engine _ loaded
    obtain ⟨instant, rfl⟩ := ticked world earlier ticks
    have noOverflow : engine.NoOverflow
        { (surgingTick .exact instant).env name with params := ∅ } :=
      WorkflowEngine.noOverflow_exact _ rfl
    obtain ⟨machine, ran, _⟩ := runSequential_eq_ok (maxWorkers_of_loadEngine loaded) noOverflow
    exact ⟨machine.shared.run, by rw [AcceptedEngine.run, ran]⟩

/-- Two due schedules, of which the first one has a retry that overflows. -/
def surgingHistory : List Action :=
  [.register "daily" "daily.yaml" 60, .register "all" "surging.yaml" 60]

/-- The `OverflowError` leaves `run_once`, and the second schedule is not run. -/
theorem surging_not_onSchedule :
    (afterHistory surgingRegistry surgingHistory).dueNow (surgingTick .python 0) =
      ["all", "daily"] ∧
    (match (runOnce (surgingTick .python 0)).run (afterHistory surgingRegistry surgingHistory) with
      | .ok _ _ => none
      | .error error after => some (error, after.saved.length, after.executed)) =
      some (.overflowError "(34, 'Numerical result out of range')", 0, ["all"]) ∧
    (∀ path, Reports (loadEngine surgingReader surgingRegistry path)) ∧
    (∀ state, (surgingTick .python 0).OneClock state) ∧
    ¬ OnSchedule surgingRegistry (.runOnce (surgingTick .python 0) :: surgingHistory) := by
  have none : (tickRuns (surgingTick .python 0)
      (afterHistory surgingRegistry surgingHistory)).length = 0 := by decide +kernel
  have stored : ((afterHistory surgingRegistry surgingHistory).scheduler.schedules.get?
      "daily").isSome = true := by decide +kernel
  refine ⟨by decide +kernel, by decide +kernel, surgingReader_reports surgingRegistry,
    oneClock_surgingTick .python 0, fun onSchedule => ?_⟩
  obtain ⟨schedule, registered⟩ := Option.isSome_iff_exists.mp stored
  have onTime := onSchedule.onTime _ surgingHistory (List.suffix_refl _)
  have never : ∀ placed, ¬ LastRun surgingRegistry "daily" surgingHistory placed := by
    intro placed last
    cases last with
    | keep last =>
        cases last with
        | keep last => cases last
  obtain ⟨run, member⟩ := (onTime.runs "daily").mpr ⟨schedule, registered, .inl never⟩
  rw [List.length_eq_zero_iff.mp none] at member
  cases member

end EtlOrchestrator
