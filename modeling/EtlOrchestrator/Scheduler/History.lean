import EtlOrchestrator.Engine.Identity
import EtlOrchestrator.Persistence.Listing
import EtlOrchestrator.Scheduler.RunOnce

/-!
# The history that a scheduler leaves

The ticks of a scheduler save the runs of their schedules one after the other. A
tick whose workflow is executed saves a run that starts at the tick. A tick whose
workflow cannot be loaded saves a failed run without a start, which the history
orders before every run that has one. So after a tick the latest run of a workflow
is the one of the tick when its workflow was executed, and otherwise only as long
as the workflow was never executed.
-/

set_option autoImplicit false

namespace EtlOrchestrator

open Scheduling

/-! ## The runs of a tick -/

/-- The schedules that the loop of `run_once` runs and saves, with their runs. The
loop ends where a run raises. -/
def Scheduler.rounds (world : Surroundings) (scheduler : Scheduler) :
    List String → List (String × WorkflowRun)
  | [] => []
  | name :: rest =>
      match scheduler.schedules.get? name with
      | none => []
      | some schedule =>
          match runOf world scheduler.registry schedule with
          | .error _ => []
          | .ok run => (name, run) :: scheduler.rounds world rest

/-- The schedules that `run_once` runs and saves, with their runs. -/
def tickRuns (world : Surroundings) (state : SchedulerState) : List (String × WorkflowRun) :=
  state.scheduler.rounds world (state.dueNow world)

/-- The state after `run_once` has returned or raised. -/
def tick (world : Surroundings) (state : SchedulerState) : SchedulerState :=
  match (runOnce world).run state with
  | .ok _ after => after
  | .error _ after => after

/-- The state after some ticks. -/
def ticks (state : SchedulerState) (worlds : List Surroundings) : SchedulerState :=
  worlds.foldl (fun state world => tick world state) state

/-- A tick changes nothing of the schedules but their last runs. -/
structure SameSchedules (before after : Scheduler) : Prop where
  registry : after.registry = before.registry
  path : ∀ name, (after.schedules.get? name).map Schedule.path =
    (before.schedules.get? name).map Schedule.path

theorem SameSchedules.trans {first second third : Scheduler} (earlier : SameSchedules first second)
    (later : SameSchedules second third) : SameSchedules first third :=
  ⟨later.registry.trans earlier.registry, fun name => (later.path name).trans (earlier.path name)⟩

/-- The runs of a tick do not depend on the last runs. -/
theorem SameSchedules.rounds {before after : Scheduler} (same : SameSchedules before after)
    (world : Surroundings) (names : List String) :
    after.rounds world names = before.rounds world names := by
  induction names with
  | nil => rfl
  | cons name rest ih =>
      rw [Scheduler.rounds, Scheduler.rounds, ih]
      have path := same.path name
      cases stored : before.schedules.get? name with
      | none =>
          rw [stored, Option.map_none, Option.map_eq_none_iff] at path
          rw [path]
      | some schedule =>
          rw [stored, Option.map_some, Option.map_eq_some_iff] at path
          obtain ⟨other, otherStored, samePath⟩ := path
          have sameRun :
              runOf world after.registry other = runOf world before.registry schedule := by
            rw [runOf, runOf, same.registry, samePath, after.named name other otherStored,
              before.named name schedule stored]
          rw [otherStored]
          dsimp only
          rw [sameRun]

theorem sameSchedules_round (world : Surroundings) (state : SchedulerState) (schedule : Schedule)
    (name : String) (run : WorkflowRun) :
    SameSchedules state.scheduler (state.round world schedule name run).scheduler where
  registry := round_registry state schedule name run
  path other := by
    rw [round_get?]
    by_cases same : other = name
    · rw [if_pos same, same, Option.map_map]
      rfl
    · rw [if_neg same]

/-- What the loop has saved, and what it keeps, when it returns or raises. -/
structure Saves (world : Surroundings) (before : SchedulerState) (names : List String)
    (after : SchedulerState) : Prop where
  saved : after.saved = before.saved ++ (before.scheduler.rounds world names).map Prod.snd
  same : SameSchedules before.scheduler after.scheduler

/-- **The loop saves the runs of its rounds.** -/
theorem runDue_saves (world : Surroundings) (names : List String) (state : SchedulerState)
    (nodup : names.Nodup) (registered : ∀ name ∈ names, name ∈ state.scheduler.schedules) :
    Saves world state names (endState (runDue world names) state) := by
  refine runDue_induction (fun state => ?_) (fun stored ran => ?_)
    (fun {state name rest schedule run after} stored _ ran saves => ?_) names state nodup registered
  · exact ⟨(List.append_nil _).symm, rfl, fun _ => rfl⟩
  · refine ⟨?_, ⟨by simp, fun _ => by simp⟩⟩
    simp [Scheduler.rounds, stored, ran]
  · have same := sameSchedules_round world state schedule name run
    refine ⟨?_, same.trans saves.same⟩
    rw [saves.saved, same.rounds]
    simp [Scheduler.rounds, stored, ran, SchedulerState.round]

/-- A tick ends where its loop ends. -/
theorem tick_eq_endState (world : Surroundings) (state : SchedulerState) : tick world state =
    endState (runDue world (state.dueNow world))
      { state with clockReads := state.clockReads + 1 } := by
  rw [tick, runOnce_run, endState]
  cases (runDue world (state.dueNow world)).run
    { state with clockReads := state.clockReads + 1 } <;> rfl

/-- **A tick saves its runs, whether it returns or raises.** -/
theorem tick_saves (world : Surroundings) (state : SchedulerState) :
    (tick world state).saved = state.saved ++ (tickRuns world state).map Prod.snd ∧
      SameSchedules state.scheduler (tick world state).scheduler := by
  have saves := runDue_saves world (state.dueNow world)
    { state with clockReads := state.clockReads + 1 } (state.scheduler.due_nodup _)
    Scheduler.mem_of_due
  rw [tick_eq_endState]
  exact ⟨saves.saved, saves.same⟩

/-! ## What a saved run shows -/

/-- A run that `run_once` saves for a schedule. -/
structure ScheduledRun (world : Surroundings) (name : String) (run : WorkflowRun) : Prop where
  runId : run.runId = (world.env name).runId
  params : run.params = ∅
  keyed : run.Keyed
  start : run.startedAt = none ∨ run.startedAt = some ((world.env name).clock 0)

/-- A run of an engine of a workflow file has the identity of the run. -/
theorem identity_of_run {engine : AcceptedEngine} {env : Env} (one : engine.maxWorkers = 1)
    {run : WorkflowRun} (ran : engine.run env = .ok run) :
    RunIdentity engine.toWorkflowEngine { env with params := ∅ } run := by
  have steps := steps_of_runSequential { env with params := ∅ } one
  rw [AcceptedEngine.run] at ran
  split at ran
  · rename_i after sequential
    rw [sequential] at steps
    obtain ⟨machine, reached, _, rfl⟩ := steps
    cases ran
    exact RunIdentity.steps reached
  · cases ran

section

variable {world : Surroundings} {state : SchedulerState} {scheduler : Scheduler}
  {name : String} {run : WorkflowRun} {schedule : Schedule}

/-- A round is one of a registered schedule whose run has returned. -/
theorem runOf_of_mem_rounds {names : List String}
    (member : (name, run) ∈ scheduler.rounds world names) : name ∈ names ∧ ∃ schedule,
      scheduler.schedules.get? name = some schedule ∧
        runOf world scheduler.registry schedule = .ok run := by
  induction names with
  | nil => cases member
  | cons first rest ih =>
      rw [Scheduler.rounds] at member
      split at member
      · cases member
      · rename_i schedule stored
        split at member
        · cases member
        · rename_i firstRun ran
          rcases List.mem_cons.mp member with same | later
          · obtain ⟨rfl, rfl⟩ := Prod.mk.inj same
            exact ⟨List.mem_cons_self, schedule, stored, ran⟩
          · obtain ⟨inRest, found⟩ := ih later
            exact ⟨List.mem_cons_of_mem _ inRest, found⟩

theorem rounds_names_sublist (world : Surroundings) (scheduler : Scheduler) (names : List String) :
    ((scheduler.rounds world names).map Prod.fst).Sublist names := by
  induction names with
  | nil => exact .slnil
  | cons name rest ih =>
      rw [Scheduler.rounds]
      split
      · exact List.nil_sublist _
      · split
        · exact List.nil_sublist _
        · exact ih.cons_cons name

/-- A loadable workflow is executed, and any other one is reported as a run without a
start. -/
theorem startedAt_of_runOf (stored : scheduler.schedules.get? name = some schedule)
    (ran : runOf world scheduler.registry schedule = .ok run) : ScheduledRun world name run ∧
      (IsRunnable world scheduler.registry schedule ↔
        run.startedAt = some ((world.env name).clock 0)) ∧
      ∀ engine, loadEngine world.reader scheduler.registry schedule.path = .ok engine →
        run.workflowId = engine.workflow.workflowId := by
  have sameName := scheduler.named name schedule stored
  rw [runOf, sameName] at ran
  rw [IsRunnable]
  cases loaded : loadEngine world.reader scheduler.registry schedule.path with
  | error error =>
      rw [loaded] at ran
      cases error with
      | orchestration error =>
          cases ran
          refine ⟨⟨rfl, rfl, ?_, .inl rfl⟩, iff_of_false ?_ (by simp [unrunnable]), ?_⟩
          · intro _ _ found
            cases found
          · rintro ⟨_, same⟩
            cases same
          · intro _ same
            cases same
      | _ => cases ran
  | ok engine =>
      rw [loaded] at ran
      have identity := identity_of_run (maxWorkers_of_loadEngine loaded) ran
      refine ⟨⟨identity.runId, identity.params, identity.keyed, .inr identity.startedAt⟩,
        iff_of_true ⟨engine, rfl⟩ identity.startedAt, fun other same => ?_⟩
      cases same
      exact identity.workflowId

/-- A run that is not executed is that of its schedule. -/
theorem workflowId_of_not_runnable (stored : scheduler.schedules.get? name = some schedule)
    (ran : runOf world scheduler.registry schedule = .ok run)
    (notRunnable : ¬ IsRunnable world scheduler.registry schedule) :
    run.workflowId = name ∧ run.startedAt = none := by
  rw [runOf, scheduler.named name schedule stored] at ran
  split at ran
  · cases ran
    exact ⟨rfl, rfl⟩
  · cases ran
  · exact absurd ⟨_, ‹_›⟩ notRunnable

end

/-! ## The runs of several ticks -/

/-- The ids of the runs, which are drawn at random, are all different. -/
structure FreshIds (worlds : List Surroundings) : Prop where
  apart : worlds.Pairwise fun earlier later => ∀ name other,
    (earlier.env name).runId ≠ (later.env other).runId
  distinct : ∀ world ∈ worlds, ∀ name other,
    (world.env name).runId = (world.env other).runId → name = other

/-- The runs of each tick start after those of the ticks before it. -/
def ClockAdvances (worlds : List Surroundings) : Prop :=
  worlds.Pairwise fun earlier later => ∀ name other,
    (earlier.env name).clock 0 < (later.env other).clock 0

/-- What holds after some ticks. -/
structure TickHistory (initial : Scheduler) (worlds : List Surroundings) (state : SchedulerState) :
    Prop where
  scheduled : ∀ run ∈ state.saved, ∃ world ∈ worlds, ∃ name, ScheduledRun world name run
  distinct : (state.saved.map WorkflowRun.runId).Nodup
  same : SameSchedules initial state.scheduler

theorem ticks_concat (state : SchedulerState) (worlds : List Surroundings) (world : Surroundings) :
    ticks state (worlds ++ [world]) = tick world (ticks state worlds) := by
  rw [ticks, List.foldl_append]
  rfl

/-- The last tick adds its runs to those that are saved. -/
theorem mem_saved_concat {state : SchedulerState} {worlds : List Surroundings}
    {world : Surroundings} {run : WorkflowRun} :
    run ∈ (ticks state (worlds ++ [world])).saved ↔
      run ∈ (ticks state worlds).saved ∨
        ∃ name, (name, run) ∈ tickRuns world (ticks state worlds) := by
  rw [ticks_concat, (tick_saves world _).1, List.mem_append, List.mem_map]
  refine or_congr_right ⟨?_, fun ⟨name, member⟩ => ⟨(name, run), member, rfl⟩⟩
  rintro ⟨⟨name, _⟩, member, rfl⟩
  exact ⟨name, member⟩

/-- The runs of a tick are those of schedules. -/
theorem scheduledRun_of_mem_tickRuns {world : Surroundings} {state : SchedulerState}
    {name : String} {run : WorkflowRun} (member : (name, run) ∈ tickRuns world state) :
    ScheduledRun world name run := by
  obtain ⟨_, schedule, stored, ran⟩ := runOf_of_mem_rounds member
  exact (startedAt_of_runOf stored ran).1

/-- The runs of a tick are those of different schedules. -/
theorem tickRuns_names_nodup (world : Surroundings) (state : SchedulerState) :
    ((tickRuns world state).map Prod.fst).Nodup :=
  (rounds_names_sublist world state.scheduler _).nodup (state.scheduler.due_nodup _)

/-- The runs of a tick have different ids. -/
theorem nodup_tickRuns (world : Surroundings) (state : SchedulerState)
    (distinct : ∀ name other, (world.env name).runId = (world.env other).runId → name = other) :
    (((tickRuns world state).map Prod.snd).map WorkflowRun.runId).Nodup := by
  have sameIds : ((tickRuns world state).map Prod.snd).map WorkflowRun.runId =
      ((tickRuns world state).map Prod.fst).map fun name => (world.env name).runId := by
    rw [List.map_map, List.map_map]
    exact List.map_congr_left fun entry member => (scheduledRun_of_mem_tickRuns member).runId
  rw [sameIds]
  exact (tickRuns_names_nodup world state).map fun first second => distinct first second

/-- **The history of some ticks: each saved run is one of a tick, and no two have the
same id.** -/
theorem ticks_history (initial : Scheduler) {worlds : List Surroundings}
    (fresh : FreshIds worlds) :
    TickHistory initial worlds (ticks { scheduler := initial } worlds) := by
  induction worlds using List.reverseRecOn with
  | nil => exact ⟨fun _ member => (by cases member), List.nodup_nil, rfl, fun _ => rfl⟩
  | append_singleton worlds world ih =>
      obtain ⟨earlierApart, _, lastApart⟩ := List.pairwise_append.mp fresh.apart
      have earlier := ih ⟨earlierApart, fun other member =>
        fresh.distinct other (List.mem_append_left _ member)⟩
      obtain ⟨saved, same⟩ := tick_saves world (ticks { scheduler := initial } worlds)
      have inTick : ∀ run ∈ (tickRuns world (ticks { scheduler := initial } worlds)).map Prod.snd,
          ∃ name, ScheduledRun world name run := by
        intro run member
        obtain ⟨⟨name, _⟩, inTick, rfl⟩ := List.mem_map.mp member
        exact ⟨name, scheduledRun_of_mem_tickRuns inTick⟩
      rw [ticks_concat]
      refine ⟨fun run member => ?_, ?_, earlier.same.trans same⟩
      · rw [saved] at member
        rcases List.mem_append.mp member with old | new
        · obtain ⟨other, otherMember, name, scheduled⟩ := earlier.scheduled run old
          exact ⟨other, List.mem_append_left _ otherMember, name, scheduled⟩
        · obtain ⟨name, scheduled⟩ := inTick run new
          exact ⟨world, by simp, name, scheduled⟩
      · rw [saved, List.map_append, List.nodup_append]
        refine ⟨earlier.distinct, nodup_tickRuns world _ (fresh.distinct world (by simp)), ?_⟩
        rintro runId old _ new rfl
        obtain ⟨run, oldRun, rfl⟩ := List.mem_map.mp old
        obtain ⟨other, newRun, sameId⟩ := List.mem_map.mp new
        obtain ⟨oldWorld, oldMember, oldName, oldScheduled⟩ := earlier.scheduled run oldRun
        obtain ⟨newName, newScheduled⟩ := inTick other newRun
        apply lastApart oldWorld oldMember world List.mem_cons_self oldName newName
        rw [← oldScheduled.runId, ← newScheduled.runId, sameId]

/-! ## The store of the ticks -/

/-- The store that some ticks leave. -/
def historyStore (encoding : Encoding) (initial : Scheduler) (worlds : List Surroundings) :
    RunStore :=
  RunStore.saveAll encoding ∅
    ((ticks { scheduler := initial } worlds).saved.map WorkflowRun.snapshot)

/-- Saving new runs adds them to the history. -/
theorem RunStore.Lists.saveAll {encoding : Encoding} (runs : List RunSnapshot) :
    ∀ {store : RunStore} {earlier : List RunSnapshot}, Lists encoding store earlier →
      (∀ run ∈ runs, Storable encoding run) →
      ((earlier ++ runs).map RunSnapshot.runId).Nodup →
      Lists encoding (RunStore.saveAll encoding store runs) (earlier ++ runs) := by
  induction runs with
  | nil => exact fun lists _ _ => by rwa [List.append_nil]
  | cons run rest ih =>
      intro store earlier lists storable distinct
      have new : ∀ other ∈ earlier, other.runId ≠ run.runId := by
        rw [List.map_append, List.nodup_append] at distinct
        exact fun other member => distinct.2.2 _ (List.mem_map_of_mem member) _ List.mem_cons_self
      rw [List.append_cons] at distinct ⊢
      exact ih (lists.save_new (storable run List.mem_cons_self) new)
        (fun other member => storable other (List.mem_cons_of_mem _ member)) distinct

/-- A run of a schedule can be stored. -/
theorem ScheduledRun.storable {encoding : Encoding} {world : Surroundings} {name : String}
    {run : WorkflowRun} (scheduled : ScheduledRun world name run)
    (empty : ∃ text, encoding.dumps ∅ = .ok text) : RunStore.Storable encoding run.snapshot := by
  have keyed : run.snapshot.Keyed := scheduled.keyed
  refine ⟨?_, keyed.distinct⟩
  rw [show run.snapshot.params = ∅ from scheduled.params]
  exact empty

/-- The store of some ticks lists the runs that they have saved. -/
theorem historyStore_lists {encoding : Encoding} (empty : ∃ text, encoding.dumps ∅ = .ok text)
    (initial : Scheduler) {worlds : List Surroundings} (fresh : FreshIds worlds) :
    RunStore.Lists encoding (historyStore encoding initial worlds)
      ((ticks { scheduler := initial } worlds).saved.map WorkflowRun.snapshot) := by
  have history := ticks_history initial fresh
  refine RunStore.Lists.saveAll _ (.empty : RunStore.Lists encoding ∅ []) ?_ ?_
  · intro snapshot member
    obtain ⟨run, saved, rfl⟩ := List.mem_map.mp member
    obtain ⟨world, _, name, scheduled⟩ := history.scheduled run saved
    exact scheduled.storable empty
  · rw [List.nil_append, List.map_map]
    exact history.distinct

/-- The history of a workflow begins with a run. -/
structure IsLatest (encoding : Encoding) (store : RunStore) (name : String) (run : WorkflowRun) :
    Prop where
  latest : store.latestRun encoding name = .ok (some run.snapshot.summary)
  first : ∃ rest, store.listRuns encoding (some name) = .ok (run.snapshot.summary :: rest)

/-- The starts of the runs of some ticks. -/
def tickStarts (worlds : List Surroundings) : Set ℚ :=
  { instant | ∃ world ∈ worlds, ∃ name, instant = (world.env name).clock 0 }

section

variable {encoding : Encoding} {initial : Scheduler} {worlds : List Surroundings}
  {name : String} {run : WorkflowRun}

/-- A saved run is the latest of a workflow exactly when every other run of the
workflow has started before it. -/
theorem isLatest_iff_startedBefore (empty : ∃ text, encoding.dumps ∅ = .ok text)
    (fresh : FreshIds worlds) (chronological : encoding.Chronological (tickStarts worlds))
    (saved : run ∈ (ticks { scheduler := initial } worlds).saved) (own : run.workflowId = name) :
    IsLatest encoding (historyStore encoding initial worlds) name run ↔
      ∀ other ∈ (ticks { scheduler := initial } worlds).saved, other.workflowId = name →
        other.runId ≠ run.runId → other.snapshot.StartedBefore run.snapshot := by
  have history := ticks_history initial fresh
  have starts : RunSnapshot.starts
      ((ticks { scheduler := initial } worlds).saved.map WorkflowRun.snapshot) ⊆
        tickStarts worlds := by
    rintro instant ⟨snapshot, member, started⟩
    obtain ⟨other, otherSaved, rfl⟩ := List.mem_map.mp member
    obtain ⟨world, worldMember, otherName, scheduled⟩ := history.scheduled other otherSaved
    rcases scheduled.start with none | start
    · exact absurd (none.symm.trans started) nofun
    · exact ⟨world, worldMember, otherName, Option.some.inj (started.symm.trans start)⟩
  have distinct : (((ticks { scheduler := initial } worlds).saved.map WorkflowRun.snapshot).map
      RunSnapshot.runId).Nodup := by
    rw [List.map_map]
    exact history.distinct
  obtain ⟨summaries, listed, head⟩ := (historyStore_lists empty initial fresh).head?_listRuns_iff
    (some name) ⟨fun instant start => chronological.nonempty instant (starts start),
      chronological.strictMono.mono starts⟩ distinct (List.mem_map_of_mem saved)
  have first : IsLatest encoding (historyStore encoding initial worlds) name run ↔
      summaries.head? = some run.snapshot.summary := by
    constructor
    · rintro ⟨latest, _⟩
      rw [RunStore.latestRun_eq_of_listRuns listed] at latest
      exact Except.ok.inj latest
    · intro isHead
      obtain ⟨rest, rfl⟩ := List.head?_eq_some_iff.mp isHead
      exact ⟨by rw [RunStore.latestRun_eq_of_listRuns listed, isHead], rest, listed⟩
  have isOf : ∀ workflowId, RunStore.IsOf (some name) workflowId ↔ workflowId = name := by
    intro workflowId
    simp [RunStore.IsOf]
  rw [first, head, isOf, and_iff_right (show run.snapshot.workflowId = name from own)]
  simp only [List.forall_mem_map, isOf]
  rfl

end

/-- A run of an earlier tick has started before one that is executed in the last
tick. -/
theorem TickHistory.startedBefore {initial : Scheduler} {earlier : List Surroundings}
    {world : Surroundings} {state : SchedulerState} (history : TickHistory initial earlier state)
    (advances : ClockAdvances (earlier ++ [world])) {run other : WorkflowRun} {name : String}
    (old : other ∈ state.saved) (started : run.startedAt = some ((world.env name).clock 0)) :
    other.snapshot.StartedBefore run.snapshot := by
  obtain ⟨oldWorld, oldMember, oldName, scheduled⟩ := history.scheduled other old
  have earlierStart := (List.pairwise_append.mp advances).2.2 oldWorld oldMember world
    List.mem_cons_self oldName name
  rw [RunSnapshot.StartedBefore, show run.snapshot.startedAt = _ from started]
  rcases scheduled.start with none | start
  · rw [show other.snapshot.startedAt = _ from none]
    trivial
  · rw [show other.snapshot.startedAt = _ from start]
    exact .inl earlierStart

/-- Only runs without a start come before a run without one, by their ids. -/
theorem startedBefore_iff {run other : WorkflowRun} (noStart : run.startedAt = none) :
    other.snapshot.StartedBefore run.snapshot ↔
      other.startedAt = none ∧ other.runId < run.runId := by
  rw [RunSnapshot.StartedBefore, show run.snapshot.startedAt = none from noStart]
  cases start : other.startedAt with
  | none =>
      rw [show other.snapshot.startedAt = none from start]
      exact (and_iff_right rfl).symm
  | some instant =>
      rw [show other.snapshot.startedAt = some instant from start]
      refine iff_of_false not_false fun both => ?_
      cases both.1

/-- **After a tick in which a schedule ran, the latest run of its workflow is the run
of the tick exactly when either the workflow was executed, and no other schedule of
the tick has executed the same workflow later, or it could not be loaded, and no
run of the workflow was ever executed or has a greater id.** -/
theorem isLatest_iff (encoding : Encoding) (empty : ∃ text, encoding.dumps ∅ = .ok text)
    (initial : Scheduler) (earlier : List Surroundings) (world : Surroundings)
    (fresh : FreshIds (earlier ++ [world])) (advances : ClockAdvances (earlier ++ [world]))
    (chronological : encoding.Chronological (tickStarts (earlier ++ [world])))
    {name : String} {schedule : Schedule} {run : WorkflowRun}
    (registered : initial.schedules.get? name = some schedule)
    (declares : ∀ engine, loadEngine world.reader initial.registry schedule.path = .ok engine →
      engine.workflow.workflowId = name)
    (ran : (name, run) ∈ tickRuns world (ticks { scheduler := initial } earlier)) :
    IsLatest encoding (historyStore encoding initial (earlier ++ [world])) name run ↔
      (IsRunnable world initial.registry schedule ∧
          ∀ other otherRun,
            (other, otherRun) ∈ tickRuns world (ticks { scheduler := initial } earlier) →
            other ≠ name → otherRun.workflowId = name →
              otherRun.snapshot.StartedBefore run.snapshot) ∨
        (¬ IsRunnable world initial.registry schedule ∧
          ∀ other ∈ (ticks { scheduler := initial } (earlier ++ [world])).saved,
            other.workflowId = name → other.runId ≠ run.runId →
              other.startedAt = none ∧ other.runId < run.runId) := by
  have before : FreshIds earlier :=
    ⟨(List.pairwise_append.mp fresh.apart).1, fun other member =>
      fresh.distinct other (List.mem_append_left _ member)⟩
  have history := ticks_history initial before
  -- The schedule has the same file in each tick.
  have path := history.same.path name
  obtain ⟨_, current, stored, returned⟩ := runOf_of_mem_rounds ran
  rw [registered, stored, Option.map_some, Option.map_some, Option.some_inj] at path
  obtain ⟨scheduled, runnable, sameWorkflow⟩ := startedAt_of_runOf stored returned
  rw [IsRunnable, history.same.registry, path] at runnable
  rw [history.same.registry, path] at sameWorkflow
  have inSaved : run ∈ (ticks { scheduler := initial } (earlier ++ [world])).saved :=
    mem_saved_concat.mpr (.inr ⟨name, ran⟩)
  by_cases loadable : IsRunnable world initial.registry schedule
  · have started := runnable.mp loadable
    have own : run.workflowId = name := by
      obtain ⟨engine, loaded⟩ := loadable
      exact (sameWorkflow engine loaded).trans (declares engine loaded)
    rw [isLatest_iff_startedBefore empty fresh chronological inSaved own,
      or_iff_left fun neither => neither.1 loadable, and_iff_right loadable]
    constructor
    · intro allBefore other otherRun inTick different otherOwn
      refine allBefore otherRun (mem_saved_concat.mpr (.inr ⟨other, inTick⟩)) otherOwn ?_
      rw [(scheduledRun_of_mem_tickRuns inTick).runId, scheduled.runId]
      exact fun same => different (fresh.distinct world (by simp) other name same)
    · intro tickBefore other otherSaved otherOwn different
      rcases mem_saved_concat.mp otherSaved with old | ⟨otherName, inTick⟩
      · exact history.startedBefore advances old started
      · refine tickBefore otherName other inTick (fun sameName => different ?_) otherOwn
        rw [(scheduledRun_of_mem_tickRuns inTick).runId, scheduled.runId, sameName]
  · have notLoadable : ¬ IsRunnable world
        (ticks { scheduler := initial } earlier).scheduler.registry current := by
      rw [IsRunnable, history.same.registry, path]
      exact loadable
    obtain ⟨own, noStart⟩ := workflowId_of_not_runnable stored returned notLoadable
    rw [isLatest_iff_startedBefore empty fresh chronological inSaved own,
      or_iff_right fun both => loadable both.1, and_iff_right loadable]
    exact forall₂_congr fun other _ => forall₂_congr fun _ _ => startedBefore_iff noStart

/-! ## A workflow file that comes and goes -/

/-- A tick at one instant, at which the workflow files can be read or not. -/
def sampleTick (loadable : Bool) (label : String) (instant : ℚ) : Surroundings where
  reader := { exampleReader with
    readText := fun path => if loadable then exampleReader.readText path else none }
  clock := fun _ => instant
  env := fun name => { runId := label ++ name, clock := fun _ => instant }

theorem freshIds_sampleTicks (first second : Bool) :
    FreshIds [sampleTick first "first-" 0, sampleTick second "second-" 60] where
  apart := by
    refine List.pairwise_pair.mpr fun name other same => ?_
    have characters := congrArg String.toList same
    simp [sampleTick, String.toList_append] at characters
  distinct := by
    intro world member name other same
    simp only [List.mem_cons, List.not_mem_nil, or_false] at member
    rcases member with rfl | rfl <;> simpa [sampleTick] using same

theorem clockAdvances_sampleTicks (first second : Bool) :
    ClockAdvances [sampleTick first "first-" 0, sampleTick second "second-" 60] :=
  List.pairwise_pair.mpr fun _ _ => by simp [sampleTick]

theorem chronological_sampleTicks (first second : Bool) : Encoding.sample.Chronological
    (tickStarts [sampleTick first "first-" 0, sampleTick second "second-" 60]) := by
  have instants : ∀ instant ∈ tickStarts
      [sampleTick first "first-" 0, sampleTick second "second-" 60],
      instant = 0 ∨ instant = 60 := by
    rintro instant ⟨world, member, name, rfl⟩
    simp only [List.mem_cons, List.not_mem_nil, or_false] at member
    rcases member with rfl | rfl <;> simp [sampleTick]
  have texts : Encoding.sample.isoformat 0 ≠ "" ∧ Encoding.sample.isoformat 60 ≠ "" ∧
      Encoding.sample.isoformat 0 < Encoding.sample.isoformat 60 := by decide +kernel
  constructor
  · intro instant member
    rcases instants instant member with rfl | rfl
    · exact texts.1
    · exact texts.2.1
  · intro earlier earlierMember later laterMember less
    rcases instants earlier earlierMember with rfl | rfl <;>
      rcases instants later laterMember with rfl | rfl
    · exact absurd less (lt_irrefl _)
    · exact texts.2.2
    · exact absurd less (by norm_num)
    · exact absurd less (lt_irrefl _)

/-- A scheduler with one schedule, which is due every minute. -/
def minuteScheduler : Except PyError Scheduler :=
  (Scheduler.init exampleRegistry).register "daily" "daily.yaml" 60

theorem isLatest_iff_after_failure : ∃ initial run,
    minuteScheduler = .ok initial ∧
      ("daily", run) ∈ tickRuns (sampleTick true "second-" 60)
        (ticks { scheduler := initial } [sampleTick false "first-" 0]) ∧
      IsLatest .sample (historyStore .sample initial
        [sampleTick false "first-" 0, sampleTick true "second-" 60]) "daily" run := by
  have shown : minuteScheduler.map (fun initial =>
      ((tickRuns (sampleTick true "second-" 60)
          (ticks { scheduler := initial } [sampleTick false "first-" 0])).map fun entry =>
            (entry.1, entry.2.startedAt),
        (initial.schedules.get? "daily").map Schedule.path,
        ((loadEngine (sampleTick true "second-" 60).reader initial.registry "daily.yaml").map
          fun engine => engine.workflow.workflowId))) =
      .ok ([("daily", some 60)], some "daily.yaml", .ok "daily") := by decide +kernel
  obtain ⟨initial, created, facts⟩ := Except.map_eq_ok_iff.mp shown
  obtain ⟨runs, facts⟩ := Prod.mk.inj facts
  obtain ⟨path, declared⟩ := Prod.mk.inj facts
  obtain ⟨⟨name, run⟩, single, same⟩ := List.map_eq_singleton_iff.mp runs
  obtain ⟨rfl, started⟩ := Prod.mk.inj same
  obtain ⟨schedule, registered, samePath⟩ := Option.map_eq_some_iff.mp path
  obtain ⟨engine, loaded, sameWorkflow⟩ := Except.map_eq_ok_iff.mp declared
  have ran : ("daily", run) ∈ tickRuns (sampleTick true "second-" 60)
      (ticks { scheduler := initial } [sampleTick false "first-" 0]) := by
    rw [single]
    exact List.mem_singleton_self _
  refine ⟨initial, run, created, ran, (isLatest_iff .sample ⟨"{}", rfl⟩ initial
    [sampleTick false "first-" 0] (sampleTick true "second-" 60) (freshIds_sampleTicks _ _)
    (clockAdvances_sampleTicks _ _) (chronological_sampleTicks _ _) registered ?_ ran).mpr ?_⟩
  · intro other otherLoaded
    rw [samePath, loaded] at otherLoaded
    cases otherLoaded
    exact sameWorkflow
  · refine .inl ⟨⟨engine, by rw [samePath]; exact loaded⟩,
      fun other otherRun member different => ?_⟩
    rw [single] at member
    obtain ⟨rfl, _⟩ := Prod.mk.inj (List.mem_singleton.mp member)
    exact absurd rfl different

/-- A workflow is executed, and its file cannot be loaded at the next tick: the
failed run of this tick is saved, and the latest run is still the one before. -/
theorem not_isLatest_of_failure : ∃ initial run,
    minuteScheduler = .ok initial ∧
      ("daily", run) ∈ tickRuns (sampleTick false "second-" 60)
        (ticks { scheduler := initial } [sampleTick true "first-" 0]) ∧
      ¬ IsLatest .sample (historyStore .sample initial
        [sampleTick true "first-" 0, sampleTick false "second-" 60]) "daily" run := by
  have last : minuteScheduler.map (fun initial => (tickRuns (sampleTick false "second-" 60)
      (ticks { scheduler := initial } [sampleTick true "first-" 0])).map fun entry =>
        (entry.1, entry.2.workflowId, entry.2.runId, entry.2.startedAt)) =
      .ok [("daily", "daily", "second-daily", none)] := by decide +kernel
  have before : minuteScheduler.map (fun initial =>
      (ticks { scheduler := initial } [sampleTick true "first-" 0]).saved.map fun run =>
        (run.workflowId, run.runId, run.startedAt)) =
      .ok [("daily", "first-daily", some 0)] := by decide +kernel
  obtain ⟨initial, created, runs⟩ := Except.map_eq_ok_iff.mp last
  rw [created] at before
  have earlier := Except.ok.inj before
  obtain ⟨⟨name, run⟩, single, same⟩ := List.map_eq_singleton_iff.mp runs
  simp only [Prod.mk.injEq] at same
  obtain ⟨rfl, own, sameId, noStart⟩ := same
  obtain ⟨first, firstSingle, firstSame⟩ := List.map_eq_singleton_iff.mp earlier
  simp only [Prod.mk.injEq] at firstSame
  obtain ⟨firstOwn, firstId, firstStart⟩ := firstSame
  have ran : ("daily", run) ∈ tickRuns (sampleTick false "second-" 60)
      (ticks { scheduler := initial } [sampleTick true "first-" 0]) := by
    rw [single]
    exact List.mem_singleton_self _
  have saved : (ticks { scheduler := initial }
      [sampleTick true "first-" 0, sampleTick false "second-" 60]).saved = [first, run] := by
    have concat := ticks_concat { scheduler := initial } [sampleTick true "first-" 0]
      (sampleTick false "second-" 60)
    rw [List.singleton_append] at concat
    rw [concat, (tick_saves _ _).1, single, firstSingle]
    rfl
  refine ⟨initial, run, created, ran, fun latest => ?_⟩
  rw [isLatest_iff_startedBefore ⟨"{}", rfl⟩ (freshIds_sampleTicks _ _)
    (chronological_sampleTicks _ _) (by simp [saved]) own] at latest
  have before : first.snapshot.StartedBefore run.snapshot :=
    latest first (by simp [saved]) firstOwn (by simp [firstId, sameId])
  rw [RunSnapshot.StartedBefore, show first.snapshot.startedAt = some 0 from firstStart,
    show run.snapshot.startedAt = none from noStart] at before
  exact before

end EtlOrchestrator
