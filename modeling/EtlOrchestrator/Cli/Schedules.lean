import EtlOrchestrator.Scheduler.RunOnce

/-!
# The scheduler commands of the command line

The registrations live in a schedules file. Each `scheduler run-once` is a process
of its own: it registers the entries of the file with a new scheduler, runs what
is due, and ends. The last runs end with it, so every schedule is due in every
process, and an invocation executes whatever it reaches (`executes_iff`).
-/

set_option autoImplicit false

namespace EtlOrchestrator

universe u

open SortedSet Scheduling

/-! ## `scheduler run-once` -/

/-- An entry of the schedules file, as `scheduler register` writes it. -/
structure ScheduleEntry where
  name : String
  path : String
  intervalSeconds : ℚ

/-- The loop of `scheduler_run_once` over the entries. -/
def registerEntries (scheduler : Scheduler) : List ScheduleEntry → Except PyError Scheduler
  | [] => .ok scheduler
  | entry :: rest => do
      let registered ← scheduler.register entry.name entry.path entry.intervalSeconds
      registerEntries registered rest

/-- Run every due schedule once (manual scheduler tick). The scheduler in the state is
the new one, and the lines of the output are returned. -/
def schedulerRunOnce (world : Surroundings) (entries : List ScheduleEntry) :
    Scheduling (List String) := do
  if entries.isEmpty then
    return ["no schedules registered"]
  else
    let scheduler ← ofExcept (registerEntries (← get).scheduler entries)
    modify fun state => { state with scheduler }
    let runs ← runOnce world
    return if runs.isEmpty then ["no schedules due"]
      else runs.map fun run => s!"{run.workflowId}: {run.workflowState.value}"

/-- The state in which a program ends, whether it returns or raises. -/
def Scheduling.finalState {α : Type} (program : Scheduling α) (state : SchedulerState) :
    SchedulerState :=
  match program.run state with
  | .ok _ after => after
  | .error _ after => after

/-- An invocation, with what it meets and the runs in the database before it. -/
structure Invocation where
  world : Surroundings
  saved : List WorkflowRun

namespace Invocation

variable (registry : OrderedDict String TaskCallable) (entries : List ScheduleEntry)
  (invocation : Invocation)

/-- The reading of the clock in `due()`, the first one of the process. -/
def time : ℚ := invocation.world.clock 0

/-- The state in which the process ends. -/
def after : SchedulerState :=
  finalState (schedulerRunOnce invocation.world entries)
    { scheduler := .init registry, saved := invocation.saved }

/-- The invocation executes the workflow of a schedule. -/
def Executes (name : String) : Prop := name ∈ (invocation.after registry entries).executed

instance (name : String) : Decidable (invocation.Executes registry entries name) :=
  inferInstanceAs (Decidable (name ∈ (invocation.after registry entries).executed))

/-- The time of an execution: the `last_run_at` that the process has set, and when the execution
has raised, the last reading of the clock before it. -/
def executedAt (name : String) : ℚ :=
  let ended := invocation.after registry entries
  match (ended.scheduler.schedules.get? name).bind Schedule.lastRunAt with
  | some lastRunAt => lastRunAt
  | none => invocation.world.clock (ended.clockReads - 1)

/-- The entries are accepted, the workflow of the schedule can be loaded, and the
schedules with lower names do not raise. -/
def Reaches (name : String) : Prop :=
  ∃ scheduler schedule, registerEntries (.init registry) entries = .ok scheduler ∧
    scheduler.schedules.get? name = some schedule ∧
    IsRunnable invocation.world registry schedule ∧
    ∀ other otherSchedule, other < name → scheduler.schedules.get? other = some otherSchedule →
      ∃ run, runOf invocation.world registry otherSchedule = .ok run

/-- The reading of the clock that ends the execution of a schedule: a run that returns is followed
by one, as are those of the schedules with lower names, and the first one is that of `due()`. -/
def EndsAt (name : String) (instant : ℚ) : Prop :=
  ∃ scheduler schedule, registerEntries (.init registry) entries = .ok scheduler ∧
    scheduler.schedules.get? name = some schedule ∧
    instant = invocation.world.clock
      (((sorted scheduler.schedules.keySet).filter (· < name)).length +
        match runOf invocation.world registry schedule with
        | .ok _ => 1
        | .error _ => 0)

end Invocation

/-! ## What an invocation executes -/

/-- A new scheduler keeps its registry, and none of its schedules has run. -/
theorem registerEntries_fresh (entries : List ScheduleEntry) :
    ∀ {scheduler registered : Scheduler}, registerEntries scheduler entries = .ok registered →
      (∀ name schedule, scheduler.schedules.get? name = some schedule →
        schedule.lastRunAt = none) →
      registered.registry = scheduler.registry ∧
        ∀ name schedule, registered.schedules.get? name = some schedule →
          schedule.lastRunAt = none := by
  induction entries with
  | nil =>
      intro scheduler registered accepted fresh
      cases accepted
      exact ⟨rfl, fresh⟩
  | cons entry rest ih =>
      intro scheduler registered accepted fresh
      rw [registerEntries, Except.bind_eq_ok_iff] at accepted
      obtain ⟨next, first, later⟩ := accepted
      rw [Scheduler.register] at first
      split at first
      · cases first
        have whole := ih later fun name schedule stored => by
          rw [OrderedDict.get?_set] at stored
          split at stored
          · cases stored
            rfl
          · exact fresh name schedule stored
        exact whole
      · cases first

theorem finalState_eq_endState {α : Type} (program : Scheduling α) (state : SchedulerState) :
    finalState program state = endState program state := by
  rw [finalState, endState]
  cases program.run state <;> rfl

theorem finalState_runDue_cons {world : Surroundings} {state : SchedulerState} {name : String}
    {schedule : Schedule} (registered : state.scheduler.schedules.get? name = some schedule)
    (rest : List String) : finalState (runDue world (name :: rest)) state =
      match runOf world state.scheduler.registry schedule with
      | .error _ => state.ran world schedule
      | .ok run => finalState (runDue world rest) (state.round world schedule name run) := by
  rw [finalState_eq_endState, endState_runDue_cons registered]
  cases runOf world state.scheduler.registry schedule with
  | error error => rfl
  | ok run => exact (finalState_eq_endState _ _).symm

/-- The loop over `names` comes to the schedule `name`, and can execute its workflow. -/
def ComesTo (world : Surroundings) (scheduler : Scheduler) (names : List String) (name : String) :
    Prop :=
  name ∈ names ∧ ∃ schedule, scheduler.schedules.get? name = some schedule ∧
    IsRunnable world scheduler.registry schedule ∧
    ∀ other ∈ names, other < name → ∀ otherSchedule,
      scheduler.schedules.get? other = some otherSchedule →
        ∃ run, runOf world scheduler.registry otherSchedule = .ok run

/-- Only the registry and the schedules of the loop matter. -/
theorem comesTo_congr {world : Surroundings} {scheduler other : Scheduler} {names : List String}
    (registry : other.registry = scheduler.registry)
    (kept : ∀ name ∈ names, other.schedules.get? name = scheduler.schedules.get? name)
    (name : String) : ComesTo world other names name ↔ ComesTo world scheduler names name := by
  rw [ComesTo, ComesTo, registry]
  refine and_congr_right fun member => ?_
  rw [kept name member]
  refine exists_congr fun schedule => and_congr_right fun _ => and_congr_right fun _ => ?_
  refine forall₂_congr fun lower lowerMember => ?_
  rw [kept lower lowerMember]

/-- The loop comes to its first schedule, and to a later one if the first does not raise. -/
theorem comesTo_cons_iff {world : Surroundings} {scheduler : Scheduler} {first name : String}
    {rest : List String} {schedule : Schedule} (least : ∀ other ∈ rest, first < other)
    (stored : scheduler.schedules.get? first = some schedule) :
    ComesTo world scheduler (first :: rest) name ↔
      name = first ∧ IsRunnable world scheduler.registry schedule ∨
        (∃ run, runOf world scheduler.registry schedule = .ok run) ∧
          ComesTo world scheduler rest name := by
  constructor
  · rintro ⟨member, other, otherStored, runnable, below⟩
    rcases List.mem_cons.mp member with rfl | inRest
    · cases stored.symm.trans otherStored
      exact .inl ⟨rfl, runnable⟩
    · refine .inr ⟨below first List.mem_cons_self (least name inRest) schedule stored, inRest,
        other, otherStored, runnable, fun lower lowerInRest => ?_⟩
      exact below lower (List.mem_cons_of_mem _ lowerInRest)
  · rintro (⟨rfl, runnable⟩ | ⟨returned, inRest, other, otherStored, runnable, below⟩)
    · refine ⟨List.mem_cons_self, schedule, stored, runnable, fun lower member less => ?_⟩
      rcases List.mem_cons.mp member with rfl | inRest
      · exact absurd less (lt_irrefl _)
      · exact absurd less (lt_asymm (least lower inRest))
    · refine ⟨List.mem_cons_of_mem _ inRest, other, otherStored, runnable,
        fun lower member less lowerSchedule lowerStored => ?_⟩
      rcases List.mem_cons.mp member with rfl | lowerInRest
      · cases stored.symm.trans lowerStored
        exact returned
      · exact below lower lowerInRest less lowerSchedule lowerStored

/-- **The loop executes the schedules that it comes to.** -/
theorem mem_executed_runDue (world : Surroundings) (names : List String) :
    ∀ state : SchedulerState, names.Pairwise (· < ·) →
      (∀ name ∈ names, name ∈ state.scheduler.schedules) → ∀ name,
      name ∈ (finalState (runDue world names) state).executed ↔
        name ∈ state.executed ∨ ComesTo world state.scheduler names name := by
  induction names with
  | nil =>
      intro state _ _ name
      simp [finalState, runDue, ComesTo]
  | cons first rest ih =>
      intro state ascending registered name
      obtain ⟨least, restAscending⟩ := List.pairwise_cons.mp ascending
      obtain ⟨schedule, stored⟩ :=
        OrderedDict.exists_get?_of_mem (registered first List.mem_cons_self)
      have sameName := state.scheduler.named first schedule stored
      rw [finalState_runDue_cons stored, comesTo_cons_iff least stored]
      cases ran : runOf world state.scheduler.registry schedule with
      | error error =>
          dsimp only
          rw [SchedulerState.mem_ran_executed, sameName]
          refine or_congr_right ⟨.inl, ?_⟩
          rintro (atFirst | ⟨⟨run, returned⟩, _⟩)
          · exact atFirst
          · cases returned
      | ok run =>
          have later := ih (state.round world schedule first run) restAscending
            (round_registered (fun member => lt_irrefl _ (least first member)) fun other member =>
              registered other (List.mem_cons_of_mem _ member)) name
          rw [SchedulerState.round_executed, SchedulerState.mem_ran_executed, sameName,
            comesTo_congr (round_registry state schedule first run) fun other member =>
              round_get?_of_ne state schedule run (least other member).ne', or_assoc] at later
          rw [later]
          simp only [Except.ok.injEq, exists_eq', true_and]

/-- The loop leaves the schedules that are not in it as they are. -/
theorem get?_runDue_of_notMem (world : Surroundings) {other : String} (names : List String) :
    ∀ state : SchedulerState, names.Nodup → (∀ name ∈ names, name ∈ state.scheduler.schedules) →
      other ∉ names → (finalState (runDue world names) state).scheduler.schedules.get? other =
        state.scheduler.schedules.get? other := by
  intro state nodup registered
  rw [finalState_eq_endState]
  refine runDue_induction (P := fun before names after => other ∉ names →
    after.scheduler.schedules.get? other = before.scheduler.schedules.get? other)
    (fun _ _ => rfl) (fun _ _ _ => ?_) (fun _ _ _ later notMem => ?_) names state nodup registered
  · rw [SchedulerState.ran_scheduler]
  · rw [later (fun member => notMem (List.mem_cons_of_mem _ member)),
      round_get?_of_ne _ _ _ (List.ne_of_not_mem_cons notMem)]

/-- The loop only adds to the readings of the clock. -/
theorem clockReads_le_runDue (world : Surroundings) (names : List String)
    (state : SchedulerState) (nodup : names.Nodup)
    (registered : ∀ name ∈ names, name ∈ state.scheduler.schedules) :
    state.clockReads ≤ (finalState (runDue world names) state).clockReads := by
  rw [finalState_eq_endState]
  refine runDue_induction (P := fun before _ after => before.clockReads ≤ after.clockReads)
    (fun _ => le_refl _) (fun _ _ => ?_) (fun _ _ _ later => ?_) names state nodup registered
  · rw [SchedulerState.ran_clockReads]
  · refine le_trans ?_ later
    simp [SchedulerState.round]

/-- An execution ends with a reading of the clock, the `last_run_at` of the schedule, unless
it raises. -/
structure EndsWith (world : Surroundings) (name : String) (reading : ℕ)
    (outcome : Except PyError WorkflowRun) (ended : SchedulerState) : Prop where
  returned : ∀ run, outcome = .ok run →
    (ended.scheduler.schedules.get? name).bind Schedule.lastRunAt = some (world.clock reading) ∧
      reading < ended.clockReads
  raised : ∀ error, outcome = .error error →
    (ended.scheduler.schedules.get? name).bind Schedule.lastRunAt = none ∧
      ended.clockReads = reading

/-- The first execution of the loop ends with the next reading. -/
theorem endsWith_first (world : Surroundings) {name : String} {rest : List String}
    {schedule : Schedule} {state : SchedulerState} (fresh : schedule.lastRunAt = none)
    (stored : state.scheduler.schedules.get? name = some schedule)
    (distinct : (name :: rest).Nodup)
    (registered : ∀ other ∈ rest, other ∈ state.scheduler.schedules) :
    EndsWith world name state.clockReads (runOf world state.scheduler.registry schedule)
      (finalState (runDue world (name :: rest)) state) := by
  obtain ⟨new, restDistinct⟩ := List.nodup_cons.mp distinct
  rw [finalState_runDue_cons stored]
  cases ran : runOf world state.scheduler.registry schedule with
  | error error =>
      refine ⟨nofun, fun _ _ => ?_⟩
      rw [SchedulerState.ran_scheduler, SchedulerState.ran_clockReads, stored]
      exact ⟨fresh, rfl⟩
  | ok run =>
      refine ⟨fun _ _ => ?_, nofun⟩
      have restRegistered : ∀ other ∈ rest,
          other ∈ (state.round world schedule name run).scheduler.schedules :=
        round_registered new registered
      rw [get?_runDue_of_notMem world rest _ restDistinct restRegistered new, round_get?,
        if_pos rfl, stored]
      refine ⟨rfl, lt_of_lt_of_le ?_ (clockReads_le_runDue world rest _ restDistinct
        restRegistered)⟩
      simp [SchedulerState.round]

/-- No name is lower than the least one. -/
theorem filter_lt_least {name : String} {rest : List String}
    (least : ∀ other ∈ rest, name < other) : (name :: rest).filter (· < name) = [] := by
  simp only [List.filter_eq_nil_iff, List.forall_mem_cons, decide_eq_true_eq]
  exact ⟨lt_irrefl name, fun other member => (least other member).asymm⟩

/-- **The loop reads the clock behind each execution that returns.** -/
theorem ends_runDue (world : Surroundings) {name : String} {schedule : Schedule}
    (fresh : schedule.lastRunAt = none) (names : List String) :
    ∀ state : SchedulerState, names.Pairwise (· < ·) →
      (∀ other ∈ names, other ∈ state.scheduler.schedules) →
      ComesTo world state.scheduler names name →
      state.scheduler.schedules.get? name = some schedule →
      EndsWith world name (state.clockReads + (names.filter (· < name)).length)
        (runOf world state.scheduler.registry schedule)
        (finalState (runDue world names) state) := by
  induction names with
  | nil => exact fun state _ _ comes => absurd comes.1 List.not_mem_nil
  | cons first rest ih =>
      intro state ascending registered comes stored
      obtain ⟨least, restAscending⟩ := List.pairwise_cons.mp ascending
      obtain ⟨firstRegistered, restRegistered⟩ := List.forall_mem_cons.mp registered
      obtain ⟨firstSchedule, firstStored⟩ := OrderedDict.exists_get?_of_mem firstRegistered
      rcases (comesTo_cons_iff least firstStored).mp comes with
        ⟨rfl, _⟩ | ⟨⟨run, returned⟩, later⟩
      · -- The schedule is the first one, and no name of the loop is lower.
        rw [filter_lt_least least, List.length_nil, Nat.add_zero]
        exact endsWith_first world fresh stored (ascending.imp ne_of_lt) restRegistered
      · -- The first schedule returns, and its round takes one reading.
        have below : first < name := least name later.1
        have new : first ∉ rest := fun member => lt_irrefl _ (least first member)
        have kept : ∀ other, first < other →
            (state.round world firstSchedule first run).scheduler.schedules.get? other =
              state.scheduler.schedules.get? other := fun other behind =>
          round_get?_of_ne state firstSchedule run behind.ne'
        have comesLater : ComesTo world (state.round world firstSchedule first run).scheduler rest
            name := (comesTo_congr (round_registry state firstSchedule first run)
          (fun other member => kept other (least other member)) name).mpr later
        have ended := ih _ restAscending (round_registered new restRegistered) comesLater
          ((kept name below).trans stored)
        have oneMore : (state.round world firstSchedule first run).clockReads +
            (rest.filter (· < name)).length =
              state.clockReads + ((first :: rest).filter (· < name)).length := by
          have counted : (first :: rest).filter (· < name) = first :: rest.filter (· < name) :=
            List.filter_cons_of_pos (decide_eq_true below)
          rw [counted, List.length_cons]
          simp only [SchedulerState.round, SchedulerState.ran_clockReads]
          omega
        rw [finalState_runDue_cons firstStored, returned]
        rwa [round_registry, oneMore] at ended

/-- After the entries are accepted the command is `run_once`. -/
theorem finalState_schedulerRunOnce {world : Surroundings} {entries : List ScheduleEntry}
    {state : SchedulerState} {scheduler : Scheduler} (nonempty : entries.isEmpty = false)
    (accepted : registerEntries state.scheduler entries = .ok scheduler) :
    finalState (schedulerRunOnce world entries) state =
      finalState (runOnce world) { state with scheduler } := by
  rw [finalState, schedulerRunOnce, nonempty, if_neg Bool.false_ne_true, EStateM.run_bind,
    EStateM.run_get]
  dsimp only
  rw [accepted]
  dsimp only [ofExcept]
  rw [pure_bind, EStateM.run_bind, EStateM.run_modify]
  dsimp only
  rw [EStateM.run_bind, finalState]
  cases (runOnce world).run { state with scheduler } <;> rfl

/-- Every schedule is due for a scheduler that has not run any. -/
theorem Scheduler.mem_due_of_fresh {scheduler : Scheduler}
    (fresh : ∀ name schedule, scheduler.schedules.get? name = some schedule →
      schedule.lastRunAt = none) {now : ℚ} {name : String} :
    name ∈ scheduler.due now ↔ name ∈ scheduler.schedules := by
  rw [mem_due, OrderedDict.mem_iff_get?_isSome, Option.isSome_iff_exists]
  refine exists_congr fun schedule => and_iff_left_of_imp fun stored => ?_
  rw [Schedule.isDue, fresh name schedule stored]

/-- So all its schedules are due. -/
theorem Scheduler.due_of_fresh {scheduler : Scheduler}
    (fresh : ∀ name schedule, scheduler.schedules.get? name = some schedule →
      schedule.lastRunAt = none) (now : ℚ) :
    scheduler.due now = sorted scheduler.schedules.keySet := by
  rw [Scheduler.due]
  congr 1
  ext other
  rw [← SortedSet.mem_sorted, ← Scheduler.due, Scheduler.mem_due_of_fresh fresh,
    OrderedDict.mem_keySet]

/-- An invocation whose entries are accepted goes through all schedules, in the order of their
names. -/
theorem Invocation.after_of_accepted {registry : OrderedDict String TaskCallable}
    {entries : List ScheduleEntry} (invocation : Invocation) {scheduler : Scheduler}
    (nonempty : entries.isEmpty = false)
    (accepted : registerEntries (.init registry) entries = .ok scheduler) :
    invocation.after registry entries =
      finalState (runDue invocation.world (sorted scheduler.schedules.keySet))
        { scheduler, saved := invocation.saved, clockReads := 1 } := by
  obtain ⟨_, fresh⟩ := registerEntries_fresh entries accepted nofun
  rw [Invocation.after, finalState_schedulerRunOnce nonempty accepted,
    ← Scheduler.due_of_fresh fresh invocation.time]
  rfl

/-- **An invocation executes what it reaches, whatever was executed before.** -/
theorem executes_iff (registry : OrderedDict String TaskCallable) (entries : List ScheduleEntry)
    (invocation : Invocation) (name : String) :
    invocation.Executes registry entries name ↔ invocation.Reaches registry entries name := by
  rw [Invocation.Executes, Invocation.Reaches, Invocation.after]
  cases empty : entries.isEmpty with
  | true =>
      obtain rfl := List.isEmpty_iff.mp empty
      refine iff_of_false (fun member => by cases member) ?_
      rintro ⟨scheduler, schedule, accepted, stored, _⟩
      cases accepted
      cases stored
  | false =>
      cases accepted : registerEntries (.init registry) entries with
      | error error =>
          refine iff_of_false ?_ fun ⟨_, _, returned, _⟩ => by cases returned
          rw [finalState, schedulerRunOnce, empty, if_neg Bool.false_ne_true, EStateM.run_bind,
            EStateM.run_get]
          dsimp only
          rw [accepted]
          exact List.not_mem_nil
      | ok scheduler =>
          obtain ⟨sameRegistry, fresh⟩ := registerEntries_fresh entries accepted nofun
          have executed := mem_executed_runDue invocation.world
            (scheduler.due invocation.time)
            { scheduler, saved := invocation.saved, clockReads := 1 } (sorted_pairwise_lt _)
            Scheduler.mem_of_due name
          rw [finalState_schedulerRunOnce empty accepted]
          simp only [ComesTo, Scheduler.mem_due_of_fresh fresh, sameRegistry] at executed
          refine executed.trans ⟨?_, ?_⟩
          · rintro (member | ⟨_, schedule, stored, runnable, below⟩)
            · cases member
            · exact ⟨scheduler, schedule, rfl, stored, runnable,
                fun other otherSchedule less otherStored =>
                  below other (OrderedDict.mem_of_get? otherStored) less otherSchedule otherStored⟩
          · rintro ⟨_, schedule, ⟨⟩, stored, runnable, below⟩
            exact .inr ⟨OrderedDict.mem_of_get? stored, schedule, stored, runnable,
              fun other _ less otherSchedule otherStored =>
                below other otherSchedule less otherStored⟩

/-- A schedule that an invocation reaches is executed up to the reading that ends its execution,
and this reading is made. -/
theorem executedAt_eq {registry : OrderedDict String TaskCallable} {entries : List ScheduleEntry}
    {invocation : Invocation} {name : String} {instant : ℚ}
    (reaches : invocation.Reaches registry entries name)
    (ends : invocation.EndsAt registry entries name instant) :
    invocation.executedAt registry entries name = instant ∧
      ∃ reading < (invocation.after registry entries).clockReads,
        instant = invocation.world.clock reading := by
  obtain ⟨scheduler, schedule, accepted, stored, rfl⟩ := ends
  obtain ⟨_, _, accepted', stored', runnable, below⟩ := reaches
  cases accepted.symm.trans accepted'
  cases stored.symm.trans stored'
  have nonempty : entries.isEmpty = false := by
    cases entries with
    | nil =>
        cases accepted
        cases stored
    | cons => rfl
  obtain ⟨sameRegistry, fresh⟩ := registerEntries_fresh entries accepted nofun
  have comes : ComesTo invocation.world scheduler (sorted scheduler.schedules.keySet) name := by
    refine ⟨mem_sorted.mpr (OrderedDict.mem_keySet.mpr (OrderedDict.mem_of_get? stored)),
      schedule, stored, sameRegistry ▸ runnable,
      fun other _ lower otherSchedule otherStored => ?_⟩
    rw [sameRegistry]
    exact below other otherSchedule lower otherStored
  have ended : EndsWith invocation.world name
      (1 + ((sorted scheduler.schedules.keySet).filter (· < name)).length)
      (runOf invocation.world scheduler.registry schedule)
      (finalState (runDue invocation.world (sorted scheduler.schedules.keySet))
        { scheduler, saved := invocation.saved, clockReads := 1 }) :=
    ends_runDue invocation.world (fresh name schedule stored) _
      { scheduler, saved := invocation.saved, clockReads := 1 } (sorted_pairwise_lt _)
      (fun other member => OrderedDict.mem_keySet.mp (mem_sorted.mp member)) comes stored
  have initial : (Scheduler.init registry).registry = registry := rfl
  rw [sameRegistry, initial] at ended
  rw [Invocation.executedAt, invocation.after_of_accepted nonempty accepted]
  cases ran : runOf invocation.world registry schedule with
  | ok run =>
      obtain ⟨marked, made⟩ := ended.returned run ran
      rw [marked]
      exact ⟨by rw [Nat.add_comm], _, made, by rw [Nat.add_comm]⟩
  | error error =>
      obtain ⟨unmarked, last⟩ := ended.raised error ran
      rw [unmarked, last]
      refine ⟨by rw [Nat.add_sub_cancel_left, Nat.add_zero], _, ?_, rfl⟩
      dsimp only
      omega

/-! ## Sequences of invocations -/

/-- The interval with which the entries register a schedule. -/
def IntervalIs (registry : OrderedDict String TaskCallable) (entries : List ScheduleEntry)
    (name : String) (interval : ℚ) : Prop :=
  ∃ scheduler schedule, registerEntries (.init registry) entries = .ok scheduler ∧
    scheduler.schedules.get? name = some schedule ∧ schedule.intervalSeconds = interval

/-- A schedule's workflow is executed in an invocation only if no earlier invocation executed it, or
its interval has elapsed, as `due()` measures it, since the last execution. -/
def KeepsIntervals (registry : OrderedDict String TaskCallable) (entries : List ScheduleEntry)
    (invocations : List Invocation) : Prop :=
  ∀ before last between current after,
    invocations = before ++ last :: between ++ current :: after → ∀ name,
    current.Executes registry entries name → last.Executes registry entries name →
    (∀ other ∈ between, ¬ other.Executes registry entries name) →
    ∀ interval, IntervalIs registry entries name interval →
      interval ≤ current.time - last.executedAt registry entries name

/-- The clock never goes backwards, neither in a process nor from one to the next. -/
structure Chronological (registry : OrderedDict String TaskCallable) (entries : List ScheduleEntry)
    (invocations : List Invocation) : Prop where
  within : ∀ invocation ∈ invocations, Monotone invocation.world.clock
  between : invocations.Pairwise fun earlier later =>
    ∀ reading < (earlier.after registry entries).clockReads,
      earlier.world.clock reading ≤ later.time

/-- The last member of a list with a property. -/
theorem exists_last {α : Type u} (holds : α → Prop) (members : List α) {first : α}
    (inMembers : first ∈ members) (atFirst : holds first) : ∃ before last between,
    members = before ++ last :: between ∧ holds last ∧ ∀ other ∈ between, ¬ holds other := by
  induction members using List.reverseRecOn with
  | nil => cases inMembers
  | append_singleton rest final ih =>
      by_cases atFinal : holds final
      · exact ⟨rest, final, [], rfl, atFinal, nofun⟩
      · have inRest : first ∈ rest := by
          rcases List.mem_append.mp inMembers with old | new
          · exact old
          · exact absurd (List.mem_singleton.mp new ▸ atFirst) atFinal
        obtain ⟨before, last, between, rfl, atLast, notBetween⟩ := ih inRest
        refine ⟨before, last, between ++ [final], by simp, atLast, fun other member => ?_⟩
        rcases List.mem_append.mp member with old | new
        · exact notBetween other old
        · exact List.mem_singleton.mp new ▸ atFinal

/-- A relation holds pairwise when it holds at any two positions. -/
theorem pairwise_of_split {α : Type u} {relation : α → α → Prop} (members : List α)
    (holds : ∀ before earlier between later after,
      members = before ++ earlier :: between ++ later :: after → relation earlier later) :
    members.Pairwise relation := by
  induction members with
  | nil => exact .nil
  | cons first rest ih =>
      refine .cons (fun later member => ?_) (ih fun before earlier between later after split => ?_)
      · obtain ⟨between, after, rfl⟩ := List.append_of_mem member
        exact holds [] first between later after rfl
      · exact holds (first :: before) earlier between later after (by rw [split]; rfl)

theorem pairwise_split {α : Type u} {relation : α → α → Prop} {before between after : List α}
    {earlier later : α}
    (pairwise : (before ++ earlier :: between ++ later :: after).Pairwise relation) :
    relation earlier later :=
  (List.pairwise_append.mp pairwise).2.2 earlier
    (List.mem_append_right _ List.mem_cons_self) later List.mem_cons_self

/-- The reading that ends the execution of a schedule that is reached. -/
theorem exists_endsAt {registry : OrderedDict String TaskCallable} {entries : List ScheduleEntry}
    {invocation : Invocation} {name : String} (reaches : invocation.Reaches registry entries name) :
    ∃ instant, invocation.EndsAt registry entries name instant := by
  obtain ⟨scheduler, schedule, accepted, stored, _⟩ := reaches
  exact ⟨_, scheduler, schedule, accepted, stored, rfl⟩

/-- **Invocations keep the intervals exactly when no schedule is reached again before its interval
has passed since the reading of the clock that ended its execution.** -/
theorem keepsIntervals_iff (registry : OrderedDict String TaskCallable)
    (entries : List ScheduleEntry) (invocations : List Invocation)
    (ordered : Chronological registry entries invocations) :
    KeepsIntervals registry entries invocations ↔
      invocations.Pairwise fun earlier later => ∀ name instant,
        earlier.Reaches registry entries name → earlier.EndsAt registry entries name instant →
        later.Reaches registry entries name → ∀ interval,
          IntervalIs registry entries name interval → interval ≤ later.time - instant := by
  constructor
  · intro keeps
    refine pairwise_of_split invocations fun before earlier between later after split name instant
      earlierReaches ends laterReaches interval isInterval => ?_
    -- The last invocation before `later` that executed the schedule is not before `earlier`.
    obtain ⟨skipped, last, rest, position, lastExecutes, restDoes⟩ :=
      exists_last (fun other => other.Executes registry entries name)
        (earlier :: between) List.mem_cons_self
        ((executes_iff registry entries earlier name).mpr earlierReaches)
    have elapsed := keeps (before ++ skipped) last rest later after
      (by rw [split, position]; simp) name
      ((executes_iff registry entries later name).mpr laterReaches) lastExecutes restDoes
      interval isInterval
    obtain ⟨atEarlier, reading, made, rfl⟩ := executedAt_eq earlierReaches ends
    have notBefore : earlier.world.clock reading ≤ last.executedAt registry entries name := by
      have member : last ∈ earlier :: between :=
        position ▸ List.mem_append_right _ List.mem_cons_self
      rcases List.mem_cons.mp member with rfl | inBetween
      · exact atEarlier.ge
      · have lastReaches := (executes_iff registry entries last name).mp lastExecutes
        obtain ⟨lastInstant, lastEnds⟩ := exists_endsAt lastReaches
        obtain ⟨atLast, lastReading, _, rfl⟩ := executedAt_eq lastReaches lastEnds
        have inOrder := ordered.between
        rw [split] at inOrder
        have sorted := (List.pairwise_append.mp (List.pairwise_append.mp inOrder).1).2.1
        have steady : Monotone last.world.clock := by
          apply ordered.within
          rw [split]
          exact List.mem_append_left _
            (List.mem_append_right _ (List.mem_cons_of_mem _ inBetween))
        calc earlier.world.clock reading ≤ last.time :=
              (List.pairwise_cons.mp sorted).1 last inBetween reading made
          _ ≤ last.world.clock lastReading := steady (Nat.zero_le _)
          _ = last.executedAt registry entries name := atLast.symm
    exact elapsed.trans (sub_le_sub_left notBefore _)
  · rintro spaced before last between current after rfl name currentExecutes lastExecutes _
      interval isInterval
    have lastReaches := (executes_iff registry entries last name).mp lastExecutes
    obtain ⟨instant, ends⟩ := exists_endsAt lastReaches
    rw [(executedAt_eq lastReaches ends).1]
    exact pairwise_split spaced name instant lastReaches ends
      ((executes_iff registry entries current name).mp currentExecutes) interval isInterval

/-- Invocations at some times, with an hourly schedule for a sound workflow file. -/
def exampleInvocations (times : List ℚ) : List Invocation :=
  times.map fun time =>
    { world := { exampleWorld with clock := fun reading => time + reading }, saved := [] }

/-- The entry of that schedule. -/
def exampleEntry : ScheduleEntry := ⟨"daily", "daily.yaml", 3600⟩

theorem interval_exampleEntry {name : String} {interval : ℚ}
    (isInterval : IntervalIs exampleRegistry [exampleEntry] name interval) :
    interval = 3600 := by
  obtain ⟨scheduler, schedule, accepted, stored, rfl⟩ := isInterval
  cases accepted
  rw [OrderedDict.get?_set] at stored
  split at stored
  · cases stored
    rfl
  · cases stored

/-- An execution ends at the latest with the second reading of the clock. -/
theorem endsAt_exampleEntry {invocation : Invocation} {name : String} {instant : ℚ}
    (ends : invocation.EndsAt exampleRegistry [exampleEntry] name instant)
    (steady : Monotone invocation.world.clock) : instant ≤ invocation.world.clock 1 := by
  obtain ⟨scheduler, schedule, accepted, stored, rfl⟩ := ends
  have noneBelow : ∀ registered : Scheduler,
      registerEntries (.init exampleRegistry) [exampleEntry] = .ok registered →
      ((sorted registered.schedules.keySet).filter (· < "daily")).length = 0 := by
    rintro _ ⟨⟩
    decide +kernel
  have onlyName : name = "daily" := by
    cases accepted
    rw [OrderedDict.get?_set] at stored
    split at stored
    · assumption
    · cases stored
  subst onlyName
  rw [noneBelow scheduler accepted]
  apply steady
  split <;> decide

theorem keepsIntervals_iff_hourly :
    KeepsIntervals exampleRegistry [exampleEntry] (exampleInvocations [0, 3700, 9000]) := by
  have steady : ∀ invocation ∈ exampleInvocations [0, 3700, 9000],
      Monotone invocation.world.clock := by
    intro invocation member
    obtain ⟨time, _, rfl⟩ := List.mem_map.mp member
    exact fun first second ordered => add_le_add_right (Nat.cast_le.mpr ordered) time
  have spaced : (exampleInvocations [0, 3700, 9000]).Pairwise fun earlier later =>
      earlier.world.clock 1 ≤ later.time - 3600 ∧
        ∀ reading < (earlier.after exampleRegistry [exampleEntry]).clockReads,
          earlier.world.clock reading ≤ later.time := by
    decide +kernel
  refine (keepsIntervals_iff exampleRegistry [exampleEntry] _
    ⟨steady, spaced.imp fun both => both.2⟩).mpr ?_
  refine spaced.imp_of_mem fun earlierMember _ both name instant _ ends _ interval isInterval => ?_
  rw [interval_exampleEntry isInterval]
  exact le_sub_comm.mp
    ((endsAt_exampleEntry ends (steady _ earlierMember)).trans both.1)

/-- A minute after the first invocation, the second executes the workflow again. -/
theorem minutely_breaks_interval :
    ¬ KeepsIntervals exampleRegistry [exampleEntry] (exampleInvocations [0, 60]) := by
  intro keeps
  have elapsed := keeps [] _ [] _ [] rfl "daily" (by decide +kernel) (by decide +kernel) nofun 3600
    ⟨_, _, rfl, rfl, rfl⟩
  revert elapsed
  decide +kernel

end EtlOrchestrator
