import Mathlib.Data.Finset.Card
import EtlOrchestrator.Foundations.Performs
import EtlOrchestrator.Scheduler.RunOnce

/-!
# The background loop

`start` and `stop` are called one after the other by one thread, and each `start`
launches a polling thread. The polling threads share the stop event, the state of
the scheduler, and nothing else. Between two steps of one thread any other thread
may take steps: the due schedules are one step of `run_once`, and so is each
iteration of its loop.

A loop is live while it is about to call `run_once`, or will find the event clear
at its next check. `stop` does not wait any longer than its timeout, and then
forgets a thread that may still be alive. When the next `start` clears the event,
the old loop goes on beside the new one (`oneLoop_iff`). In runs in which no `join`
times out there is at most one live loop (`oneLoop_of_inTime`).
-/

set_option autoImplicit false

namespace EtlOrchestrator

open Relation Scheduling

/-! ## Polling threads -/

/-- Where a polling thread stands in `loop`. -/
inductive LoopPc where
  /-- The thread is created and has not been started. -/
  | created
  /-- `while not self._stop_event.is_set()` -/
  | check
  /-- `self.run_once()`, which begins with `self.due()` -/
  | call
  /-- The loop of `run_once`, with the due schedules to come -/
  | iterate (rest : List String)
  /-- `self._sleeper(poll_interval)` -/
  | sleep
  | returned
  | raised (error : PyError)
deriving DecidableEq

/-- `Thread.is_alive()`. -/
def LoopPc.isAlive : LoopPc → Bool
  | created | returned | raised _ => false
  | check | call | iterate _ | sleep => true

/-- What a polling thread meets at a step. -/
structure Polling where
  world : Surroundings
  sleeper : ℚ → Except PyError Unit := fun _ => .ok ()

/-- A polling thread, with the argument of the `start` that launches it. -/
structure LoopThread where
  pollInterval : ℚ := 1 / 20
  pc : LoopPc := .created

namespace LoopThread

variable (polling : Polling) (stopEvent : Bool)

/-- The step of a thread at a program point, and the point after it. -/
def act (pollInterval : ℚ) : LoopPc → Scheduling LoopPc
  | .check => return if stopEvent then .returned else .call
  | .call => do return .iterate (← due polling.world)
  | .iterate [] => return .sleep
  | .iterate (name :: rest) => do
      let _ ← iteration polling.world name
      return .iterate rest
  | .sleep => do
      ofExcept (polling.sleeper pollInterval)
      return .check
  | pc => return pc

/-- A step of a thread, which ends at `raised` when the step raises. -/
def advance (thread : LoopThread) (state : SchedulerState) : SchedulerState × LoopThread :=
  match (act polling stopEvent thread.pollInterval thread.pc).run state with
  | .ok pc after => (after, { thread with pc })
  | .error error after => (after, { thread with pc := .raised error })

end LoopThread

/-! ## The calls of `start` and `stop` -/

/-- Where the calling thread stands in `start` or `stop`. -/
inductive CallPc where
  /-- No call is in progress, and the last one has ended so. -/
  | idle (ended : Except PyError Unit)
  /-- `self._stop_event.clear()` -/
  | clear (pollInterval : ℚ)
  /-- `self._thread = threading.Thread(target=loop, daemon=True)` -/
  | create (pollInterval : ℚ)
  /-- `self._thread.start()` -/
  | launch
  /-- `if self._thread is not None` -/
  | lookUp
  /-- `self._thread.join(timeout=timeout)` -/
  | join
  /-- `self._thread = None` -/
  | forget
deriving DecidableEq

/-- A scheduler with its polling threads, which are numbered in the order of their
creation. `thread` is the reference `self._thread`. -/
structure Background where
  shared : SchedulerState
  stopEvent : Bool := false
  thread : Option ℕ := none
  threads : ℕ → LoopThread := fun _ => {}
  created : ℕ := 0
  call : CallPc := .idle (.ok ())

namespace Background

variable (state : Background)

/-- Whether a polling thread is alive. -/
def isAlive (index : ℕ) : Bool := (state.threads index).pc.isAlive

/-- Whether the background thread is alive. -/
def running : Bool :=
  match state.thread with
  | none => false
  | some index => state.isAlive index

/-- The beginning of `start`. -/
def start (pollInterval : ℚ) : Background :=
  if state.running then
    { state with call := .idle (.error (.runtimeError "scheduler already running")) }
  else { state with call := .clear pollInterval }

/-- The beginning of `stop`. -/
def stop : Background := { state with stopEvent := true, call := .lookUp }

/-- The next step of the call in progress, where `join` waits for the thread. -/
def proceed : Option Background :=
  match state.call with
  | .idle _ => none
  | .clear pollInterval => some { state with stopEvent := false, call := .create pollInterval }
  | .create pollInterval =>
      some
        { state with
          thread := some state.created
          threads := Function.update state.threads state.created { pollInterval }
          created := state.created + 1
          call := .launch }
  | .launch => state.thread.map fun index =>
      { state with
        threads := Function.update state.threads index { state.threads index with pc := .check }
        call := .idle (.ok ()) }
  | .lookUp =>
      match state.thread with
      | none => some { state with call := .idle (.ok ()) }
      | some _ => some { state with call := .join }
  | .join => if state.running then none else some { state with call := .forget }
  | .forget => some { state with thread := none, call := .idle (.ok ()) }

/-- The state after a step of a polling thread. -/
def poll (polling : Polling) (index : ℕ) : Background :=
  let next := (state.threads index).advance polling state.stopEvent state.shared
  { state with shared := next.1, threads := Function.update state.threads index next.2 }

/-- What can happen next. -/
inductive Action where
  | start (pollInterval : ℚ)
  | stop
  /-- The call in progress takes a step. -/
  | proceed
  /-- The timeout of `join` has passed. -/
  | timeOut
  /-- A polling thread takes a step. -/
  | poll (polling : Polling) (index : ℕ)

/-- The state after an action, if it is possible. -/
def step : Action → Option Background
  | .start pollInterval =>
      match state.call with
      | .idle _ => some (state.start pollInterval)
      | _ => none
  | .stop =>
      match state.call with
      | .idle _ => some state.stop
      | _ => none
  | .proceed => state.proceed
  | .timeOut =>
      match state.call with
      | .join => some { state with call := .forget }
      | _ => none
  | .poll polling index => if state.isAlive index then some (state.poll polling index) else none

/-- The states of a run after each of its actions, if all of them are possible. -/
def trace (state : Background) : List Action → Option (List Background)
  | [] => some []
  | action :: rest => do
      let next ← state.step action
      return next :: (← next.trace rest)

/-! ## Live loops -/

/-- Whether `start` is in progress, beyond its check. -/
def starting : Bool :=
  match state.call with
  | .clear _ | .create _ | .launch => true
  | .idle _ | .lookUp | .join | .forget => false

/-- A loop is live when it is about to call `run_once`, or will find the event clear at
its next check. -/
def isLive (index : ℕ) : Bool :=
  (state.threads index).pc = .call ∨ state.isAlive index ∧ state.stopEvent = false

/-- The polling threads that are alive. -/
def aliveThreads : Finset ℕ := (Finset.range state.created).filter fun index => state.isAlive index

/-- The live loops. -/
def liveLoops : Finset ℕ := (Finset.range state.created).filter fun index => state.isLive index

/-- At most one loop is live, and none when the scheduler is neither running nor
about to start. -/
structure OneLoop : Prop where
  atMostOne : state.liveLoops.card ≤ 1
  stopped : state.starting = false → state.running = false → state.liveLoops = ∅

instance : Decidable state.OneLoop :=
  decidable_of_iff (state.liveLoops.card ≤ 1 ∧
      (state.starting = false → state.running = false → state.liveLoops = ∅))
    ⟨fun ⟨atMostOne, stopped⟩ => ⟨atMostOne, stopped⟩,
      fun oneLoop => ⟨oneLoop.atMostOne, oneLoop.stopped⟩⟩

/-- `stop` does not forget a thread that is about to call `run_once`, and `start`
does not launch a thread while an earlier one is alive. -/
structure Careful (before after : Background) : Prop where
  forgets : before.call = .forget → after.call ≠ .forget →
    ∀ index ∈ before.thread, (before.threads index).pc ≠ .call
  launches : before.call = .launch → after.call ≠ .launch → before.aliveThreads = ∅

instance : DecidableRel Careful := fun before after =>
  decidable_of_iff ((before.call = .forget → after.call ≠ .forget →
        ∀ index ∈ before.thread, (before.threads index).pc ≠ .call) ∧
      (before.call = .launch → after.call ≠ .launch → before.aliveThreads = ∅))
    ⟨fun ⟨forgets, launches⟩ => ⟨forgets, launches⟩,
      fun careful => ⟨careful.forgets, careful.launches⟩⟩

end Background

/-! ## A thread in `run_once` -/

namespace LoopThread

variable {polling : Polling} {stopEvent : Bool}

/-- The steps of one polling thread. -/
def Step (polling : Polling) (stopEvent : Bool) (before after : SchedulerState × LoopThread) :
    Prop :=
  before.2.pc.isAlive = true ∧ after = before.2.advance polling stopEvent before.1

theorem advance_iterate (polling : Polling) (stopEvent : Bool) (thread : LoopThread)
    (name : String) (rest : List String) (state : SchedulerState) :
    { thread with pc := .iterate (name :: rest) }.advance polling stopEvent state =
      match (iteration polling.world name).run state with
      | .ok _ after => (after, { thread with pc := .iterate rest })
      | .error error after => (after, { thread with pc := .raised error }) := by
  rw [advance, act, EStateM.run_bind]
  cases (iteration polling.world name).run state <;> rfl

theorem performs_runDue (thread : LoopThread) (names : List String) :
    Performs (Step polling stopEvent) (fun error => { thread with pc := .raised error })
      (runDue polling.world names) { thread with pc := .iterate names }
      fun _ => { thread with pc := .sleep } := by
  induction names with
  | nil =>
      intro state
      exact .single ⟨rfl, rfl⟩
  | cons name rest ih =>
      have iterates : Performs (Step polling stopEvent)
          (fun error => { thread with pc := .raised error }) (iteration polling.world name)
          { thread with pc := .iterate (name :: rest) }
          fun _ => { thread with pc := .iterate rest } := by
        refine .single fun state => ?_
        have advanced := advance_iterate polling stopEvent thread name rest state
        cases ran : (iteration polling.world name).run state with
        | ok run after =>
            rw [ran] at advanced
            exact ⟨rfl, advanced.symm⟩
        | error error after =>
            rw [ran] at advanced
            exact ⟨rfl, advanced.symm⟩
      refine .bind iterates fun run => .bind ih fun completed => ?_
      exact .pure (run :: completed) fun _ => { thread with pc := .sleep }

/-- **The steps of a polling thread carry out `run_once`.** -/
theorem performs_runOnce (thread : LoopThread) :
    Performs (Step polling stopEvent) (fun error => { thread with pc := .raised error })
      (runOnce polling.world) { thread with pc := .call }
      fun _ => { thread with pc := .sleep } := by
  have begins : Performs (Step polling stopEvent)
      (fun error => { thread with pc := .raised error }) (Scheduling.due polling.world)
      { thread with pc := .call } fun names => { thread with pc := .iterate names } :=
    .single fun state => ⟨rfl, rfl⟩
  exact begins.bind (performs_runDue thread)

end LoopThread

/-! ## What holds along a run -/

namespace LoopThread

variable {polling : Polling} {stopEvent : Bool}

/-- A thread is about to call `run_once` after a check that found the event clear. -/
theorem of_advance_call {thread : LoopThread} {state : SchedulerState}
    (alive : thread.pc.isAlive = true)
    (atCall : (thread.advance polling stopEvent state).2.pc = .call) : stopEvent = false := by
  obtain ⟨pollInterval, pc⟩ := thread
  cases pc with
  | created | returned | raised _ => cases alive
  | check =>
      cases stopEvent with
      | false => rfl
      | true => cases atCall
  | call => cases atCall
  | iterate names =>
      cases names with
      | nil => cases atCall
      | cons name rest =>
          rw [advance_iterate polling stopEvent ⟨pollInterval, .created⟩] at atCall
          cases ran : (iteration polling.world name).run state with
          | ok _ _ => simp [ran] at atCall
          | error _ _ => simp [ran] at atCall
  | sleep =>
      rw [advance] at atCall
      dsimp only [act] at atCall
      rw [EStateM.run_bind] at atCall
      cases slept : polling.sleeper pollInterval with
      | ok _ => simp [slept, ofExcept] at atCall
      | error _ => simp [slept, ofExcept] at atCall

end LoopThread

namespace Background

variable {state next : Background}

/-- What is true of the threads in between, where the call in progress stands. -/
def Stage (state : Background) : Prop :=
  match state.call with
  | .idle _ | .clear _ => True
  | .create _ => state.stopEvent = false
  | .launch => state.stopEvent = false ∧
      ∃ index ∈ state.thread, index < state.created ∧ (state.threads index).pc = .created
  | .lookUp | .join | .forget => state.stopEvent = true

/-- At most one polling thread is alive, and `_thread` refers to the live one except
during `start`. -/
structure Invariant (state : Background) : Prop where
  bounded : ∀ index, state.isAlive index = true → index < state.created
  alone : ∀ index other, state.isAlive index = true → state.isAlive other = true → index = other
  referred : state.starting = false → ∀ index, state.isLive index = true →
    state.thread = some index
  stage : state.Stage

theorem isLive_iff {index : ℕ} : state.isLive index = true ↔
    (state.threads index).pc = .call ∨ state.isAlive index = true ∧ state.stopEvent = false := by
  rw [isLive, decide_eq_true_iff]

theorem isAlive_of_isLive {index : ℕ} (live : state.isLive index = true) :
    state.isAlive index = true := by
  rcases isLive_iff.mp live with atCall | ⟨alive, _⟩
  · rw [isAlive, atCall]
    rfl
  · exact alive

theorem isAlive_of_poll {polling : Polling} {index other : ℕ} (alive : state.isAlive index = true)
    (after : (state.poll polling index).isAlive other = true) : state.isAlive other = true := by
  by_cases same : other = index
  · exact same ▸ alive
  · simpa [isAlive, poll, Function.update_of_ne same] using after

/-- A step of a thread makes no loop live. -/
theorem isLive_of_poll {polling : Polling} {index other : ℕ} (alive : state.isAlive index = true)
    (after : (state.poll polling index).isLive other = true) : state.isLive other = true := by
  rw [isLive_iff] at after ⊢
  rcases after with atCall | ⟨stillAlive, clear⟩
  · by_cases same : other = index
    · subst same
      rw [poll] at atCall
      simp only [Function.update_self] at atCall
      exact .inr ⟨alive, LoopThread.of_advance_call alive atCall⟩
    · simp only [poll, Function.update_of_ne same] at atCall
      exact .inl atCall
  · exact .inr ⟨isAlive_of_poll alive stillAlive, clear⟩

theorem mem_liveLoops (invariant : Invariant state) {index : ℕ} :
    index ∈ state.liveLoops ↔ state.isLive index = true := by
  rw [liveLoops, Finset.mem_filter, Finset.mem_range]
  exact and_iff_right_of_imp fun live => invariant.bounded index (isAlive_of_isLive live)

theorem mem_aliveThreads (invariant : Invariant state) {index : ℕ} :
    index ∈ state.aliveThreads ↔ state.isAlive index = true := by
  rw [aliveThreads, Finset.mem_filter, Finset.mem_range]
  exact and_iff_right_of_imp (invariant.bounded index)

/-- The invariant implies the property. -/
theorem Invariant.oneLoop (invariant : Invariant state) : state.OneLoop where
  atMostOne := Finset.card_le_one.mpr fun _ isLive _ otherLive =>
    invariant.alone _ _ (isAlive_of_isLive ((mem_liveLoops invariant).mp isLive))
      (isAlive_of_isLive ((mem_liveLoops invariant).mp otherLive))
  stopped := by
    intro notStarting notRunning
    refine Finset.eq_empty_of_forall_notMem fun index member => ?_
    have live := (mem_liveLoops invariant).mp member
    rw [running, invariant.referred notStarting index live] at notRunning
    exact Bool.false_ne_true (notRunning.symm.trans (isAlive_of_isLive live))

theorem invariant_initial (shared : SchedulerState) : Invariant { shared } where
  bounded := nofun
  alone := nofun
  referred := nofun
  stage := trivial

/-- A step of a call that leaves the threads as they are keeps the invariant. -/
theorem Invariant.of_threads (invariant : Invariant state) (threads : next.threads = state.threads)
    (created : next.created = state.created)
    (referred : next.starting = false → ∀ index, next.isLive index = true →
      next.thread = some index) (stage : next.Stage) : Invariant next where
  bounded := by
    simp only [isAlive, threads, created]
    exact invariant.bounded
  alone := by
    simp only [isAlive, threads]
    exact invariant.alone
  referred := referred
  stage := stage

theorem Invariant.poll (invariant : Invariant state) {polling : Polling} {index : ℕ}
    (alive : state.isAlive index = true) : Invariant (state.poll polling index) where
  bounded := fun other after => invariant.bounded other (isAlive_of_poll alive after)
  alone := fun other another after afterwards =>
    invariant.alone other another (isAlive_of_poll alive after) (isAlive_of_poll alive afterwards)
  referred := fun notStarting other live =>
    invariant.referred notStarting other (isLive_of_poll alive live)
  stage := by
    have stage := invariant.stage
    rw [Stage] at stage ⊢
    cases call : state.call with
    | launch =>
        simp only [call] at stage
        obtain ⟨clear, other, refers, bound, fresh⟩ := stage
        -- The thread to be launched is not alive, so it is not the one that steps.
        have different : other ≠ index := by
          rintro rfl
          rw [isAlive, fresh] at alive
          cases alive
        simp only [Background.poll, call]
        refine ⟨clear, other, refers, bound, ?_⟩
        rw [Function.update_of_ne different]
        exact fresh
    | idle _ | clear _ => simp only [Background.poll, call]
    | create _ | lookUp | join | forget => simpa only [Background.poll, call] using stage

/-- The thread object that `start` creates is not alive. -/
theorem Invariant.create (invariant : Invariant state) {pollInterval : ℚ}
    (clear : state.stopEvent = false) :
    Invariant { state with
      thread := some state.created
      threads := Function.update state.threads state.created { pollInterval }
      created := state.created + 1
      call := .launch } := by
  have before : ∀ index, LoopPc.isAlive
      (Function.update state.threads state.created { pollInterval } index).pc = true →
        state.isAlive index = true := by
    intro index alive
    by_cases same : index = state.created
    · subst same
      rw [Function.update_self] at alive
      cases alive
    · rwa [Function.update_of_ne same] at alive
  refine ⟨fun index alive => ?_, fun index other alive otherAlive => ?_, nofun, ?_⟩
  · exact Nat.lt_succ_of_lt (invariant.bounded index (before index alive))
  · exact invariant.alone index other (before index alive) (before other otherAlive)
  · refine ⟨clear, state.created, rfl, Nat.lt_succ_self _, ?_⟩
    dsimp only
    rw [Function.update_self]

/-- A thread that is launched while no other one is alive is the only one. -/
theorem Invariant.launch (invariant : Invariant state) {index : ℕ}
    (refers : state.thread = some index) (bound : index < state.created)
    (alone : state.aliveThreads = ∅) :
    Invariant { state with
      threads := Function.update state.threads index { state.threads index with pc := .check }
      call := .idle (.ok ()) } := by
  have only : ∀ other, LoopPc.isAlive (Function.update state.threads index
      { state.threads index with pc := .check } other).pc = true → other = index := by
    intro other alive
    by_contra different
    rw [Function.update_of_ne different] at alive
    exact Finset.notMem_empty other (alone ▸ (mem_aliveThreads invariant).mpr alive)
  refine ⟨fun other alive => ?_, fun other another alive anotherAlive => ?_,
    fun _ other live => ?_, trivial⟩
  · exact only other alive ▸ bound
  · exact (only other alive).trans (only another anotherAlive).symm
  · exact refers.trans (congrArg some (only other (isAlive_of_isLive live)).symm)

/-- A step of the call in progress. -/
theorem Invariant.proceed (invariant : Invariant state) (taken : state.proceed = some next)
    (careful : Careful state next) : Invariant next := by
  have stage := invariant.stage
  rw [Stage] at stage
  rw [Background.proceed] at taken
  cases call : state.call with
  | idle ended =>
      rw [call] at taken
      cases taken
  | clear pollInterval =>
      rw [call] at taken
      cases taken
      exact invariant.of_threads rfl rfl nofun rfl
  | create pollInterval =>
      rw [call] at taken stage
      cases taken
      exact invariant.create stage
  | launch =>
      rw [call] at taken stage
      obtain ⟨_, index, refers, bound, _⟩ := stage
      obtain ⟨other, refersOther, rfl⟩ := Option.map_eq_some_iff.mp taken
      cases Option.some.inj (refersOther.symm.trans refers)
      exact invariant.launch refers bound (careful.launches call nofun)
  | lookUp =>
      have notStarting : state.starting = false := by rw [starting, call]
      rw [call] at taken stage
      dsimp only at taken
      split at taken
      · cases taken
        exact invariant.of_threads rfl rfl (fun _ => invariant.referred notStarting) trivial
      · cases taken
        exact invariant.of_threads rfl rfl (fun _ => invariant.referred notStarting) stage
  | join =>
      have notStarting : state.starting = false := by rw [starting, call]
      rw [call] at taken stage
      dsimp only at taken
      split at taken
      · cases taken
      · cases taken
        exact invariant.of_threads rfl rfl (fun _ => invariant.referred notStarting) stage
  | forget =>
      have notStarting : state.starting = false := by rw [starting, call]
      rw [call] at taken stage
      cases taken
      refine invariant.of_threads rfl rfl (fun _ index live => ?_) trivial
      -- The event is set, so a live loop is the forgotten thread, about to call `run_once`.
      rcases isLive_iff.mp live with atCall | ⟨_, clear⟩
      · have refers := invariant.referred notStarting index (isLive_iff.mpr (.inl atCall))
        exact absurd atCall (careful.forgets call nofun index refers)
      · rw [stage] at clear
        cases clear

/-- **A careful step keeps the invariant.** -/
theorem Invariant.step (invariant : Invariant state) {action : Action}
    (taken : state.step action = some next) (careful : Careful state next) : Invariant next := by
  have stage := invariant.stage
  rw [Stage] at stage
  cases action with
  | start pollInterval =>
      rw [Background.step] at taken
      split at taken
      · rename_i call
        cases taken
        have notStarting : state.starting = false := by rw [starting, call]
        rw [start]
        split
        · exact invariant.of_threads rfl rfl (fun _ => invariant.referred notStarting) trivial
        · exact invariant.of_threads rfl rfl nofun trivial
      · cases taken
  | stop =>
      rw [Background.step] at taken
      split at taken
      · rename_i call
        cases taken
        have notStarting : state.starting = false := by rw [starting, call]
        refine invariant.of_threads rfl rfl (fun _ index live => ?_) rfl
        refine invariant.referred notStarting index ?_
        rw [isLive_iff] at live ⊢
        rcases live with atCall | ⟨_, clear⟩
        · exact .inl atCall
        · cases clear
      · cases taken
  | timeOut =>
      rw [Background.step] at taken
      split at taken
      · rename_i call
        cases taken
        have notStarting : state.starting = false := by rw [starting, call]
        rw [call] at stage
        exact invariant.of_threads rfl rfl (fun _ => invariant.referred notStarting) stage
      · cases taken
  | poll polling index =>
      rw [Background.step] at taken
      split at taken
      · rename_i alive
        cases taken
        exact invariant.poll alive
      · cases taken
  | proceed => exact invariant.proceed taken careful

/-! ## Steps that are not careful -/

/-- Only a step of the call itself leaves its last point. -/
theorem proceed_of_left {action : Action} (taken : state.step action = some next)
    (last : state.call = .forget ∨ state.call = .launch) (left : next.call ≠ state.call) :
    state.proceed = some next := by
  cases action with
  | proceed => exact taken
  | poll polling index =>
      rw [step] at taken
      split at taken
      · cases taken
        exact absurd rfl left
      · cases taken
  | start _ | stop | timeOut => rcases last with call | call <;> simp [step, call] at taken

/-- **A step after which the property holds is careful.** -/
theorem Invariant.careful (invariant : Invariant state) {action : Action}
    (taken : state.step action = some next) (oneLoop : next.OneLoop) : Careful state next where
  forgets := by
    intro call left index refers atCall
    have proceeded := proceed_of_left taken (.inl call) (call ▸ left)
    rw [Background.proceed, call] at proceeded
    cases proceeded
    have bound := invariant.bounded index (isAlive_of_isLive (isLive_iff.mpr (.inl atCall)))
    refine Finset.notMem_empty index (oneLoop.stopped rfl rfl ▸ ?_)
    exact Finset.mem_filter.mpr ⟨Finset.mem_range.mpr bound, isLive_iff.mpr (.inl atCall)⟩
  launches := by
    intro call left
    have stage := invariant.stage
    rw [Stage, call] at stage
    obtain ⟨clear, index, refers, bound, fresh⟩ := stage
    have proceeded := proceed_of_left taken (.inr call) (call ▸ left)
    rw [Background.proceed, call] at proceeded
    obtain ⟨launched, refersLaunched, rfl⟩ := Option.map_eq_some_iff.mp proceeded
    cases Option.some.inj (refersLaunched.symm.trans refers)
    refine Finset.eq_empty_of_forall_notMem fun other member => ?_
    have alive := (mem_aliveThreads invariant).mp member
    have different : other ≠ index := by
      rintro rfl
      rw [isAlive, fresh] at alive
      cases alive
    -- With the event clear, the earlier thread is live beside the one that is launched.
    refine different (Finset.card_le_one.mp oneLoop.atMostOne other ?_ index ?_)
    · refine Finset.mem_filter.mpr ⟨Finset.mem_range.mpr (invariant.bounded other alive),
        isLive_iff.mpr (.inr ⟨?_, clear⟩)⟩
      rw [isAlive]
      dsimp only
      rw [Function.update_of_ne different]
      exact alive
    · refine Finset.mem_filter.mpr ⟨Finset.mem_range.mpr bound,
        isLive_iff.mpr (.inr ⟨?_, clear⟩)⟩
      rw [isAlive]
      dsimp only
      rw [Function.update_self]
      rfl

/-- Along a run, the property holds in each state exactly when each step is careful. -/
theorem Invariant.trace_iff (invariant : Invariant state) {actions : List Action} :
    ∀ {states : List Background}, state.trace actions = some states →
      ((∀ later ∈ states, later.OneLoop) ↔ (state :: states).IsChain Careful) := by
  induction actions generalizing state with
  | nil =>
      intro states run
      cases run
      exact iff_of_true nofun (.singleton _)
  | cons action rest ih =>
      intro states run
      simp only [trace, Option.bind_eq_bind, Option.bind_eq_some_iff] at run
      obtain ⟨next, taken, later, continued, ⟨⟩⟩ := run
      rw [List.forall_mem_cons, List.isChain_cons_cons]
      constructor
      · rintro ⟨oneLoop, laterOneLoop⟩
        have careful := invariant.careful taken oneLoop
        exact ⟨careful, (ih (invariant.step taken careful) continued).mp laterOneLoop⟩
      · rintro ⟨careful, laterCareful⟩
        have kept := invariant.step taken careful
        exact ⟨kept.oneLoop, (ih kept continued).mpr laterCareful⟩

/-- **At most one loop is live in every state of a run, and none while the scheduler
is neither running nor about to start, exactly when every step of the run is
careful.** -/
theorem oneLoop_iff (shared : SchedulerState) {actions : List Action} {states : List Background}
    (run : ({ shared } : Background).trace actions = some states) :
    (∀ state ∈ ({ shared } : Background) :: states, state.OneLoop) ↔
      (({ shared } : Background) :: states).IsChain Careful := by
  have invariant := invariant_initial shared
  rw [List.forall_mem_cons, ← invariant.trace_iff run]
  exact and_iff_right invariant.oneLoop

/-- `start`, up to its end. -/
def startActions : List Action := .start (1 / 20) :: List.replicate 3 .proceed

/-- `stop`, with a `join` that times out. -/
def stopActions : List Action := [.stop, .proceed, .timeOut, .proceed]

/-- Steps of one polling thread. -/
def pollActions (index steps : ℕ) : List Action :=
  List.replicate steps (.poll { world := exampleWorld } index)

/-- A `stop` that times out in `run_once`, and a `start` after the old loop has ended. -/
def patientActions : List Action :=
  startActions ++ pollActions 0 2 ++ stopActions ++ pollActions 0 4 ++ startActions

theorem oneLoop_iff_patient : ∃ scheduler states,
    exampleScheduler [("daily", "daily.yaml")] = .ok scheduler ∧
    ({ shared := { scheduler } } : Background).trace patientActions = some states ∧
    ∀ state ∈ ({ shared := { scheduler } } : Background) :: states, state.OneLoop := by
  have facts : (exampleScheduler [("daily", "daily.yaml")]).map (fun scheduler =>
      (({ shared := { scheduler } } : Background).trace patientActions).map fun states =>
        decide ((({ shared := { scheduler } } : Background) :: states).IsChain Careful)) =
      .ok (some true) := by decide +kernel
  obtain ⟨scheduler, registered, facts⟩ := Except.map_eq_ok_iff.mp facts
  obtain ⟨states, run, careful⟩ := Option.map_eq_some_iff.mp facts
  exact ⟨scheduler, states, registered, run,
    (oneLoop_iff { scheduler } run).mpr (of_decide_eq_true careful)⟩

/-- A `start` while the old loop is still in `run_once`, after which both loops go on. -/
def hastyActions : List Action :=
  startActions ++ pollActions 0 2 ++ stopActions ++ startActions ++ pollActions 0 4 ++
    pollActions 1 1

/-- After a `stop` that times out, `start` revives the old loop: it and the new one
are both about to call `run_once`. -/
theorem start_revives_loop : ∃ scheduler states,
    exampleScheduler [("daily", "daily.yaml")] = .ok scheduler ∧
    ({ shared := { scheduler } } : Background).trace hastyActions = some states ∧
    ∃ state ∈ states, (state.threads 0).pc = .call ∧ (state.threads 1).pc = .call ∧
      state.liveLoops = {0, 1} ∧ ¬ state.OneLoop := by
  have facts : (exampleScheduler [("daily", "daily.yaml")]).map (fun scheduler =>
      (({ shared := { scheduler } } : Background).trace hastyActions).map fun states =>
        decide (∃ state ∈ states, (state.threads 0).pc = .call ∧ (state.threads 1).pc = .call ∧
          state.liveLoops = {0, 1} ∧ ¬ state.OneLoop)) = .ok (some true) := by decide +kernel
  obtain ⟨scheduler, registered, facts⟩ := Except.map_eq_ok_iff.mp facts
  obtain ⟨states, run, revived⟩ := Option.map_eq_some_iff.mp facts
  exact ⟨scheduler, states, registered, run, of_decide_eq_true revived⟩

/-! ## Runs in which no `join` times out -/

/-- No polling thread is alive but the one that `_thread` refers to, and none at all
during `start` and when `stop` forgets its thread. -/
structure Tracked (state : Background) : Prop where
  referred : ∀ index, state.isAlive index = true → state.thread = some index
  ended : state.starting = true ∨ state.call = .forget → ∀ index, state.isAlive index = false

theorem Tracked.none_alive (tracked : Tracked state) (notRunning : state.running = false)
    (index : ℕ) : state.isAlive index = false := by
  by_contra alive
  have isAlive := (Bool.not_eq_false _).mp alive
  rw [running, tracked.referred index isAlive] at notRunning
  exact alive notRunning

theorem Tracked.careful (tracked : Tracked state) : Careful state next where
  forgets := by
    intro call _ index _ atCall
    have notAlive := tracked.ended (.inr call) index
    rw [isAlive, atCall] at notAlive
    cases notAlive
  launches := by
    intro call _
    have starting : state.starting = true := by rw [starting, call]
    refine Finset.eq_empty_of_forall_notMem fun index member => ?_
    have alive := (Finset.mem_filter.mp member).2
    rw [tracked.ended (.inl starting) index] at alive
    cases alive

/-- A step of the call in progress. -/
theorem Tracked.proceed (tracked : Tracked state) (taken : state.proceed = some next) :
    Tracked next := by
  rw [Background.proceed] at taken
  cases call : state.call with
  | idle ended =>
      rw [call] at taken
      cases taken
  | clear pollInterval =>
      have starting : state.starting = true := by rw [starting, call]
      rw [call] at taken
      cases taken
      exact ⟨tracked.referred, fun _ => tracked.ended (.inl starting)⟩
  | create pollInterval =>
      have starting : state.starting = true := by rw [starting, call]
      rw [call] at taken
      cases taken
      have noneAlive : ∀ index, LoopPc.isAlive
          (Function.update state.threads state.created { pollInterval } index).pc = false := by
        intro index
        by_cases same : index = state.created
        · subst same
          rw [Function.update_self]
          rfl
        · rw [Function.update_of_ne same]
          exact tracked.ended (.inl starting) index
      refine ⟨fun index alive => ?_, fun _ => noneAlive⟩
      rw [isAlive, noneAlive] at alive
      cases alive
  | launch =>
      have starting : state.starting = true := by rw [starting, call]
      rw [call] at taken
      obtain ⟨index, refers, rfl⟩ := Option.map_eq_some_iff.mp taken
      refine ⟨fun other alive => ?_, nofun⟩
      by_cases same : other = index
      · exact same ▸ refers
      · rw [isAlive] at alive
        dsimp only at alive
        rw [Function.update_of_ne same] at alive
        exact absurd alive (Bool.eq_false_iff.mp (tracked.ended (.inl starting) other))
  | lookUp =>
      rw [call] at taken
      dsimp only at taken
      split at taken
      · cases taken
        exact ⟨tracked.referred, nofun⟩
      · cases taken
        exact ⟨tracked.referred, nofun⟩
  | join =>
      rw [call] at taken
      dsimp only at taken
      split at taken
      · cases taken
      · rename_i notRunning
        cases taken
        exact ⟨tracked.referred, fun _ => tracked.none_alive ((Bool.not_eq_true _).mp notRunning)⟩
  | forget =>
      rw [call] at taken
      cases taken
      refine ⟨fun index alive => ?_, nofun⟩
      exact absurd alive (Bool.eq_false_iff.mp (tracked.ended (.inr call) index))

/-- A step other than a time-out of `join`. -/
theorem Tracked.step (tracked : Tracked state) {action : Action}
    (taken : state.step action = some next) (inTime : action ≠ .timeOut) : Tracked next := by
  cases action with
  | start pollInterval =>
      rw [Background.step] at taken
      split at taken
      · cases taken
        rw [start]
        split
        · exact ⟨tracked.referred, nofun⟩
        · rename_i notRunning
          exact ⟨tracked.referred, fun _ =>
            tracked.none_alive ((Bool.not_eq_true _).mp notRunning)⟩
      · cases taken
  | stop =>
      rw [Background.step] at taken
      split at taken
      · cases taken
        exact ⟨tracked.referred, nofun⟩
      · cases taken
  | timeOut => exact absurd rfl inTime
  | poll polling index =>
      rw [Background.step] at taken
      split at taken
      · rename_i alive
        cases taken
        refine ⟨fun other after => tracked.referred other (isAlive_of_poll alive after),
          fun atEnd other => ?_⟩
        rw [tracked.ended atEnd index] at alive
        cases alive
      · cases taken
  | proceed => exact tracked.proceed taken

/-- Every step of a run without time-outs is careful. -/
theorem Tracked.trace (tracked : Tracked state) {actions : List Action} :
    ∀ {states : List Background}, state.trace actions = some states → .timeOut ∉ actions →
      (state :: states).IsChain Careful := by
  induction actions generalizing state with
  | nil =>
      intro states run _
      cases run
      exact .singleton _
  | cons action rest ih =>
      intro states run inTime
      simp only [Background.trace, Option.bind_eq_bind, Option.bind_eq_some_iff] at run
      obtain ⟨next, taken, later, continued, ⟨⟩⟩ := run
      rw [List.mem_cons, not_or] at inTime
      have kept := tracked.step taken (Ne.symm inTime.1)
      exact .cons_cons tracked.careful (ih kept continued inTime.2)

/-- **Without time-outs of `join`, the property holds in every state of a run.** -/
theorem oneLoop_of_inTime (shared : SchedulerState) {actions : List Action}
    {states : List Background} (run : ({ shared } : Background).trace actions = some states)
    (inTime : .timeOut ∉ actions) : ∀ state ∈ ({ shared } : Background) :: states,
      state.OneLoop := by
  have invariant := invariant_initial shared
  have tracked : Tracked { shared } := ⟨nofun, fun _ _ => rfl⟩
  refine List.forall_mem_cons.mpr ⟨invariant.oneLoop, (invariant.trace_iff run).mpr ?_⟩
  exact tracked.trace run inTime

end Background

end EtlOrchestrator
