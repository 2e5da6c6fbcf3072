import EtlOrchestrator.Engine.Identity
import EtlOrchestrator.Engine.Safety

/-!
# Races of `record()`

`WorkflowRun.record` looks whether a task has a record and stores a new one if it has none. A
block of `_block_downstream` calls it under the lock, and `_execute_task` and the scan of the
upstreams call it without. Here each of these calls is two steps, a look and a store, and other
threads take theirs in between.

As long as no store overwrites a record, the two steps are the one step of the machine
(`AtomicSteps.refines`). With one worker no store does. A store that overwrites the record of a
task that a walk has blocked since the look makes the task pending again, and its own thread blocks
it once more.

A block under the lock is still one step. A look or a store that falls into the block of another
thread is one before the block, or one behind it.
-/

set_option autoImplicit false

namespace EtlOrchestrator

open Relation SortedSet WorkflowEngine

/-! ## Calls in two steps -/

/-- The task whose record a thread asks for without the lock, and the point after the call. -/
def Pc.recordCall? (taskId : String) : Pc → Option (String × Pc)
  | enter => some (taskId, firstCheck)
  | scan (upstreamId :: rest) => some (upstreamId, scanCheck upstreamId rest)
  | refresh => some (taskId, secondCheck)
  | _ => none

/-- A thread at a call has not ended. -/
theorem Pc.unfinished_of_recordCall {taskId : String} {pc : Pc} {call : String × Pc}
    (calls : pc.recordCall? taskId = some call) : pc.ended = false := by
  cases pc with
  | done | raised => cases calls
  | _ => rfl

/-- `self.records[task_id] = TaskRunRecord(task_id=task_id)`. -/
def RunState.storeRecord (state : RunState) (taskId : String) : RunState :=
  { state with run := { state.run with records := state.run.records.set taskId { taskId } } }

/-- A run with threads inside calls of `record()`. Of such a thread, `looked` says whether it has
found a record. -/
structure RacingMachine where
  machine : Machine
  looked : String → Option Bool := fun _ => none

/-- What a scheduler can choose to do next. -/
inductive RacingChoice where
  /-- `if task_id not in self.records` -/
  | look (taskId : String)
  /-- The rest of `record()` -/
  | store (taskId : String)
  /-- A step without a call of `record()` outside the lock -/
  | other (choice : Choice)

/-- The call of `record()` that the thread of a task is about to make or is making. -/
def Machine.recordCall? (machine : Machine) (taskId : String) : Option (String × Pc) :=
  if machine.status = .running ∧ taskId ∈ machine.active then
    (machine.pcs taskId).recordCall? taskId
  else none

namespace RacingMachine

/-- The state after a look. -/
def look (state : RacingMachine) (taskId callee : String) : RacingMachine :=
  { state with
    looked := Function.update state.looked taskId
      (some (decide (callee ∈ state.machine.shared.run.records))) }

/-- The state after a call has returned. -/
def store (state : RacingMachine) (taskId callee : String) (next : Pc) (found : Bool) :
    RacingMachine where
  machine :=
    { state.machine with
      shared := if found then state.machine.shared else state.machine.shared.storeRecord callee
      pcs := Function.update state.machine.pcs taskId next }
  looked := Function.update state.looked taskId none

theorem looked_look_self (state : RacingMachine) (taskId callee : String) :
    (state.look taskId callee).looked taskId =
      some (decide (callee ∈ state.machine.shared.run.records)) :=
  Function.update_self _ _ _

theorem looked_look_of_ne (state : RacingMachine) {taskId other : String}
    (different : other ≠ taskId) (callee : String) :
    (state.look taskId callee).looked other = state.looked other :=
  Function.update_of_ne different _ _

theorem looked_store_self (state : RacingMachine) (taskId callee : String) (next : Pc)
    (found : Bool) : (state.store taskId callee next found).looked taskId = none :=
  Function.update_self _ _ _

theorem looked_store_of_ne (state : RacingMachine) {taskId other : String}
    (different : other ≠ taskId) (callee : String) (next : Pc) (found : Bool) :
    (state.store taskId callee next found).looked other = state.looked other :=
  Function.update_of_ne different _ _

/-- A choice that overwrites a record: the look has found none, and by now there is one. -/
def Overwrites (state : RacingMachine) : RacingChoice → Prop
  | .store taskId => state.looked taskId = some false ∧
      ∃ call ∈ state.machine.recordCall? taskId, call.1 ∈ state.machine.shared.run.records
  | _ => False

instance (state : RacingMachine) : (choice : RacingChoice) → Decidable (state.Overwrites choice)
  | .store _ => inferInstanceAs (Decidable (_ ∧ _))
  | .look _ | .other _ => inferInstanceAs (Decidable False)

/-- No thread is inside a call. -/
def quiet (machine : Machine) : RacingMachine where
  machine := machine

end RacingMachine

namespace WorkflowEngine

variable (engine : WorkflowEngine) (env : Env)

/-- The state after a choice, if it can be taken. -/
def race (state : RacingMachine) : RacingChoice → Option RacingMachine
  | .look taskId =>
      match state.machine.recordCall? taskId, state.looked taskId with
      | some (callee, _), none => some (state.look taskId callee)
      | _, _ => none
  | .store taskId =>
      match state.machine.recordCall? taskId, state.looked taskId with
      | some (callee, next), some found => some (state.store taskId callee next found)
      | _, _ => none
  | .other (.work taskId) =>
      match state.machine.recordCall? taskId with
      | none => (engine.choose env state.machine (.work taskId)).map ({ state with machine := · })
      | some _ => none
  | .other choice => (engine.choose env state.machine choice).map ({ state with machine := · })

/-- A step of a run whose threads race. -/
def RacingStep (state next : RacingMachine) : Prop := ∃ choice, engine.race env state choice = next

/-- A step that overwrites no record. -/
def AtomicStep (state next : RacingMachine) : Prop :=
  ∃ choice, engine.race env state choice = next ∧ ¬ state.Overwrites choice

/-- The runs whose threads race. -/
abbrev RacingSteps : RacingMachine → RacingMachine → Prop := ReflTransGen (engine.RacingStep env)

/-- The runs in which no store overwrites a record. -/
abbrev AtomicSteps : RacingMachine → RacingMachine → Prop := ReflTransGen (engine.AtomicStep env)

/-- The state in which the first batch is about to begin. -/
def startRace : RacingMachine := .quiet (engine.start env)

/-- The state after a list of choices. -/
def replayRace (state : RacingMachine) (choices : List RacingChoice) : Option RacingMachine :=
  choices.foldlM (engine.race env) state

/-- The state after a list of choices, unless one of them overwrites a record. -/
def replayAtomic (state : RacingMachine) (choices : List RacingChoice) : Option RacingMachine :=
  choices.foldlM (fun state choice =>
    if state.Overwrites choice then none else engine.race env state choice) state

variable {engine env}

theorem racingSteps_of_replay {choices : List RacingChoice} {state next : RacingMachine}
    (replayed : engine.replayRace env state choices = some next) :
    engine.RacingSteps env state next := by
  have sound : ∀ before choice after, engine.race env before choice = some after →
      engine.RacingStep env before after := fun _ choice _ raced => ⟨choice, raced⟩
  exact reflTransGen_of_foldlM sound replayed

theorem atomicSteps_of_replay {choices : List RacingChoice} {state next : RacingMachine}
    (replayed : engine.replayAtomic env state choices = some next) :
    engine.AtomicSteps env state next := by
  have sound : ∀ before choice after,
      (if before.Overwrites choice then none else engine.race env before choice) = some after →
      engine.AtomicStep env before after := by
    intro before choice after chosen
    split at chosen
    · cases chosen
    · exact ⟨choice, chosen, ‹_›⟩
  exact reflTransGen_of_foldlM sound replayed

end WorkflowEngine

/-! ## Single steps -/

/-- A later state of the same run has every record. -/
def KeepsRecords (before after : RunState) : Prop :=
  ∀ taskId, taskId ∈ before.run.records → taskId ∈ after.run.records

instance : Std.Refl KeepsRecords := ⟨fun _ _ => id⟩

instance : IsTrans RunState KeepsRecords :=
  ⟨fun _ _ _ earlier later taskId => later taskId ∘ earlier taskId⟩

theorem KeepsRecords.changes : Changes KeepsRecords where
  record state taskId other member := by simp [RunState.record, member]
  update state taskId change _ other member := by simp [RunState.update, member]
  emit _ _ _ := id
  note _ _ _ := id
  tick _ _ := id
  moved _ _ _ := id
  finished _ _ _ := id

namespace WorkflowEngine

variable {engine : WorkflowEngine} {env : Env} {state next : RacingMachine}
  {machine after : Machine} {taskId callee : String} {pc later : Pc}

theorem race_cases {choice : RacingChoice} (raced : engine.race env state choice = some next) :
    (∃ taskId callee later, choice = .look taskId ∧
      state.machine.recordCall? taskId = some (callee, later) ∧ state.looked taskId = none ∧
      next = state.look taskId callee) ∨
    (∃ taskId callee later found, choice = .store taskId ∧
      state.machine.recordCall? taskId = some (callee, later) ∧ state.looked taskId = some found ∧
      next = state.store taskId callee later found) ∨
    ∃ own machine, choice = .other own ∧ engine.choose env state.machine own = some machine ∧
      (∀ taskId, own = .work taskId → state.machine.recordCall? taskId = none) ∧
      next = { state with machine } := by
  cases choice with
  | look taskId =>
      simp only [race] at raced
      split at raced
      · cases raced
        exact .inl ⟨taskId, _, _, rfl, ‹_›, ‹_›, rfl⟩
      · cases raced
  | store taskId =>
      simp only [race] at raced
      split at raced
      · cases raced
        exact .inr (.inl ⟨taskId, _, _, _, rfl, ‹_›, ‹_›, rfl⟩)
      · cases raced
  | other own =>
      refine .inr (.inr ⟨own, ?_⟩)
      cases own with
      | work taskId =>
          simp only [race] at raced
          split at raced
          · obtain ⟨machine, chosen, rfl⟩ := Option.map_eq_some_iff.mp raced
            refine ⟨machine, rfl, chosen, fun other same => ?_, rfl⟩
            cases same
            assumption
          · cases raced
      | _ =>
          obtain ⟨machine, chosen, rfl⟩ := Option.map_eq_some_iff.mp raced
          exact ⟨machine, rfl, chosen, fun _ same => (by cases same), rfl⟩

theorem race_look (calls : state.machine.recordCall? taskId = some (callee, later))
    (outside : state.looked taskId = none) :
    engine.race env state (.look taskId) = some (state.look taskId callee) := by
  simp only [race, calls, outside]

theorem race_store {found : Bool}
    (calls : state.machine.recordCall? taskId = some (callee, later))
    (inside : state.looked taskId = some found) :
    engine.race env state (.store taskId) = some (state.store taskId callee later found) := by
  simp only [race, calls, inside]

/-- A step that calls `record()` without the lock creates the record and goes on. -/
theorem advance_recordCall (calls : pc.recordCall? taskId = some (callee, later))
    (shared : RunState) :
    engine.advance env taskId shared pc = (shared.record callee, later) := by
  cases pc with
  | enter | refresh =>
      cases calls
      rfl
  | scan rest =>
      cases rest with
      | nil => cases calls
      | cons upstreamId rest =>
          cases calls
          rfl
  | _ => cases calls

theorem recordCall?_eq_some_iff {call : String × Pc} : machine.recordCall? taskId = some call ↔
    machine.status = .running ∧ taskId ∈ machine.active ∧
      (machine.pcs taskId).recordCall? taskId = some call := by
  rw [Machine.recordCall?]
  split
  · rename_i held
    exact ⟨fun calls => ⟨held.1, held.2, calls⟩, fun calls => calls.2.2⟩
  · rename_i idle
    exact ⟨nofun, fun calls => absurd ⟨calls.1, calls.2.1⟩ idle⟩

/-- A worker keeps an unfinished job, whatever the others do. -/
theorem Step.held (step : engine.Step env machine after) (held : taskId ∈ machine.active)
    (unfinished : (machine.pcs taskId).ended = false) :
    after.status = .running ∧ taskId ∈ after.active := by
  cases step with
  | take running waiting free => exact ⟨running, List.mem_cons_of_mem _ held⟩
  | work running other => exact ⟨running, held⟩
  | @leave other running _ finished =>
      have different : taskId ≠ other := by
        rintro rfl
        rw [unfinished] at finished
        cases finished
      exact ⟨running, (List.mem_erase_of_ne different).mpr held⟩
  | submit running drained idle | raise running drained idle | finish running drained idle =>
      rw [idle] at held
      cases held

/-- A step of another thread leaves a thread at its call. -/
theorem recordCall?_of_choose {choice : Choice} {call : String × Pc}
    (chosen : engine.choose env machine choice = some after)
    (apart : ∀ other, choice = .work other → machine.recordCall? other = none)
    (calls : machine.recordCall? taskId = some call) : after.recordCall? taskId = some call := by
  obtain ⟨_, held, atCall⟩ := recordCall?_eq_some_iff.mp calls
  obtain ⟨running, stillHeld⟩ := ((engine.step_iff env).mpr ⟨choice, chosen⟩).held held
    (Pc.unfinished_of_recordCall atCall)
  refine recordCall?_eq_some_iff.mpr ⟨running, stillHeld, ?_⟩
  rcases choose_cases chosen with ⟨other, rfl, _, _, rfl⟩ | ⟨_, same, _⟩
  · have different : taskId ≠ other := by
      rintro rfl
      rw [apart taskId rfl] at calls
      cases calls
    rw [work_pcs_of_ne different]
    exact atCall
  · rw [same]
    exact atCall

end WorkflowEngine

/-! ## Atomic runs -/

/-- The threads inside a call stand at it, and what they have found is there. -/
def RacingMachine.Consistent (state : RacingMachine) : Prop :=
  ∀ taskId found, state.looked taskId = some found → ∃ callee later,
    state.machine.recordCall? taskId = some (callee, later) ∧
      (found = true → callee ∈ state.machine.shared.run.records)

namespace RacingMachine

variable {engine : WorkflowEngine} {env : Env} {state next : RacingMachine} {machine : Machine}
  {choice : RacingChoice} {taskId callee : String} {later : Pc} {found : Bool}

theorem consistent_quiet (machine : Machine) : (quiet machine).Consistent := nofun

/-- The two steps of a call are its step of the machine, unless the store overwrites a record. -/
theorem work_eq_store (calls : state.machine.recordCall? taskId = some (callee, later))
    (seen : found = true ↔ callee ∈ state.machine.shared.run.records) :
    engine.work env state.machine taskId = (state.store taskId callee later found).machine := by
  have moved : engine.advance env taskId state.machine.shared (state.machine.pcs taskId) =
      (state.machine.shared.record callee, later) :=
    advance_recordCall (recordCall?_eq_some_iff.mp calls).2.2 state.machine.shared
  rw [work, moved, store]
  cases found with
  | true =>
      have present := seen.mp rfl
      rw [RunState.record, WorkflowRun.record, if_pos present, if_pos rfl]
  | false =>
      have missing : callee ∉ state.machine.shared.run.records := fun member =>
        Bool.false_ne_true (seen.mpr member)
      rw [RunState.record, WorkflowRun.record, if_neg missing, if_neg Bool.false_ne_true]
      rfl

/-- A call whose two steps follow each other is its step of the machine. -/
theorem store_look (calls : machine.recordCall? taskId = some (callee, later)) :
    ((quiet machine).look taskId callee).store taskId callee later
      (decide (callee ∈ machine.shared.run.records)) = quiet (engine.work env machine taskId) := by
  let looking := (quiet machine).look taskId callee
  have sameCalls : looking.machine.recordCall? taskId = some (callee, later) := calls
  have same : engine.work env machine taskId = (looking.store taskId callee later
      (decide (callee ∈ machine.shared.run.records))).machine :=
    work_eq_store sameCalls decide_eq_true_iff
  rw [same]
  simp [looking, store, look, quiet]

theorem keepsRecords_store (state : RacingMachine) (taskId callee : String) (later : Pc)
    (found : Bool) :
    KeepsRecords state.machine.shared (state.store taskId callee later found).machine.shared := by
  intro other member
  cases found with
  | true => exact member
  | false => simp [store, RunState.storeRecord, member]

namespace Consistent

theorem look (consistent : state.Consistent)
    (calls : state.machine.recordCall? taskId = some (callee, later)) :
    (state.look taskId callee).Consistent := by
  intro other found inside
  by_cases same : other = taskId
  · subst same
    rw [looked_look_self, Option.some_inj] at inside
    exact ⟨callee, later, calls, fun seen => of_decide_eq_true (inside.trans seen)⟩
  · rw [looked_look_of_ne state same] at inside
    exact consistent other found inside

theorem store (consistent : state.Consistent) (taskId callee : String) (later : Pc)
    (found : Bool) : (state.store taskId callee later found).Consistent := by
  intro other saw inside
  by_cases same : other = taskId
  · subst same
    rw [looked_store_self] at inside
    cases inside
  · rw [looked_store_of_ne state same] at inside
    obtain ⟨otherCallee, otherLater, calls, present⟩ := consistent other saw inside
    obtain ⟨running, held, atCall⟩ := recordCall?_eq_some_iff.mp calls
    refine ⟨otherCallee, otherLater, recordCall?_eq_some_iff.mpr ⟨running, held, ?_⟩, ?_⟩
    · rw [← atCall]
      exact congrArg (Pc.recordCall? other) (Function.update_of_ne same _ _)
    · exact fun seen => keepsRecords_store state taskId callee later found _ (present seen)

/-- **Each step keeps the threads at their calls.** -/
theorem race (consistent : state.Consistent) (raced : engine.race env state choice = some next) :
    next.Consistent := by
  rcases race_cases raced with ⟨taskId, callee, later, rfl, calls, outside, rfl⟩ |
    ⟨taskId, callee, later, found, rfl, calls, inside, rfl⟩ |
    ⟨own, machine, rfl, chosen, apart, rfl⟩
  · exact consistent.look calls
  · exact consistent.store taskId callee later found
  · intro other saw inside
    obtain ⟨callee, later, calls, present⟩ := consistent other saw inside
    have step := (engine.step_iff env).mpr ⟨own, chosen⟩
    exact ⟨callee, later, recordCall?_of_choose chosen apart calls,
      fun seen => KeepsRecords.changes.step env step callee (present seen)⟩

end Consistent

end RacingMachine

namespace WorkflowEngine

variable {engine : WorkflowEngine} {env : Env} {state next : RacingMachine}
  {machine after : Machine}

/-- A step that overwrites no record is a step of the machine, or none. -/
theorem AtomicStep.refines (consistent : state.Consistent)
    (step : engine.AtomicStep env state next) :
    next.machine = state.machine ∨ engine.Step env state.machine next.machine := by
  obtain ⟨choice, raced, atomic⟩ := step
  rcases race_cases raced with ⟨taskId, callee, later, rfl, calls, outside, rfl⟩ |
    ⟨taskId, callee, later, found, rfl, calls, inside, rfl⟩ |
    ⟨own, machine, rfl, chosen, apart, rfl⟩
  · exact .inl rfl
  · obtain ⟨running, held, atCall⟩ := recordCall?_eq_some_iff.mp calls
    obtain ⟨_, _, sameCalls, present⟩ := consistent taskId found inside
    cases calls.symm.trans sameCalls
    have seen : found = true ↔ callee ∈ state.machine.shared.run.records := by
      refine ⟨present, fun member => ?_⟩
      by_contra unseen
      rw [Bool.not_eq_true] at unseen
      subst unseen
      exact atomic ⟨inside, _, calls, member⟩
    rw [← RacingMachine.work_eq_store calls seen]
    exact .inr (.work running held (Pc.unfinished_of_recordCall atCall))
  · exact .inr ((engine.step_iff env).mpr ⟨own, chosen⟩)

/-- **A run in which no store overwrites a record is a run of the machine.** -/
theorem AtomicSteps.refines (run : engine.AtomicSteps env (.quiet machine) state) :
    state.Consistent ∧ engine.Steps env machine state.machine := by
  induction run with
  | refl => exact ⟨RacingMachine.consistent_quiet machine, .refl⟩
  | @tail before state _ step ih =>
      obtain ⟨consistent, steps⟩ := ih
      have moves := step.refines consistent
      obtain ⟨choice, raced, _⟩ := step
      refine ⟨consistent.race raced, ?_⟩
      rcases moves with same | moved
      · rw [same]
        exact steps
      · exact steps.tail moved

/-- The two steps of each call in one go. -/
theorem atomicSteps_of_step (step : engine.Step env machine after) :
    engine.AtomicSteps env (.quiet machine) (.quiet after) := by
  obtain ⟨choice, chosen⟩ := (engine.step_iff env).mp step
  by_cases apart : ∀ taskId, choice = .work taskId → machine.recordCall? taskId = none
  · refine .single ⟨.other choice, ?_, id⟩
    cases choice with
    | work taskId => simp [race, apart taskId rfl, chosen, RacingMachine.quiet]
    | _ => simp [race, chosen, RacingMachine.quiet]
  · push Not at apart
    obtain ⟨taskId, rfl, atCall⟩ := apart
    obtain ⟨⟨callee, later⟩, calls⟩ := Option.ne_none_iff_exists'.mp atCall
    obtain ⟨other, same, _, _, rfl⟩ | ⟨noWork, _, _⟩ := choose_cases chosen
    · cases same
      have inside := (RacingMachine.quiet machine).looked_look_self taskId callee
      refine .tail (.single ⟨.look taskId, race_look calls rfl, id⟩) ⟨.store taskId, ?_, ?_⟩
      · rw [race_store calls inside]
        exact congrArg some (RacingMachine.store_look calls)
      · rintro ⟨unseen, call, again, member⟩
        cases calls.symm.trans again
        rw [inside, Option.some_inj, decide_eq_false_iff_not] at unseen
        exact unseen member
    · exact absurd rfl (noWork taskId)

/-- So every run of the machine is such a run. -/
theorem atomicSteps_of_steps (run : engine.Steps env machine after) :
    engine.AtomicSteps env (.quiet machine) (.quiet after) :=
  ReflTransGen.lift' RacingMachine.quiet (fun _ _ step => atomicSteps_of_step step) _ _ run

/-- While a single job is held, no other thread stores a record between a look and its store. -/
theorem not_overwrites_of_race {choice : RacingChoice}
    (alone : ∀ first ∈ state.machine.active, ∀ second ∈ state.machine.active, first = second)
    (consistent : state.Consistent) (fresh : ∀ taskId, ¬ state.Overwrites (.store taskId))
    (raced : engine.race env state choice = some next) (taskId : String) :
    ¬ next.Overwrites (.store taskId) := by
  -- a thread inside a call is the only one
  have only : ∀ found other, state.looked taskId = some found → other ∈ state.machine.active →
      taskId = other := by
    intro found other inside member
    obtain ⟨_, _, calls, _⟩ := consistent taskId found inside
    exact alone taskId (recordCall?_eq_some_iff.mp calls).2.1 other member
  rintro ⟨unseen, call, calls, member⟩
  rcases race_cases raced with ⟨other, called, point, rfl, atCall, outside, rfl⟩ |
    ⟨other, called, point, found, rfl, atCall, inside, rfl⟩ |
    ⟨own, machine, rfl, chosen, apart, rfl⟩
  · by_cases same : taskId = other
    · subst same
      rw [RacingMachine.looked_look_self, Option.some_inj, decide_eq_false_iff_not] at unseen
      cases atCall.symm.trans calls
      exact unseen member
    · rw [state.looked_look_of_ne same] at unseen
      exact same (only false other unseen (recordCall?_eq_some_iff.mp atCall).2.1)
  · by_cases same : taskId = other
    · subst same
      rw [RacingMachine.looked_store_self] at unseen
      cases unseen
    · rw [state.looked_store_of_ne same] at unseen
      exact same (only false other unseen (recordCall?_eq_some_iff.mp atCall).2.1)
  · obtain ⟨called, point, atCall, _⟩ := consistent taskId false unseen
    cases (recordCall?_of_choose chosen apart atCall).symm.trans calls
    rcases choose_cases chosen with ⟨other, rfl, held, _, _⟩ | ⟨_, _, same | idle⟩
    · rw [only false other unseen held, apart other rfl] at atCall
      cases atCall
    · refine fresh taskId ⟨unseen, _, atCall, ?_⟩
      rw [← same]
      exact member
    · have held := (recordCall?_eq_some_iff.mp atCall).2.1
      rw [idle] at held
      cases held

end WorkflowEngine

/-- **With one worker no store overwrites a record.** -/
theorem atomicSteps_of_one_worker {engine : AcceptedEngine} {env : Env} {state : RacingMachine}
    (one : engine.maxWorkers ≤ 1) (run : engine.RacingSteps env (engine.startRace env) state) :
    engine.AtomicSteps env (engine.startRace env) state := by
  have invariant : engine.AtomicSteps env (engine.startRace env) state ∧
      ∀ taskId, ¬ state.Overwrites (.store taskId) := by
    induction run with
    | refl => exact ⟨.refl, fun taskId overwrites => by cases overwrites.1⟩
    | @tail before state _ step ih =>
        obtain ⟨atomic, fresh⟩ := ih
        obtain ⟨consistent, steps⟩ := AtomicSteps.refines atomic
        obtain ⟨past, invariant⟩ := (Reachable.steps steps).invariant
        have width : before.machine.active.length ≤ 1 :=
          invariant.width.trans ((min_le_left _ _).trans one)
        have alone : ∀ first ∈ before.machine.active, ∀ second ∈ before.machine.active,
            first = second := by
          intro first member second other
          obtain ⟨job, same⟩ := List.length_eq_one_iff.mp
            (width.antisymm (List.length_pos_of_mem member))
          rw [same, List.mem_singleton] at member other
          rw [member, other]
        obtain ⟨choice, raced⟩ := step
        refine ⟨atomic.tail ⟨choice, raced, ?_⟩,
          not_overwrites_of_race alone consistent fresh raced⟩
        cases choice with
        | store taskId => exact fresh taskId
        | _ => exact id
  exact invariant.1

/-! ## Transitions and the log -/

/-- **In every state of a run in which no store overwrites a record, the states assigned to a task
form a legal path, every check was made with the stored state and returned, and the log states the
transitions of the path, unless an overflow has aborted the task. Without overflows no task is
aborted and no run raises.** -/
theorem transitions_faithful (engine : AcceptedEngine) (env : Env) {state : RacingMachine}
    (run : engine.AtomicSteps env (engine.startRace env) state) :
    TransitionLaw engine env state.machine ∧
    (engine.NoOverflow env → (∀ taskId, (state.machine.shared.view taskId).moved =
        transitions .pending (state.machine.shared.view taskId).assigned) ∧
      ∀ error, state.machine.status ≠ .raised error) := by
  have reachable := Reachable.steps (AtomicSteps.refines run).2
  refine ⟨reachable.transitionLaw, fun noOverflow => ⟨fun taskId => ?_, ?_⟩⟩
  · exact reachable.moved_of_not_aborted (reachable.not_aborted noOverflow taskId)
  · exact reachable.not_raised noOverflow

/-- Two tasks behind one that fails at both of its attempts, and workers for all. -/
def dammed : AcceptedEngine where
  workflow :=
    { workflowId := "dammed"
      tasks := ⟨[("dam", { taskId := "dam", maxAttempts := 2
                           one_le_maxAttempts := one_le_two, taskId_valid := by decide }),
        ("mill", { taskId := "mill", taskId_valid := by decide }),
        ("well", { taskId := "well", taskId_valid := by decide })], by decide⟩
      dependencies := ⟨[("mill", {"dam"}), ("well", {"dam"})], by decide⟩ }
  tasks := ⟨[("dam", raisesUpTo 2), ("mill", raisesUpTo 0), ("well", raisesUpTo 0)], by decide⟩
  maxWorkers := 7
  valid := Workflow.validateGraph_eq_nil_iff_valid.mp (by decide +kernel)
  mem_tasks := mem_iff_of_callables (by decide +kernel) (by decide +kernel)
  one_le_maxWorkers := Nat.le_add_left 1 6

/-- Steps of a thread between its calls of `record()`. -/
def works (taskId : String) (steps : ℕ) : List RacingChoice :=
  List.replicate steps (.other (.work taskId))

/-- A whole call of `record()`. -/
def wholeCall (taskId : String) : List RacingChoice := [.look taskId, .store taskId]

/-- The first batch of the run, up to the first look of the second one. -/
def upToLook : List RacingChoice :=
  [.other .submit, .other .take] ++ wholeCall "dam" ++ works "dam" 2 ++ wholeCall "dam" ++
    works "dam" 20 ++ [.other (.leave "dam"), .other .submit, .other .take, .other .take,
      .look "mill"]

/-- A thread from behind its first call to its end, in which it blocks both tasks. -/
def blocking (taskId : String) : List RacingChoice :=
  works taskId 1 ++ wholeCall taskId ++ works taskId 4 ++ wholeCall taskId ++ works taskId 2

/-- The last steps of the run. -/
def closing : List RacingChoice :=
  [.other (.leave "mill"), .other (.leave "well"), .other .finish]

/-- Two looks before the two stores, and a block behind them. -/
theorem transitions_faithful_dammed : ∃ state,
    dammed.replayAtomic { runId := "run" } (dammed.startRace { runId := "run" })
      (upToLook ++ [.look "well", .store "mill", .store "well"] ++ blocking "well" ++
        works "mill" 2 ++ closing) = some state ∧
    state.machine.status = .returned ∧
    (state.machine.shared.view "dam").moved = [(.pending, .running), (.running, .failed),
      (.failed, .retrying), (.retrying, .running), (.running, .failed)] ∧
    (state.machine.shared.view "mill").moved = [(.pending, .upstreamFailed)] ∧
    TransitionLaw dammed { runId := "run" } state.machine := by
  have shown : (dammed.replayAtomic { runId := "run" } (dammed.startRace { runId := "run" })
      (upToLook ++ [.look "well", .store "mill", .store "well"] ++ blocking "well" ++
        works "mill" 2 ++ closing)).map (fun state => (state.machine.status,
          (state.machine.shared.view "dam").moved, (state.machine.shared.view "mill").moved)) =
      some (.returned, [(.pending, .running), (.running, .failed), (.failed, .retrying),
        (.retrying, .running), (.running, .failed)], [(.pending, .upstreamFailed)]) := by
    decide +kernel
  obtain ⟨state, replayed, shows⟩ := Option.map_eq_some_iff.mp shown
  simp only [Prod.mk.injEq] at shows
  obtain ⟨returned, dam, mill⟩ := shows
  have faithful := transitions_faithful dammed { runId := "run" } (atomicSteps_of_replay replayed)
  exact ⟨state, replayed, returned, dam, mill, faithful.1⟩

/-- A store that overwrites the record of a blocked task makes the log block the task twice, and an
overflow comes between the move to `retrying` and its entry in the log. -/
theorem log_repeats_and_misses :
    (∃ state, dammed.RacingSteps { runId := "run" } (dammed.startRace { runId := "run" }) state ∧
      state.machine.status = .returned ∧ state.machine.stateOf "mill" = .upstreamFailed ∧
      (state.machine.shared.view "mill").moved =
        [(.pending, .upstreamFailed), (.pending, .upstreamFailed)]) ∧
    ∃ state, overflowing.AtomicSteps { runId := "run", arithmetic := .python }
        (overflowing.startRace { runId := "run", arithmetic := .python }) state ∧
      (∃ error, state.machine.status = .raised error) ∧
      state.machine.shared.run.workflowState = .running ∧
      transitions .pending (state.machine.shared.view "a").assigned =
        [(.pending, .running), (.running, .failed), (.failed, .retrying)] ∧
      (state.machine.shared.view "a").moved = [(.pending, .running), (.running, .failed)] := by
  constructor
  · have shown : (dammed.replayRace { runId := "run" } (dammed.startRace { runId := "run" })
        (upToLook ++ wholeCall "well" ++ blocking "well" ++ [.store "mill"] ++ blocking "mill" ++
          closing)).map (fun state => (state.machine.status, state.machine.stateOf "mill",
            (state.machine.shared.view "mill").moved)) =
        some (.returned, .upstreamFailed,
          [(.pending, .upstreamFailed), (.pending, .upstreamFailed)]) := by decide +kernel
    obtain ⟨state, replayed, shows⟩ := Option.map_eq_some_iff.mp shown
    simp only [Prod.mk.injEq] at shows
    exact ⟨state, racingSteps_of_replay replayed, shows⟩
  · obtain ⟨machine, run, raised, running, assigned, moved⟩ := log_misses_retry
    exact ⟨.quiet machine, atomicSteps_of_steps run, ⟨_, raised⟩, running, assigned, moved⟩

end EtlOrchestrator
