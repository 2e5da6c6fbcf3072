import EtlOrchestrator.Engine.Blame
import EtlOrchestrator.Foundations.Traces

/-!
# When the dependents of a failed task are marked

The docstring of `_block_downstream` speaks of the moment at which a task fails
for good, and the log then says that its downstream is blocked. But a failing
task marks nothing: its dependents are marked when the first of them is executed.
So when the failure hook of a task is called and when its execution returns, its
dependents are still pending, unless the walk from another failed task has come
to them before.

A run in which no observer sees such a dependent is one in which no task with a
dependent takes the branch of the permanent failure (`dependents_marked_iff`).
-/

set_option autoImplicit false

namespace EtlOrchestrator

open BlockingEvaluation Relation WorkflowEngine

variable {engine : AcceptedEngine} {env : Env} {machine next : Machine} {taskId : String}

/-- A task has failed for good: its failure hook is about to be called, or its
execution has returned. -/
def Machine.FailedForGood (machine : Machine) (taskId : String) : Prop :=
  machine.pcs taskId = .hookFailure ∨
    machine.pcs taskId = .done ∧ machine.stateOf taskId = .failed

/-- Everything below a task that has failed for good is marked. -/
def WorkflowEngine.DependentsMarked (engine : WorkflowEngine) (machine : Machine) : Prop :=
  ∀ taskId, machine.FailedForGood taskId → engine.ConeMarked machine.shared taskId

/-- A task that has failed for good is one whose outcome is a failure. -/
theorem Reachable.outcome_of_failedForGood (reachable : Reachable engine env machine)
    (failed : machine.FailedForGood taskId) : engine.outcome env taskId = .failed := by
  have ok := reachable.task_ok taskId
  rcases failed with atPc | ⟨atPc, state⟩
  · rw [atPc] at ok
    exact ok.2.1.state_eq_failed_iff.mp ok.2.2
  · rw [atPc] at ok
    exact ok.2.state_eq_failed_iff.mp state

/-! ## The branch of the permanent failure -/

/-- Only the branch of the permanent failure ends the thread of a failed task. -/
theorem AcceptedEngine.advance_ne_done_of_failed {state : RunState} {pc : Pc}
    (ok : engine.TaskOk env taskId (state.view taskId) pc)
    (failed : engine.outcome env taskId = .failed) (unfinished : pc.ended = false)
    (notHook : pc ≠ .hookFailure) : (engine.advance env taskId state pc).2 ≠ .done := by
  rcases engine.advance_leads env taskId state pc with leads | ⟨error, raised⟩
  · generalize (engine.advance env taskId state pc).2 = next at leads ⊢
    intro done
    subst done
    cases leads with
    | skip =>
        rw [ok.2.2] at failed
        cases failed
    | hookFailure => exact notHook rfl
    | hookSuccess attempt => cases failed.symm.trans ok.2.1
    | done => cases unfinished
  · rw [raised]
    exact fun done => by cases done

/-- A step that ends the thread of a failed task is the call of its failure hook. -/
theorem Reachable.hookFailure_of_step (reachable : Reachable engine env machine)
    (step : engine.Step env machine next) (failed : engine.outcome env taskId = .failed)
    (notDone : machine.pcs taskId ≠ .done) (done : next.pcs taskId = .done) :
    machine.pcs taskId = .hookFailure := by
  cases step with
  | take => exact absurd done notDone
  | @work other running held unfinished =>
      by_cases own : taskId = other
      · subst own
        by_contra notHook
        have goesOn := engine.advance_ne_done_of_failed (reachable.task_ok taskId) failed unfinished
          notHook
        exact goesOn ((work_pcs_self machine).symm.trans done)
      · exact absurd ((work_pcs_of_ne own).symm.trans done) notDone
  | leave => exact absurd done notDone
  | submit => exact absurd done notDone
  | raise => exact absurd done notDone
  | finish =>
      rw [finish_pcs] at done
      exact absurd done notDone

variable {states : List Machine} {last : Machine}

/-- A failed task that has returned in a run has come to its failure hook in it. -/
theorem hookFailure_of_done (run : Trace (engine.Step env) (engine.start env) states last)
    (member : machine ∈ states) (done : machine.pcs taskId = .done)
    (failed : engine.outcome env taskId = .failed) :
    ∃ earlier ∈ states, earlier.pcs taskId = .hookFailure := by
  induction run generalizing machine with
  | start =>
      obtain rfl := List.mem_singleton.mp member
      obtain ⟨shared, levels, same, _⟩ := start_eq engine env
      rw [same] at done
      cases done
  | @next states last after run step ih =>
      have widen : (∃ earlier ∈ states, earlier.pcs taskId = .hookFailure) →
          ∃ earlier ∈ states ++ [after], earlier.pcs taskId = .hookFailure := by
        rintro ⟨earlier, inStates, atHook⟩
        exact ⟨earlier, List.mem_append_left _ inStates, atHook⟩
      rcases List.mem_append.mp member with old | new
      · exact widen (ih old done)
      · obtain rfl := List.mem_singleton.mp new
        by_cases before : last.pcs taskId = .done
        · exact widen (ih run.last_mem before)
        · exact widen ⟨last, run.last_mem,
            (Reachable.steps run.steps).hookFailure_of_step step failed before done⟩

/-! ## Runs -/

/-- A marked task lies below a failed one that has returned. -/
theorem Reachable.done_above_marked (run : engine.Steps env (engine.start env) machine)
    (marked : machine.stateOf taskId = .upstreamFailed) : ∃ failedTaskId,
    machine.pcs failedTaskId = .done ∧ engine.outcome env failedTaskId = .failed ∧
      engine.workflow.downstream failedTaskId ≠ ∅ := by
  obtain ⟨past, invariant, blames⟩ := Reachable.blames run
  obtain ⟨failed, names, _⟩ := blames.named taskId marked
  obtain ⟨child, edge, _⟩ := TransGen.head'_iff.mp names.above
  exact ⟨failed, invariant.returned failed names.member, names.outcome,
    Finset.ne_empty_of_mem (Workflow.mem_downstream.mpr edge)⟩

/-- **In every run, everything below a task that has failed for good is marked in
each state, when its failure hook is called and from its return on, if and only
if the failure hook is called for tasks without dependents only.** -/
theorem dependents_marked_iff (engine : AcceptedEngine) (env : Env) {states : List Machine}
    {last : Machine} (run : Trace (engine.Step env) (engine.start env) states last) :
    (∀ machine ∈ states, engine.DependentsMarked machine) ↔
      ∀ machine ∈ states, ∀ taskId, machine.pcs taskId = .hookFailure →
        engine.workflow.downstream taskId = ∅ := by
  constructor
  · intro marked
    induction run with
    | start =>
        intro machine member taskId atHook
        obtain rfl := List.mem_singleton.mp member
        obtain ⟨shared, levels, same, _⟩ := start_eq engine env
        rw [same] at atHook
        cases atHook
    | @next states last after run step ih =>
        have earlier := ih fun machine member => marked machine (List.mem_append_left _ member)
        intro machine member taskId atHook
        rcases List.mem_append.mp member with old | new
        · exact earlier machine old taskId atHook
        · obtain rfl := List.mem_singleton.mp new
          by_contra someChild
          obtain ⟨child, isChild⟩ := Finset.nonempty_iff_ne_empty.mpr someChild
          have below := marked machine member taskId (.inl atHook) child
            (.single (Workflow.mem_downstream.mp isChild))
          -- The child was marked for an earlier failed task with dependents.
          obtain ⟨failed, done, outcome, hasChildren⟩ :=
            Reachable.done_above_marked (run.next step).steps below
          obtain ⟨first, firstMember, firstHook⟩ :=
            hookFailure_of_done (run.next step) member done outcome
          rcases List.mem_append.mp firstMember with before | now
          · exact hasChildren (earlier first before failed firstHook)
          · obtain rfl := List.mem_singleton.mp now
            rw [done] at firstHook
            cases firstHook
  · intro noDependents machine member taskId failed dependent below
    have reachable := Reachable.steps (run.steps_of_mem member)
    obtain ⟨child, edge, _⟩ := TransGen.head'_iff.mp below
    have isChild := Workflow.mem_downstream.mpr edge
    obtain ⟨first, firstMember, atHook⟩ :
        ∃ first ∈ states, first.pcs taskId = .hookFailure := by
      rcases failed with atHook | ⟨done, state⟩
      · exact ⟨machine, member, atHook⟩
      · exact hookFailure_of_done run member done
          (reachable.outcome_of_failedForGood (.inr ⟨done, state⟩))
    rw [noDependents first firstMember taskId atHook] at isChild
    exact absurd isChild (Finset.notMem_empty child)

/-- In a run of independent tasks each failure is seen with nothing left below it. -/
theorem dependents_marked_iff_independent : ∃ states last,
    Trace (overflowing.Step { runId := "run" }) (overflowing.start { runId := "run" }) states last ∧
      last.FailedForGood "a" ∧
      ∀ machine ∈ states, overflowing.DependentsMarked machine := by
  have shown : (overflowing.replay { runId := "run" } (overflowing.start { runId := "run" })
      (.submit :: wholeJob "a" 24)).map (fun machine =>
        ((machine.pcs "a").ended, (machine.pcs "a").error?, machine.stateOf "a")) =
      some (true, none, .failed) := by decide +kernel
  obtain ⟨last, replayed, shows⟩ := Option.map_eq_some_iff.mp shown
  simp only [Prod.mk.injEq] at shows
  obtain ⟨ended, noError, state⟩ := shows
  obtain ⟨states, run⟩ := Trace.of_steps (steps_of_replay _ _ replayed)
  refine ⟨states, last, run, .inr ⟨Invariant.eq_done_of_ended ended noError, state⟩,
    (dependents_marked_iff overflowing { runId := "run" } run).mpr fun _ _ taskId _ => ?_⟩
  rw [Finset.eq_empty_iff_forall_notMem]
  intro child isChild
  have declared := (Workflow.mem_downstream.mp isChild).mem_dependencies
  cases declared

/-- Whether the failure hook is about to be called. -/
def Pc.atHookFailure : Pc → Bool
  | .hookFailure => true
  | _ => false

theorem Pc.eq_of_atHookFailure {pc : Pc} (holds : pc.atHookFailure = true) : pc = .hookFailure := by
  cases pc with
  | hookFailure => rfl
  | _ => cases holds

/-- When the failure hook of a task is about to be called, its dependent is pending. -/
theorem pending_below_failed : ∃ machine,
    (pipeline 2 (by decide)).Steps { runId := "run" }
        ((pipeline 2 (by decide)).start { runId := "run" }) machine ∧
      machine.FailedForGood "transform" ∧
      machine.shared.run.log.getLast? = some (.permanentFailure "transform" 2) ∧
      machine.stateOf "load" = .pending ∧
      ¬ (pipeline 2 (by decide)).DependentsMarked machine := by
  have shown : ((pipeline 2 (by decide)).replay { runId := "run" }
      ((pipeline 2 (by decide)).start { runId := "run" })
      ([.submit, .take] ++ List.replicate 12 (.work "audit") ++ wholeJob "extract" 23 ++
        [.work "audit", .leave "audit"] ++
        .submit :: .take :: List.replicate 25 (.work "transform"))).map (fun machine =>
          ((machine.pcs "transform").atHookFailure, machine.shared.run.log.getLast?,
            machine.stateOf "load")) =
      some (true, some (.permanentFailure "transform" 2), .pending) := by decide +kernel
  obtain ⟨machine, replayed, shows⟩ := Option.map_eq_some_iff.mp shown
  simp only [Prod.mk.injEq] at shows
  obtain ⟨atHook, logged, pending⟩ := shows
  have failed : machine.FailedForGood "transform" := .inl (Pc.eq_of_atHookFailure atHook)
  refine ⟨machine, steps_of_replay _ _ replayed, failed, logged, pending, fun marked => ?_⟩
  have edge : (pipeline 2 (by decide)).workflow.Edge "transform" "load" := by decide +kernel
  exact absurd (pending.symm.trans (marked "transform" failed "load" (.single edge))) (by decide)

end EtlOrchestrator
