import EtlOrchestrator.Engine.Threads
import EtlOrchestrator.Foundations.Respects

/-!
# The control flow of a thread

`Leads` relates each program point to those that come after it when the step
returns. A step that raises ends the thread. What holds at the program points of
a thread is proved along this relation, with one case for each edge.
-/

set_option autoImplicit false

namespace EtlOrchestrator.WorkflowEngine

open SortedSet

/-- The program points to which a step that returns may lead. -/
inductive Leads (engine : WorkflowEngine) (env : Env) (taskId : String) : Pc → Pc → Prop
  | enter : Leads engine env taskId .enter .firstCheck
  | firstSkip : Leads engine env taskId .firstCheck .skip
  | firstScan : Leads engine env taskId .firstCheck
      (.scan (env.iterate taskId (engine.workflow.upstream taskId)))
  | skip : Leads engine env taskId .skip .done
  | scanEnd : Leads engine env taskId (.scan []) .refresh
  | scanNext (upstreamId : String) (rest : List String) :
      Leads engine env taskId (.scan (upstreamId :: rest)) (.scanCheck upstreamId rest)
  | scanFailed (upstreamId : String) (rest : List String) :
      Leads engine env taskId (.scanCheck upstreamId rest)
        (.walk upstreamId (sorted (engine.workflow.downstream upstreamId)) ∅)
  | scanPassed (upstreamId : String) (rest : List String) :
      Leads engine env taskId (.scanCheck upstreamId rest) (.scan rest)
  | walkEnd (failedTaskId : String) (visited : Finset String) :
      Leads engine env taskId (.walk failedTaskId [] visited) .refresh
  | walkSkip (failedTaskId dependent : String) (rest : List String) (visited : Finset String) :
      Leads engine env taskId (.walk failedTaskId (dependent :: rest) visited)
        (.walk failedTaskId rest visited)
  | walkVisit (failedTaskId : String) {dependent : String} (rest : List String)
      {visited : Finset String} (fresh : dependent ∉ visited) :
      Leads engine env taskId (.walk failedTaskId (dependent :: rest) visited)
        (.walk failedTaskId (rest ++ sorted (engine.workflow.downstream dependent))
          (insert dependent visited))
  | refresh : Leads engine env taskId .refresh .secondCheck
  | secondSkip : Leads engine env taskId .secondCheck .skip
  | secondDefine : Leads engine env taskId .secondCheck .define
  | define (task : Task) (attempt : ℕ) : Leads engine env taskId .define (.checkStart task attempt)
  | checkStart (task : Task) (attempt : ℕ) :
      Leads engine env taskId (.checkStart task attempt) (.start task attempt)
  | start (task : Task) (attempt : ℕ) :
      Leads engine env taskId (.start task attempt) (.hookStart task attempt)
  | hookStart (task : Task) (attempt : ℕ) :
      Leads engine env taskId (.hookStart task attempt) (.call task attempt)
  | callReturned (task : Task) (attempt : ℕ) :
      Leads engine env taskId (.call task attempt) (.checkSucceed attempt)
  | callRaised (task : Task) (attempt : ℕ) (error : PyError) :
      Leads engine env taskId (.call task attempt) (.checkFail task attempt error)
  | checkFail (task : Task) (attempt : ℕ) (error : PyError) :
      Leads engine env taskId (.checkFail task attempt error) (.fail task attempt error)
  | failRetry {task : Task} {attempt : ℕ} (error : PyError)
      (remaining : attempt < task.maxAttempts) :
      Leads engine env taskId (.fail task attempt error) (.checkRetry task attempt)
  | failLast {task : Task} {attempt : ℕ} (error : PyError) (last : ¬ attempt < task.maxAttempts) :
      Leads engine env taskId (.fail task attempt error) (.permanent attempt)
  | checkRetry (task : Task) (attempt : ℕ) (delay : ℚ) :
      Leads engine env taskId (.checkRetry task attempt) (.retry task attempt delay)
  | retry (task : Task) (attempt : ℕ) (delay : ℚ) :
      Leads engine env taskId (.retry task attempt delay) (.hookRetry task attempt delay)
  | hookRetry (task : Task) (attempt : ℕ) (delay : ℚ) :
      Leads engine env taskId (.hookRetry task attempt delay) (.sleep task attempt delay)
  | sleep (task : Task) (attempt : ℕ) (delay : ℚ) :
      Leads engine env taskId (.sleep task attempt delay) (.checkStart task (attempt + 1))
  | permanent (attempt : ℕ) : Leads engine env taskId (.permanent attempt) .hookFailure
  | hookFailure : Leads engine env taskId .hookFailure .done
  | checkSucceed (attempt : ℕ) :
      Leads engine env taskId (.checkSucceed attempt) (.succeed attempt)
  | succeed (attempt : ℕ) : Leads engine env taskId (.succeed attempt) (.hookSuccess attempt)
  | hookSuccess (attempt : ℕ) : Leads engine env taskId (.hookSuccess attempt) .done
  | done : Leads engine env taskId .done .done
  | raised (error : PyError) : Leads engine env taskId (.raised error) (.raised error)

variable (engine : WorkflowEngine) (env : Env) (taskId : String)

/-- **A step of a thread that returns follows the control flow.** -/
theorem act_leads (pc : Pc) : Yields (engine.Leads env taskId pc) (engine.act env taskId pc) := by
  cases pc with
  | enter => exact .bind fun _ => .pure .enter
  | firstCheck => exact .bind fun _ => .ite (fun _ => .pure .firstSkip) fun _ => .pure .firstScan
  | skip => exact .bind fun _ => .pure .skip
  | scan rest =>
      cases rest with
      | nil => exact .pure .scanEnd
      | cons upstreamId rest => exact .bind fun _ => .pure (.scanNext upstreamId rest)
  | scanCheck upstreamId rest =>
      exact .bind fun _ => .ite (fun _ => .pure (.scanFailed upstreamId rest))
        fun _ => .pure (.scanPassed upstreamId rest)
  | walk failedTaskId toVisit visited =>
      cases toVisit with
      | nil => exact .pure (.walkEnd failedTaskId visited)
      | cons dependent rest =>
          exact .ite (fun _ => .pure (.walkSkip failedTaskId dependent rest visited))
            fun fresh => .bind fun _ => .pure (.walkVisit failedTaskId rest fresh)
  | refresh => exact .bind fun _ => .pure .refresh
  | secondCheck =>
      exact .bind fun _ => .ite (fun _ => .pure .secondSkip) fun _ => .pure .secondDefine
  | define => exact .bind fun task => .bind fun _ => .pure (.define task _)
  | checkStart task attempt => exact .bind fun _ => .pure (.checkStart task attempt)
  | start task attempt => exact .bind fun _ => .pure (.start task attempt)
  | hookStart task attempt => exact .bind fun _ => .pure (.hookStart task attempt)
  | call task attempt =>
      refine .bind fun result => ?_
      cases result with
      | ok _ => exact .pure (.callReturned task attempt)
      | error error => exact .pure (.callRaised task attempt error)
  | checkFail task attempt error => exact .bind fun _ => .pure (.checkFail task attempt error)
  | fail task attempt error =>
      refine .bind fun _ => .pure ?_
      by_cases remaining : attempt < task.maxAttempts
      · rw [if_pos remaining]
        exact .failRetry error remaining
      · rw [if_neg remaining]
        exact .failLast error remaining
  | checkRetry task attempt => exact .bind fun delay => .pure (.checkRetry task attempt delay)
  | retry task attempt delay => exact .bind fun _ => .pure (.retry task attempt delay)
  | hookRetry task attempt delay => exact .bind fun _ => .pure (.hookRetry task attempt delay)
  | sleep task attempt delay => exact .bind fun _ => .pure (.sleep task attempt delay)
  | permanent attempt => exact .bind fun _ => .pure (.permanent attempt)
  | hookFailure => exact .bind fun _ => .pure .hookFailure
  | checkSucceed attempt => exact .bind fun _ => .pure (.checkSucceed attempt)
  | succeed attempt => exact .bind fun _ => .pure (.succeed attempt)
  | hookSuccess attempt => exact .bind fun _ => .pure (.hookSuccess attempt)
  | done => exact .pure .done
  | raised error => exact .pure (.raised error)

variable {engine env taskId} {state after : RunState} {pc next : Pc}

theorem advance_of_ok (ran : (engine.act env taskId pc).run state = .ok next after) :
    engine.advance env taskId state pc = (after, next) := by
  rw [advance, ran]

theorem advance_of_error {error : PyError}
    (ran : (engine.act env taskId pc).run state = .error error after) :
    engine.advance env taskId state pc = (after, .raised error) := by
  rw [advance, ran]

variable (engine env taskId state pc)

/-- A thread follows the control flow until a step raises. -/
theorem advance_leads : engine.Leads env taskId pc (engine.advance env taskId state pc).2 ∨
    ∃ error, (engine.advance env taskId state pc).2 = .raised error := by
  cases ran : (engine.act env taskId pc).run state with
  | ok next after =>
      rw [advance_of_ok ran]
      exact .inl ((engine.act_leads env taskId pc).of_ok ran)
  | error error after =>
      rw [advance_of_error ran]
      exact .inr ⟨error, rfl⟩

/-! ## Steps of the machine -/

variable {engine env taskId}

/-- A worker moves its own thread. -/
theorem work_pcs_self (machine : Machine) : (engine.work env machine taskId).pcs taskId =
    (engine.advance env taskId machine.shared (machine.pcs taskId)).2 :=
  Function.update_self _ _ _

theorem work_pcs_of_ne {machine : Machine} {other : String} (different : other ≠ taskId) :
    (engine.work env machine taskId).pcs other = machine.pcs other :=
  Function.update_of_ne different _ _

/-- The end of a run moves no thread. -/
theorem finish_pcs (env : Env) (machine : Machine) : (finish env machine).pcs = machine.pcs := by
  rw [finish]
  split <;> rfl

/-- A choice lets one thread take a step, or moves none. Only the end of the run, at which no job is
left, changes the run then. -/
theorem choose_cases {machine next : Machine} {choice : Choice}
    (chosen : engine.choose env machine choice = some next) :
    (∃ taskId, choice = .work taskId ∧ taskId ∈ machine.active ∧
      (machine.pcs taskId).ended = false ∧ next = engine.work env machine taskId) ∨
      (∀ taskId, choice ≠ .work taskId) ∧ next.pcs = machine.pcs ∧
        (next.shared = machine.shared ∨ machine.active = []) := by
  cases choice with
  | work taskId =>
      simp only [choose] at chosen
      split at chosen
      · split at chosen
        · rename_i held
          cases chosen
          exact .inl ⟨taskId, rfl, held.1, held.2, rfl⟩
        · cases chosen
      · cases chosen
  | take =>
      simp only [choose] at chosen
      split at chosen
      · split at chosen
        · cases chosen
          exact .inr ⟨fun _ => by simp, rfl, .inl rfl⟩
        · cases chosen
      · cases chosen
  | leave taskId =>
      simp only [choose] at chosen
      split at chosen
      · split at chosen
        · cases chosen
          exact .inr ⟨fun _ => by simp, rfl, .inl rfl⟩
        · cases chosen
      · cases chosen
  | submit =>
      simp only [choose] at chosen
      split at chosen
      · cases chosen
        exact .inr ⟨fun _ => by simp, rfl, .inl rfl⟩
      · cases chosen
  | raise =>
      simp only [choose] at chosen
      split at chosen
      · cases chosen
        exact .inr ⟨fun _ => by simp, rfl, .inl rfl⟩
      · cases chosen
  | finish =>
      simp only [choose] at chosen
      split at chosen
      · cases chosen
        exact .inr ⟨fun _ => by simp, finish_pcs env machine, .inr ‹_›⟩
      · cases chosen

/-- When the end of the run returns, so does the run. -/
theorem finish_of_ok {machine : Machine} (ran : (finishRun env).run machine.shared = .ok () after) :
    finish env machine = { machine with shared := after, status := .returned } := by
  rw [finish, ran]

end EtlOrchestrator.WorkflowEngine
