import Mathlib.Logic.Relation

/-!
# Programs carried out by the steps of a machine

A program in a state and exception monad is carried out by a step relation on
states paired with control points when every run of the program is a sequence of
steps: from its entry point to the exit point of its result, or to the point
where its exception is raised, with the program's effect on the state.

The rules follow the program: `pure` takes no step, a bind runs its parts one
after the other, and a program that is one step of the machine is carried out by
that step.
-/

set_option autoImplicit false

universe u

open Relation

section

variable {σ ε α β : Type} {π : Type u} {step : σ × π → σ × π → Prop} {raised : ε → π}

/-- The program, entered at `entry`, is carried out by steps that leave it at
`exit result`, or at `raised error` when it raises. -/
def Performs (step : σ × π → σ × π → Prop) (raised : ε → π) (program : EStateM ε σ α)
    (entry : π) (exit : α → π) : Prop :=
  ∀ state, match program.run state with
    | .ok result after => ReflTransGen step (state, entry) (after, exit result)
    | .error error after => ReflTransGen step (state, entry) (after, raised error)

namespace Performs

theorem pure (result : α) (exit : α → π) :
    Performs step raised (Pure.pure result) (exit result) exit :=
  fun _ => .refl

theorem bind {program : EStateM ε σ α} {rest : α → EStateM ε σ β} {entry : π} {middle : α → π}
    {exit : β → π} (first : Performs step raised program entry middle)
    (second : ∀ result, Performs step raised (rest result) (middle result) exit) :
    Performs step raised (program >>= rest) entry exit := by
  intro state
  have begun := first state
  rw [EStateM.run_bind]
  cases ran : program.run state with
  | error error after =>
      rw [ran] at begun
      exact begun
  | ok result after =>
      rw [ran] at begun
      have continued := second result after
      dsimp only at begun ⊢
      cases ended : (rest result).run after with
      | ok _ _ =>
          rw [ended] at continued
          exact begun.trans continued
      | error _ _ =>
          rw [ended] at continued
          exact begun.trans continued

/-- One step of the machine before the program. -/
theorem head {program : EStateM ε σ α} {entry next : π} {exit : α → π}
    (first : ∀ state, step (state, entry) (state, next))
    (rest : Performs step raised program next exit) :
    Performs step raised program entry exit := by
  intro state
  have continued := rest state
  cases ran : program.run state with
  | ok result after =>
      rw [ran] at continued
      exact continued.head (first state)
  | error error after =>
      rw [ran] at continued
      exact continued.head (first state)

/-- A program that is one step of the machine. -/
theorem single {program : EStateM ε σ α} {entry : π} {exit : α → π}
    (one : ∀ state, match program.run state with
      | .ok result after => step (state, entry) (after, exit result)
      | .error error after => step (state, entry) (after, raised error)) :
    Performs step raised program entry exit := by
  intro state
  have taken := one state
  cases ran : program.run state with
  | ok result after =>
      rw [ran] at taken
      exact .single taken
  | error error after =>
      rw [ran] at taken
      exact .single taken

end Performs

end
