import Mathlib.Logic.Relation
import Mathlib.Order.Defs.Unbundled

/-!
# Rules for programs with a state and exceptions

A program respects a relation on states when each of its runs, whether it
returns or raises, relates the state before to the state after. The rules follow
the program, and the rule for a bind asks that the relation is transitive. Frame
conditions and monotonicity facts are of this form.

A program yields a property when the result of each returning run has it. The
state in which a run ends, either way, is its `endState`.
-/

set_option autoImplicit false

variable {σ ε α β : Type}

/-- Every run of the program relates the states before and after. -/
def Respects (relation : σ → σ → Prop) (program : EStateM ε σ α) : Prop :=
  ∀ state, match program.run state with
    | .ok _ after => relation state after
    | .error _ after => relation state after

namespace Respects

variable {relation : σ → σ → Prop} {program : EStateM ε σ α}

/-- What a returning run says. -/
theorem of_ok (respects : Respects relation program) {state after : σ} {result : α}
    (ran : program.run state = .ok result after) : relation state after := by
  have related := respects state
  rwa [ran] at related

/-- What a raising run says. -/
theorem of_error (respects : Respects relation program) {state after : σ} {error : ε}
    (ran : program.run state = .error error after) : relation state after := by
  have related := respects state
  rwa [ran] at related

/-- A weaker relation is respected too. -/
theorem mono {weaker : σ → σ → Prop} (respects : Respects relation program)
    (weakens : ∀ before after, relation before after → weaker before after) :
    Respects weaker program := by
  intro state
  cases ran : program.run state with
  | ok _ _ => exact weakens _ _ (respects.of_ok ran)
  | error _ _ => exact weakens _ _ (respects.of_error ran)

/-- A preorder that holds across the steps of a closure holds where the closure does. -/
theorem of_closure {step : σ → σ → Prop} [Std.Refl relation] [IsTrans σ relation]
    (respects : Respects (Relation.ReflTransGen step) program)
    (holds : ∀ before after, step before after → relation before after) :
    Respects relation program := by
  have closed : Relation.ReflTransGen relation = relation := Relation.reflTransGen_eq_self
  refine respects.mono fun before after steps => ?_
  rw [← closed]
  exact Relation.ReflTransGen.mono holds before after steps

theorem modify {change : σ → σ} (related : ∀ state, relation state (change state)) :
    Respects relation (modify change : EStateM ε σ PUnit) :=
  related

theorem pure [Std.Refl relation] (result : α) :
    Respects relation (Pure.pure result : EStateM ε σ α) :=
  fun state => refl state

theorem get [Std.Refl relation] : Respects relation (MonadState.get : EStateM ε σ σ) :=
  fun state => refl state

theorem throw [Std.Refl relation] (error : ε) :
    Respects relation (MonadExcept.throw error : EStateM ε σ α) :=
  fun state => refl state

theorem ofExcept [Std.Refl relation] (result : Except ε α) :
    Respects relation (MonadExcept.ofExcept result : EStateM ε σ α) := by
  cases result with
  | ok result => exact fun state => refl state
  | error error => exact fun state => refl state

theorem bind [IsTrans σ relation] {rest : α → EStateM ε σ β} (first : Respects relation program)
    (second : ∀ result, Respects relation (rest result)) :
    Respects relation (program >>= rest) := by
  intro state
  rw [EStateM.run_bind]
  cases ran : program.run state with
  | error error after => exact first.of_error ran
  | ok result after =>
      dsimp only
      cases continued : (rest result).run after with
      | ok _ _ => exact IsTrans.trans _ _ _ (first.of_ok ran) ((second result).of_ok continued)
      | error _ _ =>
          exact IsTrans.trans _ _ _ (first.of_ok ran) ((second result).of_error continued)

theorem ite {condition : Prop} [Decidable condition] {program other : EStateM ε σ α}
    (positive : condition → Respects relation program)
    (negative : ¬ condition → Respects relation other) :
    Respects relation (if condition then program else other) := by
  by_cases holds : condition
  · rw [if_pos holds]
    exact positive holds
  · rw [if_neg holds]
    exact negative holds

end Respects

/-- The state in which a program ends, whether it returns or raises. -/
def endState (program : EStateM ε σ α) (state : σ) : σ :=
  match program.run state with
  | .ok _ after => after
  | .error _ after => after

theorem endState_of_ok {program : EStateM ε σ α} {state after : σ} {result : α}
    (ran : program.run state = .ok result after) : endState program state = after := by
  rw [endState, ran]

theorem endState_of_error {program : EStateM ε σ α} {state after : σ} {error : ε}
    (ran : program.run state = .error error after) : endState program state = after := by
  rw [endState, ran]

/-- Programs that run alike end in one state. -/
theorem endState_congr {program other : EStateM ε σ α} {state : σ}
    (same : program.run state = other.run state) :
    endState program state = endState other state := by
  rw [endState, same, endState]

/-- After its first part has returned, a bind ends where its second part does. -/
theorem endState_bind {program : EStateM ε σ α} {rest : α → EStateM ε σ β} {state after : σ}
    {result : α} (ran : program.run state = .ok result after) :
    endState (program >>= rest) state = endState (rest result) after := by
  rw [endState, EStateM.run_bind, ran, endState]

theorem Respects.at_end {relation : σ → σ → Prop} {program : EStateM ε σ α}
    (respects : Respects relation program) (state : σ) :
    relation state (endState program state) := by
  cases ran : program.run state with
  | ok result after =>
      rw [endState_of_ok ran]
      exact respects.of_ok ran
  | error error after =>
      rw [endState_of_error ran]
      exact respects.of_error ran

theorem Respects.of_endState {relation : σ → σ → Prop} {program : EStateM ε σ α}
    (related : ∀ state, relation state (endState program state)) :
    Respects relation program := by
  intro state
  have ends := related state
  cases ran : program.run state with
  | ok result after => exact endState_of_ok ran ▸ ends
  | error error after => exact endState_of_error ran ▸ ends

/-- Every returning run of the program returns a result with a property. -/
def Yields (property : α → Prop) (program : EStateM ε σ α) : Prop :=
  ∀ state, match program.run state with
    | .ok result _ => property result
    | .error _ _ => True

namespace Yields

variable {property : α → Prop} {program : EStateM ε σ α}

theorem of_ok (yields : Yields property program) {state after : σ} {result : α}
    (ran : program.run state = .ok result after) : property result := by
  have holds := yields state
  rwa [ran] at holds

theorem pure {result : α} (holds : property result) :
    Yields property (Pure.pure result : EStateM ε σ α) :=
  fun _ => holds

/-- A bind returns what its second part returns. -/
theorem bind {first : EStateM ε σ β} {rest : β → EStateM ε σ α}
    (second : ∀ result, Yields property (rest result)) : Yields property (first >>= rest) := by
  intro state
  rw [EStateM.run_bind]
  cases ran : first.run state with
  | error error after => trivial
  | ok result after => exact second result after

theorem ite {condition : Prop} [Decidable condition] {other : EStateM ε σ α}
    (positive : condition → Yields property program)
    (negative : ¬ condition → Yields property other) :
    Yields property (if condition then program else other) := by
  by_cases holds : condition
  · rw [if_pos holds]
    exact positive holds
  · rw [if_neg holds]
    exact negative holds

end Yields
