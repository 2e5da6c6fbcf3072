import Mathlib.Data.List.Nodup
import Mathlib.Logic.Function.Basic

/-!
# Serial orders of calls

A call takes a state to a result and a next state. The results and the state that
concurrent calls have come to are serial in an order of the calls that have
returned when executing them one after the other, in this order, gives the same
results and the same state.

Calls that take effect as a whole, one at a time, are serial in the order of their
effects (`SerialOrder.nil`, `SerialOrder.concat`).
-/

set_option autoImplicit false

universe u v w

variable {ι : Type u} {σ : Type v} {ρ : Type w}

/-- The state after some calls, executed one after the other. -/
def serialState (effect : ι → σ → ρ × σ) (initial : σ) (order : List ι) : σ :=
  order.foldl (fun state call => (effect call state).2) initial

theorem serialState_append (effect : ι → σ → ρ × σ) (initial : σ) (before later : List ι) :
    serialState effect initial (before ++ later) =
      serialState effect (serialState effect initial before) later :=
  List.foldl_append

/-- The results of the calls that have returned, and the state they have come to,
are those of a serial order. -/
structure SerialOrder (effect : ι → σ → ρ × σ) (initial : σ) (order : List ι)
    (result : ι → Option ρ) (final : σ) : Prop where
  distinct : order.Nodup
  complete : ∀ call, call ∈ order ↔ (result call).isSome
  state : final = serialState effect initial order
  results : ∀ before call after, order = before ++ call :: after →
    result call = some (effect call (serialState effect initial before)).1

namespace SerialOrder

variable {effect : ι → σ → ρ × σ} {initial final : σ} {order : List ι} {result : ι → Option ρ}

/-- Before any call has returned. -/
theorem nil (none : ∀ call, result call = none) : SerialOrder effect initial [] result initial where
  distinct := List.nodup_nil
  complete call := by simp [none]
  state := rfl
  results before call after split := by simp at split

/-- A further call takes effect as a whole. -/
theorem concat [DecidableEq ι] (serial : SerialOrder effect initial order result final) {call : ι}
    (fresh : result call = none) :
    SerialOrder effect initial (order ++ [call])
      (Function.update result call (some (effect call final).1)) (effect call final).2 where
  distinct := by
    have new : call ∉ order := by
      rw [serial.complete, fresh]
      exact Bool.false_ne_true
    rw [← List.concat_eq_append]
    exact serial.distinct.concat new
  complete other := by
    by_cases same : other = call
    · subst same
      simp
    · simp [same, serial.complete]
  state := by
    rw [serialState_append, ← serial.state]
    rfl
  results before other after split := by
    rcases List.eq_nil_or_concat after with rfl | ⟨rest, last, rfl⟩
    · obtain ⟨rfl, same⟩ := List.append_inj' split rfl
      obtain rfl := List.singleton_inj.mp same
      rw [Function.update_self, ← serial.state]
    · rw [List.concat_eq_append, ← List.cons_append, ← List.append_assoc] at split
      obtain ⟨sameOrder, same⟩ := List.append_inj' split rfl
      have member : other ∈ order := by
        rw [sameOrder]
        exact List.mem_append_right _ List.mem_cons_self
      have different : other ≠ call := by
        rintro rfl
        rw [serial.complete, fresh] at member
        cases member
      rw [Function.update_of_ne different]
      exact serial.results before other rest sameOrder

/-- Two different calls that have returned stand in the order one before the other. -/
theorem split_pair (serial : SerialOrder effect initial order result final) {first second : ι}
    (different : first ≠ second) (firstReturned : (result first).isSome)
    (secondReturned : (result second).isSome) : ∃ before later after,
    order = before ++ first :: (later ++ second :: after) ∨
      order = before ++ second :: (later ++ first :: after) := by
  obtain ⟨before, after, split⟩ := List.append_of_mem ((serial.complete first).mpr firstReturned)
  have member := (serial.complete second).mpr secondReturned
  rw [split, List.mem_append, List.mem_cons] at member
  rcases member with earlier | same | later
  · obtain ⟨front, rest, rfl⟩ := List.append_of_mem earlier
    exact ⟨front, rest, after, .inr (by rw [split]; simp)⟩
  · exact absurd same.symm different
  · obtain ⟨middle, rest, rfl⟩ := List.append_of_mem later
    exact ⟨before, middle, rest, .inl split⟩

end SerialOrder
