import Mathlib.Logic.Relation

/-!
# Traces

The trace of a run of a transition system is the list of its states, from the
first one on. It is what a statement about each single run is made of, where
reachability alone mixes all runs.
-/

set_option autoImplicit false

universe u

open Relation

variable {σ : Type u} {step : σ → σ → Prop} {first last state : σ} {states : List σ}

/-- What choices lead to, one after the other, is reached by the steps that they take. -/
theorem reflTransGen_of_foldlM {κ : Type u} {next : σ → κ → Option σ}
    (sound : ∀ state choice after, next state choice = some after → step state after)
    {choices : List κ} : ∀ {first last : σ},
      choices.foldlM next first = some last → ReflTransGen step first last := by
  induction choices with
  | nil =>
      intro first last ended
      cases ended
      exact .refl
  | cons choice rest ih =>
      intro first last ended
      rw [List.foldlM_cons, Option.bind_eq_bind, Option.bind_eq_some_iff] at ended
      obtain ⟨middle, chosen, continued⟩ := ended
      exact (ih continued).head (sound first choice middle chosen)

/-- A run with the states it has gone through, of which `last` is the last one. -/
inductive Trace (step : σ → σ → Prop) (first : σ) : List σ → σ → Prop where
  | start : Trace step first [first] first
  | next {states : List σ} {last after : σ} (run : Trace step first states last)
      (move : step last after) : Trace step first (states ++ [after]) after

namespace Trace

/-- The last state of a run is reachable. -/
theorem steps (run : Trace step first states last) : ReflTransGen step first last := by
  induction run with
  | start => exact .refl
  | next _ move ih => exact ih.tail move

/-- So is every other one. -/
theorem steps_of_mem (run : Trace step first states last) (member : state ∈ states) :
    ReflTransGen step first state := by
  induction run with
  | start =>
      obtain rfl := List.mem_singleton.mp member
      exact .refl
  | next run move ih =>
      rcases List.mem_append.mp member with old | new
      · exact ih old
      · obtain rfl := List.mem_singleton.mp new
        exact run.steps.tail move

/-- The last state is one of the states. -/
theorem last_mem (run : Trace step first states last) : last ∈ states := by
  cases run with
  | start => exact List.mem_singleton_self first
  | next _ _ => exact List.mem_append_right _ (List.mem_singleton_self last)

/-- Every reachable state ends a run. -/
theorem of_steps (steps : ReflTransGen step first last) :
    ∃ states, Trace step first states last := by
  induction steps with
  | refl => exact ⟨[first], .start⟩
  | tail _ move ih =>
      obtain ⟨states, run⟩ := ih
      exact ⟨_, run.next move⟩

end Trace
