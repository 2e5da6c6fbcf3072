import Mathlib.Order.WellFounded
import Mathlib.Logic.Relation

/-!
# Evaluating a graph in which failures block

Every node of a well-founded graph has an own result: a value, or none when it
fails. A node settles on its own result when all its upstreams settled on a
value. Otherwise it is blocked.

A node is blocked exactly when a failed node lies above it
(`settle_eq_blocked_iff`).
-/

set_option autoImplicit false

universe u v

namespace BlockingEvaluation

open Relation

/-- How a node ends. -/
inductive Settled (β : Type v) where
  | value (result : β)
  | failed
  | blocked

/-- The node has a value. -/
def Settled.HasValue {β : Type v} : Settled β → Prop
  | .value _ => True
  | .failed => False
  | .blocked => False

@[simp] theorem hasValue_value {β : Type v} (result : β) :
    (Settled.value result).HasValue := trivial

@[simp] theorem not_hasValue_failed {β : Type v} : ¬ (Settled.failed : Settled β).HasValue := id

@[simp] theorem not_hasValue_blocked {β : Type v} : ¬ (Settled.blocked : Settled β).HasValue := id

/-- A node left to itself. -/
def ofOwn {β : Type v} : Option β → Settled β
  | some result => .value result
  | none => .failed

@[simp] theorem ofOwn_ne_blocked {β : Type v} (own : Option β) : ofOwn own ≠ .blocked := by
  cases own <;> simp [ofOwn]

variable {α : Type u} {β : Type v} {up : α → α → Prop}

open Classical in
/-- What every node settles on. -/
noncomputable def settle (wellFounded : WellFounded up) (own : α → Option β) : α → Settled β :=
  wellFounded.fix fun node earlier =>
    if ∀ (upper : α) (edge : up upper node), (earlier upper edge).HasValue then ofOwn (own node)
    else .blocked

variable {wellFounded : WellFounded up} {own : α → Option β}

/-- A node whose upstreams all have a value settles on its own result. -/
theorem settle_of_ups {node : α}
    (ups : ∀ upper, up upper node → (settle wellFounded own upper).HasValue) :
    settle wellFounded own node = ofOwn (own node) := by
  rw [settle, WellFounded.fix_eq]
  exact if_pos ups

/-- A node with an upstream without a value is blocked. -/
theorem settle_of_up {upper node : α} (edge : up upper node)
    (noValue : ¬ (settle wellFounded own upper).HasValue) :
    settle wellFounded own node = .blocked := by
  rw [settle, WellFounded.fix_eq]
  exact if_neg fun ups => noValue (ups upper edge)

/-- A node is not blocked exactly when all its upstreams have a value. -/
theorem settle_ne_blocked_iff {node : α} : settle wellFounded own node ≠ .blocked ↔
    ∀ upper, up upper node → (settle wellFounded own upper).HasValue := by
  constructor
  · intro notBlocked upper edge
    by_contra noValue
    exact notBlocked (settle_of_up edge noValue)
  · intro ups
    rw [settle_of_ups ups]
    exact ofOwn_ne_blocked _

/-- What a node settles on, if it is not blocked, is its own result. -/
theorem settle_eq_iff_of_ne_blocked {node : α} {settled : Settled β}
    (notBlocked : settled ≠ .blocked) : settle wellFounded own node = settled ↔
      (∀ upper, up upper node → (settle wellFounded own upper).HasValue) ∧
        ofOwn (own node) = settled := by
  constructor
  · rintro rfl
    have ups := settle_ne_blocked_iff.mp notBlocked
    exact ⟨ups, (settle_of_ups ups).symm⟩
  · rintro ⟨ups, same⟩
    rw [settle_of_ups ups, same]

theorem settle_eq_value_iff {node : α} {result : β} :
    settle wellFounded own node = .value result ↔
      (∀ upper, up upper node → (settle wellFounded own upper).HasValue) ∧
        own node = some result := by
  rw [settle_eq_iff_of_ne_blocked (by simp)]
  cases own node <;> simp [ofOwn]

theorem settle_eq_failed_iff {node : α} : settle wellFounded own node = .failed ↔
    (∀ upper, up upper node → (settle wellFounded own upper).HasValue) ∧ own node = none := by
  rw [settle_eq_iff_of_ne_blocked (by simp)]
  cases own node <;> simp [ofOwn]

/-- Everything below a node without a value is blocked. -/
theorem settle_of_above {upper node : α} (noValue : ¬ (settle wellFounded own upper).HasValue)
    (above : TransGen up upper node) : settle wellFounded own node = .blocked := by
  induction above with
  | single edge => exact settle_of_up edge noValue
  | tail _ edge ih => exact settle_of_up edge (by rw [ih]; exact not_hasValue_blocked)

/-- **A node is blocked exactly when a failed node lies above it.** -/
theorem settle_eq_blocked_iff {node : α} : settle wellFounded own node = .blocked ↔
    ∃ upper, TransGen up upper node ∧ settle wellFounded own upper = .failed := by
  constructor
  · induction node using wellFounded.induction with
    | _ node ih =>
      intro blocked
      obtain ⟨upper, edge, noValue⟩ : ∃ upper, up upper node ∧
          ¬ (settle wellFounded own upper).HasValue := by
        by_contra none
        push Not at none
        exact settle_ne_blocked_iff.mpr none blocked
      cases result : settle wellFounded own upper with
      | value _ => exact absurd (by rw [result]; exact hasValue_value _) noValue
      | failed => exact ⟨upper, .single edge, result⟩
      | blocked =>
          obtain ⟨source, above, failed⟩ := ih upper edge result
          exact ⟨source, above.tail edge, failed⟩
  · rintro ⟨upper, above, failed⟩
    exact settle_of_above (by rw [failed]; exact not_hasValue_failed) above

/-- A node is blocked exactly when a node above it has no result of its own. -/
theorem settle_eq_blocked_iff_own {node : α} : settle wellFounded own node = .blocked ↔
    ∃ upper, TransGen up upper node ∧ own upper = none := by
  constructor
  · intro blocked
    obtain ⟨upper, above, failed⟩ := settle_eq_blocked_iff.mp blocked
    exact ⟨upper, above, (settle_eq_failed_iff.mp failed).2⟩
  · rintro ⟨upper, above, noResult⟩
    refine settle_of_above (fun hasValue => ?_) above
    cases settled : settle wellFounded own upper with
    | value result =>
        rw [(settle_eq_value_iff.mp settled).2] at noResult
        cases noResult
    | failed => exact not_hasValue_failed (settled ▸ hasValue)
    | blocked => exact not_hasValue_blocked (settled ▸ hasValue)

/-- What a node settles on depends on the nodes above it: on any set that is
closed upwards, equal own results settle alike. -/
theorem settle_congr_of_closed {otherUp : α → α → Prop} (sameEdges : otherUp = up)
    {otherWellFounded : WellFounded otherUp} {otherOwn : α → Option β} {closed : α → Prop}
    (upward : ∀ upper node, up upper node → closed node → closed upper)
    (sameOwn : ∀ node, closed node → otherOwn node = own node) (node : α) (member : closed node) :
    settle otherWellFounded otherOwn node = settle wellFounded own node := by
  subst sameEdges
  induction node using wellFounded.induction with
  | _ node ih =>
    by_cases ups : ∀ upper, otherUp upper node → (settle wellFounded own upper).HasValue
    · rw [settle_of_ups ups, ← sameOwn node member]
      refine settle_of_ups fun upper edge => ?_
      rw [ih upper edge (upward upper node edge member)]
      exact ups upper edge
    · push Not at ups
      obtain ⟨upper, edge, noValue⟩ := ups
      rw [settle_of_up edge noValue]
      refine settle_of_up edge ?_
      rw [ih upper edge (upward upper node edge member)]
      exact noValue

end BlockingEvaluation
