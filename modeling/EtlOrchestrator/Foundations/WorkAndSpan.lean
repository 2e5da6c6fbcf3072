import Mathlib.Algebra.BigOperators.Group.Finset.Basic
import Mathlib.Algebra.Order.BigOperators.Group.Finset
import Mathlib.Algebra.Order.Field.Basic
import Mathlib.Data.List.Chain
import Mathlib.Tactic.Linarith

/-!
# Work and span of a schedule

Items that start, are busy and stop as time passes. If at most `workers` of them are busy at any
moment, the times that all items take together are at most `workers` times as long as the whole
schedule (`WithinCapacity.passes`). If no item starts before its predecessors have stopped, the
schedule is at least as long as the items of every chain together (`Timetable.sum_chain_le`).
-/

set_option autoImplicit false

namespace WorkAndSpan

universe u v

variable {ι : Type u} {τ : Type v} [Field τ] [LinearOrder τ] [IsStrictOrderedRing τ]

/-! ## Work -/

section Work

variable [DecidableEq ι]

/-- A moment of a schedule. -/
structure Moment (ι : Type u) (τ : Type v) where
  now : τ
  busy : Finset ι
  start : ι → Option τ
  stop : ι → Option τ

namespace Moment

/-- The time that an item has taken: until now while it is busy, and else until it has stopped. -/
def elapsed (moment : Moment ι τ) (item : ι) : τ :=
  match moment.start item with
  | none => 0
  | some start =>
      (if item ∈ moment.busy then moment.now else (moment.stop item).getD start) - start

/-- An item starts and stops in this order, and not in the future. -/
def Past (moment : Moment ι τ) (item : ι) : Prop :=
  ∀ start ∈ moment.start item, start ≤ moment.now ∧
    ∀ stop ∈ moment.stop item, start ≤ stop ∧ stop ≤ moment.now

variable {before after : Moment ι τ} {item : ι}

theorem Past.elapsed_nonneg (past : before.Past item) : 0 ≤ before.elapsed item := by
  rw [elapsed]
  cases started : before.start item with
  | none => exact le_refl _
  | some start =>
      obtain ⟨notFuture, ordered⟩ := past start started
      dsimp only
      rw [sub_nonneg]
      split
      · exact notFuture
      · cases stopped : before.stop item with
        | none => exact le_refl _
        | some stop => exact (ordered stop stopped).1

omit [LinearOrder τ] [IsStrictOrderedRing τ] in
/-- An item that has not started has taken no time. -/
theorem elapsed_of_not_started (notStarted : before.start item = none) :
    before.elapsed item = 0 := by
  rw [elapsed, notStarted]

/-- An item of which nothing changes takes time while it is busy. -/
theorem elapsed_of_same (start : after.start item = before.start item)
    (stop : after.stop item = before.stop item) (busy : item ∈ after.busy ↔ item ∈ before.busy)
    (forward : before.now ≤ after.now) : after.elapsed item ≤
      before.elapsed item + if item ∈ before.busy then after.now - before.now else 0 := by
  rw [elapsed, elapsed, start, stop]
  cases before.start item with
  | none =>
      dsimp only
      split
      · linarith
      · linarith
  | some start =>
      dsimp only
      rw [if_congr busy rfl rfl]
      split
      · linarith
      · linarith

/-- A busy item that has started at the latest now. -/
theorem elapsed_of_busy (past : before.Past item) (busy : item ∈ before.busy)
    (still : item ∈ after.busy) (forward : before.now ≤ after.now)
    (starts : ∀ start ∈ after.start item, before.start item = some start ∨ start = before.now) :
    after.elapsed item ≤
      before.elapsed item + if item ∈ before.busy then after.now - before.now else 0 := by
  have nonneg := past.elapsed_nonneg
  rw [if_pos busy]
  rw [elapsed.eq_def after]
  cases started : after.start item with
  | none =>
      dsimp only
      linarith
  | some start =>
      dsimp only
      rw [if_pos still]
      rcases starts start started with old | rfl
      · rw [elapsed, old]
        dsimp only
        rw [if_pos busy]
        linarith
      · linarith

/-- An item that is left has taken no more time than until now. -/
theorem elapsed_of_left (past : before.Past item) (busy : item ∈ before.busy)
    (start : after.start item = before.start item) (stop : after.stop item = before.stop item)
    (left : item ∉ after.busy) : after.elapsed item ≤ before.elapsed item := by
  rw [elapsed, elapsed, start, stop]
  cases started : before.start item with
  | none => exact le_refl _
  | some start =>
      obtain ⟨notFuture, ordered⟩ := past start started
      dsimp only
      rw [if_neg left, if_pos busy]
      cases stopped : before.stop item with
      | none => exact sub_le_sub_right notFuture start
      | some stop => exact sub_le_sub_right (ordered stop stopped).2 start

end Moment

/-- Time passes with at most `workers` busy items, and only busy items take time. -/
structure Passes (workers : ℕ) (before after : Moment ι τ) : Prop where
  forward : before.now ≤ after.now
  bounded : before.busy.card ≤ workers
  grows : ∀ item, after.elapsed item ≤
    before.elapsed item + if item ∈ before.busy then after.now - before.now else 0

/-- The items have taken no more time than the workers have had since a first instant. -/
def WithinCapacity (items : Finset ι) (workers : ℕ) (first : τ) (moment : Moment ι τ) : Prop :=
  ∑ item ∈ items, moment.elapsed item ≤ workers * (moment.now - first)

/-- **As time passes the items stay within the capacity of the workers.** -/
theorem WithinCapacity.passes {items : Finset ι} {workers : ℕ} {first : τ}
    {before after : Moment ι τ} (within : WithinCapacity items workers first before)
    (passes : Passes workers before after) : WithinCapacity items workers first after := by
  have elapses : 0 ≤ after.now - before.now := sub_nonneg.mpr passes.forward
  have few : ((items.filter (· ∈ before.busy)).card : τ) ≤ workers := by
    refine Nat.cast_le.mpr (le_trans (Finset.card_le_card fun item member => ?_) passes.bounded)
    exact (Finset.mem_filter.mp member).2
  calc ∑ item ∈ items, after.elapsed item
      ≤ ∑ item ∈ items, (before.elapsed item +
          if item ∈ before.busy then after.now - before.now else 0) :=
        Finset.sum_le_sum fun item _ => passes.grows item
    _ = ∑ item ∈ items, before.elapsed item +
          (items.filter (· ∈ before.busy)).card * (after.now - before.now) := by
        rw [Finset.sum_add_distrib, ← Finset.sum_filter, Finset.sum_const, nsmul_eq_mul]
    _ ≤ workers * (before.now - first) + workers * (after.now - before.now) :=
        add_le_add within (mul_le_mul_of_nonneg_right few elapses)
    _ = workers * (after.now - first) := by
        rw [← mul_add, add_comm, sub_add_sub_cancel]

end Work

/-! ## Span -/

/-- The time between the ends of an item, if it has them. -/
def span (times : ι → Option (τ × τ)) (item : ι) : τ :=
  (times item).elim 0 fun ends => ends.2 - ends.1

/-- The items have their ends between two instants, and no item starts before its predecessors
have stopped. -/
structure Timetable (edge : ι → ι → Prop) (first last : τ) (times : ι → Option (τ × τ)) : Prop where
  begun : first ≤ last
  inside : ∀ item, ∀ ends ∈ times item, first ≤ ends.1 ∧ ends.1 ≤ ends.2 ∧ ends.2 ≤ last
  ordered : ∀ up item, edge up item → ∀ ends ∈ times item, ∃ earlier ∈ times up,
    earlier.2 ≤ ends.1

namespace Timetable

variable {edge : ι → ι → Prop} {first last : τ} {times : ι → Option (τ × τ)}

/-- What the items of a chain take together lies behind the start of the first one. -/
theorem sum_chain_cons (timetable : Timetable edge first last times) (rest : List ι) :
    ∀ item, (item :: rest).IsChain edge →
      (times item = none → ((item :: rest).map (span times)).sum = 0) ∧
      ∀ ends ∈ times item, ((item :: rest).map (span times)).sum ≤ last - ends.1 := by
  induction rest with
  | nil =>
      intro item _
      refine ⟨fun missing => by simp [span, missing], fun ends found => ?_⟩
      have inside := timetable.inside item ends found
      rw [Option.mem_def] at found
      simp only [List.map_cons, List.map_nil, List.sum_cons, List.sum_nil, span, found,
        Option.elim_some]
      linarith [inside.2.2]
  | cons next rest ih =>
      intro item isChain
      obtain ⟨related, later⟩ := List.isChain_cons_cons.mp isChain
      obtain ⟨missingLater, foundLater⟩ := ih next later
      rw [List.map_cons, List.sum_cons]
      refine ⟨fun missing => ?_, fun ends found => ?_⟩
      · have nextMissing : times next = none := by
          rw [Option.eq_none_iff_forall_not_mem]
          intro ends found
          obtain ⟨earlier, present, _⟩ := timetable.ordered item next related ends found
          rw [missing] at present
          cases present
        rw [missingLater nextMissing, span, missing, Option.elim_none, add_zero]
      · have inside := timetable.inside item ends found
        have own : span times item = ends.2 - ends.1 := by
          rw [span, Option.mem_def.mp found, Option.elim_some]
        rw [own]
        cases nextTimes : times next with
        | none =>
            rw [missingLater nextTimes]
            linarith [inside.2.2]
        | some nextEnds =>
            obtain ⟨earlier, present, before⟩ :=
              timetable.ordered item next related nextEnds nextTimes
            cases Option.mem_unique found present
            linarith [foundLater nextEnds nextTimes]

/-- **The items of a chain take no more time together than the schedule.** -/
theorem sum_chain_le (timetable : Timetable edge first last times) {chain : List ι}
    (isChain : chain.IsChain edge) : (chain.map (span times)).sum ≤ last - first := by
  cases chain with
  | nil => exact sub_nonneg.mpr timetable.begun
  | cons item rest =>
      obtain ⟨missing, found⟩ := timetable.sum_chain_cons rest item isChain
      cases ends : times item with
      | none =>
          rw [missing ends]
          exact sub_nonneg.mpr timetable.begun
      | some own =>
          have inside := timetable.inside item own ends
          exact (found own ends).trans (sub_le_sub_left inside.1 last)

end Timetable

end WorkAndSpan
