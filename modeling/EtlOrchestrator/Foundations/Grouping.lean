import Mathlib.Data.List.Basic
import Mathlib.Data.List.Nodup

/-!
# Lists in groups

A list is grouped along a list of keys when it has first the items of the first
key, then those of the second one, and so on, and no others. Appending items of
the last key keeps a list grouped, and so does adding keys that have no items yet.
-/

set_option autoImplicit false

universe u v w

variable {ι : Type u} {α : Type v} {β : Type w} [DecidableEq ι]

/-- The items of a list come key by key. -/
def Grouped (key : α → ι) (keys : List ι) (items : List α) : Prop :=
  items = keys.flatMap fun group => items.filter fun item => key item = group

namespace Grouped

variable {key : α → ι} {keys earlier batch : List ι} {last : ι} {items more : List α}

theorem nil (keys : List ι) : Grouped key keys [] :=
  (List.flatMap_eq_nil_iff.mpr fun _ _ => rfl).symm

theorem key_mem (grouped : Grouped key keys items) {item : α} (member : item ∈ items) :
    key item ∈ keys := by
  rw [Grouped] at grouped
  rw [grouped] at member
  obtain ⟨group, isKey, inGroup⟩ := List.mem_flatMap.mp member
  have same : key item = group := of_decide_eq_true (List.mem_filter.mp inGroup).2
  exact same ▸ isKey

/-- More items of the last key. -/
theorem append (grouped : Grouped key (earlier ++ [last]) items) (new : last ∉ earlier)
    (own : ∀ item ∈ more, key item = last) : Grouped key (earlier ++ [last]) (items ++ more) := by
  have others : ∀ group ∈ earlier, ((items ++ more).filter fun item => key item = group) =
      items.filter fun item => key item = group := by
    intro group isKey
    have none : (more.filter fun item => key item = group) = [] := by
      rw [List.filter_eq_nil_iff]
      intro item member same
      have keyed : key item = group := of_decide_eq_true same
      exact new ((own item member).symm.trans keyed ▸ isKey)
    rw [List.filter_append, none, List.append_nil]
  have whole : (more.filter fun item => key item = last) = more := by
    rw [List.filter_eq_self]
    intro item member
    exact decide_eq_true (own item member)
  rw [Grouped, List.flatMap_append, List.flatMap_congr others, List.flatMap_singleton,
    List.filter_append, whole, ← List.append_assoc]
  congr 1
  rw [Grouped, List.flatMap_append, List.flatMap_singleton] at grouped
  exact grouped

/-- More keys, none of which has an item. -/
theorem extend (grouped : Grouped key earlier items) (apart : List.Disjoint earlier batch) :
    Grouped key (earlier ++ batch) items := by
  have none : ∀ group ∈ batch, (items.filter fun item => key item = group) = [] := by
    intro group isKey
    rw [List.filter_eq_nil_iff]
    intro item member same
    have keyed : key item = group := of_decide_eq_true same
    exact apart (keyed ▸ grouped.key_mem member) isKey
  rw [Grouped, List.flatMap_append, List.flatMap_eq_nil_iff.mpr none, List.append_nil]
  exact grouped

/-- A map of the items, key by key. -/
theorem map_eq (grouped : Grouped key keys items) {change : α → β} {images : ι → List β}
    (each : ∀ group ∈ keys, (items.filter fun item => key item = group).map change = images group) :
    items.map change = keys.flatMap images := by
  rw [Grouped] at grouped
  rw [grouped, List.map_flatMap]
  exact List.flatMap_congr each

end Grouped
