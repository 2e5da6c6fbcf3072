import EtlOrchestrator.Foundations.OrderedDict

/-!
# Updates of dictionaries

Entries that are assigned one after the other: the last assignment of a key is the one that is
read (`get?_update`).
-/

set_option autoImplicit false

universe u v

namespace OrderedDict

variable {κ : Type u} {ν : Type v} [DecidableEq κ]

/-- Assign some entries, from the first to the last. -/
def update (dict : OrderedDict κ ν) (entries : List (κ × ν)) : OrderedDict κ ν :=
  entries.foldl (fun updated entry => updated.set entry.1 entry.2) dict

theorem update_append (dict : OrderedDict κ ν) (entries more : List (κ × ν)) :
    dict.update (entries ++ more) = (dict.update entries).update more :=
  List.foldl_append ..

/-- The last assignment of a key is read. -/
theorem get?_update (dict : OrderedDict κ ν) (entries : List (κ × ν)) (key : κ) :
    (dict.update entries).get? key = (entries.reverse.lookup key).or (dict.get? key) := by
  induction entries using List.reverseRecOn with
  | nil => rfl
  | append_singleton earlier last ih =>
      rw [update_append, List.reverse_append, List.reverse_singleton, List.singleton_append]
      change ((dict.update earlier).set last.1 last.2).get? key = _
      rw [get?_set, ih]
      by_cases same : key = last.1
      · rw [if_pos same, List.lookup_cons, beq_iff_eq.mpr same]
        rfl
      · rw [if_neg same, List.lookup_cons, beq_false_of_ne same]

/-- Of a dictionary each key is assigned once. -/
theorem get?_update_entries (dict other : OrderedDict κ ν) (key : κ) :
    (dict.update other.entries).get? key = (other.get? key).or (dict.get? key) := by
  have distinct : (other.entries.reverse.map Prod.fst).Nodup := by
    rw [List.map_reverse, List.nodup_reverse]
    exact other.nodupKeys
  have sameEntries : (⟨other.entries.reverse, distinct⟩ : OrderedDict κ ν).get? key =
      other.get? key := by
    ext value
    rw [get?_eq_some_iff, get?_eq_some_iff, List.mem_reverse]
  rw [get?_update]
  exact congrArg (Option.or · _) sameEntries

/-- New entries stand behind the others. -/
theorem entries_update (entries : List (κ × ν)) : ∀ dict : OrderedDict κ ν,
    (entries.map Prod.fst).Nodup → (∀ key ∈ entries.map Prod.fst, key ∉ dict) →
      (dict.update entries).entries = dict.entries ++ entries := by
  induction entries with
  | nil => exact fun dict _ _ => (List.append_nil _).symm
  | cons entry rest ih =>
      intro dict distinct new
      obtain ⟨fresh, restDistinct⟩ := List.nodup_cons.mp distinct
      change ((dict.set entry.1 entry.2).update rest).entries = _
      rw [ih _ restDistinct, entries_set_of_not_mem entry.2 (new entry.1 List.mem_cons_self),
        List.append_assoc, List.singleton_append]
      intro key member inDict
      rcases mem_set.mp inDict with rfl | stored
      · exact fresh member
      · exact new key (List.mem_cons_of_mem _ member) stored

/-- The entries of a dictionary make it up. -/
theorem update_empty (dict : OrderedDict κ ν) :
    (∅ : OrderedDict κ ν).update dict.entries = dict := by
  have same := entries_update dict.entries ∅ dict.nodupKeys fun key _ => not_mem_empty key
  obtain ⟨entries, distinct⟩ := dict
  generalize updates : (∅ : OrderedDict κ ν).update entries = updated
  rw [updates] at same
  obtain ⟨others, othersDistinct⟩ := updated
  cases same
  rfl

end OrderedDict
