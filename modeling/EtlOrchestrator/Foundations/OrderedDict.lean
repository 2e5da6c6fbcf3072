import Mathlib.Data.List.Nodup
import Mathlib.Data.Finset.Basic

/-!
# Insertion-ordered dictionaries

A dictionary is a list of key-value entries whose keys are distinct. Assigning
to a present key replaces its value in place, and assigning to a new key adds an
entry at the end, so the entries stand in the order in which their keys were
first inserted.

The lemmas read a dictionary through `get?`: assigning at one key is seen at
that key (`get?_set_self`) and nowhere else (`get?_set_of_ne`), and the keys
change only by the new one (`mem_set`).
-/

set_option autoImplicit false

universe u v

/-- A dictionary that remembers the order in which its keys were inserted. -/
structure OrderedDict (κ : Type u) (ν : Type v) where
  entries : List (κ × ν)
  nodupKeys : (entries.map Prod.fst).Nodup

namespace OrderedDict

variable {κ : Type u} {ν : Type v}

/-- The dictionary without entries. -/
def empty : OrderedDict κ ν := ⟨[], List.nodup_nil⟩

instance : EmptyCollection (OrderedDict κ ν) := ⟨empty⟩

/-- The keys, in insertion order. -/
def keys (dict : OrderedDict κ ν) : List κ := dict.entries.map Prod.fst

/-- The keys as a set. -/
def keySet (dict : OrderedDict κ ν) : Finset κ := ⟨dict.keys, dict.nodupKeys⟩

/-- The values, in insertion order of their keys. -/
def values (dict : OrderedDict κ ν) : List ν := dict.entries.map Prod.snd

instance : Membership κ (OrderedDict κ ν) := ⟨fun dict key => key ∈ dict.keys⟩

theorem mem_def {dict : OrderedDict κ ν} {key : κ} : key ∈ dict ↔ key ∈ dict.keys := Iff.rfl

theorem keys_nodup (dict : OrderedDict κ ν) : dict.keys.Nodup := dict.nodupKeys

@[simp] theorem mem_keySet {dict : OrderedDict κ ν} {key : κ} :
    key ∈ dict.keySet ↔ key ∈ dict := Iff.rfl

@[simp] theorem not_mem_empty (key : κ) : key ∉ (∅ : OrderedDict κ ν) := List.not_mem_nil

theorem mem_of_entry {dict : OrderedDict κ ν} {key : κ} {value : ν}
    (entry : (key, value) ∈ dict.entries) : key ∈ dict :=
  List.mem_map.mpr ⟨(key, value), entry, rfl⟩

variable [DecidableEq κ]

instance (dict : OrderedDict κ ν) (key : κ) : Decidable (key ∈ dict) :=
  inferInstanceAs (Decidable (key ∈ dict.keys))

/-- The value stored at a key. -/
def get? (dict : OrderedDict κ ν) (key : κ) : Option ν := dict.entries.lookup key

/-- The value stored at a key, or a default. -/
def getD (dict : OrderedDict κ ν) (key : κ) (default : ν) : ν := (dict.get? key).getD default

@[simp] theorem get?_empty (key : κ) : (∅ : OrderedDict κ ν).get? key = none := rfl

/-- The entries after an assignment. -/
def setEntries (key : κ) (value : ν) : List (κ × ν) → List (κ × ν)
  | [] => [(key, value)]
  | entry :: rest =>
      if entry.1 = key then (key, value) :: rest else entry :: setEntries key value rest

theorem mem_keys_setEntries {key other : κ} {value : ν} {entries : List (κ × ν)} :
    other ∈ (setEntries key value entries).map Prod.fst ↔
      other = key ∨ other ∈ entries.map Prod.fst := by
  induction entries with
  | nil => simp [setEntries]
  | cons entry rest ih =>
      by_cases same : entry.1 = key
      · simp [setEntries, same]
      · simp only [setEntries, if_neg same, List.map_cons, List.mem_cons, ih]
        tauto

theorem nodup_keys_setEntries (key : κ) (value : ν) {entries : List (κ × ν)}
    (nodup : (entries.map Prod.fst).Nodup) :
    ((setEntries key value entries).map Prod.fst).Nodup := by
  induction entries with
  | nil => simp [setEntries]
  | cons entry rest ih =>
      have parts := List.nodup_cons.mp nodup
      by_cases same : entry.1 = key
      · simpa [setEntries, same] using nodup
      · simp only [setEntries, if_neg same, List.map_cons]
        refine List.nodup_cons.mpr ⟨?_, ih parts.2⟩
        rw [mem_keys_setEntries]
        rintro (isKey | inRest)
        · exact same isKey
        · exact parts.1 inRest

/-- Looking up a key passes over an entry with another key. -/
theorem lookup_cons_of_ne {key first : κ} (stored : ν) (rest : List (κ × ν))
    (different : key ≠ first) : ((first, stored) :: rest).lookup key = rest.lookup key := by
  have test : (key == first) = false := beq_false_of_ne different
  rw [List.lookup_cons, test]

theorem lookup_setEntries (key other : κ) (value : ν) (entries : List (κ × ν)) :
    (setEntries key value entries).lookup other =
      if other = key then some value else entries.lookup other := by
  induction entries with
  | nil =>
      by_cases same : other = key
      · simp [setEntries, same]
      · rw [if_neg same, setEntries, lookup_cons_of_ne value [] same]
  | cons entry rest ih =>
      obtain ⟨first, stored⟩ := entry
      by_cases atKey : first = key
      · subst atKey
        rw [setEntries, if_pos rfl]
        by_cases same : other = first
        · simp [same]
        · rw [if_neg same, lookup_cons_of_ne value rest same, lookup_cons_of_ne stored rest same]
      · rw [setEntries, if_neg atKey]
        by_cases atOther : other = first
        · subst atOther
          simp [atKey]
        · rw [lookup_cons_of_ne stored _ atOther, lookup_cons_of_ne stored _ atOther, ih]

/-- Assign a value to a key. -/
def set (dict : OrderedDict κ ν) (key : κ) (value : ν) : OrderedDict κ ν :=
  ⟨setEntries key value dict.entries, nodup_keys_setEntries key value dict.nodupKeys⟩

theorem get?_set (dict : OrderedDict κ ν) (key other : κ) (value : ν) :
    (dict.set key value).get? other = if other = key then some value else dict.get? other :=
  lookup_setEntries key other value dict.entries

@[simp] theorem get?_set_self (dict : OrderedDict κ ν) (key : κ) (value : ν) :
    (dict.set key value).get? key = some value := by
  simp [get?_set]

theorem get?_set_of_ne (dict : OrderedDict κ ν) {key other : κ} (value : ν)
    (different : other ≠ key) : (dict.set key value).get? other = dict.get? other := by
  simp [get?_set, different]

@[simp] theorem mem_set {dict : OrderedDict κ ν} {key other : κ} {value : ν} :
    other ∈ dict.set key value ↔ other = key ∨ other ∈ dict :=
  mem_keys_setEntries

/-- What is new beside a key that was set is new, and another key. -/
theorem apart_of_new {dict : OrderedDict κ ν} {key : κ} {value : ν} {others : List κ}
    (fresh : key ∉ dict) (new : ∀ other ∈ others, other ∉ dict.set key value) :
    key ∉ others ∧ ∀ other ∈ key :: others, other ∉ dict := by
  simp only [mem_set, not_or] at new
  refine ⟨fun again => (new key again).1 rfl, List.forall_mem_cons.mpr ⟨fresh, ?_⟩⟩
  exact fun other member => (new other member).2

/-- An entry with a new key stands behind the others. -/
theorem entries_set_of_not_mem {dict : OrderedDict κ ν} {key : κ} (value : ν)
    (new : key ∉ dict) : (dict.set key value).entries = dict.entries ++ [(key, value)] := by
  obtain ⟨entries, nodup⟩ := dict
  change setEntries key value entries = entries ++ [(key, value)]
  change key ∉ entries.map Prod.fst at new
  clear nodup
  induction entries with
  | nil => rfl
  | cons entry rest ih =>
      rw [List.map_cons, List.mem_cons, not_or] at new
      rw [setEntries, if_neg (Ne.symm new.1), ih new.2, List.cons_append]

theorem keys_set_of_not_mem {dict : OrderedDict κ ν} {key : κ} (value : ν)
    (new : key ∉ dict) : (dict.set key value).keys = dict.keys ++ [key] := by
  rw [keys, keys, entries_set_of_not_mem value new, List.map_append]
  rfl

theorem get?_eq_none_iff {dict : OrderedDict κ ν} {key : κ} :
    dict.get? key = none ↔ key ∉ dict := by
  rw [get?, List.lookup_eq_none_iff, mem_def, keys, List.mem_map]
  constructor
  · rintro missing ⟨entry, inEntries, rfl⟩
    simpa using missing entry inEntries
  · intro missing entry inEntries
    simp only [bne_iff_ne, ne_eq]
    intro same
    exact missing ⟨entry, inEntries, same.symm⟩

theorem mem_iff_get?_isSome {dict : OrderedDict κ ν} {key : κ} :
    key ∈ dict ↔ (dict.get? key).isSome := by
  rw [Option.isSome_iff_ne_none, ne_eq, get?_eq_none_iff, not_not]

theorem exists_get?_of_mem {dict : OrderedDict κ ν} {key : κ} (member : key ∈ dict) :
    ∃ value, dict.get? key = some value :=
  Option.isSome_iff_exists.mp (mem_iff_get?_isSome.mp member)

theorem mem_of_get? {dict : OrderedDict κ ν} {key : κ} {value : ν}
    (stored : dict.get? key = some value) : key ∈ dict := by
  simp [mem_iff_get?_isSome, stored]

/-- A key is read back at exactly the value of its entry. -/
theorem get?_eq_some_iff {dict : OrderedDict κ ν} {key : κ} {value : ν} :
    dict.get? key = some value ↔ (key, value) ∈ dict.entries := by
  obtain ⟨entries, nodup⟩ := dict
  simp only [get?]
  induction entries with
  | nil => simp
  | cons entry rest ih =>
      obtain ⟨first, stored⟩ := entry
      have parts := List.nodup_cons.mp nodup
      by_cases same : key = first
      · subst same
        have notInRest : (key, value) ∉ rest := fun inRest =>
          parts.1 (List.mem_map.mpr ⟨(key, value), inRest, rfl⟩)
        simp [notInRest, eq_comm]
      · rw [lookup_cons_of_ne stored rest same, ih parts.2]
        simp [same]

/-- The values are those at the keys. -/
theorem values_eq_map_getD (dict : OrderedDict κ ν) (default : κ → ν) :
    dict.values = dict.keys.map fun key => dict.getD key (default key) := by
  rw [values, keys, List.map_map]
  refine List.map_congr_left fun entry member => ?_
  rw [Function.comp_apply, getD, get?_eq_some_iff.mpr member, Option.getD_some]

/-! ## Removing a key -/

/-- `dict.pop(key, None)`: the dictionary without a key. -/
def erase (dict : OrderedDict κ ν) (key : κ) : OrderedDict κ ν :=
  ⟨dict.entries.filter fun entry => entry.1 ≠ key,
    dict.nodupKeys.sublist (List.filter_sublist.map Prod.fst)⟩

theorem get?_erase (dict : OrderedDict κ ν) (key other : κ) :
    (dict.erase key).get? other = if other = key then none else dict.get? other := by
  by_cases same : other = key
  · rw [if_pos same, get?_eq_none_iff, mem_def, keys, List.mem_map]
    rintro ⟨entry, inEntries, rfl⟩
    exact of_decide_eq_true (List.mem_filter.mp inEntries).2 same
  · rw [if_neg same]
    refine Option.ext fun value => ?_
    rw [get?_eq_some_iff, get?_eq_some_iff, erase, List.mem_filter]
    exact and_iff_left (decide_eq_true same)

theorem mem_erase {dict : OrderedDict κ ν} {key other : κ} :
    other ∈ dict.erase key ↔ other ∈ dict ∧ other ≠ key := by
  rw [mem_iff_get?_isSome, mem_iff_get?_isSome, get?_erase]
  by_cases same : other = key
  · simp [same]
  · simp [same]

/-- Popping a missing key changes nothing. -/
theorem erase_of_not_mem {dict : OrderedDict κ ν} {key : κ} (missing : key ∉ dict) :
    dict.erase key = dict := by
  obtain ⟨entries, nodup⟩ := dict
  rw [erase, mk.injEq, List.filter_eq_self]
  rintro ⟨other, value⟩ entry
  refine decide_eq_true fun same => missing ?_
  exact same ▸ mem_of_entry entry

variable {μ : Type v}

/-- The dictionary with other values at the same keys. -/
def mapValues (change : κ → ν → μ) (dict : OrderedDict κ ν) : OrderedDict κ μ where
  entries := dict.entries.map fun entry => (entry.1, change entry.1 entry.2)
  nodupKeys := by
    rw [List.map_map]
    exact dict.nodupKeys

theorem lookup_mapValues (change : κ → ν → μ) (key : κ) (entries : List (κ × ν)) :
    (entries.map fun entry => (entry.1, change entry.1 entry.2)).lookup key =
      (entries.lookup key).map (change key) := by
  induction entries with
  | nil => rfl
  | cons entry rest ih =>
      obtain ⟨first, stored⟩ := entry
      by_cases same : key = first
      · subst same
        rw [List.map_cons, List.lookup_cons_self, List.lookup_cons_self, Option.map_some]
      · rw [List.map_cons, lookup_cons_of_ne _ _ same, lookup_cons_of_ne _ _ same, ih]

theorem get?_mapValues (change : κ → ν → μ) (dict : OrderedDict κ ν) (key : κ) :
    (dict.mapValues change).get? key = (dict.get? key).map (change key) :=
  lookup_mapValues change key dict.entries

@[simp] theorem mem_mapValues {change : κ → ν → μ} {dict : OrderedDict κ ν} {key : κ} :
    key ∈ dict.mapValues change ↔ key ∈ dict := by
  rw [mem_iff_get?_isSome, mem_iff_get?_isSome, get?_mapValues, Option.isSome_map]

end OrderedDict
