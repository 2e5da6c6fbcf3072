import EtlOrchestrator.Foundations.DictUpdates
import EtlOrchestrator.Foundations.Json

/-!
# Objects as dictionaries

A JSON text may name a member of an object more than once, and the loaded dictionary keeps the last
one. A value whose objects name each member once is loaded as it was written (`loads_dumps`), and
every loaded value is one (`wellFormed_of_loads`).
-/

set_option autoImplicit false

namespace Json

variable {ν : Type}

mutual

/-- The members of every object are distinct. -/
def Value.WellFormed : Value ν → Prop
  | .null | .bool _ | .number _ | .string _ => True
  | .array items => WellFormedItems items
  | .object members => (members.map Prod.fst).Nodup ∧ WellFormedMembers members

def WellFormedItems : List (Value ν) → Prop
  | [] => True
  | item :: rest => item.WellFormed ∧ WellFormedItems rest

def WellFormedMembers : List (String × Value ν) → Prop
  | [] => True
  | (_, value) :: rest => value.WellFormed ∧ WellFormedMembers rest

end

mutual

/-- Each object as the dictionary of its members. -/
def collapse : Value ν → Value ν
  | .array items => .array (collapseItems items)
  | .object members => .object (OrderedDict.update ∅ (collapseMembers members)).entries
  | value => value

def collapseItems : List (Value ν) → List (Value ν)
  | [] => []
  | item :: rest => collapse item :: collapseItems rest

def collapseMembers : List (String × Value ν) → List (String × Value ν)
  | [] => []
  | (key, value) :: rest => (key, collapse value) :: collapseMembers rest

end

theorem wellFormedItems_iff {items : List (Value ν)} :
    WellFormedItems items ↔ ∀ item ∈ items, item.WellFormed := by
  induction items with
  | nil => simp [WellFormedItems]
  | cons item rest ih => simp [WellFormedItems, ih]

theorem wellFormedMembers_iff {members : List (String × Value ν)} :
    WellFormedMembers members ↔ ∀ entry ∈ members, entry.2.WellFormed := by
  induction members with
  | nil => simp [WellFormedMembers]
  | cons entry rest ih => simp [WellFormedMembers, ih]

/-- Every entry of an updated dictionary is an old one or one of the update. -/
theorem mem_entries_update {dict : OrderedDict String (Value ν)} {key : String} {value : Value ν}
    {entries : List (String × Value ν)} (stored : (key, value) ∈ (dict.update entries).entries) :
    (key, value) ∈ dict.entries ∨ (key, value) ∈ entries := by
  rw [← OrderedDict.get?_eq_some_iff, OrderedDict.get?_update, Option.or_eq_some_iff] at stored
  rcases stored with assigned | ⟨_, old⟩
  · refine .inr (List.mem_reverse.mp ?_)
    obtain ⟨earlier, later, split, _⟩ := List.lookup_eq_some_iff.mp assigned
    rw [split]
    exact List.mem_append_right _ List.mem_cons_self
  · exact .inl (OrderedDict.get?_eq_some_iff.mp old)

mutual

theorem wellFormed_collapse : ∀ value : Value ν, (collapse value).WellFormed
  | .null | .bool _ | .number _ | .string _ => trivial
  | .array items => wellFormedItems_iff.mpr (wellFormed_collapseItems items)
  | .object members => by
      refine ⟨OrderedDict.nodupKeys _, wellFormedMembers_iff.mpr fun entry stored => ?_⟩
      rcases mem_entries_update stored with old | new
      · cases old
      · exact wellFormed_collapseMembers members entry new

theorem wellFormed_collapseItems : ∀ items : List (Value ν),
    ∀ item ∈ collapseItems items, item.WellFormed
  | [], _, member => nomatch member
  | first :: rest, item, member => by
      rcases List.mem_cons.mp member with rfl | later
      · exact wellFormed_collapse first
      · exact wellFormed_collapseItems rest item later

theorem wellFormed_collapseMembers : ∀ members : List (String × Value ν),
    ∀ entry ∈ collapseMembers members, entry.2.WellFormed
  | [], _, member => nomatch member
  | (key, value) :: rest, entry, member => by
      rcases List.mem_cons.mp member with rfl | later
      · exact wellFormed_collapse value
      · exact wellFormed_collapseMembers rest entry later

end

mutual

theorem collapse_of_wellFormed : ∀ value : Value ν, value.WellFormed → collapse value = value
  | .null, _ | .bool _, _ | .number _, _ | .string _, _ => rfl
  | .array items, wellFormed => congrArg Value.array (collapseItems_of_wellFormed items wellFormed)
  | .object members, ⟨distinct, wellFormed⟩ => by
      have same := OrderedDict.update_empty ⟨members, distinct⟩
      rw [collapse, collapseMembers_of_wellFormed members wellFormed, same]

theorem collapseItems_of_wellFormed : ∀ items : List (Value ν),
    WellFormedItems items → collapseItems items = items
  | [], _ => rfl
  | item :: rest, ⟨first, later⟩ =>
      congrArg₂ List.cons (collapse_of_wellFormed item first)
        (collapseItems_of_wellFormed rest later)

theorem collapseMembers_of_wellFormed : ∀ members : List (String × Value ν),
    WellFormedMembers members → collapseMembers members = members
  | [], _ => rfl
  | (key, value) :: rest, ⟨first, later⟩ =>
      congrArg₂ List.cons (congrArg (Prod.mk key) (collapse_of_wellFormed value first))
        (collapseMembers_of_wellFormed rest later)

end

variable (numerals : Numerals ν)

/-- `json.loads(text)`, if it does not raise. -/
def loads (text : String) : Option (Value ν) := (read numerals text).map collapse

theorem wellFormed_of_loads {text : String} {value : Value ν}
    (loaded : loads numerals text = some value) : value.WellFormed := by
  obtain ⟨parsed, _, rfl⟩ := Option.map_eq_some_iff.mp loaded
  exact wellFormed_collapse parsed

/-- **A value whose objects name each member once is loaded as it was written.** -/
theorem loads_dumps {value : Value ν} (layout : Layout) (wellFormed : value.WellFormed) :
    loads numerals (write numerals layout value) = some value := by
  rw [loads, read_write, Option.map_some, collapse_of_wellFormed value wellFormed]

end Json
