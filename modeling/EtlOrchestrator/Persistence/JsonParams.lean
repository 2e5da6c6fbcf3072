import EtlOrchestrator.Foundations.DictUpdates
import EtlOrchestrator.Foundations.JsonNumbers
import EtlOrchestrator.Persistence

/-!
# Parameters as JSON texts

The store keeps the parameters of a run as `json.dumps` writes them. `json.loads` builds the
dictionary by assigning the members one after the other, and gives back the parameters that were
written (`Encoding.withJson`).
-/

set_option autoImplicit false

namespace EtlOrchestrator

open Json

/-! ## Values -/

namespace PyValue

mutual

/-- The JSON value of a Python value. -/
def toJson : PyValue → Value (Number ℚ)
  | .none => .null
  | .bool value => .bool value
  | .int value => .number (.int value)
  | .float value => .number (.float value)
  | .str value => .string value
  | .list items => .array (toJsonItems items)
  | .dict entries => .object (toJsonMembers entries)

/-- The JSON values of the items of a list. -/
def toJsonItems : List PyValue → List (Value (Number ℚ))
  | [] => []
  | item :: rest => toJson item :: toJsonItems rest

/-- The JSON values of the entries of a dictionary. -/
def toJsonMembers : List (String × PyValue) → List (String × Value (Number ℚ))
  | [] => []
  | (key, value) :: rest => (key, toJson value) :: toJsonMembers rest

end

mutual

/-- The Python value of a JSON value. -/
def ofJson : Value (Number ℚ) → PyValue
  | .null => .none
  | .bool value => .bool value
  | .number (.int value) => .int value
  | .number (.float value) => .float value
  | .string value => .str value
  | .array items => .list (ofJsonItems items)
  | .object members => .dict (ofJsonMembers members)

/-- The Python values of the items of an array. -/
def ofJsonItems : List (Value (Number ℚ)) → List PyValue
  | [] => []
  | item :: rest => ofJson item :: ofJsonItems rest

/-- The Python values of the members of an object. -/
def ofJsonMembers : List (String × Value (Number ℚ)) → List (String × PyValue)
  | [] => []
  | (key, value) :: rest => (key, ofJson value) :: ofJsonMembers rest

end

mutual

/-- A Python value is not changed on its way through JSON. -/
theorem ofJson_toJson : ∀ value : PyValue, ofJson (toJson value) = value
  | .none => rfl
  | .bool _ => rfl
  | .int _ => rfl
  | .float _ => rfl
  | .str _ => rfl
  | .list items => by rw [toJson, ofJson, ofJsonItems_toJsonItems items]
  | .dict entries => by rw [toJson, ofJson, ofJsonMembers_toJsonMembers entries]

theorem ofJsonItems_toJsonItems : ∀ items : List PyValue, ofJsonItems (toJsonItems items) = items
  | [] => rfl
  | item :: rest => by
      rw [toJsonItems, ofJsonItems, ofJson_toJson item, ofJsonItems_toJsonItems rest]

theorem ofJsonMembers_toJsonMembers : ∀ entries : List (String × PyValue),
    ofJsonMembers (toJsonMembers entries) = entries
  | [] => rfl
  | (key, value) :: rest => by
      rw [toJsonMembers, ofJsonMembers, ofJson_toJson value, ofJsonMembers_toJsonMembers rest]

end

end PyValue

/-! ## Parameters -/

variable (floats : FloatTexts ℚ)

/-- `json.dumps(run.params)`. -/
def dumpParams (params : Params) : String :=
  write floats.numerals {} (.object (PyValue.toJsonMembers params.entries))

/-- `json.loads(row["params"])`. -/
def loadParams (text : String) : Except PyError Params :=
  match read floats.numerals text with
  | some (.object members) => .ok (OrderedDict.update ∅ (PyValue.ofJsonMembers members))
  | _ => .error (.other "JSONDecodeError" "Expecting value")

/-- **Parameters are loaded as they were written.** -/
theorem loadParams_dumpParams (params : Params) :
    loadParams floats (dumpParams floats params) = .ok params := by
  rw [loadParams, dumpParams, read_write]
  dsimp only
  rw [PyValue.ofJsonMembers_toJsonMembers, OrderedDict.update_empty]

/-- An encoding with the parameters in JSON, and the instants of another one. -/
def Encoding.withJson (encoding : Encoding) : Encoding :=
  { encoding with
    dumps := fun params => .ok (dumpParams floats params)
    loads := loadParams floats
    loads_dumps := by
      rintro params _ ⟨⟩
      exact loadParams_dumpParams floats params }

/-! ## Sample texts of floats -/

/-- `float.__repr__` on whole numbers, and an invertible text elsewhere. -/
def sampleRepr (value : ℚ) : List Char :=
  intText value.num ++ if value.den = 1 then ['.', '0'] else 'e' :: natText value.den

/-- The float of a text of `sampleRepr`. -/
def ofSampleRepr (text : List Char) : Option ℚ :=
  (ofIntText (text.takeWhile isIntChar)).bind fun numerator =>
    match text.dropWhile isIntChar with
    | ['.', '0'] => some numerator
    | 'e' :: digits => (ofNatText digits).map fun denominator : ℕ => (numerator / denominator : ℚ)
    | _ => none

theorem ofSampleRepr_sampleRepr (value : ℚ) : ofSampleRepr (sampleRepr value) = some value := by
  have isInt : ∀ char ∈ intText value.num, isIntChar char = true :=
    fun _ => isIntChar_of_mem_intText
  rw [ofSampleRepr, sampleRepr, List.takeWhile_append_of_pos isInt,
    List.dropWhile_append_of_pos isInt]
  by_cases whole : value.den = 1
  · have isWhole : (value.num : ℚ) = value := Rat.coe_int_num_of_den_eq_one whole
    simp [if_pos whole, isIntChar, ofIntText_intText, isWhole]
  · rw [if_neg whole, List.takeWhile_cons_of_neg (by decide), List.append_nil,
      List.dropWhile_cons_of_neg (by decide), ofIntText_intText, Option.bind_some]
    simp [ofNatText_natText, Rat.num_div_den]

/-- Texts of floats, which are those of Python on whole numbers. -/
def sampleFloats : FloatTexts ℚ where
  repr := sampleRepr
  ofRepr := ofSampleRepr
  ofRepr_repr := ofSampleRepr_sampleRepr
  plain value char member := by
    rw [sampleRepr] at member
    rcases List.mem_append.mp member with sign | rest
    · exact FloatTexts.isPlain_of_isIntChar (isIntChar_of_mem_intText sign)
    · split at rest
      · have plain : List.all ['.', '0'] isPlain = true := rfl
        exact List.all_eq_true.mp plain char rest
      · rcases List.mem_cons.mp rest with rfl | digit
        · decide
        · exact FloatTexts.isPlain_of_isIntChar
            (by simp [isIntChar, isDigit_of_mem_natText digit])
  notInt value := by
    by_cases whole : value.den = 1
    · exact ⟨'.', by simp [sampleRepr, whole], by decide⟩
    · exact ⟨'e', by simp [sampleRepr, whole], by decide⟩
  notLiteral value := by
    obtain ⟨char, rest, same⟩ := List.exists_cons_of_ne_nil (intText_ne_nil value.num)
    have isInt : isIntChar char = true :=
      isIntChar_of_mem_intText (same ▸ List.mem_cons_self)
    intro member
    rw [sampleRepr, same, List.cons_append] at member
    simp only [List.mem_cons, List.not_mem_nil, or_false] at member
    rcases member with literal | literal | literal
    all_goals
      have first := (List.cons.inj literal).1
      rw [first] at isInt
      exact absurd isInt (by decide)

end EtlOrchestrator
