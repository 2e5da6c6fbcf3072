import Mathlib.Data.Rat.Defs
import EtlOrchestrator.Foundations.Json

/-!
# Numbers in JSON texts

`json.dumps` writes an integer in decimal and a float as `float.__repr__` does. A token of digits
is read as an integer, and any other number as a float. How floats are written is left open, except
that a written float is no integer and is read back.
-/

set_option autoImplicit false

namespace Json

/-- A number with floats of some type. -/
inductive Number (φ : Type) where
  | int (value : ℤ)
  | float (value : φ)

/-! ## Integers -/

/-- The decimal digits of a natural number. -/
abbrev natText (value : ℕ) : List Char := Nat.toDigits 10 value

/-- The natural number of some digits. Leading zeros, which `json.loads` refuses, are read over. -/
def ofNatText (text : List Char) : Option ℕ :=
  if text ≠ [] ∧ text.all Char.isDigit = true then some (Nat.ofDigitChars 10 text 0) else none

theorem isDigit_of_mem_natText {value : ℕ} {char : Char} (member : char ∈ natText value) :
    char.isDigit = true :=
  Nat.isDigit_of_mem_toDigits (by decide) (by decide) member

theorem ofNatText_natText (value : ℕ) : ofNatText (natText value) = some value := by
  have digits : (natText value).all Char.isDigit = true :=
    List.all_eq_true.mpr fun _ => isDigit_of_mem_natText
  rw [ofNatText, if_pos ⟨Nat.toDigits_ne_nil, digits⟩, Nat.ofDigitChars_ten_toDigits]

/-- `int.__repr__`. -/
def intText : ℤ → List Char
  | .ofNat value => natText value
  | .negSucc value => '-' :: natText (value + 1)

/-- The integer of a text. -/
def ofIntText : List Char → Option ℤ
  | '-' :: digits => (ofNatText digits).map fun value => -(value : ℤ)
  | digits => (ofNatText digits).map fun value => (value : ℤ)

/-- A character of an integer. -/
def isIntChar (char : Char) : Bool := char.isDigit || char = '-'

theorem isIntChar_of_mem_intText {value : ℤ} {char : Char} (member : char ∈ intText value) :
    isIntChar char = true := by
  cases value with
  | ofNat value => simp [isIntChar, isDigit_of_mem_natText member]
  | negSucc value =>
      rcases List.mem_cons.mp member with rfl | digit
      · decide
      · simp [isIntChar, isDigit_of_mem_natText digit]

theorem intText_ne_nil (value : ℤ) : intText value ≠ [] := by
  cases value with
  | ofNat value => exact Nat.toDigits_ne_nil
  | negSucc value => exact List.cons_ne_nil _ _

/-- A text of digits alone has no sign. -/
theorem ofIntText_of_digits {digits : List Char} (all : ∀ char ∈ digits, char.isDigit = true) :
    ofIntText digits = (ofNatText digits).map fun value => (value : ℤ) := by
  unfold ofIntText
  split
  · exact absurd (all '-' List.mem_cons_self) (by decide)
  · rfl

theorem ofIntText_intText (value : ℤ) : ofIntText (intText value) = some value := by
  cases value with
  | ofNat value =>
      rw [intText, ofIntText_of_digits fun _ => isDigit_of_mem_natText, ofNatText_natText]
      rfl
  | negSucc value =>
      rw [intText, ofIntText, ofNatText_natText]
      rfl

/-! ## Floats -/

/-- `float.__repr__`, and `float` on its texts. -/
structure FloatTexts (φ : Type) where
  repr : φ → List Char
  ofRepr : List Char → Option φ
  ofRepr_repr : ∀ value, ofRepr (repr value) = some value
  plain : ∀ value, ∀ char ∈ repr value, isPlain char = true
  notInt : ∀ value, ∃ char ∈ repr value, isIntChar char = false
  notLiteral : ∀ value, repr value ∉ ["null".toList, "true".toList, "false".toList]

namespace FloatTexts

variable {φ : Type} (floats : FloatTexts φ)

/-- The text of a number. -/
def numberText : Number φ → List Char
  | .int value => intText value
  | .float value => floats.repr value

/-- The number of a token. -/
def ofNumberText (token : List Char) : Option (Number φ) :=
  if token.all isIntChar = true then (ofIntText token).map .int
  else (floats.ofRepr token).map .float

/-- A character of an integer is plain. -/
theorem isPlain_of_isIntChar {char : Char} (isInt : isIntChar char = true) :
    isPlain char = true := by
  rw [isIntChar, Bool.or_eq_true, decide_eq_true_eq] at isInt
  rcases isInt with digit | rfl
  · have range := Char.isDigit_iff_toNat.mp digit
    exact decide_eq_true (.inl range)
  · decide

/-- The numbers of JSON texts. -/
def numerals : Numerals (Number φ) where
  text := floats.numberText
  value := floats.ofNumberText
  value_text
    | .int value => by
        have digits : (intText value).all isIntChar = true :=
          List.all_eq_true.mpr fun _ => isIntChar_of_mem_intText
        rw [numberText, ofNumberText, if_pos digits, ofIntText_intText]
        rfl
    | .float value => by
        obtain ⟨char, member, notInt⟩ := floats.notInt value
        have notAll : ¬ (floats.repr value).all isIntChar = true := by
          rw [List.all_eq_true]
          exact fun all => absurd (all char member) (by simp [notInt])
        rw [numberText, ofNumberText, if_neg notAll, floats.ofRepr_repr]
        rfl
  nonempty
    | .int value => intText_ne_nil value
    | .float value => by
        obtain ⟨char, member, _⟩ := floats.notInt value
        exact List.ne_nil_of_mem member
  plain
    | .int value => fun char member => isPlain_of_isIntChar (isIntChar_of_mem_intText member)
    | .float value => floats.plain value
  notLiteral
    | .int value => fun member => by
        have letters : ∀ literal ∈ ["null".toList, "true".toList, "false".toList],
            literal.all isIntChar = false := by decide
        have digits : (intText value).all isIntChar = true :=
          List.all_eq_true.mpr fun _ => isIntChar_of_mem_intText
        rw [letters (intText value) member] at digits
        cases digits
    | .float value => floats.notLiteral value

end FloatTexts

end Json
