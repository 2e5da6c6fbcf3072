import Mathlib.Data.List.Lex
import Mathlib.Data.Nat.Init
import Mathlib.Data.String.Basic
import Mathlib.Order.Monotone.Basic

/-!
# Lists by their first difference

A list is below another one at their first difference when the two agree up to a
position where the first has the smaller item. The lists are then in the
lexicographic order, whatever follows, so the relation is kept when items are
appended on either side (`BelowAtDifference.append_left`, `.append_right`).

An encoding of items by lists that differ as the items do keeps the lexicographic
order (`flatMap_lt_flatMap`). Decimals of the same width are ordered as their
numbers (`padded_below`), and texts as their UTF-8 bytes (`Utf8.bytes_lt_iff`).
-/

set_option autoImplicit false

universe u v

variable {α : Type u} {β : Type v}

/-- Two lists agree up to a position where the first one has the smaller item. -/
def BelowAtDifference [LT α] (first second : List α) : Prop :=
  ∃ common smaller greater firstRest secondRest, first = common ++ smaller :: firstRest ∧
    second = common ++ greater :: secondRest ∧ smaller < greater

namespace BelowAtDifference

section

variable [LT α] {first second : List α}

theorem cons {smaller greater : α} (less : smaller < greater) (firstRest secondRest : List α) :
    BelowAtDifference (smaller :: firstRest) (greater :: secondRest) :=
  ⟨[], smaller, greater, firstRest, secondRest, rfl, rfl, less⟩

theorem append_left (below : BelowAtDifference first second) (common : List α) :
    BelowAtDifference (common ++ first) (common ++ second) := by
  obtain ⟨more, smaller, greater, firstRest, secondRest, rfl, rfl, less⟩ := below
  exact ⟨common ++ more, smaller, greater, firstRest, secondRest, (List.append_assoc ..).symm,
    (List.append_assoc ..).symm, less⟩

theorem append_right (below : BelowAtDifference first second) (firstMore secondMore : List α) :
    BelowAtDifference (first ++ firstMore) (second ++ secondMore) := by
  obtain ⟨common, smaller, greater, firstRest, secondRest, rfl, rfl, less⟩ := below
  exact ⟨common, smaller, greater, firstRest ++ firstMore, secondRest ++ secondMore, by simp,
    by simp, less⟩

/-- The first parts decide, and the second ones where these are equal. -/
theorem append {firstMore secondMore : List α}
    (parts : BelowAtDifference first second ∨
      first = second ∧ BelowAtDifference firstMore secondMore) :
    BelowAtDifference (first ++ firstMore) (second ++ secondMore) := by
  rcases parts with below | ⟨rfl, below⟩
  · exact below.append_right firstMore secondMore
  · exact below.append_left first

end

/-- Such lists are in the lexicographic order. -/
theorem lt [LT α] {first second : List α} (below : BelowAtDifference first second) :
    first < second := by
  obtain ⟨common, smaller, greater, firstRest, secondRest, rfl, rfl, less⟩ := below
  exact List.append_left_lt (List.cons_lt_cons_iff.mpr (.inl less))

end BelowAtDifference

/-! ## Encodings of items -/

/-- **An encoding whose images differ as the items do keeps the lexicographic order.** -/
theorem flatMap_lt_flatMap [LT α] [LT β] {encode : α → List β}
    (nonempty : ∀ item, encode item ≠ [])
    (below : ∀ smaller greater, smaller < greater →
      BelowAtDifference (encode smaller) (encode greater)) {first second : List α}
    (less : first < second) : first.flatMap encode < second.flatMap encode := by
  induction first generalizing second with
  | nil =>
      cases second with
      | nil => exact absurd less (List.not_lt_nil _)
      | cons item rest =>
          cases encoded : encode item with
          | nil => exact absurd encoded (nonempty item)
          | cons head tail =>
              simp only [List.flatMap_nil, List.flatMap_cons, encoded]
              exact List.nil_lt_cons _ _
  | cons item rest ih =>
      cases second with
      | nil => exact absurd less (List.not_lt_nil _)
      | cons other otherRest =>
          simp only [List.flatMap_cons]
          rcases List.cons_lt_cons_iff.mp less with smaller | ⟨rfl, later⟩
          · exact ((below item other smaller).append_right _ _).lt
          · exact List.append_left_lt (ih later)

/-! ## Decimals -/

/-- A number as a decimal of some width, with leading zeros. -/
def padded : ℕ → ℕ → List Char
  | 0, _ => []
  | width + 1, number => padded width (number / 10) ++ [Nat.digitChar (number % 10)]

theorem digitChar_lt {smaller greater : ℕ} (less : smaller < greater) (digit : greater < 10) :
    Nat.digitChar smaller < Nat.digitChar greater := by
  have all : ∀ greater < 10, ∀ smaller < greater,
      Nat.digitChar smaller < Nat.digitChar greater := by decide
  exact all greater digit smaller less

/-- **Decimals of the same width are ordered as their numbers.** -/
theorem padded_below {width : ℕ} : ∀ {smaller greater : ℕ}, smaller < greater →
    greater < 10 ^ width → BelowAtDifference (padded width smaller) (padded width greater) := by
  induction width with
  | zero =>
      intro smaller greater less fits
      rw [Nat.pow_zero] at fits
      omega
  | succ width ih =>
      intro smaller greater less fits
      rw [Nat.pow_succ] at fits
      rcases (Nat.div_le_div_right (c := 10) less.le).lt_or_eq with early | same
      · exact (ih early (by omega)).append_right _ _
      · rw [padded, padded, same]
        have digits := digitChar_lt (show smaller % 10 < greater % 10 by omega) (by omega)
        exact (BelowAtDifference.cons digits [] []).append_left _

/-! ## Bytes -/

namespace Utf8

theorem cons_below {smaller greater : ℕ} {first second : List UInt8} (byte : greater < 256)
    (ordered : smaller ≤ greater) (rest : smaller = greater → BelowAtDifference first second) :
    BelowAtDifference (UInt8.ofNat smaller :: first) (UInt8.ofNat greater :: second) := by
  rcases ordered.lt_or_eq with less | rfl
  · refine .cons ?_ first second
    rw [UInt8.lt_iff_toNat_lt, UInt8.toNat_ofNat_of_lt' (less.trans byte),
      UInt8.toNat_ofNat_of_lt' byte]
    exact less
  · exact (rest rfl).append_left [UInt8.ofNat smaller]

/-- The bytes of two characters differ as the characters do. -/
theorem encodeChar_below {smaller greater : Char} (less : smaller < greater) :
    BelowAtDifference (String.utf8EncodeChar smaller) (String.utf8EncodeChar greater) := by
  have values : smaller.val.toNat < greater.val.toNat := less
  have limit : greater.val.toNat < 0x110000 := by
    have valid : greater.val.toNat < 0xd800 ∨
        0xdfff < greater.val.toNat ∧ greater.val.toNat < 0x110000 := greater.valid
    omega
  unfold String.utf8EncodeChar
  dsimp only
  -- The characters have up to four bytes, and a leading byte tells how many.
  split_ifs
  all_goals first
    | omega
    | exact cons_below (by omega) (by omega) fun _ => absurd values (by omega)
    | exact cons_below (by omega) (by omega) fun _ => cons_below (by omega) (by omega) fun _ =>
        absurd values (by omega)
    | exact cons_below (by omega) (by omega) fun _ => cons_below (by omega) (by omega) fun _ =>
        cons_below (by omega) (by omega) fun _ => absurd values (by omega)
    | exact cons_below (by omega) (by omega) fun _ => cons_below (by omega) (by omega) fun _ =>
        cons_below (by omega) (by omega) fun _ => cons_below (by omega) (by omega) fun _ =>
          absurd values (by omega)

/-- The bytes of a text. -/
def bytes (text : String) : List UInt8 := text.toByteArray.data.toList

theorem bytes_eq_flatMap (text : String) :
    bytes text = text.toList.flatMap String.utf8EncodeChar := by
  obtain ⟨characters, rfl⟩ : ∃ characters, text = String.ofList characters :=
    ⟨text.toList, String.ofList_toList.symm⟩
  rw [bytes, String.toByteArray_ofList, List.utf8Encode, List.toList_data_toByteArray,
    String.toList_ofList]

theorem bytes_lt_bytes {first second : String} (less : first < second) :
    bytes first < bytes second := by
  rw [bytes_eq_flatMap, bytes_eq_flatMap]
  rw [String.lt_iff_toList_lt] at less
  exact flatMap_lt_flatMap (fun _ => String.utf8EncodeChar_ne_nil)
    (fun _ _ => encodeChar_below) less

/-- **The order of texts is the order of their bytes.** -/
theorem bytes_lt_iff {first second : String} : bytes first < bytes second ↔ first < second := by
  have asymm : Std.Asymm fun first second : UInt8 => first < second :=
    ⟨fun _ _ less greater => UInt8.lt_asymm less greater⟩
  refine ⟨fun less => ?_, bytes_lt_bytes⟩
  rcases lt_trichotomy first second with smaller | rfl | greater
  · exact smaller
  · exact absurd less (List.lt_irrefl _)
  · exact absurd less (List.lt_asymm (bytes_lt_bytes greater))

end Utf8
