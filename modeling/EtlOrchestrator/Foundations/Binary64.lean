import Mathlib.Algebra.Order.Floor.Semifield
import Mathlib.Data.Int.Log
import Mathlib.Data.Rat.Floor

/-!
# Rounding to floats

A number that is not negative is rounded to the nearest natural number, or to the nearest float of
64 bits, and to the even one of two. The exponents have no upper bound here: a result from
`2 ^ 1024` on stands for the infinite float.

Both roundings are monotone, and keep what needs no rounding.
-/

set_option autoImplicit false

/-- The nearest natural number, and the even one of two. -/
def roundHalfEven (number : ℚ) : ℕ :=
  let below := ⌊number⌋₊
  if number - below < 1 / 2 ∨ number - below = 1 / 2 ∧ Even below then below else below + 1

section HalfEven

variable {first second : ℚ}

theorem floor_le_roundHalfEven (number : ℚ) : ⌊number⌋₊ ≤ roundHalfEven number := by
  rw [roundHalfEven]
  split
  · exact le_refl _
  · exact Nat.le_succ _

theorem roundHalfEven_le_succ (number : ℚ) : roundHalfEven number ≤ ⌊number⌋₊ + 1 := by
  rw [roundHalfEven]
  split
  · exact Nat.le_succ _
  · exact le_refl _

/-- A natural number needs no rounding. -/
theorem roundHalfEven_natCast (number : ℕ) : roundHalfEven (number : ℚ) = number := by
  simp [roundHalfEven]

theorem roundHalfEven_mono (ordered : first ≤ second) :
    roundHalfEven first ≤ roundHalfEven second := by
  rcases (Nat.floor_le_floor ordered).lt_or_eq with apart | same
  · calc roundHalfEven first ≤ ⌊first⌋₊ + 1 := roundHalfEven_le_succ first
      _ ≤ ⌊second⌋₊ := apart
      _ ≤ roundHalfEven second := floor_le_roundHalfEven second
  · rw [roundHalfEven, roundHalfEven, same]
    split
    · split
      · exact le_refl _
      · exact Nat.le_succ _
    · next up =>
      -- The smaller number is rounded up, and so is the greater one behind the same floor.
      rw [if_neg]
      rintro (below | ⟨half, even⟩)
      · exact up (.inl ((sub_le_sub_right ordered _).trans_lt below))
      · rcases (sub_le_sub_right ordered (⌊second⌋₊ : ℚ)).lt_or_eq with less | equal
        · exact up (.inl (less.trans_eq half))
        · exact up (.inr ⟨equal.trans half, even⟩)

end HalfEven

namespace Binary64

/-- The exponent of the last digit of the floats near a number. -/
def exponent (number : ℚ) : ℤ := max (Int.log 2 number - 52) (-1074)

/-- The float nearest to a number. -/
def round (number : ℚ) : ℚ :=
  roundHalfEven (number / 2 ^ exponent number) * 2 ^ exponent number

variable {first second : ℚ}

theorem round_nonneg (number : ℚ) : 0 ≤ round number :=
  mul_nonneg (Nat.cast_nonneg _) (zpow_nonneg (by decide) _)

theorem roundHalfEven_zpow {power low : ℤ} (above : low ≤ power) :
    (roundHalfEven ((2 : ℚ) ^ power / 2 ^ low) : ℚ) * 2 ^ low = 2 ^ power := by
  obtain ⟨digits, same⟩ := Int.le.dest above
  have whole : (2 : ℚ) ^ power / 2 ^ low = ((2 ^ digits : ℕ) : ℚ) := by
    rw [← zpow_sub₀ two_ne_zero, ← same, add_sub_cancel_left, zpow_natCast, Nat.cast_pow,
      Nat.cast_ofNat]
  rw [whole, roundHalfEven_natCast, ← whole, div_mul_cancel₀ _ (zpow_ne_zero _ two_ne_zero)]

/-- What is rounded to the same digit is rounded in order. -/
theorem roundTo_mono (low : ℤ) (ordered : first ≤ second) :
    (roundHalfEven (first / 2 ^ low) : ℚ) * 2 ^ low ≤
      (roundHalfEven (second / 2 ^ low) : ℚ) * 2 ^ low := by
  have positive : (0 : ℚ) < 2 ^ low := zpow_pos (by decide) _
  refine mul_le_mul_of_nonneg_right (Nat.cast_le.mpr (roundHalfEven_mono ?_)) positive.le
  exact div_le_div_of_nonneg_right ordered positive.le

/-- **Rounding to floats is monotone**: between numbers that are rounded to different digits stands
a power of two, which both roundings keep. -/
theorem round_mono (nonneg : 0 ≤ first) (ordered : first ≤ second) :
    round first ≤ round second := by
  rcases nonneg.eq_or_lt with rfl | positive
  · rw [round, zero_div, show roundHalfEven 0 = 0 from roundHalfEven_natCast 0, Nat.cast_zero,
      zero_mul]
    exact round_nonneg second
  have logs : Int.log 2 first ≤ Int.log 2 second := Int.log_mono_right positive ordered
  rcases logs.lt_or_eq with apart | same
  · rcases le_or_gt (exponent second) (exponent first) with lower | higher
    · have same : exponent first = exponent second :=
        le_antisymm (max_le_max_right _ (Int.sub_le_sub_right logs 52)) lower
      rw [round, round, same]
      exact roundTo_mono _ ordered
    · have between : exponent second ≤ Int.log 2 second := by
        simp only [exponent] at higher ⊢
        omega
      have power : (2 : ℚ) ^ Int.log 2 second ≤ second :=
        Int.zpow_log_le_self (by decide) (positive.trans_le ordered)
      have below : first ≤ (2 : ℚ) ^ Int.log 2 second :=
        (Int.lt_zpow_succ_log_self (by decide) first).le.trans
          (zpow_le_zpow_right₀ (by decide) apart)
      calc round first
          ≤ roundHalfEven ((2 : ℚ) ^ Int.log 2 second / 2 ^ exponent first) *
              2 ^ exponent first := roundTo_mono _ below
        _ = 2 ^ Int.log 2 second := roundHalfEven_zpow (higher.le.trans between)
        _ = roundHalfEven ((2 : ℚ) ^ Int.log 2 second / 2 ^ exponent second) *
              2 ^ exponent second := (roundHalfEven_zpow between).symm
        _ ≤ round second := roundTo_mono _ power
  · rw [round, round, exponent, exponent, same]
    exact roundTo_mono _ ordered

end Binary64
