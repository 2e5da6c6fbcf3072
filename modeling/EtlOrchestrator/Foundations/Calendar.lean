import Mathlib.Order.Lattice.Nat
import Mathlib.Tactic.SplitIfs

/-!
# The proleptic Gregorian calendar

Dates with their ordinals, the number of a day when the first day of the year 1 has
the number 1. The ordinals are in the lexicographic order of the dates
(`Date.ordinal_lt_iff`).
-/

set_option autoImplicit false

namespace Calendar

/-- The leap years. -/
def IsLeap (year : ℕ) : Prop := year % 4 = 0 ∧ (year % 100 ≠ 0 ∨ year % 400 = 0)

instance (year : ℕ) : Decidable (IsLeap year) := inferInstanceAs (Decidable (_ ∧ _))

/-- The number of days of a month. -/
def daysInMonth (year month : ℕ) : ℕ :=
  match month with
  | 2 => if IsLeap year then 29 else 28
  | 4 | 6 | 9 | 11 => 30
  | _ => 31

/-- The number of days before the first one of a year. -/
def daysBeforeYear (year : ℕ) : ℕ :=
  (year - 1) * 365 + (year - 1) / 4 - (year - 1) / 100 + (year - 1) / 400

/-- The number of days of a year before the first one of a month. -/
def daysBeforeMonth (year : ℕ) : ℕ → ℕ
  | 0 | 1 => 0
  | month + 2 => daysBeforeMonth year (month + 1) + daysInMonth year (month + 1)

/-- A date of the calendar. -/
@[ext] structure Date where
  year : ℕ
  month : ℕ
  day : ℕ
  one_le_year : 1 ≤ year
  month_mem : 1 ≤ month ∧ month ≤ 12
  day_mem : 1 ≤ day ∧ day ≤ daysInMonth year month

namespace Date

/-- The number of a day. -/
def ordinal (date : Date) : ℕ :=
  daysBeforeYear date.year + daysBeforeMonth date.year date.month + date.day

/-- A date comes before another one by its year, its month or its day. -/
def Before (first second : Date) : Prop :=
  first.year < second.year ∨ first.year = second.year ∧
    (first.month < second.month ∨ first.month = second.month ∧ first.day < second.day)

end Date

/-- The days of the whole year. -/
theorem daysBeforeMonth_thirteen (year : ℕ) :
    daysBeforeMonth year 13 = if IsLeap year then 366 else 365 := by
  by_cases leap : IsLeap year <;> simp [daysBeforeMonth, daysInMonth, leap]

theorem daysBeforeYear_succ {year : ℕ} (positive : 1 ≤ year) :
    daysBeforeYear (year + 1) = daysBeforeYear year + daysBeforeMonth year 13 := by
  obtain ⟨earlier, rfl⟩ := Nat.exists_eq_add_of_le' positive
  have centuries : earlier / 100 ≤ earlier / 4 := Nat.div_le_div_left (by decide) (by decide)
  rw [daysBeforeMonth_thirteen, daysBeforeYear, daysBeforeYear, Nat.add_sub_cancel,
    Nat.add_sub_cancel, Nat.succ_div, Nat.succ_div, Nat.succ_div]
  simp only [IsLeap, Nat.dvd_iff_mod_eq_zero]
  -- A quotient grows with the years that its divisor divides.
  by_cases four : (earlier + 1) % 4 = 0
  · by_cases century : (earlier + 1) % 100 = 0
    · by_cases era : (earlier + 1) % 400 = 0
      · simp [four, century, era]
        omega
      · simp [four, century, era]
        omega
    · have noEra : (earlier + 1) % 400 ≠ 0 := by omega
      simp [four, century, noEra]
      omega
  · have noCentury : (earlier + 1) % 100 ≠ 0 := by omega
    have noEra : (earlier + 1) % 400 ≠ 0 := by omega
    simp [four, noCentury, noEra]
    omega

theorem daysBeforeMonth_mono (year : ℕ) {first second : ℕ} (ordered : first ≤ second) :
    daysBeforeMonth year first ≤ daysBeforeMonth year second := by
  induction second, ordered using Nat.le_induction with
  | base => exact le_refl _
  | succ second _ ih =>
      refine ih.trans ?_
      cases second with
      | zero => exact le_refl _
      | succ second => exact Nat.le_add_right _ _

theorem daysBeforeYear_mono {first second : ℕ} (positive : 1 ≤ first) (ordered : first ≤ second) :
    daysBeforeYear first ≤ daysBeforeYear second := by
  induction second, ordered using Nat.le_induction with
  | base => exact le_refl _
  | succ second later ih =>
      rw [daysBeforeYear_succ (positive.trans later)]
      exact ih.trans (Nat.le_add_right _ _)

namespace Date

variable {first second : Date}

/-- A day comes before the next month. -/
theorem day_le (date : Date) {month : ℕ} (later : date.month < month) :
    daysBeforeMonth date.year date.month + date.day ≤ daysBeforeMonth date.year month := by
  have next : daysBeforeMonth date.year (date.month + 1) =
      daysBeforeMonth date.year date.month + daysInMonth date.year date.month := by
    obtain ⟨earlier, same⟩ := Nat.exists_eq_add_of_le' date.month_mem.1
    rw [same]
    rfl
  calc daysBeforeMonth date.year date.month + date.day
      ≤ daysBeforeMonth date.year (date.month + 1) := by
        rw [next]
        exact Nat.add_le_add_left date.day_mem.2 _
    _ ≤ daysBeforeMonth date.year month := daysBeforeMonth_mono _ later

theorem ordinal_lt (before : first.Before second) : first.ordinal < second.ordinal := by
  rw [ordinal, ordinal]
  have positive := second.day_mem.1
  rcases before with year | ⟨year, month | ⟨month, day⟩⟩
  · have whole := first.day_le (Nat.lt_succ_of_le first.month_mem.2)
    have years := daysBeforeYear_mono (Nat.succ_pos first.year) year
    rw [daysBeforeYear_succ first.one_le_year] at years
    change _ ≤ daysBeforeMonth first.year 13 at whole
    omega
  · have months := first.day_le month
    rw [← year]
    omega
  · rw [year, month]
    omega

/-- Of two dates one is before the other, or all their fields are equal. -/
theorem before_or_before (first second : Date) : first.Before second ∨
    (first.year = second.year ∧ first.month = second.month ∧ first.day = second.day) ∨
      second.Before first := by
  unfold Before
  omega

/-- **The ordinals are in the order of the dates.** -/
theorem ordinal_lt_iff : first.ordinal < second.ordinal ↔ first.Before second := by
  refine ⟨fun less => ?_, ordinal_lt⟩
  rcases first.before_or_before second with before | ⟨year, month, day⟩ | after
  · exact before
  · rw [ordinal, ordinal, year, month, day] at less
    exact absurd less (lt_irrefl _)
  · exact absurd less (ordinal_lt after).asymm

theorem ordinal_injective : Function.Injective ordinal := by
  intro first second same
  rcases first.before_or_before second with before | ⟨year, month, day⟩ | after
  · exact absurd same (ordinal_lt before).ne
  · exact Date.ext year month day
  · exact absurd same (ordinal_lt after).ne'

end Date

end Calendar
