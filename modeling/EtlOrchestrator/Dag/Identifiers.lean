import EtlOrchestrator.Dag
import EtlOrchestrator.Foundations.Patterns

/-!
# Which ids are accepted

An id is documented to start with a letter and to contain only letters, digits, underscores and
hyphens. The pattern that is meant to say so ends in `$`, which also matches just before a
newline at the end of the text. So every documented id is accepted, and also each with a newline
behind it (`acceptsExactly_iff`).
-/

set_option autoImplicit false

namespace EtlOrchestrator

open Pattern

/-! ## The pattern -/

/-- `_ID_PATTERN`: `^[A-Za-z][A-Za-z0-9_-]*$`. -/
def idPattern : Pattern :=
  .followedBy .beginning
    (.followedBy (.followedBy (.oneOf Char.isAlpha) (.many (.oneOf isIdChar))) .ending)

/-- What is accepted behind the first character. -/
theorem matchesIdTail_iff (chars : List Char) : matchesIdTail chars = true ↔
    ∃ rest after, chars = rest ++ after ∧ (after = [] ∨ after = ['\n']) ∧
      ∀ char ∈ rest, isIdChar char = true := by
  fun_induction matchesIdTail chars with
  | case1 => exact iff_of_true rfl ⟨[], [], rfl, .inl rfl, List.forall_mem_nil _⟩
  | case2 => exact iff_of_true rfl ⟨[], ['\n'], rfl, .inr rfl, List.forall_mem_nil _⟩
  | case3 char others notLast ih =>
      rw [Bool.and_eq_true, ih]
      constructor
      · rintro ⟨accepted, rest, after, rfl, ends, all⟩
        exact ⟨char :: rest, after, rfl, ends, List.forall_mem_cons.mpr ⟨accepted, all⟩⟩
      · rintro ⟨rest, after, split, ends, all⟩
        cases rest with
        | nil =>
            rcases ends with rfl | rfl
            · cases split
            · cases split
              exact absurd rfl (notLast rfl)
        | cons first rest =>
            cases split
            obtain ⟨accepted, others⟩ := List.forall_mem_cons.mp all
            exact ⟨accepted, rest, after, rfl, ends, others⟩

/-- **An id is accepted exactly when the regular expression matches it.** -/
theorem matchesIdPattern_iff (value : String) :
    matchesIdPattern value = true ↔ idPattern.MatchesFromStart value.toList := by
  rw [idPattern, matchesFromStart_anchored_iff, matchesIdPattern]
  simp only [matches_followedBy_iff, matches_oneOf_iff, matches_many_oneOf_iff]
  cases value.toList with
  | nil =>
      refine iff_of_false Bool.false_ne_true ?_
      rintro ⟨_, after, empty, _, _, rest, rfl, ⟨char, rfl, _⟩, _⟩
      cases empty
  | cons char chars =>
      rw [Bool.and_eq_true, matchesIdTail_iff]
      constructor
      · rintro ⟨letter, rest, after, rfl, ends, all⟩
        exact ⟨char :: rest, after, rfl, ends, [char], rest, rfl, ⟨char, rfl, letter⟩, all⟩
      · rintro ⟨_, after, split, ends, _, rest, rfl, ⟨first, rfl, letter⟩, all⟩
        cases split
        exact ⟨letter, rest, after, rfl, ends, all⟩

/-! ## The documented ids -/

/-- An ASCII letter. -/
def IsLetter (char : Char) : Prop := 'A' ≤ char ∧ char ≤ 'Z' ∨ 'a' ≤ char ∧ char ≤ 'z'

/-- An ASCII digit. -/
def IsDigit (char : Char) : Prop := '0' ≤ char ∧ char ≤ '9'

/-- It starts with a letter and contains only letters, digits, underscores, and hyphens. -/
def IsIdentifier (value : String) : Prop :=
  ∃ first rest, value.toList = first :: rest ∧ IsLetter first ∧
    ∀ char ∈ rest, IsLetter char ∨ IsDigit char ∨ char = '_' ∨ char = '-'

theorem isAlpha_iff (char : Char) : char.isAlpha = true ↔ IsLetter char := by
  have upper : char.isUpper = true ↔ 'A' ≤ char ∧ char ≤ 'Z' := decide_eq_true_iff
  have lower : char.isLower = (decide ('a' ≤ char) && decide (char ≤ 'z')) := rfl
  have alpha : char.isAlpha = (char.isUpper || char.isLower) := rfl
  rw [alpha, Bool.or_eq_true, upper, lower, Bool.and_eq_true, decide_eq_true_iff,
    decide_eq_true_iff, IsLetter]

theorem isIdChar_iff (char : Char) : isIdChar char = true ↔
    IsLetter char ∨ IsDigit char ∨ char = '_' ∨ char = '-' := by
  have digit : char.isDigit = (decide ('0' ≤ char) && decide (char ≤ '9')) := rfl
  have alphanum : char.isAlphanum = (char.isAlpha || char.isDigit) := rfl
  rw [isIdChar, alphanum, digit]
  simp only [Bool.or_eq_true, Bool.and_eq_true, decide_eq_true_eq, beq_iff_eq, isAlpha_iff,
    IsDigit, or_assoc]

theorem isIdentifier_ofList_iff {before matched after : List Char} :
    IsIdentifier (String.ofList matched) ↔
      (Pattern.followedBy (.oneOf Char.isAlpha) (.many (.oneOf isIdChar))).Matches
        before matched after := by
  simp only [IsIdentifier, String.toList_ofList, matches_followedBy_iff, matches_oneOf_iff,
    matches_many_oneOf_iff, isIdChar_iff, isAlpha_iff]
  constructor
  · rintro ⟨first, rest, rfl, letter, all⟩
    exact ⟨[first], rest, rfl, ⟨first, rfl, letter⟩, all⟩
  · rintro ⟨_, rest, rfl, ⟨first, rfl, letter⟩, all⟩
    exact ⟨first, rest, rfl, letter, all⟩

/-- **The accepted ids are the documented ones, and these with a newline behind them.** -/
theorem matchesIdPattern_iff_identifier (value : String) : matchesIdPattern value = true ↔
    IsIdentifier value ∨ ∃ identifier, IsIdentifier identifier ∧ value = identifier ++ "\n" := by
  rw [matchesIdPattern_iff, idPattern, matchesFromStart_anchored_iff]
  simp only [← isIdentifier_ofList_iff]
  constructor
  · rintro ⟨matched, after, split, rfl | rfl, identifier⟩
    · rw [List.append_nil] at split
      rw [← split, String.ofList_toList] at identifier
      exact .inl identifier
    · refine .inr ⟨String.ofList matched, identifier, String.toList_injective ?_⟩
      rw [split, String.toList_append, String.toList_ofList]
      rfl
  · rintro (identifier | ⟨identifier, valid, rfl⟩)
    · refine ⟨value.toList, [], (List.append_nil _).symm, .inl rfl, ?_⟩
      rwa [String.ofList_toList]
    · refine ⟨identifier.toList, ['\n'], String.toList_append, .inr rfl, ?_⟩
      rwa [String.ofList_toList]

/-- A documented id has no newline. -/
theorem IsIdentifier.newline_not_mem {value : String} (identifier : IsIdentifier value) :
    '\n' ∉ value.toList := by
  obtain ⟨first, rest, split, letter, all⟩ := identifier
  rw [split, List.mem_cons, not_or]
  constructor
  · rintro rfl
    exact absurd ((isAlpha_iff '\n').mpr letter) (by decide)
  · intro member
    exact absurd ((isIdChar_iff '\n').mpr (all '\n' member)) (by decide)

/-! ## The constructors -/

/-- A value is accepted, as it is or as the id of a task or a workflow, if and only if it is a
documented id. -/
structure AcceptsExactly (value : String) : Prop where
  validates : ∀ kind, validateId value kind = .ok value ↔ IsIdentifier value
  task : ∀ description dependsOn maxAttempts backoffSeconds backoffMultiplier
    one_le_maxAttempts backoffSeconds_nonneg one_le_backoffMultiplier,
    (∃ task, Task.create value description dependsOn maxAttempts backoffSeconds backoffMultiplier
      one_le_maxAttempts backoffSeconds_nonneg one_le_backoffMultiplier = .ok task) ↔
      IsIdentifier value
  workflow : ∀ description,
    (∃ workflow, Workflow.create value description = .ok workflow) ↔ IsIdentifier value

/-- The constructors check an id with the same pattern. -/
theorem acceptsExactly_iff_pattern (value : String) :
    AcceptsExactly value ↔ (matchesIdPattern value = true ↔ IsIdentifier value) := by
  constructor
  · intro exactly
    rw [← exactly.validates "task id", validateId_eq_ok_iff]
  · intro same
    refine ⟨fun kind => ?_, ?_, fun description => ?_⟩
    · rw [validateId_eq_ok_iff, same]
    · intro description dependsOn maxAttempts backoffSeconds backoffMultiplier _ _ _
      simp [Task.create_eq_ok_iff, same]
    · simp only [Workflow.create_eq_ok_iff, same, exists_and_left, exists_eq, and_true]

/-- **A value is accepted as documented if and only if it is no documented id with a newline
behind it.** -/
theorem acceptsExactly_iff (value : String) :
    AcceptsExactly value ↔ ∀ identifier, IsIdentifier identifier → value ≠ identifier ++ "\n" := by
  rw [acceptsExactly_iff_pattern, matchesIdPattern_iff_identifier]
  constructor
  · rintro same identifier valid rfl
    refine (same.mp (.inr ⟨identifier, valid, rfl⟩)).newline_not_mem ?_
    rw [String.toList_append]
    exact List.mem_append_cons_self
  · intro different
    refine or_iff_left ?_
    rintro ⟨identifier, valid, same⟩
    exact different identifier valid same

theorem newline_accepted :
    validateId "extract\n" "task id" = .ok "extract\n" ∧ ¬ IsIdentifier "extract\n" := by
  refine ⟨by decide, fun identifier => identifier.newline_not_mem (by decide)⟩

end EtlOrchestrator
