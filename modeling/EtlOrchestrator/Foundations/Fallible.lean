import Mathlib.Data.List.Forall2
import Mathlib.Logic.Basic

/-!
# Results of fallible programs

How a sequence of fallible programs returns and how it fails: it returns when
both parts do, and fails with the error of the first part that does. So the errors of
a sequence are of a kind exactly when those of its parts are (`RaisesOnly`).
-/

set_option autoImplicit false

universe u v

namespace Except

variable {ε ε' : Type u} {α β : Type v}

@[simp] theorem ok_bind (value : α) (rest : α → Except ε β) :
    (Except.ok value >>= rest) = rest value := rfl

@[simp] theorem error_bind (error : ε) (rest : α → Except ε β) :
    (Except.error error >>= rest) = .error error := rfl

theorem bind_eq_ok_iff {first : Except ε α} {rest : α → Except ε β} {result : β} :
    (first >>= rest) = .ok result ↔ ∃ value, first = .ok value ∧ rest value = .ok result := by
  cases first with
  | ok value => simp
  | error error => simp

theorem map_eq_ok_iff {program : Except ε α} {change : α → β} {result : β} :
    program.map change = .ok result ↔ ∃ value, program = .ok value ∧ change value = result := by
  cases program with
  | ok value => simp [Except.map]
  | error error => simp [Except.map]

theorem mapError_eq_ok_iff {program : Except ε α} {change : ε → ε'} {result : α} :
    program.mapError change = .ok result ↔ program = .ok result := by
  cases program with
  | ok value => exact ⟨fun same => congrArg _ (ok.inj same), fun same => congrArg _ (ok.inj same)⟩
  | error error => exact iff_of_false (fun same => by cases same) fun same => by cases same

theorem mapError_eq_error_iff {program : Except ε α} {change : ε → ε'} {error : ε'} :
    program.mapError change = .error error ↔
      ∃ cause, program = .error cause ∧ change cause = error := by
  cases program with
  | ok value =>
      refine iff_of_false (fun same => by cases same) ?_
      rintro ⟨cause, same, _⟩
      cases same
  | error cause =>
      constructor
      · intro same
        exact ⟨cause, rfl, Except.error.inj same⟩
      · rintro ⟨other, same, rfl⟩
        rw [Except.error.inj same]
        rfl

/-- If a program fails, then with an error of the given kind. -/
def RaisesOnly (kind : ε → Prop) (program : Except ε α) : Prop :=
  ∀ error, program = .error error → kind error

namespace RaisesOnly

variable {kind : ε → Prop}

theorem ok (value : α) : RaisesOnly kind (.ok value) := by
  intro error raised
  cases raised

theorem error_iff {error : ε} : RaisesOnly kind (.error error : Except ε α) ↔ kind error := by
  constructor
  · exact fun only => only error rfl
  · intro isKind other raised
    cases raised
    exact isKind

theorem bind_iff {first : Except ε α} {rest : α → Except ε β} :
    RaisesOnly kind (first >>= rest) ↔
      RaisesOnly kind first ∧ ∀ value, first = .ok value → RaisesOnly kind (rest value) := by
  cases first with
  | ok value => simp [ok]
  | error error => simp [error_iff]

theorem mapError_iff {change : ε → ε'} {kind : ε' → Prop} {program : Except ε α} :
    RaisesOnly kind (program.mapError change) ↔
      RaisesOnly (fun error => kind (change error)) program := by
  cases program with
  | ok value => exact iff_of_true (ok value) (ok value)
  | error error =>
      rw [error_iff]
      exact error_iff

theorem mono {larger : ε → Prop} {program : Except ε α} (only : RaisesOnly kind program)
    (included : ∀ error, kind error → larger error) : RaisesOnly larger program :=
  fun error raised => included error (only error raised)

/-- A program all of whose errors are of another kind has to return. -/
theorem iff_isOk_of_not {program : Except ε α} (never : RaisesOnly (fun error => ¬ kind error)
    program) : RaisesOnly kind program ↔ ∃ value, program = .ok value := by
  cases program with
  | ok value => exact iff_of_true (ok value) ⟨value, rfl⟩
  | error error =>
      refine iff_of_false (fun only => error_iff.mp never (error_iff.mp only)) ?_
      rintro ⟨value, same⟩
      cases same

end RaisesOnly

/-- A program that returns on every element of a list returns on the list. -/
theorem exists_mapM_eq_ok {program : α → Except ε β} {elements : List α}
    (returns : ∀ element ∈ elements, ∃ result, program element = .ok result) : ∃ results,
      elements.mapM program = .ok results ∧
        List.Forall₂ (fun element result => program element = .ok result) elements results := by
  induction elements with
  | nil => exact ⟨[], rfl, .nil⟩
  | cons element rest ih =>
      obtain ⟨result, returned⟩ := returns element List.mem_cons_self
      obtain ⟨results, restReturned, related⟩ := ih fun other member =>
        returns other (List.mem_cons_of_mem _ member)
      refine ⟨result :: results, ?_, .cons returned related⟩
      rw [List.mapM_cons, returned, ok_bind, restReturned]
      rfl

end Except
