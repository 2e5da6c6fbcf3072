import Mathlib.Data.List.Nodup

/-!
# Rows and their last updates

A journal of updates is applied to a list of rows: an update takes the rows with its key out, and
may put one in at the end. What is left are the old rows that no update concerns, and behind them
the rows of the updates that are the last ones of their keys (`foldl_applyUpdate`).
-/

set_option autoImplicit false

universe u v

namespace LastUpdates

variable {ρ : Type u} {κ : Type v} [DecidableEq κ]

/-- An update of a key, with the row that it puts in. -/
abbrev Update (κ : Type v) (ρ : Type u) := κ × Option ρ

/-- The rows after an update. -/
def applyUpdate (key : ρ → κ) (rows : List ρ) (update : Update κ ρ) : List ρ :=
  rows.filter (key · ≠ update.1) ++ update.2.toList

/-- The rows of the updates that no later one of the same key follows. -/
def lasting : List (Update κ ρ) → List ρ
  | [] => []
  | (updated, row) :: later =>
      if updated ∈ later.map Prod.fst then lasting later else row.toList ++ lasting later

/-- Each update puts in a row with its key. -/
def Keyed (key : ρ → κ) (journal : List (Update κ ρ)) : Prop :=
  ∀ update ∈ journal, ∀ row ∈ update.2, key row = update.1

/-- The rows that are left of old ones and of a journal. -/
def leftOf (key : ρ → κ) (rows : List ρ) (journal : List (Update κ ρ)) : List ρ :=
  rows.filter (key · ∉ journal.map Prod.fst) ++ lasting journal

variable {key : ρ → κ} {journal : List (Update κ ρ)}

omit [DecidableEq κ] in
theorem Keyed.tail {update : Update κ ρ} (keyed : Keyed key (update :: journal)) :
    Keyed key journal := fun other member => keyed other (List.mem_cons_of_mem _ member)

/-- The row of an update is taken out by a later one of its key. -/
theorem filter_row {update : Update κ ρ} (keyed : ∀ row ∈ update.2, key row = update.1)
    (keys : List κ) : update.2.toList.filter (key · ∉ keys) =
      if update.1 ∈ keys then [] else update.2.toList := by
  obtain ⟨updated, row⟩ := update
  cases row with
  | none => simp
  | some row =>
      have same : key row = updated := keyed row rfl
      by_cases again : updated ∈ keys <;> simp [same, again]

/-- **What is left when all updates have been applied.** -/
theorem foldl_applyUpdate (rows : List ρ) (keyed : Keyed key journal) :
    journal.foldl (applyUpdate key) rows = leftOf key rows journal := by
  induction journal generalizing rows with
  | nil => simp [leftOf, lasting]
  | cons update later ih =>
      have old : (rows.filter (key · ≠ update.1)).filter (key · ∉ later.map Prod.fst) =
          rows.filter (key · ∉ (update :: later).map Prod.fst) := by
        rw [List.filter_filter]
        refine List.filter_congr fun row _ => ?_
        rw [List.map_cons]
        simp only [List.mem_cons, not_or, ← Bool.decide_and]
        exact decide_eq_decide.mpr and_comm
      rw [List.foldl_cons, ih _ keyed.tail, leftOf, leftOf, applyUpdate, List.filter_append, old,
        filter_row (keyed update List.mem_cons_self), lasting, List.append_assoc]
      split <;> rfl

/-- A row lasts if and only if its update is the last one of its key. -/
theorem mem_lasting_iff {row : ρ} : row ∈ lasting journal ↔ ∃ earlier updated later,
    journal = earlier ++ (updated, some row) :: later ∧ updated ∉ later.map Prod.fst := by
  induction journal with
  | nil => simp [lasting]
  | cons update rest ih =>
      obtain ⟨first, put⟩ := update
      have here : (∃ earlier updated later,
          (first, put) :: rest = earlier ++ (updated, some row) :: later ∧
            updated ∉ later.map Prod.fst) ↔
          (put = some row ∧ first ∉ rest.map Prod.fst) ∨ row ∈ lasting rest := by
        rw [ih]
        constructor
        · rintro ⟨earlier, updated, later, split, isLast⟩
          cases earlier with
          | nil =>
              cases split
              exact .inl ⟨rfl, isLast⟩
          | cons update earlier =>
              cases split
              exact .inr ⟨earlier, updated, later, rfl, isLast⟩
        · rintro (⟨rfl, isLast⟩ | ⟨earlier, updated, later, rfl, isLast⟩)
          · exact ⟨[], first, rest, rfl, isLast⟩
          · exact ⟨(first, put) :: earlier, updated, later, rfl, isLast⟩
      rw [here, lasting]
      split
      · next again => simp [again]
      · next isLast => simp [isLast]

/-- The rows stand in the order of their updates. -/
theorem lasting_sublist (journal : List (Update κ ρ)) :
    (lasting journal).Sublist (journal.filterMap Prod.snd) := by
  induction journal with
  | nil => exact List.Sublist.slnil
  | cons update later ih =>
      obtain ⟨updated, row⟩ := update
      rw [lasting, List.filterMap_cons]
      cases row with
      | none =>
          split <;> exact ih
      | some row =>
          split
          · exact ih.cons row
          · exact ih.cons_cons row

/-- Of each key one row lasts at most. -/
theorem nodup_lasting (keyed : Keyed key journal) : ((lasting journal).map key).Nodup := by
  induction journal with
  | nil => exact List.nodup_nil
  | cons update later ih =>
      obtain ⟨updated, row⟩ := update
      rw [lasting]
      split
      · exact ih keyed.tail
      · next isLast =>
        cases row with
        | none => exact ih keyed.tail
        | some row =>
            refine List.nodup_cons.mpr ⟨fun member => isLast ?_, ih keyed.tail⟩
            have same : key row = updated := keyed (updated, some row) List.mem_cons_self row rfl
            obtain ⟨other, lasts, sameKey⟩ := List.mem_map.mp member
            obtain ⟨earlier, again, rest, rfl, _⟩ := mem_lasting_iff.mp lasts
            have inLater : (again, some other) ∈ earlier ++ (again, some other) :: rest :=
              List.mem_append_right _ List.mem_cons_self
            have otherKey := keyed.tail _ inLater other rfl
            rw [← same, ← sameKey, otherKey]
            exact List.mem_map_of_mem inLater

/-- Renamed updates last if and only if the updates do. -/
theorem lasting_map {ρ' : Type u} {κ' : Type v} [DecidableEq κ'] {rename : κ → κ'}
    (injective : Function.Injective rename) (change : ρ → ρ') (journal : List (Update κ ρ)) :
    lasting (journal.map fun update => (rename update.1, update.2.map change)) =
      (lasting journal).map change := by
  induction journal with
  | nil => rfl
  | cons update later ih =>
      obtain ⟨updated, row⟩ := update
      have again : rename updated ∈ (later.map fun update =>
          (rename update.1, update.2.map change)).map Prod.fst ↔
          updated ∈ later.map Prod.fst := by
        rw [List.map_map, ← List.mem_map_of_injective injective, List.map_map]
        rfl
      rw [List.map_cons, lasting, lasting, if_congr again rfl rfl, ih]
      split
      · rfl
      · rw [List.map_append]
        cases row <;> rfl

end LastUpdates
