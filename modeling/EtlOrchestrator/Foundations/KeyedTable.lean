import Mathlib.Data.List.Nodup
import Mathlib.Data.List.Sort

/-!
# Tables with a primary key

A table is a list of rows with pairwise distinct keys. Rows are inserted at the
end, a row may replace the one with its key, and rows are deleted and selected by
a condition on them.

A write is seen at its key and nowhere else (`find?_insertOrReplace`,
`find?_insertOrReplace_of_ne`), and what a write does to a selection is said by
`select_insert`, `select_delete` and `select_delete_self`. The first row of a
selection that is ordered by a rank is one of greatest rank
(`head?_orderByDesc_iff`).
-/

set_option autoImplicit false

universe u v w

/-- A table whose rows have pairwise distinct keys. -/
@[ext] structure KeyedTable (ρ : Type u) {κ : Type v} (key : ρ → κ) where
  rows : List ρ
  distinct : (rows.map key).Nodup

namespace KeyedTable

variable {ρ : Type u} {κ : Type v} {key : ρ → κ}

/-- The table without rows. -/
def empty : KeyedTable ρ key := ⟨[], List.nodup_nil⟩

instance : EmptyCollection (KeyedTable ρ key) := ⟨empty⟩

@[simp] theorem rows_empty : (∅ : KeyedTable ρ key).rows = [] := rfl

/-- The rows that satisfy a condition, in the order of the table. -/
def select (table : KeyedTable ρ key) (condition : ρ → Bool) : List ρ :=
  table.rows.filter condition

/-- Delete the rows that satisfy a condition. -/
def delete (table : KeyedTable ρ key) (condition : ρ → Bool) : KeyedTable ρ key where
  rows := table.rows.filter fun row => !condition row
  distinct := (List.filter_sublist.map key).nodup table.distinct

/-- A key that no row has can be added at the end. -/
theorem nodup_append {rows : List ρ} {row : ρ} (distinct : (rows.map key).Nodup)
    (fresh : key row ∉ rows.map key) : ((rows ++ [row]).map key).Nodup := by
  rw [List.map_append, List.nodup_append]
  refine ⟨distinct, List.nodup_singleton _, fun first member second single => ?_⟩
  rw [List.map_singleton, List.mem_singleton] at single
  rintro rfl
  exact fresh (single ▸ member)

theorem select_delete {table : KeyedTable ρ key} {deleted condition : ρ → Bool}
    (apart : ∀ row, condition row = true → deleted row = false) :
    (table.delete deleted).select condition = table.select condition := by
  rw [select, delete, List.filter_filter, select]
  congr 1
  funext row
  cases chosen : condition row with
  | false => rfl
  | true => simp [apart row chosen]

theorem select_delete_self (table : KeyedTable ρ key) (condition : ρ → Bool) :
    (table.delete condition).select condition = [] := by
  simp [select, delete]

variable [DecidableEq κ]

/-- The row with a key. -/
def find? (table : KeyedTable ρ key) (wanted : κ) : Option ρ :=
  table.rows.find? fun row => key row = wanted

/-- Insert a row, unless its key is present. -/
def insert? (table : KeyedTable ρ key) (row : ρ) : Option (KeyedTable ρ key) :=
  if fresh : key row ∉ table.rows.map key then
    some ⟨table.rows ++ [row], nodup_append table.distinct fresh⟩
  else none

/-- The rows without the one that has a key. -/
def without (table : KeyedTable ρ key) (wanted : κ) : KeyedTable ρ key :=
  table.delete fun row => key row = wanted

theorem not_mem_without (table : KeyedTable ρ key) (wanted : κ) :
    wanted ∉ (table.without wanted).rows.map key := by
  simp [without, delete]

/-- Insert a row in place of the one with its key. -/
def insertOrReplace (table : KeyedTable ρ key) (row : ρ) : KeyedTable ρ key :=
  ⟨(table.without (key row)).rows ++ [row],
    nodup_append (table.without (key row)).distinct (table.not_mem_without (key row))⟩

/-! ## Reading after writing -/

@[simp] theorem find?_empty (wanted : κ) : (∅ : KeyedTable ρ key).find? wanted = none := rfl

theorem find?_insertOrReplace_of_ne (table : KeyedTable ρ key) {row : ρ} {wanted : κ}
    (different : wanted ≠ key row) :
    (table.insertOrReplace row).find? wanted = table.find? wanted := by
  simp only [find?, insertOrReplace, without, delete, List.find?_append, List.find?_filter]
  have notNew : [row].find? (fun row => key row = wanted) = none := by
    simp [different.symm]
  rw [notNew, Option.or_none]
  congr 1
  funext other
  by_cases same : key other = wanted
  · simp [same, different]
  · simp [same]

@[simp] theorem find?_insertOrReplace_self (table : KeyedTable ρ key) (row : ρ) :
    (table.insertOrReplace row).find? (key row) = some row := by
  have absent : (table.without (key row)).rows.find? (fun other => key other = key row) = none := by
    rw [List.find?_eq_none]
    intro other member same
    exact table.not_mem_without (key row)
      (List.mem_map.mpr ⟨other, member, of_decide_eq_true same⟩)
  simp [find?, insertOrReplace, List.find?_append, absent]

theorem mem_insertOrReplace {table : KeyedTable ρ key} {row other : ρ} :
    other ∈ (table.insertOrReplace row).rows ↔
      other = row ∨ other ∈ table.rows ∧ key other ≠ key row := by
  simp [insertOrReplace, without, delete, or_comm]

/-- A row is inserted exactly when the rows with it make a table. -/
theorem insert?_eq_some_iff {table next : KeyedTable ρ key} {row : ρ} :
    table.insert? row = some next ↔ next.rows = table.rows ++ [row] := by
  by_cases fresh : key row ∉ table.rows.map key
  · rw [insert?, dif_pos fresh, Option.some_inj, KeyedTable.ext_iff, eq_comm]
  · rw [insert?, dif_neg fresh]
    refine iff_of_false (by simp) fun same => fresh ?_
    have distinct := next.distinct
    rw [same, List.map_append, List.nodup_append] at distinct
    exact fun present => distinct.2.2 _ present _ (by simp) rfl

end KeyedTable

/-! ## Ordered selections -/

/-- The rows in descending order of a rank. -/
def orderByDesc {ρ : Type u} {α : Type w} [LinearOrder α] (rank : ρ → α) (rows : List ρ) : List ρ :=
  rows.insertionSort fun first second => rank second ≤ rank first

section

variable {ρ : Type u} {α : Type w} [LinearOrder α] {rank : ρ → α} {rows : List ρ}

theorem orderByDesc_perm : (orderByDesc rank rows).Perm rows := List.perm_insertionSort _ rows

theorem pairwise_orderByDesc :
    (orderByDesc rank rows).Pairwise fun first second => rank second ≤ rank first := by
  have total : Std.Total fun first second : ρ => rank second ≤ rank first :=
    ⟨fun first second => le_total (rank second) (rank first)⟩
  have trans : IsTrans ρ fun first second => rank second ≤ rank first :=
    ⟨fun _ _ _ firstGreater secondGreater => secondGreater.trans firstGreater⟩
  exact List.pairwise_insertionSort _ rows

/-- The first row is the one of greatest rank, when the ranks are distinct. -/
theorem head?_orderByDesc_iff (distinct : (rows.map rank).Nodup) {row : ρ} :
    (orderByDesc rank rows).head? = some row ↔
      row ∈ rows ∧ ∀ other ∈ rows, rank other ≤ rank row := by
  have perm : (orderByDesc rank rows).Perm rows := orderByDesc_perm
  have sorted : (orderByDesc rank rows).Pairwise fun first second => rank second ≤ rank first :=
    pairwise_orderByDesc
  cases listed : orderByDesc rank rows with
  | nil =>
      rw [listed] at perm
      simp [List.nil_perm.mp perm]
  | cons first rest =>
      rw [listed] at perm sorted
      have greatest : ∀ other ∈ rows, rank other ≤ rank first := by
        intro other member
        rcases List.mem_cons.mp (perm.mem_iff.mpr member) with rfl | inRest
        · exact le_refl _
        · exact List.rel_of_pairwise_cons sorted inRest
      have firstMember : first ∈ rows := perm.mem_iff.mp List.mem_cons_self
      rw [List.head?_cons, Option.some_inj]
      constructor
      · rintro rfl
        exact ⟨firstMember, greatest⟩
      · rintro ⟨member, maximal⟩
        exact List.inj_on_of_nodup_map distinct firstMember member
          (le_antisymm (maximal first firstMember) (greatest row member))

end
