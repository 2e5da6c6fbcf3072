import Mathlib.Data.Finset.Sort

/-!
# Listing a finite set in ascending order

`sorted` lists a finite set by insertion sort. It is the ascending list of the
set (`sorted_eq_sort`), and unlike the merge sort of the library it is a
structural recursion, so it can be evaluated in a proof by `decide`.
-/

set_option autoImplicit false

universe u

namespace SortedSet

variable {α : Type u} [LinearOrder α]

/-- The members of a finite set in ascending order. -/
def sorted (set : Finset α) : List α :=
  Quot.liftOn set.val (fun members => members.insertionSort (· ≤ ·)) fun first second perm =>
    ((List.perm_insertionSort _ first).trans
      (perm.trans (List.perm_insertionSort _ second).symm)).eq_of_pairwise'
      (List.pairwise_insertionSort _ first) (List.pairwise_insertionSort _ second)

/-- Both sorts list the same members in ascending order. -/
theorem sorted_eq_sort (set : Finset α) : sorted set = set.sort := by
  obtain ⟨members, nodup⟩ := set
  induction members using Quot.ind with
  | mk members =>
      have listed : (Finset.sort ⟨Quot.mk _ members, nodup⟩ (· ≤ ·)).Perm members :=
        Multiset.coe_eq_coe.mp (Finset.sort_eq _ (· ≤ ·))
      exact ((List.perm_insertionSort _ members).trans listed.symm).eq_of_pairwise'
        (List.pairwise_insertionSort _ members) (Finset.pairwise_sort _ _)

@[simp] theorem mem_sorted {set : Finset α} {member : α} : member ∈ sorted set ↔ member ∈ set := by
  rw [sorted_eq_sort, Finset.mem_sort]

theorem sorted_nodup (set : Finset α) : (sorted set).Nodup := by
  rw [sorted_eq_sort]
  exact Finset.sort_nodup _ _

theorem sorted_pairwise_lt (set : Finset α) : (sorted set).Pairwise (· < ·) := by
  rw [sorted_eq_sort]
  exact Finset.sortedLT_sort set |>.pairwise

@[simp] theorem sorted_empty : sorted (∅ : Finset α) = [] := rfl

theorem sorted_eq_nil_iff {set : Finset α} : sorted set = [] ↔ set = ∅ := by
  rw [List.eq_nil_iff_forall_not_mem, Finset.eq_empty_iff_forall_notMem]
  simp only [mem_sorted]

end SortedSet
