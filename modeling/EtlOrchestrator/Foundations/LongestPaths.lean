import Mathlib.Order.Lattice.Nat
import Mathlib.Order.RelSeries
import Mathlib.Order.UpperLower.Basic

/-!
# Ranks and longest paths

A rank of a relation grows along it, and a node of positive rank has a
predecessor exactly one below. The rank of a node is then the length of the
longest path that ends at it (`IsRank.isGreatest`).
-/

set_option autoImplicit false

universe u

variable {α : Type u} {relation : α → α → Prop} {rank : α → ℕ}

/-- The lengths of the paths that end at a node. -/
def pathLengths (relation : α → α → Prop) (node : α) : Set ℕ :=
  {length | ∃ path : RelSeries {edge : α × α | relation edge.1 edge.2},
    path.last = node ∧ path.length = length}

/-- A rank grows along the relation, by one from some predecessor. -/
structure IsRank (relation : α → α → Prop) (rank : α → ℕ) : Prop where
  grows : ∀ up node, relation up node → rank up < rank node
  attained : ∀ node, rank node ≠ 0 → ∃ up, relation up node ∧ rank node = rank up + 1

namespace IsRank

/-- A path climbs at least one rank in each step. -/
theorem length_le (isRank : IsRank relation rank)
    (path : RelSeries {edge : α × α | relation edge.1 edge.2}) :
    path.length ≤ rank path.last := by
  induction path using RelSeries.inductionOn' with
  | singleton node => exact Nat.zero_le _
  | snoc path node related ih =>
      have step : rank path.last < rank node := isRank.grows _ _ related
      rw [RelSeries.last_snoc, RelSeries.snoc_length]
      omega

/-- A path that climbs exactly one rank in each step ends at the node. -/
theorem mem_pathLengths (isRank : IsRank relation rank) : ∀ (level : ℕ) (node : α),
    rank node = level → level ∈ pathLengths relation node := by
  intro level
  induction level with
  | zero => exact fun node _ => ⟨RelSeries.singleton _ node, rfl, rfl⟩
  | succ level ih =>
      intro node same
      obtain ⟨up, related, above⟩ := isRank.attained node (by omega)
      obtain ⟨path, ends, long⟩ := ih up (by omega)
      subst ends
      refine ⟨path.snoc node related, RelSeries.last_snoc _ _ _, ?_⟩
      rw [RelSeries.snoc_length, long]

/-- **The rank of a node is the length of the longest path that ends at it.** -/
theorem isGreatest (isRank : IsRank relation rank) (node : α) :
    IsGreatest (pathLengths relation node) (rank node) := by
  refine ⟨isRank.mem_pathLengths _ node rfl, ?_⟩
  rintro length ⟨path, rfl, rfl⟩
  exact isRank.length_le path

theorem lt_of_below (isRank : IsRank relation rank) {up node : α}
    (below : Relation.TransGen relation up node) : rank up < rank node := by
  induction below with
  | single related => exact isRank.grows _ _ related
  | tail _ related ih => exact ih.trans (isRank.grows _ _ related)

end IsRank

/-- A finite set of ranks without gaps is an initial segment. -/
theorem exists_eq_range_of_pred_mem {ranks : Finset ℕ}
    (pred_mem : ∀ level, level + 1 ∈ ranks → level ∈ ranks) :
    ∃ bound, ranks = Finset.range bound := by
  have lower : IsLowerSet (ranks : Set ℕ) := by
    intro level smaller below member
    induction level, below using Nat.le_induction with
    | base => exact member
    | succ level _ ih => exact ih (pred_mem level member)
  rcases lower.eq_univ_or_Iio with all | ⟨bound, initial⟩
  · exact absurd (all ▸ ranks.finite_toSet) Set.infinite_univ
  · refine ⟨bound, Finset.coe_injective ?_⟩
    rw [initial, Finset.coe_range]
