import Mathlib.Data.Finset.Insert
import Mathlib.Logic.Relation

/-!
# Worklist walks of a graph

A walk keeps the nodes that it has visited and a list of nodes to come. It takes
the first node of the list, drops it when it was visited before, and otherwise
visits it and appends its children. `Covers` is the invariant of such a walk
from the children of a node, and when the list is empty every node below has
been visited (`Covers.mem_of_below`).
-/

set_option autoImplicit false

universe u

open Relation

variable {α : Type u} {edge : α → α → Prop} {start node : α} {visited : Finset α}
  {toCome children : List α}

/-- When a node is visited, all that is still to come stays below the start. -/
theorem below_of_visit (below : ∀ other ∈ node :: toCome, TransGen edge start other)
    (isChild : ∀ child ∈ children, edge node child) :
    ∀ other ∈ toCome ++ children, TransGen edge start other := by
  intro other member
  rcases List.mem_append.mp member with later | child
  · exact below other (List.mem_cons_of_mem _ later)
  · exact (below node List.mem_cons_self).tail (isChild other child)

/-- Each child of the start or of a visited node is visited or to come. -/
structure Covers (edge : α → α → Prop) (start : α) (toCome : List α) (visited : Finset α) :
    Prop where
  start : ∀ child, edge start child → child ∈ visited ∨ child ∈ toCome
  closed : ∀ node ∈ visited, ∀ child, edge node child → child ∈ visited ∨ child ∈ toCome

namespace Covers

/-- A walk begins with the children of its start. -/
theorem begin (complete : ∀ child, edge start child → child ∈ toCome) :
    Covers edge start toCome ∅ where
  start child below := .inr (complete child below)
  closed node member := absurd member (Finset.notMem_empty node)

/-- A node that was visited before is dropped. -/
theorem skip (covers : Covers edge start (node :: toCome) visited) (seen : node ∈ visited) :
    Covers edge start toCome visited := by
  have kept : ∀ child, child ∈ visited ∨ child ∈ node :: toCome →
      child ∈ visited ∨ child ∈ toCome := by
    rintro child (old | member)
    · exact .inl old
    · rcases List.mem_cons.mp member with rfl | later
      · exact .inl seen
      · exact .inr later
  exact ⟨fun child below => kept child (covers.start child below),
    fun other member child below => kept child (covers.closed other member child below)⟩

/-- A visited node leaves its children to come. -/
theorem visit [DecidableEq α] (covers : Covers edge start (node :: toCome) visited)
    (complete : ∀ child, edge node child → child ∈ children) :
    Covers edge start (toCome ++ children) (insert node visited) := by
  have kept : ∀ child, child ∈ visited ∨ child ∈ node :: toCome →
      child ∈ insert node visited ∨ child ∈ toCome ++ children := by
    rintro child (old | member)
    · exact .inl (Finset.mem_insert_of_mem old)
    · rcases List.mem_cons.mp member with rfl | later
      · exact .inl (Finset.mem_insert_self _ _)
      · exact .inr (List.mem_append_left _ later)
  refine ⟨fun child below => kept child (covers.start child below), fun other member => ?_⟩
  rcases Finset.mem_insert.mp member with rfl | old
  · exact fun child below => .inr (List.mem_append_right _ (complete child below))
  · exact fun child below => kept child (covers.closed other old child below)

/-- A walk that has ended has visited every node below its start. -/
theorem mem_of_below (covers : Covers edge start [] visited) (below : TransGen edge start node) :
    node ∈ visited := by
  induction below with
  | single first => exact (covers.start _ first).resolve_right List.not_mem_nil
  | tail _ next ih => exact (covers.closed _ ih _ next).resolve_right List.not_mem_nil

end Covers
