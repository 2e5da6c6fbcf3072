import Mathlib.Data.List.Induction
import Mathlib.Order.Defs.Unbundled

/-!
# Attributing nodes to the first source above them

A pass over a list of nodes collects sources. A node that an earlier source
stands above adds none, and any other node adds the source that is picked for it,
if there is one. A node is attributed to the first source above it, and keeps its
attribution when the pass goes on.
-/

set_option autoImplicit false

universe u

namespace Attribution

variable {α : Type u} (above : α → α → Prop) [DecidableRel above] (pick : α → Option α)

/-- The first of some sources above a node. -/
def firstAbove (found : List α) (node : α) : Option α :=
  found.find? fun source => above source node

/-- The source that a node adds to the earlier ones. -/
def newSource (found : List α) (node : α) : Option α :=
  match firstAbove above found node with
  | some _ => none
  | none => pick node

/-- The sources of a pass over a list of nodes. -/
def sources (nodes : List α) : List α :=
  nodes.foldl (fun found node => found ++ (newSource above pick found node).toList) []

variable {above pick} {found nodes : List α} {node source : α}

theorem above_of_firstAbove (first : firstAbove above found node = some source) :
    above source node := by
  rw [firstAbove] at first
  have stands := List.find?_some first
  exact of_decide_eq_true stands

theorem sources_concat (nodes : List α) (node : α) : sources above pick (nodes ++ [node]) =
    sources above pick nodes ++ (newSource above pick (sources above pick nodes) node).toList := by
  rw [sources, List.foldl_append]
  rfl

theorem mem_of_firstAbove (first : firstAbove above found node = some source) : source ∈ found :=
  List.mem_of_find?_eq_some first

/-- A node with an attribution adds no source. -/
theorem sources_concat_of_some
    (first : firstAbove above (sources above pick nodes) node = some source) :
    sources above pick (nodes ++ [node]) = sources above pick nodes := by
  rw [sources_concat, newSource, first]
  exact List.append_nil _

/-- Nor does a node for which none is picked. -/
theorem sources_concat_of_none (noPick : pick node = none) :
    sources above pick (nodes ++ [node]) = sources above pick nodes := by
  rw [sources_concat, newSource, noPick]
  cases firstAbove above (sources above pick nodes) node with
  | none => exact List.append_nil _
  | some _ => exact List.append_nil _

/-- Any other node adds the one that is picked. -/
theorem sources_concat_of_pick
    (first : firstAbove above (sources above pick nodes) node = none)
    (picked : pick node = some source) :
    sources above pick (nodes ++ [node]) = sources above pick nodes ++ [source] := by
  rw [sources_concat, newSource, first]
  dsimp only
  rw [picked]
  rfl

/-- Every source was picked for a node. -/
theorem picked_of_mem_sources (nodes : List α) (member : source ∈ sources above pick nodes) :
    ∃ node, pick node = some source := by
  induction nodes using List.reverseRecOn with
  | nil => exact absurd member List.not_mem_nil
  | append_singleton earlier node ih =>
      cases first : firstAbove above (sources above pick earlier) node with
      | some other =>
          rw [sources_concat_of_some first] at member
          exact ih member
      | none =>
          cases picked : pick node with
          | none =>
              rw [sources_concat_of_none picked] at member
              exact ih member
          | some added =>
              rw [sources_concat_of_pick first picked, List.mem_append,
                List.mem_singleton] at member
              rcases member with old | rfl
              · exact ih old
              · exact ⟨node, picked⟩

/-- A later source does not change an attribution. -/
theorem firstAbove_append_of_some {more : List α}
    (first : firstAbove above found node = some source) :
    firstAbove above (found ++ more) node = some source := by
  rw [firstAbove, List.find?_append, ← firstAbove, first, Option.some_or]

/-- A node without an attribution is attributed to a source that is added above it. -/
theorem firstAbove_concat_of_above (first : firstAbove above found node = none)
    (stands : above source node) : firstAbove above (found ++ [source]) node = some source := by
  rw [firstAbove, List.find?_append, ← firstAbove, first, Option.none_or]
  exact List.find?_cons_of_pos (decide_eq_true stands)

theorem firstAbove_concat_of_not_above (first : firstAbove above found node = none)
    (apart : ¬ above source node) : firstAbove above (found ++ [source]) node = none := by
  rw [firstAbove, List.find?_append, ← firstAbove, first, Option.none_or]
  exact List.find?_cons_of_neg fun stands => apart (of_decide_eq_true stands)

end Attribution
