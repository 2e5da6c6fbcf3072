import Mathlib.Logic.Relation

/-!
# Replacing the edges into a node

In an acyclic graph the edges into one node are replaced by edges from other
sources. The new graph is acyclic if and only if none of these sources can be
reached from the node (`Rewired.acyclic_iff`).
-/

set_option autoImplicit false

universe u

open Relation

variable {α : Type u} {edge : α → α → Prop} {node : α} {sources : α → Prop}

/-- The edges of a graph, with those into a node replaced by edges from its sources. -/
def Rewired (edge : α → α → Prop) (node : α) (sources : α → Prop) (up child : α) : Prop :=
  child ≠ node ∧ edge up child ∨ child = node ∧ sources up

namespace Rewired

/-- As long as no source is reached from the node, nothing new is. -/
theorem reaches (apart : ∀ up, sources up → ¬ ReflTransGen edge node up) {other : α}
    (path : ReflTransGen (Rewired edge node sources) node other) :
    ReflTransGen edge node other := by
  induction path with
  | refl => exact .refl
  | tail _ last ih =>
      rcases last with ⟨_, old⟩ | ⟨_, source⟩
      · exact ih.tail old
      · exact absurd ih (apart _ source)

/-- A path of the old graph that starts at the node does not come back to it. -/
theorem of_reaches (acyclic : ∀ other, ¬ TransGen edge other other) {other : α}
    (path : ReflTransGen edge node other) :
    ReflTransGen (Rewired edge node sources) node other := by
  induction path with
  | refl => exact .refl
  | tail earlier last ih =>
      refine ih.tail (.inl ⟨fun same => ?_, last⟩)
      exact acyclic node (.tail' earlier (same ▸ last))

/-- A path of the new graph is one of the old graph, or it goes through the node. -/
theorem trans_cases {first last : α} (path : TransGen (Rewired edge node sources) first last) :
    TransGen edge first last ∨ ReflTransGen (Rewired edge node sources) first node ∧
      ReflTransGen (Rewired edge node sources) node last := by
  induction path with
  | single step =>
      rcases step with ⟨_, old⟩ | ⟨rfl, source⟩
      · exact .inl (.single old)
      · exact .inr ⟨.single (.inr ⟨rfl, source⟩), .refl⟩
  | tail earlier step ih =>
      rcases step with ⟨different, old⟩ | ⟨rfl, source⟩
      · rcases ih with path | ⟨before, after⟩
        · exact .inl (path.tail old)
        · exact .inr ⟨before, after.tail (.inl ⟨different, old⟩)⟩
      · exact .inr ⟨earlier.to_reflTransGen.tail (.inr ⟨rfl, source⟩), .refl⟩

/-- **The new graph is acyclic if and only if no source is reached from the node.** -/
theorem acyclic_iff (acyclic : ∀ other, ¬ TransGen edge other other) :
    (∀ other, ¬ TransGen (Rewired edge node sources) other other) ↔
      ∀ up, sources up → ¬ ReflTransGen edge node up := by
  constructor
  · intro newAcyclic up source path
    exact newAcyclic node (.tail' (of_reaches acyclic path) (.inr ⟨rfl, source⟩))
  · intro apart other cycle
    -- A new cycle goes through the node, and enters it from a source.
    have atNode : TransGen (Rewired edge node sources) node node := by
      rcases trans_cases cycle with old | ⟨before, after⟩
      · exact absurd old (acyclic other)
      · exact (TransGen.trans_right after cycle).trans_left before
    obtain ⟨up, path, last⟩ := TransGen.tail'_iff.mp atNode
    rcases last with ⟨different, _⟩ | ⟨_, source⟩
    · exact different rfl
    · exact apart up source (reaches apart path)

end Rewired
