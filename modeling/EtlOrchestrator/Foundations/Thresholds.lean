import Mathlib.Data.Finset.Card
import Mathlib.Data.List.Induction

/-!
# Nodes that fire at a threshold

Every node has finitely many sources and a threshold. A node fires when at least as
many of its sources have fired. `Fires` is the least set of nodes with this property.

A list of nodes of which each one finds its threshold met by the nodes before it
holds only nodes that fire (`fires_of_paid`), and a set that leaves out no node whose
threshold it meets holds all of them (`Fires.mem_of_closed`).
-/

set_option autoImplicit false

universe u

variable {α : Type u} {isNode : α → Prop} {sources : α → Finset α} {threshold : α → ℕ}

/-- A node fires when enough of its sources do. -/
inductive Fires (isNode : α → Prop) (sources : α → Finset α) (threshold : α → ℕ) : α → Prop where
  | intro {node : α} (known : isNode node) (fired : Finset α) (among : fired ⊆ sources node)
      (enough : threshold node ≤ fired.card)
      (each : ∀ source ∈ fired, Fires isNode sources threshold source) :
      Fires isNode sources threshold node

variable [DecidableEq α]

/-- A set that holds every node whose threshold it meets holds every node that fires. -/
theorem Fires.mem_of_closed {set : Finset α} (closed : ∀ node, isNode node →
    threshold node ≤ (sources node ∩ set).card → node ∈ set) {node : α}
    (fires : Fires isNode sources threshold node) : node ∈ set := by
  induction fires with
  | intro known fired among enough _ ih =>
      apply closed _ known
      exact enough.trans (Finset.card_le_card (Finset.subset_inter among ih))

/-- The nodes of a list fire when each one finds its threshold met by those before it. -/
theorem fires_of_paid (order : List α) (known : ∀ node ∈ order, isNode node)
    (paid : ∀ earlier node later, order = earlier ++ node :: later →
      threshold node ≤ (sources node ∩ earlier.toFinset).card) :
    ∀ node ∈ order, Fires isNode sources threshold node := by
  induction order using List.reverseRecOn with
  | nil => exact fun node member => absurd member List.not_mem_nil
  | append_singleton earlier last ih =>
      have before := ih (fun node member => known node (List.mem_append_left _ member))
        fun first node later split => paid first node (later ++ [last]) (by simp [split])
      intro node member
      rcases List.mem_append.mp member with old | isLast
      · exact before node old
      · obtain rfl := List.mem_singleton.mp isLast
        refine .intro (known node member) _ Finset.inter_subset_left (paid earlier node [] rfl) ?_
        intro source inBoth
        exact before source (List.mem_toFinset.mp (Finset.mem_inter.mp inBoth).2)
