import Mathlib.Data.List.Nodup
import Mathlib.Data.List.Sort
import Mathlib.Logic.Relation
import EtlOrchestrator.Foundations.LinearExtension

/-!
# Layerings of a relation

A layering of a relation on a finite set splits the members into a sequence of
layers such that every predecessor of a member stands in a strictly earlier
layer. A linear extension is a layering by single members, and a rank that grows
along the relation gives the layering by equal ranks.
-/

set_option autoImplicit false

universe u

variable {α : Type u}

/-- Layers of the members of a set that put predecessors in earlier layers. -/
structure IsLayering (relation : α → α → Prop) (members : Finset α)
    (layers : List (List α)) : Prop where
  nodup : layers.flatten.Nodup
  mem_iff : ∀ node, node ∈ layers.flatten ↔ node ∈ members
  respects : ∀ earlier layer later, layers = earlier ++ layer :: later →
    ∀ node ∈ layer, ∀ up ∈ members, relation up node → up ∈ earlier.flatten

variable {relation : α → α → Prop} {members : Finset α}

/-- The single members of a linear extension are layers. -/
theorem IsLinearExtension.layering {order : List α}
    (extension : IsLinearExtension relation members order) :
    IsLayering relation members (order.map ([·])) where
  nodup := by rw [← List.flatMap_def, List.flatMap_singleton']; exact extension.nodup
  mem_iff node := by rw [← List.flatMap_def, List.flatMap_singleton', extension.mem_iff]
  respects := by
    intro earlier layer later split node inLayer up upMember related
    obtain ⟨before, rest, rfl, rfl, tail⟩ := List.map_eq_append_iff.mp split
    obtain ⟨single, after, rfl, rfl, rfl⟩ := List.map_eq_cons_iff.mp tail
    obtain rfl := List.mem_singleton.mp inLayer
    rw [← List.flatMap_def, List.flatMap_singleton']
    exact extension.respects before node after rfl up upMember related

namespace IsLayering

/-- The layering by a rank that grows along the relation. -/
theorem of_rank (rank : α → ℕ) {ranks : List ℕ} {layerOf : ℕ → List α}
    (ascending : ranks.Pairwise (· < ·)) (nodupLayer : ∀ level, (layerOf level).Nodup)
    (mem_layer : ∀ level node, node ∈ layerOf level ↔ node ∈ members ∧ rank node = level)
    (mem_ranks : ∀ node ∈ members, rank node ∈ ranks)
    (grows : ∀ up node, up ∈ members → node ∈ members → relation up node →
      rank up < rank node) :
    IsLayering relation members (ranks.map layerOf) where
  nodup := by
    rw [List.nodup_flatten]
    constructor
    · intro layer inLayers
      obtain ⟨level, _, rfl⟩ := List.mem_map.mp inLayers
      exact nodupLayer level
    · rw [List.pairwise_map]
      refine ascending.imp fun {first second} smaller => ?_
      intro node inFirst inSecond
      have firstRank := ((mem_layer first node).mp inFirst).2
      have secondRank := ((mem_layer second node).mp inSecond).2
      omega
  mem_iff node := by
    rw [List.mem_flatten]
    constructor
    · rintro ⟨layer, inLayers, inLayer⟩
      obtain ⟨level, _, rfl⟩ := List.mem_map.mp inLayers
      exact ((mem_layer level node).mp inLayer).1
    · intro member
      exact ⟨layerOf (rank node), List.mem_map_of_mem (mem_ranks node member),
        (mem_layer _ node).mpr ⟨member, rfl⟩⟩
  respects := by
    intro earlier layer later split node inLayer up upMember related
    obtain ⟨before, rest, rfl, rfl, tail⟩ := List.map_eq_append_iff.mp split
    obtain ⟨level, after, rfl, rfl, rfl⟩ := List.map_eq_cons_iff.mp tail
    obtain ⟨member, same⟩ := (mem_layer level node).mp inLayer
    have smaller : rank up < level := same ▸ grows up node upMember member related
    have notLater : rank up ∉ level :: after := by
      intro inTail
      rcases List.mem_cons.mp inTail with isLevel | inAfter
      · omega
      · have := List.rel_of_pairwise_cons (List.pairwise_append.mp ascending).2.1 inAfter
        omega
    have inBefore : rank up ∈ before :=
      (List.mem_append.mp (mem_ranks up upMember)).resolve_right notLater
    exact List.mem_flatten.mpr ⟨layerOf (rank up), List.mem_map_of_mem inBefore,
      (mem_layer _ up).mpr ⟨upMember, rfl⟩⟩

variable {layers : List (List α)}

/-- An empty layer may stand in front. -/
theorem nil_cons (layering : IsLayering relation members layers) :
    IsLayering relation members ([] :: layers) where
  nodup := layering.nodup
  mem_iff := layering.mem_iff
  respects := by
    intro earlier layer later split node inLayer up upMember related
    cases earlier with
    | nil =>
        cases split
        exact absurd inLayer List.not_mem_nil
    | cons first rest =>
        obtain ⟨rfl, tail⟩ := List.cons.inj split
        exact layering.respects rest layer later tail node inLayer up upMember related

/-- The predecessors of a member of an initial part lie in that part. -/
theorem pred_mem (layering : IsLayering relation members layers) {earlier later : List (List α)}
    (split : layers = earlier ++ later) {node up : α} (inEarlier : node ∈ earlier.flatten)
    (upMember : up ∈ members) (related : relation up node) : up ∈ earlier.flatten := by
  obtain ⟨layer, inLayers, inLayer⟩ := List.mem_flatten.mp inEarlier
  obtain ⟨before, after, rfl⟩ := List.append_of_mem inLayers
  have inBefore := layering.respects before layer (after ++ later) (by simpa using split) node
    inLayer up upMember related
  rw [List.flatten_append]
  exact List.mem_append_left _ inBefore

/-- So do all its ancestors. -/
theorem ancestor_mem (layering : IsLayering relation members layers)
    (closed : ∀ up node, relation up node → up ∈ members) {earlier later : List (List α)}
    (split : layers = earlier ++ later) {ancestor node : α}
    (above : Relation.TransGen relation ancestor node) (inEarlier : node ∈ earlier.flatten) :
    ancestor ∈ earlier.flatten := by
  induction above with
  | single related => exact layering.pred_mem split inEarlier (closed _ _ related) related
  | tail _ related ih =>
      exact ih (layering.pred_mem split inEarlier (closed _ _ related) related)

end IsLayering
