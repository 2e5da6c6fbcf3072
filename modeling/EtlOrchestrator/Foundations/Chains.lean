import Mathlib.Data.List.Chain
import EtlOrchestrator.Foundations.LinearExtension

/-!
# Relations along a chain

When a relation holds exactly between the consecutive members of a list without
repetitions, the list is a linear extension of the relation
(`IsLinearExtension.of_consecutive`), and the only one
(`IsLinearExtension.eq_of_isChain`).
-/

set_option autoImplicit false

universe u

variable {α : Type u}

/-- Consecutive members stand next to each other. -/
theorem mem_consecutivePairs_iff {chain : List α} {up node : α} :
    (up, node) ∈ chain.consecutivePairs ↔
      ∃ earlier later, chain = earlier ++ up :: node :: later := by
  induction chain with
  | nil => simp
  | cons first rest ih =>
      cases rest with
      | nil =>
          refine iff_of_false List.not_mem_nil ?_
          rintro ⟨earlier, later, split⟩
          have long := congrArg List.length split
          simp only [List.length_append, List.length_cons, List.length_nil] at long
          omega
      | cons second others =>
          rw [List.consecutivePairs, List.tail_cons, List.zip_cons_cons, List.mem_cons]
          constructor
          · rintro (same | inRest)
            · obtain ⟨rfl, rfl⟩ := Prod.mk.inj same
              exact ⟨[], others, rfl⟩
            · obtain ⟨earlier, later, split⟩ := ih.mp inRest
              exact ⟨first :: earlier, later, by rw [split, List.cons_append]⟩
          · rintro ⟨earlier, later, split⟩
            cases earlier with
            | nil =>
                cases split
                exact .inl rfl
            | cons other earlier =>
                obtain ⟨_, tail⟩ := List.cons.inj split
                exact .inr (ih.mpr ⟨earlier, later, tail⟩)

/-- The relation holds along the list. -/
theorem isChain_iff_consecutivePairs {relation : α → α → Prop} {chain : List α} :
    chain.IsChain relation ↔
      ∀ up node, (up, node) ∈ chain.consecutivePairs → relation up node := by
  rw [List.isChain_iff_forall_rel_of_append_cons_cons]
  constructor
  · intro along up node pair
    obtain ⟨earlier, later, split⟩ := mem_consecutivePairs_iff.mp pair
    exact along split
  · intro pairs up node earlier later split
    exact pairs up node (mem_consecutivePairs_iff.mpr ⟨earlier, later, split⟩)

/-- A member behind another one has a predecessor that is not before that one. -/
theorem exists_pred_of_isChain {relation : α → α → Prop} {earlier rest : List α} {node later : α}
    (along : (earlier ++ node :: rest).IsChain relation) (behind : later ∈ rest) :
    ∃ up ∈ node :: rest, relation up later := by
  obtain ⟨before, after, rfl⟩ := List.append_of_mem behind
  obtain ⟨start, up, split⟩ : ∃ start up, node :: before = start ++ [up] :=
    ⟨_, _, (List.dropLast_append_getLast (List.cons_ne_nil node before)).symm⟩
  have whole : earlier ++ node :: (before ++ later :: after) =
      (earlier ++ start) ++ up :: later :: after := by
    rw [← List.cons_append, split]
    simp
  refine ⟨up, ?_, List.isChain_iff_forall_rel_of_append_cons_cons.mp along whole⟩
  rw [← List.cons_append, split]
  simp

namespace IsLinearExtension

variable {relation : α → α → Prop} {members : Finset α} {chain order : List α}

/-- A list is an order of a relation between consecutive members only. -/
theorem of_consecutive (nodup : chain.Nodup) (mem_iff : ∀ node, node ∈ chain ↔ node ∈ members)
    (consecutive : ∀ up node, relation up node → (up, node) ∈ chain.consecutivePairs) :
    IsLinearExtension relation members chain where
  nodup := nodup
  mem_iff := mem_iff
  respects := by
    intro earlier node later split up _ related
    obtain ⟨before, after, pair⟩ := mem_consecutivePairs_iff.mp (consecutive up node related)
    rw [split] at nodup
    have notEarlier : node ∉ earlier := fun member =>
      List.disjoint_of_nodup_append nodup member List.mem_cons_self
    have notLater : node ∉ later := (List.nodup_cons.mp nodup.of_append_right).1
    have same : earlier ++ node :: later = (before ++ [up]) ++ node :: after := by
      rw [← split, pair, List.append_assoc]
      rfl
    obtain ⟨rfl, _, _⟩ := (List.append_cons_inj_of_notMem notEarlier notLater).mp same
    exact List.mem_append_right before (List.mem_singleton_self up)

/-- After a common prefix, an order goes on as the chain does. -/
theorem eq_of_isChain_append (extension : IsLinearExtension relation members order)
    (along : chain.IsChain relation) (nodup : chain.Nodup)
    (mem_iff : ∀ node, node ∈ chain ↔ node ∈ members) : ∀ first second earlier : List α,
      order = earlier ++ first → chain = earlier ++ second → first = second := by
  have sameMembers : ∀ node, node ∈ order ↔ node ∈ chain := fun node =>
    (extension.mem_iff node).trans (mem_iff node).symm
  intro first second
  induction second generalizing first with
  | nil =>
      intro earlier ordered split
      refine List.eq_nil_iff_forall_not_mem.mpr fun node member => ?_
      have inEarlier := (sameMembers node).mp (ordered ▸ List.mem_append_right _ member)
      rw [split, List.append_nil] at inEarlier
      exact List.disjoint_of_nodup_append (ordered ▸ extension.nodup) inEarlier member
  | cons node rest ih =>
      intro earlier ordered split
      have disjoint := List.disjoint_of_nodup_append (split ▸ nodup)
      have nodeOrdered : node ∈ earlier ++ first := by
        rw [← ordered, sameMembers, split]
        exact List.mem_append_right _ List.mem_cons_self
      cases first with
      | nil =>
          rw [List.append_nil] at nodeOrdered
          exact absurd List.mem_cons_self (disjoint nodeOrdered)
      | cons chosen more =>
          have chosenNew : chosen ∉ earlier := fun member =>
            List.disjoint_of_nodup_append (ordered ▸ extension.nodup) member List.mem_cons_self
          have chosenBehind : chosen ∈ node :: rest := by
            have inChain : chosen ∈ earlier ++ node :: rest := by
              rw [← split, ← sameMembers, ordered]
              exact List.mem_append_right _ List.mem_cons_self
            exact (List.mem_append.mp inChain).resolve_left chosenNew
          rcases List.mem_cons.mp chosenBehind with rfl | behind
          · refine congrArg (chosen :: ·) (ih more (earlier ++ [chosen]) ?_ ?_)
            · rw [ordered, List.append_assoc]
              rfl
            · rw [split, List.append_assoc]
              rfl
          · -- the chain has a predecessor of the chosen member, and it was not taken before
            obtain ⟨up, upBehind, related⟩ := exists_pred_of_isChain (split ▸ along) behind
            have upMember : up ∈ members := by
              rw [← mem_iff, split]
              exact List.mem_append_right _ upBehind
            exact absurd upBehind
              (disjoint (extension.respects earlier chosen more ordered up upMember related))

/-- **A relation along a chain has no other linear extension than the chain.** -/
theorem eq_of_isChain (extension : IsLinearExtension relation members order)
    (along : chain.IsChain relation) (nodup : chain.Nodup)
    (mem_iff : ∀ node, node ∈ chain ↔ node ∈ members) : order = chain :=
  extension.eq_of_isChain_append along nodup mem_iff order chain [] rfl rfl

end IsLinearExtension
