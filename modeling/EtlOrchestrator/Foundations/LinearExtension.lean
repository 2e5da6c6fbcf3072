import Mathlib.Data.Finset.Basic
import Mathlib.Data.List.Nodup
import Mathlib.Order.Lattice
import Mathlib.Data.List.Lex
import Mathlib.Logic.Relation

/-!
# The lexicographically least linear extension of a relation

A linear extension of a relation on a finite set lists every member once, each
after all its predecessors in the set. An order is greedy when it always takes a
least member among those whose predecessors have all been taken.

A greedy linear extension is lexicographically least among all linear
extensions (`IsLinearExtension.le_of_greedy`), so there is at most one.
-/

set_option autoImplicit false

universe u

variable {α : Type u}

/-- A list of the members of a set that puts predecessors first. -/
structure IsLinearExtension (relation : α → α → Prop) (members : Finset α)
    (order : List α) : Prop where
  nodup : order.Nodup
  mem_iff : ∀ node, node ∈ order ↔ node ∈ members
  respects : ∀ earlier node later, order = earlier ++ node :: later →
    ∀ up ∈ members, relation up node → up ∈ earlier

/-- At every position the order takes a least member among the available ones. -/
def IsGreedy [LinearOrder α] (relation : α → α → Prop) (members : Finset α)
    (order : List α) : Prop :=
  ∀ earlier node later, order = earlier ++ node :: later →
    ∀ other ∈ members, other ∉ earlier →
      (∀ up ∈ members, relation up other → up ∈ earlier) → node ≤ other

/-- A property of all positions of a list extends over one more element. -/
theorem forall_positions_concat {P : List α → α → Prop} {order : List α} {last : α}
    (positions : ∀ earlier node later, order = earlier ++ node :: later → P earlier node)
    (atLast : P order last) :
    ∀ earlier node later, order ++ [last] = earlier ++ node :: later → P earlier node := by
  intro earlier node later split
  rcases List.eq_nil_or_concat later with rfl | ⟨between, final, rfl⟩
  · obtain ⟨rfl, same⟩ := List.append_inj' split rfl
    cases same
    exact atLast
  · have shape : order ++ [last] = (earlier ++ node :: between) ++ [final] := by
      simpa using split
    obtain ⟨before, _⟩ := List.append_inj' shape rfl
    exact positions earlier node between before

/-- Above every node of a well-founded relation there is one with nothing above it. -/
theorem WellFounded.exists_first_above {up : α → α → Prop} (wellFounded : WellFounded up)
    (node : α) : ∃ first, Relation.ReflTransGen up first node ∧ ∀ upper, ¬ up upper first := by
  induction node using wellFounded.induction with
  | _ node ih =>
    by_cases root : ∀ upper, ¬ up upper node
    · exact ⟨node, .refl, root⟩
    · push Not at root
      obtain ⟨upper, edge⟩ := root
      obtain ⟨first, above, isFirst⟩ := ih upper edge
      exact ⟨first, above.tail edge, isFirst⟩

namespace IsLinearExtension

variable {relation : α → α → Prop} {members : Finset α}

/-- The predecessors of a member of an initial part lie in that part. -/
theorem pred_mem {order earlier later : List α}
    (extension : IsLinearExtension relation members order) (split : order = earlier ++ later)
    {node up : α} (inEarlier : node ∈ earlier) (upMember : up ∈ members)
    (related : relation up node) : up ∈ earlier := by
  obtain ⟨before, after, rfl⟩ := List.append_of_mem inEarlier
  have inBefore := extension.respects before node (after ++ later) (by simpa using split) up
    upMember related
  exact List.mem_append_left _ inBefore

/-- A relation with a linear extension has no cycle. -/
theorem acyclic {order : List α} (extension : IsLinearExtension relation members order)
    (inside : ∀ up node, relation up node → up ∈ members) (node : α) :
    ¬ Relation.TransGen relation node node := by
  intro cycle
  obtain ⟨next, first, _⟩ := Relation.TransGen.head'_iff.mp cycle
  have member := (extension.mem_iff node).mpr (inside node next first)
  obtain ⟨earlier, later, split⟩ := List.append_of_mem member
  -- All ancestors of a node stand before it.
  have before : ∀ up, Relation.TransGen relation up node → up ∈ earlier := by
    intro up above
    induction above using Relation.TransGen.head_induction_on with
    | single edge => exact extension.respects earlier node later split _ (inside _ _ edge) edge
    | head edge _ ih => exact extension.pred_mem split ih (inside _ _ edge) edge
  refine List.disjoint_of_nodup_append (split ▸ extension.nodup) (before node cycle) ?_
  exact List.mem_cons_self

/-- The successors of a member stand behind it. -/
theorem succ_mem {order : List α} (extension : IsLinearExtension relation members order)
    {earlier later : List α} {node lower : α} (split : order = earlier ++ node :: later)
    (member : lower ∈ members) (related : relation node lower) : lower ∈ later := by
  have nodeMember : node ∈ members := by
    rw [← extension.mem_iff, split]
    exact List.mem_append_right _ List.mem_cons_self
  have fresh : node ∉ earlier := fun early => by
    refine List.disjoint_of_nodup_append (split ▸ extension.nodup) early ?_
    exact List.mem_cons_self
  have inOrder := (extension.mem_iff lower).mpr member
  rw [split, List.mem_append, List.mem_cons] at inOrder
  rcases inOrder with early | rfl | late
  · exact absurd (extension.pred_mem split early nodeMember related) fresh
  · exact absurd (extension.respects _ _ _ split _ nodeMember related) fresh
  · exact late

/-- Below every member of an order there is one with no member below it. -/
theorem exists_last_below {order : List α} (extension : IsLinearExtension relation members order)
    {node : α} (member : node ∈ members) : ∃ last ∈ members,
      Relation.ReflTransGen relation node last ∧ ∀ lower ∈ members, ¬ relation last lower := by
  obtain ⟨earlier, later, split⟩ := List.append_of_mem ((extension.mem_iff node).mpr member)
  induction count : later.length using Nat.strong_induction_on generalizing node earlier later with
  | _ count ih =>
    by_cases leaf : ∀ lower ∈ members, ¬ relation node lower
    · exact ⟨node, member, .refl, leaf⟩
    · push Not at leaf
      obtain ⟨lower, lowerMember, related⟩ := leaf
      obtain ⟨between, rest, rfl⟩ :=
        List.append_of_mem (extension.succ_mem split lowerMember related)
      obtain ⟨last, lastMember, below, isLast⟩ := ih rest.length (by
        rw [← count]
        simp
        omega) lowerMember (earlier ++ node :: between) rest (by simpa using split) rfl
      exact ⟨last, lastMember, below.head related, isLast⟩

variable [LinearOrder α]

/-- After a common prefix, the greedy order is the least continuation. -/
theorem le_of_greedy_append : ∀ (first second earlier : List α),
    IsLinearExtension relation members (earlier ++ first) →
    IsGreedy relation members (earlier ++ first) →
    IsLinearExtension relation members (earlier ++ second) → first ≤ second := by
  intro first
  induction first with
  | nil =>
      intro second _ _ _ _
      cases second with
      | nil => exact le_refl _
      | cons chosen more => exact le_of_lt List.Lex.nil
  | cons node rest ih =>
      intro second earlier extension greedy other
      have notEarlier : node ∉ earlier := fun member =>
        List.disjoint_of_nodup_append extension.nodup member List.mem_cons_self
      cases second with
      | nil =>
          have member := (other.mem_iff node).mpr
            ((extension.mem_iff node).mp (List.mem_append_right _ List.mem_cons_self))
          rw [List.append_nil] at member
          exact absurd member notEarlier
      | cons chosen more =>
          have chosenMember : chosen ∈ members :=
            (other.mem_iff chosen).mp (List.mem_append_right _ List.mem_cons_self)
          have chosenNew : chosen ∉ earlier := fun member =>
            List.disjoint_of_nodup_append other.nodup member List.mem_cons_self
          have least : node ≤ chosen := greedy earlier node rest rfl chosen chosenMember chosenNew
            (other.respects earlier chosen more rfl)
          rcases lt_or_eq_of_le least with smaller | rfl
          · exact le_of_lt (List.Lex.rel smaller)
          · refine List.cons_le_cons node (ih more (earlier ++ [node]) ?_ ?_ ?_)
            · simpa using extension
            · simpa using greedy
            · simpa using other

/-- **A greedy linear extension is the lexicographically least one.** -/
theorem le_of_greedy {order other : List α} (extension : IsLinearExtension relation members order)
    (greedy : IsGreedy relation members order)
    (otherExtension : IsLinearExtension relation members other) : order ≤ other :=
  le_of_greedy_append order other [] extension greedy otherExtension

end IsLinearExtension
