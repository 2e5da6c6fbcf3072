import Mathlib.Data.List.Chain
import Mathlib.Data.List.Induction
import Mathlib.Data.List.Nodup
import Mathlib.Order.WellFounded

/-!
# Cycles and the forest of a depth-first search

A search forest gives each node the branch that leads to it from a root. An edge into a
node of the branch of its source closes a loop: the part of the branch from that node on
(`IsLoop`). The other edges that a depth-first search does not pass are those along which
a branch is extended.

The loops are simple cycles, but a simple cycle need not be a loop, not even up to the
order of its nodes. They all are if and only if each edge that lies on a cycle extends a
branch or closes a loop (`IsForest.loops_complete_iff`).
-/

set_option autoImplicit false

universe u

open Relation

variable {α : Type u} {edge : α → α → Prop} {branch : α → List α}

/-! ## Simple cycles -/

/-- A closed walk that visits no node twice, without the closing repetition. -/
structure IsSimpleCycle (edge : α → α → Prop) (cycle : List α) : Prop where
  nonempty : cycle ≠ []
  nodup : cycle.Nodup
  closed : (cycle ++ cycle.take 1).IsChain edge

/-- A walk reaches its nodes. -/
theorem reaches_of_chain {first node : α} {rest : List α} (chain : (first :: rest).IsChain edge)
    (member : node ∈ first :: rest) : ReflTransGen edge first node := by
  have related := (chain.imp fun _ _ => ReflTransGen.single).pairwise
  rcases List.mem_cons.mp member with rfl | later
  · exact .refl
  · exact List.rel_of_pairwise_cons related later

namespace IsSimpleCycle

/-- A cycle can be read from any of its nodes on. -/
theorem rotate {before after : List α} {node : α}
    (simple : IsSimpleCycle edge (before ++ node :: after)) :
    IsSimpleCycle edge (node :: (after ++ before)) := by
  have rotated : (before ++ node :: after).Perm (node :: (after ++ before)) :=
    List.perm_append_comm
  refine ⟨List.cons_ne_nil _ _, rotated.nodup_iff.mp simple.nodup, ?_⟩
  cases before with
  | nil => simpa using simple.closed
  | cons first between =>
      have closed : (first :: (between ++ node :: (after ++ [first]))).IsChain edge := by
        simpa using simple.closed
      rw [List.isChain_cons_split] at closed
      have whole : (node :: (after ++ first :: (between ++ [node]))).IsChain edge :=
        List.isChain_cons_split.mpr ⟨closed.2, closed.1⟩
      simpa using whole

/-- The end of an edge of a cycle reaches the source of the edge along the cycle. -/
theorem reaches {first node next : α} {rest before after : List α}
    (simple : IsSimpleCycle edge (first :: rest))
    (split : first :: rest ++ [first] = before ++ node :: next :: after) :
    ReflTransGen edge next node := by
  have closed : (first :: rest ++ [first]).IsChain edge := by simpa using simple.closed
  rw [split, List.isChain_append_cons_cons] at closed
  obtain ⟨toNode, _, fromNext⟩ := closed
  have toFirst : ReflTransGen edge next first := by
    apply reaches_of_chain fromNext
    rcases List.eq_nil_or_concat (next :: after) with none | ⟨middle, last, same⟩
    · cases none
    · rw [List.concat_eq_append] at same
      have ends : first :: rest ++ [first] = (before ++ node :: middle) ++ [last] := by
        rw [split, same, List.append_assoc, List.cons_append]
      cases List.append_inj_right' ends rfl
      exact same ▸ List.mem_append_right _ List.mem_cons_self
  have fromFirst : ReflTransGen edge first node := by
    cases before with
    | nil => exact (List.cons.inj split).1 ▸ .refl
    | cons head between =>
        obtain rfl := (List.cons.inj split).1
        exact reaches_of_chain toNode (List.mem_append_right (first :: between) List.mem_cons_self)
  exact toFirst.trans fromFirst

end IsSimpleCycle

/-- What is reached is reached along a walk that visits no node twice. -/
theorem exists_nodup_walk {first last : α} (path : ReflTransGen edge first last) :
    ∃ walk : List α, walk.Nodup ∧ walk.IsChain edge ∧ walk.head? = some first ∧
      walk.getLast? = some last := by
  classical
  induction path using ReflTransGen.head_induction_on with
  | refl => exact ⟨[last], List.nodup_singleton _, .singleton _, rfl, rfl⟩
  | @head first next step _ ih =>
      obtain ⟨walk, nodup, chain, head, tail⟩ := ih
      by_cases again : first ∈ walk
      · -- The walk is cut off before it comes back to the first node.
        obtain ⟨before, after, rfl⟩ := List.append_of_mem again
        refine ⟨first :: after, nodup.of_append_right, (List.isChain_split.mp chain).2, rfl, ?_⟩
        rw [List.getLast?_append] at tail
        simpa using tail
      · refine ⟨first :: walk, List.nodup_cons.mpr ⟨again, nodup⟩, ?_, rfl, ?_⟩
        · cases walk with
          | nil => cases head
          | cons start rest =>
              cases head
              exact chain.cons_cons step
        · cases walk with
          | nil => cases head
          | cons start rest => rwa [List.getLast?_cons_cons]

/-! ## Search forests -/

/-- The branches that lead to the nodes from the roots. -/
structure IsForest (edge : α → α → Prop) (branch : α → List α) : Prop where
  last : ∀ node, ∃ path, branch node = path ++ [node]
  nodup : ∀ node, (branch node).Nodup
  initial : ∀ node path other later, branch node = path ++ other :: later →
    branch other = path ++ [other]
  chain : ∀ node, (branch node).IsChain edge

/-- The end of a branch, from a node on to which an edge leads from its last node. -/
inductive IsLoop (edge : α → α → Prop) (branch : α → List α) : List α → Prop where
  | close {node first : α} {before later : List α} (atEnd : branch node = before ++ first :: later)
      (back : edge node first) : IsLoop edge branch (first :: later)

namespace IsForest

/-- An edge from a branch below a node to a new node that is not above it extends the branch. -/
theorem extends_of_top (forest : IsForest edge branch) {first node next : α}
    {path walked : List α} (atFirst : branch first = path ++ [first])
    (atNode : branch node = path ++ first :: walked) (new : next ∉ first :: walked)
    (top : (branch first).length ≤ (branch next).length)
    (kind : branch next = branch node ++ [next] ∨ next ∈ branch node) :
    branch next = path ++ first :: (walked ++ [next]) := by
  rcases kind with tree | back
  · rw [tree, atNode, List.append_assoc, List.cons_append]
  · rw [atNode] at back
    obtain ⟨higher, lower, rfl⟩ := List.append_of_mem ((List.mem_append.mp back).resolve_right new)
    have atNext := forest.initial first higher next (lower ++ [first]) (by simpa using atFirst)
    rw [atFirst, atNext] at top
    simp only [List.length_append, List.length_cons, List.length_nil] at top
    omega

/-- A cycle that begins at a node of least depth, and all of whose edges extend branches or
lead back, is a loop. -/
theorem isLoop_of_simple (forest : IsForest edge branch) {first : α} {rest : List α}
    (simple : IsSimpleCycle edge (first :: rest))
    (top : ∀ node ∈ rest, (branch first).length ≤ (branch node).length)
    (kinds : ∀ before node next after,
      first :: rest ++ [first] = before ++ node :: next :: after →
        branch next = branch node ++ [next] ∨ next ∈ branch node) :
    IsLoop edge branch (first :: rest) := by
  obtain ⟨path, atFirst⟩ := forest.last first
  -- Along the cycle the branch of the first node is extended until the cycle closes.
  have down : ∀ toCome walked before node, rest = walked ++ toCome →
      first :: walked = before ++ [node] → branch node = path ++ first :: walked →
        ∃ before last, first :: rest = before ++ [last] ∧ branch last = path ++ first :: rest := by
    intro toCome
    induction toCome with
    | nil =>
        intro walked before node split walk atNode
        rw [List.append_nil] at split
        exact ⟨before, node, split ▸ walk, split ▸ atNode⟩
    | cons next toCome ih =>
        intro walked before node split walk atNode
        have edgeAt : first :: rest ++ [first] =
            before ++ node :: next :: (toCome ++ [first]) := by
          have parts : first :: rest ++ [first] =
              first :: walked ++ next :: (toCome ++ [first]) := by
            simp [split]
          rw [parts, walk, List.append_assoc, List.singleton_append]
        have new : next ∉ first :: walked := by
          have nodup := simple.nodup
          rw [split, ← List.cons_append, List.nodup_append_comm] at nodup
          exact fun again => List.disjoint_of_nodup_append nodup List.mem_cons_self again
        refine ih (walked ++ [next]) (first :: walked) next (by simp [split]) rfl ?_
        exact forest.extends_of_top atFirst atNode new (top next (by simp [split]))
          (kinds _ _ _ _ edgeAt)
  obtain ⟨before, last, walk, atLast⟩ := down rest [] [] first rfl rfl atFirst
  have closed : (first :: rest ++ [first]).IsChain edge := by simpa using simple.closed
  rw [walk, List.append_assoc, List.singleton_append, List.isChain_append_cons_cons] at closed
  exact .close atLast closed.2.1

/-- If each edge on a cycle extends a branch or leads back, every simple cycle is a loop, up
to the order of its nodes. -/
theorem exists_loop (forest : IsForest edge branch)
    (kinds : ∀ node next, edge node next → ReflTransGen edge next node →
      branch next = branch node ++ [next] ∨ next ∈ branch node)
    {cycle : List α} (simple : IsSimpleCycle edge cycle) :
    ∃ loop, IsLoop edge branch loop ∧ loop.Perm cycle := by
  obtain ⟨first, member, least⟩ := (measure fun node => (branch node).length).wf.has_min
    {node | node ∈ cycle} (List.exists_mem_of_ne_nil cycle simple.nonempty)
  obtain ⟨before, after, rfl⟩ := List.append_of_mem member
  have perm : (before ++ first :: after).Perm (first :: (after ++ before)) :=
    List.perm_append_comm
  have rotated := simple.rotate
  refine ⟨_, forest.isLoop_of_simple rotated (fun node inRest => ?_) fun _ node next _ split => ?_,
    perm.symm⟩
  · exact not_lt.mp (least node (perm.mem_iff.mpr (List.mem_cons_of_mem _ inRest)))
  · have closed : (first :: (after ++ before) ++ [first]).IsChain edge := by
      simpa using rotated.closed
    rw [split, List.isChain_append_cons_cons] at closed
    exact kinds node next closed.2.1 (rotated.reaches split)

/-- Part of a branch that holds two nodes splits at them, the upper one first. -/
theorem split_loop (forest : IsForest edge branch) {node first second : α} {before loop : List α}
    (atEnd : branch node = before ++ loop) (firstMember : first ∈ loop)
    (secondMember : second ∈ loop) (notBack : second ∉ branch first) :
    ∃ upper between lower, loop = upper ++ first :: (between ++ second :: lower) := by
  obtain ⟨upper, rest, rfl⟩ := List.append_of_mem firstMember
  have atFirst := forest.initial node (before ++ upper) first rest (by simpa using atEnd)
  rw [atFirst] at notBack
  have inRest : second ∈ rest := by
    simp only [List.mem_append, List.mem_cons, List.not_mem_nil, or_false] at notBack secondMember
    tauto
  obtain ⟨between, lower, rfl⟩ := List.append_of_mem inRest
  exact ⟨upper, between, lower, rfl⟩

/-- A loop is a simple cycle. -/
theorem simple_of_isLoop (forest : IsForest edge branch) {loop : List α}
    (isLoop : IsLoop edge branch loop) : IsSimpleCycle edge loop := by
  obtain @⟨node, first, before, later, atEnd, back⟩ := isLoop
  have nodup := forest.nodup node
  have chain := forest.chain node
  obtain ⟨path, atNode⟩ := forest.last node
  rw [atEnd] at nodup chain
  refine ⟨List.cons_ne_nil _ _, nodup.of_append_right, ?_⟩
  rcases List.eq_nil_or_concat (first :: later) with none | ⟨walk, last, ends⟩
  · cases none
  · rw [List.concat_eq_append] at ends
    rw [atEnd, ends, ← List.append_assoc] at atNode
    cases List.append_inj_right' atNode rfl
    have below := (List.isChain_split.mp chain).2
    rw [ends] at below
    rw [List.take_succ_cons, List.take_zero, ends, List.append_assoc, List.singleton_append]
    exact List.isChain_append_cons_cons.mpr ⟨below, back, .singleton first⟩

/-- A cycle that leaves out the nodes between two of its nodes with an edge is simple. -/
theorem shortcut_simple {upper between lower : List α} {first second : α}
    (simple : IsSimpleCycle edge (upper ++ first :: (between ++ second :: lower)))
    (across : edge first second) : IsSimpleCycle edge (upper ++ first :: second :: lower) := by
  obtain ⟨start, others, head⟩ : ∃ start others, upper ++ [first] = start :: others :=
    List.exists_cons_of_ne_nil (by simp)
  have starts : ∀ rest, (upper ++ first :: rest).take 1 = [start] := by
    intro rest
    rw [List.append_cons, head]
    rfl
  have closed := simple.closed
  rw [starts, List.append_assoc, List.cons_append, List.append_assoc, List.cons_append,
    List.isChain_split, List.isChain_cons_split] at closed
  refine ⟨by simp, simple.nodup.sublist ?_, ?_⟩
  · exact (List.sublist_append_right between (second :: lower)).cons_cons first |>.append_left upper
  · rw [starts, List.append_assoc, List.cons_append, List.cons_append,
      List.isChain_append_cons_cons]
    exact ⟨closed.1, across, closed.2.2⟩

/-- No loop holds exactly the other nodes when some are left out of a branch. -/
theorem not_perm_shortcut (forest : IsForest edge branch) {node first second : α}
    {before upper between lower : List α}
    (atEnd : branch node = before ++ (upper ++ first :: (between ++ second :: lower)))
    (left : between ≠ []) {loop : List α} (isLoop : IsLoop edge branch loop) :
    ¬ loop.Perm (upper ++ first :: second :: lower) := by
  intro perm
  obtain @⟨last, start, before', later, atEnd', _⟩ := isLoop
  have firstMember : first ∈ start :: later := perm.mem_iff.mpr (by simp)
  have secondMember : second ∈ start :: later := perm.mem_iff.mpr (by simp)
  obtain ⟨upper', lower', split⟩ := List.append_of_mem secondMember
  -- The two branches agree up to the second node.
  have atSecond := forest.initial node (before ++ (upper ++ first :: between)) second lower
    (by simpa using atEnd)
  have atSecond' := forest.initial last (before' ++ upper') second lower'
    (by rw [atEnd', split, List.append_assoc])
  have same : (before ++ upper) ++ first :: between = before' ++ upper' := by
    have both := List.append_inj_left' (atSecond.symm.trans atSecond') rfl
    simpa using both
  have notAbove : first ∉ before' := fun above =>
    List.disjoint_of_nodup_append (atEnd' ▸ forest.nodup last) above firstMember
  have inside : between ⊆ upper' := by
    rcases List.append_eq_append_iff.mp same with ⟨more, above, below⟩ | ⟨more, _, below⟩
    · cases more with
      | nil =>
          rw [List.nil_append] at below
          exact fun middle member => below ▸ List.mem_cons_of_mem first member
      | cons head more =>
          obtain rfl := (List.cons.inj below).1
          exact absurd (above ▸ List.mem_append_right _ List.mem_cons_self) notAbove
    · intro middle member
      exact below ▸ List.mem_append_right more (List.mem_cons_of_mem first member)
  have nodup : (between ++ (upper ++ first :: second :: lower)).Nodup := by
    have whole := (atEnd ▸ forest.nodup node).of_append_right
    rw [List.append_cons] at whole ⊢
    exact (List.perm_append_comm_assoc _ _ _).nodup_iff.mp whole
  obtain ⟨middle, member⟩ := List.exists_mem_of_ne_nil between left
  apply List.disjoint_of_nodup_append nodup member
  apply perm.mem_iff.mp
  exact split ▸ List.mem_append_left _ (inside member)

/-- **Every simple cycle is a loop, up to the order of its nodes, if and only if each edge on
a cycle extends a branch or leads back.** -/
theorem loops_complete_iff (forest : IsForest edge branch) :
    (∀ cycle, IsSimpleCycle edge cycle → ∃ loop, IsLoop edge branch loop ∧ loop.Perm cycle) ↔
      ∀ node next, edge node next → ReflTransGen edge next node →
        branch next = branch node ++ [next] ∨ next ∈ branch node := by
  refine ⟨fun complete node next step path => ?_, fun kinds _ => forest.exists_loop kinds⟩
  by_contra neither
  obtain ⟨notTree, notBack⟩ := not_or.mp neither
  -- The edge closes a simple cycle. If that is a loop, the edge skips a part of it.
  obtain ⟨walk, nodup, chain, head, last⟩ := exists_nodup_walk path
  have simple : IsSimpleCycle edge walk := by
    refine ⟨fun none => ?_, nodup, ?_⟩
    · rw [none] at head
      cases head
    · rw [List.take_one, head, Option.toList_some]
      refine List.isChain_append.mpr ⟨chain, .singleton _, fun other isLast first isFirst => ?_⟩
      cases last.symm.trans isLast
      cases isFirst
      exact step
  obtain ⟨loop, isLoop, perm⟩ := complete walk simple
  have loopSimple := forest.simple_of_isLoop isLoop
  have nodeMember := perm.mem_iff.mpr (List.mem_of_getLast? last)
  have nextMember := perm.mem_iff.mpr (List.mem_of_head? head)
  obtain @⟨bottom, first, before, later, atEnd, back⟩ := isLoop
  obtain ⟨upper, between, lower, split⟩ := forest.split_loop atEnd nodeMember nextMember notBack
  rw [split] at atEnd loopSimple
  have left : between ≠ [] := by
    rintro rfl
    have atNode := forest.initial bottom (before ++ upper) node (next :: lower)
      (by simpa using atEnd)
    have atNext := forest.initial bottom (before ++ (upper ++ [node])) next lower
      (by simpa using atEnd)
    exact notTree (by rw [atNext, atNode]; simp)
  obtain ⟨other, isOther, otherPerm⟩ := complete _ (shortcut_simple loopSimple step)
  exact forest.not_perm_shortcut atEnd left isOther otherPerm

end IsForest
