import Mathlib.Logic.Relation
import Mathlib.Order.WellFounded
import Mathlib.Data.Finset.Card
import Mathlib.Data.Finset.Filter
import EtlOrchestrator.Dag

/-!
# Graph validation

`_find_cycles` is a three-colour depth-first search that is restarted from every
task still white. The recursion runs on a fuel argument that bounds its depth:
the number of tasks is always enough (`search_isSome`), so `findCycles` is total.

A completed search is also described by a relation (`Meets`), which has one rule
for each thing the loop over the neighbours does. The facts about the search are
inductions over that relation. It keeps the grey tasks (`Meets.kept`). While no
cycle is reported, every black task is accessible along its upstreams
(`Meets.accessible`). In a graph without cycles no grey neighbour is ever met
(`Meets.cycles_eq`).

Together they give `validateGraph_eq_nil_iff`: a workflow passes validation
exactly when it has a task, has no dangling reference, and has no cycle.
-/

set_option autoImplicit false

namespace EtlOrchestrator

open SortedSet Relation

/-! ## The search -/

/-- DFS visit colors for cycle detection. -/
inductive Color where
  | white
  | gray
  | black
deriving DecidableEq

/-- The variables of `_find_cycles`. -/
structure Dfs where
  color : String → Color
  path : List String
  seen : Finset (Finset String)
  cycles : List (List String)

namespace Dfs

/-- All tasks white, nothing found. -/
def init : Dfs := ⟨fun _ => .white, [], ∅, []⟩

/-- The head of `visit`: the node turns grey and is put on the path. -/
def enter (dfs : Dfs) (node : String) : Dfs :=
  { dfs with color := Function.update dfs.color node .gray, path := dfs.path ++ [node] }

/-- The end of `visit`: the node leaves the path and turns black. -/
def leave (dfs : Dfs) (node : String) : Dfs :=
  { dfs with color := Function.update dfs.color node .black, path := dfs.path.dropLast }

/-- A grey neighbour closes a cycle, which is reported unless a cycle with the
same tasks was. -/
def report (dfs : Dfs) (neighbor : String) : Dfs :=
  let cycle := dfs.path.drop (dfs.path.idxOf neighbor)
  let key := cycle.toFinset
  if key ∈ dfs.seen then dfs
  else { dfs with seen := insert key dfs.seen, cycles := dfs.cycles ++ [cycle] }

@[simp] theorem report_color (dfs : Dfs) (neighbor : String) :
    (dfs.report neighbor).color = dfs.color := by
  simp only [report]
  split <;> rfl

end Dfs

namespace Workflow

/-- One round of the loop over the neighbours, with the recursive call passed
in. -/
def meet (workflow : Workflow) (visit : String → Dfs → Option Dfs) (dfs : Dfs)
    (neighbor : String) : Option Dfs :=
  if neighbor ∉ workflow.tasks then some dfs
  else match dfs.color neighbor with
    | .gray => some (dfs.report neighbor)
    | .white => visit neighbor dfs
    | .black => some dfs

/-- `visit(node)`, at a recursion depth of at most the fuel. -/
def visit (workflow : Workflow) : ℕ → String → Dfs → Option Dfs
  | 0, _, _ => none
  | fuel + 1, node, dfs =>
      ((sorted (workflow.upstream node)).foldlM (workflow.meet (workflow.visit fuel))
        (dfs.enter node)).map fun finished => finished.leave node

/-- One round of the loop over the tasks. -/
def visitRoot (workflow : Workflow) (fuel : ℕ) (dfs : Dfs) (taskId : String) : Option Dfs :=
  if dfs.color taskId = .white then workflow.visit fuel taskId dfs else some dfs

/-- The whole search. -/
def search (workflow : Workflow) (fuel : ℕ) : Option Dfs :=
  (sorted workflow.tasks.keySet).foldlM (workflow.visitRoot fuel) Dfs.init

/-! ## The search terminates -/

/-- The tasks the search has not visited. -/
def whites (workflow : Workflow) (dfs : Dfs) : Finset String :=
  workflow.tasks.keySet.filter fun taskId => dfs.color taskId = .white

theorem mem_whites {workflow : Workflow} {dfs : Dfs} {taskId : String} :
    taskId ∈ workflow.whites dfs ↔ taskId ∈ workflow.tasks ∧ dfs.color taskId = .white := by
  simp [whites]

theorem whites_enter (workflow : Workflow) (dfs : Dfs) (node : String) :
    workflow.whites (dfs.enter node) = (workflow.whites dfs).erase node := by
  ext taskId
  by_cases same : taskId = node
  · simp [mem_whites, Dfs.enter, same]
  · simp [mem_whites, Dfs.enter, same]

theorem whites_leave_subset (workflow : Workflow) (dfs : Dfs) (node : String) :
    workflow.whites (dfs.leave node) ⊆ workflow.whites dfs := by
  intro taskId member
  by_cases same : taskId = node
  · simp [mem_whites, Dfs.leave, same] at member
  · simpa [mem_whites, Dfs.leave, same] using member

theorem whites_report (workflow : Workflow) (dfs : Dfs) (neighbor : String) :
    workflow.whites (dfs.report neighbor) = workflow.whites dfs := by
  simp [whites]

/-- A loop whose every round completes and leaves no more white tasks behind
completes. -/
theorem foldlM_isSome_of_rounds {workflow : Workflow} {fuel : ℕ}
    {round : Dfs → String → Option Dfs} (taskIds : List String)
    (rounds : ∀ taskId ∈ taskIds, ∀ dfs, (workflow.whites dfs).card ≤ fuel →
      ∃ next, round dfs taskId = some next ∧ workflow.whites next ⊆ workflow.whites dfs) :
    ∀ dfs : Dfs, (workflow.whites dfs).card ≤ fuel →
      ∃ final, taskIds.foldlM round dfs = some final ∧
        workflow.whites final ⊆ workflow.whites dfs := by
  induction taskIds with
  | nil => exact fun dfs _ => ⟨dfs, rfl, Finset.Subset.refl _⟩
  | cons taskId rest ih =>
      intro dfs bounded
      obtain ⟨next, completed, subset⟩ := rounds taskId List.mem_cons_self dfs bounded
      obtain ⟨final, continued, subset'⟩ :=
        ih (fun other member => rounds other (List.mem_cons_of_mem _ member)) next
          ((Finset.card_le_card subset).trans bounded)
      exact ⟨final, by simp [List.foldlM_cons, completed, continued], subset'.trans subset⟩

/-- A visit completes when the fuel is at least the number of white tasks. -/
theorem visit_isSome (workflow : Workflow) : ∀ (fuel : ℕ) (node : String) (dfs : Dfs),
    node ∈ workflow.whites dfs → (workflow.whites dfs).card ≤ fuel →
      ∃ final, workflow.visit fuel node dfs = some final ∧
        workflow.whites final ⊆ workflow.whites dfs := by
  intro fuel
  induction fuel with
  | zero =>
      intro node dfs member bounded
      rw [Finset.card_eq_zero.mp (Nat.le_zero.mp bounded)] at member
      exact absurd member (Finset.notMem_empty node)
  | succ fuel ih =>
      intro node dfs member bounded
      have rounds : ∀ neighbor ∈ sorted (workflow.upstream node), ∀ dfs,
          (workflow.whites dfs).card ≤ fuel →
            ∃ next, workflow.meet (workflow.visit fuel) dfs neighbor = some next ∧
              workflow.whites next ⊆ workflow.whites dfs := by
        intro neighbor _ dfs bounded
        by_cases known : neighbor ∈ workflow.tasks
        · cases color : dfs.color neighbor with
          | gray =>
              refine ⟨dfs.report neighbor, by simp [meet, known, color], ?_⟩
              rw [whites_report]
          | black => exact ⟨dfs, by simp [meet, known, color], Finset.Subset.refl _⟩
          | white =>
              obtain ⟨final, completed, subset⟩ :=
                ih neighbor dfs (mem_whites.mpr ⟨known, color⟩) bounded
              exact ⟨final, by simp [meet, known, color, completed], subset⟩
        · exact ⟨dfs, by simp [meet, known], Finset.Subset.refl _⟩
      have fewer : (workflow.whites (dfs.enter node)).card ≤ fuel := by
        rw [whites_enter, Finset.card_erase_of_mem member]
        omega
      obtain ⟨final, completed, subset⟩ := foldlM_isSome_of_rounds
        (sorted (workflow.upstream node)) rounds (dfs.enter node) fewer
      refine ⟨final.leave node, by simp [visit, completed], ?_⟩
      refine (whites_leave_subset workflow final node).trans (subset.trans ?_)
      rw [whites_enter]
      exact Finset.erase_subset _ _

/-- **The search completes within as many nested visits as there are tasks.** -/
theorem search_isSome (workflow : Workflow) {fuel : ℕ}
    (enough : workflow.tasks.keys.length ≤ fuel) : (workflow.search fuel).isSome := by
  have rounds : ∀ taskId ∈ sorted workflow.tasks.keySet, ∀ dfs,
      (workflow.whites dfs).card ≤ fuel →
        ∃ next, workflow.visitRoot fuel dfs taskId = some next ∧
          workflow.whites next ⊆ workflow.whites dfs := by
    intro taskId member dfs bounded
    have known : taskId ∈ workflow.tasks := by simpa using member
    by_cases white : dfs.color taskId = .white
    · obtain ⟨final, completed, subset⟩ :=
        visit_isSome workflow fuel taskId dfs (mem_whites.mpr ⟨known, white⟩) bounded
      exact ⟨final, by simp [visitRoot, white, completed], subset⟩
    · exact ⟨dfs, by simp [visitRoot, white], Finset.Subset.refl _⟩
  have bounded : (workflow.whites Dfs.init).card ≤ fuel :=
    (Finset.card_filter_le _ _).trans enough
  obtain ⟨final, completed, _⟩ :=
    foldlM_isSome_of_rounds (sorted workflow.tasks.keySet) rounds Dfs.init bounded
  rw [search, completed]
  rfl

/-- Find dependency cycles via depth-first search. -/
def findCycles (workflow : Workflow) : List (List String) :=
  ((workflow.search workflow.tasks.keys.length).get (workflow.search_isSome (le_refl _))).cycles

/-- The problems `validate_graph` finds in one entry of `dependencies`. -/
def entryErrors (workflow : Workflow) (taskId : String) (upstream : Finset String) :
    List String :=
  (if taskId ∉ workflow.tasks then [s!"unknown task id: '{taskId}'"] else []) ++
    (sorted upstream).flatMap fun upId =>
      if upId = taskId then [s!"task '{taskId}' cannot depend on itself"]
      else if upId ∉ workflow.tasks then [s!"unknown task id: '{upId}'"]
      else []

/-- Validate the whole graph, collecting every problem found. -/
def validateGraph (workflow : Workflow) : List String :=
  (if workflow.tasks.keys = [] then ["workflow must define at least one task"] else []) ++
    workflow.dependencies.entries.flatMap (fun entry => workflow.entryErrors entry.1 entry.2) ++
    workflow.findCycles.map fun cycle =>
      "dependency cycle: " ++ " -> ".intercalate (cycle ++ cycle.take 1)

/-- Validate the graph, raising if any problem exists. -/
def validateWorkflow (workflow : Workflow) : Except OrchestrationError Unit :=
  match workflow.validateGraph with
  | [] => .ok ()
  | error :: errors => .error (.workflowValidation (error :: errors))

end Workflow

/-! ## The search as a relation -/

namespace Workflow

/-- An edge whose upstream is a task: the edges the search follows. -/
def KnownEdge (workflow : Workflow) (up task : String) : Prop :=
  up ∈ workflow.tasks ∧ workflow.Edge up task

/-- `Meets workflow neighbors dfs final`: the loop over the neighbours turns
`dfs` into `final`. -/
inductive Meets (workflow : Workflow) : List String → Dfs → Dfs → Prop where
  | done (dfs : Dfs) : Meets workflow [] dfs dfs
  | unknown {neighbor : String} {rest : List String} {dfs final : Dfs}
      (missing : neighbor ∉ workflow.tasks) (more : Meets workflow rest dfs final) :
      Meets workflow (neighbor :: rest) dfs final
  | gray {neighbor : String} {rest : List String} {dfs final : Dfs}
      (known : neighbor ∈ workflow.tasks) (color : dfs.color neighbor = .gray)
      (more : Meets workflow rest (dfs.report neighbor) final) :
      Meets workflow (neighbor :: rest) dfs final
  | black {neighbor : String} {rest : List String} {dfs final : Dfs}
      (known : neighbor ∈ workflow.tasks) (color : dfs.color neighbor = .black)
      (more : Meets workflow rest dfs final) : Meets workflow (neighbor :: rest) dfs final
  | white {neighbor : String} {rest : List String} {dfs inner final : Dfs}
      (known : neighbor ∈ workflow.tasks) (color : dfs.color neighbor = .white)
      (visited : Meets workflow (sorted (workflow.upstream neighbor)) (dfs.enter neighbor) inner)
      (more : Meets workflow rest (inner.leave neighbor) final) :
      Meets workflow (neighbor :: rest) dfs final

/-- A completed visit is a completed loop over the neighbours of its node. -/
theorem visit_meets {workflow : Workflow} : ∀ {fuel : ℕ} {node : String} {dfs final : Dfs},
    workflow.visit fuel node dfs = some final →
      ∃ inner, workflow.Meets (sorted (workflow.upstream node)) (dfs.enter node) inner ∧
        final = inner.leave node := by
  intro fuel
  induction fuel with
  | zero => intro node dfs final completed; cases completed
  | succ fuel ih =>
      have loop : ∀ (neighbors : List String) (dfs final : Dfs),
          neighbors.foldlM (workflow.meet (workflow.visit fuel)) dfs = some final →
            workflow.Meets neighbors dfs final := by
        intro neighbors
        induction neighbors with
        | nil =>
            intro dfs final completed
            cases completed
            exact .done dfs
        | cons neighbor rest more =>
            intro dfs final completed
            rw [List.foldlM_cons, Option.bind_eq_bind, Option.bind_eq_some_iff] at completed
            obtain ⟨next, round, continued⟩ := completed
            by_cases known : neighbor ∈ workflow.tasks
            · cases color : dfs.color neighbor with
              | gray =>
                  simp only [meet, known, not_true_eq_false, if_false, color,
                    Option.some.injEq] at round
                  subst round
                  exact .gray known color (more _ _ continued)
              | black =>
                  simp only [meet, known, not_true_eq_false, if_false, color,
                    Option.some.injEq] at round
                  subst round
                  exact .black known color (more _ _ continued)
              | white =>
                  simp only [meet, known, not_true_eq_false, if_false, color] at round
                  obtain ⟨inner, visited, rfl⟩ := ih round
                  exact .white known color visited (more _ _ continued)
            · simp only [meet, known, not_false_eq_true, if_true, Option.some.injEq] at round
              subst round
              exact .unknown known (more _ _ continued)
      intro node dfs final completed
      rw [visit, Option.map_eq_some_iff] at completed
      obtain ⟨inner, looped, rfl⟩ := completed
      exact ⟨inner, loop _ _ _ looped, rfl⟩

/-- What a loop over neighbours keeps: the grey tasks are the same, the black
ones stay black, and reported cycles stay reported. -/
structure Kept (dfs final : Dfs) : Prop where
  gray : ∀ taskId, final.color taskId = .gray ↔ dfs.color taskId = .gray
  black : ∀ taskId, dfs.color taskId = .black → final.color taskId = .black
  cycles : final.cycles = [] → dfs.cycles = []

theorem Kept.trans {first second third : Dfs} (earlier : Kept first second)
    (later : Kept second third) : Kept first third where
  gray taskId := (later.gray taskId).trans (earlier.gray taskId)
  black taskId isBlack := later.black taskId (earlier.black taskId isBlack)
  cycles none := earlier.cycles (later.cycles none)

theorem Kept.report (dfs : Dfs) (neighbor : String) : Kept dfs (dfs.report neighbor) where
  gray taskId := by rw [Dfs.report_color]
  black taskId isBlack := by rwa [Dfs.report_color]
  cycles none := by
    simp only [Dfs.report] at none
    split at none
    · exact none
    · simp at none

/-- A finished visit of a white task keeps what its loop kept. -/
theorem Kept.visit {dfs inner : Dfs} {node : String} (white : dfs.color node = .white)
    (looped : Kept (dfs.enter node) inner) : Kept dfs (inner.leave node) where
  gray taskId := by
    by_cases same : taskId = node
    · simp [Dfs.leave, same, white]
    · simpa [Dfs.leave, Dfs.enter, same] using looped.gray taskId
  black taskId isBlack := by
    have different : taskId ≠ node := by
      rintro rfl
      rw [white] at isBlack
      cases isBlack
    simpa [Dfs.leave, different] using looped.black taskId (by simpa [Dfs.enter, different])
  cycles none := looped.cycles none

theorem Meets.kept {workflow : Workflow} {neighbors : List String} {dfs final : Dfs}
    (meets : workflow.Meets neighbors dfs final) : Kept dfs final := by
  induction meets with
  | done dfs => exact ⟨fun _ => Iff.rfl, fun _ isBlack => isBlack, fun none => none⟩
  | unknown _ _ ih => exact ih
  | gray _ _ _ ih => exact (Kept.report _ _).trans ih
  | black _ _ _ ih => exact ih
  | white _ color _ _ visited ih => exact (Kept.visit color visited).trans ih

/-! ## While nothing is reported, black tasks are accessible -/

/-- What holds of a search as long as it has reported nothing. -/
structure Sound (workflow : Workflow) (dfs : Dfs) : Prop where
  seen : dfs.cycles = [] → dfs.seen = ∅
  accessible : dfs.cycles = [] → ∀ taskId, dfs.color taskId = .black →
    Acc workflow.KnownEdge taskId

/-- A grey neighbour always leaves a reported cycle behind. -/
theorem Sound.report_cycles_ne_nil {workflow : Workflow} {dfs : Dfs} (sound : Sound workflow dfs)
    (neighbor : String) : (dfs.report neighbor).cycles ≠ [] := by
  intro none
  have before : dfs.cycles = [] := (Kept.report dfs neighbor).cycles none
  simp [Dfs.report, sound.seen before] at none

theorem Sound.enter {workflow : Workflow} {dfs : Dfs} (sound : Sound workflow dfs)
    (node : String) : Sound workflow (dfs.enter node) where
  seen none := sound.seen none
  accessible none taskId isBlack := by
    by_cases same : taskId = node
    · simp [Dfs.enter, same] at isBlack
    · exact sound.accessible none taskId (by simpa [Dfs.enter, same] using isBlack)

/-- A node turns black when all its known upstreams are black. -/
theorem Sound.leave {workflow : Workflow} {inner : Dfs} (sound : Sound workflow inner)
    {node : String} (upstreams : inner.cycles = [] → ∀ up ∈ sorted (workflow.upstream node),
      up ∈ workflow.tasks → inner.color up = .black) : Sound workflow (inner.leave node) where
  seen none := sound.seen none
  accessible none taskId isBlack := by
    by_cases same : taskId = node
    · subst same
      refine Acc.intro taskId fun up edge => sound.accessible none up ?_
      exact upstreams none up (mem_sorted.mpr edge.2) edge.1
    · exact sound.accessible none taskId (by simpa [Dfs.leave, same] using isBlack)

theorem Meets.accessible {workflow : Workflow} {neighbors : List String} {dfs final : Dfs}
    (meets : workflow.Meets neighbors dfs final) (sound : Sound workflow dfs) :
    Sound workflow final ∧ (final.cycles = [] → ∀ neighbor ∈ neighbors,
      neighbor ∈ workflow.tasks → final.color neighbor = .black) := by
  induction meets with
  | done dfs => exact ⟨sound, fun _ neighbor member => absurd member List.not_mem_nil⟩
  | @unknown neighbor rest dfs final missing more ih =>
      obtain ⟨after, blacks⟩ := ih sound
      refine ⟨after, fun none other member known => ?_⟩
      rcases List.mem_cons.mp member with rfl | inRest
      · exact absurd known missing
      · exact blacks none other inRest known
  | @gray neighbor rest dfs final known color more ih =>
      have reported : final.cycles ≠ [] := fun none =>
        sound.report_cycles_ne_nil neighbor (more.kept.cycles none)
      exact ⟨⟨fun none => absurd none reported, fun none => absurd none reported⟩,
        fun none => absurd none reported⟩
  | @black neighbor rest dfs final known color more ih =>
      obtain ⟨after, blacks⟩ := ih sound
      refine ⟨after, fun none other member isTask => ?_⟩
      rcases List.mem_cons.mp member with rfl | inRest
      · exact more.kept.black _ color
      · exact blacks none other inRest isTask
  | @white neighbor rest dfs inner final known color visited more ihVisited ihMore =>
      obtain ⟨soundInner, upstreams⟩ := ihVisited (sound.enter neighbor)
      obtain ⟨after, blacks⟩ := ihMore (soundInner.leave upstreams)
      refine ⟨after, fun none other member isTask => ?_⟩
      rcases List.mem_cons.mp member with rfl | inRest
      · exact more.kept.black _ (by simp [Dfs.leave])
      · exact blacks none other inRest isTask

/-! ## Without cycles nothing is reported -/

theorem Meets.cycles_eq {workflow : Workflow}
    (acyclic : ∀ taskId, ¬ TransGen workflow.KnownEdge taskId taskId)
    {neighbors : List String} {dfs final : Dfs} (meets : workflow.Meets neighbors dfs final)
    (above : ∀ neighbor ∈ neighbors, neighbor ∈ workflow.tasks →
      ∀ taskId, dfs.color taskId = .gray → TransGen workflow.KnownEdge neighbor taskId) :
    final.cycles = dfs.cycles := by
  induction meets with
  | done dfs => rfl
  | unknown _ _ ih => exact ih fun other member => above other (List.mem_cons_of_mem _ member)
  | gray known color _ _ => exact absurd (above _ List.mem_cons_self known _ color) (acyclic _)
  | black _ _ _ ih => exact ih fun other member => above other (List.mem_cons_of_mem _ member)
  | @white neighbor rest dfs inner final known color visited more ihVisited ihMore =>
      have keptVisit := Kept.visit color visited.kept
      have innerCycles : inner.cycles = dfs.cycles := by
        refine ihVisited fun up member isTask taskId isGray => ?_
        have edge : workflow.KnownEdge up neighbor := ⟨isTask, mem_sorted.mp member⟩
        by_cases same : taskId = neighbor
        · subst same
          exact .single edge
        · refine .head edge (above neighbor List.mem_cons_self known taskId ?_)
          simpa [Dfs.enter, same] using isGray
      refine (ihMore fun other member isTask taskId isGray => ?_).trans innerCycles
      exact above other (List.mem_cons_of_mem _ member) isTask taskId
        ((keptVisit.gray taskId).mp isGray)

/-! ## The whole search -/

/-- Between two roots no task is grey, so the loop over the tasks is a loop over
neighbours. -/
theorem roots_meets {workflow : Workflow} {fuel : ℕ} : ∀ (roots : List String) (dfs final : Dfs),
    (∀ taskId, dfs.color taskId ≠ .gray) → (∀ root ∈ roots, root ∈ workflow.tasks) →
      roots.foldlM (workflow.visitRoot fuel) dfs = some final →
        workflow.Meets roots dfs final := by
  intro roots
  induction roots with
  | nil =>
      intro dfs final _ _ completed
      cases completed
      exact .done dfs
  | cons root rest ih =>
      intro dfs final noGray known completed
      have rootKnown := known root List.mem_cons_self
      have restKnown := fun other member => known other (List.mem_cons_of_mem root member)
      rw [List.foldlM_cons, Option.bind_eq_bind, Option.bind_eq_some_iff] at completed
      obtain ⟨next, round, continued⟩ := completed
      cases color : dfs.color root with
      | gray => exact absurd color (noGray root)
      | black =>
          simp only [visitRoot, color, reduceCtorEq, if_false, Option.some.injEq] at round
          subst round
          exact .black rootKnown color (ih dfs final noGray restKnown continued)
      | white =>
          simp only [visitRoot, color, if_true] at round
          obtain ⟨inner, visited, rfl⟩ := visit_meets round
          refine .white rootKnown color visited (ih _ final ?_ restKnown continued)
          exact fun taskId isGray =>
            noGray taskId (((Kept.visit color visited.kept).gray taskId).mp isGray)

theorem search_meets (workflow : Workflow) : ∃ final,
    workflow.search workflow.tasks.keys.length = some final ∧
      workflow.Meets (sorted workflow.tasks.keySet) Dfs.init final ∧
      workflow.findCycles = final.cycles := by
  obtain ⟨final, completed⟩ := Option.isSome_iff_exists.mp (workflow.search_isSome (le_refl _))
  refine ⟨final, completed, ?_, ?_⟩
  · refine roots_meets _ _ _ (fun taskId => ?_) (fun root member => ?_) completed
    · simp [Dfs.init]
    · simpa using member
  · simp [findCycles, completed]

/-- Nothing is accessible from itself. -/
theorem not_transGen_self_of_acc {α : Type*} {relation : α → α → Prop} {start : α}
    (accessible : Acc relation start) : ¬ TransGen relation start start := by
  have closure := accessible.transGen
  clear accessible
  induction closure with
  | intro start _ ih => exact fun cycle => ih start cycle cycle

/-- If the search reports nothing, every task is accessible along its known
upstreams. -/
theorem acc_of_findCycles_eq_nil {workflow : Workflow} (none : workflow.findCycles = [])
    {taskId : String} (known : taskId ∈ workflow.tasks) : Acc workflow.KnownEdge taskId := by
  obtain ⟨final, _, meets, same⟩ := search_meets workflow
  have initSound : Sound workflow Dfs.init :=
    ⟨fun _ => rfl, fun _ taskId isBlack => by simp [Dfs.init] at isBlack⟩
  rw [same] at none
  obtain ⟨sound, blacks⟩ := meets.accessible initSound
  exact sound.accessible none taskId (blacks none taskId (by simpa using known) known)

/-- **The search reports a cycle exactly when the known edges have one.** -/
theorem findCycles_eq_nil_iff (workflow : Workflow) : workflow.findCycles = [] ↔
    ∀ taskId, ¬ TransGen workflow.KnownEdge taskId taskId := by
  constructor
  · intro none taskId cycle
    have known : taskId ∈ workflow.tasks := by
      obtain ⟨next, edge, _⟩ := TransGen.head'_iff.mp cycle
      exact edge.1
    exact not_transGen_self_of_acc (acc_of_findCycles_eq_nil none known) cycle
  · intro acyclic
    obtain ⟨final, _, meets, same⟩ := search_meets workflow
    rw [same, meets.cycles_eq acyclic]
    · rfl
    · intro _ _ _ taskId isGray
      simp [Dfs.init] at isGray

/-! ## Validation -/

theorem entryErrors_eq_nil_iff {workflow : Workflow} {taskId : String}
    {upstream : Finset String} : workflow.entryErrors taskId upstream = [] ↔
      taskId ∈ workflow.tasks ∧ ∀ up ∈ upstream, up ≠ taskId ∧ up ∈ workflow.tasks := by
  have perUpstream : ∀ up, (if up = taskId then [s!"task '{taskId}' cannot depend on itself"]
      else if up ∉ workflow.tasks then [s!"unknown task id: '{up}'"] else []) = [] ↔
        up ≠ taskId ∧ up ∈ workflow.tasks := by
    intro up
    by_cases same : up = taskId
    · simp [same]
    · by_cases known : up ∈ workflow.tasks
      · simp [same, known]
      · simp [same, known]
  rw [entryErrors, List.append_eq_nil_iff, List.flatMap_eq_nil_iff]
  simp only [mem_sorted, perUpstream]
  refine and_congr_left fun _ => ?_
  by_cases known : taskId ∈ workflow.tasks
  · simp [known]
  · simp [known]

/-- No entry has a problem exactly when there is no dangling reference and no
self edge. -/
theorem entries_ok_iff {workflow : Workflow} :
    (∀ entry ∈ workflow.dependencies.entries, workflow.entryErrors entry.1 entry.2 = []) ↔
      workflow.Closed ∧ ∀ taskId, ¬ workflow.Edge taskId taskId := by
  simp only [entryErrors_eq_nil_iff]
  constructor
  · intro entries
    have ofKey : ∀ taskId ∈ workflow.dependencies, taskId ∈ workflow.tasks ∧
        ∀ up ∈ workflow.upstream taskId, up ≠ taskId ∧ up ∈ workflow.tasks := by
      intro taskId member
      obtain ⟨ups, stored⟩ := OrderedDict.exists_get?_of_mem member
      rw [upstream_eq_of_get? stored]
      exact entries (taskId, ups) (OrderedDict.get?_eq_some_iff.mp stored)
    refine ⟨⟨fun taskId member => (ofKey taskId member).1, fun taskId up edge => ?_⟩,
      fun taskId edge => ?_⟩
    · exact ((ofKey taskId edge.mem_dependencies).2 up edge).2
    · exact ((ofKey taskId edge.mem_dependencies).2 taskId edge).1 rfl
  · rintro ⟨closed, noSelf⟩ ⟨taskId, ups⟩ entry
    have same := upstream_eq_of_get? (OrderedDict.get?_eq_some_iff.mpr entry)
    refine ⟨closed.keys taskId (OrderedDict.mem_of_entry entry), fun up member => ?_⟩
    have edge : workflow.Edge up taskId := by rwa [Edge, same]
    refine ⟨?_, closed.upstreams taskId up edge⟩
    rintro rfl
    exact noSelf up edge

/-- In a workflow without dangling references every edge is a known edge. -/
theorem Closed.knownEdge_iff {workflow : Workflow} (closed : workflow.Closed) {up task : String} :
    workflow.KnownEdge up task ↔ workflow.Edge up task :=
  ⟨And.right, fun edge => ⟨closed.upstreams task up edge, edge⟩⟩

theorem Closed.knownEdge_eq {workflow : Workflow} (closed : workflow.Closed) :
    workflow.KnownEdge = workflow.Edge := by
  funext up task
  exact propext closed.knownEdge_iff

/-- What validation establishes about a workflow. -/
structure Valid (workflow : Workflow) : Prop where
  nonempty : workflow.tasks.keys ≠ []
  closed : workflow.Closed
  acyclic : workflow.Acyclic

theorem validateGraph_eq_nil_iff_valid {workflow : Workflow} :
    workflow.validateGraph = [] ↔ workflow.Valid := by
  rw [validateGraph, List.append_eq_nil_iff, List.append_eq_nil_iff, List.flatMap_eq_nil_iff,
    List.map_eq_nil_iff, entries_ok_iff, findCycles_eq_nil_iff]
  have tasks : (if workflow.tasks.keys = [] then ["workflow must define at least one task"]
      else []) = [] ↔ workflow.tasks.keys ≠ [] := by
    by_cases empty : workflow.tasks.keys = []
    · simp [empty]
    · simp [empty]
  rw [tasks]
  constructor
  · rintro ⟨⟨nonempty, closed, _⟩, acyclic⟩
    rw [closed.knownEdge_eq] at acyclic
    exact ⟨nonempty, closed, acyclic⟩
  · rintro ⟨nonempty, closed, acyclic⟩
    rw [closed.knownEdge_eq]
    exact ⟨⟨nonempty, closed, fun taskId edge => acyclic taskId (.single edge)⟩, acyclic⟩

/-- The edges of a valid workflow are well founded. -/
theorem Valid.wellFounded {workflow : Workflow} (valid : workflow.Valid) :
    WellFounded workflow.Edge := by
  have none : workflow.findCycles = [] := by
    rw [findCycles_eq_nil_iff, valid.closed.knownEdge_eq]
    exact valid.acyclic
  refine ⟨fun taskId => Acc.intro taskId fun up edge => ?_⟩
  rw [← valid.closed.knownEdge_eq]
  exact acc_of_findCycles_eq_nil none (valid.closed.upstreams taskId up edge)

/-- Validation either accepts or raises a `WorkflowValidationError` with the
problems found. -/
theorem validateWorkflow_eq (workflow : Workflow) : workflow.validateWorkflow =
    if workflow.validateGraph = [] then .ok ()
    else .error (.workflowValidation workflow.validateGraph) := by
  rw [validateWorkflow]
  split <;> simp_all

theorem validateWorkflow_eq_ok_iff (workflow : Workflow) :
    workflow.validateWorkflow = .ok () ↔ workflow.Valid := by
  rw [← validateGraph_eq_nil_iff_valid, validateWorkflow_eq]
  by_cases none : workflow.validateGraph = []
  · simp [none]
  · simp [none]

/-- **Validation terminates and accepts exactly the non-empty, closed and
acyclic workflows; it raises a `WorkflowValidationError` in every other case.** -/
theorem validation_correct (workflow : Workflow) :
    (∀ fuel, workflow.tasks.keys.length ≤ fuel → (workflow.search fuel).isSome) ∧
      (workflow.validateGraph = [] ↔ workflow.Valid) ∧
      (workflow.validateWorkflow = .ok () ↔ workflow.Valid) ∧
      (¬ workflow.Valid → workflow.validateWorkflow =
        .error (.workflowValidation workflow.validateGraph)) := by
  refine ⟨fun fuel enough => workflow.search_isSome enough, validateGraph_eq_nil_iff_valid,
    workflow.validateWorkflow_eq_ok_iff, fun invalid => ?_⟩
  rw [← validateGraph_eq_nil_iff_valid] at invalid
  rw [validateWorkflow_eq, if_neg invalid]

end Workflow

end EtlOrchestrator
