import Mathlib.Data.List.Chain
import EtlOrchestrator.Dag.Validation

/-!
# What the search for cycles meets

The log of the search of `_find_cycles` has one entry for each round of the loops over
neighbours: the path, the task that is met and its colour (`Logs`). A white task is
visited, a grey one closes a cycle that is reported, and a black one is passed.

The facts about a log are inductions over that relation. No neighbour is met twice on
the same path (`Logs.pairwise_ne`), and no task is visited twice
(`Logs.pairwise_visits`). Each task of a path was visited on the path before it
(`Logs.entered`), and each upstream of a visited task is met (`Logs.meets_upstreams`).
The cycles found are those of the grey neighbours, each once (`Logs.finds`).
-/

set_option autoImplicit false

namespace EtlOrchestrator

open SortedSet Relation

/-- A round of a loop over neighbours. -/
structure Meeting where
  path : List String
  neighbor : String
  color : Color
deriving DecidableEq

/-- The cycle that a grey neighbour closes. -/
def Meeting.cycle (meeting : Meeting) : List String :=
  meeting.path.drop (meeting.path.idxOf meeting.neighbor)

namespace Workflow

/-- An edge between two tasks in the direction of the search, to an upstream. -/
def Follows (workflow : Workflow) (task up : String) : Prop :=
  task ∈ workflow.tasks ∧ workflow.KnownEdge up task

/-- `Logs workflow neighbors dfs final log`: the loop over the neighbours turns `dfs` into
`final`, with these rounds in this loop and in the visits that it makes. -/
inductive Logs (workflow : Workflow) : List String → Dfs → Dfs → List Meeting → Prop where
  | done (dfs : Dfs) : Logs workflow [] dfs dfs []
  | unknown {neighbor : String} {rest : List String} {dfs final : Dfs} {log : List Meeting}
      (missing : neighbor ∉ workflow.tasks) (more : Logs workflow rest dfs final log) :
      Logs workflow (neighbor :: rest) dfs final log
  | gray {neighbor : String} {rest : List String} {dfs final : Dfs} {log : List Meeting}
      (known : neighbor ∈ workflow.tasks) (color : dfs.color neighbor = .gray)
      (more : Logs workflow rest (dfs.report neighbor) final log) :
      Logs workflow (neighbor :: rest) dfs final (⟨dfs.path, neighbor, .gray⟩ :: log)
  | black {neighbor : String} {rest : List String} {dfs final : Dfs} {log : List Meeting}
      (known : neighbor ∈ workflow.tasks) (color : dfs.color neighbor = .black)
      (more : Logs workflow rest dfs final log) :
      Logs workflow (neighbor :: rest) dfs final (⟨dfs.path, neighbor, .black⟩ :: log)
  | white {neighbor : String} {rest : List String} {dfs inner final : Dfs}
      {visit log : List Meeting} (known : neighbor ∈ workflow.tasks)
      (color : dfs.color neighbor = .white)
      (visited : Logs workflow (sorted (workflow.upstream neighbor)) (dfs.enter neighbor) inner
        visit)
      (more : Logs workflow rest (inner.leave neighbor) final log) :
      Logs workflow (neighbor :: rest) dfs final
        (⟨dfs.path, neighbor, .white⟩ :: (visit ++ log))

variable {workflow : Workflow} {neighbors : List String} {dfs final : Dfs} {log : List Meeting}

/-- Every completed loop has a log. -/
theorem Meets.exists_log (meets : workflow.Meets neighbors dfs final) :
    ∃ log, workflow.Logs neighbors dfs final log := by
  induction meets with
  | done dfs => exact ⟨[], .done dfs⟩
  | unknown missing _ ih =>
      obtain ⟨log, logs⟩ := ih
      exact ⟨log, .unknown missing logs⟩
  | gray known color _ ih =>
      obtain ⟨log, logs⟩ := ih
      exact ⟨_, .gray known color logs⟩
  | black known color _ ih =>
      obtain ⟨log, logs⟩ := ih
      exact ⟨_, .black known color logs⟩
  | white known color _ _ visited more =>
      obtain ⟨visit, visitLogs⟩ := visited
      obtain ⟨log, logs⟩ := more
      exact ⟨_, .white known color visitLogs logs⟩

@[simp] theorem report_path (dfs : Dfs) (neighbor : String) :
    (dfs.report neighbor).path = dfs.path := by
  simp only [Dfs.report]
  split <;> rfl

namespace Logs

/-- A log is one of a completed loop. -/
theorem meets (logs : workflow.Logs neighbors dfs final log) :
    workflow.Meets neighbors dfs final := by
  induction logs with
  | done dfs => exact .done dfs
  | unknown missing _ ih => exact .unknown missing ih
  | gray known color _ ih => exact .gray known color ih
  | black known color _ ih => exact .black known color ih
  | white known color _ _ visited more => exact .white known color visited more

/-- A loop ends on the path on which it began. -/
theorem path_eq (logs : workflow.Logs neighbors dfs final log) : final.path = dfs.path := by
  induction logs with
  | done dfs => rfl
  | unknown _ _ ih => exact ih
  | gray _ _ _ ih => rw [ih, report_path]
  | black _ _ _ ih => exact ih
  | white _ _ _ _ visited more =>
      rw [more, Dfs.leave, visited, Dfs.enter, List.dropLast_concat]

/-- A visit ends on the path on which its task was met. -/
theorem leave_path {neighbor : String} {inner : Dfs}
    (logs : workflow.Logs neighbors (dfs.enter neighbor) inner log) :
    (inner.leave neighbor).path = dfs.path := by
  rw [Dfs.leave, logs.path_eq, Dfs.enter, List.dropLast_concat]

/-! ## Where a round takes place -/

/-- A round is one of the loop itself, or of a visit that it makes. -/
def Placed (path neighbors : List String) (meeting : Meeting) : Prop :=
  meeting.path = path ∧ meeting.neighbor ∈ neighbors ∨
    ∃ neighbor ∈ neighbors, path ++ [neighbor] <+: meeting.path

theorem Placed.cons {path : List String} {meeting : Meeting} (neighbor : String)
    (placed : Placed path neighbors meeting) : Placed path (neighbor :: neighbors) meeting := by
  rcases placed with ⟨here, member⟩ | ⟨other, member, below⟩
  · exact .inl ⟨here, List.mem_cons_of_mem _ member⟩
  · exact .inr ⟨other, List.mem_cons_of_mem _ member, below⟩

/-- The rounds of a visit take place below its task. -/
theorem Placed.below {path : List String} {meeting : Meeting} {neighbor : String}
    (placed : Placed (path ++ [neighbor]) neighbors meeting) :
    path ++ [neighbor] <+: meeting.path := by
  rcases placed with ⟨here, _⟩ | ⟨other, _, below⟩
  · exact here ▸ List.prefix_rfl
  · exact (List.prefix_append _ _).trans below

theorem placed (logs : workflow.Logs neighbors dfs final log) :
    ∀ meeting ∈ log, Placed dfs.path neighbors meeting := by
  induction logs with
  | done dfs => exact List.forall_mem_nil _
  | unknown _ _ ih => exact fun meeting member => (ih meeting member).cons _
  | gray _ _ _ ih =>
      rw [report_path] at ih
      exact List.forall_mem_cons.mpr ⟨.inl ⟨rfl, List.mem_cons_self⟩,
        fun meeting member => (ih meeting member).cons _⟩
  | black _ _ _ ih =>
      exact List.forall_mem_cons.mpr ⟨.inl ⟨rfl, List.mem_cons_self⟩,
        fun meeting member => (ih meeting member).cons _⟩
  | white _ _ visitLogs logs visited more =>
      rw [visitLogs.leave_path] at more
      refine List.forall_mem_cons.mpr ⟨.inl ⟨rfl, List.mem_cons_self⟩, fun meeting member => ?_⟩
      rcases List.mem_append.mp member with below | later
      · exact .inr ⟨_, List.mem_cons_self, (visited meeting below).below⟩
      · exact (more meeting later).cons _

/-- No other round of a loop over distinct neighbours, or of its visits, is one in which the
first neighbour is met, or one of the visit of the first neighbour. -/
theorem Placed.ne_first {path rest : List String} {meeting : Meeting} {neighbor : String}
    (placed : Placed path rest meeting) (new : neighbor ∉ rest) :
    ¬ (meeting.path = path ∧ meeting.neighbor = neighbor) ∧
      ¬ path ++ [neighbor] <+: meeting.path := by
  rcases placed with ⟨here, member⟩ | ⟨other, member, below⟩
  · refine ⟨fun same => new (same.2 ▸ member), fun below => ?_⟩
    have lengths := below.length_le
    rw [here, List.length_append, List.length_singleton] at lengths
    omega
  · refine ⟨fun same => ?_, fun also => ?_⟩
    · have lengths := below.length_le
      rw [same.1, List.length_append, List.length_singleton] at lengths
      omega
    · have agree := List.prefix_of_prefix_length_le below also (by simp)
      have equal := agree.eq_of_length (by simp)
      cases List.append_inj_right' equal rfl
      exact new member

/-- **No neighbour is met twice on the same path.** -/
theorem pairwise_ne (logs : workflow.Logs neighbors dfs final log) (distinct : neighbors.Nodup) :
    log.Pairwise fun first second =>
      ¬ (second.path = first.path ∧ second.neighbor = first.neighbor) := by
  induction logs with
  | done dfs => exact .nil
  | unknown _ _ ih => exact ih distinct.of_cons
  | gray _ _ logs ih =>
      refine .cons (fun meeting member => ?_) (ih distinct.of_cons)
      have placed := logs.placed meeting member
      rw [report_path] at placed
      exact (placed.ne_first (List.nodup_cons.mp distinct).1).1
  | black _ _ logs ih =>
      refine .cons (fun meeting member => ?_) (ih distinct.of_cons)
      exact ((logs.placed meeting member).ne_first (List.nodup_cons.mp distinct).1).1
  | @white neighbor rest dfs inner final visit log _ _ visitLogs logs visited more =>
      have new := (List.nodup_cons.mp distinct).1
      have ofVisit : ∀ meeting ∈ visit, dfs.path ++ [neighbor] <+: meeting.path :=
        fun meeting member => (visitLogs.placed meeting member).below
      have ofLog : ∀ meeting ∈ log, ¬ (meeting.path = dfs.path ∧ meeting.neighbor = neighbor) ∧
          ¬ dfs.path ++ [neighbor] <+: meeting.path := by
        intro meeting member
        have placed := logs.placed meeting member
        rw [visitLogs.leave_path] at placed
        exact placed.ne_first new
      refine .cons (fun meeting member => ?_) (List.pairwise_append.mpr
        ⟨visited (sorted_nodup _), more distinct.of_cons, fun first inVisit second inLog => ?_⟩)
      · rcases List.mem_append.mp member with inVisit | inLog
        · rintro ⟨same, _⟩
          dsimp only at same
          have lengths := (ofVisit meeting inVisit).length_le
          rw [same, List.length_append, List.length_singleton] at lengths
          omega
        · exact (ofLog meeting inLog).1
      · rintro ⟨same, _⟩
        exact (ofLog second inLog).2 (same ▸ ofVisit first inVisit)

/-- A path does not lie above one of its tasks. -/
theorem not_prefix_of_eq {path before after : List String} {task : String}
    (split : path = before ++ task :: after) : ¬ path <+: before := by
  intro above
  have lengths := above.length_le
  rw [split, List.length_append, List.length_cons] at lengths
  omega

/-- Each task of the path of a round, below the path of the loop, was met on the path
before it and was white. -/
theorem entered (logs : workflow.Logs neighbors dfs final log) :
    ∀ meeting ∈ log, ∀ before task after, meeting.path = before ++ task :: after →
      dfs.path <+: before → ⟨before, task, .white⟩ ∈ log := by
  induction logs with
  | done dfs => exact List.forall_mem_nil _
  | unknown _ _ ih => exact ih
  | gray _ _ _ ih =>
      rw [report_path] at ih
      refine List.forall_mem_cons.mpr ⟨fun before task after split above => ?_, ?_⟩
      · exact absurd above (not_prefix_of_eq split)
      · intro meeting member before task after split above
        exact List.mem_cons_of_mem _ (ih meeting member before task after split above)
  | black _ _ _ ih =>
      refine List.forall_mem_cons.mpr ⟨fun before task after split above => ?_, ?_⟩
      · exact absurd above (not_prefix_of_eq split)
      · intro meeting member before task after split above
        exact List.mem_cons_of_mem _ (ih meeting member before task after split above)
  | @white neighbor rest dfs inner final visit log _ _ visitLogs _ visited more =>
      rw [visitLogs.leave_path] at more
      refine List.forall_mem_cons.mpr ⟨fun before task after split above => ?_, ?_⟩
      · exact absurd above (not_prefix_of_eq split)
      · intro meeting member before task after split above
        rcases List.mem_append.mp member with inVisit | inLog
        · -- The path goes through the neighbour, which is the task or lies above it.
          obtain ⟨between, rfl⟩ := above
          obtain ⟨tail, below⟩ := (visitLogs.placed meeting inVisit).below
          rw [split, List.append_assoc, List.append_assoc, List.append_cancel_left_eq,
            List.singleton_append] at below
          cases between with
          | nil =>
              cases below
              rw [List.append_nil]
              exact List.mem_cons_self
          | cons first between =>
              obtain rfl := (List.cons.inj below).1
              have inside := visited meeting inVisit _ task after split
                ⟨between, by simp [Dfs.enter]⟩
              exact List.mem_cons_of_mem _ (List.mem_append_left _ inside)
        · exact List.mem_cons_of_mem _ (List.mem_append_right _
            (more meeting inLog before task after split above))

/-- Each neighbour that is a task is met, on the path of the loop. -/
theorem meets_each (logs : workflow.Logs neighbors dfs final log) :
    ∀ neighbor ∈ neighbors, neighbor ∈ workflow.tasks →
      ∃ color, ⟨dfs.path, neighbor, color⟩ ∈ log := by
  induction logs with
  | done dfs => exact List.forall_mem_nil _
  | unknown missing _ ih =>
      exact List.forall_mem_cons.mpr ⟨fun known => absurd known missing, ih⟩
  | gray _ _ _ ih =>
      rw [report_path] at ih
      refine List.forall_mem_cons.mpr ⟨fun _ => ⟨_, List.mem_cons_self⟩,
        fun other member known => ?_⟩
      obtain ⟨color, inLog⟩ := ih other member known
      exact ⟨color, List.mem_cons_of_mem _ inLog⟩
  | black _ _ _ ih =>
      refine List.forall_mem_cons.mpr ⟨fun _ => ⟨_, List.mem_cons_self⟩,
        fun other member known => ?_⟩
      obtain ⟨color, inLog⟩ := ih other member known
      exact ⟨color, List.mem_cons_of_mem _ inLog⟩
  | white _ _ visitLogs _ _ more =>
      rw [visitLogs.leave_path] at more
      refine List.forall_mem_cons.mpr ⟨fun _ => ⟨_, List.mem_cons_self⟩,
        fun other member known => ?_⟩
      obtain ⟨color, inLog⟩ := more other member known
      exact ⟨color, List.mem_cons_of_mem _ (List.mem_append_right _ inLog)⟩

/-- A task that is visited meets each of its upstreams that is a task. -/
theorem meets_upstreams (logs : workflow.Logs neighbors dfs final log) :
    ∀ path task, ⟨path, task, .white⟩ ∈ log → ∀ up, workflow.Follows task up →
      ∃ color, ⟨path ++ [task], up, color⟩ ∈ log := by
  induction logs with
  | done dfs => exact fun _ _ member => absurd member List.not_mem_nil
  | unknown _ _ ih => exact ih
  | gray _ _ _ ih =>
      intro path task member up follows
      rcases List.mem_cons.mp member with same | inLog
      · cases same
      · obtain ⟨color, met⟩ := ih path task inLog up follows
        exact ⟨color, List.mem_cons_of_mem _ met⟩
  | black _ _ _ ih =>
      intro path task member up follows
      rcases List.mem_cons.mp member with same | inLog
      · cases same
      · obtain ⟨color, met⟩ := ih path task inLog up follows
        exact ⟨color, List.mem_cons_of_mem _ met⟩
  | white _ _ visitLogs _ visited more =>
      intro path task member up follows
      rcases List.mem_cons.mp member with same | later
      · cases same
        obtain ⟨color, met⟩ := visitLogs.meets_each up (mem_sorted.mpr follows.2.2) follows.2.1
        exact ⟨color, List.mem_cons_of_mem _ (List.mem_append_left _ met)⟩
      · rcases List.mem_append.mp later with inVisit | inLog
        · obtain ⟨color, met⟩ := visited path task inVisit up follows
          exact ⟨color, List.mem_cons_of_mem _ (List.mem_append_left _ met)⟩
        · obtain ⟨color, met⟩ := more path task inLog up follows
          exact ⟨color, List.mem_cons_of_mem _ (List.mem_append_right _ met)⟩

/-! ## The colours -/

/-- The path of a search: its tasks are the grey ones, and edges lead along it and to
the neighbours to come. -/
structure OnPath (workflow : Workflow) (neighbors : List String) (dfs : Dfs) : Prop where
  nodup : dfs.path.Nodup
  gray : ∀ taskId, dfs.color taskId = .gray ↔ taskId ∈ dfs.path
  chain : ∀ neighbor ∈ neighbors, neighbor ∈ workflow.tasks →
    (dfs.path ++ [neighbor]).IsChain workflow.Follows

/-- What holds in each round of a search. -/
structure WellMet (workflow : Workflow) (meeting : Meeting) : Prop where
  nodup : meeting.path.Nodup
  gray : meeting.color = .gray ↔ meeting.neighbor ∈ meeting.path
  chain : (meeting.path ++ [meeting.neighbor]).IsChain workflow.Follows

namespace OnPath

variable {neighbor : String} {rest : List String}

theorem wellMet (onPath : OnPath workflow (neighbor :: rest) dfs)
    (known : neighbor ∈ workflow.tasks) {color : Color} (has : dfs.color neighbor = color) :
    WellMet workflow ⟨dfs.path, neighbor, color⟩ where
  nodup := onPath.nodup
  gray := by
    dsimp only
    rw [← has]
    exact onPath.gray neighbor
  chain := onPath.chain neighbor List.mem_cons_self known

theorem tail (onPath : OnPath workflow (neighbor :: rest) dfs) : OnPath workflow rest dfs :=
  ⟨onPath.nodup, onPath.gray,
    fun other member => onPath.chain other (List.mem_cons_of_mem _ member)⟩

theorem report (onPath : OnPath workflow rest dfs) :
    OnPath workflow rest (dfs.report neighbor) := by
  obtain ⟨nodup, gray, chain⟩ := onPath
  rw [← report_path dfs neighbor] at nodup chain
  refine ⟨nodup, fun taskId => ?_, chain⟩
  rw [Dfs.report_color, report_path]
  exact gray taskId

theorem enter (onPath : OnPath workflow (neighbor :: rest) dfs)
    (known : neighbor ∈ workflow.tasks) (white : dfs.color neighbor = .white) :
    OnPath workflow (sorted (workflow.upstream neighbor)) (dfs.enter neighbor) where
  nodup := by
    rw [Dfs.enter, ← List.concat_eq_append]
    refine onPath.nodup.concat fun member => ?_
    rw [← onPath.gray, white] at member
    cases member
  gray taskId := by
    rw [Dfs.enter, List.mem_append, List.mem_singleton, ← onPath.gray]
    by_cases same : taskId = neighbor
    · simp [same]
    · simp [same]
  chain up member upKnown := by
    rw [Dfs.enter, List.append_assoc, List.singleton_append]
    exact List.isChain_append_cons_cons.mpr
      ⟨onPath.chain neighbor List.mem_cons_self known,
        ⟨known, upKnown, mem_sorted.mp member⟩, .singleton up⟩

theorem leave {inner : Dfs} (onPath : OnPath workflow (neighbor :: rest) dfs)
    (white : dfs.color neighbor = .white)
    (logs : workflow.Logs (sorted (workflow.upstream neighbor)) (dfs.enter neighbor) inner log) :
    OnPath workflow rest (inner.leave neighbor) := by
  have path := logs.leave_path
  have kept := Kept.visit white logs.meets.kept
  refine ⟨path ▸ onPath.nodup, fun taskId => ?_, ?_⟩
  · rw [kept.gray, path]
    exact onPath.gray taskId
  · rw [path]
    exact onPath.tail.chain

end OnPath

theorem wellMet (logs : workflow.Logs neighbors dfs final log)
    (onPath : OnPath workflow neighbors dfs) : ∀ meeting ∈ log, WellMet workflow meeting := by
  induction logs with
  | done dfs => exact List.forall_mem_nil _
  | unknown _ _ ih => exact ih onPath.tail
  | gray known color _ ih =>
      exact List.forall_mem_cons.mpr ⟨onPath.wellMet known color, ih onPath.tail.report⟩
  | black known color _ ih =>
      exact List.forall_mem_cons.mpr ⟨onPath.wellMet known color, ih onPath.tail⟩
  | white known color visitLogs _ visited more =>
      refine List.forall_mem_cons.mpr ⟨onPath.wellMet known color, fun meeting member => ?_⟩
      rcases List.mem_append.mp member with inVisit | inLog
      · exact visited (onPath.enter known color) meeting inVisit
      · exact more (onPath.leave color visitLogs) meeting inLog

/-- What a loop does to the tasks that are visited: they are white before, and then no
longer. -/
structure Visits (dfs final : Dfs) (log : List Meeting) : Prop where
  kept : ∀ taskId, final.color taskId = .white → dfs.color taskId = .white
  fresh : ∀ meeting ∈ log, meeting.color = .white → dfs.color meeting.neighbor = .white
  stale : ∀ meeting ∈ log, meeting.color = .white → final.color meeting.neighbor ≠ .white

theorem leave_white {inner : Dfs} {neighbor taskId : String}
    (white : (inner.leave neighbor).color taskId = .white) :
    taskId ≠ neighbor ∧ inner.color taskId = .white := by
  by_cases same : taskId = neighbor
  · simp [Dfs.leave, same] at white
  · exact ⟨same, by simpa [Dfs.leave, same] using white⟩

theorem enter_white {neighbor taskId : String}
    (white : (dfs.enter neighbor).color taskId = .white) :
    taskId ≠ neighbor ∧ dfs.color taskId = .white := by
  by_cases same : taskId = neighbor
  · simp [Dfs.enter, same] at white
  · exact ⟨same, by simpa [Dfs.enter, same] using white⟩

theorem visits (logs : workflow.Logs neighbors dfs final log) : Visits dfs final log := by
  induction logs with
  | done dfs => exact ⟨fun _ white => white, List.forall_mem_nil _, List.forall_mem_nil _⟩
  | unknown _ _ ih => exact ih
  | gray _ color _ ih =>
      obtain ⟨kept, fresh, stale⟩ := ih
      simp only [Dfs.report_color] at kept fresh
      refine ⟨kept, List.forall_mem_cons.mpr ⟨fun white => ?_, fresh⟩,
        List.forall_mem_cons.mpr ⟨fun white => ?_, stale⟩⟩
      · cases white
      · cases white
  | black _ color _ ih =>
      obtain ⟨kept, fresh, stale⟩ := ih
      refine ⟨kept, List.forall_mem_cons.mpr ⟨fun white => ?_, fresh⟩,
        List.forall_mem_cons.mpr ⟨fun white => ?_, stale⟩⟩
      · cases white
      · cases white
  | @white neighbor rest dfs inner final visit log _ color _ _ visited more =>
      have keptMore : ∀ taskId, final.color taskId = .white →
          taskId ≠ neighbor ∧ inner.color taskId = .white := fun taskId white =>
        leave_white (more.kept taskId white)
      have keptVisit : ∀ taskId, inner.color taskId = .white →
          taskId ≠ neighbor ∧ dfs.color taskId = .white := fun taskId white =>
        enter_white (visited.kept taskId white)
      refine ⟨fun taskId white => (keptVisit taskId (keptMore taskId white).2).2,
        List.forall_mem_cons.mpr ⟨fun _ => color, fun meeting member white => ?_⟩,
        List.forall_mem_cons.mpr ⟨fun _ white => (keptMore neighbor white).1 rfl,
          fun meeting member white still => ?_⟩⟩
      · rcases List.mem_append.mp member with inVisit | inLog
        · exact (enter_white (visited.fresh meeting inVisit white)).2
        · exact (keptVisit _ (leave_white (more.fresh meeting inLog white)).2).2
      · rcases List.mem_append.mp member with inVisit | inLog
        · exact visited.stale meeting inVisit white (keptMore _ still).2
        · exact more.stale meeting inLog white still

/-- **No task is visited twice.** -/
theorem pairwise_visits (logs : workflow.Logs neighbors dfs final log) :
    log.Pairwise fun first second => first.color = .white → second.color = .white →
      second.neighbor ≠ first.neighbor := by
  induction logs with
  | done dfs => exact .nil
  | unknown _ _ ih => exact ih
  | gray _ _ _ ih =>
      refine .cons (fun meeting _ white => ?_) ih
      cases white
  | black _ _ _ ih =>
      refine .cons (fun meeting _ white => ?_) ih
      cases white
  | white _ _ visitLogs logs visited more =>
      refine .cons (fun meeting member _ white => ?_) (List.pairwise_append.mpr
        ⟨visited, more, fun first inVisit second inLog firstWhite secondWhite same => ?_⟩)
      · rcases List.mem_append.mp member with inVisit | inLog
        · exact (enter_white (visitLogs.visits.fresh meeting inVisit white)).1
        · exact (leave_white (logs.visits.fresh meeting inLog white)).1
      · have left := leave_white (logs.visits.fresh second inLog secondWhite)
        exact visitLogs.visits.stale first inVisit firstWhite (same ▸ left.2)

/-- The neighbours that are tasks are not white after the loop. -/
theorem color_ne_white (logs : workflow.Logs neighbors dfs final log) :
    ∀ neighbor ∈ neighbors, neighbor ∈ workflow.tasks → final.color neighbor ≠ .white := by
  induction logs with
  | done dfs => exact List.forall_mem_nil _
  | unknown missing _ ih =>
      exact List.forall_mem_cons.mpr ⟨fun known => absurd known missing, ih⟩
  | gray _ color logs ih =>
      refine List.forall_mem_cons.mpr ⟨fun _ white => ?_, ih⟩
      have before := logs.visits.kept _ white
      rw [Dfs.report_color, color] at before
      cases before
  | black _ color logs ih =>
      refine List.forall_mem_cons.mpr ⟨fun _ white => ?_, ih⟩
      cases color.symm.trans (logs.visits.kept _ white)
  | white _ _ _ logs _ more =>
      refine List.forall_mem_cons.mpr ⟨fun _ white => ?_, more⟩
      exact (leave_white (logs.visits.kept _ white)).1 rfl

/-- A task that is no longer white was visited. -/
theorem visited_of_ne_white (logs : workflow.Logs neighbors dfs final log) {task : String} :
    dfs.color task = .white → final.color task ≠ .white → ∃ path, ⟨path, task, .white⟩ ∈ log := by
  induction logs with
  | done dfs => exact fun white colored => absurd white colored
  | unknown _ _ ih => exact ih
  | gray _ _ _ ih =>
      intro white colored
      obtain ⟨path, member⟩ := ih (by rwa [Dfs.report_color]) colored
      exact ⟨path, List.mem_cons_of_mem _ member⟩
  | black _ _ _ ih =>
      intro white colored
      obtain ⟨path, member⟩ := ih white colored
      exact ⟨path, List.mem_cons_of_mem _ member⟩
  | @white neighbor rest dfs inner final visit log _ _ _ _ visited more =>
      intro white colored
      by_cases same : task = neighbor
      · exact ⟨dfs.path, same ▸ List.mem_cons_self⟩
      · by_cases still : inner.color task = .white
        · obtain ⟨path, member⟩ := more (by simpa [Dfs.leave, same] using still) colored
          exact ⟨path, List.mem_cons_of_mem _ (List.mem_append_right _ member)⟩
        · obtain ⟨path, member⟩ := visited (by simpa [Dfs.enter, same] using white) still
          exact ⟨path, List.mem_cons_of_mem _ (List.mem_append_left _ member)⟩

/-! ## The reports -/

/-- The sets in `seen` are those of the cycles found, which are all different. -/
structure Distinct (dfs : Dfs) : Prop where
  seen : ∀ key, key ∈ dfs.seen ↔ ∃ cycle ∈ dfs.cycles, cycle.toFinset = key
  cycles : dfs.cycles.Pairwise fun first second => first.toFinset ≠ second.toFinset

/-- A grey neighbour leaves its cycle among those found. -/
theorem Distinct.report (distinct : Distinct dfs) (neighbor : String) :
    Distinct (dfs.report neighbor) ∧
      (∀ cycle, cycle ∈ (dfs.report neighbor).cycles → cycle ∈ dfs.cycles ∨
        cycle = Meeting.cycle ⟨dfs.path, neighbor, .gray⟩) ∧
      (∀ cycle ∈ dfs.cycles, cycle ∈ (dfs.report neighbor).cycles) ∧
      ∃ cycle ∈ (dfs.report neighbor).cycles,
        cycle.toFinset = (Meeting.cycle ⟨dfs.path, neighbor, .gray⟩).toFinset := by
  rw [Meeting.cycle]
  by_cases old : (dfs.path.drop (dfs.path.idxOf neighbor)).toFinset ∈ dfs.seen
  · rw [Dfs.report, if_pos old]
    exact ⟨distinct, fun _ member => .inl member, fun _ member => member, (distinct.seen _).mp old⟩
  · rw [Dfs.report, if_neg old]
    refine ⟨⟨fun key => ?_, ?_⟩, fun cycle member => ?_, fun cycle member => ?_, _,
      List.mem_append_right _ (List.mem_singleton_self _), rfl⟩
    · simp only [Finset.mem_insert, distinct.seen, List.mem_append, List.mem_singleton]
      constructor
      · rintro (rfl | ⟨cycle, member, rfl⟩)
        · exact ⟨_, .inr rfl, rfl⟩
        · exact ⟨cycle, .inl member, rfl⟩
      · rintro ⟨cycle, member | rfl, rfl⟩
        · exact .inr ⟨cycle, member, rfl⟩
        · exact .inl rfl
    · refine List.pairwise_append.mpr ⟨distinct.cycles, List.pairwise_singleton _ _, ?_⟩
      intro first member second isNew same
      cases List.mem_singleton.mp isNew
      exact old ((distinct.seen _).mpr ⟨first, member, same⟩)
    · simpa using member
    · exact List.mem_append_left _ member

/-- What a loop finds: the cycles of its grey neighbours, up to the order of their tasks. -/
structure Finds (dfs final : Dfs) (log : List Meeting) : Prop where
  distinct : Distinct final
  kept : ∀ cycle ∈ dfs.cycles, cycle ∈ final.cycles
  sound : ∀ cycle ∈ final.cycles, cycle ∈ dfs.cycles ∨
    ∃ meeting ∈ log, meeting.color = .gray ∧ cycle = meeting.cycle
  complete : ∀ meeting ∈ log, meeting.color = .gray →
    ∃ cycle ∈ final.cycles, cycle.toFinset = meeting.cycle.toFinset

/-- A neighbour that is not grey adds nothing to what is found. -/
theorem Finds.cons {meeting : Meeting} (finds : Finds dfs final log)
    (other : meeting.color ≠ .gray) : Finds dfs final (meeting :: log) where
  distinct := finds.distinct
  kept := finds.kept
  sound cycle member := by
    refine (finds.sound cycle member).imp_right ?_
    rintro ⟨found, inLog, gray, same⟩
    exact ⟨found, List.mem_cons_of_mem _ inLog, gray, same⟩
  complete := List.forall_mem_cons.mpr ⟨fun gray => absurd gray other, finds.complete⟩

/-- A visit and the rest of the loop find their cycles together. -/
theorem Finds.append {inner : Dfs} {visit : List Meeting} {neighbor : String}
    (first : Finds (dfs.enter neighbor) inner visit)
    (second : Finds (inner.leave neighbor) final log) : Finds dfs final (visit ++ log) where
  distinct := second.distinct
  kept cycle member := second.kept cycle (first.kept cycle member)
  sound cycle member := by
    rcases second.sound cycle member with earlier | ⟨meeting, inLog, gray, same⟩
    · refine (first.sound cycle earlier).imp_right ?_
      rintro ⟨meeting, inVisit, gray, same⟩
      exact ⟨meeting, List.mem_append_left _ inVisit, gray, same⟩
    · exact .inr ⟨meeting, List.mem_append_right _ inLog, gray, same⟩
  complete meeting member gray := by
    rcases List.mem_append.mp member with inVisit | inLog
    · obtain ⟨cycle, found, same⟩ := first.complete meeting inVisit gray
      exact ⟨cycle, second.kept cycle found, same⟩
    · exact second.complete meeting inLog gray

theorem finds (logs : workflow.Logs neighbors dfs final log) (distinct : Distinct dfs) :
    Finds dfs final log := by
  induction logs with
  | done dfs => exact ⟨distinct, fun _ member => member, fun _ member => .inl member,
      List.forall_mem_nil _⟩
  | unknown _ _ ih => exact ih distinct
  | gray _ _ _ ih =>
      obtain ⟨next, sources, keeps, reported⟩ := distinct.report _
      obtain ⟨last, kept, sound, complete⟩ := ih next
      refine ⟨last, fun cycle member => kept cycle (keeps cycle member), fun cycle member => ?_,
        List.forall_mem_cons.mpr ⟨fun _ => ?_, complete⟩⟩
      · rcases sound cycle member with old | ⟨meeting, inLog, gray, same⟩
        · refine (sources cycle old).imp_right fun same => ?_
          exact ⟨_, List.mem_cons_self, rfl, same⟩
        · exact .inr ⟨meeting, List.mem_cons_of_mem _ inLog, gray, same⟩
      · obtain ⟨cycle, member, same⟩ := reported
        exact ⟨cycle, kept cycle member, same⟩
  | black _ _ _ ih =>
      refine (ih distinct).cons fun gray => ?_
      cases gray
  | white _ _ _ _ visited more =>
      have first := visited ⟨distinct.seen, distinct.cycles⟩
      have second := more ⟨first.distinct.seen, first.distinct.cycles⟩
      refine (first.append second).cons fun gray => ?_
      cases gray

/-- A loop has one end and one log. -/
theorem functional (logs : workflow.Logs neighbors dfs final log) : ∀ {other : Dfs}
    {otherLog : List Meeting}, workflow.Logs neighbors dfs other otherLog →
      final = other ∧ log = otherLog := by
  induction logs with
  | done dfs =>
      intro other otherLog otherLogs
      cases otherLogs
      exact ⟨rfl, rfl⟩
  | unknown missing _ ih =>
      intro other otherLog otherLogs
      cases otherLogs with
      | unknown _ more => exact ih more
      | gray known _ _ => exact absurd known missing
      | black known _ _ => exact absurd known missing
      | white known _ _ _ => exact absurd known missing
  | gray known color _ ih =>
      intro other otherLog otherLogs
      cases otherLogs with
      | unknown missing _ => exact absurd known missing
      | gray _ _ more =>
          obtain ⟨rfl, rfl⟩ := ih more
          exact ⟨rfl, rfl⟩
      | black _ otherColor _ => cases color.symm.trans otherColor
      | white _ otherColor _ _ => cases color.symm.trans otherColor
  | black known color _ ih =>
      intro other otherLog otherLogs
      cases otherLogs with
      | unknown missing _ => exact absurd known missing
      | gray _ otherColor _ => cases color.symm.trans otherColor
      | black _ _ more =>
          obtain ⟨rfl, rfl⟩ := ih more
          exact ⟨rfl, rfl⟩
      | white _ otherColor _ _ => cases color.symm.trans otherColor
  | white known color _ _ visited more =>
      intro other otherLog otherLogs
      cases otherLogs with
      | unknown missing _ => exact absurd known missing
      | gray _ otherColor _ => cases color.symm.trans otherColor
      | black _ otherColor _ => cases color.symm.trans otherColor
      | white _ _ otherVisit otherMore =>
          obtain ⟨rfl, rfl⟩ := visited otherVisit
          obtain ⟨rfl, rfl⟩ := more otherMore
          exact ⟨rfl, rfl⟩

end Logs

end Workflow

end EtlOrchestrator
