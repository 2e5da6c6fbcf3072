import Mathlib.Order.Monotone.Basic
import EtlOrchestrator.Persistence.FiniteMap

/-!
# The history of a store

The store orders the history by the texts of the starts of the runs and, where
these are equal, by the run ids. Where the texts of instants are in the order of
the instants, a run is the first of the history exactly when every other run has
started before it. A run without a start counts as started before all others.
-/

set_option autoImplicit false

namespace EtlOrchestrator

/-- The texts of some instants are not empty, and in the order of the instants. -/
structure Encoding.Chronological (encoding : Encoding) (instants : Set ℚ) : Prop where
  nonempty : ∀ instant ∈ instants, encoding.isoformat instant ≠ ""
  strictMono : StrictMonoOn encoding.isoformat instants

namespace RunSnapshot

/-- A run has started before another one, or at the same instant with a smaller id.
No start comes before all starts. -/
def StartedBefore (run other : RunSnapshot) : Prop :=
  match run.startedAt, other.startedAt with
  | none, none => run.runId < other.runId
  | none, some _ => True
  | some _, none => False
  | some first, some second => first < second ∨ first = second ∧ run.runId < other.runId

/-- The starts of a list of runs. -/
def starts (runs : List RunSnapshot) : Set ℚ :=
  { instant | ∃ run ∈ runs, run.startedAt = some instant }

end RunSnapshot

namespace RunStore

variable {encoding : Encoding} {store : RunStore} {runs : List RunSnapshot}
  {run other : RunSnapshot}

/-! ## Ranks -/

/-- The terms by which the history orders a run. -/
def rankOf (encoding : Encoding) (run : RunSnapshot) : String ×ₗ String :=
  toLex ((encoding.dumpDt run.startedAt).getD "", run.runId)

/-- The ranks of two runs are in the order of their starts. -/
theorem rankOf_le_iff (chronological : encoding.Chronological (RunSnapshot.starts runs))
    (member : run ∈ runs) (otherMember : other ∈ runs) (different : run.runId ≠ other.runId) :
    rankOf encoding run ≤ rankOf encoding other ↔ run.StartedBefore other := by
  have ids : run.runId ≤ other.runId ↔ run.runId < other.runId := by
    rw [le_iff_lt_or_eq, or_iff_left different]
  have positive : ∀ {text : String}, text ≠ "" → "" < text := by
    intro text notEmpty
    rw [String.lt_iff_toList_lt]
    cases characters : text.toList with
    | nil => exact absurd (String.toList_eq_nil_iff.mp characters) notEmpty
    | cons first rest => exact List.nil_lt_cons ..
  rw [rankOf, rankOf, Prod.Lex.toLex_le_toLex, RunSnapshot.StartedBefore]
  cases first : run.startedAt with
  | none =>
      cases second : other.startedAt with
      | none => simp [Encoding.dumpDt, ids]
      | some instant =>
          have notEmpty := chronological.nonempty instant ⟨other, otherMember, second⟩
          simp [Encoding.dumpDt, positive notEmpty]
  | some instant =>
      have notEmpty := chronological.nonempty instant ⟨run, member, first⟩
      cases second : other.startedAt with
      | none => simp [Encoding.dumpDt, notEmpty, not_lt_of_gt (positive notEmpty)]
      | some later =>
          have earlierStart : instant ∈ RunSnapshot.starts runs := ⟨run, member, first⟩
          have laterStart : later ∈ RunSnapshot.starts runs := ⟨other, otherMember, second⟩
          simp only [Encoding.dumpDt, Option.map_some, Option.getD_some, ids,
            chronological.strictMono.lt_iff_lt earlierStart laterStart,
            chronological.strictMono.injOn.eq_iff earlierStart laterStart]

/-! ## The listed runs -/

/-- The rows of a store are those of some runs. -/
structure Lists (encoding : Encoding) (store : RunStore) (runs : List RunSnapshot) : Prop where
  row : ∀ row ∈ store.workflowRuns.rows, ∃ run ∈ runs, ∃ text,
    encoding.dumps run.params = .ok text ∧ row = workflowRow encoding run text
  stored : ∀ run ∈ runs, ∃ text, encoding.dumps run.params = .ok text ∧
    workflowRow encoding run text ∈ store.workflowRuns.rows

theorem Lists.empty : Lists encoding ∅ [] where
  row _ member := absurd member List.not_mem_nil
  stored _ member := absurd member List.not_mem_nil

/-- A save takes the place of a run with the same id. -/
theorem Lists.save (lists : Lists encoding store runs) (storable : Storable encoding run) :
    Lists encoding (storeAfter (saveRun encoding run) store)
      (runs.filter (·.runId ≠ run.runId) ++ [run]) := by
  obtain ⟨text, dumped, rows⟩ := (storeAfter_saveRun storable store).row
  constructor
  · intro row member
    rw [rows, KeyedTable.mem_insertOrReplace] at member
    rcases member with rfl | ⟨old, different⟩
    · exact ⟨run, by simp, text, dumped, rfl⟩
    · obtain ⟨other, otherMember, otherText, otherDumped, rfl⟩ := lists.row row old
      exact ⟨other, List.mem_append_left _
        (List.mem_filter.mpr ⟨otherMember, decide_eq_true different⟩), otherText, otherDumped, rfl⟩
  · intro other member
    simp only [rows, KeyedTable.mem_insertOrReplace]
    rcases List.mem_append.mp member with old | new
    · obtain ⟨otherMember, different⟩ := List.mem_filter.mp old
      obtain ⟨otherText, otherDumped, stored⟩ := lists.stored other otherMember
      exact ⟨otherText, otherDumped, .inr ⟨stored, of_decide_eq_true different⟩⟩
    · obtain rfl := List.mem_singleton.mp new
      exact ⟨text, dumped, .inl rfl⟩

/-- A save of a new run adds it. -/
theorem Lists.save_new (lists : Lists encoding store runs) (storable : Storable encoding run)
    (new : ∀ other ∈ runs, other.runId ≠ run.runId) :
    Lists encoding (storeAfter (saveRun encoding run) store) (runs ++ [run]) := by
  have kept : runs.filter (·.runId ≠ run.runId) = runs :=
    List.filter_eq_self.mpr fun other member => decide_eq_true (new other member)
  have saved := lists.save storable
  rwa [kept] at saved

/-! ## The first of the history -/

@[simp] theorem loadSummary_workflowRow (run : RunSnapshot) (text : String) :
    loadSummary encoding (workflowRow encoding run text) = .ok run.summary := by
  simp [loadSummary, workflowRow, RunSnapshot.summary]

/-- Whether the runs of a workflow are part of a history. -/
def IsOf (wanted : Option String) (workflowId : String) : Prop :=
  ∀ workflow ∈ wanted, workflowId = workflow

variable {wanted : Option String}

theorem mem_select_iff {row : WorkflowRow} :
    row ∈ store.workflowRuns.select (fun row => wanted.all (row.workflowId = ·)) ↔
      row ∈ store.workflowRuns.rows ∧ IsOf wanted row.workflowId := by
  rw [KeyedTable.select, List.mem_filter, IsOf]
  cases wanted with
  | none => simp
  | some workflow => simp

/-- The rows of a history have distinct ranks. -/
theorem nodup_ranks (store : RunStore) (wanted : Option String) :
    ((store.workflowRuns.select fun row => wanted.all (row.workflowId = ·)).map
      WorkflowRow.rank).Nodup := by
  have keys : ((store.workflowRuns.select fun row => wanted.all (row.workflowId = ·)).map
      WorkflowRow.runId).Nodup :=
    (List.filter_sublist.map WorkflowRow.runId).nodup store.workflowRuns.distinct
  apply List.Nodup.of_map fun rank => (ofLex rank).2
  rw [List.map_map]
  exact keys

/-- The summaries are those of the rows. -/
theorem head?_of_forall₂ {rows : List WorkflowRow} {summaries : List RunSummary}
    (loaded : List.Forall₂ (fun row summary => loadSummary encoding row = .ok summary) rows
      summaries) (summary : RunSummary) :
    summaries.head? = some summary ↔
      ∃ row, rows.head? = some row ∧ loadSummary encoding row = .ok summary := by
  cases loaded with
  | nil => simp
  | @cons row first rows rest related _ =>
      simp only [List.head?_cons, Option.some_inj]
      constructor
      · rintro rfl
        exact ⟨row, rfl, related⟩
      · rintro ⟨_, rfl, again⟩
        rw [related] at again
        exact Except.ok.inj again

/-- **A run is the first of a history exactly when every other run there has started
before it.** -/
theorem Lists.head?_listRuns_iff (wanted : Option String) (lists : Lists encoding store runs)
    (chronological : encoding.Chronological (RunSnapshot.starts runs))
    (distinct : (runs.map RunSnapshot.runId).Nodup) (member : run ∈ runs) :
    ∃ summaries, listRuns encoding store wanted = .ok summaries ∧
      (summaries.head? = some run.summary ↔ IsOf wanted run.workflowId ∧
        ∀ other ∈ runs, IsOf wanted other.workflowId → other.runId ≠ run.runId →
          other.StartedBefore run) := by
  have returns : ∀ row ∈ store.historyRows wanted, ∃ summary,
      loadSummary encoding row = .ok summary := by
    intro row inHistory
    obtain ⟨inRows, _⟩ := mem_select_iff.mp (orderByDesc_perm.mem_iff.mp inHistory)
    obtain ⟨other, _, text, _, rfl⟩ := lists.row row inRows
    exact ⟨other.summary, loadSummary_workflowRow other text⟩
  obtain ⟨summaries, listed, loaded⟩ := Except.exists_mapM_eq_ok returns
  refine ⟨summaries, listed, ?_⟩
  rw [head?_of_forall₂ loaded]
  simp only [historyRows, head?_orderByDesc_iff (nodup_ranks store wanted), mem_select_iff]
  obtain ⟨text, dumped, stored⟩ := lists.stored run member
  constructor
  · rintro ⟨row, ⟨⟨inRows, isOf⟩, greatest⟩, summary⟩
    -- The row with the summary of the run is the row of the run.
    obtain rfl : row = workflowRow encoding run text := by
      obtain ⟨other, otherMember, otherText, _, rfl⟩ := lists.row row inRows
      rw [loadSummary_workflowRow, Except.ok.injEq] at summary
      have sameId : other.runId = run.runId := congrArg RunSummary.runId summary
      exact List.inj_on_of_nodup_map store.workflowRuns.distinct inRows stored sameId
    refine ⟨isOf, fun other otherMember otherOf different => ?_⟩
    obtain ⟨otherText, _, otherStored⟩ := lists.stored other otherMember
    exact (rankOf_le_iff chronological otherMember member different).mp
      (greatest (workflowRow encoding other otherText) ⟨otherStored, otherOf⟩)
  · rintro ⟨isOf, before⟩
    refine ⟨workflowRow encoding run text, ⟨⟨stored, isOf⟩, ?_⟩, loadSummary_workflowRow run text⟩
    rintro row ⟨inRows, otherOf⟩
    obtain ⟨other, otherMember, otherText, _, rfl⟩ := lists.row row inRows
    by_cases same : other.runId = run.runId
    · obtain rfl := List.inj_on_of_nodup_map distinct otherMember member same
      exact le_refl _
    · exact (rankOf_le_iff chronological otherMember member same).mpr
        (before other otherMember otherOf same)

/-- The latest run is the first of the history of its workflow. -/
theorem latestRun_eq_of_listRuns {workflowId : String} {summaries : List RunSummary}
    (listed : listRuns encoding store (some workflowId) = .ok summaries) :
    latestRun encoding store workflowId = .ok summaries.head? := by
  rw [latestRun, listed]
  rfl

end RunStore

end EtlOrchestrator
