import Mathlib.Data.Rat.Denumerable
import EtlOrchestrator.Foundations.Fallible
import EtlOrchestrator.Persistence

/-!
# The store as a finite map

A save succeeds exactly for the runs that are storable: their parameters can be
written, and no two of their records carry the same task id. A save that raises is
rolled back, one that succeeds is read back as the run that was saved, and no save
is seen at another run id. So after any sequence of saves each run id gives the
last storable run that was saved under it.
-/

set_option autoImplicit false

namespace EtlOrchestrator

/-! ## Dictionaries filled in a loop -/

/-- What a loop of assignments at distinct keys stores. -/
theorem OrderedDict.get?_foldl_set {κ ν ρ : Type} [DecidableEq κ] (keyOf : ρ → κ) (valueOf : ρ → ν)
    (rows : List ρ) : ∀ dict : OrderedDict κ ν, (rows.map keyOf).Nodup →
      (∀ row ∈ rows, keyOf row ∉ dict) → ∀ key value,
      (rows.foldl (fun filled row => filled.set (keyOf row) (valueOf row)) dict).get? key =
          some value ↔
        dict.get? key = some value ∨ ∃ row ∈ rows, keyOf row = key ∧ valueOf row = value := by
  induction rows with
  | nil => simp
  | cons row rest ih =>
      intro dict distinct fresh key value
      obtain ⟨new, restDistinct⟩ := List.nodup_cons.mp distinct
      have freshLater : ∀ other ∈ rest, keyOf other ∉ dict.set (keyOf row) (valueOf row) := by
        intro other member present
        rcases OrderedDict.mem_set.mp present with same | old
        · exact new (same ▸ List.mem_map_of_mem member)
        · exact fresh other (List.mem_cons_of_mem _ member) old
      rw [List.foldl_cons, ih _ restDistinct freshLater, OrderedDict.get?_set]
      by_cases same : key = keyOf row
      · subst same
        have absent : dict.get? (keyOf row) = none :=
          OrderedDict.get?_eq_none_iff.mpr (fresh row List.mem_cons_self)
        simp [absent]
      · simp [same, Ne.symm same]

namespace RunStore

variable {encoding : Encoding}

/-! ## The statements -/

/-- Rolling back: a transaction that raises leaves the store as it was. -/
theorem transaction_run {α : Type} (block : Storing α) (store : RunStore) :
    (transaction block).run store = match block.run store with
      | .ok result after => .ok result after
      | .error error _ => .error error store := rfl

theorem insertTask_run_iff {row : TaskRow} {store after : RunStore} :
    (insertTask row).run store = .ok () after ↔
      after.workflowRuns = store.workflowRuns ∧
        after.taskRuns.rows = store.taskRuns.rows ++ [row] := by
  rw [insertTask, EStateM.run_bind, EStateM.run_get]
  dsimp only
  cases inserted : store.taskRuns.insert? row with
  | none =>
      refine iff_of_false (fun returned => by cases returned) fun ⟨_, rows⟩ => ?_
      rw [KeyedTable.insert?_eq_some_iff.mpr rows] at inserted
      cases inserted
  | some taskRuns =>
      have rows := KeyedTable.insert?_eq_some_iff.mp inserted
      have returned : (set { store with taskRuns } : Storing Unit).run store =
          .ok () { store with taskRuns } := rfl
      rw [returned, EStateM.Result.ok.injEq, RunStore.ext_iff, KeyedTable.ext_iff (x := taskRuns),
        rows]
      simp only [true_and, eq_comm]

/-- The rows of records are inserted exactly when all rows together make a table. -/
theorem insertRecords_run_iff {runId : String} (records : List TaskRunRecord) :
    ∀ {store after : RunStore}, (insertRecords encoding runId records).run store = .ok () after ↔
      after.workflowRuns = store.workflowRuns ∧
        after.taskRuns.rows = store.taskRuns.rows ++ records.map (taskRow encoding runId) := by
  induction records with
  | nil =>
      intro store after
      simp only [insertRecords, EStateM.run_pure, EStateM.Result.ok.injEq, true_and, List.map_nil,
        List.append_nil, RunStore.ext_iff, KeyedTable.ext_iff, eq_comm]
  | cons record rest ih =>
      intro store after
      rw [insertRecords, EStateM.run_bind]
      constructor
      · intro returned
        cases inserted : (insertTask (taskRow encoding runId record)).run store with
        | error error middle =>
            rw [inserted] at returned
            cases returned
        | ok result middle =>
            rw [inserted] at returned
            obtain ⟨sameRuns, rows⟩ := insertTask_run_iff.mp inserted
            obtain ⟨laterRuns, laterRows⟩ := ih.mp returned
            exact ⟨laterRuns.trans sameRuns, by rw [laterRows, rows]; simp⟩
      · rintro ⟨sameRuns, rows⟩
        rw [List.map_cons, List.append_cons] at rows
        -- The rows up to this record are part of a table.
        have distinct := after.taskRuns.distinct
        rw [rows, List.map_append] at distinct
        let middle : RunStore :=
          { store with taskRuns := ⟨_, (List.nodup_append.mp distinct).1⟩ }
        have inserted : (insertTask (taskRow encoding runId record)).run store = .ok () middle :=
          insertTask_run_iff.mpr ⟨rfl, rfl⟩
        rw [inserted]
        exact ih.mpr ⟨sameRuns, rows⟩

/-! ## Saving -/

/-- A run that a save accepts: its parameters can be written, and no two records
carry one task id. -/
structure Storable (encoding : Encoding) (run : RunSnapshot) : Prop where
  serializable : ∃ text, encoding.dumps run.params = .ok text
  distinct : (run.records.values.map TaskRunRecord.taskId).Nodup

/-- What a save that succeeds leaves in the tables. -/
structure Saved (encoding : Encoding) (run : RunSnapshot) (before after : RunStore) : Prop where
  row : ∃ text, encoding.dumps run.params = .ok text ∧
    after.workflowRuns = before.workflowRuns.insertOrReplace (workflowRow encoding run text)
  tasks : after.taskRuns.rows = (before.taskRuns.delete (·.runId = run.runId)).rows ++
    run.records.values.map (taskRow encoding run.runId)

/-- The statements of a save after its parameters have been written. -/
theorem saveStatements_run_of_ok {run : RunSnapshot} {text : String}
    (dumped : encoding.dumps run.params = .ok text) (store : RunStore) :
    (saveStatements encoding run).run store =
      (insertRecords encoding run.runId run.records.values).run
        { workflowRuns := store.workflowRuns.insertOrReplace (workflowRow encoding run text)
          taskRuns := store.taskRuns.delete (·.runId = run.runId) } := by
  rw [saveStatements, dumped]
  rfl

/-- **A save returns exactly when it leaves the row of the run in place of the old
one, and the rows of its records in place of all old ones.** -/
theorem saveRun_run_iff {run : RunSnapshot} {store after : RunStore} :
    (saveRun encoding run).run store = .ok () after ↔ Saved encoding run store after := by
  rw [saveRun, transaction_run]
  cases dumped : encoding.dumps run.params with
  | error error =>
      have raised : (saveStatements encoding run).run store = .error error store := by
        rw [saveStatements, dumped]
        rfl
      rw [raised]
      refine iff_of_false (fun returned => by cases returned) fun saved => ?_
      obtain ⟨text, written, _⟩ := saved.row
      rw [dumped] at written
      cases written
  | ok text =>
      have inserted := @insertRecords_run_iff encoding run.runId run.records.values
        { workflowRuns := store.workflowRuns.insertOrReplace (workflowRow encoding run text)
          taskRuns := store.taskRuns.delete (·.runId = run.runId) } after
      have saved : Saved encoding run store after ↔
          after.workflowRuns = store.workflowRuns.insertOrReplace (workflowRow encoding run text) ∧
            after.taskRuns.rows = (store.taskRuns.delete (·.runId = run.runId)).rows ++
              run.records.values.map (taskRow encoding run.runId) := by
        constructor
        · rintro ⟨⟨other, written, row⟩, tasks⟩
          rw [dumped] at written
          cases written
          exact ⟨row, tasks⟩
        · rintro ⟨row, tasks⟩
          exact ⟨⟨text, dumped, row⟩, tasks⟩
      rw [saved, ← inserted, saveStatements_run_of_ok dumped]
      split
      · rename_i returned
        rw [returned]
      · rename_i raised
        rw [raised]
        exact iff_of_false (fun same => by cases same) fun same => by cases same

/-- **A save that raises leaves the store as it was.** -/
theorem eq_of_saveRun_error {run : RunSnapshot} {store after : RunStore} {error : PyError}
    (raised : (saveRun encoding run).run store = .error error after) : after = store := by
  rw [saveRun, transaction_run] at raised
  split at raised
  · cases raised
  · cases raised
    rfl

/-- **A save returns exactly for the storable runs.** -/
theorem saveRun_returns_iff {run : RunSnapshot} (store : RunStore) :
    (∃ after, (saveRun encoding run).run store = .ok () after) ↔ Storable encoding run := by
  have keys : (run.records.values.map (taskRow encoding run.runId)).map TaskRow.key =
      (run.records.values.map TaskRunRecord.taskId).map (Prod.mk run.runId) := by
    simp only [List.map_map]
    rfl
  constructor
  · rintro ⟨after, returned⟩
    obtain ⟨⟨text, dumped, _⟩, tasks⟩ := saveRun_run_iff.mp returned
    have distinct := after.taskRuns.distinct
    rw [tasks, List.map_append, keys] at distinct
    exact ⟨⟨text, dumped⟩, (List.nodup_append.mp distinct).2.1.of_map _⟩
  · rintro ⟨⟨text, dumped⟩, distinct⟩
    have apart : (((store.taskRuns.delete (·.runId = run.runId)).rows ++
        run.records.values.map (taskRow encoding run.runId)).map TaskRow.key).Nodup := by
      rw [List.map_append, keys, List.nodup_append]
      refine ⟨(store.taskRuns.delete _).distinct,
        distinct.map fun first second same => (Prod.mk.inj same).2, ?_⟩
      rintro key old _ new rfl
      obtain ⟨row, member, rfl⟩ := List.mem_map.mp old
      obtain ⟨taskId, _, same⟩ := List.mem_map.mp new
      have deleted := (List.mem_filter.mp member).2
      simp [← (Prod.mk.inj same).1] at deleted
    exact ⟨⟨_, ⟨_, apart⟩⟩, saveRun_run_iff.mpr ⟨⟨text, dumped, rfl⟩, rfl⟩⟩

end RunStore

/-! ## Loading -/

namespace RunSnapshot

/-- A run as it comes back from the store: its records stand in ascending order of
their task ids, each under its own. -/
def reload (run : RunSnapshot) : RunSnapshot :=
  { run with
    records := (run.records.values.insertionSort fun first second =>
      first.taskId ≤ second.taskId).foldl
        (fun records record => records.set record.taskId record) ∅ }

variable {run : RunSnapshot}

theorem mem_values_iff {record : TaskRunRecord} :
    record ∈ run.records.values ↔ ∃ taskId, run.records.get? taskId = some record := by
  simp [OrderedDict.values, OrderedDict.get?_eq_some_iff]

theorem get?_reload (distinct : (run.records.values.map TaskRunRecord.taskId).Nodup)
    {taskId : String} {record : TaskRunRecord} :
    run.reload.records.get? taskId = some record ↔
      record ∈ run.records.values ∧ record.taskId = taskId := by
  have perm := List.perm_insertionSort (fun first second : TaskRunRecord =>
    first.taskId ≤ second.taskId) run.records.values
  have filled : run.reload.records.get? taskId = some record ↔ _ :=
    OrderedDict.get?_foldl_set TaskRunRecord.taskId id _ ∅
      ((perm.map _).nodup_iff.mpr distinct) (fun _ _ => OrderedDict.not_mem_empty _) taskId record
  rw [filled, OrderedDict.get?_empty, or_iff_right (Option.some_ne_none _).symm]
  constructor
  · rintro ⟨row, member, sameId, rfl⟩
    exact ⟨perm.mem_iff.mp member, sameId⟩
  · rintro ⟨member, sameId⟩
    exact ⟨record, perm.mem_iff.mpr member, sameId, rfl⟩

/-- The records of a keyed run have distinct task ids. -/
theorem Keyed.distinct (keyed : run.Keyed) :
    (run.records.values.map TaskRunRecord.taskId).Nodup := by
  have same : run.records.values.map TaskRunRecord.taskId = run.records.keys := by
    rw [OrderedDict.values, OrderedDict.keys, List.map_map]
    refine List.map_congr_left fun entry member => ?_
    exact keyed entry.1 entry.2 (OrderedDict.get?_eq_some_iff.mpr member)
  rw [same]
  exact run.records.nodupKeys

/-- **A keyed run comes back as it was.** -/
theorem Keyed.same_reload (keyed : run.Keyed) : run.reload.Same run where
  workflowId := rfl
  runId := rfl
  workflowState := rfl
  params := rfl
  records taskId := by
    rw [Option.ext_iff]
    intro record
    rw [get?_reload keyed.distinct]
    constructor
    · rintro ⟨member, sameId⟩
      obtain ⟨other, stored⟩ := mem_values_iff.mp member
      obtain rfl : other = taskId := (keyed other record stored).symm.trans sameId
      exact stored
    · intro stored
      exact ⟨mem_values_iff.mpr ⟨taskId, stored⟩, keyed taskId record stored⟩
  log := rfl
  startedAt := rfl
  finishedAt := rfl

/-- Whatever comes back is keyed. -/
theorem keyed_reload (distinct : (run.records.values.map TaskRunRecord.taskId).Nodup) :
    run.reload.Keyed := fun _ _ stored => ((get?_reload distinct).mp stored).2

end RunSnapshot

namespace RunStore

variable {encoding : Encoding} {run : RunSnapshot} {before after : RunStore}

@[simp] theorem loadRecord_taskRow (runId : String) (record : TaskRunRecord) :
    loadRecord encoding (taskRow encoding runId record) = .ok record := by
  simp [loadRecord, taskRow]

theorem loadRecords_map (runId : String) (records : List TaskRunRecord) : ∀ filled,
    loadRecords encoding (records.map (taskRow encoding runId)) filled =
      .ok (records.foldl (fun filled record => filled.set record.taskId record) filled) := by
  induction records with
  | nil => exact fun _ => rfl
  | cons record rest ih =>
      intro filled
      rw [List.map_cons, loadRecords, loadRecord_taskRow]
      exact ih _

theorem Saved.taskRows (saved : Saved encoding run before after) :
    after.taskRows run.runId = (run.records.values.insertionSort fun first second =>
      first.taskId ≤ second.taskId).map (taskRow encoding run.runId) := by
  have old : (before.taskRuns.delete (·.runId = run.runId)).rows.filter (·.runId = run.runId) =
      [] := before.taskRuns.select_delete_self _
  have new : (run.records.values.map (taskRow encoding run.runId)).filter
      (·.runId = run.runId) = run.records.values.map (taskRow encoding run.runId) := by
    rw [List.filter_eq_self]
    intro row member
    obtain ⟨record, _, rfl⟩ := List.mem_map.mp member
    exact decide_eq_true rfl
  rw [RunStore.taskRows, KeyedTable.select, saved.tasks, List.filter_append, old, new,
    List.nil_append]
  exact (List.map_insertionSort (r := fun first second : TaskRunRecord =>
    first.taskId ≤ second.taskId) (s := fun first second : TaskRow =>
    first.taskId ≤ second.taskId) _ _ fun _ _ _ _ => Iff.rfl).symm

/-- **After a save the run is read back.** -/
theorem Saved.loadRun (saved : Saved encoding run before after) :
    loadRun encoding after run.runId = .ok (some run.reload) := by
  obtain ⟨text, dumped, row⟩ := saved.row
  have found : after.workflowRuns.find? run.runId = some (workflowRow encoding run text) := by
    rw [row]
    exact KeyedTable.find?_insertOrReplace_self _ _
  rw [RunStore.loadRun, found, saved.taskRows]
  simp [workflowRow, encoding.loads_dumps _ _ dumped, loadRecords_map, RunSnapshot.reload]

/-- **A save is not seen at another run id.** -/
theorem Saved.loadRun_of_ne (saved : Saved encoding run before after) {runId : String}
    (different : runId ≠ run.runId) :
    RunStore.loadRun encoding after runId = RunStore.loadRun encoding before runId := by
  obtain ⟨text, dumped, row⟩ := saved.row
  have sameRow : after.workflowRuns.find? runId = before.workflowRuns.find? runId := by
    rw [row]
    exact KeyedTable.find?_insertOrReplace_of_ne _ different
  have sameTasks : after.taskRows runId = before.taskRows runId := by
    have notNew : (run.records.values.map (taskRow encoding run.runId)).filter
        (·.runId = runId) = [] := by
      rw [List.filter_eq_nil_iff]
      intro row member
      obtain ⟨record, _, rfl⟩ := List.mem_map.mp member
      simp [taskRow, different.symm]
    have notOld : (before.taskRuns.delete (·.runId = run.runId)).select (·.runId = runId) =
        before.taskRuns.select (·.runId = runId) := by
      apply KeyedTable.select_delete
      intro row
      simp only [decide_eq_true_eq, decide_eq_false_iff_not]
      exact fun same other => different (same.symm.trans other)
    rw [RunStore.taskRows, KeyedTable.select, saved.tasks, List.filter_append, notNew,
      List.append_nil]
    exact congrArg _ notOld
  rw [RunStore.loadRun, sameRow, sameTasks]
  rfl

/-- The store after a program has returned or raised. -/
def storeAfter {α : Type} (program : Storing α) (store : RunStore) : RunStore :=
  match program.run store with
  | .ok _ after => after
  | .error _ after => after

/-- The store after a save that returns. -/
theorem storeAfter_saveRun (storable : Storable encoding run) (store : RunStore) :
    Saved encoding run store (storeAfter (saveRun encoding run) store) := by
  obtain ⟨after, returned⟩ := (saveRun_returns_iff store).mpr storable
  rw [storeAfter, returned]
  exact saveRun_run_iff.mp returned

/-- The store after a save that raises. -/
theorem storeAfter_saveRun_of_not (refused : ¬ Storable encoding run) (store : RunStore) :
    storeAfter (saveRun encoding run) store = store := by
  rw [storeAfter]
  split
  · rename_i returned
    exact absurd ((saveRun_returns_iff store).mp ⟨_, returned⟩) refused
  · rename_i raised
    exact eq_of_saveRun_error raised

/-- What a save leaves to be loaded. -/
theorem loadRun_storeAfter_saveRun (encoding : Encoding) (run : RunSnapshot) (store : RunStore)
    (runId : String) :
    RunStore.loadRun encoding (storeAfter (saveRun encoding run) store) runId =
        RunStore.loadRun encoding store runId ∨
      Storable encoding run ∧ run.runId = runId ∧
        RunStore.loadRun encoding (storeAfter (saveRun encoding run) store) runId =
          .ok (some run.reload) := by
  by_cases storable : Storable encoding run
  · have saved := storeAfter_saveRun storable store
    by_cases same : run.runId = runId
    · subst same
      exact .inr ⟨storable, rfl, saved.loadRun⟩
    · exact .inl (saved.loadRun_of_ne (Ne.symm same))
  · exact .inl (by rw [storeAfter_saveRun_of_not storable])

end RunStore

/-! ## A sample encoding -/

namespace Encoding

/-- The texts of the first minutes of 1970. -/
def firstMinutes : List (ℚ × String) :=
  [(0, "1970-01-01T00:00:00+00:00"), (60, "1970-01-01T00:01:00+00:00"),
    (120, "1970-01-01T00:02:00+00:00"), (180, "1970-01-01T00:03:00+00:00")]

/-- `isoformat` on the first minutes of 1970, and an invertible text elsewhere. -/
def sampleIsoformat (instant : ℚ) : String :=
  match firstMinutes.find? (·.1 = instant) with
  | some minute => minute.2
  | none => String.ofList (List.replicate (Encodable.encode instant) 'I')

/-- `fromisoformat` on the texts of `sampleIsoformat`. -/
def sampleFromisoformat (text : String) : Except PyError ℚ :=
  match firstMinutes.find? (·.2 = text) with
  | some minute => .ok minute.1
  | none => match (Encodable.decode text.length : Option ℚ) with
    | some instant => .ok instant
    | none => .error (.valueError s!"Invalid isoformat string: '{text}'")

theorem sampleFromisoformat_sampleIsoformat (instant : ℚ) :
    sampleFromisoformat (sampleIsoformat instant) = .ok instant := by
  rw [sampleIsoformat]
  split
  · rename_i minute found
    have listed := List.mem_of_find?_eq_some found
    obtain rfl : minute.1 = instant := by simpa using List.find?_some found
    have back : ∀ minute ∈ firstMinutes, firstMinutes.find? (·.2 = minute.2) = some minute := by
      decide +kernel
    rw [sampleFromisoformat, back minute listed]
  · have other : firstMinutes.find? (·.2 =
        String.ofList (List.replicate (Encodable.encode instant) 'I')) = none := by
      rw [List.find?_eq_none]
      have digits : ∀ minute ∈ firstMinutes, '1' ∈ minute.2.toList := by decide +kernel
      intro minute listed same
      have digit := digits minute listed
      rw [of_decide_eq_true same, String.toList_ofList, List.mem_replicate] at digit
      exact absurd digit.2 (by decide)
    rw [sampleFromisoformat, other]
    simp

/-- An encoding that writes only the empty parameters. -/
def sample : Encoding where
  dumps params :=
    if params.entries.isEmpty then .ok "{}"
    else .error (.other "TypeError" "Object of type object is not JSON serializable")
  loads text := if text = "{}" then .ok ∅ else .error (.other "JSONDecodeError" "Expecting value")
  loads_dumps params text dumped := by
    split at dumped
    · rename_i noEntries
      obtain rfl : params = ∅ := by
        obtain ⟨entries, distinct⟩ := params
        rw [List.isEmpty_iff] at noEntries
        cases noEntries
        rfl
      cases dumped
      rfl
    · cases dumped
  isoformat := sampleIsoformat
  fromisoformat := sampleFromisoformat
  fromisoformat_isoformat := sampleFromisoformat_sampleIsoformat
end Encoding

/-! ## Sequences of saves -/

namespace RunStore

variable (encoding : Encoding)

/-- The store after a sequence of saves, of which any may have raised. -/
def saveAll : RunStore → List RunSnapshot → RunStore
  | store, [] => store
  | store, run :: rest => saveAll (storeAfter (saveRun encoding run) store) rest

/-- The runs of a sequence of saves whose save returned. -/
def returned : RunStore → List RunSnapshot → List RunSnapshot
  | _, [] => []
  | store, run :: rest =>
      match (saveRun encoding run).run store with
      | .ok _ after => run :: returned after rest
      | .error _ after => returned after rest

/-- The purpose of a store: each run id has the last of the runs saved under it. -/
def lastSaved (saved : List RunSnapshot) (runId : String) : Option RunSnapshot :=
  saved.reverse.find? (·.runId = runId)

/-- The store gives back, as far as `==` can tell, the runs of a finite map. -/
structure Represents (store : RunStore) (runs : String → Option RunSnapshot) : Prop where
  unknown : ∀ runId, loadRun encoding store runId = .ok none ↔ runs runId = none
  known : ∀ runId run, runs runId = some run →
    ∃ loaded, loadRun encoding store runId = .ok (some loaded) ∧ loaded.Same run

variable {encoding}

theorem returned_cons (store : RunStore) (run : RunSnapshot) (rest : List RunSnapshot) :
    returned encoding store (run :: rest) =
        run :: returned encoding (storeAfter (saveRun encoding run) store) rest ∧
          Storable encoding run ∨
      returned encoding store (run :: rest) = returned encoding store rest ∧
        ¬ Storable encoding run := by
  rw [returned]
  split
  · rename_i ran
    refine .inl ⟨?_, (saveRun_returns_iff store).mp ⟨_, ran⟩⟩
    rw [storeAfter, ran]
  · rename_i raised
    refine .inr ⟨by rw [eq_of_saveRun_error raised], fun storable => ?_⟩
    obtain ⟨after, ran⟩ := (saveRun_returns_iff store).mpr storable
    rw [ran] at raised
    cases raised

theorem lastSaved_cons (run : RunSnapshot) (rest : List RunSnapshot) (runId : String) :
    lastSaved (run :: rest) runId =
      (lastSaved rest runId).or (if run.runId = runId then some run else none) := by
  rw [lastSaved, List.reverse_cons, List.find?_append, lastSaved]
  by_cases same : run.runId = runId
  · simp [same]
  · simp [same]

/-- **The store after a sequence of saves, as a finite map.** -/
theorem loadRun_saveAll (runs : List RunSnapshot) : ∀ (store : RunStore) (runId : String),
    loadRun encoding (saveAll encoding store runs) runId =
      ((lastSaved (returned encoding store runs) runId).map fun run =>
        Except.ok (some run.reload)).getD (loadRun encoding store runId) := by
  induction runs with
  | nil => exact fun _ _ => rfl
  | cons run rest ih =>
      intro store runId
      rw [saveAll, ih]
      rcases returned_cons store run rest with ⟨split, storable⟩ | ⟨split, refused⟩
      · have saved := storeAfter_saveRun storable store
        rw [split, lastSaved_cons]
        cases lastSaved (returned encoding (storeAfter (saveRun encoding run) store) rest)
          runId with
        | some later => rfl
        | none =>
            by_cases same : run.runId = runId
            · subst same
              simp [saved.loadRun]
            · simp [same, saved.loadRun_of_ne (Ne.symm same)]
      · rw [split, storeAfter_saveRun_of_not refused]

theorem loadRun_empty (runId : String) : loadRun encoding ∅ runId = .ok none := rfl

/-- **The store is a finite map.** After any sequence of saves, it represents the
map that each save that returned has updated at the id of its run. A save is not
seen at another run id, and one that raises is not seen at all. -/
theorem saveAll_represents_lastSaved (encoding : Encoding) (runs : List RunSnapshot)
    (keyed : ∀ run ∈ returned encoding ∅ runs, run.Keyed) :
    Represents encoding (saveAll encoding ∅ runs) (lastSaved (returned encoding ∅ runs)) ∧
      ∀ store run,
        (∀ runId, runId ≠ run.runId →
          loadRun encoding (storeAfter (saveRun encoding run) store) runId =
            loadRun encoding store runId) ∧
        ∀ error after, (saveRun encoding run).run store = .error error after →
          ∀ runId, loadRun encoding after runId = loadRun encoding store runId := by
  refine ⟨⟨fun runId => ?_, fun runId run last => ?_⟩, fun store run => ⟨fun runId different => ?_,
    fun error after raised runId => by rw [eq_of_saveRun_error raised]⟩⟩
  · rw [loadRun_saveAll, loadRun_empty]
    cases lastSaved (returned encoding ∅ runs) runId with
    | none => simp
    | some run => simp
  · have member : run ∈ returned encoding ∅ runs :=
      List.mem_reverse.mp (List.mem_of_find?_eq_some last)
    refine ⟨run.reload, ?_, (keyed run member).same_reload⟩
    rw [loadRun_saveAll, last]
    rfl
  · rcases loadRun_storeAfter_saveRun encoding run store runId with same | written
    · exact same
    · exact absurd written.2.1.symm different

/-- A run with one record. -/
def sampleRun : RunSnapshot where
  workflowId := "w"
  runId := "r"
  records := OrderedDict.set ∅ "a" { taskId := "a" }

/-- A later state of it, in which two records carry one task id. -/
def clashingRun : RunSnapshot :=
  { sampleRun with records := sampleRun.records.set "b" { taskId := "a" } }

theorem sampleRun_keyed : sampleRun.Keyed := by
  intro taskId record stored
  have entry := OrderedDict.get?_eq_some_iff.mp stored
  obtain ⟨rfl, rfl⟩ := Prod.mk.inj (List.mem_singleton.mp entry)
  rfl

theorem sampleRun_storable : Storable .sample sampleRun := ⟨⟨"{}", rfl⟩, by decide⟩

theorem clashingRun_not_storable : ¬ Storable .sample clashingRun :=
  fun storable => absurd storable.distinct (by decide)

theorem returned_sampleRuns :
    returned .sample ∅ [sampleRun, clashingRun] = [sampleRun] := by
  rcases returned_cons ∅ sampleRun [clashingRun] with ⟨first, _⟩ | ⟨_, refused⟩
  · rcases returned_cons (storeAfter (saveRun .sample sampleRun) ∅) clashingRun [] with
      ⟨_, storable⟩ | ⟨second, _⟩
    · exact absurd storable clashingRun_not_storable
    · rw [first, second]
      rfl
  · exact absurd sampleRun_storable refused

/-- The second save raises and leaves the run as the first one saved it. -/
theorem saveAll_sampleRuns : ∃ loaded,
    loadRun .sample (saveAll .sample ∅ [sampleRun, clashingRun]) "r" = .ok (some loaded) ∧
      loaded.Same sampleRun := by
  have keyed : ∀ run ∈ returned .sample ∅ [sampleRun, clashingRun], run.Keyed := by
    rw [returned_sampleRuns]
    exact fun run member => List.mem_singleton.mp member ▸ sampleRun_keyed
  apply (saveAll_represents_lastSaved .sample [sampleRun, clashingRun] keyed).1.known
  rw [returned_sampleRuns]
  rfl

end RunStore

end EtlOrchestrator
