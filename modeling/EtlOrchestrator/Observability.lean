import EtlOrchestrator.Foundations.Fallible
import EtlOrchestrator.Persistence

/-!
# Run metrics

The metrics of a run count its records by their states. Each state but `running`
and `retrying` has a counter, so that the metrics of a run can be computed exactly
when no record is in one of these two, and then the counters sum to the number of
its tasks.
-/

set_option autoImplicit false

namespace EtlOrchestrator

/-- Aggregated outcome counts for one finished workflow run. -/
structure RunMetrics where
  runId : String
  workflowId : String
  workflowState : WorkflowState
  totalTasks : ℕ := 0
  succeeded : ℕ := 0
  failed : ℕ := 0
  upstreamFailed : ℕ := 0
  skipped : ℕ := 0
  cancelled : ℕ := 0
  pending : ℕ := 0
  retries : ℕ := 0
  durationSeconds : Option ℚ := none
  taskStates : OrderedDict String String := ∅

/-- The names of the counters. -/
inductive Counter where
  | succeeded
  | failed
  | upstreamFailed
  | skipped
  | cancelled
  | pending

/-- `counts[state]`. -/
def TaskState.counter : TaskState → Except PyError Counter
  | .success => .ok .succeeded
  | .failed => .ok .failed
  | .upstreamFailed => .ok .upstreamFailed
  | .skipped => .ok .skipped
  | .cancelled => .ok .cancelled
  | .pending => .ok .pending
  | .running => .error (.other "KeyError" "<TaskState.RUNNING: 'running'>")
  | .retrying => .error (.other "KeyError" "<TaskState.RETRYING: 'retrying'>")

namespace RunMetrics

/-- `setattr(metrics, counter, getattr(metrics, counter) + 1)`. -/
def increment (metrics : RunMetrics) : Counter → RunMetrics
  | .succeeded => { metrics with succeeded := metrics.succeeded + 1 }
  | .failed => { metrics with failed := metrics.failed + 1 }
  | .upstreamFailed => { metrics with upstreamFailed := metrics.upstreamFailed + 1 }
  | .skipped => { metrics with skipped := metrics.skipped + 1 }
  | .cancelled => { metrics with cancelled := metrics.cancelled + 1 }
  | .pending => { metrics with pending := metrics.pending + 1 }

/-- The loop body of `compute_run_metrics`. -/
def add (metrics : RunMetrics) (record : TaskRunRecord) : Except PyError RunMetrics := do
  let counter ← record.state.counter
  let metrics := metrics.increment counter
  return { metrics with
    retries := metrics.retries + (record.attempts - 1)
    taskStates := metrics.taskStates.set record.taskId record.state.value }

/-- The sum of the counters. -/
def counted (metrics : RunMetrics) : ℕ :=
  metrics.succeeded + metrics.failed + metrics.upstreamFailed + metrics.skipped +
    metrics.cancelled + metrics.pending

end RunMetrics

/-- Compute the metrics of a run from its records. -/
def computeRunMetrics (run : RunSnapshot) : Except PyError RunMetrics := do
  let metrics ← run.records.values.foldlM RunMetrics.add
    { runId := run.runId, workflowId := run.workflowId, workflowState := run.workflowState
      totalTasks := run.records.values.length }
  match run.startedAt, run.finishedAt with
  | some startedAt, some finishedAt =>
      return { metrics with durationSeconds := some (finishedAt - startedAt) }
  | _, _ => return metrics

/-! ## When the metrics exist -/

/-- The states that have a counter. -/
def TaskState.IsCounted (state : TaskState) : Prop := state ≠ .running ∧ state ≠ .retrying

theorem TaskState.counter_returns_iff (state : TaskState) :
    (∃ counter, state.counter = .ok counter) ↔ state.IsCounted := by
  cases state <;> simp [counter, IsCounted]

namespace RunMetrics

@[simp] theorem counted_increment (metrics : RunMetrics) (counter : Counter) :
    (metrics.increment counter).counted = metrics.counted + 1 := by
  cases counter <;> simp only [counted, increment] <;> omega

@[simp] theorem totalTasks_increment (metrics : RunMetrics) (counter : Counter) :
    (metrics.increment counter).totalTasks = metrics.totalTasks := by
  cases counter <;> rfl

theorem add_returns_iff (metrics : RunMetrics) (record : TaskRunRecord) :
    (∃ result, metrics.add record = .ok result) ↔ record.state.IsCounted := by
  rw [← TaskState.counter_returns_iff]
  simp only [add, Except.bind_eq_ok_iff]
  constructor
  · rintro ⟨result, counter, found, _⟩
    exact ⟨counter, found⟩
  · rintro ⟨counter, found⟩
    exact ⟨_, counter, found, rfl⟩

/-- Each record is counted once. -/
theorem add_counts {metrics result : RunMetrics} {record : TaskRunRecord}
    (added : metrics.add record = .ok result) :
    result.counted = metrics.counted + 1 ∧ result.totalTasks = metrics.totalTasks := by
  obtain ⟨counter, _, rest⟩ := Except.bind_eq_ok_iff.mp added
  cases rest
  exact ⟨metrics.counted_increment counter, metrics.totalTasks_increment counter⟩

theorem foldlM_add_returns_iff (records : List TaskRunRecord) : ∀ metrics : RunMetrics,
    (∃ result, records.foldlM add metrics = .ok result) ↔
      ∀ record ∈ records, record.state.IsCounted := by
  induction records with
  | nil => exact fun metrics => iff_of_true ⟨metrics, rfl⟩ (List.forall_mem_nil _)
  | cons record rest ih =>
      intro metrics
      rw [List.forall_mem_cons, ← add_returns_iff metrics record]
      simp only [List.foldlM_cons, Except.bind_eq_ok_iff]
      constructor
      · rintro ⟨result, middle, added, continued⟩
        exact ⟨⟨middle, added⟩, (ih middle).mp ⟨result, continued⟩⟩
      · rintro ⟨⟨middle, added⟩, counted⟩
        obtain ⟨result, continued⟩ := (ih middle).mpr counted
        exact ⟨result, middle, added, continued⟩

theorem foldlM_add_counts (records : List TaskRunRecord) : ∀ {metrics result : RunMetrics},
    records.foldlM add metrics = .ok result →
      result.counted = metrics.counted + records.length ∧
        result.totalTasks = metrics.totalTasks := by
  induction records with
  | nil =>
      intro metrics result returned
      cases returned
      exact ⟨rfl, rfl⟩
  | cons record rest ih =>
      intro metrics result returned
      rw [List.foldlM_cons, Except.bind_eq_ok_iff] at returned
      obtain ⟨middle, added, continued⟩ := returned
      obtain ⟨counted, total⟩ := add_counts added
      obtain ⟨laterCounted, laterTotal⟩ := ih continued
      refine ⟨?_, laterTotal.trans total⟩
      rw [laterCounted, counted, List.length_cons]
      omega

end RunMetrics

/-- **The metrics of a run can be computed exactly when no record is running or
waits for a retry.** -/
theorem computeRunMetrics_returns_iff (run : RunSnapshot) :
    (∃ metrics, computeRunMetrics run = .ok metrics) ↔
      ∀ record ∈ run.records.values, record.state.IsCounted := by
  rw [← RunMetrics.foldlM_add_returns_iff run.records.values
    { runId := run.runId, workflowId := run.workflowId, workflowState := run.workflowState
      totalTasks := run.records.values.length }]
  simp only [computeRunMetrics, Except.bind_eq_ok_iff]
  constructor
  · rintro ⟨metrics, result, returned, _⟩
    exact ⟨result, returned⟩
  · rintro ⟨result, returned⟩
    cases run.startedAt <;> cases run.finishedAt <;> exact ⟨_, result, returned, rfl⟩

/-! ## What the metrics count -/

/-- The state that a counter counts. -/
def Counter.state : Counter → TaskState
  | .succeeded => .success
  | .failed => .failed
  | .upstreamFailed => .upstreamFailed
  | .skipped => .skipped
  | .cancelled => .cancelled
  | .pending => .pending

theorem TaskState.counter_eq_ok_iff {state : TaskState} {counter : Counter} :
    state.counter = .ok counter ↔ state = counter.state := by
  cases state <;> cases counter <;> simp [TaskState.counter, Counter.state]

namespace RunMetrics

/-- `getattr(metrics, counter)`. -/
def count (metrics : RunMetrics) : Counter → ℕ
  | .succeeded => metrics.succeeded
  | .failed => metrics.failed
  | .upstreamFailed => metrics.upstreamFailed
  | .skipped => metrics.skipped
  | .cancelled => metrics.cancelled
  | .pending => metrics.pending

theorem count_increment (metrics : RunMetrics) (incremented counter : Counter) :
    (metrics.increment incremented).count counter =
      metrics.count counter + if incremented.state = counter.state then 1 else 0 := by
  cases incremented <;> cases counter <;> rfl

/-- What the loop has added to the metrics. -/
structure Adds (records : List TaskRunRecord) (metrics result : RunMetrics) : Prop where
  count : ∀ counter, result.count counter =
    metrics.count counter + records.countP fun record => record.state = counter.state
  retries : result.retries =
    metrics.retries + (records.map fun record => record.attempts - 1).sum
  workflowState : result.workflowState = metrics.workflowState

theorem Adds.cons {metrics middle result : RunMetrics} {record : TaskRunRecord}
    {records : List TaskRunRecord} (added : metrics.add record = .ok middle)
    (adds : Adds records middle result) : Adds (record :: records) metrics result := by
  obtain ⟨incremented, found, rest⟩ := Except.bind_eq_ok_iff.mp added
  cases rest
  have state : record.state = incremented.state := TaskState.counter_eq_ok_iff.mp found
  refine ⟨fun counter => ?_, ?_, ?_⟩
  · have before : _ = metrics.count counter + _ := metrics.count_increment incremented counter
    rw [adds.count, List.countP_cons, state]
    simp only [decide_eq_true_eq]
    rw [← Nat.add_assoc, Nat.add_right_comm, ← before]
    cases counter <;> rfl
  · have before : (metrics.increment incremented).retries = metrics.retries := by
      cases incremented <;> rfl
    rw [adds.retries, List.map_cons, List.sum_cons]
    dsimp only
    rw [before, Nat.add_assoc]
  · rw [adds.workflowState]
    cases incremented <;> rfl

theorem foldlM_add_adds (records : List TaskRunRecord) : ∀ {metrics result : RunMetrics},
    records.foldlM add metrics = .ok result → Adds records metrics result := by
  induction records with
  | nil =>
      intro metrics result returned
      cases returned
      exact ⟨fun _ => rfl, rfl, rfl⟩
  | cons record rest ih =>
      intro metrics result returned
      rw [List.foldlM_cons, Except.bind_eq_ok_iff] at returned
      obtain ⟨middle, added, continued⟩ := returned
      exact (ih continued).cons added

end RunMetrics

/-- **Each counter counts the records in its state, and the retries are the attempts
after the first.** -/
theorem computeRunMetrics_spec {run : RunSnapshot} {metrics : RunMetrics}
    (computed : computeRunMetrics run = .ok metrics) :
    (∀ counter, metrics.count counter =
      run.records.values.countP fun record => record.state = counter.state) ∧
      metrics.retries = (run.records.values.map fun record => record.attempts - 1).sum ∧
      metrics.workflowState = run.workflowState := by
  obtain ⟨result, returned, rest⟩ := Except.bind_eq_ok_iff.mp computed
  obtain ⟨count, retries, workflowState⟩ := RunMetrics.foldlM_add_adds _ returned
  have same : (∀ counter, metrics.count counter = result.count counter) ∧
      metrics.retries = result.retries ∧ metrics.workflowState = result.workflowState := by
    split at rest
    · cases rest
      exact ⟨fun counter => by cases counter <;> rfl, rfl, rfl⟩
    · cases rest
      exact ⟨fun counter => rfl, rfl, rfl⟩
  refine ⟨fun counter => ?_, ?_, same.2.2.trans workflowState⟩
  · rw [same.1, count]
    cases counter <;> exact Nat.zero_add _
  · rw [same.2.1, retries, Nat.zero_add]

/-- **The counters of the metrics sum to the number of tasks.** -/
theorem counted_computeRunMetrics {run : RunSnapshot} {metrics : RunMetrics}
    (computed : computeRunMetrics run = .ok metrics) :
    metrics.counted = metrics.totalTasks ∧ metrics.totalTasks = run.records.values.length := by
  obtain ⟨result, returned, rest⟩ := Except.bind_eq_ok_iff.mp computed
  obtain ⟨counted, total⟩ := RunMetrics.foldlM_add_counts _ returned
  have fromZero : result.counted = run.records.values.length := counted.trans (Nat.zero_add _)
  have same : metrics.counted = result.counted ∧ metrics.totalTasks = result.totalTasks := by
    split at rest
    · cases rest
      exact ⟨rfl, rfl⟩
    · cases rest
      exact ⟨rfl, rfl⟩
  exact ⟨same.1.trans (fromZero.trans (total.symm.trans same.2.symm)), same.2.trans total⟩

end EtlOrchestrator
