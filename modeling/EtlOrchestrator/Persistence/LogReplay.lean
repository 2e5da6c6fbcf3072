import Mathlib.Data.List.TakeWhile
import EtlOrchestrator.Dag.Construction
import EtlOrchestrator.Dag.Identifiers
import EtlOrchestrator.Engine.LogEntries
import EtlOrchestrator.Engine.RecordRaces
import EtlOrchestrator.Engine.Stamps
import EtlOrchestrator.Persistence.Cancellation

/-!
# The transition log read back

The entries of the transition log are texts. Since no task id has a colon, the text of an entry
tells its task, and if the entry states a transition, the states before and behind it
(`LogEntry.readMove_text`). So the stored texts of a run tell what each of its tasks has gone
through, in which state it is and how often it was started (`stored_log_replays`).
-/

set_option autoImplicit false

namespace EtlOrchestrator

/-! ## Reading a text -/

/-- A text up to a separator, and from there on. -/
def cut (separator : Char) (text : List Char) : List Char × List Char :=
  (text.takeWhile (· ≠ separator), text.dropWhile (· ≠ separator))

theorem cut_append {separator : Char} {first : List Char} (free : separator ∉ first)
    (rest : List Char) :
    cut separator (first ++ separator :: rest) = (first, separator :: rest) := by
  have apart : ∀ char ∈ first, decide (char ≠ separator) = true := fun char member =>
    decide_eq_true fun same => free (same ▸ member)
  rw [cut, List.takeWhile_append_of_pos apart, List.dropWhile_append_of_pos apart]
  simp

theorem cut_of_free {separator : Char} {text : List Char} (free : separator ∉ text) :
    cut separator text = (text, []) := by
  have apart : ∀ char ∈ text, decide (char ≠ separator) = true := fun char member =>
    decide_eq_true fun same => free (same ▸ member)
  rw [cut, List.takeWhile_eq_self_iff.mpr apart, List.dropWhile_eq_nil_iff.mpr apart]

/-- The transition that a text of the log states: the task, its source and its target. -/
def readMove (text : String) : Option (String × TaskState × TaskState) :=
  match cut ':' text.toList with
  | (owner, ':' :: ' ' :: transition) =>
      match cut ' ' transition with
      | (source, ' ' :: '-' :: '>' :: ' ' :: rest) =>
          match TaskState.ofValue (String.ofList source),
              TaskState.ofValue (String.ofList (cut ' ' rest).1) with
          | .ok source, .ok target => some (String.ofList owner, source, target)
          | _, _ => none
      | _ => none
  | _ => none

/-- The transition of a task that a text of the log states. -/
def readMoveOf (taskId text : String) : Option (TaskState × TaskState) :=
  match readMove text with
  | some (other, source, target) => if other = taskId then some (source, target) else none
  | none => none

section Texts

variable {text owner : String} {rest : List Char}

/-- A state has no blank in its text. -/
theorem TaskState.blank_notMem (state : TaskState) : ' ' ∉ state.value.toList := by
  cases state <;> decide

/-- A stated transition is read, whatever comes behind a blank. -/
theorem readMove_eq_some (free : ':' ∉ owner.toList) {source target : TaskState}
    (chars : text.toList = owner.toList ++ ':' :: ' ' :: (source.value.toList ++
      ' ' :: '-' :: '>' :: ' ' :: (target.value.toList ++ rest)))
    (ends : rest = [] ∨ ∃ tail, rest = ' ' :: tail) :
    readMove text = some (owner, source, target) := by
  have atEnd : (cut ' ' (target.value.toList ++ rest)).1 = target.value.toList := by
    rcases ends with rfl | ⟨tail, rfl⟩
    · rw [List.append_nil, cut_of_free target.blank_notMem]
    · rw [cut_append target.blank_notMem]
  simp only [readMove, chars, cut_append free, cut_append source.blank_notMem, atEnd,
    String.ofList_toList, TaskState.ofValue_value]

/-- A text that goes on without an arrow states no transition. -/
theorem readMove_eq_none (free : ':' ∉ owner.toList) {word : List Char} (oneWord : ' ' ∉ word)
    {char : Char} (noArrow : char ≠ '-')
    (chars : text.toList = owner.toList ++ ':' :: ' ' :: (word ++ ' ' :: char :: rest)) :
    readMove text = none := by
  simp only [readMove, chars, cut_append free, cut_append oneWord]
  split
  · next same =>
    cases same
    exact absurd rfl noArrow
  · rfl

end Texts

/-! ## The text of an entry -/

namespace LogEntry

/-- The texts of the states of a workflow are texts of states of a task. -/
theorem exists_taskState (state : WorkflowState) :
    ∃ same : TaskState, same.value = state.value := by
  cases state with
  | pending => exact ⟨.pending, rfl⟩
  | running => exact ⟨.running, rfl⟩
  | success => exact ⟨.success, rfl⟩
  | failed => exact ⟨.failed, rfl⟩
  | cancelled => exact ⟨.cancelled, rfl⟩

/-- An entry about the workflow reads as that of a task with this name. -/
theorem readMove_workflowMoved (source target : WorkflowState) : ∃ first second : TaskState,
    first.value = source.value ∧ second.value = target.value ∧
      readMove (workflowMoved source target).text = some ("workflow", first, second) := by
  have free : ':' ∉ "workflow".toList := by decide
  obtain ⟨first, sameSource⟩ := exists_taskState source
  obtain ⟨second, sameTarget⟩ := exists_taskState target
  refine ⟨first, second, sameSource, sameTarget, readMove_eq_some free ?_ (.inl rfl)⟩
  rw [show (workflowMoved source target).text = "workflow: " ++ source.value ++ " -> " ++
    target.value from rfl, sameSource, sameTarget, List.append_nil]
  simp only [String.toList_append, List.append_assoc]
  rfl

/-- **The text of an entry about a task states what the entry states.** -/
theorem readMove_text {entry : LogEntry} {owner : String} (isAbout : entry.owner? = some owner)
    (free : ':' ∉ owner.toList) : readMove entry.text = entry.move? := by
  cases entry with
  | workflowMoved | cannotLoad => cases isAbout
  | skippedExecution _ state =>
      cases isAbout
      have chars : (skippedExecution owner state).text.toList = owner.toList ++ ':' :: ' ' ::
          ("skipped".toList ++ ' ' :: 'e' ::
            ("xecution (state=" ++ state.value ++ ")").toList) := by
        rw [show (skippedExecution owner state).text = owner ++ ": skipped execution (state=" ++
          state.value ++ ")" from rfl]
        simp only [String.toList_append, List.append_assoc]
        rfl
      exact readMove_eq_none free (by decide) (by decide) chars
  | permanentFailure _ attempt =>
      cases isAbout
      have chars : (permanentFailure owner attempt).text.toList = owner.toList ++ ':' :: ' ' ::
          ("permanent".toList ++ ' ' :: 'f' :: ("ailure after " ++ toString attempt ++
            " attempt(s); blocking downstream").toList) := by
        rw [show (permanentFailure owner attempt).text = owner ++
          ": permanent failure after " ++ toString attempt ++
            " attempt(s); blocking downstream" from rfl]
        simp only [String.toList_append, List.append_assoc]
        rfl
      exact readMove_eq_none free (by decide) (by decide) chars
  | started _ source attempt maxAttempts =>
      cases isAbout
      have chars : (started owner source attempt maxAttempts).text.toList = owner.toList ++
          ':' :: ' ' :: (source.value.toList ++ ' ' :: '-' :: '>' :: ' ' ::
            (TaskState.running.value.toList ++ ' ' :: ("(attempt " ++ toString attempt ++ "/" ++
              toString maxAttempts ++ ")").toList)) := by
        rw [show (started owner source attempt maxAttempts).text = owner ++ ": " ++
          source.value ++ " -> running (attempt " ++ toString attempt ++ "/" ++
            toString maxAttempts ++ ")" from rfl]
        simp only [String.toList_append, List.append_assoc]
        rfl
      exact readMove_eq_some free chars (.inr ⟨_, rfl⟩)
  | failed _ error =>
      cases isAbout
      have chars : (failed owner error).text.toList = owner.toList ++ ':' :: ' ' ::
          (TaskState.running.value.toList ++ ' ' :: '-' :: '>' :: ' ' ::
            (TaskState.failed.value.toList ++ ' ' :: ("(" ++ error ++ ")").toList)) := by
        rw [show (failed owner error).text = owner ++ ": running -> failed (" ++ error ++ ")"
          from rfl]
        simp only [String.toList_append, List.append_assoc]
        rfl
      exact readMove_eq_some free chars (.inr ⟨_, rfl⟩)
  | scheduledRetry _ delay attempt maxAttempts =>
      cases isAbout
      have chars : (scheduledRetry owner delay attempt maxAttempts).text.toList = owner.toList ++
          ':' :: ' ' :: (TaskState.failed.value.toList ++ ' ' :: '-' :: '>' :: ' ' ::
            (TaskState.retrying.value.toList ++ ' ' :: ("(next attempt in " ++
              formatGeneral delay ++ "s, " ++ ("attempt " ++ toString attempt ++ "/" ++
                toString maxAttempts ++ ")")).toList)) := by
        rw [show (scheduledRetry owner delay attempt maxAttempts).text = owner ++
          ": failed -> retrying (next attempt in " ++ formatGeneral delay ++ "s, " ++
            ("attempt " ++ toString attempt ++ "/" ++ toString maxAttempts ++ ")") from rfl]
        simp only [String.toList_append, List.append_assoc]
        rfl
      exact readMove_eq_some free chars (.inr ⟨_, rfl⟩)
  | succeeded _ =>
      cases isAbout
      have chars : (succeeded owner).text.toList = owner.toList ++ ':' :: ' ' ::
          (TaskState.running.value.toList ++ ' ' :: '-' :: '>' :: ' ' ::
            (TaskState.success.value.toList ++ [])) := by
        rw [show (succeeded owner).text = owner ++ ": running -> success" from rfl]
        rw [String.toList_append]
        rfl
      exact readMove_eq_some free chars (.inl rfl)
  | blocked _ upstreamId =>
      cases isAbout
      have chars : (blocked owner upstreamId).text.toList = owner.toList ++ ':' :: ' ' ::
          (TaskState.pending.value.toList ++ ' ' :: '-' :: '>' :: ' ' ::
            (TaskState.upstreamFailed.value.toList ++ ' ' :: ("(upstream '" ++ upstreamId ++
              "' failed)").toList)) := by
        rw [show (blocked owner upstreamId).text = owner ++
          ": pending -> upstream_failed (upstream '" ++ upstreamId ++ "' failed)" from rfl]
        simp only [String.toList_append, List.append_assoc]
        rfl
      exact readMove_eq_some free chars (.inr ⟨_, rfl⟩)

end LogEntry

example : readMoveOf "extract" "extract: failed -> retrying (next attempt in 0.5s, attempt 1/3)" =
    some (.failed, .retrying) := by decide

/-! ## Replaying a log -/

variable {engine : AcceptedEngine} {env : Env} {machine : Machine}

/-- A task is stored under its own id. -/
def Workflow.Filed (workflow : Workflow) : Prop :=
  ∀ taskId task, workflow.tasks.get? taskId = some task → task.taskId = taskId

theorem Workflow.filed_iff (workflow : Workflow) : workflow.Filed ↔
    ∀ entry ∈ workflow.tasks.entries, entry.2.taskId = entry.1 := by
  simp only [Filed, OrderedDict.get?_eq_some_iff, Prod.forall]

/-- A workflow that was built by its methods files its tasks. -/
theorem Workflow.filed_attemptAll (workflowId description : String)
    (calls : List ConstructionCall) :
    (({ workflowId, description } : Workflow).attemptAll calls).Filed := by
  apply attemptAll_induction
  · intro taskId task found
    cases found
  · rintro built filed (task | ⟨taskId, upstreamId⟩) -
    · cases built.adds task with
      | rejected taken unchanged =>
          rw [attempt, unchanged]
          exact filed
      | registered new wiring isOk edges =>
          intro other stored found
          rw [attempt, wiring.tasks, register, OrderedDict.get?_set] at found
          split at found
          · next same =>
            cases found
            exact same.symm
          · exact filed other stored found
    · rw [attempt]
      split
      · exact filed
      · next wired added =>
        rw [Filed, (wiring_of_addDependency added).tasks]
        exact filed

/-- An id has no colon. -/
theorem colon_notMem_of_matchesIdPattern {value : String}
    (valid : matchesIdPattern value = true) : ':' ∉ value.toList := by
  have tail : ∀ chars, matchesIdTail chars = true → ':' ∉ chars := by
    intro chars accepted member
    obtain ⟨rest, after, rfl, ends, all⟩ := (matchesIdTail_iff chars).mp accepted
    rcases List.mem_append.mp member with inside | behind
    · exact absurd (all ':' inside) (by decide)
    · rcases ends with rfl | rfl
      · cases behind
      · cases List.mem_singleton.mp behind
  rw [matchesIdPattern] at valid
  split at valid
  · cases valid
  · next char rest chars =>
    rw [Bool.and_eq_true] at valid
    rw [chars, List.mem_cons, not_or]
    refine ⟨?_, tail rest valid.2⟩
    rintro rfl
    exact absurd valid.1 (by decide)

theorem Workflow.Filed.colon_notMem {workflow : Workflow} (filed : workflow.Filed)
    {taskId : String} (known : taskId ∈ workflow.tasks) : ':' ∉ taskId.toList := by
  obtain ⟨task, found⟩ := OrderedDict.exists_get?_of_mem known
  rw [← filed taskId task found]
  exact colon_notMem_of_matchesIdPattern task.taskId_valid

/-- The texts of a log are those of a record: its task has moved along a legal path from `pending`
to its state, and its attempts are the starts on this path. -/
structure Replays (log : List String) (record : TaskRunRecord) : Prop where
  path : log.filterMap (readMoveOf record.taskId) =
    transitions .pending ((log.filterMap (readMoveOf record.taskId)).map Prod.snd)
  legal : ∀ move ∈ log.filterMap (readMoveOf record.taskId), canTransition move.1 move.2
  state : record.state =
    ((log.filterMap (readMoveOf record.taskId)).map Prod.snd).getLastD .pending
  attempts : record.attempts =
    ((log.filterMap (readMoveOf record.taskId)).map Prod.snd).count .running

theorem map_snd_transitions {α : Type} (path : List α) : ∀ first,
    (transitions first path).map Prod.snd = path := by
  induction path with
  | nil => exact fun _ => rfl
  | cons next rest ih =>
      intro first
      rw [transitions, List.map_cons, ih]

/-- The attempts of a record are the starts among the states assigned to its task. -/
def TaskView.Counted (view : TaskView) : Prop :=
  view.assigned.count .running = view.record.attempts

theorem count_running (run : engine.Steps env (engine.start env) machine) (taskId : String) :
    (machine.shared.view taskId).assigned.count .running = machine.attemptsOf taskId := by
  have fresh : ∀ taskId, (TaskView.fresh taskId).Counted := fun _ => rfl
  refine Reachable.views_of_stamps fresh (fun _ stamp counted => ?_) run taskId
  rw [TaskView.Counted] at *
  cases stamp with
  | keep record assigned => rw [record, assigned, counted]
  | start waiting => simp [TaskView.moving, counted]
  | fail error running => simp [TaskView.moving, counted]
  | retry instant failed attempted => simp [TaskView.moving, counted]
  | abort failed attempted => simp [counted]
  | succeed running => simp [TaskView.moving, counted]
  | block failedTaskId pending =>
      simp [TaskView.blocked, TaskView.moving, TaskView.checking, counted]

/-- The text of an entry of a run tells the transition of each task, unless the task is taken for
the workflow. -/
theorem readMoveOf_text (filed : engine.workflow.Filed) {entry : LogEntry}
    (isEntry : engine.IsEntry entry) {taskId : String} (named : taskId ≠ "workflow") :
    readMoveOf taskId entry.text = entry.moveOf? taskId := by
  rcases isEntry with ⟨source, target, rfl⟩ | ⟨owner, known, about⟩
  · obtain ⟨first, second, _, _, read⟩ := LogEntry.readMove_workflowMoved source target
    rw [readMoveOf, read]
    exact if_neg named.symm
  · have read := LogEntry.readMove_text about (filed.colon_notMem known)
    cases stated : entry.move? with
    | none => simp only [readMoveOf, LogEntry.moveOf?, read, stated]
    | some move => simp only [readMoveOf, LogEntry.moveOf?, read, stated]

/-- **The texts of the log of a run are those of each record of a task whose execution was not
aborted.** -/
theorem replays_of_steps (filed : engine.workflow.Filed)
    (run : engine.Steps env (engine.start env) machine) {taskId : String}
    (named : taskId ≠ "workflow") (notAborted : ¬ machine.Aborted taskId) :
    Replays machine.shared.run.snapshot.log (machine.shared.recordOf taskId) := by
  have reachable := Reachable.steps run
  have sameId : (machine.shared.recordOf taskId).taskId = taskId :=
    (RunIdentity.steps run).keyed.recordOf_taskId taskId
  obtain ⟨_, tracked, _⟩ := (reachable.task_ok taskId).tracked
  have moved : machine.shared.run.snapshot.log.filterMap (readMoveOf taskId) =
      transitions .pending (machine.shared.view taskId).assigned := by
    rw [← reachable.moved_of_not_aborted notAborted, WorkflowRun.snapshot, List.filterMap_map]
    exact List.filterMap_congr fun entry member =>
      readMoveOf_text filed (Reachable.isEntry run entry member) named
  refine ⟨?_, ?_, ?_, ?_⟩
  all_goals rw [sameId, moved]
  · rw [map_snd_transitions]
  · exact tracked.legal
  · rw [map_snd_transitions]
    exact tracked.state
  · rw [map_snd_transitions]
    exact (count_running run taskId).symm

/-- When no task is called `workflow`, the texts with this name are those about the workflow. -/
theorem values_of_workflow (filed : engine.workflow.Filed)
    (unnamed : "workflow" ∉ engine.workflow.tasks) {log : List LogEntry}
    (areEntries : ∀ entry ∈ log, engine.IsEntry entry) :
    ((log.map LogEntry.text).filterMap (readMoveOf "workflow")).map (fun move => move.2.value) =
      (log.filterMap LogEntry.workflowMove?).map fun move => move.2.value := by
  rw [List.filterMap_map, List.map_filterMap, List.map_filterMap]
  apply List.filterMap_congr
  intro entry member
  rcases areEntries entry member with ⟨source, target, rfl⟩ | ⟨owner, known, about⟩
  · obtain ⟨first, second, _, sameTarget, read⟩ := LogEntry.readMove_workflowMoved source target
    rw [Function.comp_apply, readMoveOf, read]
    exact congrArg some sameTarget
  · have different : owner ≠ "workflow" := fun same => unnamed (same ▸ known)
    rw [Function.comp_apply, readMoveOf, LogEntry.readMove_text about (filed.colon_notMem known)]
    cases entry with
    | workflowMoved source target => cases about
    | cannotLoad message => cases about
    | skippedExecution | permanentFailure => rfl
    | _ =>
        cases about
        exact congrArg _ (if_neg different)

end EtlOrchestrator
