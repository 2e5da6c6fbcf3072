import EtlOrchestrator.Cli.Commands
import EtlOrchestrator.Engine.Calls
import EtlOrchestrator.Persistence.JsonParams

/-!
# Parameters from the command line to the callables

`workflow run` takes pairs of keys and values, and the workflow file has parameters for its tasks.
Of several pairs for a key the last one counts. Every call of a callable sees the value of its key
from the command line if there is one, and otherwise that of the entry of its task in the file
(`params_of_calls`).
-/

set_option autoImplicit false

namespace EtlOrchestrator

open Except (bind_eq_ok_iff mapError_eq_ok_iff)

/-! ## Pairs -/

/-- A pair assigns a value to a key, which ends at the first `=`. -/
def Assigns (pair key value : String) : Prop := pair = key ++ "=" ++ value ∧ '=' ∉ key.toList

theorem splitPair_of_assigns {pair key value : String} (assigns : Assigns pair key value) :
    splitPair pair = some (key, value) := by
  obtain ⟨rfl, noSeparator⟩ := assigns
  have characters : (key ++ "=" ++ value).toList = key.toList ++ '=' :: value.toList := by simp
  have isKey : ∀ char ∈ key.toList, decide (char ≠ '=') = true := by
    intro char member
    refine decide_eq_true fun same => noSeparator ?_
    rwa [← same]
  rw [splitPair, characters, List.span_eq_takeWhile_dropWhile, List.takeWhile_append_of_pos isKey,
    List.dropWhile_append_of_pos isKey]
  simp

theorem assigns_of_splitPair {pair key value : String}
    (split : splitPair pair = some (key, value)) : Assigns pair key value := by
  rw [splitPair, List.span_eq_takeWhile_dropWhile] at split
  cases behind : pair.toList.dropWhile (· ≠ '=') with
  | nil =>
      rw [behind] at split
      cases split
  | cons separator rest =>
      rw [behind] at split
      have isSeparator : separator = '=' := by
        have stops := List.head?_dropWhile_not (· ≠ '=') pair.toList
        rw [behind] at stops
        simpa using stops
      have whole := List.takeWhile_append_dropWhile (p := (· ≠ '=')) (l := pair.toList)
      rw [behind, isSeparator] at whole
      cases split
      constructor
      · rw [← String.toList_inj]
        simpa using whole.symm
      · rw [String.toList_ofList]
        intro member
        have notSeparator := List.all_eq_true.mp List.all_takeWhile _ member
        simp at notSeparator

theorem splitPair_eq_some_iff {pair key value : String} :
    splitPair pair = some (key, value) ↔ Assigns pair key value :=
  ⟨assigns_of_splitPair, splitPair_of_assigns⟩

/-- The last of the pairs that assign a value to a key assigns this one. -/
def LastAssigned (pairs : List String) (key value : String) : Prop :=
  ∃ earlier pair later, pairs = earlier ++ pair :: later ∧ Assigns pair key value ∧
    ∀ other ∈ later, ∀ otherValue, ¬ Assigns other key otherValue

theorem LastAssigned.cons {pairs : List String} {key value : String}
    (last : LastAssigned pairs key value) (first : String) :
    LastAssigned (first :: pairs) key value := by
  obtain ⟨earlier, pair, later, rfl, assigns, none⟩ := last
  exact ⟨first :: earlier, pair, later, rfl, assigns, none⟩

/-- The parameters of a run have the last values, and no other ones. -/
theorem get?_of_parseParams (pairs : List String) : ∀ {params parsed : Params},
    parseParams pairs params = .ok parsed → ∀ key,
      (∃ value, LastAssigned pairs key value ∧ parsed.get? key = some (.str value)) ∨
      (∀ pair ∈ pairs, ∀ value, ¬ Assigns pair key value) ∧ parsed.get? key = params.get? key := by
  induction pairs with
  | nil =>
      rintro params _ ⟨⟩ key
      exact .inr ⟨List.forall_mem_nil _, rfl⟩
  | cons pair rest ih =>
      intro params parsed parses key
      rw [parseParams] at parses
      split at parses
      · cases parses
      · rename_i first firstValue split
        have assigns := assigns_of_splitPair split
        rcases ih parses key with ⟨value, last, same⟩ | ⟨none, same⟩
        · exact .inl ⟨value, last.cons pair, same⟩
        · rw [OrderedDict.get?_set] at same
          by_cases isFirst : key = first
          · subst isFirst
            rw [if_pos rfl] at same
            exact .inl ⟨firstValue, ⟨[], pair, rest, rfl, assigns, none⟩, same⟩
          · rw [if_neg isFirst] at same
            refine .inr ⟨List.forall_mem_cons.mpr ⟨fun value other => isFirst ?_, none⟩, same⟩
            have sameSplit := (splitPair_of_assigns other).symm.trans split
            exact congrArg Prod.fst (Option.some.inj sameSplit)

/-- All values are texts. -/
def TextParams (params : Params) : Prop :=
  ∀ key value, params.get? key = some value → ∃ text, value = .str text

/-- The encoding can write texts. -/
def Encoding.WritesTexts (encoding : Encoding) : Prop :=
  ∀ params, TextParams params → ∃ text, encoding.dumps params = .ok text

theorem Encoding.writesTexts_withJson (floats : Json.FloatTexts ℚ) (encoding : Encoding) :
    (encoding.withJson floats).WritesTexts := fun _ _ => ⟨_, rfl⟩

theorem textParams_empty : TextParams ∅ := fun _ _ stored => by cases stored

/-- The values from the command line are texts. -/
theorem textParams_of_parseParams {pairs : List String} {parsed : Params}
    (parses : parseParams pairs ∅ = .ok parsed) : TextParams parsed := by
  intro key value stored
  rcases get?_of_parseParams pairs parses key with ⟨text, _, same⟩ | ⟨_, same⟩
  · exact ⟨text, Option.some.inj (stored.symm.trans same)⟩
  · cases stored.symm.trans same

/-! ## The engine of a file -/

namespace WorkflowConfig

/-- What is set up for a configuration: its workflow, with the callables and the parameters of its
entries. -/
structure SetsUp (config : WorkflowConfig) (registry : OrderedDict String TaskCallable)
    (opened : AcceptedEngine × Workflow) : Prop where
  distinct : (config.tasks.map TaskConfig.taskId).Nodup
  builds : config.Builds opened.2
  workflow : opened.1.workflow = opened.2
  one : opened.1.maxWorkers = 1
  callable : ∀ taskConfig ∈ config.tasks, ∃ callable,
    registry.get? taskConfig.callable = some callable ∧
    opened.1.tasks.get? taskConfig.taskId = some callable
  params : ∀ taskConfig ∈ config.tasks,
    opened.1.taskParams.getD taskConfig.taskId ∅ = taskConfig.params

variable {config : WorkflowConfig}

theorem valid_of_buildWorkflow {workflow : Workflow} (built : buildWorkflow config = .ok workflow) :
    matchesIdPattern config.workflowId = true ∧
      ∀ taskConfig ∈ config.tasks, matchesIdPattern taskConfig.taskId = true := by
  simp only [buildWorkflow, bind_eq_ok_iff, mapError_eq_ok_iff] at built
  obtain ⟨created, creates, registered, registers, _⟩ := built
  refine ⟨?_, valid_of_registerTasks config.tasks registers⟩
  by_contra invalid
  obtain ⟨message, raised⟩ := Workflow.create_of_invalid config.description invalid
  cases raised.symm.trans creates

/-- The parameters of an entry are found under its id, unless it has none. -/
theorem getD_taskParams {reader : ConfigReader} {path : String}
    {taskParams : OrderedDict String Params} (loads : loadWorkflowConfig reader path = .ok config)
    (loaded : loadTaskParams reader path = .ok taskParams)
    (distinct : (config.tasks.map TaskConfig.taskId).Nodup) {taskConfig : TaskConfig}
    (member : taskConfig ∈ config.tasks) :
    taskParams.getD taskConfig.taskId ∅ = taskConfig.params := by
  let entries := (config.tasks.filter fun task => task.params.entries ≠ []).map
    fun task => (task.taskId, task.params)
  have isUpdate : taskParams = OrderedDict.update ∅ entries := by
    rw [loadTaskParams, loads, Except.ok_bind] at loaded
    rw [OrderedDict.update, List.foldl_map]
    exact (Except.ok.inj loaded).symm
  have ids : (entries.map Prod.fst).Nodup := by
    rw [List.map_map]
    exact (List.filter_sublist.map _).nodup distinct
  have sameEntries : taskParams.entries = entries := by
    rw [isUpdate, OrderedDict.entries_update entries ∅ ids fun key _ =>
      OrderedDict.not_mem_empty key]
    rfl
  rw [OrderedDict.getD]
  by_cases empty : taskConfig.params.entries = []
  · have missing : taskConfig.taskId ∉ taskParams := by
      intro stored
      rw [OrderedDict.mem_def, OrderedDict.keys, sameEntries, List.map_map] at stored
      obtain ⟨other, kept, sameId⟩ := List.mem_map.mp stored
      obtain ⟨otherMember, notEmpty⟩ := List.mem_filter.mp kept
      obtain rfl := List.inj_on_of_nodup_map distinct otherMember member sameId
      exact of_decide_eq_true notEmpty empty
    rw [OrderedDict.get?_eq_none_iff.mpr missing, Option.getD_none]
    generalize taskConfig.params = params at empty
    obtain ⟨ownEntries, ownDistinct⟩ := params
    cases empty
    rfl
  · have entry : (taskConfig.taskId, taskConfig.params) ∈ taskParams.entries := by
      rw [sameEntries]
      exact List.mem_map_of_mem (f := fun task => (TaskConfig.taskId task, task.params))
        (List.mem_filter.mpr ⟨member, decide_eq_true empty⟩)
    rw [OrderedDict.get?_eq_some_iff.mpr entry, Option.getD_some]

/-- Each entry is bound to its callable, and no other id is. -/
theorem get?_bindCallables {registry : OrderedDict String TaskCallable}
    (taskConfigs : List TaskConfig) : ∀ {before after : OrderedDict String TaskCallable},
      bindCallables registry taskConfigs before = .ok after →
      (taskConfigs.map TaskConfig.taskId).Nodup →
        (∀ taskConfig ∈ taskConfigs, ∃ callable,
          registry.get? taskConfig.callable = some callable ∧
          after.get? taskConfig.taskId = some callable) ∧
        ∀ taskId, taskId ∉ taskConfigs.map TaskConfig.taskId →
          after.get? taskId = before.get? taskId := by
  induction taskConfigs with
  | nil =>
      rintro before _ ⟨⟩ _
      exact ⟨List.forall_mem_nil _, fun _ _ => rfl⟩
  | cons taskConfig rest ih =>
      intro before after bound distinct
      obtain ⟨fresh, restDistinct⟩ := List.nodup_cons.mp distinct
      rw [bindCallables] at bound
      split at bound
      · cases bound
      · rename_i callable found
        obtain ⟨each, others⟩ := ih bound restDistinct
        refine ⟨List.forall_mem_cons.mpr ⟨⟨callable, found, ?_⟩, each⟩, fun taskId other => ?_⟩
        · rw [others _ fresh, OrderedDict.get?_set_self]
        · rw [List.map_cons, List.mem_cons, not_or] at other
          rw [others taskId other.2, OrderedDict.get?_set_of_ne _ _ other.1]

end WorkflowConfig

/-- **What a command opens is set up for the configuration in the file that it finds.** -/
theorem exists_setsUp_of_openWorkflow {workspace : Workspace} {reader : ConfigReader}
    {registry : OrderedDict String TaskCallable} {name : String}
    {opened : AcceptedEngine × Workflow}
    (opens : openWorkflow workspace reader registry name = .ok opened) : ∃ path config,
      findWorkflowFile workspace name = .ok path ∧ loadWorkflowConfig reader path = .ok config ∧
        config.SetsUp registry opened := by
  simp only [openWorkflow, buildEngine, bind_eq_ok_iff, mapError_eq_ok_iff] at opens
  obtain ⟨path, finds, config, loads, built, builds, callables, resolved, taskParams, loaded,
    engine, accepted, same⟩ := opens
  cases same
  have kept := WorkflowEngine.of_init_eq_ok accepted
  have valid := WorkflowConfig.valid_of_buildWorkflow builds
  have buildable :=
    (WorkflowConfig.buildWorkflow_isOk_iff valid.1 valid.2).mp ⟨built, builds⟩
  have bound : bindCallables registry config.tasks ∅ = .ok callables := by
    simp only [resolveCallables] at resolved
    split at resolved
    · cases resolved
    · exact resolved
  refine ⟨path, config, finds, loads, buildable.distinct,
    WorkflowConfig.builds_of_eq_ok valid.1 valid.2 builds, by rw [kept], by rw [kept]; rfl, ?_,
    fun taskConfig member => ?_⟩
  · rw [kept]
    exact (WorkflowConfig.get?_bindCallables config.tasks bound buildable.distinct).1
  · rw [kept]
    exact WorkflowConfig.getD_taskParams loads loaded buildable.distinct member

/-! ## What the callables see -/

namespace WorkflowConfig.SetsUp

variable {config : WorkflowConfig} {registry : OrderedDict String TaskCallable}
  {opened : AcceptedEngine × Workflow}

/-- The task of an entry. -/
theorem exists_task (setsUp : config.SetsUp registry opened) {taskConfig : TaskConfig}
    (member : taskConfig ∈ config.tasks) : ∃ task,
      opened.2.tasks.get? taskConfig.taskId = some task ∧ Carries taskConfig task := by
  have lengths := setsUp.builds.tasks.length_eq
  obtain ⟨index, inRange, rfl⟩ := List.getElem_of_mem member
  have related := setsUp.builds.tasks.get inRange (lengths ▸ inRange)
  refine ⟨_, OrderedDict.get?_eq_some_iff.mpr ?_, related.2⟩
  have sameId := related.1
  simp only [List.get_eq_getElem] at sameId
  rw [← sameId]
  exact List.getElem_mem _

theorem maxAttempts_eq (setsUp : config.SetsUp registry opened) {taskConfig : TaskConfig}
    (member : taskConfig ∈ config.tasks) :
    opened.1.maxAttempts taskConfig.taskId = taskConfig.maxAttempts := by
  obtain ⟨task, stored, carries⟩ := setsUp.exists_task member
  rw [WorkflowEngine.maxAttempts, setsUp.workflow, stored]
  exact carries.maxAttempts

/-- Each task of the workflow has an entry. -/
theorem exists_taskConfig (setsUp : config.SetsUp registry opened) {taskId : String}
    (known : taskId ∈ opened.1.workflow.tasks) :
    ∃ taskConfig ∈ config.tasks, taskConfig.taskId = taskId := by
  rw [setsUp.workflow, setsUp.builds.mem_tasks] at known
  exact List.mem_map.mp known

end WorkflowConfig.SetsUp

/-- **Every call that a `workflow run` makes, in any of its states, is an attempt that the entry of
the task in the workflow file allows. Under each key the callable sees the last value of the key
from the command line, and that of the entry if the command line has none.** -/
theorem params_of_calls {workspace : Workspace} {reader : ConfigReader}
    {registry : OrderedDict String TaskCallable} (env : Env) {name : String} {pairs : List String}
    {opened : AcceptedEngine × Workflow} {params : Params}
    (opens : openWorkflow workspace reader registry name = .ok opened)
    (parses : parseParams pairs ∅ = .ok params) {machine : Machine}
    (run : opened.1.Steps { env with params } (opened.1.start { env with params }) machine) :
    ∃ path config, findWorkflowFile workspace name = .ok path ∧
      loadWorkflowConfig reader path = .ok config ∧
      ∀ context ∈ machine.shared.calls, ∃ taskConfig ∈ config.tasks,
        context.taskId = taskConfig.taskId ∧ context.workflowId = config.workflowId ∧
        context.runId = env.runId ∧ 1 ≤ context.attempt ∧
        context.attempt ≤ taskConfig.maxAttempts ∧
        ∀ key, (∃ value, LastAssigned pairs key value ∧
            context.params.get? key = some (.str value)) ∨
          (∀ pair ∈ pairs, ∀ value, ¬ Assigns pair key value) ∧
            context.params.get? key = taskConfig.params.get? key := by
  obtain ⟨path, config, finds, loads, setsUp⟩ := exists_setsUp_of_openWorkflow opens
  refine ⟨path, config, finds, loads, fun context called => ?_⟩
  obtain ⟨known, attempt, first, allowed, isContext⟩ :=
    (Reachable.steps run).context_of_mem_calls called
  obtain ⟨taskConfig, member, sameId⟩ := setsUp.exists_taskConfig known
  rw [← sameId] at isContext allowed
  rw [setsUp.maxAttempts_eq member] at allowed
  rw [isContext]
  refine ⟨taskConfig, member, rfl, ?_, rfl, first, allowed, fun key => ?_⟩
  · rw [WorkflowEngine.context, setsUp.workflow]
    exact setsUp.builds.workflowId
  · rw [WorkflowEngine.context]
    dsimp only
    rw [get?_mergeParams, setsUp.params taskConfig member]
    rcases get?_of_parseParams pairs parses key with ⟨value, last, same⟩ | ⟨none, same⟩
    · exact .inl ⟨value, last, by rw [same, Option.some_or]⟩
    · exact .inr ⟨none, by rw [same, OrderedDict.get?_empty, Option.none_or]⟩

/-- A directory in which explicit paths are found. -/
def sampleWorkspace : Workspace :=
  { exampleWorkspace with suffix := fun name => if name.endsWith ".yaml" then ".yaml" else "" }

/-- The calls of a whole run see the last value. -/
theorem params_of_calls_daily : ∃ (opened : AcceptedEngine × Workflow) (machine : Machine),
    openWorkflow sampleWorkspace exampleReader exampleRegistry "daily.yaml" = .ok opened ∧
    machine.status = .returned ∧ ∀ context ∈ machine.shared.calls, ∃ value,
      LastAssigned ["day=monday", "day=tuesday"] "day" value ∧
      context.params.get? "day" = some (.str value) := by
  have opens : (openWorkflow sampleWorkspace exampleReader exampleRegistry "daily.yaml").isOk =
      true := by decide +kernel
  cases opened : openWorkflow sampleWorkspace exampleReader exampleRegistry "daily.yaml" with
  | error error =>
      rw [opened] at opens
      cases opens
  | ok result =>
      obtain ⟨params, parses⟩ : ∃ params,
          parseParams ["day=monday", "day=tuesday"] ∅ = .ok params := ⟨_, rfl⟩
      obtain ⟨_, _, _, _, setsUp⟩ := exists_setsUp_of_openWorkflow opened
      have noOverflow : result.1.NoOverflow { runId := "first", params } :=
        WorkflowEngine.noOverflow_exact _ rfl
      obtain ⟨machine, _, steps, returned⟩ := runSequential_eq_ok setsUp.one noOverflow
      obtain ⟨_, _, _, _, sees⟩ := params_of_calls { runId := "first" } opened parses steps
      refine ⟨result, machine, rfl, returned, fun context called => ?_⟩
      obtain ⟨_, _, _, _, _, _, _, params⟩ := sees context called
      refine (params "day").resolve_right fun none => ?_
      exact none.1 "day=tuesday" (by simp) "tuesday" ⟨rfl, by decide⟩

end EtlOrchestrator
