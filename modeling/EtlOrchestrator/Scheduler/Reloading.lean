import EtlOrchestrator.Cli.WorkflowFiles
import EtlOrchestrator.Scheduler.RunOnce

/-!
# Files that change while they are loaded

`_run_schedule` and `_build_engine` read a workflow file twice: the graph and the callables of
the engine come from the first read, and its task params from the second one. The file may be
replaced at any time in between. A loading is a machine whose steps are the two reads and the
replacements; it always ends in an engine when all versions of the file are sound, and the engine
is a mixture of the two versions that were read (`Mixes`).

So the engine is the engine of one version exactly if the two versions agree in one of the two
parts, or a third version happens to be the same mixture (`loading_fromOneVersion_iff`).
-/

set_option autoImplicit false

namespace EtlOrchestrator

open Relation
open Except (bind_eq_ok_iff mapError_eq_ok_iff)

/-! ## The two halves of a loading -/

/-- The reader while the file at a path holds a text. -/
def ConfigReader.holding (reader : ConfigReader) (path text : String) : ConfigReader :=
  { reader with
    readText := fun other => if other = path then some text else reader.readText other }

/-- The part of a loading up to the second read: the graph and the callables. -/
def defineEngine (reader : ConfigReader) (registry : OrderedDict String TaskCallable)
    (path : String) : Except PyError (Workflow × OrderedDict String TaskCallable) := do
  let config ← loadWorkflowConfig reader path
  let workflow ← buildWorkflow config
  let callables ← resolveCallables config registry
  return (workflow, callables)

/-- The part of a loading from the second read on. -/
def completeEngine (reader : ConfigReader) (path : String) (workflow : Workflow)
    (callables : OrderedDict String TaskCallable) : Except PyError AcceptedEngine := do
  let taskParams ← loadTaskParams reader path
  (WorkflowEngine.init workflow callables taskParams 1).mapError .orchestration

/-- What `_run_schedule` does when the file stays as it is. -/
theorem loadEngine_eq_bind (reader : ConfigReader) (registry : OrderedDict String TaskCallable)
    (path : String) : loadEngine reader registry path =
      defineEngine reader registry path >>= fun definition =>
        completeEngine reader path definition.1 definition.2 := by
  simp only [loadEngine, defineEngine, completeEngine, bind_assoc, pure_bind]

/-- `_build_engine` is the same program, and returns the graph of the engine beside it. -/
theorem buildEngine_eq_bind (reader : ConfigReader) (registry : OrderedDict String TaskCallable)
    (path : String) : buildEngine reader registry path =
      defineEngine reader registry path >>= fun definition =>
        completeEngine reader path definition.1 definition.2 >>= fun engine =>
          pure (engine, definition.1) := by
  simp only [buildEngine, defineEngine, completeEngine, bind_assoc, pure_bind]

/-! ## The machine -/

/-- How far a loading is. A read is recorded with the version that it read. -/
inductive LoadPc where
  | starting
  | defined (first : String) (workflow : Workflow) (callables : OrderedDict String TaskCallable)
  | finished (first second : String) (engine : AcceptedEngine)
  | raised (error : PyError)

/-- The file is going to be read again. -/
def LoadPc.Reads : LoadPc → Prop
  | starting | defined _ _ _ => True
  | finished _ _ _ | raised _ => False

/-- The text of the file, all texts that it has held since the loading began, and the loading. -/
structure LoadState where
  text : String
  versions : List String
  pc : LoadPc

/-- A loading that begins while the file holds a text. -/
def LoadState.begin (text : String) : LoadState := ⟨text, [text], .starting⟩

section Machine

variable (reader : ConfigReader) (registry : OrderedDict String TaskCallable) (path : String)

/-- A text that is loaded without an error when it is not replaced. -/
def SoundText (text : String) : Prop :=
  ∃ engine, loadEngine (reader.holding path text) registry path = .ok engine

/-- The loading up to the second read, with the text that the file holds at the first one. -/
def LoadPc.afterFirst (text : String) : LoadPc :=
  match defineEngine (reader.holding path text) registry path with
  | .ok (workflow, callables) => .defined text workflow callables
  | .error error => .raised error

/-- The rest of the loading, with the text that the file holds at the second read. -/
def LoadPc.afterSecond (first : String) (workflow : Workflow)
    (callables : OrderedDict String TaskCallable) (text : String) : LoadPc :=
  match completeEngine (reader.holding path text) path workflow callables with
  | .ok engine => .finished first text engine
  | .error error => .raised error

/-- One step: the file is replaced by a sound text, or read. -/
inductive LoadStep : LoadState → LoadState → Prop where
  | replace {text : String} {versions : List String} {pc : LoadPc} (loading : pc.Reads)
      (replacement : String) (sound : SoundText reader registry path replacement) :
      LoadStep ⟨text, versions, pc⟩ ⟨replacement, versions ++ [replacement], pc⟩
  | firstRead {text : String} {versions : List String} :
      LoadStep ⟨text, versions, .starting⟩
        ⟨text, versions, .afterFirst reader registry path text⟩
  | secondRead {text first : String} {versions : List String} {workflow : Workflow}
      {callables : OrderedDict String TaskCallable} :
      LoadStep ⟨text, versions, .defined first workflow callables⟩
        ⟨text, versions, .afterSecond reader path first workflow callables text⟩

/-- The steps of a loading, one after the other. -/
abbrev Loads : LoadState → LoadState → Prop := ReflTransGen (LoadStep reader registry path)

/-- The engine has the graph, the callables and the task params that it has when one of the
versions is loaded on its own. -/
def FromOneVersion (versions : List String) (engine : AcceptedEngine) : Prop :=
  ∃ version ∈ versions, ∃ alone,
    loadEngine (reader.holding path version) registry path = .ok alone ∧
      engine.workflow = alone.workflow ∧ engine.tasks = alone.tasks ∧
      engine.taskParams = alone.taskParams

/-- Two versions have the same graph and the same callables. -/
def SameDefinition (first second : String) : Prop :=
  defineEngine (reader.holding path first) registry path =
    defineEngine (reader.holding path second) registry path

/-- Two versions have the same task params. -/
def SameParams (first second : String) : Prop :=
  loadTaskParams (reader.holding path first) path =
    loadTaskParams (reader.holding path second) path

/-- The engine has the graph and the callables of one version, and the task params of another. -/
structure Mixes (first second : String) (engine : AcceptedEngine) : Prop where
  definition : defineEngine (reader.holding path first) registry path =
    .ok (engine.workflow, engine.tasks)
  taskParams : loadTaskParams (reader.holding path second) path = .ok engine.taskParams

end Machine

variable {reader : ConfigReader} {registry : OrderedDict String TaskCallable} {path : String}

/-! ## Sound texts -/

theorem completeEngine_eq_ok_iff {workflow : Workflow}
    {callables : OrderedDict String TaskCallable} {engine : AcceptedEngine} :
    completeEngine reader path workflow callables = .ok engine ↔
      ∃ taskParams, loadTaskParams reader path = .ok taskParams ∧
        WorkflowEngine.init workflow callables taskParams 1 = .ok engine := by
  simp only [completeEngine, bind_eq_ok_iff, mapError_eq_ok_iff]

/-- A loaded engine has the parts that were read. -/
theorem mixes_of_completeEngine {first second : String} {workflow : Workflow}
    {callables : OrderedDict String TaskCallable} {engine : AcceptedEngine}
    (defined : defineEngine (reader.holding path first) registry path = .ok (workflow, callables))
    (completed : completeEngine (reader.holding path second) path workflow callables =
      .ok engine) : Mixes reader registry path first second engine := by
  obtain ⟨taskParams, read, accepted⟩ := completeEngine_eq_ok_iff.mp completed
  have kept := WorkflowEngine.of_init_eq_ok accepted
  refine ⟨?_, ?_⟩
  · rw [defined, kept]
  · rw [read, kept]

theorem mixes_of_loadEngine {version : String} {engine : AcceptedEngine}
    (loaded : loadEngine (reader.holding path version) registry path = .ok engine) :
    Mixes reader registry path version version engine := by
  rw [loadEngine_eq_bind, bind_eq_ok_iff] at loaded
  obtain ⟨definition, defined, completed⟩ := loaded
  exact mixes_of_completeEngine defined completed

/-- The constructor does not look at the task params, so that the definition of one sound text
is completed by the task params of another. -/
theorem exists_completeEngine {first second : String}
    (firstSound : SoundText reader registry path first)
    (secondSound : SoundText reader registry path second) : ∃ workflow callables engine,
      defineEngine (reader.holding path first) registry path = .ok (workflow, callables) ∧
      completeEngine (reader.holding path second) path workflow callables = .ok engine := by
  obtain ⟨firstEngine, firstLoaded⟩ := firstSound
  obtain ⟨secondEngine, secondLoaded⟩ := secondSound
  obtain ⟨engine, accepted, _⟩ := WorkflowEngine.init_eq_ok_iff.mpr
    ⟨le_refl 1, firstEngine.valid, firstEngine.mem_tasks⟩
  exact ⟨_, _, engine, (mixes_of_loadEngine firstLoaded).definition, completeEngine_eq_ok_iff.mpr
    ⟨_, (mixes_of_loadEngine secondLoaded).taskParams, accepted⟩⟩

/-! ## Every run of the machine -/

/-- What a loading has so far comes from versions of the file. It has not raised. -/
inductive Progress (reader : ConfigReader) (registry : OrderedDict String TaskCallable)
    (path : String) (versions : List String) : LoadPc → Prop where
  | starting : Progress reader registry path versions .starting
  | defined {first : String} {workflow : Workflow} {callables : OrderedDict String TaskCallable}
      (member : first ∈ versions)
      (read : defineEngine (reader.holding path first) registry path =
        .ok (workflow, callables)) :
      Progress reader registry path versions (.defined first workflow callables)
  | finished {first second : String} {engine : AcceptedEngine} (firstMember : first ∈ versions)
      (secondMember : second ∈ versions) (mixes : Mixes reader registry path first second engine) :
      Progress reader registry path versions (.finished first second engine)

/-- The invariant of a loading. -/
structure SoundLoading (reader : ConfigReader) (registry : OrderedDict String TaskCallable)
    (path : String) (state : LoadState) : Prop where
  current : state.text ∈ state.versions
  sound : ∀ version ∈ state.versions, SoundText reader registry path version
  progress : Progress reader registry path state.versions state.pc

theorem Progress.mono {versions : List String} {pc : LoadPc}
    (progress : Progress reader registry path versions pc) (replacement : String) :
    Progress reader registry path (versions ++ [replacement]) pc := by
  cases progress with
  | starting => exact .starting
  | defined member read => exact .defined (List.mem_append_left _ member) read
  | finished firstMember secondMember mixes =>
      exact .finished (List.mem_append_left _ firstMember) (List.mem_append_left _ secondMember)
        mixes

/-- Each step keeps the invariant. -/
theorem SoundLoading.step {before after : LoadState}
    (loading : SoundLoading reader registry path before)
    (step : LoadStep reader registry path before after) :
    SoundLoading reader registry path after := by
  obtain ⟨current, sound, progress⟩ := loading
  cases step with
  | replace _ replacement soundReplacement =>
      refine ⟨List.mem_append_right _ (List.mem_singleton_self _), ?_, progress.mono replacement⟩
      exact List.forall_mem_append.mpr ⟨sound, List.forall_mem_singleton.mpr soundReplacement⟩
  | @firstRead text versions =>
      obtain ⟨workflow, callables, _, defined, _⟩ :=
        exists_completeEngine (sound text current) (sound text current)
      refine ⟨current, sound, ?_⟩
      rw [LoadPc.afterFirst, defined]
      exact .defined current defined
  | @secondRead text first versions workflow callables =>
      cases progress with
      | defined member read =>
          obtain ⟨_, _, engine, defined, completed⟩ :=
            exists_completeEngine (sound first member) (sound text current)
          cases read.symm.trans defined
          refine ⟨current, sound, ?_⟩
          rw [LoadPc.afterSecond, completed]
          exact .finished member current (mixes_of_completeEngine defined completed)

/-- So every run keeps it. -/
theorem soundLoading_of_loads {text : String} {state : LoadState}
    (sound : SoundText reader registry path text)
    (run : Loads reader registry path (.begin text) state) :
    SoundLoading reader registry path state := by
  induction run with
  | refl =>
      refine ⟨List.mem_singleton_self text, ?_, .starting⟩
      exact List.forall_mem_singleton.mpr sound
  | tail _ step ih => exact ih.step step

/-! ## One version -/

/-- A mixture is what one version gives if and only if that version agrees with the two in the
parts that come from them. -/
theorem Mixes.fromOneVersion_iff {first second : String} {engine : AcceptedEngine}
    {versions : List String} (mixes : Mixes reader registry path first second engine)
    (sound : ∀ version ∈ versions, SoundText reader registry path version) :
    FromOneVersion reader registry path versions engine ↔
      ∃ version ∈ versions, SameDefinition reader registry path version first ∧
        SameParams reader path version second := by
  refine exists_congr fun version => and_congr_right fun member => ?_
  obtain ⟨single, loaded⟩ := sound version member
  have own := mixes_of_loadEngine loaded
  rw [SameDefinition, SameParams, own.definition, own.taskParams, mixes.definition,
    mixes.taskParams, Except.ok.injEq, Except.ok.injEq, Prod.mk.injEq]
  constructor
  · rintro ⟨alone, again, workflow, tasks, taskParams⟩
    cases loaded.symm.trans again
    exact ⟨⟨workflow.symm, tasks.symm⟩, taskParams.symm⟩
  · rintro ⟨⟨workflow, tasks⟩, taskParams⟩
    exact ⟨single, loaded, workflow.symm, tasks.symm, taskParams.symm⟩

/-- A first read that raises nothing. -/
theorem LoadStep.firstRead_of_eq_ok {text : String} {workflow : Workflow}
    {callables : OrderedDict String TaskCallable} (versions : List String)
    (defined : defineEngine (reader.holding path text) registry path = .ok (workflow, callables)) :
    LoadStep reader registry path ⟨text, versions, .starting⟩
      ⟨text, versions, .defined text workflow callables⟩ := by
  have step : LoadStep reader registry path ⟨text, versions, .starting⟩ _ := .firstRead
  rwa [LoadPc.afterFirst, defined] at step

/-- A second read that raises nothing, with a constructor that accepts. -/
theorem LoadStep.secondRead_of_eq_ok {text first : String} {workflow : Workflow}
    {callables : OrderedDict String TaskCallable} {engine : AcceptedEngine}
    (versions : List String)
    (completed : completeEngine (reader.holding path text) path workflow callables =
      .ok engine) :
    LoadStep reader registry path ⟨text, versions, .defined first workflow callables⟩
      ⟨text, versions, .finished first text engine⟩ := by
  have step : LoadStep reader registry path
      ⟨text, versions, .defined first workflow callables⟩ _ := .secondRead
  rwa [LoadPc.afterSecond, completed] at step

/-- **When nothing is replaced, the machine does what the two programs do.** -/
theorem loads_unreplaced {text : String} {engine : AcceptedEngine}
    (loaded : loadEngine (reader.holding path text) registry path = .ok engine) :
    Loads reader registry path (.begin text) ⟨text, [text], .finished text text engine⟩ ∧
      buildEngine (reader.holding path text) registry path = .ok (engine, engine.workflow) := by
  have own := (mixes_of_loadEngine loaded).definition
  rw [loadEngine_eq_bind, own, Except.ok_bind] at loaded
  constructor
  · exact (ReflTransGen.single (.firstRead_of_eq_ok [text] own)).tail
      (.secondRead_of_eq_ok [text] loaded)
  · rw [buildEngine_eq_bind, own, Except.ok_bind, loaded]
    rfl

/-- When the file is replaced between the two reads, the loading ends in the mixture. -/
theorem exists_loads_replaced {first second : String}
    (firstSound : SoundText reader registry path first)
    (secondSound : SoundText reader registry path second) : ∃ engine,
      Loads reader registry path (.begin first)
        ⟨second, [first, second], .finished first second engine⟩ ∧
      Mixes reader registry path first second engine := by
  obtain ⟨workflow, callables, engine, defined, completed⟩ :=
    exists_completeEngine firstSound secondSound
  have replaced : LoadStep reader registry path
      ⟨first, [first], .defined first workflow callables⟩
      ⟨second, [first, second], .defined first workflow callables⟩ :=
    .replace (show LoadPc.Reads (.defined first workflow callables) from trivial) second secondSound
  have read : Loads reader registry path (.begin first)
      ⟨first, [first], .defined first workflow callables⟩ :=
    .single (.firstRead_of_eq_ok [first] defined)
  exact ⟨engine, (read.tail replaced).tail (.secondRead_of_eq_ok [first, second] completed),
    mixes_of_completeEngine defined completed⟩

/-- **A loading of sound versions never raises. Its engine is the engine of one of the versions
exactly if the second read found the task params of the version that the first one found, or its
graph and its callables, or else a third version that the file held has the definition of the one
and the task params of the other.** -/
theorem loading_fromOneVersion_iff (reader : ConfigReader)
    (registry : OrderedDict String TaskCallable) (path : String) {text : String}
    (sound : SoundText reader registry path text) {state : LoadState}
    (run : Loads reader registry path (.begin text) state) :
    (∀ error, state.pc ≠ .raised error) ∧
      ∀ first second engine, state.pc = .finished first second engine →
        (FromOneVersion reader registry path state.versions engine ↔
          SameParams reader path first second ∨ SameDefinition reader registry path first second ∨
            ∃ third ∈ state.versions, SameDefinition reader registry path third first ∧
              SameParams reader path third second) := by
  obtain ⟨_, allSound, progress⟩ := soundLoading_of_loads sound run
  constructor
  · intro error raised
    rw [raised] at progress
    cases progress
  · intro first second engine finished
    rw [finished] at progress
    cases progress with
    | finished firstMember secondMember mixes =>
        rw [mixes.fromOneVersion_iff allSound]
        constructor
        · exact fun third => .inr (.inr third)
        · rintro (sameParams | sameDefinition | third)
          · exact ⟨first, firstMember, rfl, sameParams⟩
          · exact ⟨second, secondMember, sameDefinition.symm, rfl⟩
          · exact third

/-! ## An edited file -/

/-- The text of a file with one task, which has one parameter. -/
def ingestionText (name : String) : String :=
  "workflow_id: ingestion\ntasks:\n  - task_id: ingest\n    callable: echo\n" ++
    "    params:\n      " ++ name ++ ": orders\n"

/-- A second task behind it. -/
def vacuumText : String :=
  "  - task_id: vacuum\n    callable: echo\n    depends_on: [ingest]\n"

/-- The document of the first task. -/
def ingestDocument (name : String) : PyValue :=
  .dict [("task_id", .str "ingest"), ("callable", .str "echo"),
    ("params", .dict [(name, .str "orders")])]

/-- The document of the second task. -/
def vacuumDocument : PyValue :=
  .dict [("task_id", .str "vacuum"), ("callable", .str "echo"),
    ("depends_on", .list [.str "ingest"])]

/-- The entry of the first task. -/
def ingestConfig (name : String) : TaskConfig where
  taskId := "ingest"
  callable := "echo"
  params := ⟨[(name, .str "orders")], List.nodup_singleton _⟩

/-- Three versions of a file: the parameter is a source, it is a target, and it is a target and
there is a second task. -/
def editedReader : ConfigReader where
  Raw := PyValue
  readText _ := none
  safeLoad text :=
    if text = ingestionText "source" then .ok (.dict [("workflow_id", .str "ingestion"),
      ("tasks", .list [ingestDocument "source"])])
    else if text = ingestionText "target" then .ok (.dict [("workflow_id", .str "ingestion"),
      ("tasks", .list [ingestDocument "target"])])
    else .ok (.dict [("workflow_id", .str "ingestion"),
      ("tasks", .list [ingestDocument "target", vacuumDocument])])
  modelValidate
    | .dict [_, (_, .list [.dict [_, _, (_, .dict [(name, _)])]])] =>
        .ok { workflowId := "ingestion", tasks := [ingestConfig name] }
    | _ => .ok { workflowId := "ingestion", tasks := [ingestConfig "target",
        { taskId := "vacuum", callable := "echo", dependsOn := ["ingest"] }] }

theorem soundText_of_isOk {text : String}
    (loads : (loadEngine (reader.holding path text) registry path).isOk = true) :
    SoundText reader registry path text := by
  cases loaded : loadEngine (reader.holding path text) registry path with
  | ok engine => exact ⟨engine, loaded⟩
  | error error =>
      rw [loaded] at loads
      cases loads

theorem soundText_extended : SoundText editedReader exampleRegistry "ingestion.yaml"
    (ingestionText "target" ++ vacuumText) :=
  soundText_of_isOk (by decide +kernel)

/-- An edit that leaves the task params as they are is harmless. -/
theorem loading_fromOneVersion_iff_edited : ∃ engine,
    Loads editedReader exampleRegistry "ingestion.yaml" (.begin (ingestionText "target"))
      ⟨ingestionText "target" ++ vacuumText,
        [ingestionText "target", ingestionText "target" ++ vacuumText],
        .finished (ingestionText "target") (ingestionText "target" ++ vacuumText) engine⟩ ∧
    FromOneVersion editedReader exampleRegistry "ingestion.yaml"
      [ingestionText "target", ingestionText "target" ++ vacuumText] engine := by
  have target : SoundText editedReader exampleRegistry "ingestion.yaml"
      (ingestionText "target") := soundText_of_isOk (by decide +kernel)
  obtain ⟨engine, run, _⟩ := exists_loads_replaced target soundText_extended
  obtain ⟨_, exactly⟩ := loading_fromOneVersion_iff editedReader exampleRegistry "ingestion.yaml"
    target run
  exact ⟨engine, run, (exactly _ _ engine rfl).mpr (.inl rfl)⟩

/-- An edit of the task params and of the graph, between the two reads: the first version's task
is run with the second version's parameter. -/
theorem loading_mixes_edited : ∃ engine,
    Loads editedReader exampleRegistry "ingestion.yaml" (.begin (ingestionText "source"))
      ⟨ingestionText "target" ++ vacuumText,
        [ingestionText "source", ingestionText "target" ++ vacuumText],
        .finished (ingestionText "source") (ingestionText "target" ++ vacuumText) engine⟩ ∧
    ¬ FromOneVersion editedReader exampleRegistry "ingestion.yaml"
      [ingestionText "source", ingestionText "target" ++ vacuumText] engine := by
  have source : SoundText editedReader exampleRegistry "ingestion.yaml"
      (ingestionText "source") := soundText_of_isOk (by decide +kernel)
  obtain ⟨engine, run, mixes⟩ := exists_loads_replaced source soundText_extended
  refine ⟨engine, run, ?_⟩
  rw [mixes.fromOneVersion_iff (List.forall_mem_cons.mpr
    ⟨source, List.forall_mem_singleton.mpr soundText_extended⟩)]
  rintro ⟨version, member, sameDefinition, sameParams⟩
  rcases List.mem_pair.mp member with rfl | rfl
  · have names := congrArg (Except.map fun taskParams => taskParams.values.map OrderedDict.keys)
      sameParams
    exact absurd names (by decide +kernel)
  · have taskIds := congrArg (Except.map fun definition => definition.1.tasks.keys) sameDefinition
    exact absurd taskIds (by decide +kernel)

end EtlOrchestrator
