import EtlOrchestrator.Cli.Schedules

/-!
# The schedules file

`scheduler register` and `scheduler unregister` rewrite the schedules file, and
`scheduler run-once` registers its entries one after the other. The names in a file
that the commands have written are unique. The intervals are not checked when
they are written, but when they are read: one that is not positive makes every
later `scheduler run-once` raise before any schedule has run
(`reached_accepted_iff`).

`json.dumps` and `json.loads` keep names, paths and floats as they are, so that a file
is the list of its entries here.
-/

set_option autoImplicit false

namespace EtlOrchestrator

open Scheduling

/-! ## Entries -/

/-- A float. -/
inductive PyFloat where
  | finite (value : ℚ)
  | infinite (negative : Bool)
  | nan
deriving DecidableEq

/-- `value <= 0`, which does not hold of `nan`. -/
def PyFloat.isNonpositive : PyFloat → Bool
  | .finite value => value ≤ 0
  | .infinite negative => negative
  | .nan => false

/-- An entry of the schedules file, with any float for its interval. -/
structure FileEntry where
  name : String
  path : String
  intervalSeconds : PyFloat
deriving DecidableEq

/-- `Scheduler.register`, called for an entry by `scheduler_run_once`. -/
def registerEntry (schedules : OrderedDict String FileEntry) (entry : FileEntry) :
    Except PyError (OrderedDict String FileEntry) :=
  if entry.intervalSeconds.isNonpositive then
    .error (.valueError "interval_seconds must be positive")
  else .ok (schedules.set entry.name entry)

/-- The loop of `scheduler_run_once` over the entries of a file. -/
def registerFile (schedules : OrderedDict String FileEntry) :
    List FileEntry → Except PyError (OrderedDict String FileEntry)
  | [] => .ok schedules
  | entry :: rest => do
      let registered ← registerEntry schedules entry
      registerFile registered rest

/-- `_load_schedules`: a file that is not there has no entries. -/
def loadSchedules (file : Option (List FileEntry)) : List FileEntry := file.getD []

/-! ## `scheduler register` and `scheduler unregister` -/

/-- The directory of the workflow files, and what `pathlib` finds there. -/
structure Workspace where
  workflowsDir : String
  /-- `Path.suffix` -/
  suffix : String → String
  /-- `directory / name` -/
  join : String → String → String
  /-- `Path.is_file` -/
  isFile : String → Bool
  /-- `Path.resolve` -/
  resolve : String → String

/-- `_WORKFLOW_EXTENSIONS`. -/
def workflowExtensions : List String := [".yaml", ".yml"]

/-- `_fail`, and the other errors of the command line. -/
def clickException (message : String) : PyError := .other "ClickException" message

/-- Resolve a workflow name (or explicit path) to a YAML file. -/
def findWorkflowFile (workspace : Workspace) (name : String) : Except PyError String :=
  if workspace.suffix name ∈ workflowExtensions then
    if workspace.isFile name then .ok name
    else .error (clickException s!"workflow file not found: {name}")
  else
    let paths := workflowExtensions.map fun extension =>
      workspace.join workspace.workflowsDir (name ++ extension)
    match paths.find? workspace.isFile with
    | some path => .ok path
    | none => .error
        (clickException s!"workflow '{name}' not found in {workspace.workflowsDir}")

/-- Register a workflow file for interval-based execution. -/
def schedulerRegister (workspace : Workspace) (name : String) (interval : PyFloat)
    (file : Option (List FileEntry)) : Except PyError (Option (List FileEntry)) := do
  let path ← findWorkflowFile workspace name
  let entries := (loadSchedules file).filter (·.name ≠ name)
  return some (entries ++ [{ name, path := workspace.resolve path, intervalSeconds := interval }])

/-- Remove a schedule registration. -/
def schedulerUnregister (name : String) (file : Option (List FileEntry)) :
    Except PyError (Option (List FileEntry)) :=
  let entries := loadSchedules file
  let remaining := entries.filter (·.name ≠ name)
  if remaining.length = entries.length then
    .error (clickException s!"schedule not found: {name}")
  else .ok (some remaining)

/-- A command that rewrites the schedules file. -/
inductive FileCommand where
  | register (workspace : Workspace) (name : String) (interval : PyFloat)
  | unregister (name : String)

namespace FileCommand

/-- The file after a command, or what the command raises. -/
def run (file : Option (List FileEntry)) : FileCommand → Except PyError (Option (List FileEntry))
  | .register workspace name interval => schedulerRegister workspace name interval file
  | .unregister name => schedulerUnregister name file

/-- The file after some commands that all succeed. -/
def runAll (file : Option (List FileEntry)) (commands : List FileCommand) :
    Except PyError (Option (List FileEntry)) :=
  commands.foldlM run file

/-- The interval that a command writes is not `<= 0`. -/
def Positive : FileCommand → Prop
  | .register _ _ interval => interval.isNonpositive = false
  | .unregister _ => True

instance : (command : FileCommand) → Decidable command.Positive
  | .register _ _ interval => inferInstanceAs (Decidable (interval.isNonpositive = false))
  | .unregister _ => .isTrue trivial

end FileCommand

/-- `scheduler run-once` accepts a file: the names are unique, every entry passes
`Scheduler.register`, and so the loop over the entries ends. -/
structure Accepted (entries : List FileEntry) : Prop where
  distinct : (entries.map FileEntry.name).Nodup
  passes : ∀ entry ∈ entries, ∀ schedules, ∃ registered,
    registerEntry schedules entry = .ok registered
  ends : ∃ registered, registerFile ∅ entries = .ok registered

/-! ## Which files are accepted -/

theorem registerEntry_isOk_iff {schedules : OrderedDict String FileEntry} {entry : FileEntry} :
    (∃ registered, registerEntry schedules entry = .ok registered) ↔
      entry.intervalSeconds.isNonpositive = false := by
  rw [registerEntry]
  split
  · rename_i nonpositive
    simp [nonpositive]
  · rename_i positive
    simp [positive]

/-- The loop ends if and only if each entry passes. -/
theorem registerFile_isOk_iff (entries : List FileEntry) :
    ∀ schedules, (∃ registered, registerFile schedules entries = .ok registered) ↔
      ∀ entry ∈ entries, entry.intervalSeconds.isNonpositive = false := by
  induction entries with
  | nil => exact fun schedules => iff_of_true ⟨schedules, rfl⟩ (List.forall_mem_nil _)
  | cons entry rest ih =>
      intro schedules
      rw [List.forall_mem_cons, ← registerEntry_isOk_iff, registerFile]
      constructor
      · rintro ⟨registered, ran⟩
        obtain ⟨next, first, later⟩ := Except.bind_eq_ok_iff.mp ran
        exact ⟨⟨next, first⟩, (ih next).mp ⟨registered, later⟩⟩
      · rintro ⟨⟨next, first⟩, later⟩
        obtain ⟨registered, ran⟩ := (ih next).mpr later
        exact ⟨registered, Except.bind_eq_ok_iff.mpr ⟨next, first, ran⟩⟩

/-- **A file is accepted if and only if its names are unique and no interval is `<= 0`.** -/
theorem accepted_iff {entries : List FileEntry} :
    Accepted entries ↔ (entries.map FileEntry.name).Nodup ∧
      ∀ entry ∈ entries, entry.intervalSeconds.isNonpositive = false := by
  constructor
  · exact fun accepted => ⟨accepted.distinct, (registerFile_isOk_iff entries ∅).mp accepted.ends⟩
  · rintro ⟨distinct, positive⟩
    exact ⟨distinct,
      fun entry member schedules => registerEntry_isOk_iff.mpr (positive entry member),
      (registerFile_isOk_iff entries ∅).mpr positive⟩

/-- An entry with a finite interval. -/
def ScheduleEntry.toFile (entry : ScheduleEntry) : FileEntry where
  name := entry.name
  path := entry.path
  intervalSeconds := .finite entry.intervalSeconds

/-- For finite intervals the loop is the one of the scheduler itself. -/
theorem registerEntries_of_rejected {entries : List ScheduleEntry} {error : PyError} :
    ∀ {schedules : OrderedDict String FileEntry} {scheduler : Scheduler},
      registerFile schedules (entries.map ScheduleEntry.toFile) = .error error →
        registerEntries scheduler entries = .error error := by
  induction entries with
  | nil => exact fun rejected => by cases rejected
  | cons entry rest ih =>
      intro schedules scheduler rejected
      rw [List.map_cons, registerFile, registerEntry] at rejected
      rw [registerEntries, Scheduler.register]
      by_cases positive : 0 < entry.intervalSeconds
      · have passes : entry.toFile.intervalSeconds.isNonpositive = false :=
          decide_eq_false (not_le.mpr positive)
        rw [passes] at rejected
        rw [dif_pos positive]
        exact ih rejected
      · have fails : entry.toFile.intervalSeconds.isNonpositive = true :=
          decide_eq_true (not_lt.mp positive)
        rw [fails, if_pos rfl, Except.error_bind] at rejected
        rw [dif_neg positive, Except.error_bind]
        cases rejected
        rfl

/-- **A file that is not accepted makes `scheduler run-once` raise before any schedule has
run.** -/
theorem schedulerRunOnce_of_rejected {world : Surroundings} {entries : List ScheduleEntry}
    {error : PyError} (state : SchedulerState)
    (rejected : registerFile ∅ (entries.map ScheduleEntry.toFile) = .error error) :
    (schedulerRunOnce world entries).run state = .error error state := by
  cases entries with
  | nil => cases rejected
  | cons entry rest =>
      rw [schedulerRunOnce, List.isEmpty_cons, if_neg Bool.false_ne_true, EStateM.run_bind,
        EStateM.run_get]
      dsimp only
      rw [registerEntries_of_rejected rejected]
      rfl

/-! ## The files that the commands reach -/

namespace FileCommand

variable {file start after : Option (List FileEntry)} {command : FileCommand}
  {commands : List FileCommand}

/-- What a command writes: `register` sets the entry of a name, and `unregister` removes
it. -/
theorem of_run (ran : command.run file = .ok after) :
    (∃ workspace name interval path, command = .register workspace name interval ∧
      loadSchedules after = (loadSchedules file).filter (·.name ≠ name) ++
        [{ name, path, intervalSeconds := interval }]) ∨
    ∃ name, command = .unregister name ∧
      loadSchedules after = (loadSchedules file).filter (·.name ≠ name) := by
  cases command with
  | register workspace name interval =>
      obtain ⟨path, _, written⟩ := Except.bind_eq_ok_iff.mp ran
      cases written
      exact .inl ⟨workspace, name, interval, _, rfl, rfl⟩
  | unregister name =>
      rw [run, schedulerUnregister] at ran
      split at ran
      · cases ran
      · cases ran
        exact .inr ⟨name, rfl, rfl⟩

/-- A command keeps the names of a file unique. -/
theorem distinct_of_run (ran : command.run file = .ok after)
    (distinct : ((loadSchedules file).map FileEntry.name).Nodup) :
    ((loadSchedules after).map FileEntry.name).Nodup := by
  have others : ∀ name, (((loadSchedules file).filter (·.name ≠ name)).map
      FileEntry.name).Nodup := fun name => (List.filter_sublist.map _).nodup distinct
  rcases of_run ran with ⟨_, name, interval, path, _, written⟩ | ⟨name, _, written⟩
  · rw [written, List.map_append, List.nodup_append]
    refine ⟨others name, List.nodup_singleton _, ?_⟩
    rintro other member _ new rfl
    obtain ⟨entry, kept, rfl⟩ := List.mem_map.mp member
    have different := (List.mem_filter.mp kept).2
    simp only [List.map_cons, List.map_nil, List.mem_singleton] at new
    simp [new] at different
  · rw [written]
    exact others name

/-- A command that writes no interval `<= 0` keeps a file accepted. -/
theorem accepted_of_run (ran : command.run file = .ok after) (positive : command.Positive)
    (accepted : Accepted (loadSchedules file)) : Accepted (loadSchedules after) := by
  obtain ⟨distinct, intervals⟩ := accepted_iff.mp accepted
  refine accepted_iff.mpr ⟨distinct_of_run ran distinct, fun entry member => ?_⟩
  rcases of_run ran with ⟨_, name, interval, path, rfl, written⟩ | ⟨name, _, written⟩
  · rw [written, List.mem_append, List.mem_singleton] at member
    rcases member with old | rfl
    · exact intervals entry (List.mem_of_mem_filter old)
    · exact positive
  · rw [written] at member
    exact intervals entry (List.mem_of_mem_filter member)

/-- After a command whose file is accepted, it has written no interval `<= 0`. -/
theorem positive_of_run (ran : command.run file = .ok after)
    (accepted : Accepted (loadSchedules after)) : command.Positive := by
  rcases of_run ran with ⟨_, name, interval, path, rfl, written⟩ | ⟨name, rfl, _⟩
  · exact (accepted_iff.mp accepted).2 _ (written ▸ List.mem_append_right _ List.mem_cons_self)
  · trivial

theorem runAll_concat (commands : List FileCommand) (command : FileCommand) :
    runAll start (commands ++ [command]) =
      runAll start commands >>= fun file => command.run file := by
  rw [runAll, List.foldlM_append]
  simp only [List.foldlM_cons, List.foldlM_nil, bind_pure]
  rfl

theorem runAll_append (earlier later : List FileCommand) :
    runAll start (earlier ++ later) =
      runAll start earlier >>= fun file => runAll file later := by
  rw [runAll, List.foldlM_append]
  rfl

/-- The names in every file that commands reach are unique. -/
theorem distinct_of_runAll (empty : loadSchedules start = []) :
    ∀ {file}, runAll start commands = .ok file →
      ((loadSchedules file).map FileEntry.name).Nodup := by
  induction commands using List.reverseRecOn with
  | nil =>
      intro file ran
      cases ran
      rw [empty]
      exact List.nodup_nil
  | append_singleton commands command ih =>
      intro file ran
      rw [runAll_concat] at ran
      obtain ⟨before, earlier, last⟩ := Except.bind_eq_ok_iff.mp ran
      exact distinct_of_run last (ih earlier)

/-- A file that is reached without intervals `<= 0` is accepted. -/
theorem accepted_of_runAll (empty : loadSchedules start = [])
    (positive : ∀ command ∈ commands, command.Positive) :
    ∀ {file}, runAll start commands = .ok file → Accepted (loadSchedules file) := by
  induction commands using List.reverseRecOn with
  | nil =>
      intro file ran
      cases ran
      rw [empty, accepted_iff]
      exact ⟨List.nodup_nil, List.forall_mem_nil _⟩
  | append_singleton commands command ih =>
      intro file ran
      rw [runAll_concat] at ran
      obtain ⟨before, earlier, last⟩ := Except.bind_eq_ok_iff.mp ran
      exact accepted_of_run last (positive command (List.mem_append_right _ List.mem_cons_self))
        (ih (fun other member => positive other (List.mem_append_left _ member)) earlier)

end FileCommand

open FileCommand

/-- **Every file that commands reach has unique names, and all of them are accepted if and
only if no `scheduler register` among the commands writes an interval `<= 0`.** -/
theorem reached_accepted_iff {start file : Option (List FileEntry)} {commands : List FileCommand}
    (empty : loadSchedules start = []) (ran : runAll start commands = .ok file) :
    (∀ earlier reached, earlier <+: commands → runAll start earlier = .ok reached →
      ((loadSchedules reached).map FileEntry.name).Nodup) ∧
    ((∀ earlier reached, earlier <+: commands → runAll start earlier = .ok reached →
        Accepted (loadSchedules reached)) ↔
      ∀ command ∈ commands, command.Positive) := by
  refine ⟨fun earlier reached _ => distinct_of_runAll empty, fun accepted command member => ?_,
    fun positive earlier reached isPrefix => accepted_of_runAll empty fun command member =>
      positive command (isPrefix.subset member)⟩
  obtain ⟨earlier, later, rfl⟩ := List.append_of_mem member
  rw [List.append_cons, runAll_append] at ran
  obtain ⟨reached, first, _⟩ := Except.bind_eq_ok_iff.mp ran
  have last := first
  rw [runAll_concat] at last
  obtain ⟨before, _, written⟩ := Except.bind_eq_ok_iff.mp last
  exact positive_of_run written (accepted _ reached (by simp) first)

/-- A directory in which every workflow name is found. -/
def exampleWorkspace : Workspace where
  workflowsDir := "workflows"
  suffix _ := ""
  join directory name := directory ++ "/" ++ name
  isFile _ := true
  resolve path := "/" ++ path

/-- Commands that register, replace and remove schedules. -/
def exampleCommands : List FileCommand :=
  [.register exampleWorkspace "daily" (.finite 86400), .register exampleWorkspace "never" .nan,
    .register exampleWorkspace "daily" (.finite 43200), .unregister "never"]

theorem reached_accepted_iff_example : ∃ file, runAll none exampleCommands = .ok file ∧
    file = some [⟨"daily", "/workflows/daily.yaml", .finite 43200⟩] ∧
    Accepted (loadSchedules file) := by
  have ran : runAll none exampleCommands =
      .ok (some [⟨"daily", "/workflows/daily.yaml", .finite 43200⟩]) := by decide +kernel
  exact ⟨_, ran, rfl, (reached_accepted_iff rfl ran).2.mpr (by decide +kernel) exampleCommands _
    (List.prefix_refl _) ran⟩

/-- Two schedules, of which the second one has the interval zero. -/
def zeroEntries : List ScheduleEntry :=
  [⟨"daily", "/workflows/daily.yaml", 86400⟩, ⟨"often", "/workflows/often.yaml", 0⟩]

/-- Both commands succeed, and `scheduler run-once` runs no schedule. -/
theorem zero_not_accepted :
    runAll none [.register exampleWorkspace "daily" (.finite 86400),
        .register exampleWorkspace "often" (.finite 0)] =
      .ok (some (zeroEntries.map ScheduleEntry.toFile)) ∧
    (∀ world state, (schedulerRunOnce world zeroEntries).run state =
      .error (.valueError "interval_seconds must be positive") state) ∧
    ¬ Accepted (zeroEntries.map ScheduleEntry.toFile) := by
  refine ⟨by decide +kernel, fun world state => schedulerRunOnce_of_rejected state rfl,
    fun accepted => ?_⟩
  have positive := (accepted_iff.mp accepted).2 ⟨"often", "/workflows/often.yaml", .finite 0⟩
  exact absurd (positive (by decide)) (by decide)

end EtlOrchestrator
