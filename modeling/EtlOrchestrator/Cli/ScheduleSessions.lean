import EtlOrchestrator.Cli.ScheduleCommands
import EtlOrchestrator.Foundations.LastUpdates
import EtlOrchestrator.Persistence.JsonParams

/-!
# Sessions on the schedules file

What a schedules file holds after any processes, some of which may fail, can be said by the
processes alone: its old entries that no process names, and behind them what the last registrations
of the others are, in the order in which they were made (`schedules_of_session`).
-/

set_option autoImplicit false

namespace EtlOrchestrator

open Json LastUpdates

/-! ## Entries -/

namespace PyJson

/-- The text that a dictionary has under `"name"`. -/
def entryName : PyJson → Option String
  | .object members =>
      match members.lookup "name" with
      | some (.string name) => some name
      | _ => none
  | _ => none

/-- What a dictionary has under a key. -/
def field (key : String) : PyJson → PyJson
  | .object members => (members.lookup key).getD .null
  | _ => .null

/-- A dictionary with the keys of an entry. -/
def IsEntry (entry : PyJson) : Prop :=
  ∃ members, entry = .object members ∧
    ∀ key ∈ ["name", "path", "interval_seconds"], ∃ value, members.lookup key = some value

/-- The line that `scheduler list` prints for an entry. -/
def entryText (floats : FloatReprs) (conversions : Conversions) (entry : PyJson) : String :=
  let name := format floats conversions (entry.field "name")
  let interval := format floats conversions (entry.field "interval_seconds")
  let path := format floats conversions (entry.field "path")
  s!"{name}: every {interval}s ({path})"

variable {entry : PyJson}

theorem IsEntry.get (isEntry : entry.IsEntry) (name : String) :
    ∃ stored, entry.get "name" = .ok stored ∧
      stored.isText name = decide (entry.entryName = some name) := by
  obtain ⟨members, rfl, has⟩ := isEntry
  obtain ⟨value, found⟩ := has "name" List.mem_cons_self
  refine ⟨value, ?_, ?_⟩
  · rw [PyJson.get, found]
    rfl
  · rw [entryName, found]
    cases value <;> simp [isText]

theorem IsEntry.subscript (isEntry : entry.IsEntry) {key : String}
    (member : key ∈ ["name", "path", "interval_seconds"]) :
    entry.subscript key = .ok (entry.field key) := by
  obtain ⟨members, rfl, has⟩ := isEntry
  obtain ⟨value, found⟩ := has key member
  rw [PyJson.subscript, field, found]
  rfl

end PyJson

namespace FileEntry

variable (entry : FileEntry)

theorem isEntry_toJson : entry.toJson.IsEntry := by
  refine ⟨_, rfl, fun key member => ?_⟩
  simp only [List.mem_cons, List.not_mem_nil, or_false] at member
  rcases member with rfl | rfl | rfl <;> exact ⟨_, rfl⟩

theorem entryName_toJson : entry.toJson.entryName = some entry.name := rfl

theorem wellFormed_toJson : entry.toJson.WellFormed := by
  have distinct : ["name", "path", "interval_seconds"].Nodup := by decide
  exact ⟨distinct, trivial, trivial, trivial, trivial⟩

end FileEntry

namespace Planning

variable {floats : FloatReprs} {conversions : Conversions} {entries : List PyJson}

/-- The entries with another name. -/
theorem others_eq (name : String) (areEntries : ∀ entry ∈ entries, entry.IsEntry) :
    others name entries = .ok (entries.filter (·.entryName ≠ some name)) := by
  induction entries with
  | nil => rfl
  | cons entry rest ih =>
      obtain ⟨stored, got, isText⟩ := (areEntries entry List.mem_cons_self).get name
      have later := ih fun other member => areEntries other (List.mem_cons_of_mem _ member)
      rw [others, got, Except.ok_bind, later, Except.ok_bind, isText]
      by_cases same : entry.entryName = some name
      · simp [same, pure, Except.pure]
      · simp [same, pure, Except.pure]

theorem entryLine_eq {entry : PyJson} (isEntry : entry.IsEntry) :
    entryLine floats conversions entry = .ok (entry.entryText floats conversions) := by
  rw [entryLine, isEntry.subscript (by decide), Except.ok_bind, isEntry.subscript (by decide),
    Except.ok_bind, isEntry.subscript (by decide), Except.ok_bind]
  rfl

@[simp] theorem run_echo (line : String) (desk : Desk) :
    (echo line).run desk = .ok () { desk with lines := desk.lines ++ [line] } := rfl

@[simp] theorem run_saveSchedules (entries : List PyJson) (desk : Desk) :
    (saveSchedules floats entries).run desk =
      .ok () { desk with file := some (dumpEntries floats entries) } := rfl

@[simp] theorem run_ofExcept_ok {α : Type} (result : α) (desk : Desk) :
    (ofExcept (.ok result) : Planning α).run desk = .ok result desk := rfl

@[simp] theorem run_ofExcept_error {α : Type} (error : PyError) (desk : Desk) :
    (ofExcept (.error error) : Planning α).run desk = .error error desk := rfl

@[simp] theorem run_throw {α : Type} (error : PyError) (desk : Desk) :
    (throw error : Planning α).run desk = .error error desk := rfl

/-- The loop of `scheduler_list` prints a line for each entry. -/
theorem run_listEntries (areEntries : ∀ entry ∈ entries, entry.IsEntry) : ∀ desk : Desk,
    (listEntries floats conversions entries).run desk = .ok () { desk with
      lines := desk.lines ++ entries.map (·.entryText floats conversions) } := by
  induction entries with
  | nil =>
      intro desk
      simp [listEntries]
  | cons entry rest ih =>
      intro desk
      have later := ih fun other member => areEntries other (List.mem_cons_of_mem _ member)
      rw [listEntries, entryLine_eq (areEntries entry List.mem_cons_self)]
      simp [later]

/-- A file shows some entries. -/
structure Shows (floats : FloatReprs) (file : Option String) (entries : List PyJson) : Prop where
  loaded : loadFile floats file = .ok (.array entries)
  areEntries : ∀ entry ∈ entries, entry.IsEntry

/-- A file that is not there shows no entries. -/
theorem shows_none : Shows floats none [] := ⟨rfl, List.forall_mem_nil _⟩

/-- Loaded entries name their keys once. -/
theorem Shows.wellFormed {file : Option String} (shown : Shows floats file entries) :
    ∀ entry ∈ entries, entry.WellFormed := by
  have loaded := shown.loaded
  cases file with
  | none =>
      cases loaded
      exact List.forall_mem_nil _
  | some text =>
      rw [loadFile] at loaded
      split at loaded
      · next value read =>
        cases loaded
        exact wellFormedItems_iff.mp (wellFormed_of_loads _ read)
      · cases loaded

/-- A file shows the entries that were written. -/
theorem shows_saved (wellFormed : ∀ entry ∈ entries, entry.WellFormed)
    (areEntries : ∀ entry ∈ entries, entry.IsEntry) :
    Shows floats (some (dumpEntries floats entries)) entries := by
  refine ⟨?_, areEntries⟩
  have arrayWellFormed : (Value.array entries).WellFormed := wellFormedItems_iff.mpr wellFormed
  rw [loadFile, dumpEntries, loads_dumps _ _ arrayWellFormed]

end Planning

/-! ## What each process does -/

namespace ScheduleProcess

open Planning

variable {floats : FloatReprs} {conversions : Conversions} {file : Option String}
  {entries : List PyJson}

theorem run_register {workspace : Workspace} {name path : String} {interval : PyFloat}
    (shown : Shows floats file entries) (found : findWorkflowFile workspace name = .ok path) :
    (program floats conversions ⟨workspace, .register name interval⟩).run { file } =
      .ok () {
        file := some (dumpEntries floats (entries.filter (·.entryName ≠ some name) ++
          [FileEntry.toJson ⟨name, workspace.resolve path, interval⟩]))
        lines := [s!"scheduled '{name}' every {floats.shown interval}s ({path})"] } := by
  have kept := others_eq name shown.areEntries
  simp [program, Planning.schedulerRegister, found, shown.loaded, PyJson.iterate, kept]

/-- A workflow file that is not found. -/
theorem run_register_missing {workspace : Workspace} {name : String} {interval : PyFloat}
    {error : PyError} (missing : findWorkflowFile workspace name = .error error) :
    (program floats conversions ⟨workspace, .register name interval⟩).run { file } =
      .error error { file } := by
  simp [program, Planning.schedulerRegister, missing]

theorem run_list {workspace : Workspace} (shown : Shows floats file entries) :
    (program floats conversions ⟨workspace, .list⟩).run { file } = .ok () {
      file
      lines := if entries = [] then ["no schedules registered"]
        else entries.map (·.entryText floats conversions) } := by
  cases entries with
  | nil => simp [program, Planning.schedulerList, shown.loaded, PyJson.truthy]
  | cons entry rest =>
      simp [program, Planning.schedulerList, shown.loaded, PyJson.truthy, PyJson.iterate,
        run_listEntries shown.areEntries]

theorem run_unregister {workspace : Workspace} {name : String} (shown : Shows floats file entries)
    {registered : PyJson} (member : registered ∈ entries)
    (named : registered.entryName = some name) :
    (program floats conversions ⟨workspace, .unregister name⟩).run { file } = .ok () {
      file := some (dumpEntries floats (entries.filter (·.entryName ≠ some name)))
      lines := [s!"unregistered '{name}'"] } := by
  have kept := others_eq name shown.areEntries
  have present : ¬ ∀ entry ∈ entries, ¬ entry.entryName = some name :=
    fun others => others registered member named
  simp [program, Planning.schedulerUnregister, shown.loaded, PyJson.iterate, kept, if_neg present]

/-- A name that no entry has. -/
theorem run_unregister_missing {workspace : Workspace} {name : String}
    (shown : Shows floats file entries)
    (missing : ∀ entry ∈ entries, entry.entryName ≠ some name) :
    (program floats conversions ⟨workspace, .unregister name⟩).run { file } =
      .error (clickException s!"schedule not found: {name}") { file } := by
  have kept := others_eq name shown.areEntries
  have same : entries.filter (·.entryName ≠ some name) = entries :=
    List.filter_eq_self.mpr fun entry member => decide_eq_true (missing entry member)
  rw [same] at kept
  simp [program, Planning.schedulerUnregister, shown.loaded, PyJson.iterate, kept]

/-! ## Sessions -/

/-- What a process does to the entry of a name, if it gets so far: `register` puts in an entry with
the name, and `unregister` takes it out. -/
def update? (process : ScheduleProcess) : Option (Update String FileEntry) :=
  match process.command with
  | .register name interval =>
      match findWorkflowFile process.workspace name with
      | .ok path => some (name, some ⟨name, process.workspace.resolve path, interval⟩)
      | .error _ => none
  | .list => none
  | .unregister name => some (name, none)

/-- The updates of some processes. -/
def journal (processes : List ScheduleProcess) : List (Update String FileEntry) :=
  processes.filterMap update?

/-- What is left of some entries after some processes. -/
def scheduled (entries : List PyJson) (processes : List ScheduleProcess) : List PyJson :=
  entries.filter (fun entry =>
    ∀ name ∈ (journal processes).map Prod.fst, entry.entryName ≠ some name) ++
      (lasting (journal processes)).map FileEntry.toJson

/-- An update of the entries of a file. -/
def jsonUpdate (update : Update String FileEntry) : Update (Option String) PyJson :=
  (some update.1, update.2.map FileEntry.toJson)

theorem keyed_journal (processes : List ScheduleProcess) :
    Keyed FileEntry.name (journal processes) := by
  intro update member entry put
  obtain ⟨process, _, updates⟩ := List.mem_filterMap.mp member
  rw [update?] at updates
  split at updates
  · split at updates
    · cases updates
      cases put
      rfl
    · cases updates
  · cases updates
  · cases updates
    cases put

theorem keyed_jsonUpdate {updates : List (Update String FileEntry)}
    (keyed : Keyed FileEntry.name updates) :
    Keyed PyJson.entryName (updates.map jsonUpdate) := by
  intro update member row put
  obtain ⟨original, inUpdates, rfl⟩ := List.mem_map.mp member
  obtain ⟨entry, stored, rfl⟩ := Option.map_eq_some_iff.mp put
  rw [FileEntry.entryName_toJson, keyed original inUpdates entry stored]
  rfl

/-- What is left is what the updates leave. -/
theorem scheduled_eq_leftOf (entries : List PyJson) (processes : List ScheduleProcess) :
    scheduled entries processes =
      leftOf PyJson.entryName entries ((journal processes).map jsonUpdate) := by
  rw [scheduled, leftOf]
  refine congrArg₂ (· ++ ·) (List.filter_congr fun entry _ => ?_) ?_
  · rw [decide_eq_decide, List.map_map]
    simp only [List.mem_map, jsonUpdate, Function.comp_apply]
    constructor
    · rintro apart ⟨update, member, same⟩
      exact apart update.1 ⟨update, member, rfl⟩ same.symm
    · rintro apart name ⟨update, member, rfl⟩ same
      exact apart ⟨update, member, same.symm⟩
  · exact (lasting_map (Option.some_injective String) FileEntry.toJson (journal processes)).symm

variable (conversions)

/-- **After a process the file shows what its update leaves, and if the process fails, the file is
the same.** -/
theorem shows_fileAfter (process : ScheduleProcess) (shown : Shows floats file entries) :
    Shows floats (process.fileAfter floats conversions file) (match process.update? with
      | none => entries
      | some update => applyUpdate PyJson.entryName entries (jsonUpdate update)) ∧
    (process.error? floats conversions file ≠ none →
      process.fileAfter floats conversions file = file) := by
  have kept : ∀ condition : PyJson → Bool, ∀ entry ∈ entries.filter condition,
      entry.WellFormed ∧ entry.IsEntry := fun condition entry member =>
    ⟨shown.wellFormed entry (List.mem_of_mem_filter member),
      shown.areEntries entry (List.mem_of_mem_filter member)⟩
  obtain ⟨workspace, command⟩ := process
  rw [fileAfter, error?, update?]
  cases command with
  | register name interval =>
      dsimp only
      cases found : findWorkflowFile workspace name with
      | error error =>
          rw [run_register_missing found]
          exact ⟨shown, fun _ => rfl⟩
      | ok path =>
          rw [run_register shown found]
          refine ⟨shows_saved ?_ ?_, fun failed => absurd rfl failed⟩
          all_goals
            intro entry member
            rcases List.mem_append.mp member with old | new
          · exact (kept _ entry old).1
          · rw [List.mem_singleton.mp new]
            exact FileEntry.wellFormed_toJson _
          · exact (kept _ entry old).2
          · rw [List.mem_singleton.mp new]
            exact FileEntry.isEntry_toJson _
  | list =>
      rw [run_list shown]
      exact ⟨shown, fun _ => rfl⟩
  | unregister name =>
      dsimp only [jsonUpdate, applyUpdate, Option.map_none, Option.toList_none]
      rw [List.append_nil]
      by_cases present : ∃ entry ∈ entries, entry.entryName = some name
      · obtain ⟨registered, member, named⟩ := present
        rw [run_unregister shown member named]
        exact ⟨shows_saved (fun entry member => (kept _ entry member).1)
          fun entry member => (kept _ entry member).2, fun failed => absurd rfl failed⟩
      · have missing : ∀ entry ∈ entries, entry.entryName ≠ some name :=
          fun entry member named => present ⟨entry, member, named⟩
        have same : entries.filter (·.entryName ≠ some name) = entries :=
          List.filter_eq_self.mpr fun entry member => decide_eq_true (missing entry member)
        rw [run_unregister_missing shown missing, same]
        exact ⟨shown, fun _ => rfl⟩

/-- The updates of a session are applied one after the other. -/
theorem shows_updates (processes : List ScheduleProcess) : ∀ {file entries},
    Shows floats file entries → Shows floats (fileAfterAll floats conversions file processes)
      (((journal processes).map jsonUpdate).foldl (applyUpdate PyJson.entryName) entries) := by
  induction processes with
  | nil => exact id
  | cons process rest ih =>
      intro file entries shown
      have later := ih (shows_fileAfter conversions process shown).1
      rw [journal, List.filterMap_cons]
      cases updates : process.update? with
      | none =>
          rw [updates] at later
          exact later
      | some update =>
          rw [updates] at later
          exact later

/-- **After a session the file shows what the processes leave.** -/
theorem shows_fileAfterAll (shown : Shows floats file entries) (processes : List ScheduleProcess) :
    Shows floats (fileAfterAll floats conversions file processes)
      (scheduled entries processes) := by
  rw [scheduled_eq_leftOf, ← foldl_applyUpdate entries (keyed_jsonUpdate (keyed_journal processes))]
  exact shows_updates conversions processes shown

end ScheduleProcess

open Planning ScheduleProcess

/-- **After any session the schedules file shows the old entries that the session has not named, and
behind them the last registrations of the others. `scheduler list` prints them, `scheduler
unregister` succeeds if and only if one of them has the name, and a process that fails leaves the
file as it is.** -/
theorem schedules_of_session (floats : FloatReprs) (conversions : Conversions)
    {start : Option String} {entries : List PyJson} (shown : Shows floats start entries)
    (earlier : List ScheduleProcess) (workspace : Workspace) :
    let file := fileAfterAll floats conversions start earlier
    let left := scheduled entries earlier
    loadFile floats file = .ok (.array left) ∧
    (∀ process : ScheduleProcess, process.error? floats conversions file ≠ none →
      process.fileAfter floats conversions file = file) ∧
    (error? floats conversions ⟨workspace, .list⟩ file = none ∧
      output floats conversions ⟨workspace, .list⟩ file =
        if left = [] then ["no schedules registered"]
        else left.map (·.entryText floats conversions)) ∧
    (∀ name interval, error? floats conversions ⟨workspace, .register name interval⟩ file = none ↔
      ∃ path, findWorkflowFile workspace name = .ok path) ∧
    ∀ name, error? floats conversions ⟨workspace, .unregister name⟩ file = none ↔
      ∃ entry ∈ left, entry.entryName = some name := by
  intro file left
  have now : Shows floats file left := shows_fileAfterAll conversions shown earlier
  refine ⟨now.loaded, fun process => (shows_fileAfter conversions process now).2, ?_,
    fun name interval => ?_, fun name => ?_⟩
  · rw [error?, output, run_list now]
    exact ⟨rfl, rfl⟩
  · rw [error?]
    cases found : findWorkflowFile workspace name with
    | error error => simp [run_register_missing found]
    | ok path => simp [run_register now found]
  · rw [error?]
    by_cases present : ∃ entry ∈ left, entry.entryName = some name
    · obtain ⟨registered, member, named⟩ := present
      rw [run_unregister now member named]
      exact iff_of_true rfl ⟨registered, member, named⟩
    · have missing : ∀ entry ∈ left, entry.entryName ≠ some name :=
        fun entry member named => present ⟨entry, member, named⟩
      rw [run_unregister_missing now missing]
      exact iff_of_false nofun present

/-- Texts of floats that are none of the constants. -/
def sampleReprs : FloatReprs where
  toFloatTexts := sampleFloats
  notConstant value constant := by
    have unreadable : ∀ text ∈ PyFloat.constants, (ofSampleRepr text).isNone = true := by decide
    have none := unreadable _ constant
    rw [show sampleFloats.repr value = sampleRepr value from rfl, ofSampleRepr_sampleRepr] at none
    cases none

/-- `str` and `float` on integers. -/
def sampleConversions : Conversions where
  str
    | .number (.int value) => toString value
    | _ => "None"
  float
    | .number (.int value) => .ok (.finite value)
    | _ => .error (.other "TypeError" "float() argument must be a string or a real number")

/-- An entry that was written by hand. -/
def handWritten : PyJson :=
  .object [("path", .string "/srv/nightly.yaml"), ("name", .string "nightly"),
    ("interval_seconds", .number (.int 60)), ("note", .string "kept")]

/-- Processes of which the last one fails. -/
def sampleProcesses : List ScheduleProcess :=
  [⟨exampleWorkspace, .register "daily" (.finite 86400)⟩,
    ⟨exampleWorkspace, .register "never" .nan⟩,
    ⟨exampleWorkspace, .register "daily" (.infinite false)⟩,
    ⟨exampleWorkspace, .unregister "never"⟩, ⟨exampleWorkspace, .unregister "never"⟩]

theorem schedules_of_session_sample :
    output sampleReprs sampleConversions ⟨exampleWorkspace, .list⟩
      (fileAfterAll sampleReprs sampleConversions (some (dumpEntries sampleReprs [handWritten]))
        sampleProcesses) =
      ["nightly: every 60s (/srv/nightly.yaml)", "daily: every infs (/workflows/daily.yaml)"] := by
  have distinct : ["path", "name", "interval_seconds", "note"].Nodup := by decide
  have wellFormed : handWritten.WellFormed :=
    ⟨distinct, trivial, trivial, trivial, trivial, trivial⟩
  have isEntry : handWritten.IsEntry := ⟨_, rfl, by
    intro key member
    simp only [List.mem_cons, List.not_mem_nil, or_false] at member
    rcases member with rfl | rfl | rfl <;> exact ⟨_, rfl⟩⟩
  have shown : Shows sampleReprs (some (dumpEntries sampleReprs [handWritten])) [handWritten] :=
    shows_saved (List.forall_mem_singleton.mpr wellFormed)
      (List.forall_mem_singleton.mpr isEntry)
  obtain ⟨_, _, lists, _⟩ := schedules_of_session sampleReprs sampleConversions shown
    sampleProcesses exampleWorkspace
  have left : scheduled [handWritten] sampleProcesses =
      [handWritten, FileEntry.toJson ⟨"daily", "/workflows/daily.yaml", .infinite false⟩] := rfl
  rw [left] at lists
  exact lists.2

/-! ## What `scheduler run-once` registers -/

namespace FileEntry

theorem toJson_injective : Function.Injective toJson := by
  rintro ⟨name, path, interval⟩ ⟨other, otherPath, otherInterval⟩ same
  simp only [toJson, Value.object.injEq, List.cons.injEq, Prod.mk.injEq, Value.string.injEq,
    Value.number.injEq, Number.float.injEq, true_and, and_true] at same
  obtain ⟨rfl, rfl, rfl⟩ := same
  rfl

/-- Taking entries out of a file. -/
theorem filter_toJson (entries : List FileEntry) (name : String) :
    (entries.map toJson).filter (·.entryName ≠ some name) =
      (entries.filter (·.name ≠ name)).map toJson := by
  rw [List.filter_map]
  refine congrArg (List.map toJson) (List.filter_congr fun entry _ => ?_)
  rw [Function.comp_apply, entryName_toJson, decide_eq_decide, Ne, Option.some.injEq]

end FileEntry

/-- Entries that the commands have written are read as they are. -/
theorem registerLoaded_toJson (conversions : Conversions) {floats : FloatReprs}
    (entries : List FileEntry) : ∀ schedules,
      registerLoaded floats conversions schedules (entries.map FileEntry.toJson) =
        registerFile schedules entries := by
  induction entries with
  | nil => exact fun _ => rfl
  | cons entry rest ih =>
      intro schedules
      have read := entry.isEntry_toJson
      rw [List.map_cons, registerLoaded, read.subscript (by decide), Except.ok_bind,
        read.subscript (by decide), Except.ok_bind, read.subscript (by decide), Except.ok_bind]
      exact congrArg (registerEntry schedules entry >>= ·) (funext ih)

/-- Accepted entries are registered under their names. -/
theorem registerFile_eq_update (entries : List FileEntry)
    (positive : ∀ entry ∈ entries, entry.intervalSeconds.isNonpositive = false) : ∀ schedules,
      registerFile schedules entries =
        .ok (schedules.update (entries.map fun entry => (entry.name, entry))) := by
  induction entries with
  | nil => exact fun _ => rfl
  | cons entry rest ih =>
      intro schedules
      obtain ⟨first, later⟩ := List.forall_mem_cons.mp positive
      rw [registerFile, registerEntry, first, if_neg Bool.false_ne_true, Except.ok_bind, ih later]
      rfl

/-- All that the loop raises is that an interval is not positive. -/
theorem registerFile_eq_error {entries : List FileEntry}
    (nonpositive : ∃ entry ∈ entries, entry.intervalSeconds.isNonpositive = true) : ∀ schedules,
      registerFile schedules entries =
        .error (.valueError "interval_seconds must be positive") := by
  induction entries with
  | nil =>
      obtain ⟨_, member, _⟩ := nonpositive
      cases member
  | cons entry rest ih =>
      intro schedules
      rw [registerFile, registerEntry]
      by_cases first : entry.intervalSeconds.isNonpositive = true
      · rw [if_pos first, Except.error_bind]
      · rw [if_neg first, Except.ok_bind]
        refine ih ?_ _
        obtain ⟨other, member, isNonpositive⟩ := nonpositive
        rcases List.mem_cons.mp member with rfl | later
        · exact absurd isNonpositive first
        · exact ⟨other, later, isNonpositive⟩

namespace ScheduleProcess

variable {floats : FloatReprs} (conversions : Conversions)

/-- The command of a process that rewrites the file. -/
def fileCommand? (process : ScheduleProcess) : Option FileCommand :=
  match process.command with
  | .register name interval => some (.register process.workspace name interval)
  | .list => none
  | .unregister name => some (.unregister name)

/-- The commands of a session that succeed and rewrite the file. -/
def succeeding (floats : FloatReprs) (conversions : Conversions) (file : Option String) :
    List ScheduleProcess → List FileCommand
  | [] => []
  | process :: rest =>
      let later := succeeding floats conversions (process.fileAfter floats conversions file) rest
      match process.error? floats conversions file with
      | none => process.fileCommand?.toList ++ later
      | some _ => later

/-- A process does to the text what its command does to the entries, with the same exceptions. -/
theorem run_fileCommand {process : ScheduleProcess} {command : FileCommand} {file : Option String}
    {stored : Option (List FileEntry)}
    (shown : Shows floats file ((loadSchedules stored).map FileEntry.toJson))
    (rewrites : process.fileCommand? = some command) :
    (∃ error, command.run stored = .error error ∧
      process.error? floats conversions file = some error) ∨
    ∃ after, command.run stored = .ok after ∧ process.error? floats conversions file = none ∧
      Shows floats (process.fileAfter floats conversions file)
        ((loadSchedules after).map FileEntry.toJson) := by
  have left := (shows_fileAfter conversions process shown).1
  obtain ⟨workspace, kind⟩ := process
  cases kind with
  | register name interval =>
      cases rewrites
      rw [FileCommand.run, schedulerRegister, error?]
      cases found : findWorkflowFile workspace name with
      | error error =>
          rw [run_register_missing found]
          exact .inl ⟨error, rfl, rfl⟩
      | ok path =>
          rw [update?] at left
          dsimp only at left
          rw [found] at left
          rw [run_register shown found]
          refine .inr ⟨_, rfl, rfl, ?_⟩
          rw [loadSchedules, Option.getD_some, List.map_append, ← FileEntry.filter_toJson]
          exact left
  | list => cases rewrites
  | unregister name =>
      cases rewrites
      rw [FileCommand.run, schedulerUnregister, error?]
      by_cases present : ∃ entry ∈ loadSchedules stored, entry.name = name
      · obtain ⟨entry, member, rfl⟩ := present
        have shorter : ((loadSchedules stored).filter (·.name ≠ entry.name)).length ≠
            (loadSchedules stored).length := by
          rw [Ne, List.length_filter_eq_length_iff]
          exact fun others => of_decide_eq_true (others entry member) rfl
        rw [run_unregister shown (List.mem_map_of_mem member) entry.entryName_toJson]
        refine .inr ⟨_, if_neg shorter, rfl, ?_⟩
        rw [loadSchedules, Option.getD_some, ← FileEntry.filter_toJson]
        rw [← List.append_nil (List.filter _ _)]
        exact left
      · have missing : ∀ other ∈ loadSchedules stored, other.name ≠ name :=
          fun other member named => present ⟨other, member, named⟩
        have same : (loadSchedules stored).filter (·.name ≠ name) = loadSchedules stored :=
          List.filter_eq_self.mpr fun other member => decide_eq_true (missing other member)
        rw [run_unregister_missing shown fun entry member named => ?_]
        · exact .inl ⟨_, if_pos (congrArg List.length same), rfl⟩
        · obtain ⟨other, inFile, rfl⟩ := List.mem_map.mp member
          exact missing other inFile (Option.some.inj named)

/-- The commands that succeed lead to the file of the session. -/
theorem runAll_succeeding (processes : List ScheduleProcess) : ∀ {file stored},
    Shows floats file ((loadSchedules stored).map FileEntry.toJson) →
      ∃ after, FileCommand.runAll stored (succeeding floats conversions file processes) =
          .ok after ∧
        Shows floats (fileAfterAll floats conversions file processes)
          ((loadSchedules after).map FileEntry.toJson) := by
  induction processes with
  | nil => exact fun {_ stored} shown => ⟨stored, rfl, shown⟩
  | cons process rest ih =>
      intro file stored shown
      obtain ⟨first, unchanged⟩ := shows_fileAfter conversions process shown
      rw [succeeding]
      cases rewrites : process.fileCommand? with
      | none =>
          have same : process.fileAfter floats conversions file = file := by
            obtain ⟨workspace, command⟩ := process
            cases command with
            | register name interval => cases rewrites
            | list => rw [fileAfter, run_list shown]
            | unregister name => cases rewrites
          obtain ⟨after, ran, later⟩ := ih (same ▸ shown)
          refine ⟨after, ?_, later⟩
          split <;> exact ran
      | some command =>
          rcases run_fileCommand conversions shown rewrites with
            ⟨error, _, raised⟩ | ⟨next, ran, returned, showsNext⟩
          · have same := unchanged (by simp [raised])
            obtain ⟨after, ran, later⟩ := ih (same ▸ shown)
            refine ⟨after, ?_, later⟩
            rw [raised]
            exact ran
          · obtain ⟨after, ranLater, later⟩ := ih showsNext
            refine ⟨after, ?_, later⟩
            rw [returned]
            exact Except.bind_eq_ok_iff.mpr ⟨next, ran, ranLater⟩

end ScheduleProcess

/-- **From no schedules file, any session leads to the file of its commands that succeed, with the
last registrations of the names that are still registered, in their order. `scheduler run-once`
registers exactly these, unless the interval of one is not positive.** -/
theorem registered_of_session (floats : FloatReprs) (conversions : Conversions)
    (processes : List ScheduleProcess) :
    let entries := lasting (journal processes)
    (∃ after, FileCommand.runAll none (succeeding floats conversions none processes) = .ok after ∧
      loadSchedules after = entries) ∧
    loadFile floats (fileAfterAll floats conversions none processes) =
      .ok (.array (entries.map FileEntry.toJson)) ∧
    entries.Sublist ((journal processes).filterMap Prod.snd) ∧
    ((∃ entry ∈ entries, entry.intervalSeconds.isNonpositive = true) →
      registerLoaded floats conversions ∅ (entries.map FileEntry.toJson) =
        .error (.valueError "interval_seconds must be positive")) ∧
    ((∀ entry ∈ entries, entry.intervalSeconds.isNonpositive = false) →
      ∃ registered, registerLoaded floats conversions ∅ (entries.map FileEntry.toJson) =
        .ok registered ∧ registered.entries = entries.map fun entry => (entry.name, entry)) := by
  intro entries
  have shown : Shows floats (fileAfterAll floats conversions none processes)
      (entries.map FileEntry.toJson) := shows_fileAfterAll conversions shows_none processes
  have noFile : Shows floats none ((loadSchedules none).map FileEntry.toJson) := shows_none
  obtain ⟨after, ran, showsAfter⟩ := runAll_succeeding conversions processes noFile
  have same := showsAfter.loaded.symm.trans shown.loaded
  simp only [Except.ok.injEq, Value.array.injEq] at same
  refine ⟨⟨after, ran, FileEntry.toJson_injective.list_map same⟩, shown.loaded,
    lasting_sublist _, fun nonpositive => ?_, fun positive =>
      ⟨.update ∅ (entries.map fun entry => (entry.name, entry)), ?_, ?_⟩⟩
  · rw [registerLoaded_toJson]
    exact registerFile_eq_error nonpositive ∅
  · rw [registerLoaded_toJson]
    exact registerFile_eq_update entries positive ∅
  · have names : (entries.map fun entry => (entry.name, entry)).map Prod.fst =
        entries.map FileEntry.name := by
      rw [List.map_map]
      rfl
    rw [OrderedDict.entries_update _ _ (names ▸ nodup_lasting (keyed_journal processes))
      fun key _ => OrderedDict.not_mem_empty key]
    rfl

end EtlOrchestrator
