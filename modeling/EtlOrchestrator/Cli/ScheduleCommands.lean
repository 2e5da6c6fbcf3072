import EtlOrchestrator.Cli.SchedulesFile
import EtlOrchestrator.Foundations.JsonNumbers
import EtlOrchestrator.Foundations.JsonObjects

/-!
# The scheduler commands over the text of the schedules file

`scheduler register`, `scheduler list` and `scheduler unregister` load the schedules file with
`json.loads`, and write it with `json.dumps`. The file may have been written by hand: what the
commands do with any JSON value is modelled here, with the exceptions of Python for values that are
no list of dictionaries.
-/

set_option autoImplicit false

namespace EtlOrchestrator

open Json

/-! ## Floats in JSON -/

/-- `NaN` -/
def PyFloat.nanText : List Char := ['N', 'a', 'N']

/-- `Infinity` and `-Infinity` -/
def PyFloat.infinityText (negative : Bool) : List Char :=
  (if negative then ['-'] else []) ++ ['I', 'n', 'f', 'i', 'n', 'i', 't', 'y']

/-- What `json` writes for the floats that are no finite numbers. -/
def PyFloat.constants : List (List Char) := [nanText, infinityText false, infinityText true]

/-- `float.__repr__` on finite numbers, none of which reads as a constant. -/
structure FloatReprs extends FloatTexts ℚ where
  notConstant : ∀ value, repr value ∉ PyFloat.constants

namespace FloatReprs

variable (floats : FloatReprs)

/-- `str(value)` -/
def shown : PyFloat → String
  | .finite value => String.ofList (floats.repr value)
  | .infinite false => "inf"
  | .infinite true => "-inf"
  | .nan => "nan"

/-- The text of a float in JSON. -/
def jsonText : PyFloat → List Char
  | .finite value => floats.repr value
  | .infinite negative => PyFloat.infinityText negative
  | .nan => PyFloat.nanText

/-- The float of a text in JSON. -/
def ofJsonText (text : List Char) : Option PyFloat :=
  if text = PyFloat.nanText then some .nan
  else if text = PyFloat.infinityText false then some (.infinite false)
  else if text = PyFloat.infinityText true then some (.infinite true)
  else (floats.ofRepr text).map .finite

theorem ofJsonText_jsonText (value : PyFloat) :
    floats.ofJsonText (floats.jsonText value) = some value := by
  cases value with
  | finite value =>
      have apart := floats.notConstant value
      simp only [PyFloat.constants, List.mem_cons, List.not_mem_nil, or_false, not_or] at apart
      rw [jsonText, ofJsonText, if_neg apart.1, if_neg apart.2.1, if_neg apart.2.2,
        floats.ofRepr_repr]
      rfl
  | infinite negative =>
      cases negative with
      | false => rw [jsonText, ofJsonText, if_neg (by decide), if_pos rfl]
      | true => rw [jsonText, ofJsonText, if_neg (by decide), if_neg (by decide), if_pos rfl]
  | nan => rw [jsonText, ofJsonText, if_pos rfl]

/-- Only finite numbers have texts of their own. -/
theorem jsonText_cases (value : PyFloat) :
    (∃ number, value = .finite number) ∨ floats.jsonText value ∈ PyFloat.constants := by
  cases value with
  | finite number => exact .inl ⟨number, rfl⟩
  | infinite negative => cases negative <;> exact .inr (by simp [jsonText, PyFloat.constants])
  | nan => exact .inr (by simp [jsonText, PyFloat.constants])

/-- The texts of floats in JSON. -/
def json : FloatTexts PyFloat where
  repr := floats.jsonText
  ofRepr := floats.ofJsonText
  ofRepr_repr := floats.ofJsonText_jsonText
  plain value := by
    rcases floats.jsonText_cases value with ⟨number, rfl⟩ | constant
    · exact floats.plain number
    · have plain : ∀ text ∈ PyFloat.constants, text.all isPlain = true := by decide
      exact List.all_eq_true.mp (plain _ constant)
  notInt value := by
    rcases floats.jsonText_cases value with ⟨number, rfl⟩ | constant
    · exact floats.notInt number
    · have letter : ∀ text ∈ PyFloat.constants, text.any (!isIntChar ·) = true := by decide
      obtain ⟨char, member, notInt⟩ := List.any_eq_true.mp (letter _ constant)
      exact ⟨char, member, by simpa using notInt⟩
  notLiteral value := by
    rcases floats.jsonText_cases value with ⟨number, rfl⟩ | constant
    · exact floats.notLiteral number
    · have apart : ∀ text ∈ PyFloat.constants,
          text ∉ ["null".toList, "true".toList, "false".toList] := by decide
      exact apart _ constant

end FloatReprs

/-! ## JSON values in Python -/

/-- A value that `json.loads` returns. -/
abbrev PyJson := Value (Number PyFloat)

namespace PyJson

/-- `type(value).__name__` -/
def typeName : PyJson → String
  | .null => "NoneType"
  | .bool _ => "bool"
  | .number (.int _) => "int"
  | .number (.float _) => "float"
  | .string _ => "str"
  | .array _ => "list"
  | .object _ => "dict"

/-- `bool(value)` -/
def truthy : PyJson → Bool
  | .null => false
  | .bool value => value
  | .number (.int value) => value ≠ 0
  | .number (.float value) => value ≠ .finite 0
  | .string text => text ≠ ""
  | .array items => !items.isEmpty
  | .object members => !members.isEmpty

/-- What a loop over a value goes through. -/
def iterate : PyJson → Except PyError (List PyJson)
  | .array items => .ok items
  | .object members => .ok (members.map fun entry => .string entry.1)
  | .string text => .ok (text.toList.map fun char => .string (String.singleton char))
  | value => .error (.other "TypeError" s!"'{typeName value}' object is not iterable")

/-- `value.get(key)` -/
def get (key : String) : PyJson → Except PyError PyJson
  | .object members => .ok ((members.lookup key).getD .null)
  | value => .error (.other "AttributeError" s!"'{typeName value}' object has no attribute 'get'")

/-- `value[key]` for a text `key` -/
def subscript (key : String) : PyJson → Except PyError PyJson
  | .object members => (members.lookup key).elim (.error (.keyError key)) .ok
  | .array _ => .error (.other "TypeError" "list indices must be integers or slices, not str")
  | .string _ => .error (.other "TypeError" "string indices must be integers, not 'str'")
  | value => .error (.other "TypeError" s!"'{typeName value}' object is not subscriptable")

/-- `value == text` -/
def isText (text : String) : PyJson → Bool
  | .string other => other = text
  | _ => false

end PyJson

/-- `str(value)` and `float(value)` on values that are neither texts nor floats. -/
structure Conversions where
  str : PyJson → String
  float : PyJson → Except PyError PyFloat

section

variable (floats : FloatReprs) (conversions : Conversions)

/-- `str(value)` -/
def PyJson.format : PyJson → String
  | .string text => text
  | .number (.float value) => floats.shown value
  | value => conversions.str value

/-- `float(value)` -/
def PyJson.float : PyJson → Except PyError PyFloat
  | .number (.float value) => .ok value
  | value => conversions.float value

/-! ## Programs over the schedules file -/

/-- The text of the schedules file, and what a command has printed. -/
structure Desk where
  file : Option String
  lines : List String := []

/-- A program over the schedules file. -/
abbrev Planning (α : Type) := EStateM PyError Desk α

namespace Planning

/-- `click.echo(line)` -/
def echo (line : String) : Planning Unit :=
  modify fun desk => { desk with lines := desk.lines ++ [line] }

/-- `_load_schedules` -/
def loadFile (file : Option String) : Except PyError PyJson :=
  match file with
  | none => .ok (.array [])
  | some text =>
      match loads floats.json.numerals text with
      | some loaded => .ok loaded
      | none => .error (.other "JSONDecodeError" "Expecting value")

/-- `json.dumps(entries, indent=2)` -/
def dumpEntries (entries : List PyJson) : String :=
  write floats.json.numerals { indent := some 2 } (.array entries)

/-- `_save_schedules` -/
def saveSchedules (entries : List PyJson) : Planning Unit :=
  modify fun desk => { desk with file := some (dumpEntries floats entries) }

/-- `[e for e in entries if e.get("name") != name]` -/
def others (name : String) : List PyJson → Except PyError (List PyJson)
  | [] => .ok []
  | entry :: rest => do
      let stored ← entry.get "name"
      let kept ← others name rest
      return if stored.isText name then kept else entry :: kept

end Planning

/-- The dictionary that `scheduler_register` appends. -/
def FileEntry.toJson (entry : FileEntry) : PyJson :=
  .object [("name", .string entry.name), ("path", .string entry.path),
    ("interval_seconds", .number (.float entry.intervalSeconds))]

namespace Planning

/-- Register a workflow file for interval-based execution. -/
def schedulerRegister (workspace : Workspace) (name : String) (interval : PyFloat) :
    Planning Unit := do
  let path ← ofExcept (findWorkflowFile workspace name)
  let loaded ← ofExcept (loadFile floats (← get).file)
  let entries ← ofExcept (loaded.iterate >>= others name)
  let entry : FileEntry := { name, path := workspace.resolve path, intervalSeconds := interval }
  saveSchedules floats (entries ++ [entry.toJson])
  echo s!"scheduled '{name}' every {floats.shown interval}s ({path})"

/-- The line that `scheduler_list` prints for an entry. -/
def entryLine (entry : PyJson) : Except PyError String := do
  let name ← entry.subscript "name"
  let interval ← entry.subscript "interval_seconds"
  let path ← entry.subscript "path"
  let shown := PyJson.format floats conversions
  return s!"{shown name}: every {shown interval}s ({shown path})"

/-- The loop of `scheduler_list`. -/
def listEntries : List PyJson → Planning Unit
  | [] => pure ()
  | entry :: rest => do
      let line ← ofExcept (entryLine floats conversions entry)
      echo line
      listEntries rest

/-- List registered schedules. -/
def schedulerList : Planning Unit := do
  let loaded ← ofExcept (loadFile floats (← get).file)
  if loaded.truthy then
    let entries ← ofExcept loaded.iterate
    listEntries floats conversions entries
  else echo "no schedules registered"

/-- Remove a schedule registration. -/
def schedulerUnregister (name : String) : Planning Unit := do
  let loaded ← ofExcept (loadFile floats (← get).file)
  let entries ← ofExcept loaded.iterate
  let remaining ← ofExcept (others name entries)
  if remaining.length = entries.length then
    throw (clickException s!"schedule not found: {name}")
  saveSchedules floats remaining
  echo s!"unregistered '{name}'"

/-- The loop of `scheduler_run_once` over the loaded entries. -/
def registerLoaded (schedules : OrderedDict String FileEntry) :
    List PyJson → Except PyError (OrderedDict String FileEntry)
  | [] => .ok schedules
  | entry :: rest => do
      let name ← entry.subscript "name"
      let path ← entry.subscript "path"
      let interval ← entry.subscript "interval_seconds"
      let intervalSeconds ← interval.float conversions
      let shown := PyJson.format floats conversions
      let registered ← registerEntry schedules
        { name := shown name, path := shown path, intervalSeconds }
      registerLoaded registered rest

end Planning

/-! ## Processes -/

/-- A command on the schedules file. -/
inductive ScheduleCommand where
  | register (name : String) (interval : PyFloat)
  | list
  | unregister (name : String)

/-- A process of the command line, with the files that it finds. -/
structure ScheduleProcess where
  workspace : Workspace
  command : ScheduleCommand

namespace ScheduleProcess

/-- The program of a process. -/
def program (process : ScheduleProcess) : Planning Unit :=
  match process.command with
  | .register name interval => Planning.schedulerRegister floats process.workspace name interval
  | .list => Planning.schedulerList floats conversions
  | .unregister name => Planning.schedulerUnregister floats name

/-- The file that a process leaves, whether its command returns or raises. -/
def fileAfter (process : ScheduleProcess) (file : Option String) : Option String :=
  match (process.program floats conversions).run { file } with
  | .ok _ desk => desk.file
  | .error _ desk => desk.file

/-- The lines that a process prints, whether its command returns or raises. -/
def output (process : ScheduleProcess) (file : Option String) : List String :=
  match (process.program floats conversions).run { file } with
  | .ok _ desk => desk.lines
  | .error _ desk => desk.lines

/-- What a command raises: nothing when the process exits with code 0. -/
def error? (process : ScheduleProcess) (file : Option String) : Option PyError :=
  match (process.program floats conversions).run { file } with
  | .ok _ _ => none
  | .error error _ => some error

/-- The file after some processes, one after the other. -/
def fileAfterAll (file : Option String) (processes : List ScheduleProcess) : Option String :=
  processes.foldl (fun file process => process.fileAfter floats conversions file) file

end ScheduleProcess

end

end EtlOrchestrator
