import Mathlib.Data.List.DropRight
import Mathlib.Data.Nat.Digits.Defs
import EtlOrchestrator.Engine.Records

/-!
# The built-in callables

Callables that a workflow file can name without any code of its own. Each one is a program that
prints lines and may raise. How texts are read and values are shown, and what the random numbers
are, is left to the interpreter.
-/

set_option autoImplicit false

namespace EtlOrchestrator

/-! ## The interpreter -/

/-- What the built-in callables use of the interpreter that runs them. -/
structure Interpreter where
  /-- the value of a decimal digit, in any script -/
  digit? : Char → Option ℕ
  /-- `char.isspace()` -/
  isSpace : Char → Bool
  /-- `str(value)` -/
  str : PyValue → String
  /-- `repr(text)` -/
  repr : String → String
  /-- what `random.random()` returns in a call -/
  random : TaskContext → ℚ

namespace Interpreter

variable (interpreter : Interpreter)

/-- The digits of a literal, in which single underscores may stand between digits. -/
def digits : List Char → Option (List ℕ)
  | [] => none
  | [char] => (interpreter.digit? char).map fun digit => [digit]
  | char :: '_' :: rest => do
      let digit ← interpreter.digit? char
      let later ← digits rest
      return digit :: later
  | char :: rest => do
      let digit ← interpreter.digit? char
      let later ← digits rest
      return digit :: later

/-- Whether there is a minus sign, and the digits behind the sign. -/
def literal : List Char → Option (Bool × List ℕ)
  | '-' :: rest => (interpreter.digits rest).map fun digits => (true, digits)
  | '+' :: rest => (interpreter.digits rest).map fun digits => (false, digits)
  | rest => (interpreter.digits rest).map fun digits => (false, digits)

/-- `int(text)`. -/
def intOfText (text : String) : Except PyError ℤ :=
  let stripped := (text.toList.dropWhile interpreter.isSpace).rdropWhile interpreter.isSpace
  match interpreter.literal stripped with
  | none =>
      let shown := String.ofList ((interpreter.repr text).toList.take 200)
      .error (.valueError s!"invalid literal for int() with base 10: {shown}")
  | some (negative, digits) =>
      if 4300 < digits.length then
        .error (.valueError <| "Exceeds the limit (4300 digits) for integer string conversion: " ++
          s!"value has {digits.length} digits; use sys.set_int_max_str_digits() " ++
          "to increase the limit")
      else
        let value : ℤ := Nat.ofDigits 10 digits.reverse
        .ok (if negative then -value else value)

/-- What `int` raises for a value of another type. -/
def intTypeError (typeName : String) : PyError :=
  .other "TypeError" <| "int() argument must be a string, a bytes-like object or a real number, " ++
    s!"not '{typeName}'"

/-- `int(value)`. -/
def int : PyValue → Except PyError ℤ
  | .none => .error (intTypeError "NoneType")
  | .bool value => .ok (if value then 1 else 0)
  | .int value => .ok value
  | .float value => .ok (value.num.tdiv value.den)
  | .str text => interpreter.intOfText text
  | .list _ => .error (intTypeError "list")
  | .dict _ => .error (intTypeError "dict")

end Interpreter

/-! ## The callables -/

/-- A program that prints lines and may raise. -/
abbrev Builtin := TaskContext → EStateM PyError (List String) Unit

namespace Builtins

/-- `print(line)`. -/
def print (line : String) : EStateM PyError (List String) Unit :=
  modify fun lines => lines ++ [line]

/-- A task that does nothing. -/
def noop : Builtin := fun _ => pure ()

section

variable (interpreter : Interpreter)

/-- The float `0.3`. -/
def failureRate : ℚ := 5404319552844595 / 18014398509481984

/-- A task that fails a configurable number of times, or randomly. -/
def flaky : Builtin := fun ctx =>
  match ctx.params.get? "fail_times" with
  | none | some .none => do
      if interpreter.random ctx < failureRate then
        throw (.runtimeError "flaky task failed (random)")
  | some failTimesRaw => do
      let failTimes ← ofExcept (interpreter.int failTimesRaw)
      if ctx.attempt ≤ failTimes then
        throw (.runtimeError s!"flaky task failed (attempt {ctx.attempt}/{failTimes})")

/-- `ctx.params.get("message", default)`, as `f"{message}"` and `str` show it. -/
def messageOf (ctx : TaskContext) (default : String) : String :=
  interpreter.str ((ctx.params.get? "message").getD (.str default))

/-- A task that prints a message to stdout. -/
def logMessage : Builtin := fun ctx =>
  let message := messageOf interpreter ctx "hello from log_message"
  print s!"[{ctx.workflowId}:{ctx.taskId}] {message}"

/-- A task that always fails. -/
def fail : Builtin := fun ctx =>
  throw (.runtimeError (messageOf interpreter ctx s!"task {ctx.taskId} failed (always_fails)"))

/-- Alias for `fail`. -/
def alwaysFails : Builtin := fail interpreter

/-- A task that prints a message from `ctx.params['message']`. -/
def echo : Builtin := fun ctx =>
  let message := messageOf interpreter ctx "hello from echo"
  print s!"[{ctx.taskId}] {message}"

/-- The callables by their names. -/
def byName : OrderedDict String Builtin :=
  ⟨[("noop", noop), ("flaky", flaky interpreter), ("log_message", logMessage interpreter),
    ("fail", fail interpreter), ("always_fails", alwaysFails interpreter),
    ("echo", echo interpreter)],
    show ["noop", "flaky", "log_message", "fail", "always_fails", "echo"].Nodup by decide⟩

end

end Builtins

open Builtins

namespace Builtin

/-- What the engine sees of a built-in callable. -/
def callable (builtin : Builtin) : TaskCallable := fun ctx =>
  match (builtin ctx).run [] with
  | .ok _ _ => .ok ()
  | .error error _ => .error error

/-- The lines that a call prints, whether it returns or raises. -/
def printed (builtin : Builtin) (ctx : TaskContext) : List String :=
  match (builtin ctx).run [] with
  | .ok _ lines => lines
  | .error _ lines => lines

end Builtin

/-- `DEFAULT_TASK_REGISTRY`. -/
def defaultTaskRegistry (interpreter : Interpreter) : OrderedDict String TaskCallable :=
  (byName interpreter).mapValues fun _ builtin => builtin.callable

/-! ## What the callables do -/

namespace Interpreter

variable (interpreter : Interpreter)

/-- What a call of a callable raises. -/
def failure? (name : String) (ctx : TaskContext) : Option PyError :=
  match (byName interpreter).get? name with
  | none => none
  | some builtin =>
      match builtin.callable ctx with
      | .ok () => none
      | .error error => some error

/-- The lines that a call of a callable prints. -/
def printed (name : String) (ctx : TaskContext) : List String :=
  ((byName interpreter).get? name).elim [] fun builtin => builtin.printed ctx

/-- Whether the number of failures of `flaky` is left to chance. -/
def IsRandom (params : Params) : Prop :=
  params.get? "fail_times" = none ∨ params.get? "fail_times" = some .none

instance (params : Params) : Decidable (IsRandom params) :=
  decidable_of_iff ((params.get? "fail_times").all (fun raw => raw matches .none) = true) <| by
    rw [IsRandom]
    cases params.get? "fail_times" with
    | none => simp
    | some raw => cases raw <;> simp

/-- `int(fail_times_raw)`. -/
def failTimes (params : Params) : Except PyError ℤ :=
  interpreter.int ((params.get? "fail_times").getD .none)

/-- The lines of a call that returns. -/
def greeting (name : String) (ctx : TaskContext) : List String :=
  if name = "log_message" then
    let message := messageOf interpreter ctx "hello from log_message"
    [s!"[{ctx.workflowId}:{ctx.taskId}] {message}"]
  else if name = "echo" then
    let message := messageOf interpreter ctx "hello from echo"
    [s!"[{ctx.taskId}] {message}"]
  else []

variable {interpreter} {name : String} {ctx : TaskContext}

theorem mem_byName : name ∈ byName interpreter ↔
    name ∈ ["noop", "log_message", "echo"] ∨ name ∈ ["fail", "always_fails"] ∨ name = "flaky" := by
  simp only [OrderedDict.mem_def, OrderedDict.keys, byName, List.map_cons, List.map_nil,
    List.mem_cons, List.not_mem_nil, or_false]
  tauto

/-- Some callables always return. -/
theorem failure?_of_returns (returns : name ∈ ["noop", "log_message", "echo"]) :
    interpreter.failure? name ctx = none ∧
      interpreter.printed name ctx = interpreter.greeting name ctx := by
  simp only [List.mem_cons, List.not_mem_nil, or_false] at returns
  rcases returns with rfl | rfl | rfl <;> exact ⟨rfl, rfl⟩

/-- Some callables always raise. -/
theorem failure?_of_raises (raises : name ∈ ["fail", "always_fails"]) :
    interpreter.failure? name ctx = some (.runtimeError
        (messageOf interpreter ctx s!"task {ctx.taskId} failed (always_fails)")) ∧
      interpreter.printed name ctx = [] := by
  simp only [List.mem_cons, List.not_mem_nil, or_false] at raises
  rcases raises with rfl | rfl <;> exact ⟨rfl, rfl⟩

/-- What a call of `flaky` raises. -/
def flakyFailure? (interpreter : Interpreter) (ctx : TaskContext) : Option PyError :=
  if IsRandom ctx.params then
    if interpreter.random ctx < failureRate then
      some (.runtimeError "flaky task failed (random)")
    else none
  else
    match interpreter.failTimes ctx.params with
    | .error error => some error
    | .ok failTimes =>
        if ctx.attempt ≤ failTimes then
          some (.runtimeError s!"flaky task failed (attempt {ctx.attempt}/{failTimes})")
        else none

theorem run_flaky (lines : List String) : (flaky interpreter ctx).run lines =
    match interpreter.flakyFailure? ctx with
    | none => .ok () lines
    | some error => .error error lines := by
  by_cases random : IsRandom ctx.params
  · rw [flakyFailure?, if_pos random]
    rcases random with missing | isNone
    · simp only [flaky, missing]
      split_ifs <;> rfl
    · simp only [flaky, isNone]
      split_ifs <;> rfl
  · rw [flakyFailure?, if_neg random, failTimes]
    rw [IsRandom, not_or] at random
    cases stored : ctx.params.get? "fail_times" with
    | none => exact absurd stored random.1
    | some raw =>
        have program : flaky interpreter ctx = (do
            let failTimes ← ofExcept (interpreter.int raw)
            if ctx.attempt ≤ failTimes then
              throw (.runtimeError s!"flaky task failed (attempt {ctx.attempt}/{failTimes})")) := by
          rw [flaky, stored]
          cases raw with
          | none => exact absurd stored random.2
          | _ => rfl
        rw [program, Option.getD_some]
        cases interpreter.int raw with
        | error error => rfl
        | ok failTimes =>
            simp only [ofExcept, pure_bind]
            split_ifs <;> rfl

theorem failure?_flaky : interpreter.failure? "flaky" ctx = interpreter.flakyFailure? ctx ∧
    interpreter.printed "flaky" ctx = [] := by
  have found : (byName interpreter).get? "flaky" = some (flaky interpreter) := rfl
  rw [failure?, printed, found, Option.elim_some]
  dsimp only [Builtin.callable, Builtin.printed]
  rw [run_flaky]
  cases interpreter.flakyFailure? ctx with
  | none => exact ⟨rfl, rfl⟩
  | some error => exact ⟨rfl, rfl⟩

/-! ## First returns -/

/-- Whether a call returns. -/
abbrev Returns (interpreter : Interpreter) (name : String) (ctx : TaskContext) : Prop :=
  interpreter.failure? name ctx = none

/-- The attempt at which a callable first returns, if one of the allowed attempts does. -/
def firstReturn (interpreter : Interpreter) (name : String) (contextAt : ℕ → TaskContext)
    (allowed : ℕ) : Option ℕ :=
  if name ∈ ["fail", "always_fails"] then none
  else if name ≠ "flaky" then some 1
  else if IsRandom (contextAt 1).params then
    (List.range' 1 allowed).find? fun attempt =>
      failureRate ≤ interpreter.random (contextAt attempt)
  else
    match interpreter.failTimes (contextAt 1).params with
    | .error _ => none
    | .ok failTimes => if failTimes < allowed then some (failTimes.toNat + 1) else none

/-- It is the least allowed attempt that returns. -/
theorem firstReturn_eq_find? (known : name ∈ byName interpreter) {contextAt : ℕ → TaskContext}
    (numbered : ∀ attempt, (contextAt attempt).attempt = attempt)
    (sameParams : ∀ attempt, (contextAt attempt).params = (contextAt 1).params) {allowed : ℕ}
    (positive : 1 ≤ allowed) : interpreter.firstReturn name contextAt allowed =
      (List.range' 1 allowed).find? fun attempt =>
        interpreter.Returns name (contextAt attempt) := by
  rcases mem_byName.mp known with returns | raises | rfl
  · have other : name ∉ ["fail", "always_fails"] ∧ name ≠ "flaky" := by
      simp only [List.mem_cons, List.not_mem_nil, or_false] at returns
      rcases returns with rfl | rfl | rfl <;> decide
    rw [firstReturn, if_neg other.1, if_pos other.2]
    symm
    rw [List.find?_range'_eq_some]
    refine ⟨decide_eq_true (failure?_of_returns returns).1, ?_, fun earlier first last => by omega⟩
    rw [List.mem_range'_1]
    omega
  · rw [firstReturn, if_pos raises]
    symm
    rw [List.find?_range'_eq_none]
    intro attempt _ _
    simp [Returns, (failure?_of_raises raises).1]
  · have returns : ∀ attempt, interpreter.Returns "flaky" (contextAt attempt) ↔
        interpreter.flakyFailure? (contextAt attempt) = none := fun attempt => by
      rw [Returns, failure?_flaky.1]
    simp only [returns]
    rw [firstReturn, if_neg (by decide), if_neg (by decide)]
    by_cases random : IsRandom (contextAt 1).params
    · rw [if_pos random]
      congr 1
      funext attempt
      rw [flakyFailure?, sameParams, if_pos random]
      simp
    · rw [if_neg random]
      have failure : ∀ attempt, interpreter.flakyFailure? (contextAt attempt) =
          match interpreter.failTimes (contextAt 1).params with
          | .error error => some error
          | .ok failTimes =>
              if attempt ≤ failTimes then
                some (.runtimeError s!"flaky task failed (attempt {attempt}/{failTimes})")
              else none := fun attempt => by
        rw [flakyFailure?, sameParams, if_neg random, numbered]
      simp only [failure]
      cases interpreter.failTimes (contextAt 1).params with
      | error error =>
          symm
          rw [List.find?_range'_eq_none]
          intro _ _ _
          simp
      | ok failTimes =>
          have returns : ∀ attempt : ℕ, (if (attempt : ℤ) ≤ failTimes then
              some (PyError.runtimeError s!"flaky task failed (attempt {attempt}/{failTimes})")
            else none) = none ↔ failTimes < attempt := fun attempt => by
            rw [ite_eq_right_iff]
            simp only [reduceCtorEq, imp_false, not_le]
          simp only [returns]
          symm
          split_ifs with enough
          · rw [List.find?_range'_eq_some, List.mem_range'_1]
            simp only [decide_eq_true_eq, Bool.not_eq_true', decide_eq_false_iff_not]
            refine ⟨by omega, by omega, fun earlier _ _ => by omega⟩
          · rw [List.find?_range'_eq_none]
            simp only [Bool.not_eq_true', decide_eq_false_iff_not]
            intro attempt _ _
            omega

/-- A callable prints its greeting in its only call, or nothing at all. -/
theorem printed_cases (known : name ∈ byName interpreter) :
    (∀ contextAt allowed, interpreter.firstReturn name contextAt allowed = some 1 ∧
      ∀ ctx, interpreter.printed name ctx = interpreter.greeting name ctx) ∨
    ∀ ctx, interpreter.printed name ctx = [] ∧ interpreter.greeting name ctx = [] := by
  rcases mem_byName.mp known with returns | raises | rfl
  · left
    intro contextAt allowed
    refine ⟨?_, fun ctx => (failure?_of_returns returns).2⟩
    simp only [List.mem_cons, List.not_mem_nil, or_false] at returns
    rcases returns with rfl | rfl | rfl <;> rfl
  · right
    intro ctx
    refine ⟨(failure?_of_raises raises).2, ?_⟩
    simp only [List.mem_cons, List.not_mem_nil, or_false] at raises
    rcases raises with rfl | rfl <;> rfl
  · exact .inr fun ctx => ⟨failure?_flaky.2, rfl⟩

end Interpreter

end EtlOrchestrator
