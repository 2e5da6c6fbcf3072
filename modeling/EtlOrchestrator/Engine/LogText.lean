import Mathlib.Algebra.Order.Floor.Semiring
import Mathlib.Data.Nat.Log
import Mathlib.Data.Rat.Floor
import EtlOrchestrator.Engine.Records
import EtlOrchestrator.Foundations.Binary64

/-!
# The texts of the transition log

Each entry of the log is rendered as the engine writes it. Delays are printed
with the format `.3g`: three significant digits, rounded to the nearest with ties
to even, without trailing zeros, and with an exponent when the first digit stands
below the fourth decimal or beyond the hundreds.
-/

set_option autoImplicit false

namespace EtlOrchestrator

/-! ## Three significant digits -/

/-- The exponent of the first significant decimal digit of a positive number. -/
def decimalExponent (number : ℚ) : ℤ :=
  if 1 ≤ number then Nat.log 10 ⌊number⌋₊ else -(Nat.clog 10 ⌈number⁻¹⌉₊ : ℤ)

/-- Three significant digits of a positive number, and the exponent of the first. -/
def threeDigits (number : ℚ) : ℕ × ℤ :=
  let exponent := decimalExponent number
  let digits := roundHalfEven (number * 10 ^ (2 - exponent))
  if digits = 1000 then (100, exponent + 1) else (digits, exponent)

/-- A decimal fraction without trailing zeros. -/
def decimal (whole fraction : List Char) : List Char :=
  match (fraction.reverse.dropWhile (· = '0')).reverse with
  | [] => whole
  | digits => whole ++ '.' :: digits

/-- An exponent of at least two digits. -/
def exponentText (exponent : ℤ) : List Char :=
  let digits := (toString exponent.natAbs).toList
  (if exponent < 0 then '-' else '+') :: (List.replicate (2 - digits.length) '0' ++ digits)

/-- `f"{number:.3g}"` of a number that is not negative. -/
def formatGeneral (number : ℚ) : String :=
  if number ≤ 0 then "0"
  else
    let (value, exponent) := threeDigits number
    let digits := (toString value).toList
    if exponent < -4 ∨ 3 ≤ exponent then
      String.ofList (decimal (digits.take 1) (digits.drop 1) ++ 'e' :: exponentText exponent)
    else if exponent < 0 then
      String.ofList (decimal ['0'] (List.replicate (-exponent - 1).toNat '0' ++ digits))
    else
      String.ofList (decimal (digits.take (exponent.toNat + 1)) (digits.drop (exponent.toNat + 1)))

/-! ## Entries -/

/-- The text of an entry. -/
def LogEntry.text : LogEntry → String
  | workflowMoved source target => s!"workflow: {source.value} -> {target.value}"
  | skippedExecution taskId state => s!"{taskId}: skipped execution (state={state.value})"
  | started taskId source attempt maxAttempts =>
      s!"{taskId}: {source.value} -> running (attempt {attempt}/{maxAttempts})"
  | failed taskId error => s!"{taskId}: running -> failed ({error})"
  | scheduledRetry taskId delay attempt maxAttempts =>
      s!"{taskId}: failed -> retrying (next attempt in {formatGeneral delay}s, " ++
        s!"attempt {attempt}/{maxAttempts})"
  | permanentFailure taskId attempt =>
      s!"{taskId}: permanent failure after {attempt} attempt(s); blocking downstream"
  | succeeded taskId => s!"{taskId}: running -> success"
  | blocked taskId upstreamId =>
      s!"{taskId}: pending -> upstream_failed (upstream '{upstreamId}' failed)"
  | cannotLoad message => s!"scheduler: cannot load workflow: {message}"

example : formatGeneral (1 / 2) = "0.5" := by decide +kernel

end EtlOrchestrator
