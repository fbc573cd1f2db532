/-
How much a log line tells.
-/
set_option autoImplicit false

namespace AvroIdl.Command

inductive LogLevel
  | error
  | warn
  | info
  | debug
  | trace
  deriving DecidableEq

namespace LogLevel

/-- The more a level tells, the greater it is. Rank 0 is below all levels. -/
def rank : LogLevel → Nat
  | .error => 1
  | .warn => 2
  | .info => 3
  | .debug => 4
  | .trace => 5

/-- Five characters wide. -/
def label : LogLevel → String
  | .error => "ERROR"
  | .warn => " WARN"
  | .info => " INFO"
  | .debug => "DEBUG"
  | .trace => "TRACE"

/-- A number may have a plus sign before its digits. -/
def number? (word : String) : Option Nat :=
  let digits := match word.toList with
    | '+' :: digits => digits
    | digits => digits
  if digits ≠ [] ∧ digits.all Char.isDigit then (String.ofList digits).toNat? else none

/-- The rank that a word means: its name in any case, or its number. -/
def rank? (word : String) : Option Nat :=
  match word.toLower with
  | "off" => some 0
  | "error" => some 1
  | "warn" => some 2
  | "info" => some 3
  | "debug" => some 4
  | "trace" => some 5
  | _ => (number? word).filter (· ≤ 5)

end LogLevel

end AvroIdl.Command
