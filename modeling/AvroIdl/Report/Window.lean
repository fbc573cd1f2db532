import AvroIdl.Schema.Diagnostic

/-
The part of a source that a report shows: the lines that a span touches, with one line
before and one after them.
-/
set_option autoImplicit false

namespace AvroIdl.Report

/-- Bytes from `start` up to `stop`, where `line` lines stand before them. -/
structure Window where
  start : Nat
  line : Nat
  stop : Nat
  deriving DecidableEq

/-- `before` is where the line before the present one begins, once it is known not to hold the
span. `past` tells that the end of the span has been seen, and `ended` that the line it is on
has ended as well. -/
structure WindowScan where
  before : Option Nat
  current : Nat
  line : Nat
  past : Bool
  ended : Bool

namespace WindowScan

def start : WindowScan := ⟨none, 0, 0, false, false⟩

/-- A line ends at `offset`. The second result tells to stop there. -/
def newline (span : Span) (scan : WindowScan) (offset : Nat) : WindowScan × Bool :=
  if offset < span.offset then
    ({ scan with
        before := some scan.current
        line := scan.line + scan.before.toList.length
        current := offset + 1 }, false)
  else if span.offset + (span.length - 1) ≤ offset ∧ scan.past then
    ({ scan with ended := true, current := offset + 1 }, scan.ended)
  else ({ scan with current := offset + 1 }, false)

def pass (span : Span) (scan : WindowScan) (offset : Nat) : WindowScan :=
  if span.offset + span.length - 1 ≤ offset then { scan with past := true } else scan

/-- A carriage return ends a line too, and with the line feed after it ends one line. -/
def run (span : Span) : WindowScan → Nat → List UInt8 → WindowScan × Nat
  | scan, offset, [] => (scan, offset)
  | scan, offset, 0x0d :: 0x0a :: rest =>
    match newline span scan (offset + 1) with
    | (scan, true) => (scan, offset + 2)
    | (scan, false) => run span (pass span scan (offset + 1)) (offset + 2) rest
  | scan, offset, byte :: rest =>
    if byte = 0x0d ∨ byte = 0x0a then
      match newline span scan offset with
      | (scan, true) => (scan, offset + 1)
      | (scan, false) => run span (pass span scan offset) (offset + 1) rest
    else run span (pass span scan offset) (offset + 1) rest

end WindowScan

def window (span : Span) (source : List UInt8) : Window :=
  let (scan, stop) := WindowScan.run span .start 0 source
  ⟨scan.before.getD 0, scan.line, stop⟩

end AvroIdl.Report
