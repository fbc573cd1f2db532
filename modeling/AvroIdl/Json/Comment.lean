/-
Comments in JSON text, in the two forms `// … end of line` and `/* … */`. Taking
them out keeps every position: each byte of the source becomes one byte or one
failed read.
-/
set_option autoImplicit false

namespace AvroIdl.Json

/-- A source whose comments are blanks. An entry `none` is a byte that cannot be
read, and reading past the end of a source that is not whole fails as well. -/
structure Uncommented where
  reads : List (Option UInt8)
  whole : Bool

inductive CommentScan
  | outside
  | string
  | escape
  | slash
  | block
  | star
  | line

namespace CommentScan

def blank : UInt8 := 0x20

/-- A slash outside strings is a blank at once, so what follows it must open a comment. -/
def step (scan : CommentScan) (byte : UInt8) : Option UInt8 × CommentScan :=
  match scan, Char.ofUInt8 byte with
  | .outside, '"' => (some byte, .string)
  | .outside, '/' => (some blank, .slash)
  | .outside, _ => (some byte, .outside)
  | .string, '"' => (some byte, .outside)
  | .string, '\\' => (some byte, .escape)
  | .string, _ => (some byte, .string)
  | .escape, _ => (some byte, .string)
  | .slash, '*' => (some blank, .block)
  | .slash, '/' => (some blank, .line)
  | .slash, _ => (none, .slash)
  | .block, '*' => (some blank, .star)
  | .block, _ => (some blank, .block)
  | .star, '/' => (some blank, .outside)
  | .star, '*' => (some blank, .star)
  | .star, _ => (some blank, .block)
  | .line, '\n' => (some byte, .outside)
  | .line, _ => (some blank, .line)

/-- A source may end outside everything or in a comment that runs to the end of its line. -/
def mayEnd : CommentScan → Bool
  | .outside | .line => true
  | _ => false

def run : CommentScan → List UInt8 → Uncommented
  | scan, [] => ⟨[], scan.mayEnd⟩
  | scan, byte :: rest =>
    let (read, next) := scan.step byte
    let after := run next rest
    ⟨read :: after.reads, after.whole⟩

end CommentScan

def uncomment (source : List UInt8) : Uncommented :=
  CommentScan.outside.run source

end AvroIdl.Json
