import AvroIdl.Report.Window
import AvroIdl.Text.Bytes
import AvroIdl.Text.Onset

/-
The lines of a window, each with a label line where the span touches it.
-/
set_option autoImplicit false

namespace AvroIdl.Report

/-- One line of the source. `last` tells that its end is the end of the window. -/
structure Line where
  number : Nat
  start : Nat
  text : List Char
  last : Bool

def utf8Size : List Char → Nat
  | [] => 0
  | c :: rest => c.utf8Size + utf8Size rest

/-- Texts of lines with the size of each line end. A carriage return alone ends no line. -/
def cutLines : List Char → List Char → List (List Char × Nat)
  | [], [] => []
  | text, [] => [(text.reverse, 0)]
  | text, '\n' :: rest => (text.reverse, 1) :: cutLines [] rest
  | text, '\r' :: '\n' :: rest => (text.reverse, 2) :: cutLines [] rest
  | text, c :: rest => cutLines (c :: text) rest

/-- A carriage return that ends the window belongs to the text of its line and ends the line all
the same, but such a line is not counted. -/
def numberLines : Nat → Nat → List (List Char × Nat) → List Line
  | _, _, [] => []
  | counted, start, (text, lineEnd) :: rest =>
    let returned := rest.isEmpty && lineEnd = 0 && text.getLast? = some '\r'
    ⟨if returned then counted else counted + 1, start, text,
      rest.isEmpty && (lineEnd ≠ 0 || returned)⟩ ::
      numberLines (counted + 1) (start + utf8Size text + lineEnd) rest

/-- The characters before an offset. There are none when the offset splits a character or lies
beyond the text. -/
def charsBefore? : List Char → Nat → Option (List Char)
  | _, 0 => some []
  | [], _ + 1 => none
  | c :: rest, n + 1 =>
    if n + 1 < c.utf8Size then none
    else (charsBefore? rest (n + 1 - c.utf8Size)).map (c :: ·)

/-- The width of the characters that begin before an offset, control characters not counted. -/
def visibleWidthBefore : List Char → Nat → Nat
  | [], _ => 0
  | c :: rest, offset =>
    if offset = 0 then 0
    else (Text.width? c).getD 0 + visibleWidthBefore rest (offset - c.utf8Size)

namespace Line

def stop (line : Line) : Nat :=
  line.start + utf8Size line.text

/-- Control characters count one each, but only before an offset between two characters. -/
def column (line : Line) (offset : Nat) : Nat :=
  let offset := offset - line.start
  match charsBefore? line.text offset with
  | some chars => Text.width chars
  | none => visibleWidthBefore line.text offset

/-- Which columns of a line the span covers, if it touches the line. -/
def label? (line : Line) (span : Span) : Option String :=
  let stop := span.offset + span.length
  let first := line.column span.offset + 1
  let final := line.column stop
  let begins := decide (line.start ≤ span.offset)
  let ends := line.last || decide (stop ≤ line.stop)
  let number := toString line.number
  if begins && ends then
    let final := if span.length = 0 then first else final
    if first = final then some ("label at line " ++ number ++ ", column " ++ toString first)
    else some ("label at line " ++ number ++ ", columns " ++ toString first ++ " to " ++ toString final)
  else if begins && decide (span.offset ≤ line.stop) then
    some ("label starting at line " ++ number ++ ", column " ++ toString first)
  else if ends && decide (line.start ≤ stop) then
    some ("label ending at line " ++ number ++ ", column " ++ toString final)
  else none

def text? (line : Line) (span : Span) (message : String) : List String :=
  ("snippet line " ++ toString line.number ++ ": " ++ String.ofList line.text) ::
    ((line.label? span).map fun label => "    " ++ label ++ ": " ++ message).toList

end Line

def lines (source : String) (w : Window) : List Line :=
  let shown := ((Text.bytes source).take w.stop).drop w.start
  numberLines w.line w.start (cutLines [] ((Text.ofBytes? shown).getD "").toList)

/-- The lines of a report that show a place in a source. -/
def snippet (d : Diagnostic) (span : Span) : List String :=
  let w := window span (Text.bytes d.source)
  ("Begin snippet for " ++ d.sourceName ++ " starting at line " ++ toString (w.line + 1) ++
      ", column 1") ::
    "" :: (lines d.source w).flatMap fun line => line.text? span d.message

end AvroIdl.Report
