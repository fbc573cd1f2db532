import AvroIdl.Command.FieldValue
import AvroIdl.Command.LogLevel
import AvroIdl.Text.Alphanumeric
import AvroIdl.Text.Blank
import AvroIdl.Text.Bytes

/-
One directive of a log filter: a level, or a target, a span and a field with a level.
-/
set_option autoImplicit false

namespace AvroIdl.Command

/-- A field that a log line has, or that a span has with a value of a pattern. -/
structure LogField where
  name : String
  pattern : Option String
  deriving DecidableEq

/-- Lines up to a rank are shown: of one target and those below it or of all, inside of a span or
anywhere, with a field or with any. -/
structure LogDirective where
  target : Option String
  span : Option String
  field : Option LogField
  rank : Nat
  deriving DecidableEq

namespace LogField

/-- The text between braces. A second equals sign ends the pattern. -/
def ofText? (text : String) : Option LogField :=
  let name := text.toList.takeWhile (· ≠ '=')
  if text = "" then none
  else match text.toList.dropWhile (· ≠ '=') with
    | [] => some ⟨text, none⟩
    | _ :: rest =>
      let pattern := String.ofList (rest.takeWhile (· ≠ '='))
      if FieldValue.isReadable pattern then some ⟨String.ofList name, some pattern⟩ else none

end LogField

namespace LogDirective

/-- The most that can be shown. It holds where no level is given. -/
def allRanks : Nat := LogLevel.trace.rank

/-- A place in a directive. The parts of a directive are found by what is read there, in the text
without the blanks around it, but they are made of the bytes of the whole text. -/
structure Place where
  read : UInt8
  kept : UInt8

def places (text : String) : List Place :=
  (Text.bytes (String.ofList (Text.trimmed text.toList))).zipWith Place.mk (Text.bytes text)

def Place.isOneOf (p : Place) (signs : List Char) : Bool :=
  signs.any fun c => p.read = c.toUInt8

/-- The text before the first of some signs, and the places from that sign on. -/
def cutAt? (signs : List Char) (ps : List Place) : Option (String × List Place) :=
  let (part, rest) := ps.span fun p => !p.isOneOf signs
  (Text.ofBytes? (part.map Place.kept)).map (·, rest)

/-- What may come first, apart from a bracket. -/
def mayStart (c : Char) : Bool :=
  Text.isAlphanumeric c || c = '-' || c = ':' || c = '_'

/-- A word alone that is no level is a target. -/
def ofWord (word : String) : LogDirective :=
  match LogLevel.rank? word with
  | some rank => ⟨none, none, none, rank⟩
  | none => ⟨some word, none, none, allRanks⟩

/-- The rank at the end of a directive, behind an equals sign if there is one. The level goes to
the end of the whole text. -/
def endRank? (text : String) : List Place → Option Nat
  | [] => some allRanks
  | p :: rest =>
    if !p.isOneOf ['='] then none
    else do
      let read := (places text).length - rest.length
      let level ← Text.ofBytes? ((Text.bytes text).drop read)
      if level = "" then some allRanks else LogLevel.rank? level

/-- The part of a directive from its bracket on. Braces hold a field; then the span may lack. -/
def ofBracket? (text : String) (target : Option String) (rest : List Place) :
    Option LogDirective := do
  let (span, rest) ← cutAt? [']', '\x7b'] rest
  match rest with
  | [] => none
  | p :: rest =>
    if p.isOneOf [']'] then
      return ⟨target, some span, none, ← endRank? text rest⟩
    else
      let (field, rest) ← cutAt? ['\x7d'] rest
      let field ← LogField.ofText? field
      match rest with
      | _ :: close :: rest =>
        if close.isOneOf [']'] then
          return ⟨target, if span = "" then none else some span, some field, ← endRank? text rest⟩
        else none
      | _ => none

def ofText? (text : String) : Option LogDirective := do
  let first ← (Text.trimmed text.toList).head?
  let (target, rest) ← cutAt? ['=', '['] (places text)
  if first = '[' then ofBracket? text none (rest.drop 1)
  else if !mayStart first then none
  else match rest with
    | [] => return ofWord text
    | p :: after =>
      if p.isOneOf ['['] then ofBracket? text (some target) after
      else return ⟨some target, none, none, ← endRank? text rest⟩

end LogDirective

end AvroIdl.Command
