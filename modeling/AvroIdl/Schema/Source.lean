import AvroIdl.Json.Reader
import AvroIdl.Schema.Diagnostic
import AvroIdl.Schema.Load

/-
Loading a schema from text.
-/
set_option autoImplicit false

namespace AvroIdl

/-- The byte that a JSON fault is about: the last one looked at, or the end of the text. Lines
are those of the source as it stands, comments included. -/
def Json.ReadError.span? (e : Json.ReadError) (source : List UInt8) : Option Span :=
  e.position.map fun p =>
    let offset := min (Json.lineStart (p.line - 1) source + (p.column - 1)) source.length
    ⟨offset, if offset < source.length then 1 else 0⟩

inductive SourceError
  | json (e : Json.ReadError)
  | schema (e : LoadError)

namespace SourceError

def message : SourceError → String
  | .json e => "invalid JSON: " ++ e.message
  | .schema e => e.message

/-- A value that was read no longer knows where it stood. -/
def span? (e : SourceError) (source : String) : Option Span :=
  match e with
  | .json e => e.span? (Text.bytes source)
  | .schema _ => none

def diagnostic (e : SourceError) (source name : String) : Diagnostic :=
  ⟨e.message, name, source, e.span? source⟩

end SourceError

namespace Schema

/-- The schema that a value defines, with what was defined and warned of on the way. -/
def ofJson (json : Json) : Except LoadError Schema × Loading :=
  (Load.document json).run.run Loading.start

def ofSource (source : String) : Except SourceError Schema × Loading :=
  match Json.read source with
  | .error e => (.error (.json e), Loading.start)
  | .ok json => ((ofJson json).1.mapError .schema, (ofJson json).2)

end Schema

end AvroIdl
