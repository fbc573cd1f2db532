import AvroIdl.Conversion.Failure
import AvroIdl.Idl.Protocol
import AvroIdl.Schema.Source

/-
From the text of a schema to the text of a protocol, with the events on the way.
-/
set_option autoImplicit false

namespace AvroIdl

/-- The source's name is used in messages only. -/
def Schema.load (source name : String) : Except Failure Schema :=
  (Schema.ofSource source).1.mapError fun e => .schema (e.diagnostic source name)

/-- What is noted while a conversion runs. -/
inductive Event
  | started (input output : String) (policy : Policy)
  | warned (warning : Warning)
  | loaded (source schema : String) (fields namedTypes : Nat)
  | rendering (protocol : String) (fields declarations : Nat)

/-- Names are declared once unless the policy says otherwise. -/
structure Converter where
  policy : Policy := .deduplicate

namespace Converter

def renderNoting (c : Converter) (s : Schema) : Except Failure String × List Event :=
  match s.declarations c.policy with
  | .error e => (.error (.conflict e), [])
  | .ok declarations =>
    (.ok (s.protocol declarations), [.rendering s.name s.fields.length declarations.length])

def render (c : Converter) (s : Schema) : Except Failure String :=
  (c.renderNoting s).1

def convertNoting (c : Converter) (source name : String) : Except Failure String × List Event :=
  let (loaded, progress) := Schema.ofSource source
  let warned := progress.warnings.map Event.warned
  match loaded with
  | .error e => (.error (.schema (e.diagnostic source name)), warned)
  | .ok s =>
    let (rendered, events) := c.renderNoting s
    (rendered,
      warned ++ .loaded name s.name s.fields.length progress.defined.length :: events)

/-- Converts a text. Its name is used in messages only. -/
def convert (c : Converter) (source name : String) : Except Failure String :=
  (c.convertNoting source name).1

/-- Converts what was read from a file. -/
def convertFile (c : Converter) (path : String) (contents : Except SystemError String) :
    Except Failure String × List Event :=
  match contents with
  | .error .notFound => (.error (.inputMissing path), [])
  | .error cause => (.error (.unreadable path cause), [])
  | .ok source => c.convertNoting source path

/-- Converts what was read from standard input. -/
def convertInput (c : Converter) (contents : Except SystemError String) :
    Except Failure String × List Event :=
  match contents with
  | .error cause => (.error (.unreadable "<stdin>" cause), [])
  | .ok source => c.convertNoting source "<stdin>"

end Converter

end AvroIdl
