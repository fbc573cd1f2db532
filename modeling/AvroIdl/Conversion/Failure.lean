import AvroIdl.Declaration.Basic
import AvroIdl.Schema.Diagnostic

/-
Every way a conversion can fail, and what is said about it: a message, a code, perhaps
some help, a place in the source, and the exit status of the program.
-/
set_option autoImplicit false

namespace AvroIdl

/-- Why a file or a stream could not be used. -/
inductive SystemError
  | notFound
  | notDirectory
  | isDirectory
  | nameTooLong
  | deviceFull
  | brokenPipe
  | invalidText
  | other (text : String)
  deriving DecidableEq

def SystemError.message : SystemError → String
  | .notFound => "No such file or directory (os error 2)"
  | .notDirectory => "Not a directory (os error 20)"
  | .isDirectory => "Is a directory (os error 21)"
  | .deviceFull => "No space left on device (os error 28)"
  | .brokenPipe => "Broken pipe (os error 32)"
  | .nameTooLong => "File name too long (os error 36)"
  | .invalidText => "stream did not contain valid UTF-8"
  | .other text => text

inductive Failure
  | usage (message : String)
  | inputMissing (path : String)
  | unreadable (path : String) (cause : SystemError)
  | schema (diagnostic : Diagnostic)
  | unwritable (path : String) (cause : SystemError)
  | conflict (e : NameConflict)
  deriving DecidableEq

def usageLine : String :=
  "Usage: avsc2avdl [--redeclare] <input.avsc> <output.avdl>"

namespace Failure

def message : Failure → String
  | .usage message => message
  | .inputMissing path => "input file does not exist: " ++ path
  | .unreadable path _ => "read " ++ path
  | .schema diagnostic => diagnostic.message
  | .unwritable path _ => "write " ++ path
  | .conflict e => e.message

def code : Failure → String
  | .usage _ => "avsc2avdl::usage"
  | .inputMissing _ => "avsc2avdl::input_not_found"
  | .unreadable _ _ => "avsc2avdl::read"
  | .schema _ => "avsc2avdl::schema_parse"
  | .unwritable _ _ => "avsc2avdl::write"
  | .conflict _ => "avsc2avdl::duplicate_named_type"

def help? : Failure → Option String
  | .usage _ => some usageLine
  | .conflict _ => some "define the type once and refer to it by name everywhere else"
  | _ => none

/-- Zero is success, and one is kept for what lies outside these classes. -/
def exitStatus : Failure → Nat
  | .usage _ => 2
  | .inputMissing _ | .unreadable _ _ => 3
  | .schema _ => 4
  | .unwritable _ _ => 5
  | .conflict _ => 6

def cause? : Failure → Option SystemError
  | .unreadable _ cause | .unwritable _ cause => some cause
  | _ => none

def diagnostic? : Failure → Option Diagnostic
  | .schema diagnostic => some diagnostic
  | _ => none

/-- The place in the source that a failure points at. -/
def label? (f : Failure) : Option (Diagnostic × Span) :=
  f.diagnostic?.bind fun d => d.span.map fun span => (d, span)

end Failure

end AvroIdl
