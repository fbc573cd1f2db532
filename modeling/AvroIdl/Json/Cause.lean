import AvroIdl.Json.Position

/-
Why a text is not read as JSON, and where that showed.
-/
set_option autoImplicit false

namespace AvroIdl.Json

inductive Cause
  | endInValue
  | endInList
  | endInObject
  | endInString
  | expectedIdent
  | expectedValue
  | expectedListCommaOrEnd
  | expectedObjectCommaOrEnd
  | expectedColon
  | keyNotString
  | trailingComma
  | trailingCharacters
  | tooDeep
  | controlCharacter
  | invalidEscape
  | loneSurrogate
  | unexpectedEndOfHexEscape
  | invalidUnicode
  | invalidNumber
  | unreadable
  deriving DecidableEq

/-- Text that stops too early, text that cannot be read at all, and every other fault. -/
inductive Category
  | ended
  | unreadable
  | malformed
  deriving DecidableEq

namespace Cause

def category : Cause → Category
  | .endInValue | .endInList | .endInObject | .endInString => .ended
  | .unreadable => .unreadable
  | _ => .malformed

def message : Cause → String
  | .endInValue => "EOF while parsing a value"
  | .endInList => "EOF while parsing a list"
  | .endInObject => "EOF while parsing an object"
  | .endInString => "EOF while parsing a string"
  | .expectedIdent => "expected ident"
  | .expectedValue => "expected value"
  | .expectedListCommaOrEnd => "expected `,` or `]`"
  | .expectedObjectCommaOrEnd => "expected `,` or `\x7d`"
  | .expectedColon => "expected `:`"
  | .keyNotString => "key must be a string"
  | .trailingComma => "trailing comma"
  | .trailingCharacters => "trailing characters"
  | .tooDeep => "recursion limit exceeded"
  | .controlCharacter => "control character (\\u0000-\\u001F) found while parsing a string"
  | .invalidEscape => "invalid escape"
  | .loneSurrogate => "lone leading surrogate in hex escape"
  | .unexpectedEndOfHexEscape => "unexpected end of hex escape"
  | .invalidUnicode => "invalid unicode code point"
  | .invalidNumber => "invalid number"
  | .unreadable => "invalid data"

end Cause

/-- Text that cannot be read has no position outside every list and object. -/
structure ReadError where
  cause : Cause
  position : Option Position
  deriving DecidableEq

namespace ReadError

def message (e : ReadError) : String :=
  match e.position with
  | none => e.cause.message
  | some p => e.cause.message ++ " at line " ++ toString p.line ++ " column " ++ toString p.column

end ReadError

end AvroIdl.Json
