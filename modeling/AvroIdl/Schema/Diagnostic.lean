/-
A source that is not a schema: what is wrong, and where if that is known.
-/
set_option autoImplicit false

namespace AvroIdl

/-- Bytes of a source: where they begin and how many they are. -/
structure Span where
  offset : Nat
  length : Nat
  deriving DecidableEq

structure Diagnostic where
  message : String
  sourceName : String
  source : String
  span : Option Span
  deriving DecidableEq

end AvroIdl
