/-
Default values of fields, in the shapes that have a literal of their own.
-/
set_option autoImplicit false

namespace AvroIdl

/-- A text is kept as it stands between the quotes, a number as it is spelled. -/
inductive Default
  | null
  | text (escaped : String)
  | number (spelling : String)
  | bool (value : Bool)
  | emptyMap
  | emptyArray
  deriving DecidableEq

def Default.literal : Default → String
  | .null => "null"
  | .text escaped => "\"" ++ escaped ++ "\""
  | .number spelling => spelling
  | .bool true => "true"
  | .bool false => "false"
  | .emptyMap => "\x7b\x7d"
  | .emptyArray => "[]"

end AvroIdl
