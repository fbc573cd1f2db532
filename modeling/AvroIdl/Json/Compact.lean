import AvroIdl.Json.Basic

/-
The compact text of a JSON value: no blanks between tokens, and strings escape
only what must be escaped.
-/
set_option autoImplicit false

namespace AvroIdl.Json

/-- Control characters without a short escape are written by their code point. -/
def escapeChar (c : Char) : String :=
  match c with
  | '"' => "\\\""
  | '\\' => "\\\\"
  | '\x08' => "\\b"
  | '\x0c' => "\\f"
  | '\n' => "\\n"
  | '\r' => "\\r"
  | '\t' => "\\t"
  | c =>
    if c.toNat < 0x20 then
      "\\u00" ++ (Nat.digitChar (c.toNat / 16)).toString ++ (Nat.digitChar (c.toNat % 16)).toString
    else c.toString

/-- What stands between the quotes of a string. -/
def escape (text : String) : String :=
  String.join (text.toList.map escapeChar)

def quote (text : String) : String :=
  "\"" ++ escape text ++ "\""

mutual

def compact : Json → String
  | .null => "null"
  | .bool true => "true"
  | .bool false => "false"
  | .number text => text
  | .string text => quote text
  | .array items => "[" ++ ",".intercalate (compactItems items) ++ "]"
  | .object members => "\x7b" ++ ",".intercalate (compactMembers members) ++ "\x7d"

def compactItems : List Json → List String
  | [] => []
  | item :: rest => item.compact :: compactItems rest

def compactMembers : Members → List String
  | [] => []
  | (name, value) :: rest => (quote name ++ ":" ++ value.compact) :: compactMembers rest

end

end AvroIdl.Json
