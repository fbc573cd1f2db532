import AvroIdl.Declaration.Basic
import AvroIdl.Idl.Spelling

/-
The blocks of a protocol: field lines, doc comments, records and enums. What stands
at level `n` is indented `n + 1` times, as the protocol's body is indented already.
-/
set_option autoImplicit false

namespace AvroIdl

def indent (level : Nat) : String :=
  String.ofList (List.replicate (4 * (level + 1)) ' ')

def docComment (doc : Option String) (level : Nat) : String :=
  match doc with
  | some doc => indent level ++ "/** " ++ doc ++ " */\n"
  | none => ""

def Field.userDataTypeHint (field : Field) : String :=
  match field.userDataType with
  | some name => " " ++ annotationText "userDataType" name
  | none => ""

def Field.defaultClause (field : Field) : String :=
  match field.default with
  | some value => " = " ++ value.literal
  | none => ""

def Field.line (field : Field) (level : Nat) : String :=
  docComment field.doc level ++ indent level ++ field.type.spelling ++
    Field.userDataTypeHint field ++ " " ++ field.name ++ Field.defaultClause field ++ ";"

def recordBody (name : String) (fields : List Field) (level : Nat) : String :=
  indent level ++ "record " ++ name ++ " \x7b\n" ++
    "\n".intercalate (fields.map fun field => Field.line field (level + 1)) ++ "\n" ++
    indent level ++ "\x7d"

def enumBody (name : String) (symbols : List String) (level : Nat) : String :=
  indent level ++ "enum " ++ name ++ " \x7b\n" ++
    ",\n".intercalate (symbols.map fun symbol => indent (level + 1) ++ symbol) ++ "\n" ++
    indent level ++ "\x7d"

def Declaration.block (d : Declaration) (level : Nat) : String :=
  match d with
  | .record type => docComment type.doc level ++ recordBody type.name type.fields level
  | .enum type => docComment type.doc level ++ enumBody type.name type.symbols level

end AvroIdl
