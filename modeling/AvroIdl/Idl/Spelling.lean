import AvroIdl.Schema.Basic

/-
How a type is spelled where it is used: in a field, as a union member, as the values
of a map or the items of an array.
-/
set_option autoImplicit false

namespace AvroIdl

/-- An annotation with one quoted argument, which stands as it is. -/
def annotationText (name argument : String) : String :=
  "@" ++ name ++ "(\"" ++ argument ++ "\")"

/-- A hint that is present stands before the type, with a blank after it. -/
def hint (name : String) (value : Option String) : String :=
  match value with
  | some value => annotationText name value ++ " "
  | none => ""

def classHint : Option String → String :=
  hint "java-class"

def keyClassHint : Option String → String :=
  hint "java-key-class"

mutual

def AvroType.spelling : AvroType → String
  | .null => "null"
  | .int javaClass => classHint javaClass ++ "int"
  | .long javaClass => classHint javaClass ++ "long"
  | .string javaClass => classHint javaClass ++ "string"
  | .boolean javaClass => classHint javaClass ++ "boolean"
  | .enum type => type.name
  | .record type => type.name
  | .union members => "union \x7b " ++ ", ".intercalate (spellings members) ++ " \x7d"
  | .map values keyClass javaClass =>
    keyClassHint keyClass ++ classHint javaClass ++ "map<" ++ values.spelling ++ ">"
  | .array items keyClass javaClass =>
    keyClassHint keyClass ++ classHint javaClass ++ "array<" ++ items.spelling ++ ">"
  | .reference name => name

def spellings : List AvroType → List String
  | [] => []
  | type :: rest => type.spelling :: spellings rest

end

theorem spellings_eq_map (types : List AvroType) :
    spellings types = types.map AvroType.spelling := by
  induction types with
  | nil => rfl
  | cons type rest ih => simp [spellings, ih]

end AvroIdl
