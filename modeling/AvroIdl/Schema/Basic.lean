import AvroIdl.Schema.Default

/-
Avro types in the shapes that have a spelling in IDL. Records and enums stand where
they are defined; every other mention of them is a reference by name.
-/
set_option autoImplicit false

namespace AvroIdl

structure EnumType where
  name : String
  doc : Option String
  symbols : List String
  deriving DecidableEq, Inhabited

structure FieldOf (τ : Type) where
  name : String
  type : τ
  doc : Option String
  default : Option Default
  userDataType : Option String
  deriving DecidableEq, Inhabited

structure RecordOf (τ : Type) where
  name : String
  doc : Option String
  fields : List (FieldOf τ)
  deriving DecidableEq, Inhabited

/-- An array may carry a key class although it has no keys. -/
inductive AvroType
  | null
  | int (javaClass : Option String)
  | long (javaClass : Option String)
  | string (javaClass : Option String)
  | boolean (javaClass : Option String)
  | enum (type : EnumType)
  | record (type : RecordOf AvroType)
  | union (members : List AvroType)
  | map (values : AvroType) (javaKeyClass javaClass : Option String)
  | array (items : AvroType) (javaKeyClass javaClass : Option String)
  | reference (name : String)
  deriving Inhabited

abbrev Field := FieldOf AvroType

abbrev RecordType := RecordOf AvroType

/-- The record that a whole document defines. -/
structure Schema where
  name : String
  nameSpace : Option String
  doc : Option String
  fields : List Field

namespace Schema

def asRecord (s : Schema) : RecordType :=
  ⟨s.name, s.doc, s.fields⟩

end Schema

end AvroIdl
