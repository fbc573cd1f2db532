import AvroIdl.Schema.Equality

/-
Declarations: the records and enums that get a block of their own in a protocol.
-/
set_option autoImplicit false

namespace AvroIdl

inductive Declaration
  | record (type : RecordType)
  | enum (type : EnumType)
  deriving DecidableEq

/-- What is done with a definition whose name is declared already. -/
inductive Policy
  /-- Every definition is declared, repeated or not. -/
  | redeclare
  /-- A name is declared once, and all its definitions must be equal. -/
  | deduplicate
  deriving DecidableEq

namespace Declaration

def name : Declaration → String
  | .record type => type.name
  | .enum type => type.name

def ofType? : AvroType → Option Declaration
  | .record type => some (.record type)
  | .enum type => some (.enum type)
  | _ => none

end Declaration

/-- A name that is declared already with another definition. -/
structure NameConflict where
  name : String
  deriving DecidableEq

def NameConflict.message (e : NameConflict) : String :=
  "named type `" ++ e.name ++ "` is declared twice with different definitions"

end AvroIdl
