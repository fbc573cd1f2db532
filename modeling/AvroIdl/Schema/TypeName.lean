/-
Names of records and enums: a simple name and the namespace it lies in.
-/
set_option autoImplicit false

namespace AvroIdl

structure TypeName where
  simple : String
  nameSpace : Option String
  deriving DecidableEq

namespace TypeName

def full (name : TypeName) : String :=
  match name.nameSpace with
  | some nameSpace => nameSpace ++ "." ++ name.simple
  | none => name.simple

/-- The simple name is what follows the last dot; what stands before that dot is the
namespace. -/
def ofDotted (raw : String) : TypeName :=
  let reversed := raw.toList.reverse
  let simple := String.ofList (reversed.takeWhile (· ≠ '.')).reverse
  match reversed.dropWhile (· ≠ '.') with
  | [] => ⟨simple, none⟩
  | _ :: before => ⟨simple, some (String.ofList before.reverse)⟩

end TypeName

def isDotted (name : String) : Bool :=
  '.' ∈ name.toList

end AvroIdl
