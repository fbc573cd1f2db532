import AvroIdl.Proofs.Schema.Nodes

/-
The records and enums that types define, at any depth. A definition is larger than
whatever it holds, so it never holds a copy of itself.
-/
set_option autoImplicit false

namespace AvroIdl

namespace Declaration

def toType : Declaration → AvroType
  | .record type => .record type
  | .enum type => .enum type

theorem ofType?_eq_some_iff (type : AvroType) (d : Declaration) :
    ofType? type = some d ↔ type = d.toType := by
  cases type <;> cases d <;> simp [ofType?, toType]

@[simp] theorem sizeOf_toType (d : Declaration) : sizeOf d.toType = sizeOf d := by
  cases d <;> simp [toType]

end Declaration

/-- A record comes before what its fields define, and fields and union members are taken
in order. -/
def definitionsOf (types : List AvroType) : List Declaration :=
  (nodesOf types).filterMap Declaration.ofType?

@[simp] theorem definitionsOf_nil : definitionsOf [] = [] := rfl

theorem definitionsOf_cons (type : AvroType) (rest : List AvroType) :
    definitionsOf (type :: rest) =
      (Declaration.ofType? type).toList ++ definitionsOf type.parts ++ definitionsOf rest := by
  have split : definitionsOf (type :: rest) =
      (type :: nodesOf type.parts).filterMap Declaration.ofType? ++ definitionsOf rest := by
    rw [definitionsOf, nodesOf_cons, List.filterMap_append, AvroType.nodes_eq, definitionsOf]
  rw [split, List.filterMap_cons]
  cases Declaration.ofType? type <;> rfl

theorem mem_definitionsOf {types : List AvroType} {d : Declaration} :
    d ∈ definitionsOf types ↔ d.toType ∈ nodesOf types := by
  simp [definitionsOf, List.mem_filterMap, Declaration.ofType?_eq_some_iff]

/-- Everything that is defined inside a definition. -/
def Declaration.inner (d : Declaration) : List Declaration :=
  definitionsOf d.toType.parts

theorem Declaration.sizeOf_lt_of_mem_inner {d e : Declaration} (member : e ∈ d.inner) :
    sizeOf e < sizeOf d := by
  obtain ⟨part, found, member⟩ := mem_nodesOf.mp (mem_definitionsOf.mp member)
  have below := AvroType.sizeOf_le_of_mem_nodes member
  have less := AvroType.sizeOf_lt_of_mem_parts found
  rw [sizeOf_toType] at below less
  omega

end AvroIdl
