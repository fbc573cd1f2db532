import AvroIdl.Declaration.Walk

/-
Types as trees: the types that stand directly inside a type, and all that stand in it at
any depth. The fields of a record are inside of it, whatever a name refers to is not.
-/
set_option autoImplicit false

namespace AvroIdl

namespace AvroType

/-- The types that stand directly inside a type, in order. -/
def parts : AvroType → List AvroType
  | .record type => RecordType.fieldTypes type
  | .union members => members
  | .map values _ _ => [values]
  | .array items _ _ => [items]
  | _ => []

theorem sizeOf_parts_le (type : AvroType) : sizeOf type.parts ≤ sizeOf type := by
  cases type with
  | record type =>
    have less := RecordType.sizeOf_fieldTypes type
    simp only [parts, record.sizeOf_spec]
    omega
  | map values keyClass javaClass | array items keyClass javaClass =>
    have positive : 0 < sizeOf keyClass := by
      cases keyClass with
      | none => exact Nat.one_pos
      | some text => rw [Option.some.sizeOf_spec]; omega
    simp only [parts, List.cons.sizeOf_spec, List.nil.sizeOf_spec, map.sizeOf_spec,
      array.sizeOf_spec]
    omega
  | _ => simp [parts]

theorem sizeOf_lt_of_mem_parts {type part : AvroType} (member : part ∈ type.parts) :
    sizeOf part < sizeOf type :=
  Nat.lt_of_lt_of_le (List.sizeOf_lt_of_mem member) (sizeOf_parts_le type)

/-- What passes from the parts of a type to the type holds of every type. -/
@[elab_as_elim]
theorem induction_parts {motive : AvroType → Prop}
    (whole : ∀ type, (∀ part ∈ type.parts, motive part) → motive type) (type : AvroType) :
    motive type := by
  induction size : sizeOf type using Nat.strongRecOn generalizing type with
  | ind bound smaller =>
    apply whole
    intro part member
    exact smaller _ (by have := sizeOf_lt_of_mem_parts member; omega) part rfl

end AvroType

mutual

/-- A type and all types inside of it, each before those inside of it. -/
def AvroType.nodes : AvroType → List AvroType
  | .null => [.null]
  | .int javaClass => [.int javaClass]
  | .long javaClass => [.long javaClass]
  | .string javaClass => [.string javaClass]
  | .boolean javaClass => [.boolean javaClass]
  | .enum type => [.enum type]
  | .record type => .record type :: nodesInRecord type
  | .union members => .union members :: nodesInList members
  | .map values keyClass javaClass => .map values keyClass javaClass :: values.nodes
  | .array items keyClass javaClass => .array items keyClass javaClass :: items.nodes
  | .reference name => [.reference name]

def nodesInList : List AvroType → List AvroType
  | [] => []
  | type :: rest => type.nodes ++ nodesInList rest

def nodesInRecord : RecordOf AvroType → List AvroType
  | ⟨_, _, fields⟩ => nodesInFields fields

def nodesInFields : List (FieldOf AvroType) → List AvroType
  | [] => []
  | field :: rest => nodesInField field ++ nodesInFields rest

def nodesInField : FieldOf AvroType → List AvroType
  | ⟨_, type, _, _, _⟩ => type.nodes

end

/-- All types that stand in a list of types, in order. -/
def nodesOf (types : List AvroType) : List AvroType :=
  types.flatMap AvroType.nodes

@[simp] theorem nodesOf_nil : nodesOf [] = [] := rfl

@[simp] theorem nodesOf_cons (type : AvroType) (rest : List AvroType) :
    nodesOf (type :: rest) = type.nodes ++ nodesOf rest := rfl

@[simp] theorem nodesOf_append (types rest : List AvroType) :
    nodesOf (types ++ rest) = nodesOf types ++ nodesOf rest :=
  List.flatMap_append

theorem mem_nodesOf {types : List AvroType} {node : AvroType} :
    node ∈ nodesOf types ↔ ∃ type ∈ types, node ∈ type.nodes :=
  List.mem_flatMap

theorem nodesInList_eq (types : List AvroType) : nodesInList types = nodesOf types := by
  induction types with
  | nil => rfl
  | cons type rest ih => rw [nodesInList, ih, nodesOf_cons]

theorem nodesInRecord_eq (type : RecordType) :
    nodesInRecord type = nodesOf (RecordType.fieldTypes type) := by
  obtain ⟨name, doc, fields⟩ := type
  simp only [nodesInRecord, RecordType.fieldTypes]
  induction fields with
  | nil => rfl
  | cons field rest ih =>
    obtain ⟨name, type, doc, default, hint⟩ := field
    rw [nodesInFields, ih, List.map_cons, nodesOf_cons, nodesInField]

theorem AvroType.nodes_eq (type : AvroType) : type.nodes = type :: nodesOf type.parts := by
  cases type with
  | record type => rw [nodes, nodesInRecord_eq, parts]
  | union members => rw [nodes, nodesInList_eq, parts]
  | map values keyClass javaClass => rw [nodes, parts, nodesOf_cons, nodesOf_nil, List.append_nil]
  | array items keyClass javaClass => rw [nodes, parts, nodesOf_cons, nodesOf_nil, List.append_nil]
  | _ => rfl

theorem AvroType.sizeOf_le_of_mem_nodes {type node : AvroType} (member : node ∈ type.nodes) :
    sizeOf node ≤ sizeOf type := by
  induction type using AvroType.induction_parts with
  | whole type ih =>
    rw [AvroType.nodes_eq, List.mem_cons] at member
    rcases member with rfl | inside
    · exact Nat.le_refl _
    · obtain ⟨part, found, member⟩ := mem_nodesOf.mp inside
      have below := ih part found member
      have less := sizeOf_lt_of_mem_parts found
      omega

end AvroIdl
