import AvroIdl.Proofs.Idl.Deduplication
import AvroIdl.Proofs.Load.WellNamed
import AvroIdl.Proofs.Schema.Data

/-
The docs of a schema, and schemas that only differ in them.
-/
set_option autoImplicit false

namespace AvroIdl

mutual

/-- The type with other texts in its docs. -/
def AvroType.mapDocs (f : String → String) : AvroType → AvroType
  | .enum type => .enum ⟨type.name, type.doc.map f, type.symbols⟩
  | .record type => .record (mapDocsInRecord f type)
  | .union members => .union (mapDocsInList f members)
  | .map values keyClass javaClass => .map (values.mapDocs f) keyClass javaClass
  | .array items keyClass javaClass => .array (items.mapDocs f) keyClass javaClass
  | .null => .null
  | .int javaClass => .int javaClass
  | .long javaClass => .long javaClass
  | .string javaClass => .string javaClass
  | .boolean javaClass => .boolean javaClass
  | .reference name => .reference name

def mapDocsInList (f : String → String) : List AvroType → List AvroType
  | [] => []
  | type :: rest => type.mapDocs f :: mapDocsInList f rest

def mapDocsInRecord (f : String → String) : RecordOf AvroType → RecordOf AvroType
  | ⟨name, doc, fields⟩ => ⟨name, doc.map f, mapDocsInFields f fields⟩

def mapDocsInFields (f : String → String) : List (FieldOf AvroType) → List (FieldOf AvroType)
  | [] => []
  | field :: rest => mapDocsInField f field :: mapDocsInFields f rest

def mapDocsInField (f : String → String) : FieldOf AvroType → FieldOf AvroType
  | ⟨name, type, doc, default, userDataType⟩ =>
    ⟨name, type.mapDocs f, doc.map f, default, userDataType⟩

end

theorem mapDocsInList_eq (f : String → String) (types : List AvroType) :
    mapDocsInList f types = types.map (AvroType.mapDocs f) := by
  induction types with
  | nil => rfl
  | cons type rest ih => rw [mapDocsInList, ih, List.map_cons]

theorem mapDocsInFields_eq (f : String → String) (fields : List Field) :
    mapDocsInFields f fields = fields.map (mapDocsInField f) := by
  induction fields with
  | nil => rfl
  | cons field rest ih => rw [mapDocsInFields, ih, List.map_cons]

/-- Other texts in the docs, and no other defaults. -/
theorem AvroType.mapDocs_eq (f : String → String) (type : AvroType) :
    type.mapDocs f = type.mapData (Option.map f) id := by
  induction type using AvroType.induction_parts with
  | whole type ih =>
    cases type with
    | record type =>
      obtain ⟨name, doc, fields⟩ := type
      simp only [mapDocs, mapData, mapDocsInRecord, mapDataInRecord, mapDocsInFields_eq,
        mapDataInFields_eq]
      congr 2
      apply List.map_congr_left
      intro field member
      have same := ih field.type (List.mem_map_of_mem member)
      obtain ⟨name, type, doc, default, userDataType⟩ := field
      rw [mapDocsInField, mapDataInField, same]
      rfl
    | union members =>
      rw [mapDocs, mapData, mapDocsInList_eq, mapDataInList_eq]
      congr 1
      exact List.map_congr_left ih
    | map values keyClass javaClass =>
      rw [mapDocs, mapData, ih values (List.mem_singleton.mpr rfl)]
    | array items keyClass javaClass =>
      rw [mapDocs, mapData, ih items (List.mem_singleton.mpr rfl)]
    | _ => rfl

theorem AvroType.nodes_mapDocs (f : String → String) (type : AvroType) :
    (type.mapDocs f).nodes = type.nodes.map (AvroType.mapDocs f) := by
  have same : AvroType.mapDocs f = AvroType.mapData (Option.map f) id := funext (mapDocs_eq f)
  rw [same, nodes_mapData]

theorem AvroType.spelling_mapDocs (f : String → String) (type : AvroType) :
    (type.mapDocs f).spelling = type.spelling := by
  rw [mapDocs_eq, spelling_mapData]

theorem AvroType.mapDocs_mapDocs (f g : String → String) (type : AvroType) :
    (type.mapDocs g).mapDocs f = type.mapDocs (f ∘ g) := by
  induction type using AvroType.induction_parts with
  | whole type ih =>
    cases type with
    | enum type => simp only [mapDocs, Option.map_map]
    | record type =>
      obtain ⟨name, doc, fields⟩ := type
      simp only [mapDocs, mapDocsInRecord, mapDocsInFields_eq, List.map_map, Option.map_map]
      congr 2
      apply List.map_congr_left
      intro field member
      have same := ih field.type (List.mem_map_of_mem member)
      obtain ⟨name, type, doc, default, userDataType⟩ := field
      simp only [Function.comp, mapDocsInField, Option.map_map]
      rw [same]
    | union members =>
      simp only [mapDocs, mapDocsInList_eq, List.map_map]
      congr 1
      exact List.map_congr_left ih
    | map values keyClass javaClass =>
      simp only [mapDocs, ih values (List.mem_singleton.mpr rfl)]
    | array items keyClass javaClass =>
      simp only [mapDocs, ih items (List.mem_singleton.mpr rfl)]
    | _ => rfl

theorem mapDocsInField_mapDocsInField (f g : String → String) (field : Field) :
    mapDocsInField f (mapDocsInField g field) = mapDocsInField (f ∘ g) field := by
  obtain ⟨name, type, doc, default, userDataType⟩ := field
  simp only [mapDocsInField, AvroType.mapDocs_mapDocs, Option.map_map]

namespace Declaration

def mapDocs (f : String → String) : Declaration → Declaration
  | .record type => .record (mapDocsInRecord f type)
  | .enum type => .enum ⟨type.name, type.doc.map f, type.symbols⟩

theorem ofType?_mapDocs (f : String → String) (type : AvroType) :
    ofType? (type.mapDocs f) = (ofType? type).map (mapDocs f) := by
  cases type <;> rfl

end Declaration

theorem definitionsOf_mapDocs (f : String → String) (types : List AvroType) :
    definitionsOf (types.map (AvroType.mapDocs f)) =
      (definitionsOf types).map (Declaration.mapDocs f) := by
  have nodes : nodesOf (types.map (AvroType.mapDocs f)) =
      (nodesOf types).map (AvroType.mapDocs f) := by
    rw [nodesOf, nodesOf, List.flatMap_map, List.map_flatMap]
    exact List.flatMap_congr fun type _ => type.nodes_mapDocs f
  rw [definitionsOf, definitionsOf, nodes, List.filterMap_map, List.map_filterMap]
  exact List.filterMap_congr fun type _ => Declaration.ofType?_mapDocs f type

/-- The texts of the docs that a definition has, its fields included. -/
def Declaration.docs : Declaration → List String
  | .record type => type.doc.toList ++ type.fields.filterMap FieldOf.doc
  | .enum type => type.doc.toList

namespace Schema

def mapDocs (f : String → String) (s : Schema) : Schema :=
  ⟨s.name, s.nameSpace, s.doc.map f, s.fields.map (mapDocsInField f)⟩

/-- The docs of all records and enums in the schema, and of all fields. -/
def docs (s : Schema) : List String :=
  s.definitions.flatMap Declaration.docs

/-- The same types and fields have a doc, and all but the texts of the docs is the same. -/
def SameButDocs (s other : Schema) : Prop :=
  s.mapDocs (fun _ => "") = other.mapDocs fun _ => ""

variable (f : String → String) (s : Schema)

theorem asRecord_mapDocs : (s.mapDocs f).asRecord = mapDocsInRecord f s.asRecord := by
  rw [asRecord, asRecord, mapDocsInRecord, mapDocsInFields_eq]
  rfl

theorem definitions_mapDocs :
    (s.mapDocs f).definitions = s.definitions.map (Declaration.mapDocs f) := by
  rw [definitions_eq, definitions_eq, ← definitionsOf_mapDocs, asRecord_mapDocs]
  rfl

/-- Whatever is put in the place of the docs, all but the docs stays the same. -/
theorem sameButDocs_mapDocs : (s.mapDocs f).SameButDocs s := by
  simp only [SameButDocs, mapDocs, List.map_map, Option.map_map]
  congr 1
  exact List.map_congr_left fun field _ => mapDocsInField_mapDocsInField _ f field

end Schema

end AvroIdl
