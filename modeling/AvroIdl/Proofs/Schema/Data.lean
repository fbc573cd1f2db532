import AvroIdl.Idl.Spelling
import AvroIdl.Proofs.Schema.Nodes
import Mathlib.Data.List.Basic

/-
What a schema says of its types and fields besides what they are: docs, and defaults. Types whose
data are replaced have the same parts, and are spelled in the same way.
-/
set_option autoImplicit false

namespace AvroIdl

mutual

/-- The type with other docs and other defaults. -/
def AvroType.mapData (onDoc : Option String → Option String)
    (onDefault : Option Default → Option Default) : AvroType → AvroType
  | .enum type => .enum ⟨type.name, onDoc type.doc, type.symbols⟩
  | .record type => .record (mapDataInRecord onDoc onDefault type)
  | .union members => .union (mapDataInList onDoc onDefault members)
  | .map values keyClass javaClass => .map (values.mapData onDoc onDefault) keyClass javaClass
  | .array items keyClass javaClass => .array (items.mapData onDoc onDefault) keyClass javaClass
  | .null => .null
  | .int javaClass => .int javaClass
  | .long javaClass => .long javaClass
  | .string javaClass => .string javaClass
  | .boolean javaClass => .boolean javaClass
  | .reference name => .reference name

def mapDataInList (onDoc : Option String → Option String)
    (onDefault : Option Default → Option Default) : List AvroType → List AvroType
  | [] => []
  | type :: rest => type.mapData onDoc onDefault :: mapDataInList onDoc onDefault rest

def mapDataInRecord (onDoc : Option String → Option String)
    (onDefault : Option Default → Option Default) : RecordOf AvroType → RecordOf AvroType
  | ⟨name, doc, fields⟩ => ⟨name, onDoc doc, mapDataInFields onDoc onDefault fields⟩

def mapDataInFields (onDoc : Option String → Option String)
    (onDefault : Option Default → Option Default) :
    List (FieldOf AvroType) → List (FieldOf AvroType)
  | [] => []
  | field :: rest => mapDataInField onDoc onDefault field :: mapDataInFields onDoc onDefault rest

def mapDataInField (onDoc : Option String → Option String)
    (onDefault : Option Default → Option Default) : FieldOf AvroType → FieldOf AvroType
  | ⟨name, type, doc, default, userDataType⟩ =>
    ⟨name, type.mapData onDoc onDefault, onDoc doc, onDefault default, userDataType⟩

end

variable (onDoc : Option String → Option String) (onDefault : Option Default → Option Default)

theorem mapDataInList_eq (types : List AvroType) :
    mapDataInList onDoc onDefault types = types.map (AvroType.mapData onDoc onDefault) := by
  induction types with
  | nil => rfl
  | cons type rest ih => rw [mapDataInList, ih, List.map_cons]

theorem mapDataInFields_eq (fields : List Field) :
    mapDataInFields onDoc onDefault fields = fields.map (mapDataInField onDoc onDefault) := by
  induction fields with
  | nil => rfl
  | cons field rest ih => rw [mapDataInFields, ih, List.map_cons]

theorem type_mapDataInField (field : Field) :
    (mapDataInField onDoc onDefault field).type = field.type.mapData onDoc onDefault := by
  cases field
  rfl

namespace AvroType

theorem parts_mapData (type : AvroType) :
    (type.mapData onDoc onDefault).parts = type.parts.map (mapData onDoc onDefault) := by
  cases type with
  | record type =>
    obtain ⟨name, doc, fields⟩ := type
    simp only [mapData, mapDataInRecord, parts, RecordType.fieldTypes, mapDataInFields_eq,
      List.map_map]
    exact List.map_congr_left fun field _ => type_mapDataInField onDoc onDefault field
  | union members => rw [mapData, mapDataInList_eq, parts, parts]
  | _ => rfl

theorem nodes_mapData (type : AvroType) :
    (type.mapData onDoc onDefault).nodes = type.nodes.map (mapData onDoc onDefault) := by
  induction type using AvroType.induction_parts with
  | whole type ih =>
    rw [nodes_eq, nodes_eq type, parts_mapData, List.map_cons, nodesOf, nodesOf, List.flatMap_map,
      List.map_flatMap]
    congr 1
    exact List.flatMap_congr fun part member => ih part member

theorem spelling_mapData (type : AvroType) :
    (type.mapData onDoc onDefault).spelling = type.spelling := by
  induction type using AvroType.induction_parts with
  | whole type ih =>
    cases type with
    | record type =>
      obtain ⟨name, doc, fields⟩ := type
      rfl
    | union members =>
      rw [mapData, mapDataInList_eq, spelling, spelling, spellings_eq_map, spellings_eq_map,
        List.map_map]
      congr 3
      exact List.map_congr_left ih
    | map values keyClass javaClass =>
      rw [mapData, spelling, spelling, ih values (List.mem_singleton.mpr rfl)]
    | array items keyClass javaClass =>
      rw [mapData, spelling, spelling, ih items (List.mem_singleton.mpr rfl)]
    | _ => rfl

end AvroType

end AvroIdl
