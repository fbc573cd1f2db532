import AvroIdl.Idl.Block
import AvroIdl.Proofs.Load.Numbers

/-
Fields whose default is a number. The number is loaded and printed as it is written in the source,
but for the spelling of its exponent.
-/
set_option autoImplicit false

namespace AvroIdl

open Json

namespace Schema

/-- The field stands in a record that the schema defines. -/
def Contains (s : Schema) (record : RecordType) (field : Field) : Prop :=
  .record record ∈ nodesOf [.record s.asRecord] ∧ field ∈ record.fields

theorem Contains.mapNumbers {s : Schema} {record : RecordType} {field : Field}
    (contained : s.Contains record field) (f : String → String) :
    (s.mapNumbers f).Contains (RecordType.mapNumbers f record) (Field.mapNumbers f field) := by
  obtain ⟨inside, member⟩ := contained
  constructor
  · have mapped : nodesOf [.record (s.mapNumbers f).asRecord] =
        (nodesOf [.record s.asRecord]).map (AvroType.mapNumbers f) := by
      rw [nodesOf_cons, nodesOf_cons, nodesOf_nil, List.append_nil, List.append_nil,
        asRecord_mapNumbers]
      exact AvroType.nodes_mapData _ _ (.record s.asRecord)
    rw [mapped]
    exact List.mem_map_of_mem inside
  · obtain ⟨name, doc, fields⟩ := record
    rw [RecordType.mapNumbers, mapDataInRecord, mapDataInFields_eq]
    exact List.mem_map_of_mem member

end Schema

namespace Schema

/-- A record with one field, and a default for it. -/
def defaulted (d : Default) : Schema :=
  ⟨"A", none, none, [⟨"f", .int none, none, some d, none⟩]⟩

end Schema

end AvroIdl
