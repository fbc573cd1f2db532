import AvroIdl.Proofs.Json.ReadText
import AvroIdl.Proofs.Load.Acceptance
import AvroIdl.Proofs.Schema.Data

/-
Numbers in defaults. A document whose numbers are spelled in another way describes the same
schema, but for the number defaults; so a source is loaded as what it describes with the numbers
as they are kept.
-/
set_option autoImplicit false

namespace AvroIdl

open Json

/-- The default with its number, if it is one, spelled in another way. -/
def Default.mapNumber (f : String → String) : Default → Default
  | .number spelling => .number (f spelling)
  | d => d

/-- The type with the numbers in its defaults spelled in another way. -/
def AvroType.mapNumbers (f : String → String) : AvroType → AvroType :=
  mapData id (Option.map (Default.mapNumber f))

def Field.mapNumbers (f : String → String) (field : Field) : Field :=
  mapDataInField id (Option.map (Default.mapNumber f)) field

def RecordType.mapNumbers (f : String → String) (type : RecordType) : RecordType :=
  mapDataInRecord id (Option.map (Default.mapNumber f)) type

def Schema.mapNumbers (f : String → String) (s : Schema) : Schema :=
  ⟨s.name, s.nameSpace, s.doc, mapDataInFields id (Option.map (Default.mapNumber f)) s.fields⟩

variable (f : String → String)

theorem Schema.asRecord_mapNumbers (s : Schema) :
    (s.mapNumbers f).asRecord = RecordType.mapNumbers f s.asRecord := rfl

theorem Json.text?_mapNumbers (json : Json) : (json.mapNumbers f).text? = json.text? := by
  cases json <;> rfl

theorem Json.mapNumbersInItems_strings (texts : List String) :
    mapNumbersInItems f (texts.map .string) = texts.map .string := by
  induction texts with
  | nil => rfl
  | cons text rest ih => rw [List.map_cons, mapNumbersInItems, ih, mapNumbers]

theorem Members.get?_mapNumbers {members : Members} {key : String} {json : Json}
    (found : members.get? key = some json) :
    Members.get? (mapNumbersInMembers f members) key = some (json.mapNumbers f) := by
  rw [get?_mapNumbersInMembers, found, Option.map_some]

theorem Members.Gives.mapNumbers {members : Members} {key : String} {text : Option String}
    (gives : members.Gives key text) : Members.Gives (mapNumbersInMembers f members) key text := by
  cases text with
  | some text => exact Members.get?_mapNumbers f gives
  | none =>
    refine gives.imp (fun missing => ?_) (fun null => Members.get?_mapNumbers f null)
    rw [get?_mapNumbersInMembers, missing, Option.map_none]

theorem DescribesDefault.mapNumber {json : Json} {d : Default}
    (described : DescribesDefault json d) :
    DescribesDefault (json.mapNumbers f) (d.mapNumber f) := by
  cases described <;> constructor

theorem rel_mapNumber {found : Option Json} {default : Option Default}
    (described : Option.Rel DescribesDefault found default) :
    Option.Rel DescribesDefault (found.map (Json.mapNumbers f))
      (default.map (Default.mapNumber f)) := by
  cases described with
  | none => exact .none
  | some described => exact .some (described.mapNumber f)

theorem AvroType.mapNumbers_of_primitive? {word : String} {javaClass : Option String}
    {type : AvroType} (primitive : Load.primitive? word javaClass = some type) :
    type.mapNumbers f = type := by
  revert primitive
  fun_cases Load.primitive? word javaClass <;> rintro ⟨⟩ <;> rfl

namespace Load

theorem Header.mapNumbers {members : Members} {around : Option String} {name : TypeName}
    (header : Header members around name) : Header (mapNumbersInMembers f members) around name := by
  obtain ⟨⟨raw, given, named, gives, spelled⟩, nonempty⟩ := header
  exact ⟨⟨raw, given, Members.get?_mapNumbers f named, gives.mapNumbers f, spelled⟩, nonempty⟩

theorem EnumShape.mapNumbers {members : Members} {around : Option String} {name : TypeName}
    {type : EnumType} (shape : EnumShape members around name type) :
    EnumShape (mapNumbersInMembers f members) around name type := by
  refine ⟨shape.header.mapNumbers f, shape.named, shape.doc.mapNumbers f, ?_, shape.distinct⟩
  rw [Members.get?_mapNumbers f shape.symbols, Json.mapNumbers, mapNumbersInItems_strings]

theorem RecordShape.mapNumbers {members : Members} {around : Option String} {name : TypeName}
    {type : RecordType} (shape : RecordShape members around name type) :
    RecordShape (mapNumbersInMembers f members) around name (RecordType.mapNumbers f type) := by
  obtain ⟨simple, doc, fields⟩ := type
  refine ⟨shape.header.mapNumbers f, shape.named, shape.doc.mapNumbers f, ?_⟩
  have names : (mapDataInFields id (Option.map (Default.mapNumber f)) fields).map FieldOf.name =
      fields.map FieldOf.name := by
    rw [mapDataInFields_eq, List.map_map]
    exact List.map_congr_left fun field _ => by cases field; rfl
  rw [RecordType.mapNumbers, mapDataInRecord, names]
  exact shape.distinct

theorem FieldShape.mapNumbers {members : Members} {field : Field}
    (shape : FieldShape members field) :
    FieldShape (mapNumbersInMembers f members) (Field.mapNumbers f field) := by
  obtain ⟨name, type, doc, default, userDataType⟩ := field
  refine ⟨Members.get?_mapNumbers f shape.named, shape.doc.mapNumbers f, ?_,
    shape.userDataType.mapNumbers f⟩
  rw [get?_mapNumbersInMembers, Field.mapNumbers, mapDataInField]
  exact rel_mapNumber f shape.default

theorem mapNumbers_annotated (tag : String) (javaClass : Option String) :
    ((primitive? tag javaClass).getD .null).mapNumbers f =
      (primitive? tag javaClass).getD .null := by
  cases primitive : primitive? tag javaClass with
  | none => rfl
  | some type => exact AvroType.mapNumbers_of_primitive? f primitive

mutual

/-- With its numbers in another spelling a value describes the same type, but for the numbers in
its defaults. -/
theorem Describes.mapNumbers {around : Option String} {json : Json} {type : AvroType}
    {steps : List Step} : Describes around json type steps →
      ∃ others, Describes around (json.mapNumbers f) (type.mapNumbers f) others ∧
        SameNames steps others
  | .word primitive => ⟨[], by
      rw [AvroType.mapNumbers_of_primitive? f primitive]
      exact .word primitive, rfl⟩
  | .reference other supported => ⟨_, .reference other supported, rfl⟩
  | .union nonempty all => by
    obtain ⟨others, described, same⟩ := all.mapNumbers
    refine ⟨others, .union ?_ described, same⟩
    cases all with
    | nil => exact absurd rfl nonempty
    | cons => exact List.cons_ne_nil _ _
  | .wrapped found untagged described => by
    obtain ⟨others, described, same⟩ := described.mapNumbers
    refine ⟨others, .wrapped (Members.get?_mapNumbers f found) ?_ described, same⟩
    rw [Json.text?_mapNumbers, untagged]
  | .tagged found known described => by
    obtain ⟨others, described, same⟩ := described.mapNumbers
    exact ⟨others, .tagged (Members.get?_mapNumbers f found) known described, same⟩

theorem DescribesTagged.mapNumbers {kind : Kind} {tag : String} {around : Option String}
    {members : Members} {type : AvroType} {steps : List Step} :
    DescribesTagged kind tag around members type steps →
      ∃ others, DescribesTagged kind tag around (mapNumbersInMembers f members)
        (type.mapNumbers f) others ∧ SameNames steps others
  | .record described => by
    obtain ⟨others, described, same⟩ := described.mapNumbers
    exact ⟨others, .record described, same⟩
  | .enum shape => ⟨_, .enum (shape.mapNumbers f), rfl⟩
  | .array found described hinted => by
    obtain ⟨others, described, same⟩ := described.mapNumbers
    exact ⟨_, .array (Members.get?_mapNumbers f found) described (hinted.mapNumbers f),
      same.append (sameNames_warnings _ _)⟩
  | .map found described keyed hinted => by
    obtain ⟨others, described, same⟩ := described.mapNumbers
    exact ⟨_, .map (Members.get?_mapNumbers f found) described (keyed.mapNumbers f)
      (hinted.mapNumbers f), same⟩
  | .primitive hinted => by
    refine ⟨warnings (logicalTypeWarning (mapNumbersInMembers f members) tag), ?_,
      sameNames_warnings _ _⟩
    rw [mapNumbers_annotated]
    exact .primitive (hinted.mapNumbers f)

theorem DescribesAll.mapNumbers {around : Option String} {items : List Json}
    {types : List AvroType} {steps : List Step} : DescribesAll around items types steps →
      ∃ others, DescribesAll around (mapNumbersInItems f items)
        (mapDataInList id (Option.map (Default.mapNumber f)) types) others ∧ SameNames steps others
  | .nil => ⟨[], .nil, rfl⟩
  | .cons head tail => by
    obtain ⟨first, described, same⟩ := head.mapNumbers
    obtain ⟨rest, describedRest, sameRest⟩ := tail.mapNumbers
    exact ⟨first ++ rest, .cons described describedRest, same.append sameRest⟩

theorem DescribesRecord.mapNumbers {around : Option String} {members : Members} {name : TypeName}
    {type : RecordType} {steps : List Step} : DescribesRecord around members name type steps →
      ∃ others, DescribesRecord around (mapNumbersInMembers f members) name
        (RecordType.mapNumbers f type) others ∧ SameNames steps others
  | .mk shape found all => by
    obtain ⟨others, described, same⟩ := all.mapNumbers
    have shape' := shape.mapNumbers f
    obtain ⟨simple, doc, fields⟩ := type
    exact ⟨_, .mk shape' (Members.get?_mapNumbers f found) described,
      same.define name⟩

theorem DescribesFields.mapNumbers {around : Option String} {items : List Json}
    {fields : List Field} {steps : List Step} : DescribesFields around items fields steps →
      ∃ others, DescribesFields around (mapNumbersInItems f items)
        (mapDataInFields id (Option.map (Default.mapNumber f)) fields) others ∧
        SameNames steps others
  | .nil => ⟨[], .nil, rfl⟩
  | .cons head tail => by
    obtain ⟨first, described, same⟩ := head.mapNumbers
    obtain ⟨rest, describedRest, sameRest⟩ := tail.mapNumbers
    exact ⟨first ++ rest, .cons described describedRest, same.append sameRest⟩

theorem DescribesField.mapNumbers {around : Option String} {json : Json} {field : Field}
    {steps : List Step} : DescribesField around json field steps →
      ∃ others, DescribesField around (json.mapNumbers f) (Field.mapNumbers f field) others ∧
        SameNames steps others
  | .mk shape found described => by
    obtain ⟨others, described, same⟩ := described.mapNumbers
    have shape' := shape.mapNumbers f
    obtain ⟨name, type, doc, default, userDataType⟩ := field
    exact ⟨others, .mk shape' (Members.get?_mapNumbers f found) described, same⟩

end

theorem DescribesSchema.mapNumbers {json : Json} {s : Schema} {steps : List Step}
    (described : DescribesSchema json s steps) :
    ∃ others, DescribesSchema (json.mapNumbers f) (s.mapNumbers f) others ∧
      SameNames steps others := by
  cases described with
  | @mk members tag name type steps found known described =>
    obtain ⟨others, described, same⟩ := described.mapNumbers f
    obtain ⟨simple, doc, fields⟩ := type
    exact ⟨others, .mk (Members.get?_mapNumbers f found) known described, same⟩

end Load

end AvroIdl
