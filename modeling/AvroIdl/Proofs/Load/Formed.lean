import AvroIdl.Proofs.Idl.ReadLiterals
import AvroIdl.Proofs.Json.HeldNumbers
import AvroIdl.Proofs.Load.Document
import AvroIdl.Proofs.Schema.Nodes

/-
How the types of a loaded schema come about: each is made at a position of the document, from
the members that stand there.
-/
set_option autoImplicit false

namespace AvroIdl

theorem DescribesDefault.wellSpelled {json : Json} {value : Default}
    (described : DescribesDefault json value) (spelled : json.WellSpelled) :
    value.WellSpelled := by
  cases described with
  | number spelling => exact spelled
  | text text => exact Json.escaped_escape text
  | _ => trivial

namespace Load

/-- What stands at some position of a text describes the field. -/
def FieldFormed (field : Field) : Prop :=
  ∃ members : Members, Json.MembersSpelled members ∧ FieldShape members field

/-- What stands at some position of a text describes the type, whatever its parts are. -/
def Formed : AvroType → Prop
  | .record type =>
    (∃ members around name, RecordShape members around name type) ∧
      ∀ field ∈ type.fields, FieldFormed field
  | .enum type => ∃ members around name, EnumShape members around name type
  | .union members => members ≠ []
  | .array _ keyClass _ => keyClass = none
  | _ => True

def AllFormed (types : List AvroType) : Prop :=
  ∀ node ∈ nodesOf types, Formed node

theorem allFormed_nil : AllFormed [] :=
  fun _ member => absurd member List.not_mem_nil

theorem AllFormed.append {types others : List AvroType} (first : AllFormed types)
    (second : AllFormed others) : AllFormed (types ++ others) := by
  intro node member
  rw [nodesOf_append] at member
  rcases List.mem_append.mp member with inFirst | inSecond
  · exact first node inFirst
  · exact second node inSecond

theorem allFormed_around {type : AvroType} (here : Formed type) (inside : AllFormed type.parts) :
    AllFormed [type] := by
  intro node member
  rw [nodesOf_cons, nodesOf_nil, List.append_nil, AvroType.nodes_eq] at member
  rcases List.mem_cons.mp member with rfl | below
  · exact here
  · exact inside node below

theorem allFormed_primitive (word : String) (javaClass : Option String) :
    AllFormed [(primitive? word javaClass).getD .null] := by
  fun_cases primitive? word javaClass <;> exact allFormed_around trivial allFormed_nil

theorem allFormed_of_primitive? {word : String} {javaClass : Option String} {type : AvroType}
    (primitive : primitive? word javaClass = some type) : AllFormed [type] := by
  have formed := allFormed_primitive word javaClass
  rwa [primitive] at formed

theorem DescribesAll.types_ne_nil {around : Option String} {items : List Json}
    {types : List AvroType} {steps : List Step} (described : DescribesAll around items types steps)
    (nonempty : items ≠ []) : types ≠ [] := by
  cases described with
  | nil => exact absurd rfl nonempty
  | cons head tail => exact List.cons_ne_nil _ _

mutual

theorem Describes.formed {around : Option String} {json : Json} {type : AvroType}
    {steps : List Step} : Describes around json type steps → json.WellSpelled → AllFormed [type]
  | .word primitive, _ => allFormed_of_primitive? primitive
  | .reference _ _, _ => allFormed_around trivial allFormed_nil
  | .union nonempty all, spelled =>
    allFormed_around (all.types_ne_nil nonempty) (all.formed spelled)
  | .wrapped found _ described, spelled => described.formed (Json.MembersSpelled.get? spelled found)
  | .tagged _ _ described, spelled => described.formed spelled

theorem DescribesTagged.formed {kind : Kind} {tag : String} {around : Option String}
    {members : Members} {type : AvroType} {steps : List Step} :
    DescribesTagged kind tag around members type steps → Json.MembersSpelled members →
      AllFormed [type]
  | .record described, spelled => described.formed spelled
  | .enum shape, _ => allFormed_around ⟨_, _, _, shape⟩ allFormed_nil
  | .array found described _, spelled =>
    allFormed_around rfl (described.formed (spelled.get? found))
  | .map found described _ _, spelled =>
    allFormed_around trivial (described.formed (spelled.get? found))
  | .primitive _, _ => allFormed_primitive _ _

theorem DescribesAll.formed {around : Option String} {items : List Json} {types : List AvroType}
    {steps : List Step} :
    DescribesAll around items types steps → Json.ItemsSpelled items → AllFormed types
  | .nil, _ => allFormed_nil
  | .cons head tail, spelled => (head.formed spelled.1).append (tail.formed spelled.2)

theorem DescribesRecord.formed {around : Option String} {members : Members} {name : TypeName}
    {type : RecordType} {steps : List Step} :
    DescribesRecord around members name type steps → Json.MembersSpelled members →
      AllFormed [.record type]
  | .mk shape found all, spelled =>
    have inside := all.formed (spelled.get? found)
    allFormed_around ⟨⟨_, _, _, shape⟩, inside.1⟩ inside.2

theorem DescribesFields.formed {around : Option String} {items : List Json} {fields : List Field}
    {steps : List Step} :
    DescribesFields around items fields steps → Json.ItemsSpelled items →
      (∀ field ∈ fields, FieldFormed field) ∧ AllFormed (fields.map FieldOf.type)
  | .nil, _ => ⟨fun _ member => absurd member List.not_mem_nil, allFormed_nil⟩
  | .cons head tail, spelled =>
    have first := head.formed spelled.1
    have others := tail.formed spelled.2
    ⟨List.forall_mem_cons.mpr ⟨first.1, others.1⟩, first.2.append others.2⟩

theorem DescribesField.formed {around : Option String} {json : Json} {field : Field}
    {steps : List Step} :
    DescribesField around json field steps → json.WellSpelled →
      FieldFormed field ∧ AllFormed [field.type]
  | .mk shape found described, spelled =>
    ⟨⟨_, spelled, shape⟩, described.formed (Json.MembersSpelled.get? spelled found)⟩

end

theorem DescribesSchema.formed {json : Json} {s : Schema} {steps : List Step}
    (described : DescribesSchema json s steps) (spelled : json.WellSpelled) :
    AllFormed [.record s.asRecord] := by
  cases described with
  | mk _ _ described => exact described.formed spelled

theorem FieldFormed.default {field : Field} (formed : FieldFormed field) :
    ∀ value ∈ field.default, value.WellSpelled := by
  obtain ⟨members, spelled, shape⟩ := formed
  intro value given
  have described := shape.default
  rw [given] at described
  cases found : Members.get? members "default" with
  | none =>
    rw [found] at described
    cases described
  | some json =>
    rw [found] at described
    cases described with
    | some described => exact described.wellSpelled (spelled.get? found)

end Load

theorem Schema.formed_of_load {source name : String} {s : Schema}
    (loaded : load source name = .ok s) : Load.AllFormed [.record s.asRecord] := by
  obtain ⟨json, steps, t, read, described, -⟩ := (load_eq_ok_iff source name s).mp loaded
  exact described.formed (Json.wellSpelled_of_read read)

end AvroIdl
