import AvroIdl.Proofs.Load.Steps

/-
The documents that describe a schema. Each position is judged by itself, and what it does
to the names that are defined stands in its list of steps.
-/
set_option autoImplicit false

namespace AvroIdl

/-- A member that is missing or null gives no text. -/
def Members.Gives (members : Members) (key : String) : Option String → Prop
  | none => members.get? key = none ∨ members.get? key = some .null
  | some text => members.get? key = some (.string text)

/-- The default of a field: a scalar, or an empty list or object. -/
inductive DescribesDefault : Json → Default → Prop
  | null : DescribesDefault .null .null
  | bool (b : Bool) : DescribesDefault (.bool b) (.bool b)
  | number (spelling : String) : DescribesDefault (.number spelling) (.number spelling)
  | text (text : String) : DescribesDefault (.string text) (.text (Json.escape text))
  | emptyMap : DescribesDefault (.object []) .emptyMap
  | emptyArray : DescribesDefault (.array []) .emptyArray

namespace Load

/-- The namespace of a definition is the one given, else what stands before the last dot of
its name, else the one around it. -/
structure Header (members : Members) (around : Option String) (name : TypeName) : Prop where
  spelled : ∃ raw given, members.get? "name" = some (.string raw) ∧
    members.Gives "namespace" given ∧
    name = ⟨(TypeName.ofDotted raw).simple,
      (given <|> (TypeName.ofDotted raw).nameSpace <|> around).filter (· ≠ "")⟩
  nonempty : name.simple ≠ ""

theorem Header.plain {members : Members} {around : Option String} {name : TypeName}
    (header : Header members around name) : isDotted name.simple = false := by
  obtain ⟨raw, given, -, -, rfl⟩ := header.spelled
  exact TypeName.isDotted_simple_ofDotted raw

structure EnumShape (members : Members) (around : Option String) (name : TypeName)
    (type : EnumType) : Prop where
  header : Header members around name
  named : type.name = name.simple
  doc : members.Gives "doc" type.doc
  symbols : members.get? "symbols" = some (.array (type.symbols.map Json.string))
  distinct : type.symbols.Nodup

/-- What a record needs besides the shapes of its fields. -/
structure RecordShape (members : Members) (around : Option String) (name : TypeName)
    (type : RecordType) : Prop where
  header : Header members around name
  named : type.name = name.simple
  doc : members.Gives "doc" type.doc
  distinct : (type.fields.map FieldOf.name).Nodup

/-- What a field needs besides the shape of its type. -/
structure FieldShape (members : Members) (field : Field) : Prop where
  named : members.get? "name" = some (.string field.name)
  doc : members.Gives "doc" field.doc
  default : Option.Rel DescribesDefault (members.get? "default") field.default
  userDataType : members.Gives "userDataType" field.userDataType

/-- Key classes belong to maps. -/
def keyClassWarning (members : Members) : Option Warning :=
  (members.get? "java-key-class").map .keyClassOnArray

def logicalTypeWarning (members : Members) (tag : String) : Option Warning :=
  (text? members "logicalType").map (.logicalType · tag)

/-- The step of a warning, if there is one to give. -/
def warnings (w : Option Warning) : List Step :=
  (w.map .warn).toList

mutual

/-- The value describes the type in the namespace `around`, by these steps. -/
inductive Describes : Option String → Json → AvroType → List Step → Prop
  | word {around : Option String} {name : String} {type : AvroType}
      (primitive : primitive? name none = some type) :
      Describes around (.string name) type []
  | reference {around : Option String} {name : String} (other : primitive? name none = none)
      (supported : name ∉ unsupported) :
      Describes around (.string name) (.reference name) [.mention name around]
  | union {around : Option String} {items : List Json} {types : List AvroType}
      {steps : List Step} (nonempty : items ≠ []) (all : DescribesAll around items types steps) :
      Describes around (.array items) (.union types) steps
  | wrapped {around : Option String} {members : Members} {inner : Json} {type : AvroType}
      {steps : List Step} (found : members.get? "type" = some inner) (untagged : inner.text? = none)
      (described : Describes around inner type steps) :
      Describes around (.object members) type steps
  | tagged {around : Option String} {members : Members} {tag : String} {kind : Kind}
      {type : AvroType} {steps : List Step} (found : members.get? "type" = some (.string tag))
      (known : kind? tag = some kind)
      (described : DescribesTagged kind tag around members type steps) :
      Describes around (.object members) type steps

/-- The object describes the type by its other members, if it has this tag. -/
inductive DescribesTagged :
    Kind → String → Option String → Members → AvroType → List Step → Prop
  | record {tag : String} {around : Option String} {members : Members} {name : TypeName}
      {type : RecordType} {steps : List Step}
      (described : DescribesRecord around members name type steps) :
      DescribesTagged .record tag around members (.record type) steps
  | enum {tag : String} {around : Option String} {members : Members} {name : TypeName}
      {type : EnumType} (shape : EnumShape members around name type) :
      DescribesTagged .enum tag around members (.enum type) [.define name]
  | array {tag : String} {around : Option String} {members : Members} {json : Json}
      {items : AvroType} {javaClass : Option String} {steps : List Step}
      (found : members.get? "items" = some json) (described : Describes around json items steps)
      (hinted : members.Gives "java-class" javaClass) :
      DescribesTagged .array tag around members (.array items none javaClass)
        (steps ++ warnings (keyClassWarning members))
  | map {tag : String} {around : Option String} {members : Members} {json : Json}
      {values : AvroType} {keyClass javaClass : Option String} {steps : List Step}
      (found : members.get? "values" = some json) (described : Describes around json values steps)
      (keyed : members.Gives "java-key-class" keyClass)
      (hinted : members.Gives "java-class" javaClass) :
      DescribesTagged .map tag around members (.map values keyClass javaClass) steps
  | primitive {tag : String} {around : Option String} {members : Members}
      {javaClass : Option String} (hinted : members.Gives "java-class" javaClass) :
      DescribesTagged .primitive tag around members ((primitive? tag javaClass).getD .null)
        (warnings (logicalTypeWarning members tag))

inductive DescribesAll : Option String → List Json → List AvroType → List Step → Prop
  | nil {around : Option String} : DescribesAll around [] [] []
  | cons {around : Option String} {json : Json} {items : List Json} {type : AvroType}
      {types : List AvroType} {first rest : List Step} (head : Describes around json type first)
      (tail : DescribesAll around items types rest) :
      DescribesAll around (json :: items) (type :: types) (first ++ rest)

/-- The name is defined before the fields are read. -/
inductive DescribesRecord :
    Option String → Members → TypeName → RecordType → List Step → Prop
  | mk {around : Option String} {members : Members} {name : TypeName} {type : RecordType}
      {items : List Json} {steps : List Step} (shape : RecordShape members around name type)
      (found : members.get? "fields" = some (.array items))
      (all : DescribesFields name.nameSpace items type.fields steps) :
      DescribesRecord around members name type (.define name :: steps)

inductive DescribesFields : Option String → List Json → List Field → List Step → Prop
  | nil {around : Option String} : DescribesFields around [] [] []
  | cons {around : Option String} {json : Json} {items : List Json} {field : Field}
      {fields : List Field} {first rest : List Step} (head : DescribesField around json field first)
      (tail : DescribesFields around items fields rest) :
      DescribesFields around (json :: items) (field :: fields) (first ++ rest)

inductive DescribesField : Option String → Json → Field → List Step → Prop
  | mk {around : Option String} {members : Members} {json : Json} {field : Field}
      {steps : List Step} (shape : FieldShape members field)
      (found : members.get? "type" = some json)
      (described : Describes around json field.type steps) :
      DescribesField around (.object members) field steps

end

/-- A document describes a schema by a record outside of any namespace. -/
inductive DescribesSchema : Json → Schema → List Step → Prop
  | mk {members : Members} {tag : String} {name : TypeName} {type : RecordType}
      {steps : List Step} (found : members.get? "type" = some (.string tag))
      (known : kind? tag = some .record)
      (described : DescribesRecord none members name type steps) :
      DescribesSchema (.object members) ⟨type.name, name.nameSpace, type.doc, type.fields⟩ steps

end Load

end AvroIdl
