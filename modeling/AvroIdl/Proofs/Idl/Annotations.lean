import AvroIdl.Proofs.Idl.Mentions
import AvroIdl.Proofs.Idl.ReadProtocol
import AvroIdl.Proofs.Json.Unquoting

/-
The quoted annotations of a protocol: where each value of a schema stands in the text, and when
what stands between the parentheses denotes it.
-/
set_option autoImplicit false

namespace AvroIdl

namespace Text

/-- One text is part of another, without a gap. -/
def StandsIn (part whole : String) : Prop :=
  ∃ before after, whole = before ++ part ++ after

variable {part whole : String}

theorem standsIn_iff : StandsIn part whole ↔ part.toList <:+: whole.toList := by
  constructor
  · rintro ⟨before, after, rfl⟩
    rw [String.toList_append, String.toList_append]
    exact List.infix_append _ _ _
  · rintro ⟨before, after, same⟩
    refine ⟨String.ofList before, String.ofList after, ?_⟩
    rw [← String.toList_inj, String.toList_append, String.toList_append, String.toList_ofList,
      String.toList_ofList, same]

theorem StandsIn.refl (text : String) : StandsIn text text :=
  standsIn_iff.mpr List.infix_rfl

theorem StandsIn.trans {between : String} (inner : StandsIn part between)
    (outer : StandsIn between whole) : StandsIn part whole :=
  standsIn_iff.mpr ((standsIn_iff.mp inner).trans (standsIn_iff.mp outer))

theorem StandsIn.append_right (stands : StandsIn part whole) (after : String) :
    StandsIn part (whole ++ after) := by
  obtain ⟨before, between, rfl⟩ := stands
  exact ⟨before, between ++ after, String.append_assoc⟩

theorem StandsIn.append_left (stands : StandsIn part whole) (before : String) :
    StandsIn part (before ++ whole) := by
  obtain ⟨between, after, rfl⟩ := stands
  refine ⟨before ++ between, after, ?_⟩
  simp only [String.append_assoc]

theorem standsIn_intercalate {separator : String} {parts : List String} (member : part ∈ parts) :
    StandsIn part (separator.intercalate parts) := by
  rw [standsIn_iff, String.toList_intercalate]
  cases parts with
  | nil => cases member
  | cons first rest =>
    rw [intercalate_map_cons]
    rcases List.mem_cons.mp member with rfl | later
    · exact (List.prefix_append _ _).isInfix
    · obtain ⟨earlier, others, rfl⟩ := List.append_of_mem later
      rw [List.flatMap_append, List.flatMap_cons]
      refine ⟨first.toList ++ (earlier.flatMap (fun other => separator.toList ++ other.toList) ++
        separator.toList), others.flatMap fun other => separator.toList ++ other.toList, ?_⟩
      simp only [List.append_assoc]

end Text

open Text

/-- An argument in its quotes. -/
def quoted (argument : String) : String :=
  "\"" ++ argument ++ "\""

theorem annotationText_eq (key argument : String) :
    annotationText key argument = "@" ++ key ++ "(" ++ quoted argument ++ ")" := by
  rw [quoted, annotationText, ← String.toList_inj]
  simp only [String.toList_append, List.append_assoc]
  rfl

theorem standsIn_hint {key value : String} {hinted : Option String} (given : hinted = some value) :
    StandsIn (annotationText key value) (hint key hinted) := by
  rw [given, hint]
  exact (StandsIn.refl _).append_right " "

namespace AvroType

theorem standsIn_keyClass {type : AvroType} {value : String} (given : type.keyClass = some value) :
    StandsIn (annotationText "java-key-class" value) type.spelling := by
  rw [spelling_eq]
  exact (((standsIn_hint given).append_right _).append_right _).append_right _

theorem standsIn_javaClass {type : AvroType} {value : String}
    (given : type.javaClass = some value) :
    StandsIn (annotationText "java-class" value) type.spelling := by
  rw [spelling_eq]
  exact (((standsIn_hint given).append_left _).append_right _).append_right _

/-- The types in a body are spelled there. -/
theorem standsIn_spelling {type inner : AvroType} (member : inner ∈ type.body.types) :
    StandsIn inner.spelling type.spelling := by
  rw [spelling_eq type]
  apply StandsIn.append_left
  cases body : type.body with
  | nothing =>
    rw [body] at member
    cases member
  | members types =>
    rw [body] at member
    exact ((standsIn_intercalate (List.mem_map_of_mem member)).append_left _).append_right _
  | inside other =>
    rw [body] at member
    cases List.mem_singleton.mp member
    exact ((StandsIn.refl _).append_left _).append_right _

/-- A type inside another is spelled there, or in a field of a record that the other defines. -/
theorem spelled_of_mem_nodes {type node : AvroType} (member : node ∈ type.nodes) :
    StandsIn node.spelling type.spelling ∨
      ∃ record, .record record ∈ type.nodes ∧
        ∃ field ∈ record.fields, StandsIn node.spelling field.type.spelling := by
  induction type using AvroType.induction_parts with
  | whole type ih =>
    have inside : ∀ {part other}, part ∈ type.parts → other ∈ part.nodes → other ∈ type.nodes := by
      intro part other isPart below
      rw [nodes_eq]
      exact List.mem_cons_of_mem _ (mem_nodesOf.mpr ⟨part, isPart, below⟩)
    rw [nodes_eq, List.mem_cons] at member
    rcases member with rfl | below
    · exact .inl (.refl _)
    · obtain ⟨part, isPart, inPart⟩ := mem_nodesOf.mp below
      rcases ih part isPart inPart with spelled | ⟨record, inNodes, field, inRecord, spelled⟩
      · cases type with
        | record record =>
          obtain ⟨field, inRecord, rfl⟩ := List.mem_map.mp isPart
          refine .inr ⟨record, ?_, field, inRecord, spelled⟩
          rw [nodes_eq]
          exact List.mem_cons_self
        | union members | map values keyClass javaClass | array items keyClass javaClass =>
          exact .inl (spelled.trans (standsIn_spelling isPart))
        | _ => cases isPart
      · exact .inr ⟨record, inside isPart inNodes, field, inRecord, spelled⟩

end AvroType

theorem Field.spelling_standsIn_line (field : Field) (level : Nat) :
    StandsIn field.type.spelling (Field.line field level) := by
  refine ⟨docComment field.doc level ++ indent level,
    Field.userDataTypeHint field ++ " " ++ field.name ++ Field.defaultClause field ++ ";", ?_⟩
  simp only [line, String.append_assoc]

theorem Field.userDataType_standsIn_line {field : Field} {value : String}
    (given : field.userDataType = some value) (level : Nat) :
    StandsIn (annotationText "userDataType" value) (Field.line field level) := by
  refine ⟨docComment field.doc level ++ indent level ++ field.type.spelling ++ " ",
    " " ++ field.name ++ Field.defaultClause field ++ ";", ?_⟩
  simp only [line, userDataTypeHint, given, String.append_assoc]

theorem standsIn_recordBody {name : String} {fields : List Field} {field : Field} {level : Nat}
    (member : field ∈ fields) :
    StandsIn (Field.line field (level + 1)) (recordBody name fields level) := by
  have joined : StandsIn (Field.line field (level + 1))
      ("\n".intercalate (fields.map fun field => Field.line field (level + 1))) :=
    standsIn_intercalate (List.mem_map_of_mem member)
  refine joined.trans ⟨indent level ++ "record " ++ name ++ " \x7b\n",
    "\n" ++ indent level ++ "\x7d", ?_⟩
  simp only [recordBody, String.append_assoc]

theorem standsIn_followingBlocks {declarations : List Declaration} {d : Declaration}
    (member : d ∈ declarations) : StandsIn (d.block 0) (Schema.followingBlocks declarations) := by
  cases declarations with
  | nil => cases member
  | cons first rest => exact (standsIn_intercalate (List.mem_map_of_mem member)).append_left _

namespace Schema

/-- A value that the schema gives for an annotation: its namespace, a class of a type in it, or
the data type of a field of a record in it. -/
inductive Annotated (s : Schema) : String → String → Prop
  | nameSpace {value : String} (given : s.nameSpace = some value) : Annotated s "namespace" value
  | javaClass {type : AvroType} {value : String} (inside : type ∈ nodesOf [.record s.asRecord])
      (given : type.javaClass = some value) : Annotated s "java-class" value
  | keyClass {type : AvroType} {value : String} (inside : type ∈ nodesOf [.record s.asRecord])
      (given : type.keyClass = some value) : Annotated s "java-key-class" value
  | userDataType {record : RecordType} {field : Field} {value : String}
      (inside : .record record ∈ nodesOf [.record s.asRecord]) (member : field ∈ record.fields)
      (given : field.userDataType = some value) : Annotated s "userDataType" value

variable {s : Schema}

theorem standsIn_render {record : RecordType} {field : Field}
    (inside : .record record ∈ nodesOf [.record s.asRecord]) (member : field ∈ record.fields) :
    StandsIn (Field.line field 1) s.render := by
  have line : StandsIn (Field.line field 1) (recordBody record.name record.fields 0) :=
    standsIn_recordBody member
  have inBlocks : Declaration.record record ∈ s.blocks := by
    rw [blocks_eq, definitions_eq]
    exact mem_definitionsOf.mpr inside
  rw [render, protocol]
  apply StandsIn.append_right
  rcases List.mem_cons.mp inBlocks with isTop | follows
  · cases isTop
    exact (line.append_left _).append_right _
  · have block : StandsIn (Field.line field 1) (Declaration.block (.record record) 0) :=
      line.append_left _
    exact (block.trans (standsIn_followingBlocks follows)).append_left _

/-- Every type of the schema is spelled in its protocol. -/
theorem spelling_standsIn_render {type : AvroType}
    (inside : type ∈ nodesOf [.record s.asRecord]) : StandsIn type.spelling s.render := by
  rw [nodesOf_cons, nodesOf_nil, List.append_nil] at inside
  rcases AvroType.spelled_of_mem_nodes inside with isTop | ⟨record, inNodes, field, member, spelled⟩
  · have named : StandsIn s.name s.render := by
      rw [standsIn_iff, render, toList_protocol, ← List.append_assoc, ← List.append_assoc]
      exact List.infix_append _ _ _
    exact isTop.trans named
  · have line := spelled.trans (Field.spelling_standsIn_line field 1)
    refine line.trans (standsIn_render ?_ member)
    rwa [nodesOf_cons, nodesOf_nil, List.append_nil]

theorem Annotated.standsIn_render {key value : String} (annotated : s.Annotated key value) :
    StandsIn (annotationText key value) s.render := by
  cases annotated with
  | nameSpace given =>
    have line : StandsIn (annotationText "namespace" value) (nameSpaceLine s.nameSpace) := by
      rw [given, nameSpaceLine]
      exact (StandsIn.refl _).append_right _
    refine line.trans ?_
    rw [standsIn_iff, render, toList_protocol]
    exact (List.prefix_append _ _).isInfix
  | javaClass inside given =>
    exact (AvroType.standsIn_javaClass given).trans (spelling_standsIn_render inside)
  | keyClass inside given =>
    exact (AvroType.standsIn_keyClass given).trans (spelling_standsIn_render inside)
  | userDataType inside member given =>
    exact (Field.userDataType_standsIn_line given 1).trans (Schema.standsIn_render inside member)

/-- Each annotated value stands in the protocol between quotes as it is, which denotes the value
if nothing in it must be escaped, and only then. -/
theorem annotation_denotes_iff (s : Schema) (key value : String)
    (annotated : s.Annotated key value) :
    StandsIn ("@" ++ key ++ "(" ++ quoted value ++ ")") s.render ∧
      (Json.unquote? (quoted value) = some value ↔ ∀ c ∈ value.toList, Json.isPlain c = true) := by
  constructor
  · rw [← annotationText_eq]
    exact annotated.standsIn_render
  · exact Json.unquote?_eq_some_self_iff value

/-- A record with one field, whose data type has a quote in its name. -/
def quotedType : Schema :=
  ⟨"A", none, none, [⟨"f", .int none, none, none, some "a\"b"⟩]⟩

def quotedTypeSource : String :=
  "\x7b\"type\":\"record\",\"name\":\"A\",\"fields\":[" ++
    "\x7b\"name\":\"f\",\"type\":\"int\",\"userDataType\":\"a\\\"b\"\x7d]\x7d"

theorem load_quotedTypeSource (name : String) : load quotedTypeSource name = .ok quotedType := by
  let field : Members :=
    [("name", .string "f"), ("type", .string "int"), ("userDataType", .string "a\"b")]
  let members : Members :=
    [("fields", .array [.object field]), ("name", .string "A"), ("type", .string "record")]
  have read : Json.read quotedTypeSource = .ok (.object members) := rfl
  have first : Load.DescribesField none (.object field)
      ⟨"f", .int none, none, none, some "a\"b"⟩ [] :=
    .mk ⟨rfl, .inl rfl, .none, rfl⟩ rfl (.word rfl)
  have header : Load.Header members none ⟨"A", none⟩ :=
    ⟨⟨"A", none, rfl, .inl rfl, by decide⟩, by decide⟩
  have record : Load.DescribesRecord none members ⟨"A", none⟩ quotedType.asRecord
      [.define ⟨"A", none⟩] :=
    .mk ⟨header, rfl, .inl rfl, by decide⟩ rfl (.cons first .nil)
  rw [load_eq_ok_iff]
  exact ⟨_, _, ⟨[⟨"A", none⟩], []⟩, read, .mk rfl rfl record, ⟨.inl rfl, rfl⟩, rfl⟩

theorem quotedType_annotated : quotedType.Annotated "userDataType" "a\"b" :=
  .userDataType (nodesOf_asRecord _ ▸ List.mem_cons_self) List.mem_cons_self rfl

theorem quotedType_stands_in_quotes :
    StandsIn ("@" ++ "userDataType" ++ "(" ++ quoted "a\"b" ++ ")") quotedType.render ∧
      (Json.unquote? (quoted "a\"b") = some "a\"b" ↔
        ∀ c ∈ "a\"b".toList, Json.isPlain c = true) :=
  annotation_denotes_iff quotedType "userDataType" "a\"b" quotedType_annotated

/-- A text that is accepted, and a value that is printed as a literal which is none. -/
theorem quotedType_is_not_denoted :
    load quotedTypeSource "a.avsc" = .ok quotedType ∧
      quotedType.Annotated "userDataType" "a\"b" ∧
      quotedType.render = "protocol A \x7b\n    record A \x7b\n" ++
        "        int @userDataType(\"a\"b\") f;\n    \x7d\n\x7d\n" ∧
      Json.unquote? "\"a\"b\"" = none := by
  refine ⟨load_quotedTypeSource _, quotedType_annotated, ?_, rfl⟩
  rw [render, Walk.declared_redeclare]
  rfl

end Schema

end AvroIdl
