import AvroIdl.Proofs.Idl.Mentions
import AvroIdl.Proofs.Idl.ReadProtocol
import AvroIdl.Proofs.Idl.Recovery
import AvroIdl.Proofs.Load.Sound

/-
A protocol determines the schema that it was made from, for schemas whose names and texts
cannot be taken for signs of the language.
-/
set_option autoImplicit false

namespace AvroIdl

/-- A letter or underscore, then letters, digits and underscores. -/
def isIdentifier (text : String) : Bool :=
  match text.toList with
  | [] => false
  | first :: rest => (first.isAlpha || first == '_') && rest.all fun c => c.isAlphanum || c == '_'

/-- Identifiers with a dot between one and the next. -/
def IsNameSpace (text : String) : Prop :=
  ∃ parts : List String, parts ≠ [] ∧ (∀ part ∈ parts, isIdentifier part = true) ∧
    text = ".".intercalate parts

/-- The name of a record or enum is not a word that has a meaning of its own. -/
def IsTypeName (name : String) : Prop :=
  isIdentifier name = true ∧ name ∉ keywords

structure Field.Plain (field : Field) : Prop where
  name : isIdentifier field.name = true
  doc : ∀ text ∈ field.doc, Unclosed text
  userDataType : Unquoted field.userDataType

/-- Names are identifiers, docs do not end comments, and hints have no quotes. -/
def AvroType.Plain : AvroType → Prop
  | .record type =>
    IsTypeName type.name ∧ (∀ text ∈ type.doc, Unclosed text) ∧
      ∀ field ∈ type.fields, Field.Plain field
  | .enum type =>
    IsTypeName type.name ∧ (∀ text ∈ type.doc, Unclosed text) ∧
      ∀ symbol ∈ type.symbols, isIdentifier symbol = true
  | .int javaClass | .long javaClass | .string javaClass | .boolean javaClass => Unquoted javaClass
  | .map _ keyClass javaClass | .array _ keyClass javaClass =>
    Unquoted keyClass ∧ Unquoted javaClass
  | .null | .union _ | .reference _ => True

structure Schema.Plain (s : Schema) : Prop where
  nameSpace : ∀ text ∈ s.nameSpace, IsNameSpace text
  types : ∀ type ∈ nodesOf [.record s.asRecord], type.Plain

theorem isWord_of_isIdentifier {text : String} (identifier : isIdentifier text = true) :
    IsWord text := by
  rw [isIdentifier] at identifier
  split at identifier
  · cases identifier
  · rename_i first rest chars
    rw [Bool.and_eq_true, List.all_eq_true] at identifier
    refine ⟨?_, ?_⟩
    · rintro rfl
      cases chars
    · intro c member
      apply isWordChar_of_alphanum
      rw [chars, List.mem_cons] at member
      simp only [Char.isAlphanum, Bool.or_eq_true] at identifier ⊢
      rcases member with rfl | inRest
      · exact .inl (identifier.1.imp_left .inl)
      · exact .inl (identifier.2 c inRest)

theorem IsTypeName.isTypeWord {name : String} (typeName : IsTypeName name) : IsTypeWord name :=
  ⟨isWord_of_isIdentifier typeName.1, typeName.2⟩

theorem IsNameSpace.only {text : String} (nameSpace : IsNameSpace text) :
    ∀ c ∈ text.toList, isWordChar c = true := by
  obtain ⟨parts, nonempty, identifiers, rfl⟩ := nameSpace
  have words : ∀ part ∈ parts, ∀ c ∈ part.toList, isWordChar c = true := fun part member =>
    (isWord_of_isIdentifier (identifiers part member)).2
  cases parts with
  | nil => exact absurd rfl nonempty
  | cons first others =>
    rw [List.forall_mem_cons] at words
    rw [String.toList_intercalate, intercalate_map_cons]
    intro c member
    rcases List.mem_append.mp member with inFirst | inOthers
    · exact words.1 c inFirst
    · obtain ⟨other, found, inside⟩ := List.mem_flatMap.mp inOthers
      rcases List.mem_append.mp inside with isDot | inOther
      · rw [List.mem_singleton.mp isDot]
        rfl
      · exact words.2 other found c inOther

theorem IsNameSpace.unquoted {text : String} (nameSpace : IsNameSpace text) :
    '"' ∉ text.toList := by
  intro member
  exact absurd (nameSpace.only _ member) (by decide)

/-- A full name has a dot, which no keyword has. -/
theorem isTypeWord_full {simple nameSpace : String} (isWord : IsWord simple)
    (inNameSpace : IsNameSpace nameSpace) :
    IsTypeWord (TypeName.full ⟨simple, some nameSpace⟩) := by
  have undotted : ∀ word ∈ keywords, '.' ∉ word.toList := by decide
  have dotted : '.' ∈ (TypeName.full ⟨simple, some nameSpace⟩).toList := by
    simp [TypeName.full]
  refine ⟨⟨?_, ?_⟩, fun keyword => undotted _ keyword dotted⟩
  · intro empty
    rw [empty] at dotted
    cases dotted
  · intro c member
    simp only [TypeName.full, String.toList_append, List.mem_append] at member
    rcases member with (inSpace | isDot) | inSimple
    · exact inNameSpace.only c inSpace
    · rw [List.mem_singleton.mp isDot]
      rfl
    · exact isWord.2 c inSimple

namespace AvroType

/-- A type is legible if all types in it are, each by itself. -/
theorem Legible.of_nodes {type : AvroType} (plain : ∀ node ∈ type.nodes, node.Plain)
    (references : ∀ name, .reference name ∈ type.nodes → IsTypeWord name) : type.Legible := by
  induction type using AvroType.induction_parts with
  | whole type ih =>
    have inside : ∀ part ∈ type.parts, ∀ node ∈ part.nodes, node ∈ type.nodes := by
      intro part member node inPart
      rw [nodes_eq type]
      exact List.mem_cons_of_mem _ (mem_nodesOf.mpr ⟨part, member, inPart⟩)
    have parts : ∀ part ∈ type.parts, part.Legible := fun part member =>
      ih part member (fun node inPart => plain node (inside part member node inPart))
        (fun name inPart => references name (inside part member _ inPart))
    have first : type ∈ type.nodes := by
      rw [nodes_eq]
      exact List.mem_cons_self
    have here := plain type first
    cases type with
    | record type | enum type => exact here.1.isTypeWord
    | reference name => exact references name first
    | union members => exact (allLegible_iff members).mpr parts
    | map values => exact ⟨parts values List.mem_cons_self, here⟩
    | array items => exact ⟨parts items List.mem_cons_self, here⟩
    | null => trivial
    | _ => exact here

end AvroType

namespace Schema

variable {source name : String} {s : Schema}

theorem Plain.definition (plain : s.Plain) {d : Declaration} (member : d ∈ s.definitions) :
    d.toType.Plain := by
  rw [definitions_eq, mem_definitionsOf] at member
  exact plain.types _ member

theorem Plain.isTypeWord (plain : s.Plain) {d : Declaration} (member : d ∈ s.definitions) :
    IsTypeWord d.name := by
  have typePlain := plain.definition member
  cases d <;> exact typePlain.1.isTypeWord

theorem Plain.reference (plain : s.Plain) (named : s.WellNamed) {reference : String}
    (member : .reference reference ∈ nodesOf [.record s.asRecord]) : IsTypeWord reference := by
  obtain ⟨d, defined, -, spelled⟩ := named.exists_definition member rfl
  rw [AvroType.spelling] at spelled
  rcases spelled with rfl | ⟨nameSpace, given, rfl⟩
  · exact plain.isTypeWord defined
  · exact isTypeWord_full (plain.isTypeWord defined).1 (plain.nameSpace nameSpace given)

theorem Plain.legible (plain : s.Plain) (named : s.WellNamed) {type : AvroType}
    (inside : ∀ node ∈ type.nodes, node ∈ nodesOf [.record s.asRecord]) : type.Legible :=
  .of_nodes (fun node member => plain.types node (inside node member))
    (fun _ member => plain.reference named (inside _ member))

/-- Every block of the protocol can be read back. -/
theorem legible_of_load (loaded : load source name = .ok s) (plain : s.Plain) :
    ∀ d ∈ s.definitions, d.Legible := by
  have named := wellNamed_of_load loaded
  intro d member
  have here := plain.definition member
  rw [definitions_eq, mem_definitionsOf] at member
  cases d with
  | enum type =>
    exact ⟨(here.1.isTypeWord).1, here.2.1, fun symbol inType =>
      isWord_of_isIdentifier (here.2.2 symbol inType)⟩
  | record type =>
    have formed := formed_of_load loaded _ member
    refine ⟨(here.1.isTypeWord).1, here.2.1, ?_⟩
    intro field inType
    have inside : ∀ node ∈ field.type.nodes, node ∈ nodesOf [.record s.asRecord] := by
      intro node inField
      refine mem_nodesOf_trans member ?_
      rw [Declaration.toType, AvroType.nodes_eq]
      exact List.mem_cons_of_mem _
        (mem_nodesOf.mpr ⟨field.type, List.mem_map_of_mem inType, inField⟩)
    have fieldPlain := here.2.2 field inType
    exact ⟨isWord_of_isIdentifier fieldPlain.name, plain.legible named inside, fieldPlain.doc,
      (formed.2 field inType).default, fieldPlain.userDataType⟩

theorem continues_of_load (loaded : load source name = .ok s) :
    Continues s.nameSpace [] [.record s.asRecord] := by
  have named := wellNamed_of_load loaded
  constructor
  · rw [List.nil_append, ← definitions_eq]
    exact named.distinct
  · rw [← definitions_eq]
    exact named.plain
  · intro before reference after split
    obtain ⟨d, inBefore, spelled⟩ := exists_earlier_of_load loaded split
    refine ⟨d.name, ?_, spelled⟩
    have defined := (Declaration.ofType?_eq_some_iff _ _).mpr (Eq.refl d.toType)
    exact List.mem_map_of_mem (List.mem_filterMap.mpr ⟨d.toType, inBefore, defined⟩)

theorem Plain.unquoted (plain : s.Plain) : Unquoted s.nameSpace := fun text given =>
  (plain.nameSpace text given).unquoted

/-- Conversion loses nothing. Two texts that load as schemas in which names are identifiers, types
are not named like keywords, namespaces are dotted identifiers, docs do not end comments and hints
have no quotes are converted to the same protocol only if the schemas are the same, down to which
mention of a type defines it. -/
theorem eq_of_render_eq (source name source' name' : String) (s s' : Schema)
    (loaded : load source name = .ok s) (loaded' : load source' name' = .ok s') (plain : s.Plain)
    (plain' : s'.Plain) (same : s.render = s'.render) : s = s' := by
  obtain ⟨nameSpaces, outlines⟩ := outlines_eq_of_render_eq plain.unquoted plain'.unquoted
    (legible_of_load loaded plain) (legible_of_load loaded' plain') same
  have continues' := continues_of_load loaded'
  rw [← nameSpaces] at continues'
  have names : s.name = s'.name :=
    congrArg Declaration.name (List.head_eq_of_cons_eq outlines)
  have tops : [AvroType.record s.asRecord] = [.record s'.asRecord] := by
    refine eq_of_outlines (continues_of_load loaded) continues' ?_ ?_
    · exact congrArg (fun name => [AvroType.reference name]) names
    · rw [← definitions_eq, ← definitions_eq]
      exact outlines
  have records : s.asRecord = s'.asRecord :=
    AvroType.record.inj (List.head_eq_of_cons_eq tops)
  obtain ⟨name, nameSpace, doc, fields⟩ := s
  obtain ⟨name', nameSpace', doc', fields'⟩ := s'
  cases nameSpaces
  cases records
  rfl

/-- The text of `nested` with the members of each object in another order. -/
def reorderedSource : String :=
  "\x7b\"type\":\"record\",\"name\":\"n.A\",\"fields\":[" ++
    "\x7b\"type\":\x7b\"type\":\"enum\",\"name\":\"B\",\"symbols\":[]\x7d,\"name\":\"b\"\x7d," ++
    "\x7b\"type\":[\"A\",\"n.B\"],\"name\":\"c\"\x7d]\x7d"

set_option maxRecDepth 10000 in
theorem read_reorderedSource : Json.read reorderedSource = .ok nestedJson := rfl

theorem load_reorderedSource (name : String) : load reorderedSource name = .ok nested := by
  obtain ⟨json, t, read, found⟩ := (load_eq_ok_iff_ofJson _ _ _).mp (load_nestedSource name)
  rw [read_nestedSource] at read
  cases read
  exact (load_eq_ok_iff_ofJson _ _ _).mpr ⟨nestedJson, t, read_reorderedSource, found⟩

theorem plain_nested : nested.Plain := by
  have nothing : ∀ text ∈ (none : Option String), Unclosed text := by
    rintro text ⟨⟩
  have unhinted : Unquoted none := by
    rintro text ⟨⟩
  constructor
  · intro text given
    cases given
    exact ⟨["n"], by decide, by decide, rfl⟩
  · have nodes : nodesOf [.record nested.asRecord] =
        [.record nested.asRecord, .enum ⟨"B", none, []⟩,
          .union [.reference "A", .reference "n.B"], .reference "A", .reference "n.B"] := rfl
    have top : (AvroType.record nested.asRecord).Plain := by
      refine ⟨⟨by decide, by decide⟩, nothing, ?_⟩
      have fields : ∀ field ∈ nested.asRecord.fields,
          isIdentifier field.name = true ∧ field.doc = none ∧ field.userDataType = none := by
        decide
      intro field member
      obtain ⟨named, undocumented, untyped⟩ := fields field member
      exact ⟨named, undocumented ▸ nothing, untyped ▸ unhinted⟩
    have inner : (AvroType.enum ⟨"B", none, []⟩).Plain :=
      ⟨⟨by decide, by decide⟩, nothing, by decide⟩
    rw [nodes]
    simp only [List.forall_mem_cons]
    exact ⟨top, inner, trivial, trivial, trivial, fun _ member => absurd member List.not_mem_nil⟩

theorem nested_is_recovered :
    ∃ s s', load nestedSource "nested.avsc" = .ok s ∧
      load reorderedSource "reordered.avsc" = .ok s' ∧ s.Plain ∧ s'.Plain ∧
      s.render = s'.render ∧ s = s' :=
  ⟨nested, nested, load_nestedSource _, load_reorderedSource _, plain_nested, plain_nested, rfl,
    eq_of_render_eq nestedSource "nested.avsc" reorderedSource "reordered.avsc" nested nested
      (load_nestedSource _) (load_reorderedSource _) plain_nested plain_nested rfl⟩

end Schema

end AvroIdl
