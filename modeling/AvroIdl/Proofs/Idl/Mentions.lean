import AvroIdl.Idl.Spelling
import AvroIdl.Proofs.Load.WellNamed

/-
The names that stand in the fields of a protocol, and what the protocol declares.
-/
set_option autoImplicit false

namespace AvroIdl

mutual

/-- The types whose names stand in the spelling of a type. What a record holds is spelled
where the record is declared. -/
def AvroType.mentions : AvroType → List AvroType
  | .record type => [.record type]
  | .enum type => [.enum type]
  | .reference name => [.reference name]
  | .union members => mentionsOf members
  | .map values _ _ => values.mentions
  | .array items _ _ => items.mentions
  | .null | .int _ | .long _ | .string _ | .boolean _ => []

def mentionsOf : List AvroType → List AvroType
  | [] => []
  | type :: rest => type.mentions ++ mentionsOf rest

end

theorem mem_mentionsOf {types : List AvroType} {m : AvroType} :
    m ∈ mentionsOf types ↔ ∃ type ∈ types, m ∈ type.mentions := by
  induction types with
  | nil => simp [mentionsOf]
  | cons type rest ih => simp [mentionsOf, ih]

namespace AvroType

/-- What a type mentions stands in it and has a name. -/
theorem of_mem_mentions {type m : AvroType} (mentioned : m ∈ type.mentions) :
    m ∈ type.nodes ∧ m.mark?.isSome := by
  induction type using AvroType.induction_parts with
  | whole type ih =>
    have inParts : ∀ part ∈ type.parts, m ∈ part.mentions → m ∈ type.nodes ∧ m.mark?.isSome := by
      intro part member inPart
      obtain ⟨inside, marked⟩ := ih part member inPart
      rw [nodes_eq]
      exact ⟨List.mem_cons_of_mem _ (mem_nodesOf.mpr ⟨part, member, inside⟩), marked⟩
    cases type with
    | record type | enum type | reference name =>
      cases List.mem_singleton.mp mentioned
      exact ⟨by rw [nodes_eq]; exact List.mem_cons_self, rfl⟩
    | union members =>
      obtain ⟨part, member, inPart⟩ := mem_mentionsOf.mp mentioned
      exact inParts part member inPart
    | map values keyClass javaClass => exact inParts values (List.mem_singleton.mpr rfl) mentioned
    | array items keyClass javaClass => exact inParts items (List.mem_singleton.mpr rfl) mentioned
    | _ => cases mentioned

theorem mem_nodes_trans {type node inner : AvroType} (outside : node ∈ type.nodes)
    (inside : inner ∈ node.nodes) : inner ∈ type.nodes := by
  induction type using AvroType.induction_parts with
  | whole type ih =>
    rw [nodes_eq, List.mem_cons] at outside
    rcases outside with rfl | below
    · exact inside
    · obtain ⟨part, member, inPart⟩ := mem_nodesOf.mp below
      rw [nodes_eq]
      exact List.mem_cons_of_mem _ (mem_nodesOf.mpr ⟨part, member, ih part member inPart⟩)

end AvroType

theorem mem_nodesOf_trans {types : List AvroType} {node inner : AvroType}
    (outside : node ∈ nodesOf types) (inside : inner ∈ node.nodes) : inner ∈ nodesOf types := by
  obtain ⟨type, found, member⟩ := mem_nodesOf.mp outside
  exact mem_nodesOf.mpr ⟨type, found, AvroType.mem_nodes_trans member inside⟩

namespace Schema

/-- What the protocol declares, the top record first. -/
def blocks (s : Schema) : List Declaration :=
  .record s.asRecord :: (Walk.redeclare s.roots).declared

theorem blocks_eq (s : Schema) : s.blocks = s.definitions := by
  rw [blocks, Walk.declared_redeclare, definitions]

/-- The simple name `n`, alone or after the namespace of the protocol. -/
def Spells (s : Schema) (spelling n : String) : Prop :=
  isDotted n = false ∧
    (spelling = n ∨ ∃ nameSpace, s.nameSpace = some nameSpace ∧ spelling = nameSpace ++ "." ++ n)

theorem spells_full (s : Schema) {n : String} (plain : isDotted n = false) :
    s.Spells (TypeName.full ⟨n, s.nameSpace⟩) n := by
  refine ⟨plain, ?_⟩
  cases s.nameSpace with
  | none => exact .inl rfl
  | some nameSpace => exact .inr ⟨nameSpace, rfl, rfl⟩

/-- A node of the tree that has a name is spelled by the name of a definition. -/
theorem WellNamed.exists_definition {s : Schema} (named : s.WellNamed) {node : AvroType}
    (member : node ∈ nodesOf [.record s.asRecord]) (marked : node.mark?.isSome) :
    ∃ d ∈ s.definitions, s.Spells node.spelling d.name := by
  cases node with
  | record type =>
    have defined : Declaration.record type ∈ s.definitions := by
      rw [definitions_eq, mem_definitionsOf]
      exact member
    exact ⟨_, defined, named.plain _ defined, .inl rfl⟩
  | enum type =>
    have defined : Declaration.enum type ∈ s.definitions := by
      rw [definitions_eq, mem_definitionsOf]
      exact member
    exact ⟨_, defined, named.plain _ defined, .inl rfl⟩
  | reference name =>
    rw [nodesOf_asRecord] at member
    have inside : AvroType.reference name ∈ nodesOf s.roots := by
      rcases List.mem_cons.mp member with same | inside
      · cases same
      · exact inside
    obtain ⟨d, defined, spelled⟩ := named.resolved name inside
    refine ⟨d, defined, ?_⟩
    rcases spelled with rfl | rfl
    · exact ⟨named.plain d defined, .inl rfl⟩
    · exact s.spells_full (named.plain d defined)
  | _ => cases marked

theorem WellNamed.filter_name {s : Schema} (named : s.WellNamed) {d : Declaration}
    (defined : d ∈ s.definitions) : (s.definitions.filter fun e => e.name = d.name) = [d] := by
  have firsts := Declaration.filter_firstOfEachName s.definitions d.name
  rw [Declaration.firstOfEachName_of_nodup named.distinct,
    Declaration.firstNamed_of_nodup named.distinct defined] at firsts
  exact firsts

/-- The protocol of a text that loads is closed: each name that stands in a field of a record it
declares is the simple name of exactly one declaration, alone or after the namespace. -/
theorem mentions_are_declared (source name : String) (s : Schema)
    (loaded : load source name = .ok s) :
    ∀ record, .record record ∈ s.blocks → ∀ field ∈ record.fields, ∀ m ∈ field.type.mentions,
      ∃ n, s.Spells m.spelling n ∧ (s.blocks.filter fun d => d.name = n).length = 1 := by
  intro record inBlocks field inRecord m mentioned
  have named := wellNamed_of_load loaded
  rw [blocks_eq] at inBlocks ⊢
  have whole : AvroType.record record ∈ nodesOf [.record s.asRecord] := by
    rw [definitions_eq] at inBlocks
    exact mem_definitionsOf.mp inBlocks
  obtain ⟨inField, marked⟩ := AvroType.of_mem_mentions mentioned
  have inside : m ∈ (AvroType.record record).nodes := by
    rw [AvroType.nodes_eq]
    exact List.mem_cons_of_mem _
      (mem_nodesOf.mpr ⟨field.type, List.mem_map_of_mem inRecord, inField⟩)
  obtain ⟨top, isTop, inTop⟩ := mem_nodesOf.mp whole
  have reached : m ∈ nodesOf [.record s.asRecord] :=
    mem_nodesOf.mpr ⟨top, isTop, AvroType.mem_nodes_trans inTop inside⟩
  obtain ⟨d, defined, spelled⟩ := named.exists_definition reached marked
  refine ⟨d.name, spelled, ?_⟩
  rw [named.filter_name defined]
  rfl

theorem nested_mentions_are_declared :
    ∃ n, nested.Spells "n.B" n ∧ (nested.blocks.filter fun d => d.name = n).length = 1 :=
  mentions_are_declared nestedSource "nested.avsc" nested (load_nestedSource _)
    nested.asRecord List.mem_cons_self
    ⟨"c", .union [.reference "A", .reference "n.B"], none, none, none⟩
    (List.mem_cons_of_mem _ List.mem_cons_self)
    (.reference "n.B") (List.mem_cons_of_mem _ List.mem_cons_self)

end Schema

end AvroIdl
