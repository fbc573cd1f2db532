import AvroIdl.Proofs.Idl.Deduplication
import AvroIdl.Proofs.Load.Document
import AvroIdl.Proofs.Load.Marks

/-
What loading establishes about the names in a schema.
-/
set_option autoImplicit false

namespace AvroIdl

namespace Load

/-- The document's steps start with the name of the top record. -/
theorem DescribesSchema.starts {json : Json} {s : Schema} {steps : List Step}
    (described : DescribesSchema json s steps) :
    ∃ name rest, steps = .define name :: rest ∧ name.nameSpace = s.nameSpace := by
  cases described with
  | mk _ _ described =>
    cases described with
    | mk shape _ _ => exact ⟨_, _, rfl, rfl⟩

theorem DescribesSchema.fits {json : Json} {s : Schema} {steps : List Step}
    (described : DescribesSchema json s steps) : Fits [.record s.asRecord] steps := by
  cases described with
  | mk _ _ described => exact described.fits

end Load

namespace Schema

/-- Each name is defined once and has no dot, and each reference is the simple or the full
name of a definition. -/
structure WellNamed (s : Schema) : Prop where
  distinct : (s.definitions.map Declaration.name).Nodup
  plain : ∀ d ∈ s.definitions, isDotted d.name = false
  resolved : ∀ name, .reference name ∈ nodesOf s.roots →
    ∃ d ∈ s.definitions, name = d.name ∨ name = TypeName.full ⟨d.name, s.nameSpace⟩

theorem nodesOf_asRecord (s : Schema) :
    nodesOf [.record s.asRecord] = .record s.asRecord :: nodesOf s.roots := by
  rw [nodesOf_cons, nodesOf_nil, List.append_nil, AvroType.nodes_eq]
  rfl

end Schema

section Described

variable {json : Json} {s : Schema} {steps : List Load.Step} {t : Loading}

theorem Load.DescribesSchema.names (described : Load.DescribesSchema json s steps)
    (runs : Loading.start.Runs steps t) :
    s.definitions.map Declaration.name = t.defined.map TypeName.simple := by
  rw [Schema.definitions_eq, described.fits.names, Loading.defined_of_runs runs]
  rfl

theorem Load.DescribesSchema.headed (described : Load.DescribesSchema json s steps)
    (runs : Loading.start.Runs steps t) :
    ∀ d ∈ t.defined, ∃ members around, Load.Header members around d := by
  intro d member
  rw [Loading.defined_of_runs runs] at member
  exact described.fits.headed d member

theorem Load.DescribesSchema.plain (described : Load.DescribesSchema json s steps)
    (runs : Loading.start.Runs steps t) : ∀ d ∈ t.defined, isDotted d.simple = false := by
  intro d member
  obtain ⟨members, around, header⟩ := described.headed runs d member
  exact header.plain

/-- The top record's namespace is that of every type. -/
theorem Load.DescribesSchema.together (described : Load.DescribesSchema json s steps)
    (runs : Loading.start.Runs steps t) : ∀ d ∈ t.defined, d.nameSpace = s.nameSpace := by
  intro d member
  have home : t.home = s.nameSpace := by
    obtain ⟨top, rest, rfl, same⟩ := described.starts
    rw [Loading.home, Loading.defined_of_runs runs]
    exact same
  rw [(Loading.orderly_start.of_runs runs).together d member, home]

end Described

namespace Schema

theorem wellNamed_of_load {source name : String} {s : Schema}
    (loaded : load source name = .ok s) : s.WellNamed := by
  obtain ⟨json, steps, t, -, described, runs⟩ := (load_eq_ok_iff source name s).mp loaded
  have names := described.names runs
  have plain := described.plain runs
  constructor
  · rw [names]
    exact (Loading.orderly_start.of_runs runs).nodup_simple
  · intro d member
    have inNames : d.name ∈ t.defined.map TypeName.simple := names ▸ List.mem_map_of_mem member
    obtain ⟨defined, inDefined, same⟩ := List.mem_map.mp inNames
    rw [← same]
    exact plain defined inDefined
  · intro reference member
    have inAll : AvroType.reference reference ∈ nodesOf [.record s.asRecord] := by
      rw [nodesOf_asRecord]
      exact List.mem_cons_of_mem _ member
    obtain ⟨around, mentioned⟩ := described.fits.exists_mention inAll
    obtain ⟨found, inDefined, spelled⟩ := Loading.exists_of_mention plain runs mentioned
    have inNames : found.simple ∈ s.definitions.map Declaration.name :=
      names ▸ List.mem_map_of_mem inDefined
    obtain ⟨d, inDefinitions, same⟩ := List.mem_map.mp inNames
    refine ⟨d, inDefinitions, ?_⟩
    rw [same, ← described.together runs found inDefined]
    exact spelled

/-- A load defines the top record and then what a walk over the finished fields declares, in the
order of the walk and each name once. -/
theorem defined_in_declared_order (json : Json) (s : Schema) (t : Loading)
    (accepted : ofJson json = (.ok s, t)) :
    ∃ declared : List Declaration, (Walk.redeclare s.roots).toList = declared.map .ok ∧
      t.defined.map TypeName.full =
        TypeName.full ⟨s.name, s.nameSpace⟩ ::
          declared.map (fun d => TypeName.full ⟨d.name, s.nameSpace⟩) ∧
      (t.defined.map TypeName.full).Nodup := by
  obtain ⟨steps, described, runs⟩ := (ofJson_eq_ok_iff json s t).mp accepted
  have found : (Walk.redeclare s.roots).toList = (definitionsOf s.roots).map .ok := by
    rw [Walk.toList_eq_findings, Walk.redeclare, Walk.findings_of_not_failed, visitAll_none]
  refine ⟨definitionsOf s.roots, found, ?_, (Loading.orderly_start.of_runs runs).distinct⟩
  calc t.defined.map TypeName.full
      = (t.defined.map TypeName.simple).map fun simple => TypeName.full ⟨simple, s.nameSpace⟩ := by
        rw [List.map_map]
        apply List.map_congr_left
        intro name member
        rw [Function.comp, ← described.together runs name member]
    _ = (s.definitions.map Declaration.name).map fun simple =>
          TypeName.full ⟨simple, s.nameSpace⟩ := by
        rw [described.names runs]
    _ = _ := by
        rw [List.map_map]
        rfl

/-- Definitions inside of a union, a map, an array and another record. -/
def layered : Schema :=
  ⟨"A", some "n", none,
    [⟨"b", .union [.null, .map (.enum ⟨"B", none, []⟩) none none], none, none, none⟩,
      ⟨"c", .array (.record ⟨"C", none, [⟨"d", .enum ⟨"D", none, []⟩, none, none, none⟩,
        ⟨"e", .reference "B", none, none, none⟩]⟩) none none, none, none, none⟩]⟩

def layeredEnum (name : String) : Members :=
  [("name", .string name), ("symbols", .array []), ("type", .string "enum")]

def layeredMap : Members :=
  [("type", .string "map"), ("values", .object (layeredEnum "B"))]

def layeredUnion : Json :=
  .array [.string "null", .object layeredMap]

/-- The innermost record, with this enum in it. -/
def layeredInner (enum : Members) : Members :=
  [("fields", .array [nestedField "d" (.object enum), nestedField "e" (.string "B")]),
    ("name", .string "C"), ("type", .string "record")]

def layeredArray (enum : Members) : Members :=
  [("items", .object (layeredInner enum)), ("type", .string "array")]

def layeredOuter (enum : Members) : Members :=
  [("fields", .array [nestedField "b" layeredUnion,
      nestedField "c" (.object (layeredArray enum))]),
    ("name", .string "n.A"), ("type", .string "record")]

def layeredJson : Json :=
  .object (layeredOuter (layeredEnum "n.D"))

def layeredState : Loading :=
  ⟨[⟨"A", some "n"⟩, ⟨"B", some "n"⟩, ⟨"C", some "n"⟩, ⟨"D", some "n"⟩], []⟩

theorem describes_layeredEnum (raw simple : String)
    (header : Load.Header (layeredEnum raw) (some "n") ⟨simple, some "n"⟩) :
    Load.Describes (some "n") (.object (layeredEnum raw)) (.enum ⟨simple, none, []⟩)
      [.define ⟨simple, some "n"⟩] :=
  .tagged rfl rfl (.enum ⟨header, rfl, .inl rfl, rfl, List.nodup_nil⟩)

theorem describes_layeredUnion : Load.Describes (some "n") layeredUnion
    (.union [.null, .map (.enum ⟨"B", none, []⟩) none none]) [.define ⟨"B", some "n"⟩] := by
  have enum := describes_layeredEnum "B" "B" ⟨⟨"B", none, rfl, .inl rfl, by decide⟩, by decide⟩
  have map : Load.Describes (some "n") (.object layeredMap)
      (.map (.enum ⟨"B", none, []⟩) none none) [.define ⟨"B", some "n"⟩] :=
    .tagged rfl rfl (.map rfl enum (.inl rfl) (.inl rfl))
  exact .union (List.cons_ne_nil _ _) (.cons (.word rfl) (.cons map .nil))

theorem describes_layeredArray :
    Load.Describes (some "n") (.object (layeredArray (layeredEnum "n.D")))
      (.array (.record ⟨"C", none, [⟨"d", .enum ⟨"D", none, []⟩, none, none, none⟩,
        ⟨"e", .reference "B", none, none, none⟩]⟩) none none)
      [.define ⟨"C", some "n"⟩, .define ⟨"D", some "n"⟩, .mention "B" (some "n")] := by
  have header : Load.Header (layeredInner (layeredEnum "n.D")) (some "n") ⟨"C", some "n"⟩ :=
    ⟨⟨"C", none, rfl, .inl rfl, by decide⟩, by decide⟩
  have enum := describes_layeredEnum "n.D" "D"
    ⟨⟨"n.D", none, rfl, .inl rfl, by decide⟩, by decide⟩
  have reference : Load.Describes (some "n") (.string "B") (.reference "B")
      [.mention "B" (some "n")] :=
    .reference rfl (by decide)
  have record : Load.DescribesRecord (some "n") (layeredInner (layeredEnum "n.D"))
      ⟨"C", some "n"⟩ ⟨"C", none, [⟨"d", .enum ⟨"D", none, []⟩, none, none, none⟩,
        ⟨"e", .reference "B", none, none, none⟩]⟩
      [.define ⟨"C", some "n"⟩, .define ⟨"D", some "n"⟩, .mention "B" (some "n")] :=
    .mk ⟨header, rfl, .inl rfl, by decide⟩ rfl (.cons (describes_nestedField "d" enum)
      (.cons (describes_nestedField "e" reference) .nil))
  exact .tagged rfl rfl (.array rfl (.tagged rfl rfl (.record record)) (.inl rfl))

theorem ofJson_layered : ofJson layeredJson = (.ok layered, layeredState) := by
  have header : Load.Header (layeredOuter (layeredEnum "n.D")) none ⟨"A", some "n"⟩ :=
    ⟨⟨"n.A", none, rfl, .inl rfl, by decide⟩, by decide⟩
  have record : Load.DescribesRecord none (layeredOuter (layeredEnum "n.D")) ⟨"A", some "n"⟩
      layered.asRecord [.define ⟨"A", some "n"⟩, .define ⟨"B", some "n"⟩, .define ⟨"C", some "n"⟩,
        .define ⟨"D", some "n"⟩, .mention "B" (some "n")] :=
    .mk ⟨header, rfl, .inl rfl, by decide⟩ rfl
      (.cons (describes_nestedField "b" describes_layeredUnion)
        (.cons (describes_nestedField "c" describes_layeredArray) .nil))
  refine (ofJson_eq_ok_iff _ _ _).mpr ⟨_, .mk rfl rfl record, ?_⟩
  exact ⟨⟨.inl rfl, rfl⟩, ⟨.inr rfl, rfl⟩, ⟨.inr rfl, rfl⟩, ⟨.inr rfl, rfl⟩, rfl, rfl⟩

theorem layered_in_declared_order :
    ofJson layeredJson = (.ok layered, layeredState) ∧
      ∃ declared : List Declaration, (Walk.redeclare layered.roots).toList = declared.map .ok ∧
        ["n.A", "n.B", "n.C", "n.D"] =
          "n.A" :: declared.map (fun d => TypeName.full ⟨d.name, some "n"⟩) ∧
        ["n.A", "n.B", "n.C", "n.D"].Nodup :=
  ⟨ofJson_layered, defined_in_declared_order _ _ _ ofJson_layered⟩

end Schema

end AvroIdl
