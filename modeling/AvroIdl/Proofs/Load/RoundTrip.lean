import AvroIdl.Proofs.Load.Acceptance
import AvroIdl.Proofs.Load.Sound
import AvroIdl.Proofs.Load.Written

/-
A schema that could have been loaded is loaded again from what is written for it.
-/
set_option autoImplicit false

namespace AvroIdl

open Load

namespace Loading

/-- The mentions in some steps resolve, each among the names that are known and those that are
defined before it. -/
def Resolved (known : List TypeName) (steps : List Step) : Prop :=
  ∀ before step after, steps = before ++ step :: after → ∀ name around,
    step = .mention name around →
      (ofNames (known ++ Load.defined before)).resolves name around = true

theorem resolved_cons_iff (known : List TypeName) (step : Step) (rest : List Step) :
    Resolved known (step :: rest) ↔
      (∀ name around, step = .mention name around →
        (ofNames known).resolves name around = true) ∧
      Resolved (known ++ Load.defined [step]) rest := by
  have names : ∀ before, known ++ Load.defined (step :: before) =
      known ++ Load.defined [step] ++ Load.defined before := by
    intro before
    rw [List.append_assoc, ← Load.defined_append, List.singleton_append]
  refine (forall_split_cons step rest).trans (and_congr ?_ ?_)
  · rw [Load.defined_nil, List.append_nil]
  · apply forall_congr'
    intro before
    rw [names]

/-- Steps without a warning pass if the names they define are orderly and what they mention
resolves. -/
theorem exists_runs_of_resolved {steps : List Step} {known : List TypeName}
    (silent : ∀ w, .warn w ∉ steps) (orderly : (ofNames (known ++ Load.defined steps)).Orderly)
    (resolved : Resolved known steps) : ∃ t, (ofNames known).Runs steps t := by
  induction steps generalizing known with
  | nil => exact ⟨_, rfl⟩
  | cons step rest ih =>
    obtain ⟨here, later⟩ := (resolved_cons_iff known step rest).mp resolved
    have quiet : ∀ w, .warn w ∉ rest := fun w member => silent w (List.mem_cons_of_mem _ member)
    cases step with
    | define name =>
      rw [Load.defined_define, ← List.singleton_append, ← List.append_assoc] at orderly
      obtain ⟨t, runs⟩ := ih quiet orderly later
      have before : (ofNames known).Orderly := orderly.of_append.of_append
      exact ⟨t, (orderly_append_iff known name before).mp orderly.of_append, runs⟩
    | mention name around =>
      rw [Load.defined_mention, Load.defined_nil, List.append_nil] at later
      obtain ⟨t, runs⟩ := ih quiet orderly later
      exact ⟨t, here name around rfl, runs⟩
    | warn w => exact absurd List.mem_cons_self (silent w)

end Loading

namespace Load

variable {home : Option String}

theorem defined_stepsOf (home : Option String) (types : List AvroType) :
    defined (stepsOf home types) =
      (definitionsOf types).map fun d => ⟨d.name, home⟩ := by
  rw [stepsOf, definitionsOf, defined, List.filterMap_filterMap, List.map_filterMap]
  apply List.filterMap_congr
  intro type _
  cases type <;> rfl

end Load

namespace Schema

/-- What lets a schema be read back: it is sound, no reference is taken for a primitive or an
unsupported type, and the text of a default is escaped the way texts are. -/
structure Writable (s : Schema) : Prop extends s.Sound where
  references : ∀ name, .reference name ∈ nodesOf [.record s.asRecord] →
    name ∉ primitives ∧ name ∉ unsupported
  escaped : ∀ type, .record type ∈ nodesOf [.record s.asRecord] →
    ∀ field ∈ type.fields, ∀ value ∈ field.default, value.Escaped

namespace Writable

variable {s : Schema}

theorem loadable (writable : s.Writable) :
    ∀ node ∈ nodesOf [.record s.asRecord], node.Loadable := by
  intro node member
  have tidy := writable.tidy node member
  have named : ∀ d : Declaration, d.toType = node → d.name ≠ "" ∧ isDotted d.name = false := by
    rintro d rfl
    apply writable.named
    rw [definitions_eq]
    exact mem_definitionsOf.mpr member
  cases node with
  | record type => exact ⟨named (.record type) rfl, tidy, writable.escaped type member⟩
  | enum type => exact ⟨named (.enum type) rfl, tidy⟩
  | reference name => exact writable.references name member
  | _ => exact tidy

theorem plain (writable : s.Writable) {name : TypeName}
    (member : name ∈ defined (stepsOf s.nameSpace [.record s.asRecord])) :
    isDotted name.simple = false ∧ name.nameSpace = s.nameSpace := by
  rw [defined_stepsOf, ← definitions_eq] at member
  obtain ⟨d, inSchema, rfl⟩ := List.mem_map.mp member
  exact ⟨(writable.named d inSchema).2, rfl⟩

theorem orderly (writable : s.Writable) :
    (Loading.ofNames (defined (stepsOf s.nameSpace [.record s.asRecord]))).Orderly := by
  rw [Loading.orderly_ofNames_iff]
  refine ⟨⟨s.nameSpace, fun name member => (writable.plain member).2⟩, ?_⟩
  have injective : ∀ a ∈ s.definitions.map Declaration.name,
      ∀ b ∈ s.definitions.map Declaration.name,
        TypeName.full ⟨a, s.nameSpace⟩ = TypeName.full ⟨b, s.nameSpace⟩ → a = b := by
    intro a inNames b alsoInNames same
    obtain ⟨d, inSchema, rfl⟩ := List.mem_map.mp inNames
    obtain ⟨e, alsoInSchema, rfl⟩ := List.mem_map.mp alsoInNames
    have equal := TypeName.full_injective (writable.named d inSchema).2
      (writable.named e alsoInSchema).2 same
    exact congrArg TypeName.simple equal
  have distinct := writable.distinct.map_on injective
  rw [List.map_map] at distinct
  rwa [defined_stepsOf, ← definitions_eq, List.map_map]

/-- What a reference names has been defined when it is looked up. -/
theorem resolved (writable : s.Writable) :
    Loading.Resolved [] (stepsOf s.nameSpace [.record s.asRecord]) := by
  rintro before step after split name around rfl
  obtain ⟨nodesBefore, nodesAfter, nodes, stepsBefore, stepsAfter⟩ :=
    List.filterMap_eq_append_iff.mp split
  obtain ⟨silent, node, rest, rfl, noStep, isMention, -⟩ :=
    List.filterMap_eq_cons_iff.mp stepsAfter
  cases node with
  | reference other =>
    cases isMention
    rw [← List.append_assoc] at nodes
    obtain ⟨d, inBefore, spelled⟩ := writable.ordered _ _ _ nodes
    have names : ∀ known ∈ defined before,
        isDotted known.simple = false ∧ known.nameSpace = s.nameSpace := by
      intro known member
      apply writable.plain
      rw [split, defined_append]
      exact List.mem_append_left _ member
    have earlier : TypeName.mk d.name s.nameSpace ∈ defined before := by
      have steps : (nodesBefore ++ silent).filterMap (stepOf? s.nameSpace) = before := by
        rw [List.filterMap_append, stepsBefore, List.filterMap_eq_nil_iff.mpr noStep,
          List.append_nil]
      have isStep : stepOf? s.nameSpace d.toType = some (.define ⟨d.name, s.nameSpace⟩) := by
        cases d <;> rfl
      rw [← steps]
      exact List.mem_filterMap.mpr ⟨_, List.mem_filterMap.mpr ⟨_, inBefore, isStep⟩, rfl⟩
    rw [List.nil_append]
    exact (Loading.resolves_iff (fun known member => (names known member).1)
      (fun known member => (names known member).2)).mpr ⟨_, earlier, spelled⟩
  | _ => cases isMention

end Writable

/-- A schema that is written as JSON, in the shortest spelling of each type, is loaded back as it
was. -/
theorem ofJson_toJson (s : Schema) (writable : s.Writable) : (ofJson s.toJson).1 = .ok s := by
  have silent : ∀ w, .warn w ∉ stepsOf s.nameSpace [.record s.asRecord] := by
    intro w member
    obtain ⟨node, -, isWarning⟩ := List.mem_filterMap.mp member
    cases node <;> cases isWarning
  obtain ⟨t, runs⟩ : ∃ t, (Loading.ofNames []).Runs (stepsOf s.nameSpace [.record s.asRecord]) t :=
    Loading.exists_runs_of_resolved silent writable.orderly writable.resolved
  have inside : ∀ field ∈ s.fields, Describes s.nameSpace field.type.toJson field.type
      (stepsOf s.nameSpace [field.type]) := by
    intro field member
    apply describes_toJson writable.home
    intro node below
    apply writable.loadable
    rw [nodesOf_asRecord]
    refine List.mem_cons_of_mem _ (mem_nodesOf.mpr ⟨field.type, List.mem_map_of_mem member, ?_⟩)
    rwa [nodesOf_cons, nodesOf_nil, List.append_nil] at below
  have loadable : AvroType.Loadable (.record s.asRecord) := by
    apply writable.loadable
    rw [nodesOf_asRecord]
    exact List.mem_cons_self
  have chosen : (s.nameSpace <|> none) = s.nameSpace := by
    cases s.nameSpace <;> rfl
  have described := describesRecord_toJson loadable chosen writable.home inside
  have whole : DescribesSchema s.toJson s (stepsOf s.nameSpace [.record s.asRecord]) :=
    .mk (get?_type_recordJson _ _ _ _) rfl described
  exact congrArg Prod.fst ((ofJson_eq_ok_iff s.toJson s t).mpr ⟨_, whole, runs⟩)

/-- The record refers to itself and to the enum inside it, and a default needs an escape. -/
def titles : Schema where
  name := "Titles"
  nameSpace := some "shop.db"
  doc := none
  fields := [
    ⟨"title", .string (some "Text"), some "As printed.", some (.text "\\\"none\\\""), none⟩,
    ⟨"size", .enum ⟨"Size", none, ["S", "L"]⟩, none, none, none⟩,
    ⟨"next", .union [.null, .reference "shop.db.Titles", .reference "Size"], none, some .null,
      some "Link"⟩]

theorem titles_writable : titles.Writable := by
  have nodes : nodesOf [.record titles.asRecord] = [.record titles.asRecord,
      .string (some "Text"), .enum ⟨"Size", none, ["S", "L"]⟩,
      .union [.null, .reference "shop.db.Titles", .reference "Size"],
      .null, .reference "shop.db.Titles", .reference "Size"] := rfl
  have definitions : titles.definitions =
      [.record titles.asRecord, .enum ⟨"Size", none, ["S", "L"]⟩] := by
    rw [definitions_eq, definitionsOf, nodes]
    rfl
  refine ⟨⟨?tidy, ?home, ?named, ?distinct, ?ordered⟩, ?references, ?escaped⟩
  case tidy =>
    rw [nodes]
    simp [AvroType.Tidy, titles, asRecord]
  case home => decide
  case named =>
    rw [definitions]
    simp only [List.forall_mem_cons]
    decide
  case distinct =>
    rw [definitions]
    decide
  case ordered =>
    rw [nodes]
    intro before name after split
    simp only [List.cons_eq_append_iff, List.cons.injEq, reduceCtorEq, false_and, and_false,
      AvroType.reference.injEq, List.nil_eq, List.append_eq_nil_iff, exists_const, or_false,
      ↓existsAndEq, true_and, false_or] at split
    obtain ⟨between, rfl, ⟨rfl, rfl, -⟩ | ⟨rfl, rfl, -⟩⟩ := split
    · exact ⟨.record titles.asRecord, List.mem_cons_self, .inr rfl⟩
    · exact ⟨.enum ⟨"Size", none, ["S", "L"]⟩,
        List.mem_cons_of_mem _ (List.mem_cons_of_mem _ List.mem_cons_self), .inl rfl⟩
  case references =>
    rw [nodes]
    simp [primitives, unsupported]
  case escaped =>
    have quoted : (Default.text "\\\"none\\\"").Escaped := ⟨"\"none\"", rfl⟩
    rw [nodes]
    intro type member
    simp only [List.mem_cons, AvroType.record.injEq, reduceCtorEq, List.not_mem_nil,
      or_false] at member
    obtain rfl := member
    simp only [titles, asRecord, List.forall_mem_cons]
    exact ⟨by rintro _ ⟨⟩; exact quoted, by rintro _ ⟨⟩, by rintro _ ⟨⟩; trivial,
      fun _ member => absurd member List.not_mem_nil⟩

theorem titles_is_read_back : titles.Writable ∧ (ofJson titles.toJson).1 = .ok titles :=
  ⟨titles_writable, ofJson_toJson titles titles_writable⟩

end Schema

end AvroIdl
