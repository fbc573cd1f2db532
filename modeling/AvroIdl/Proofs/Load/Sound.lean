import AvroIdl.Proofs.Load.Formed
import AvroIdl.Proofs.Load.WellNamed

/-
What a schema that was loaded can be trusted for: every type by itself, the names of its
definitions, and references that only point back.
-/
set_option autoImplicit false

namespace AvroIdl

/-- The fields of a record and the symbols of an enum have different names, a union is not
empty, and an array has no key class. -/
def AvroType.Tidy : AvroType → Prop
  | .record type => (type.fields.map FieldOf.name).Nodup
  | .enum type => type.symbols.Nodup
  | .union members => members ≠ []
  | .array _ keyClass _ => keyClass = none
  | _ => True

namespace Load

theorem Formed.tidy {type : AvroType} (formed : Formed type) : type.Tidy := by
  cases type with
  | record type =>
    obtain ⟨⟨members, around, name, shape⟩, -⟩ := formed
    exact shape.distinct
  | enum type =>
    obtain ⟨members, around, name, shape⟩ := formed
    exact shape.distinct
  | _ => exact formed

/-- An empty namespace is none. -/
theorem Header.nameSpace_ne_empty {members : Members} {around : Option String} {name : TypeName}
    (header : Header members around name) : name.nameSpace ≠ some "" := by
  obtain ⟨raw, given, -, -, rfl⟩ := header.spelled
  intro empty
  have kept := (Option.filter_eq_some_iff.mp empty).2
  exact absurd rfl (of_decide_eq_true kept)

/-- What marks a definition is a definition. -/
theorem exists_declaration_of_mark {types : List AvroType} {simple : String}
    (marked : .defines simple ∈ types.filterMap AvroType.mark?) :
    ∃ d : Declaration, d.toType ∈ types ∧ d.name = simple := by
  obtain ⟨type, member, isMark⟩ := List.mem_filterMap.mp marked
  cases type with
  | record type =>
    cases isMark
    exact ⟨.record type, member, rfl⟩
  | enum type =>
    cases isMark
    exact ⟨.enum type, member, rfl⟩
  | _ => cases isMark

theorem mem_filterMap_mark?_of_defined {steps : List Step} {name : TypeName}
    (member : name ∈ defined steps) : .defines name.simple ∈ steps.filterMap Step.mark? := by
  obtain ⟨step, inSteps, isDefine⟩ := List.mem_filterMap.mp member
  cases step with
  | define other =>
    cases isDefine
    exact List.mem_filterMap.mpr ⟨.define name, inSteps, rfl⟩
  | _ => cases isDefine

/-- A reference is looked up when only what stands before it has been defined. -/
theorem Fits.exists_earlier {types before after : List AvroType} {steps : List Step} {t : Loading}
    {name : String} (fits : Fits types steps) (runs : Loading.start.Runs steps t)
    (plain : ∀ d ∈ t.defined, isDotted d.simple = false)
    (split : nodesOf types = before ++ .reference name :: after) :
    ∃ found ∈ t.defined, (name = found.simple ∨ name = found.full) ∧
      ∃ d : Declaration, d.toType ∈ before ∧ d.name = found.simple := by
  have marks : steps.filterMap Step.mark? =
      before.filterMap AvroType.mark? ++ .refers name :: after.filterMap AvroType.mark? := by
    rw [fits.marks, marksOf, split, List.filterMap_append]
    rfl
  obtain ⟨earlier, rest, rfl, earlierMarks, restMarks⟩ := List.filterMap_eq_append_iff.mp marks
  obtain ⟨unmarked, step, later, rfl, silent, isMention, -⟩ :=
    List.filterMap_eq_cons_iff.mp restMarks
  obtain ⟨m, runsEarlier, runsRest⟩ := Loading.runs_append_iff.mp runs
  obtain ⟨m', runsUnmarked, allowed, runsLater⟩ := Loading.runs_append_iff.mp runsRest
  cases step with
  | mention other around =>
    cases isMention
    have kept : ∀ d ∈ m'.defined, d ∈ t.defined := by
      intro d member
      rw [Loading.defined_of_runs runsLater]
      exact List.mem_append_left _ member
    obtain ⟨found, inDefined, spelled⟩ :=
      Loading.exists_of_resolves (fun d member => plain d (kept d member)) allowed
    refine ⟨found, kept found inDefined, spelled, ?_⟩
    rw [Loading.defined_of_runs runsUnmarked, Loading.defined_of_runs runsEarlier,
      Loading.start, List.nil_append, ← Load.defined_append] at inDefined
    have marked := mem_filterMap_mark?_of_defined inDefined
    rw [List.filterMap_append, earlierMarks, List.filterMap_eq_nil_iff.mpr silent,
      List.append_nil] at marked
    exact exists_declaration_of_mark marked
  | _ => cases isMention

end Load

namespace Schema

/-- What the protocol of a schema relies on. -/
structure Sound (s : Schema) : Prop where
  tidy : ∀ type ∈ nodesOf [.record s.asRecord], type.Tidy
  home : s.nameSpace ≠ some ""
  named : ∀ d ∈ s.definitions, d.name ≠ "" ∧ isDotted d.name = false
  distinct : (s.definitions.map Declaration.name).Nodup
  /-- The definition that a reference names starts before the reference. -/
  ordered : ∀ before name after,
    nodesOf [.record s.asRecord] = before ++ .reference name :: after →
      ∃ d : Declaration, d.toType ∈ before ∧
        (name = d.name ∨ name = TypeName.full ⟨d.name, s.nameSpace⟩)

variable {source name : String} {s : Schema}

theorem nameSpace_ne_empty_of_load (loaded : load source name = .ok s) :
    s.nameSpace ≠ some "" := by
  obtain ⟨json, steps, t, -, described, -⟩ := (load_eq_ok_iff source name s).mp loaded
  obtain ⟨top, rest, rfl, same⟩ := described.starts
  obtain ⟨members, around, header⟩ := described.fits.headed top List.mem_cons_self
  rw [← same]
  exact header.nameSpace_ne_empty

theorem name_ne_empty_of_load (loaded : load source name = .ok s) :
    ∀ d ∈ s.definitions, d.name ≠ "" := by
  obtain ⟨json, steps, t, -, described, runs⟩ := (load_eq_ok_iff source name s).mp loaded
  intro d member
  have inNames : d.name ∈ t.defined.map TypeName.simple :=
    described.names runs ▸ List.mem_map_of_mem member
  obtain ⟨defined, inDefined, same⟩ := List.mem_map.mp inNames
  obtain ⟨members, around, header⟩ := described.headed runs defined inDefined
  rw [← same]
  exact header.nonempty

theorem exists_earlier_of_load (loaded : load source name = .ok s) {before after : List AvroType}
    {reference : String}
    (split : nodesOf [.record s.asRecord] = before ++ .reference reference :: after) :
    ∃ d : Declaration, d.toType ∈ before ∧
      (reference = d.name ∨ reference = TypeName.full ⟨d.name, s.nameSpace⟩) := by
  obtain ⟨json, steps, t, -, described, runs⟩ := (load_eq_ok_iff source name s).mp loaded
  obtain ⟨found, inDefined, spelled, d, inBefore, same⟩ :=
    described.fits.exists_earlier runs (described.plain runs) split
  refine ⟨d, inBefore, ?_⟩
  rw [same, ← described.together runs found inDefined]
  exact spelled

/-- Every text that loads gives a schema in which field names and symbols are distinct, unions are
not empty, arrays have no key class, the namespace is not empty, all types have names of their own
without dots, and each reference is the simple or the full name of a type that is defined earlier,
or of the one that is being defined. -/
theorem loaded_is_sound (source name : String) (s : Schema) (loaded : load source name = .ok s) :
    s.Sound := by
  have wellNamed := wellNamed_of_load loaded
  constructor
  · intro type member
    exact (formed_of_load loaded type member).tidy
  · exact nameSpace_ne_empty_of_load loaded
  · intro d member
    exact ⟨name_ne_empty_of_load loaded d member, wellNamed.plain d member⟩
  · exact wellNamed.distinct
  · intro before reference after split
    exact exists_earlier_of_load loaded split

theorem nested_is_sound : nested.Sound :=
  loaded_is_sound nestedSource "nested.avsc" nested (load_nestedSource _)

end Schema

end AvroIdl
