import AvroIdl.Proofs.Declaration.Definitions
import AvroIdl.Proofs.Idl.ReadBlocks
import AvroIdl.Proofs.Schema.TypeName

/-
Types are recovered from their outlines and those of their definitions. A name stands for its
definition where it is met first, and for a reference wherever it is met again.
-/
set_option autoImplicit false

namespace AvroIdl

open Declaration (ofType?)

/-- The types go on after definitions of the names `seen`: they define new names only, and refer
to what was defined before. -/
structure Continues (nameSpace : Option String) (seen : List String) (types : List AvroType) :
    Prop where
  distinct : (seen ++ (definitionsOf types).map Declaration.name).Nodup
  plain : ∀ d ∈ definitionsOf types, isDotted d.name = false
  ordered : ∀ before name after, nodesOf types = before ++ .reference name :: after →
    ∃ n ∈ seen ++ (before.filterMap ofType?).map Declaration.name,
      name = n ∨ name = TypeName.full ⟨n, nameSpace⟩

theorem nodesOf_cons_eq (type : AvroType) (rest : List AvroType) :
    nodesOf (type :: rest) = type :: nodesOf (type.parts ++ rest) := by
  rw [nodesOf_cons, AvroType.nodes_eq, nodesOf_append, List.cons_append]

theorem definitionsOf_cons_eq (type : AvroType) (rest : List AvroType) :
    definitionsOf (type :: rest) = (ofType? type).toList ++ definitionsOf (type.parts ++ rest) := by
  rw [definitionsOf, nodesOf_cons_eq, List.filterMap_cons]
  cases ofType? type <;> rfl

namespace Continues

variable {nameSpace : Option String} {seen : List String} {type : AvroType} {rest : List AvroType}

/-- What a type defines has been seen when its parts and what follows it are read. -/
theorem parts (continues : Continues nameSpace seen (type :: rest)) :
    Continues nameSpace (seen ++ ((ofType? type).map Declaration.name).toList)
      (type.parts ++ rest) := by
  have names : (seen ++ ((ofType? type).map Declaration.name).toList) ++
      (definitionsOf (type.parts ++ rest)).map Declaration.name =
        seen ++ (definitionsOf (type :: rest)).map Declaration.name := by
    rw [definitionsOf_cons_eq, List.map_append, List.append_assoc]
    cases ofType? type <;> rfl
  constructor
  · rw [names]
    exact continues.distinct
  · intro d member
    apply continues.plain
    rw [definitionsOf_cons_eq]
    exact List.mem_append_right _ member
  · intro before name after split
    have whole : nodesOf (type :: rest) = type :: before ++ .reference name :: after := by
      rw [nodesOf_cons_eq, split, List.cons_append]
    obtain ⟨n, found, spelled⟩ := continues.ordered (type :: before) name after whole
    refine ⟨n, ?_, spelled⟩
    rw [List.filterMap_cons] at found
    rw [List.append_assoc]
    cases defined : ofType? type <;> rw [defined] at found <;> exact found

/-- A name that is not seen yet is that of a definition. -/
theorem not_reference {d : Declaration} {others : List AvroType}
    (continues : Continues nameSpace seen (d.toType :: rest)) :
    ¬ Continues nameSpace seen (.reference d.name :: others) := by
  intro referring
  have defined : ofType? d.toType = some d := (Declaration.ofType?_eq_some_iff _ _).mpr rfl
  have first : definitionsOf (d.toType :: rest) =
      d :: definitionsOf (d.toType.parts ++ rest) := by
    rw [definitionsOf_cons_eq, defined]
    rfl
  have fresh : d.name ∉ seen := by
    intro member
    have distinct := continues.distinct
    rw [first, List.map_cons] at distinct
    exact (List.nodup_append.mp distinct).2.2 _ member _ List.mem_cons_self rfl
  have plain : isDotted d.name = false := continues.plain d (first ▸ List.mem_cons_self)
  obtain ⟨n, found, spelled⟩ := referring.ordered [] d.name (nodesOf others) rfl
  rw [List.filterMap_nil, List.map_nil, List.append_nil] at found
  rcases spelled with same | same
  · exact fresh (same ▸ found)
  · cases nameSpace with
    | none => exact fresh (same ▸ found)
    | some nameSpace =>
      rw [TypeName.isDotted_eq_false_iff, same] at plain
      exact plain (by simp [TypeName.full])

end Continues

/-- Apart from their parts, two types do not differ. -/
structure Alike (type other : AvroType) : Prop where
  parts : type.parts.map AvroType.outline = other.parts.map AvroType.outline
  same : type.parts = other.parts → type = other

theorem Field.eq_of_outline {field other : Field} (outlines : field.outline = other.outline)
    (types : field.type = other.type) : field = other := by
  obtain ⟨name, type, doc, default, userDataType⟩ := field
  obtain ⟨name', type', doc', default', userDataType'⟩ := other
  simp only [Field.outline, FieldOf.mk.injEq] at outlines
  obtain ⟨rfl, -, rfl, rfl, rfl⟩ := outlines
  cases types
  rfl

theorem Field.list_eq_of_outlines {fields others : List Field}
    (outlines : fields.map Field.outline = others.map Field.outline)
    (types : fields.map FieldOf.type = others.map FieldOf.type) : fields = others := by
  induction fields generalizing others with
  | nil => exact (List.map_eq_nil_iff.mp outlines.symm).symm
  | cons field fields ih =>
    cases others with
    | nil => cases outlines
    | cons other others =>
      rw [List.map_cons, List.map_cons, List.cons.injEq] at outlines types
      rw [Field.eq_of_outline outlines.1 types.1, ih outlines.2 types.2]

theorem Alike.of_records {type other : RecordType}
    (outlines : (Declaration.record type).outline = (Declaration.record other).outline) :
    Alike (.record type) (.record other) := by
  obtain ⟨name, doc, fields⟩ := type
  obtain ⟨name', doc', others⟩ := other
  simp only [Declaration.outline, Declaration.record.injEq, RecordOf.mk.injEq] at outlines
  obtain ⟨rfl, rfl, lines⟩ := outlines
  constructor
  · have types := congrArg (List.map FieldOf.type) lines
    rw [List.map_map, List.map_map] at types
    simp only [AvroType.parts, RecordType.fieldTypes, List.map_map]
    exact types
  · intro types
    rw [Field.list_eq_of_outlines lines types]

theorem Alike.rfl {type : AvroType} : Alike type type :=
  ⟨Eq.refl _, fun _ => Eq.refl _⟩

/-- Outlines leave out nothing but what the names of definitions stand for. -/
theorem Alike.of_outline {type other : AvroType} (outlines : type.outline = other.outline)
    (definitions :
      (ofType? type).map Declaration.outline = (ofType? other).map Declaration.outline) :
    Alike type other := by
  cases type with
  | record type =>
    cases other with
    | record other => exact .of_records (Option.some.inj definitions)
    | _ => cases definitions
  | enum type =>
    cases other with
    | enum other =>
      cases definitions
      exact .rfl
    | _ => cases definitions
  | union members =>
    cases other with
    | union others =>
      rw [AvroType.outline, AvroType.outline, AvroType.union.injEq, AvroType.outlines_eq_map,
        AvroType.outlines_eq_map] at outlines
      exact ⟨outlines, fun parts => congrArg AvroType.union parts⟩
    | _ => cases outlines
  | map values keyClass javaClass =>
    cases other with
    | map others keyClass' javaClass' =>
      rw [AvroType.outline, AvroType.outline, AvroType.map.injEq] at outlines
      obtain ⟨inner, rfl, rfl⟩ := outlines
      refine ⟨congrArg (fun type => [type]) inner, ?_⟩
      intro parts
      cases parts
      exact Eq.refl _
    | _ => cases outlines
  | array items keyClass javaClass =>
    cases other with
    | array others keyClass' javaClass' =>
      rw [AvroType.outline, AvroType.outline, AvroType.array.injEq] at outlines
      obtain ⟨inner, rfl, rfl⟩ := outlines
      refine ⟨congrArg (fun type => [type]) inner, ?_⟩
      intro parts
      cases parts
      exact Eq.refl _
    | _ => cases outlines
  | _ =>
    cases other <;> first
      | (cases outlines <;> exact .rfl)
      | cases definitions

theorem name_outline (d : Declaration) : d.outline.name = d.name := by
  cases d <;> rfl

theorem names_eq_of_outlines {d d' : Option Declaration}
    (outlines : d.map Declaration.outline = d'.map Declaration.outline) :
    d.map Declaration.name = d'.map Declaration.name := by
  have kept : Declaration.name ∘ Declaration.outline = Declaration.name := funext name_outline
  have names := congrArg (Option.map Declaration.name) outlines
  rwa [Option.map_map, Option.map_map, kept] at names

theorem eq_reference_of_outline {type : AvroType} {name : String}
    (outlines : type.outline = .reference name) (undefined : ofType? type = none) :
    type = .reference name := by
  cases type with
  | record type | enum type => cases undefined
  | reference other => exact outlines
  | _ => cases outlines

theorem outline_toType (d : Declaration) : d.toType.outline = .reference d.name := by
  cases d <;> rfl

variable {nameSpace : Option String} {seen : List String} {type other : AvroType}
  {types others : List AvroType}

/-- At the same place either both types are definitions or none is. -/
theorem definitions_eq_of_outline (continues : Continues nameSpace seen (type :: types))
    (continues' : Continues nameSpace seen (other :: others))
    (outlines : type.outline = other.outline)
    (definitions : (definitionsOf (type :: types)).map Declaration.outline =
      (definitionsOf (other :: others)).map Declaration.outline) :
    (ofType? type).map Declaration.outline = (ofType? other).map Declaration.outline := by
  cases defined : ofType? type with
  | none =>
    cases defined' : ofType? other with
    | none => rfl
    | some d =>
      rw [Declaration.ofType?_eq_some_iff] at defined'
      subst defined'
      rw [outline_toType] at outlines
      cases eq_reference_of_outline outlines defined
      exact absurd continues continues'.not_reference
  | some d =>
    cases defined' : ofType? other with
    | none =>
      rw [Declaration.ofType?_eq_some_iff] at defined
      subst defined
      rw [outline_toType] at outlines
      cases eq_reference_of_outline outlines.symm defined'
      exact absurd continues' continues.not_reference
    | some d' =>
      rw [definitionsOf_cons_eq, definitionsOf_cons_eq, defined, defined'] at definitions
      exact congrArg some (List.head_eq_of_cons_eq definitions)

/-- Types are told by their outlines and those of their definitions. -/
theorem eq_of_outlines (continues : Continues nameSpace seen types)
    (continues' : Continues nameSpace seen others)
    (outlines : types.map AvroType.outline = others.map AvroType.outline)
    (definitions : (definitionsOf types).map Declaration.outline =
      (definitionsOf others).map Declaration.outline) : types = others := by
  -- the parts of the first type go before the types after it, which uses up one node
  induction nodes : nodesOf types generalizing seen types others with
  | nil =>
    cases types with
    | nil => exact (List.map_eq_nil_iff.mp outlines.symm).symm
    | cons type types =>
      rw [nodesOf_cons_eq] at nodes
      cases nodes
  | cons node rest ih =>
    cases types with
    | nil => cases nodes
    | cons type types =>
      cases others with
      | nil => cases outlines
      | cons other others =>
        rw [List.map_cons, List.map_cons, List.cons.injEq] at outlines
        have first := definitions_eq_of_outline continues continues' outlines.1 definitions
        have alike := Alike.of_outline outlines.1 first
        have names := names_eq_of_outlines first
        have inside : type.parts ++ types = other.parts ++ others := by
          refine ih continues.parts ?_ ?_ ?_ ?_
          · rw [names]
            exact continues'.parts
          · rw [List.map_append, List.map_append, alike.parts, outlines.2]
          · rw [definitionsOf_cons_eq, definitionsOf_cons_eq, List.map_append, List.map_append,
              ← Option.toList_map, ← Option.toList_map, first] at definitions
            exact List.append_cancel_left definitions
          · rw [nodesOf_cons_eq] at nodes
            exact List.tail_eq_of_cons_eq nodes
        have sizes : type.parts.length = other.parts.length := by
          simpa only [List.length_map] using congrArg List.length alike.parts
        obtain ⟨parts, after⟩ := List.append_inj inside sizes
        rw [alike.same parts, after]

end AvroIdl
