import AvroIdl.Proofs.Declaration.Definitions
import AvroIdl.Proofs.Load.Descriptions

/-
The names in a type against the steps of its description: what a type defines and what it
refers to stand in the same order as the steps that define names and look them up.
-/
set_option autoImplicit false

namespace AvroIdl

/-- What a type or a step does with a name. -/
inductive Mark
  | defines (simple : String)
  | refers (name : String)
  deriving DecidableEq

def Mark.defines? : Mark → Option String
  | .defines simple => some simple
  | .refers _ => none

def AvroType.mark? : AvroType → Option Mark
  | .record type => some (.defines type.name)
  | .enum type => some (.defines type.name)
  | .reference name => some (.refers name)
  | _ => none

/-- The marks of all types that stand in some types. -/
def marksOf (types : List AvroType) : List Mark :=
  (nodesOf types).filterMap AvroType.mark?

@[simp] theorem marksOf_append (types rest : List AvroType) :
    marksOf (types ++ rest) = marksOf types ++ marksOf rest := by
  rw [marksOf, nodesOf_append, List.filterMap_append, marksOf, marksOf]

theorem marksOf_singleton (type : AvroType) :
    marksOf [type] = type.mark?.toList ++ marksOf type.parts := by
  have whole : marksOf [type] = (type :: nodesOf type.parts).filterMap AvroType.mark? := by
    rw [marksOf, nodesOf_cons, nodesOf_nil, List.append_nil, AvroType.nodes_eq]
  rw [whole, List.filterMap_cons]
  cases type.mark? <;> rfl

namespace Load

def Step.mark? : Step → Option Mark
  | .define name => some (.defines name.simple)
  | .mention name _ => some (.refers name)
  | .warn _ => none

/-- The steps have the marks of the types, and what they define has been named by a header. -/
structure Fits (types : List AvroType) (steps : List Step) : Prop where
  marks : steps.filterMap Step.mark? = marksOf types
  headed : ∀ name ∈ defined steps, ∃ members around, Header members around name

theorem Fits.nil : Fits [] [] :=
  ⟨rfl, fun _ member => absurd member List.not_mem_nil⟩

theorem Fits.append {types others : List AvroType} {steps rest : List Step}
    (first : Fits types steps) (second : Fits others rest) :
    Fits (types ++ others) (steps ++ rest) := by
  constructor
  · rw [List.filterMap_append, marksOf_append, first.marks, second.marks]
  · intro name member
    rw [defined_append] at member
    rcases List.mem_append.mp member with earlier | later
    · exact first.headed name earlier
    · exact second.headed name later

/-- A type that is neither a definition nor a reference adds nothing to its parts. -/
theorem Fits.around {type : AvroType} {steps : List Step} (unmarked : type.mark? = none)
    (inside : Fits type.parts steps) : Fits [type] steps := by
  refine ⟨?_, inside.headed⟩
  rw [marksOf_singleton, unmarked]
  exact inside.marks

theorem Fits.define {type : AvroType} {steps : List Step} {members : Members}
    {around : Option String} {name : TypeName} (header : Header members around name)
    (marked : type.mark? = some (.defines name.simple)) (inside : Fits type.parts steps) :
    Fits [type] (.define name :: steps) := by
  constructor
  · rw [marksOf_singleton, marked, ← inside.marks]
    rfl
  · intro other member
    rcases List.mem_cons.mp member with rfl | later
    · exact ⟨members, around, header⟩
    · exact inside.headed other later

theorem fits_mention (name : String) (around : Option String) :
    Fits [.reference name] [.mention name around] :=
  ⟨rfl, fun _ member => absurd member List.not_mem_nil⟩

theorem fits_warnings (w : Option Warning) : Fits [] (warnings w) := by
  cases w with
  | none => exact Fits.nil
  | some w => exact ⟨rfl, fun _ member => absurd member List.not_mem_nil⟩

theorem fits_of_primitive? {word : String} {javaClass : Option String} {type : AvroType}
    (primitive : primitive? word javaClass = some type) : Fits [type] [] := by
  unfold primitive? at primitive
  split at primitive <;> cases primitive <;> exact Fits.around rfl Fits.nil

theorem fits_array {items : AvroType} {steps : List Step} (javaClass : Option String)
    (w : Option Warning) (inside : Fits [items] steps) :
    Fits [.array items none javaClass] (steps ++ warnings w) := by
  have whole : Fits [.array items none javaClass] steps := Fits.around rfl inside
  exact whole.append (fits_warnings w)

theorem fits_annotated (tag : String) (javaClass : Option String) (w : Option Warning) :
    Fits [(primitive? tag javaClass).getD .null] (warnings w) := by
  have bare : Fits [(primitive? tag javaClass).getD .null] [] := by
    cases primitive : primitive? tag javaClass with
    | none => exact Fits.around rfl Fits.nil
    | some type => exact fits_of_primitive? primitive
  exact bare.append (fits_warnings w)

mutual

theorem Describes.fits {around : Option String} {json : Json} {type : AvroType}
    {steps : List Step} : Describes around json type steps → Fits [type] steps
  | .word primitive => fits_of_primitive? primitive
  | .reference _ _ => fits_mention _ _
  | .union _ all => Fits.around rfl all.fits
  | .wrapped _ _ described => described.fits
  | .tagged _ _ described => described.fits

theorem DescribesTagged.fits {kind : Kind} {tag : String} {around : Option String}
    {members : Members} {type : AvroType} {steps : List Step} :
    DescribesTagged kind tag around members type steps → Fits [type] steps
  | .record described => described.fits
  | .enum shape => Fits.define shape.header (by rw [AvroType.mark?, shape.named]) Fits.nil
  | .array _ described _ => fits_array _ _ described.fits
  | .map _ described _ _ => Fits.around rfl described.fits
  | .primitive _ => fits_annotated _ _ _

theorem DescribesAll.fits {around : Option String} {items : List Json} {types : List AvroType}
    {steps : List Step} : DescribesAll around items types steps → Fits types steps
  | .nil => Fits.nil
  | .cons head tail => head.fits.append tail.fits

theorem DescribesRecord.fits {around : Option String} {members : Members} {name : TypeName}
    {type : RecordType} {steps : List Step} :
    DescribesRecord around members name type steps → Fits [.record type] steps
  | .mk shape _ all => Fits.define shape.header (by rw [AvroType.mark?, shape.named]) all.fits

theorem DescribesFields.fits {around : Option String} {items : List Json} {fields : List Field}
    {steps : List Step} :
    DescribesFields around items fields steps → Fits (fields.map FieldOf.type) steps
  | .nil => Fits.nil
  | .cons head tail => head.fits.append tail.fits

theorem DescribesField.fits {around : Option String} {json : Json} {field : Field}
    {steps : List Step} : DescribesField around json field steps → Fits [field.type] steps
  | .mk _ _ described => described.fits

end

variable {types : List AvroType} {steps : List Step}

/-- The names of the definitions are the simple parts of the names defined, in the same order. -/
theorem Fits.names (fits : Fits types steps) :
    (definitionsOf types).map Declaration.name = (defined steps).map TypeName.simple := by
  have ofNodes : (definitionsOf types).map Declaration.name =
      (marksOf types).filterMap Mark.defines? := by
    rw [definitionsOf, marksOf, List.map_filterMap, List.filterMap_filterMap]
    congr 1
    funext type
    cases type <;> rfl
  have ofSteps : (defined steps).map TypeName.simple =
      (steps.filterMap Step.mark?).filterMap Mark.defines? := by
    rw [defined, List.map_filterMap, List.filterMap_filterMap]
    congr 1
    funext step
    cases step <;> rfl
  rw [ofNodes, ofSteps, fits.marks]

theorem Fits.exists_mention (fits : Fits types steps) {name : String}
    (member : .reference name ∈ nodesOf types) : ∃ around, .mention name around ∈ steps := by
  have marked : Mark.refers name ∈ marksOf types :=
    List.mem_filterMap.mpr ⟨.reference name, member, rfl⟩
  rw [← fits.marks] at marked
  obtain ⟨step, inSteps, isMention⟩ := List.mem_filterMap.mp marked
  cases step with
  | mention other around =>
    cases isMention
    exact ⟨around, inSteps⟩
  | _ => cases isMention

end Load

end AvroIdl
