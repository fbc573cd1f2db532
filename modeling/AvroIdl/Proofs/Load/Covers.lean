import AvroIdl.Proofs.Load.Reads
import AvroIdl.Proofs.Load.Sites

/-
What describes a type has valid sites only, and the names in them are those that the steps of
the description define and look up.
-/
set_option autoImplicit false

namespace AvroIdl.Load

theorem text?_of_gives {members : Members} {key : String} {text : Option String}
    (gives : members.Gives key text) : text? members key = text := by
  cases text with
  | none =>
    rcases gives with missing | null
    · rw [text?, missing]
      rfl
    · rw [text?, null]
      rfl
  | some text => exact (text?_eq_some_iff members key text).mpr gives

theorem header_iff (members : Members) (around : Option String) (name : TypeName) :
    Header members around name ↔ Headed members ∧ ownName? members around = some name := by
  constructor
  · rintro ⟨⟨raw, given, found, gives, rfl⟩, nonempty⟩
    refine ⟨⟨⟨raw, found, nonempty⟩, given, gives⟩, ?_⟩
    rw [ownName?, (text?_eq_some_iff _ _ _).mpr found, text?_of_gives gives]
    rfl
  · rintro ⟨⟨⟨raw, found, nonempty⟩, given, gives⟩, named⟩
    rw [ownName?, (text?_eq_some_iff _ _ _).mpr found, text?_of_gives gives] at named
    cases named
    exact ⟨⟨raw, given, found, gives, rfl⟩, nonempty⟩

theorem isDefault_iff (json : Json) : IsDefault json ↔ ∃ d, DescribesDefault json d := by
  constructor
  · intro allowed
    match json, allowed with
    | .null, _ => exact ⟨_, .null⟩
    | .bool b, _ => exact ⟨_, .bool b⟩
    | .number spelling, _ => exact ⟨_, .number spelling⟩
    | .string text, _ => exact ⟨_, .text text⟩
    | .object [], _ => exact ⟨_, .emptyMap⟩
    | .array [], _ => exact ⟨_, .emptyArray⟩
  · rintro ⟨d, described⟩
    cases described <;> exact trivial

namespace Site

/-- The name that is defined or mentioned here, as a step. -/
def step? (site : Site) : Option Step :=
  match site.name? with
  | some name => some (.define name)
  | none => site.reference?.map (.mention · site.around)

section Object

variable {around : Option String} {members : Members} {tag : String} {kind : Kind}

theorem kind?_of_tag (found : members.get? "type" = some (.string tag))
    (known : Load.kind? tag = some kind) : (Site.mk around (.object members)).kind? = some kind := by
  have tagged : text? members "type" = some tag := (text?_eq_some_iff _ _ _).mpr found
  rw [Site.kind?, Site.members, Json.members?, Option.getD_some, tagged]
  exact known

theorem kind?_of_untagged {inner : Json} (found : members.get? "type" = some inner)
    (untagged : inner.text? = none) : (Site.mk around (.object members)).kind? = none := by
  rw [Site.kind?, Site.members, Json.members?, Option.getD_some, text?, found, Option.bind_some,
    untagged]
  rfl

theorem inside_of_untagged {inner : Json} (found : members.get? "type" = some inner)
    (untagged : inner.text? = none) :
    (Site.mk around (.object members)).inside = [⟨around, inner⟩] := by
  rw [Site.inside]
  dsimp only
  rw [found]
  cases inner with
  | string text => cases untagged
  | _ => rfl

theorem inside_of_tag (found : members.get? "type" = some (.string tag))
    (known : Load.kind? tag = some kind) :
    (Site.mk around (.object members)).inside = insideAs kind members around := by
  rw [Site.inside]
  dsimp only
  rw [found]
  dsimp only
  rw [known]

end Object

/-- A site that is no record and no enum has nothing to check but its shape. -/
theorem valid_of_unnamed {site : Site} (shaped : Shaped site.json)
    (notRecord : site.kind? ≠ some .record) (notEnum : site.kind? ≠ some .enum) : site.Valid := by
  have noFields : site.fields = [] := by
    rw [fields]
    split
    · exact absurd ‹_› notRecord
    · rfl
  have noSymbols : site.symbols = [] := by
    rw [symbols]
    split
    · exact absurd ‹_› notEnum
    · rfl
  refine ⟨shaped, ?_, ?_, ?_⟩
  · intro item member
    rw [noFields] at member
    cases member
  · rw [noFields]
    exact List.nodup_nil
  · rw [noSymbols]
    exact List.nodup_nil

end Site

/-- Whether a step concerns a name. -/
def Step.isNaming : Step → Bool
  | .define _ | .mention _ _ => true
  | .warn _ => false

/-- The steps define and mention the same names, in the same order. -/
def SameNames (steps others : List Step) : Prop :=
  others.filter Step.isNaming = steps.filter Step.isNaming

theorem SameNames.append {first second others more : List Step} (head : SameNames first others)
    (tail : SameNames second more) : SameNames (first ++ second) (others ++ more) := by
  rw [SameNames, List.filter_append, List.filter_append, head, tail]

theorem SameNames.define {steps others : List Step} (same : SameNames steps others)
    (name : TypeName) : SameNames (.define name :: steps) (.define name :: others) := by
  rw [SameNames, List.filter_cons_of_pos rfl, List.filter_cons_of_pos rfl, same]

theorem SameNames.name_eq {steps others : List Step} {name other : TypeName}
    (same : SameNames (.define name :: steps) (.define other :: others)) : other = name := by
  rw [SameNames, List.filter_cons_of_pos rfl, List.filter_cons_of_pos rfl] at same
  cases (List.cons.inj same).1
  rfl

theorem sameNames_warnings (first second : Option Warning) :
    SameNames (warnings first) (warnings second) := by
  cases first <;> cases second <;> rfl

/-- The sites are valid, and the names in them are those of the steps. -/
structure Covers (sites : List Site) (steps : List Step) : Prop where
  valid : ∀ site ∈ sitesOf sites, site.Valid
  naming : steps.filter Step.isNaming = (sitesOf sites).filterMap Site.step?

theorem Covers.nil : Covers [] [] :=
  ⟨fun _ member => absurd member List.not_mem_nil, rfl⟩

theorem Covers.append {sites others : List Site} {steps rest : List Step}
    (first : Covers sites steps) (second : Covers others rest) :
    Covers (sites ++ others) (steps ++ rest) := by
  constructor
  · intro site member
    rw [sitesOf_append] at member
    rcases List.mem_append.mp member with inFirst | inSecond
    · exact first.valid site inFirst
    · exact second.valid site inSecond
  · rw [List.filter_append, sitesOf_append, List.filterMap_append, first.naming, second.naming]

theorem Covers.around {site : Site} {steps : List Step} (valid : site.Valid)
    (inside : Covers site.inside steps) : Covers [site] (site.step?.toList ++ steps) := by
  have whole : sitesOf [site] = site :: sitesOf site.inside := by
    rw [sitesOf_cons, sitesOf_nil, List.append_nil, site.sites_eq]
  constructor
  · intro other member
    rw [whole] at member
    rcases List.mem_cons.mp member with rfl | below
    · exact valid
    · exact inside.valid other below
  · have named : site.step?.toList.filter Step.isNaming = site.step?.toList := by
      rw [List.filter_eq_self]
      intro step isStep
      rw [Option.mem_toList, Site.step?] at isStep
      split at isStep
      · cases isStep
        rfl
      · obtain ⟨name, -, rfl⟩ := Option.map_eq_some_iff.mp isStep
        rfl
    rw [List.filter_append, named, inside.naming, whole, List.filterMap_cons]
    cases site.step? <;> rfl

theorem covers_warnings (w : Option Warning) : Covers [] (warnings w) := by
  cases w with
  | none => exact Covers.nil
  | some w => exact ⟨fun _ member => absurd member List.not_mem_nil, rfl⟩

theorem supported_of_primitive? {name : String} {javaClass : Option String} {type : AvroType}
    (primitive : primitive? name javaClass = some type) : name ∉ unsupported := by
  unfold primitive? at primitive
  split at primitive <;> first | decide | cases primitive

section Word

variable {around : Option String} {name : String}

theorem valid_of_word (supported : name ∉ unsupported) : (Site.mk around (.string name)).Valid :=
  Site.valid_of_unnamed (.word supported) (by rintro ⟨⟩) (by rintro ⟨⟩)

theorem step?_of_word : (Site.mk around (.string name)).step? =
    if (primitive? name none).isNone then some (.mention name around) else none := by
  have reads : (Site.mk around (.string name)).step? =
      (Option.filter (fun name => (primitive? name none).isNone) (some name)).map
        (Step.mention · around) := rfl
  rw [reads, Option.filter_some]
  cases (primitive? name none).isNone <;> rfl

theorem covers_primitive {type : AvroType} (primitive : primitive? name none = some type) :
    Covers [⟨around, .string name⟩] [] := by
  have valid : (Site.mk around (.string name)).Valid :=
    valid_of_word (supported_of_primitive? primitive)
  have covers := Covers.around valid Covers.nil
  rwa [step?_of_word, primitive] at covers

theorem covers_reference (other : primitive? name none = none) (supported : name ∉ unsupported) :
    Covers [⟨around, .string name⟩] [.mention name around] := by
  have valid : (Site.mk around (.string name)).Valid := valid_of_word supported
  have covers := Covers.around valid Covers.nil
  rwa [step?_of_word, other] at covers

end Word

section Tagged

variable {around : Option String} {members : Members} {tag : String} {kind : Kind}
  {name : TypeName} {steps : List Step}

theorem name?_of_tag (found : members.get? "type" = some (.string tag))
    (known : kind? tag = some kind) :
    (Site.mk around (.object members)).name? =
      match kind with
      | .record | .enum => ownName? members around
      | _ => none := by
  rw [Site.name?, Site.kind?_of_tag found known]
  cases kind <;> rfl

theorem step?_of_tag (found : members.get? "type" = some (.string tag))
    (known : kind? tag = some kind) :
    (Site.mk around (.object members)).step? =
      match kind with
      | .record | .enum => (ownName? members around).map .define
      | _ => none := by
  rw [Site.step?, name?_of_tag found known]
  cases kind with
  | record | enum =>
    dsimp only
    cases ownName? members around <;> rfl
  | _ => rfl

/-- An object that is no definition adds nothing to what it holds. -/
theorem covers_unnamed (found : members.get? "type" = some (.string tag))
    (known : kind? tag = some kind) (notRecord : kind ≠ .record) (notEnum : kind ≠ .enum)
    (shaped : ShapedAs kind members) (inside : Covers (Site.insideAs kind members around) steps) :
    Covers [⟨around, .object members⟩] steps := by
  have isKind : (Site.mk around (.object members)).kind? = some kind :=
    Site.kind?_of_tag found known
  have valid : (Site.mk around (.object members)).Valid := by
    apply Site.valid_of_unnamed (.tagged found known shaped)
    · rw [isKind]
      exact fun same => notRecord (Option.some.inj same)
    · rw [isKind]
      exact fun same => notEnum (Option.some.inj same)
  rw [← Site.inside_of_tag found known] at inside
  have covers := Covers.around valid inside
  rw [step?_of_tag found known] at covers
  cases kind with
  | record => exact absurd rfl notRecord
  | enum => exact absurd rfl notEnum
  | _ => exact covers

theorem covers_definition (found : members.get? "type" = some (.string tag))
    (known : kind? tag = some kind) (named : kind = .record ∨ kind = .enum)
    (header : ownName? members around = some name)
    (valid : (Site.mk around (.object members)).Valid)
    (inside : Covers (Site.insideAs kind members around) steps) :
    Covers [⟨around, .object members⟩] (.define name :: steps) := by
  rw [← Site.inside_of_tag found known] at inside
  have covers := Covers.around valid inside
  rw [step?_of_tag found known, header] at covers
  rcases named with rfl | rfl <;> exact covers

theorem covers_enum {type : EnumType} (found : members.get? "type" = some (.string tag))
    (known : kind? tag = some .enum) (shape : EnumShape members around name type) :
    Covers [⟨around, .object members⟩] [.define name] := by
  obtain ⟨headed, header⟩ := (header_iff _ _ _).mp shape.header
  have isKind : (Site.mk around (.object members)).kind? = some .enum :=
    Site.kind?_of_tag found known
  have symbols : (Site.mk around (.object members)).symbols = type.symbols.map Json.string := by
    have listed : (Site.mk around (.object members)).symbols = listed members "symbols" := by
      rw [Site.symbols, isKind]
      rfl
    rw [listed, Load.listed, shape.symbols]
  have noFields : (Site.mk around (.object members)).fields = [] := by
    rw [Site.fields, isKind]
  apply covers_definition found known (.inr rfl) header _ Covers.nil
  refine ⟨.tagged found known (.enum headed ⟨_, shape.doc⟩ shape.symbols), ?_, ?_, ?_⟩
  · intro item member
    rw [noFields] at member
    cases member
  · rw [noFields]
    exact List.nodup_nil
  · rw [symbols, List.filterMap_map]
    have texts : type.symbols.filterMap (Json.text? ∘ Json.string) = type.symbols :=
      List.filterMap_some
    rw [texts]
    exact shape.distinct

/-- What the fields of a record say by themselves. -/
structure FieldsFit (items : List Json) (fields : List Field) : Prop where
  shaped : ∀ item ∈ items, ShapedField item
  defaults : ∀ item ∈ items, ∀ value, fieldDefault? item = some value → IsDefault value
  names : items.filterMap fieldName? = fields.map FieldOf.name

theorem covers_record {type : RecordType} {items : List Json}
    (found : members.get? "type" = some (.string tag)) (known : kind? tag = some .record)
    (shape : RecordShape members around name type)
    (isList : members.get? "fields" = some (.array items)) (fit : FieldsFit items type.fields)
    (inside : Covers ((items.filterMap fieldType?).map (Site.mk name.nameSpace)) steps) :
    Covers [⟨around, .object members⟩] (.define name :: steps) := by
  obtain ⟨headed, header⟩ := (header_iff _ _ _).mp shape.header
  have isKind : (Site.mk around (.object members)).kind? = some .record :=
    Site.kind?_of_tag found known
  have listed : listed members "fields" = items := by
    rw [Load.listed, isList]
  have fields : (Site.mk around (.object members)).fields = items := by
    rw [Site.fields, isKind]
    exact listed
  have noSymbols : (Site.mk around (.object members)).symbols = [] := by
    rw [Site.symbols, isKind]
  apply covers_definition found known (.inl rfl) header
  · refine ⟨.tagged found known (.record headed ⟨_, shape.doc⟩ isList fit.shaped), ?_, ?_, ?_⟩
    · rw [fields]
      exact fit.defaults
    · rw [fields, fit.names]
      exact shape.distinct
    · rw [noSymbols]
      exact List.nodup_nil
  · rw [Site.insideAs, listed, header]
    exact inside

end Tagged

/-- The sites of the fields of a record, and what the fields say by themselves. -/
structure CoversFields (around : Option String) (items : List Json) (fields : List Field)
    (steps : List Step) : Prop where
  fit : FieldsFit items fields
  covers : Covers ((items.filterMap fieldType?).map (Site.mk around)) steps

theorem CoversFields.nil (around : Option String) : CoversFields around [] [] [] :=
  ⟨⟨fun _ member => absurd member List.not_mem_nil,
    fun _ member => absurd member List.not_mem_nil, rfl⟩, Covers.nil⟩

theorem CoversFields.append {around : Option String} {items others : List Json}
    {fields moreFields : List Field} {steps rest : List Step}
    (first : CoversFields around items fields steps)
    (second : CoversFields around others moreFields rest) :
    CoversFields around (items ++ others) (fields ++ moreFields) (steps ++ rest) := by
  refine ⟨⟨?_, ?_, ?_⟩, ?_⟩
  · intro item member
    rcases List.mem_append.mp member with inFirst | inSecond
    · exact first.fit.shaped item inFirst
    · exact second.fit.shaped item inSecond
  · intro item member
    rcases List.mem_append.mp member with inFirst | inSecond
    · exact first.fit.defaults item inFirst
    · exact second.fit.defaults item inSecond
  · rw [List.filterMap_append, first.fit.names, second.fit.names, List.map_append]
  · rw [List.filterMap_append, List.map_append]
    exact first.covers.append second.covers

theorem coversFields_singleton {around : Option String} {members : Members} {json : Json}
    {field : Field} {steps : List Step} (shape : FieldShape members field)
    (found : members.get? "type" = some json) (covers : Covers [⟨around, json⟩] steps) :
    CoversFields around [.object members] [field] steps := by
  refine ⟨⟨?_, ?_, ?_⟩, ?_⟩
  · intro item member
    rw [List.mem_singleton.mp member]
    exact .mk ⟨_, shape.named⟩ ⟨_, found⟩ ⟨_, shape.doc⟩ ⟨_, shape.userDataType⟩
  · intro item member value isDefault
    rw [List.mem_singleton.mp member] at isDefault
    have given : members.get? "default" = some value := isDefault
    have related := shape.default
    rw [given] at related
    generalize field.default = known at related
    cases related with
    | some described => exact (isDefault_iff value).mpr ⟨_, described⟩
  · have isName : fieldName? (.object members) = some field.name :=
      (text?_eq_some_iff _ _ _).mpr shape.named
    rw [List.filterMap_cons, isName]
    rfl
  · have isType : fieldType? (.object members) = some json := found
    rw [List.filterMap_cons, isType]
    exact covers

theorem covers_wrapped {around : Option String} {members : Members} {inner : Json}
    {steps : List Step} (found : members.get? "type" = some inner) (untagged : inner.text? = none)
    (covers : Covers [⟨around, inner⟩] steps) : Covers [⟨around, .object members⟩] steps := by
  have unknown : (Site.mk around (.object members)).kind? = none :=
    Site.kind?_of_untagged found untagged
  have shaped : Shaped (.object members) := by
    have below := (covers.valid ⟨around, inner⟩ (mem_sitesOf.mpr
      ⟨_, List.mem_singleton.mpr rfl, Site.mem_sites_self _⟩)).shaped
    cases below with
    | word _ => cases untagged
    | union _ => exact .wrappedArray found
    | wrappedObject _ | wrappedArray _ | tagged _ _ _ => exact .wrappedObject found
  have valid : (Site.mk around (.object members)).Valid :=
    Site.valid_of_unnamed shaped (by rw [unknown]; rintro ⟨⟩) (by rw [unknown]; rintro ⟨⟩)
  rw [← Site.inside_of_untagged found untagged] at covers
  have whole := Covers.around valid covers
  have silent : (Site.mk around (.object members)).step? = none := by
    rw [Site.step?, Site.name?, unknown]
    rfl
  rwa [silent] at whole

mutual

theorem Describes.covers {around : Option String} {json : Json} {type : AvroType}
    {steps : List Step} : Describes around json type steps → Covers [⟨around, json⟩] steps
  | .word primitive => covers_primitive primitive
  | .reference other supported => covers_reference other supported
  | .union nonempty all =>
    Covers.around (Site.valid_of_unnamed (.union nonempty) (by rintro ⟨⟩) (by rintro ⟨⟩)) all.covers
  | .wrapped found untagged described => covers_wrapped found untagged described.covers
  | .tagged found known described => described.covers found known

theorem DescribesTagged.covers {kind : Kind} {tag : String} {around : Option String}
    {members : Members} {type : AvroType} {steps : List Step}
    (found : members.get? "type" = some (.string tag)) (known : kind? tag = some kind) :
    DescribesTagged kind tag around members type steps → Covers [⟨around, .object members⟩] steps
  | .record described => described.covers found known
  | .enum shape => covers_enum found known shape
  | .array isItems described hinted => by
    apply covers_unnamed found known (by rintro ⟨⟩) (by rintro ⟨⟩) (.array isItems ⟨_, hinted⟩)
    have inside := described.covers.append (covers_warnings (keyClassWarning members))
    rwa [Site.insideAs, isItems]
  | .map isValues described keyed hinted => by
    apply covers_unnamed found known (by rintro ⟨⟩) (by rintro ⟨⟩)
      (.map isValues ⟨_, keyed⟩ ⟨_, hinted⟩)
    rw [Site.insideAs, isValues]
    exact described.covers
  | .primitive hinted =>
    covers_unnamed found known (by rintro ⟨⟩) (by rintro ⟨⟩) (.primitive ⟨_, hinted⟩)
      (covers_warnings _)

theorem DescribesAll.covers {around : Option String} {items : List Json} {types : List AvroType}
    {steps : List Step} :
    DescribesAll around items types steps → Covers (items.map (Site.mk around)) steps
  | .nil => Covers.nil
  | .cons head tail => head.covers.append tail.covers

theorem DescribesRecord.covers {around : Option String} {members : Members} {name : TypeName}
    {type : RecordType} {steps : List Step} {tag : String}
    (found : members.get? "type" = some (.string tag)) (known : kind? tag = some .record) :
    DescribesRecord around members name type steps → Covers [⟨around, .object members⟩] steps
  | .mk shape isList all =>
    have inside := all.covers
    covers_record found known shape isList inside.fit inside.covers

theorem DescribesFields.covers {around : Option String} {items : List Json} {fields : List Field}
    {steps : List Step} :
    DescribesFields around items fields steps → CoversFields around items fields steps
  | .nil => CoversFields.nil around
  | .cons head tail => head.covers.append tail.covers

theorem DescribesField.covers {around : Option String} {json : Json} {field : Field}
    {steps : List Step} :
    DescribesField around json field steps → CoversFields around [json] [field] steps
  | .mk shape found described => coversFields_singleton shape found described.covers

end

end AvroIdl.Load
