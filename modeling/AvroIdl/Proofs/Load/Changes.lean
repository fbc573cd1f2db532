import AvroIdl.Proofs.Load.Acceptance
import AvroIdl.Proofs.Load.WellNamed
import Mathlib.Logic.Relation

/-
Changes to one object of a document, at a place where a type or a field stands. If the object
describes the same as before, then so does the document: what is around the object only asks what
it describes.
-/
set_option autoImplicit false

namespace AvroIdl

namespace Members

/-- The same is found under each of these keys. -/
def AgreeOn (keys : List String) (members others : Members) : Prop :=
  ∀ key ∈ keys, others.get? key = members.get? key

/-- One value is exchanged for another. -/
structure Swaps (key : String) (json other : Json) (members others : Members) : Prop where
  found : members.get? key = some json
  swapped : others.get? key = some other
  rest : ∀ k, k ≠ key → others.get? k = members.get? k

variable {key : String} {keys fewer : List String} {json other : Json} {members others : Members}

theorem AgreeOn.symm (agree : AgreeOn keys members others) : AgreeOn keys others members :=
  fun key member => (agree key member).symm

theorem AgreeOn.mono (agree : AgreeOn keys members others) (fewer_subset : fewer ⊆ keys) :
    AgreeOn fewer members others :=
  fun key member => agree key (fewer_subset member)

theorem Swaps.symm (swaps : Swaps key json other members others) :
    Swaps key other json others members :=
  ⟨swaps.swapped, swaps.found, fun k apart => (swaps.rest k apart).symm⟩

theorem Swaps.agreeOn (swaps : Swaps key json other members others) (apart : key ∉ keys) :
    AgreeOn keys members others :=
  fun k member => swaps.rest k fun same => apart (same ▸ member)

theorem swaps_insert (found : members.get? key = some json) (other : Json) :
    Swaps key json other members (members.insert key other) := by
  refine ⟨found, ?_, fun k apart => ?_⟩
  · rw [get?_insert, if_pos rfl]
  · rw [get?_insert, if_neg apart.symm]

theorem Gives.of_eq {text : Option String} (gives : members.Gives key text)
    (same : others.get? key = members.get? key) : others.Gives key text := by
  cases text <;> rwa [Gives, same]

end Members

namespace Load

open Members (AgreeOn Swaps)

variable {members others : Members} {around : Option String} {name : TypeName} {json other : Json}
  {steps rest : List Step}

theorem Header.of_agree (header : Header members around name)
    (agree : AgreeOn ["name", "namespace"] members others) : Header others around name := by
  obtain ⟨⟨raw, given, named, gives, spelled⟩, nonempty⟩ := header
  refine ⟨⟨raw, given, ?_, gives.of_eq (agree _ (by decide)), spelled⟩, nonempty⟩
  rw [agree _ (by decide), named]

theorem RecordShape.of_agree {type : RecordType} (shape : RecordShape members around name type)
    (header : Header others around name) (agree : AgreeOn ["doc"] members others) :
    RecordShape others around name type :=
  ⟨header, shape.named, shape.doc.of_eq (agree _ (by decide)), shape.distinct⟩

theorem EnumShape.of_agree {type : EnumType} (shape : EnumShape members around name type)
    (header : Header others around name) (agree : AgreeOn ["doc", "symbols"] members others) :
    EnumShape others around name type := by
  refine ⟨header, shape.named, shape.doc.of_eq (agree _ (by decide)), ?_, shape.distinct⟩
  rw [agree _ (by decide), shape.symbols]

theorem FieldShape.of_agree {field : Field} (shape : FieldShape members field)
    (agree : AgreeOn ["name", "doc", "default", "userDataType"] members others) :
    FieldShape others field := by
  refine ⟨?_, shape.doc.of_eq (agree _ (by decide)), ?_,
    shape.userDataType.of_eq (agree _ (by decide))⟩
  · rw [agree _ (by decide), shape.named]
  · rw [agree _ (by decide)]
    exact shape.default

/-- An object with a known tag is described as one of that kind. -/
theorem Describes.of_tag {tag : String} {kind : Kind} {type : AvroType}
    (described : Describes around (.object members) type steps)
    (found : members.get? "type" = some (.string tag)) (known : kind? tag = some kind) :
    DescribesTagged kind tag around members type steps := by
  cases described with
  | wrapped isInner untagged _ =>
    cases found.symm.trans isInner
    cases untagged
  | tagged isTag isKind described =>
    cases found.symm.trans isTag
    cases known.symm.trans isKind
    exact described

theorem DescribesRecord.starts {type : RecordType}
    (described : DescribesRecord around members name type steps) :
    ∃ rest, steps = .define name :: rest := by
  cases described
  exact ⟨_, rfl⟩

/-- What the value describes the other one describes too, by steps that name the same. -/
def Keeps (json other : Json) : Prop :=
  ∀ around type steps, Describes around json type steps →
    ∃ rest, Describes around other type rest ∧ SameNames steps rest

def KeepsField (json other : Json) : Prop :=
  ∀ around field steps, DescribesField around json field steps →
    ∃ rest, DescribesField around other field rest ∧ SameNames steps rest

/-- What defines the same name in every namespace, and agrees on all else that is read of a
record, describes the same records. -/
theorem keeps_record {tag : String} (tagged : members.get? "type" = some (.string tag))
    (known : kind? tag = some .record)
    (headers : ∀ around name, Header members around name → Header others around name)
    (agree : AgreeOn ["type", "doc", "fields"] members others) :
    Keeps (.object members) (.object others) := by
  intro around type steps described
  cases described.of_tag tagged known with
  | record described =>
    obtain ⟨shape, found, all⟩ := described
    have tag := (agree _ (by decide)).trans tagged
    have list := (agree _ (by decide)).trans found
    have kept := shape.of_agree (headers _ _ shape.header) (agree.mono (by decide))
    exact ⟨_, .tagged tag known (.record (.mk kept list all)), rfl⟩

theorem keeps_enum {tag : String} (tagged : members.get? "type" = some (.string tag))
    (known : kind? tag = some .enum)
    (headers : ∀ around name, Header members around name → Header others around name)
    (agree : AgreeOn ["type", "doc", "symbols"] members others) :
    Keeps (.object members) (.object others) := by
  intro around type steps described
  cases described.of_tag tagged known with
  | enum shape =>
    have tag := (agree _ (by decide)).trans tagged
    have kept := shape.of_agree (headers _ _ shape.header) (agree.mono (by decide))
    exact ⟨_, .tagged tag known (.enum kept), rfl⟩

theorem Keeps.all (keeps : Keeps json other) (before after : List Json) {types : List AvroType}
    (described : DescribesAll around (before ++ json :: after) types steps) :
    ∃ rest, DescribesAll around (before ++ other :: after) types rest ∧ SameNames steps rest := by
  induction before generalizing types steps with
  | nil =>
    cases described with
    | cons head tail =>
      obtain ⟨first, described, same⟩ := keeps _ _ _ head
      exact ⟨_, .cons described tail, same.append rfl⟩
  | cons item before ih =>
    cases described with
    | cons head tail =>
      obtain ⟨later, described, same⟩ := ih tail
      exact ⟨_, .cons head described, SameNames.append rfl same⟩

theorem KeepsField.all (keeps : KeepsField json other) (before after : List Json)
    {fields : List Field}
    (described : DescribesFields around (before ++ json :: after) fields steps) :
    ∃ rest, DescribesFields around (before ++ other :: after) fields rest ∧
      SameNames steps rest := by
  induction before generalizing fields steps with
  | nil =>
    cases described with
    | cons head tail =>
      obtain ⟨first, described, same⟩ := keeps _ _ _ head
      exact ⟨_, .cons described tail, same.append rfl⟩
  | cons item before ih =>
    cases described with
    | cons head tail =>
      obtain ⟨later, described, same⟩ := ih tail
      exact ⟨_, .cons head described, SameNames.append rfl same⟩

theorem Keeps.member (keeps : Keeps json other) (before after : List Json) :
    Keeps (.array (before ++ json :: after)) (.array (before ++ other :: after)) := by
  intro around type steps described
  cases described with
  | union _ all =>
    obtain ⟨rest, described, same⟩ := keeps.all before after all
    exact ⟨rest, .union (by simp) described, same⟩

theorem Keeps.wrapped (keeps : Keeps json other) (untagged : json.text? = none)
    (untaggedOther : other.text? = none) (swaps : Swaps "type" json other members others) :
    Keeps (.object members) (.object others) := by
  intro around type steps described
  cases described with
  | wrapped found _ described =>
    cases swaps.found.symm.trans found
    obtain ⟨rest, described, same⟩ := keeps _ _ _ described
    exact ⟨rest, .wrapped swaps.swapped untaggedOther described, same⟩
  | tagged found _ _ =>
    cases swaps.found.symm.trans found
    cases untagged

theorem Keeps.items (keeps : Keeps json other)
    (tagged : members.get? "type" = some (.string "array"))
    (swaps : Swaps "items" json other members others) :
    Keeps (.object members) (.object others) := by
  intro around type steps described
  cases described.of_tag tagged rfl with
  | array found described hinted =>
    cases swaps.found.symm.trans found
    obtain ⟨rest, described, same⟩ := keeps _ _ _ described
    have tag : others.get? "type" = some (.string "array") :=
      (swaps.rest _ (by decide)).trans tagged
    have hint := hinted.of_eq (swaps.rest _ (by decide))
    exact ⟨_, .tagged tag rfl (.array swaps.swapped described hint),
      same.append (sameNames_warnings _ _)⟩

theorem Keeps.values (keeps : Keeps json other)
    (tagged : members.get? "type" = some (.string "map"))
    (swaps : Swaps "values" json other members others) :
    Keeps (.object members) (.object others) := by
  intro around type steps described
  cases described.of_tag tagged rfl with
  | map found described keyed hinted =>
    cases swaps.found.symm.trans found
    obtain ⟨rest, described, same⟩ := keeps _ _ _ described
    have tag : others.get? "type" = some (.string "map") :=
      (swaps.rest _ (by decide)).trans tagged
    have key := keyed.of_eq (swaps.rest _ (by decide))
    have hint := hinted.of_eq (swaps.rest _ (by decide))
    exact ⟨rest, .tagged tag rfl (.map swaps.swapped described key hint), same⟩

theorem KeepsField.record (keeps : KeepsField json other) {tag : String}
    (tagged : members.get? "type" = some (.string tag)) (known : kind? tag = some .record)
    (before after : List Json)
    (swaps : Swaps "fields" (.array (before ++ json :: after)) (.array (before ++ other :: after))
      members others) :
    Keeps (.object members) (.object others) := by
  intro around type steps described
  cases described.of_tag tagged known with
  | record described =>
    obtain ⟨shape, found, all⟩ := described
    cases swaps.found.symm.trans found
    obtain ⟨rest, described, same⟩ := keeps.all before after all
    have tag : others.get? "type" = some (.string tag) :=
      (swaps.rest _ (by decide)).trans tagged
    have header := shape.header.of_agree (swaps.agreeOn (by decide))
    have kept := shape.of_agree header (swaps.agreeOn (by decide))
    exact ⟨_, .tagged tag known (.record (.mk kept swaps.swapped described)), same.define _⟩

theorem Keeps.fieldType (keeps : Keeps json other)
    (swaps : Swaps "type" json other members others) :
    KeepsField (.object members) (.object others) := by
  rintro around field steps ⟨shape, found, described⟩
  cases swaps.found.symm.trans found
  obtain ⟨rest, described, same⟩ := keeps _ _ _ described
  exact ⟨rest, .mk (shape.of_agree (swaps.agreeOn (by decide))) swaps.swapped described, same⟩

end Load

open Load
open Members (Swaps)

mutual

/-- One object in the value is changed, where a type stands or a field of a record. -/
inductive Changes (ofType ofField : Members → Members → Prop) : Json → Json → Prop
  | here {members others : Members} (change : ofType members others) :
      Changes ofType ofField (.object members) (.object others)
  | member {before after : List Json} {json other : Json}
      (change : Changes ofType ofField json other) :
      Changes ofType ofField (.array (before ++ json :: after)) (.array (before ++ other :: after))
  | wrapped {members others : Members} {json other : Json}
      (swaps : Swaps "type" json other members others)
      (change : Changes ofType ofField json other) :
      Changes ofType ofField (.object members) (.object others)
  | items {members others : Members} {json other : Json}
      (tagged : members.get? "type" = some (.string "array"))
      (swaps : Swaps "items" json other members others)
      (change : Changes ofType ofField json other) :
      Changes ofType ofField (.object members) (.object others)
  | values {members others : Members} {json other : Json}
      (tagged : members.get? "type" = some (.string "map"))
      (swaps : Swaps "values" json other members others)
      (change : Changes ofType ofField json other) :
      Changes ofType ofField (.object members) (.object others)
  | field {members others : Members} {tag : String} {before after : List Json} {json other : Json}
      (tagged : members.get? "type" = some (.string tag))
      (known : kind? tag = some .record)
      (swaps : Swaps "fields" (.array (before ++ json :: after))
        (.array (before ++ other :: after)) members others)
      (change : ChangesField ofType ofField json other) :
      Changes ofType ofField (.object members) (.object others)

inductive ChangesField (ofType ofField : Members → Members → Prop) : Json → Json → Prop
  | here {members others : Members} (change : ofField members others) :
      ChangesField ofType ofField (.object members) (.object others)
  | type {members others : Members} {json other : Json}
      (swaps : Swaps "type" json other members others)
      (change : Changes ofType ofField json other) :
      ChangesField ofType ofField (.object members) (.object others)

end

namespace Load

/-- Neither value can be told from the other by what it describes. -/
structure Alike (json other : Json) : Prop where
  keeps : Keeps json other
  restores : Keeps other json

structure AlikeField (json other : Json) : Prop where
  keeps : KeepsField json other
  restores : KeepsField other json

theorem kind?_of_eq {members others : Members} (same : others.get? "type" = members.get? "type")
    (around : Option String) :
    (Site.mk around (.object others)).kind? = (Site.mk around (.object members)).kind? := by
  rw [Site.kind?, Site.kind?]
  exact congrArg (fun found => (found.bind Json.text?).bind kind?) same

variable {ofType ofField : Members → Members → Prop} {json other : Json}

theorem text?_of_changes (changes : Changes ofType ofField json other) :
    json.text? = none ∧ other.text? = none := by
  cases changes <;> exact ⟨rfl, rfl⟩

/-- A change that does not reach a tag leaves the kind of a type as it is. -/
theorem kind?_of_changes
    (tags : ∀ members others, ofType members others → others.get? "type" = members.get? "type")
    (changes : Changes ofType ofField json other) (around : Option String) :
    (Site.mk around other).kind? = (Site.mk around json).kind? := by
  cases changes with
  | here change => exact kind?_of_eq (tags _ _ change) around
  | member change => rfl
  | wrapped swaps change =>
    obtain ⟨untagged, untaggedOther⟩ := text?_of_changes change
    rw [Site.kind?_of_untagged swaps.found untagged,
      Site.kind?_of_untagged swaps.swapped untaggedOther]
  | items _ swaps _ | values _ swaps _ | field _ _ swaps _ =>
    exact kind?_of_eq (swaps.rest _ (by decide)) around

/-- A change under which the changed object describes what it did before. -/
structure Unnoticed (ofType ofField : Members → Members → Prop) : Prop where
  tags : ∀ members others, ofType members others → others.get? "type" = members.get? "type"
  types : ∀ members others, ofType members others → Alike (.object members) (.object others)
  fields : ∀ members others, ofField members others →
    AlikeField (.object members) (.object others)

mutual

theorem Unnoticed.alike (unnoticed : Unnoticed ofType ofField) {json other : Json} :
    Changes ofType ofField json other → Alike json other
  | .here change => unnoticed.types _ _ change
  | .member change =>
    have alike := unnoticed.alike change
    ⟨alike.keeps.member _ _, alike.restores.member _ _⟩
  | .wrapped swaps change =>
    have alike := unnoticed.alike change
    have ⟨untagged, untaggedOther⟩ := text?_of_changes change
    ⟨alike.keeps.wrapped untagged untaggedOther swaps,
      alike.restores.wrapped untaggedOther untagged swaps.symm⟩
  | .items tagged swaps change =>
    have alike := unnoticed.alike change
    have taggedOther := (swaps.rest _ (by decide)).trans tagged
    ⟨alike.keeps.items tagged swaps, alike.restores.items taggedOther swaps.symm⟩
  | .values tagged swaps change =>
    have alike := unnoticed.alike change
    have taggedOther := (swaps.rest _ (by decide)).trans tagged
    ⟨alike.keeps.values tagged swaps, alike.restores.values taggedOther swaps.symm⟩
  | .field tagged known swaps change =>
    have alike := unnoticed.alikeField change
    have taggedOther := (swaps.rest _ (by decide)).trans tagged
    ⟨alike.keeps.record tagged known _ _ swaps,
      alike.restores.record taggedOther known _ _ swaps.symm⟩

theorem Unnoticed.alikeField (unnoticed : Unnoticed ofType ofField) {json other : Json} :
    ChangesField ofType ofField json other → AlikeField json other
  | .here change => unnoticed.fields _ _ change
  | .type swaps change =>
    have alike := unnoticed.alike change
    ⟨alike.keeps.fieldType swaps, alike.restores.fieldType swaps.symm⟩

end

end Load

namespace Schema

variable {ofType ofField : Members → Members → Prop} {json other : Json}

/-- The first name defined is the same, and so the namespace is. -/
theorem ofJson_of_keeps (kind : (Site.mk none other).kind? = (Site.mk none json).kind?)
    (keeps : Keeps json other) {s : Schema} (accepted : (ofJson json).1 = .ok s) :
    (ofJson other).1 = .ok s := by
  obtain ⟨steps, described, runs⟩ := (ofJson_eq_ok_iff json s _).mp (Prod.ext accepted rfl)
  cases described with
  | @mk members tag name type _ found known described =>
    obtain ⟨rest, describedOther, same⟩ :=
      keeps none (.record type) steps (.tagged found known (.record described))
    have isRecord := kind.trans (Site.kind?_of_tag found known)
    obtain ⟨others, tagOther, nameOther, _, rfl, foundOther, knownOther, ⟨⟩, recordOther⟩ :=
      exists_describesRecord isRecord describedOther
    obtain ⟨t, runsOther⟩ := same.exists_runs runs
    obtain ⟨_, rfl⟩ := described.starts
    obtain ⟨_, rfl⟩ := recordOther.starts
    cases same.name_eq
    exact congrArg Prod.fst
      ((ofJson_eq_ok_iff _ _ t).mpr ⟨_, .mk foundOther knownOther recordOther, runsOther⟩)

/-- A load gives the same schema before and after such changes, or none either time. -/
theorem ofJson_of_changes (unnoticed : Unnoticed ofType ofField)
    (changes : Relation.ReflTransGen (Changes ofType ofField) json other) (s : Schema) :
    (ofJson json).1 = .ok s ↔ (ofJson other).1 = .ok s := by
  induction changes with
  | refl => exact Iff.rfl
  | tail _ change ih =>
    have alike := unnoticed.alike change
    have kind := kind?_of_changes unnoticed.tags change none
    exact ih.trans ⟨ofJson_of_keeps kind alike.keeps, ofJson_of_keeps kind.symm alike.restores⟩

/-- A change of the innermost enum is one of the layered record. -/
theorem changes_layered {enum other : Members}
    (change : Changes ofType ofField (.object enum) (.object other)) :
    Changes ofType ofField (.object (layeredOuter enum)) (.object (layeredOuter other)) := by
  have swapsInner : Swaps "fields" (.array ([] ++ nestedField "d" (.object enum) :: [_]))
      (.array ([] ++ nestedField "d" (.object other) :: [_]))
      (layeredInner enum) (layeredInner other) :=
    Members.swaps_insert rfl _
  have inner : Changes ofType ofField (.object (layeredInner enum))
      (.object (layeredInner other)) :=
    .field rfl rfl swapsInner (.type (Members.swaps_insert rfl _) change)
  have array : Changes ofType ofField (.object (layeredArray enum))
      (.object (layeredArray other)) :=
    .items rfl (Members.swaps_insert rfl _) inner
  have swapsOuter : Swaps "fields"
      (.array ([_] ++ nestedField "c" (.object (layeredArray enum)) :: []))
      (.array ([_] ++ nestedField "c" (.object (layeredArray other)) :: []))
      (layeredOuter enum) (layeredOuter other) :=
    Members.swaps_insert rfl _
  exact .field rfl rfl swapsOuter (.type (Members.swaps_insert rfl _) array)

end Schema

end AvroIdl
