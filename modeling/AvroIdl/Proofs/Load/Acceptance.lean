import AvroIdl.Proofs.Load.Covers
import AvroIdl.Proofs.Load.Document

/-
Which documents are accepted, said without loading them: each site is valid by itself, all
names lie in one namespace and differ, and references point back.
-/
set_option autoImplicit false

namespace AvroIdl

namespace Load

/-- A value describes some type. -/
def Describable (around : Option String) (json : Json) : Prop :=
  ∃ type steps, Describes around json type steps

theorem exists_describesAll {around : Option String} {items : List Json}
    (each : ∀ item ∈ items, Describable around item) :
    ∃ types steps, DescribesAll around items types steps := by
  induction items with
  | nil => exact ⟨[], [], .nil⟩
  | cons item rest ih =>
    obtain ⟨type, first, head⟩ := each item List.mem_cons_self
    obtain ⟨types, later, tail⟩ := ih fun other member => each other (List.mem_cons_of_mem _ member)
    exact ⟨_, _, .cons head tail⟩

theorem exists_describesField {around : Option String} {item : Json} (shaped : ShapedField item)
    (default : ∀ value, fieldDefault? item = some value → IsDefault value)
    (typed : ∀ type, fieldType? item = some type → Describable around type) :
    ∃ field steps, DescribesField around item field steps := by
  cases shaped with
  | @mk members named hasType doc userDataType =>
    obtain ⟨name, named⟩ := named
    obtain ⟨json, found⟩ := hasType
    obtain ⟨doc, givesDoc⟩ := doc
    obtain ⟨hint, givesHint⟩ := userDataType
    obtain ⟨type, steps, described⟩ := typed json found
    have defaulted : ∃ d, Option.Rel DescribesDefault (members.get? "default") d := by
      cases given : members.get? "default" with
      | none => exact ⟨none, .none⟩
      | some value =>
        obtain ⟨d, known⟩ := (isDefault_iff value).mp (default value given)
        exact ⟨some d, .some known⟩
    obtain ⟨d, defaulted⟩ := defaulted
    exact ⟨⟨name, type, doc, d, hint⟩, steps,
      .mk ⟨named, givesDoc, defaulted, givesHint⟩ found described⟩

theorem exists_describesFields {around : Option String} {items : List Json}
    (shaped : ∀ item ∈ items, ShapedField item)
    (defaults : ∀ item ∈ items, ∀ value, fieldDefault? item = some value → IsDefault value)
    (typed : ∀ item ∈ items, ∀ type, fieldType? item = some type → Describable around type) :
    ∃ fields steps, DescribesFields around items fields steps := by
  induction items with
  | nil => exact ⟨[], [], .nil⟩
  | cons item rest ih =>
    obtain ⟨field, first, head⟩ := exists_describesField (shaped item List.mem_cons_self)
      (defaults item List.mem_cons_self) (typed item List.mem_cons_self)
    obtain ⟨fields, later, tail⟩ := ih
      (fun other member => shaped other (List.mem_cons_of_mem _ member))
      (fun other member => defaults other (List.mem_cons_of_mem _ member))
      (fun other member => typed other (List.mem_cons_of_mem _ member))
    exact ⟨_, _, .cons head tail⟩

theorem exists_header {members : Members} (headed : Headed members) (around : Option String) :
    ∃ name, Header members around name := by
  obtain ⟨⟨raw, found, nonempty⟩, nameSpace⟩ := headed
  have named : ∃ name, ownName? members around = some name := by
    rw [ownName?, (text?_eq_some_iff _ _ _).mpr found]
    exact ⟨_, rfl⟩
  obtain ⟨name, named⟩ := named
  exact ⟨name, (header_iff _ _ _).mpr ⟨⟨⟨raw, found, nonempty⟩, nameSpace⟩, named⟩⟩

section Tagged

variable {around : Option String} {members : Members} {tag : String}

/-- A record is described once its fields are. -/
theorem describable_record (found : members.get? "type" = some (.string tag))
    (known : kind? tag = some .record) (valid : (Site.mk around (.object members)).Valid)
    (shaped : ShapedAs .record members)
    (inside : ∀ inner ∈ Site.insideAs .record members around, Describable inner.around inner.json) :
    Describable around (.object members) := by
  cases shaped with
  | @record _ items headed doc isList each =>
    obtain ⟨name, header⟩ := exists_header headed around
    have own := ((header_iff _ _ _).mp header).2
    obtain ⟨doc, givesDoc⟩ := doc
    have listed : listed members "fields" = items := by
      rw [Load.listed, isList]
    have fields : (Site.mk around (.object members)).fields = items := by
      rw [Site.fields, Site.kind?_of_tag found known]
      exact listed
    have typed : ∀ item ∈ items, ∀ type, fieldType? item = some type →
        Describable name.nameSpace type := by
      intro item member type isType
      have here := inside ⟨name.nameSpace, type⟩
      rw [Site.insideAs, listed, own] at here
      exact here (List.mem_map_of_mem (List.mem_filterMap.mpr ⟨item, member, isType⟩))
    obtain ⟨all, steps, described⟩ :=
      exists_describesFields each (fields ▸ valid.defaults) typed
    have names := described.covers.fit.names
    have distinct := valid.distinctFields
    rw [fields, names] at distinct
    exact ⟨.record ⟨name.simple, doc, all⟩, _, .tagged found known
      (.record (.mk ⟨header, rfl, givesDoc, distinct⟩ isList described))⟩

theorem describable_enum (found : members.get? "type" = some (.string tag))
    (known : kind? tag = some .enum) (valid : (Site.mk around (.object members)).Valid)
    (shaped : ShapedAs .enum members) : Describable around (.object members) := by
  cases shaped with
  | @enum _ symbols headed doc isList =>
    obtain ⟨name, header⟩ := exists_header headed around
    obtain ⟨doc, givesDoc⟩ := doc
    have distinct := valid.distinctSymbols
    have texts : symbols.filterMap (Json.text? ∘ Json.string) = symbols := List.filterMap_some
    rw [Site.symbols, Site.kind?_of_tag found known, show (Site.mk around (.object members)).members =
      members from rfl] at distinct
    dsimp only at distinct
    rw [listed, isList, List.filterMap_map, texts] at distinct
    exact ⟨.enum ⟨name.simple, doc, symbols⟩, _, .tagged found known
      (.enum ⟨header, rfl, givesDoc, isList, distinct⟩)⟩

theorem describable_of_kind {kind : Kind} (found : members.get? "type" = some (.string tag))
    (known : kind? tag = some kind) (valid : (Site.mk around (.object members)).Valid)
    (shaped : ShapedAs kind members)
    (inside : ∀ inner ∈ Site.insideAs kind members around, Describable inner.around inner.json) :
    Describable around (.object members) := by
  cases kind with
  | record => exact describable_record found known valid shaped inside
  | enum => exact describable_enum found known valid shaped
  | array =>
    cases shaped with
    | @array _ items isItems hinted =>
      obtain ⟨javaClass, hinted⟩ := hinted
      have here := inside ⟨around, items⟩
      rw [Site.insideAs, isItems] at here
      obtain ⟨type, steps, described⟩ := here (List.mem_singleton.mpr rfl)
      exact ⟨_, _, .tagged found known (.array isItems described hinted)⟩
  | map =>
    cases shaped with
    | @map _ values isValues keyed hinted =>
      obtain ⟨keyClass, keyed⟩ := keyed
      obtain ⟨javaClass, hinted⟩ := hinted
      have here := inside ⟨around, values⟩
      rw [Site.insideAs, isValues] at here
      obtain ⟨type, steps, described⟩ := here (List.mem_singleton.mpr rfl)
      exact ⟨_, _, .tagged found known (.map isValues described keyed hinted)⟩
  | primitive =>
    cases shaped with
    | primitive hinted =>
      obtain ⟨javaClass, hinted⟩ := hinted
      exact ⟨_, _, .tagged found known (.primitive hinted)⟩

end Tagged

/-- Sites that are all valid describe a type. -/
theorem describable_of_valid (site : Site) (valid : ∀ inner ∈ site.sites, inner.Valid) :
    Describable site.around site.json := by
  induction site using Site.induction_inside with
  | whole site ih =>
    have here := valid site site.mem_sites_self
    have inside : ∀ inner ∈ site.inside, Describable inner.around inner.json := by
      intro inner member
      exact ih inner member fun deep inInner => valid deep (Site.sites_subset_of_inside member inInner)
    obtain ⟨around, json⟩ := site
    cases here.shaped with
    | @word name supported =>
      cases primitive : primitive? name none with
      | some type => exact ⟨type, _, .word primitive⟩
      | none => exact ⟨_, _, .reference primitive supported⟩
    | union nonempty =>
      obtain ⟨types, steps, described⟩ := exists_describesAll fun item member =>
        inside ⟨around, item⟩ (List.mem_map_of_mem member)
      exact ⟨_, _, .union nonempty described⟩
    | @wrappedObject members inner found =>
      rw [Site.inside_of_untagged found rfl] at inside
      obtain ⟨type, steps, described⟩ := inside ⟨around, .object inner⟩ (List.mem_singleton.mpr rfl)
      exact ⟨type, steps, .wrapped found rfl described⟩
    | @wrappedArray members inner found =>
      rw [Site.inside_of_untagged found rfl] at inside
      obtain ⟨type, steps, described⟩ := inside ⟨around, .array inner⟩ (List.mem_singleton.mpr rfl)
      exact ⟨type, steps, .wrapped found rfl described⟩
    | tagged found known shaped =>
      rw [Site.inside_of_tag found known] at inside
      exact describable_of_kind found known here shaped inside

end Load

open Load

namespace Loading

/-- A state in which these names are defined. -/
def ofNames (names : List TypeName) : Loading :=
  ⟨names, []⟩

theorem allows_congr {s other : Loading} (same : s.defined = other.defined) (step : Step) :
    s.Allows step ↔ other.Allows step := by
  cases step <;> simp only [Allows, home, isDefined, resolves, same]

/-- A warning never ends a run, and what is defined does not depend on it. -/
theorem exists_runs_iff_naming {s other : Loading} (same : s.defined = other.defined)
    (steps : List Step) :
    (∃ t, s.Runs steps t) ↔ ∃ t, other.Runs (steps.filter Step.isNaming) t := by
  induction steps generalizing s other with
  | nil => exact ⟨fun _ => ⟨other, rfl⟩, fun _ => ⟨s, rfl⟩⟩
  | cons step rest ih =>
    have after : (s.after step).defined = (other.after step).defined := by
      rw [defined_after, defined_after, same]
    cases step with
    | warn w =>
      have silent : (s.after (.warn w)).defined = other.defined := same
      simp only [Runs, Allows, true_and]
      rw [ih silent]
      rfl
    | define name | mention name around =>
      rw [List.filter_cons_of_pos rfl]
      simp only [Runs, exists_and_left]
      rw [ih after, allows_congr same]

end Loading

/-- Only names can stop the steps; the last state may differ in its warnings. -/
theorem Load.SameNames.exists_runs {steps others : List Step} (same : SameNames steps others)
    {s t : Loading} (runs : s.Runs steps t) : ∃ t', s.Runs others t' := by
  rw [Loading.exists_runs_iff_naming rfl, same, ← Loading.exists_runs_iff_naming rfl]
  exact ⟨t, runs⟩

namespace Loading

theorem orderly_ofNames_iff (names : List TypeName) :
    (ofNames names).Orderly ↔
      (∃ home, ∀ name ∈ names, name.nameSpace = home) ∧ (names.map TypeName.full).Nodup := by
  constructor
  · intro orderly
    exact ⟨⟨_, orderly.together⟩, orderly.distinct⟩
  · rintro ⟨⟨home, together⟩, distinct⟩
    refine ⟨?_, distinct⟩
    cases names with
    | nil => exact fun _ member => absurd member List.not_mem_nil
    | cons first rest =>
      intro name member
      have same : (ofNames (first :: rest)).home = home := together first List.mem_cons_self
      rw [same]
      exact together name member

theorem orderly_append_iff (known : List TypeName) (name : TypeName)
    (orderly : (ofNames known).Orderly) :
    (ofNames (known ++ [name])).Orderly ↔ (ofNames known).Allows (.define name) := by
  constructor
  · intro grown
    obtain ⟨⟨home, together⟩, distinct⟩ := (orderly_ofNames_iff _).mp grown
    constructor
    · cases known with
      | nil => exact .inl rfl
      | cons first rest =>
        have isHome : first.nameSpace = home := together first List.mem_cons_self
        have added : name.nameSpace = home :=
          together name (List.mem_append_right _ (List.mem_singleton.mpr rfl))
        exact .inr (added.trans isHome.symm)
    · rw [isDefined_eq_false_iff]
      rw [List.map_append] at distinct
      intro member
      exact List.disjoint_of_nodup_append distinct member (List.mem_singleton.mpr rfl)
  · intro allowed
    exact orderly.after allowed

theorem Orderly.of_append {known more : List TypeName} (orderly : (ofNames (known ++ more)).Orderly) :
    (ofNames known).Orderly := by
  obtain ⟨⟨home, together⟩, distinct⟩ := (orderly_ofNames_iff _).mp orderly
  refine (orderly_ofNames_iff _).mpr ⟨⟨home, ?_⟩, ?_⟩
  · exact fun name member => together name (List.mem_append_left _ member)
  · rw [List.map_append] at distinct
    exact distinct.of_append_left

end Loading

namespace Load

/-- A property of the elements of a list and of what stands before them. -/
theorem forall_split_cons {α : Type} {P : List α → α → Prop} (first : α) (rest : List α) :
    (∀ before x after, first :: rest = before ++ x :: after → P before x) ↔
      P [] first ∧ ∀ before x after, rest = before ++ x :: after → P (first :: before) x := by
  constructor
  · intro all
    refine ⟨all [] first rest rfl, ?_⟩
    rintro before x after rfl
    exact all (first :: before) x after rfl
  · rintro ⟨here, later⟩ before x after split
    cases before with
    | nil =>
      cases split
      exact here
    | cons head before =>
      cases split
      exact later before x after rfl

theorem Site.reference?_of_name? {site : Site} {name : TypeName} (named : site.name? = some name) :
    site.reference? = none := by
  obtain ⟨around, json⟩ := site
  cases json with
  | string text => cases named
  | _ => rfl

/-- The references of some sites resolve, each among the names that are known and those that are
defined before it. -/
def Resolves (known : List TypeName) (sites : List Site) : Prop :=
  ∀ before site after, sites = before ++ site :: after → ∀ name, site.reference? = some name →
    (Loading.ofNames (known ++ namesOf before)).resolves name site.around = true

theorem resolves_cons_iff (known : List TypeName) (site : Site) (rest : List Site) :
    Resolves known (site :: rest) ↔
      (∀ name, site.reference? = some name →
        (Loading.ofNames known).resolves name site.around = true) ∧
      Resolves (known ++ site.name?.toList) rest := by
  have names : ∀ before, known ++ namesOf (site :: before) =
      known ++ site.name?.toList ++ namesOf before := by
    intro before
    rw [namesOf, List.filterMap_cons, List.append_assoc]
    cases site.name? <;> rfl
  rw [Resolves, forall_split_cons]
  simp only [names]
  rw [namesOf, List.filterMap_nil, List.append_nil]
  exact Iff.rfl

/-- The steps of some sites pass if the names in them are orderly and the references resolve. -/
theorem exists_runs_sites_iff (sites : List Site) (known : List TypeName)
    (orderly : (Loading.ofNames known).Orderly) :
    (∃ t, (Loading.ofNames known).Runs (sites.filterMap Site.step?) t) ↔
      (Loading.ofNames (known ++ namesOf sites)).Orderly ∧ Resolves known sites := by
  induction sites generalizing known with
  | nil =>
    rw [namesOf, List.filterMap_nil, List.filterMap_nil, List.append_nil]
    refine ⟨fun _ => ⟨orderly, ?_⟩, fun _ => ⟨_, rfl⟩⟩
    intro before site after split
    cases before <;> cases split
  | cons site rest ih =>
    rw [resolves_cons_iff]
    cases named : site.name? with
    | some name =>
      have noReference := Site.reference?_of_name? named
      have step : site.step? = some (.define name) := by
        rw [Site.step?, named]
      have names : known ++ namesOf (site :: rest) = known ++ [name] ++ namesOf rest := by
        rw [namesOf, List.filterMap_cons, named, List.append_assoc]
        rfl
      rw [List.filterMap_cons, step, names, noReference]
      simp only [Loading.Runs, exists_and_left, Option.toList_some]
      constructor
      · rintro ⟨allowed, runs⟩
        have grown := (Loading.orderly_append_iff known name orderly).mpr allowed
        obtain ⟨whole, resolved⟩ := (ih (known ++ [name]) grown).mp runs
        exact ⟨whole, by rintro _ ⟨⟩, resolved⟩
      · rintro ⟨whole, -, resolved⟩
        have grown := whole.of_append
        have allowed := (Loading.orderly_append_iff known name orderly).mp grown
        exact ⟨allowed, (ih (known ++ [name]) grown).mpr ⟨whole, resolved⟩⟩
    | none =>
      have names : namesOf (site :: rest) = namesOf rest := by
        rw [namesOf, List.filterMap_cons, named]
        rfl
      rw [names, Option.toList_none, List.append_nil, List.filterMap_cons, Site.step?, named]
      cases site.reference? with
      | none =>
        rw [Option.map_none]
        refine (ih known orderly).trans (and_congr_right' ?_)
        exact (and_iff_right (by rintro _ ⟨⟩)).symm
      | some name =>
        simp only [Option.map_some, Loading.Runs, exists_and_left, Option.some.injEq, forall_eq']
        rw [and_left_comm]
        exact and_congr_right' (ih known orderly)

theorem Site.exists_ownName? {site : Site} {name : TypeName} (named : site.name? = some name) :
    ownName? site.members site.around = some name := by
  rw [Site.name?] at named
  split at named
  · exact named
  · exact named
  · cases named

theorem plain_of_mem_namesOf {sites : List Site} {name : TypeName} (member : name ∈ namesOf sites) :
    isDotted name.simple = false := by
  obtain ⟨site, -, named⟩ := List.mem_filterMap.mp member
  obtain ⟨raw, -, rfl⟩ := Option.map_eq_some_iff.mp (Site.exists_ownName? named)
  exact TypeName.isDotted_simple_ofDotted raw

/-- What stands in a record is in the namespace of the record. -/
theorem Site.nameSpace_of_mem_inside {site inner : Site} (valid : site.Valid)
    (isRecord : site.kind? = some .record) (member : inner ∈ site.inside) :
    ∃ name, site.name? = some name ∧ name.nameSpace = inner.around := by
  obtain ⟨around, json⟩ := site
  cases valid.shaped with
  | word | union => cases isRecord
  | wrappedObject found | wrappedArray found =>
    rw [Site.kind?_of_untagged found rfl] at isRecord
    cases isRecord
  | tagged found known shaped =>
    rw [Site.kind?_of_tag found known] at isRecord
    cases isRecord
    rw [Site.inside_of_tag found known] at member
    cases shaped with
    | record headed doc isList each =>
      obtain ⟨type, -, rfl⟩ := List.mem_map.mp member
      obtain ⟨name, header⟩ := exists_header headed around
      have own := ((header_iff _ _ _).mp header).2
      refine ⟨name, ?_, ?_⟩
      · rw [name?_of_tag found known]
        exact own
      · rw [own]
        rfl

theorem Site.around_of_mem_inside {site inner : Site} (valid : site.Valid)
    (notRecord : site.kind? ≠ some .record) (member : inner ∈ site.inside) :
    inner.around = site.around := by
  obtain ⟨around, json⟩ := site
  cases valid.shaped with
  | word => cases member
  | union =>
    obtain ⟨item, -, rfl⟩ := List.mem_map.mp member
    rfl
  | wrappedObject found | wrappedArray found =>
    rw [Site.inside_of_untagged found rfl] at member
    rw [List.mem_singleton.mp member]
  | tagged found known shaped =>
    rw [Site.kind?_of_tag found known] at notRecord
    rw [Site.inside_of_tag found known] at member
    cases shaped with
    | record headed doc isList each => exact absurd rfl notRecord
    | array isItems hinted | map isValues keyed hinted =>
      obtain ⟨type, -, rfl⟩ := List.mem_map.mp member
      rfl
    | enum headed doc isList => cases member
    | primitive hinted => cases member

/-- The namespace around a site is the one around the whole, or that of a definition. -/
theorem Site.around_of_mem_sites {site inner : Site} (valid : ∀ site' ∈ site.sites, site'.Valid)
    (member : inner ∈ site.sites) :
    inner.around = site.around ∨ ∃ name ∈ namesOf site.sites, name.nameSpace = inner.around := by
  induction site using Site.induction_inside with
  | whole site ih =>
    rw [site.sites_eq] at member
    rcases List.mem_cons.mp member with rfl | below
    · exact .inl rfl
    · obtain ⟨next, isInside, inNext⟩ := mem_sitesOf.mp below
      have kept := Site.sites_subset_of_inside isInside
      have here := valid site site.mem_sites_self
      rcases ih next isInside (fun deep inDeep => valid deep (kept inDeep)) inNext with same | other
      · rw [same]
        by_cases isRecord : site.kind? = some .record
        · obtain ⟨name, named, same⟩ := Site.nameSpace_of_mem_inside here isRecord isInside
          exact .inr ⟨name, List.mem_filterMap.mpr ⟨site, site.mem_sites_self, named⟩, same⟩
        · exact .inl (Site.around_of_mem_inside here isRecord isInside)
      · obtain ⟨name, inNames, same⟩ := other
        exact .inr ⟨name, List.filterMap_subset Site.name? kept inNames, same⟩

/-- Where all names lie in one namespace, that one is around everything in the top record. -/
theorem Site.around_of_reference {site inner : Site} (isRecord : site.kind? = some .record)
    (valid : ∀ site' ∈ site.sites, site'.Valid) {home : Option String}
    (together : ∀ name ∈ namesOf site.sites, name.nameSpace = home) (member : inner ∈ site.sites)
    {reference : String} (isReference : inner.reference? = some reference) :
    inner.around = home := by
  rw [site.sites_eq] at member
  rcases List.mem_cons.mp member with rfl | below
  · obtain ⟨around, json⟩ := inner
    cases json with
    | string text => cases isRecord
    | _ => cases isReference
  · obtain ⟨next, isInside, inNext⟩ := mem_sitesOf.mp below
    have kept := Site.sites_subset_of_inside isInside
    obtain ⟨name, named, same⟩ :=
      Site.nameSpace_of_mem_inside (valid site site.mem_sites_self) isRecord isInside
    have isHome := together name (List.mem_filterMap.mpr ⟨site, site.mem_sites_self, named⟩)
    rcases Site.around_of_mem_sites (fun deep inDeep => valid deep (kept inDeep)) inNext with
      outer | ⟨other, inNames, inner⟩
    · rw [outer, ← same, isHome]
    · rw [← inner, together other (List.filterMap_subset Site.name? kept inNames)]

end Load

namespace Schema

open Loading (ofNames)

/-- What a document must be like to be accepted: the first four conditions are about each of its
sites alone, the others about the names in it. -/
structure Accepted (json : Json) : Prop where
  top : (Site.mk none json).kind? = some .record
  valid : ∀ site ∈ (Site.mk none json).sites, site.Valid
  distinct : ((namesOf (Site.mk none json).sites).map TypeName.full).Nodup
  together : ∃ home, ∀ name ∈ namesOf (Site.mk none json).sites, name.nameSpace = home
  /-- A reference is the simple or the full name of a definition that starts before it. -/
  ordered : ∀ before site after, (Site.mk none json).sites = before ++ site :: after →
    ∀ name, site.reference? = some name →
      ∃ d ∈ namesOf before, name = d.simple ∨ name = d.full

/-- A value that is tagged as a record describes a record. -/
theorem exists_describesRecord {around : Option String} {json : Json} {type : AvroType}
    {steps : List Step} (isRecord : (Site.mk around json).kind? = some .record)
    (described : Describes around json type steps) :
    ∃ (members : Members) (tag : String) (name : TypeName) (record : RecordType),
      json = .object members ∧ members.get? "type" = some (.string tag) ∧
        kind? tag = some .record ∧ type = .record record ∧
        DescribesRecord around members name record steps := by
  cases described with
  | wrapped found untagged _ =>
    rw [Site.kind?_of_untagged found untagged] at isRecord
    cases isRecord
  | tagged found known described =>
    rw [Site.kind?_of_tag found known] at isRecord
    cases isRecord
    cases described with
    | record described => exact ⟨_, _, _, _, rfl, found, known, rfl, described⟩
  | _ => cases isRecord

/-- A document that describes a record describes a schema, and only such a document does. -/
theorem exists_describesSchema_iff (json : Json) (steps : List Step) :
    (∃ s, DescribesSchema json s steps) ↔
      (Site.mk none json).kind? = some .record ∧ ∃ type, Describes none json type steps := by
  constructor
  · rintro ⟨s, ⟨found, known, described⟩⟩
    exact ⟨Site.kind?_of_tag found known, _, .tagged found known (.record described)⟩
  · rintro ⟨isRecord, type, described⟩
    obtain ⟨members, tag, name, record, rfl, found, known, rfl, describedRecord⟩ :=
      exists_describesRecord isRecord described
    exact ⟨_, .mk found known describedRecord⟩

/-- In one namespace a reference resolves if a definition before it has its name. -/
theorem resolves_iff_ordered {json : Json} (top : (Site.mk none json).kind? = some .record)
    (valid : ∀ site ∈ (Site.mk none json).sites, site.Valid) {home : Option String}
    (together : ∀ name ∈ namesOf (Site.mk none json).sites, name.nameSpace = home) :
    Resolves [] (Site.mk none json).sites ↔
      ∀ before site after, (Site.mk none json).sites = before ++ site :: after →
        ∀ name, site.reference? = some name →
          ∃ d ∈ namesOf before, name = d.simple ∨ name = d.full := by
  have same : ∀ before site after, (Site.mk none json).sites = before ++ site :: after →
      ∀ name, site.reference? = some name →
        ((ofNames ([] ++ namesOf before)).resolves name site.around = true ↔
          ∃ d ∈ namesOf before, name = d.simple ∨ name = d.full) := by
    intro before site after split name isReference
    have inSites : site ∈ (Site.mk none json).sites := by
      rw [split]
      exact List.mem_append_right _ List.mem_cons_self
    have kept : ∀ d ∈ namesOf before, d ∈ namesOf (Site.mk none json).sites := by
      intro d member
      rw [split, namesOf, List.filterMap_append]
      exact List.mem_append_left _ member
    have isHome : ∀ d ∈ namesOf before, d.nameSpace = site.around := by
      intro d member
      rw [together d (kept d member)]
      exact (Site.around_of_reference top valid together inSites isReference).symm
    exact Loading.resolves_iff (fun d member => plain_of_mem_namesOf member) isHome
  constructor
  · intro resolved before site after split name isReference
    exact (same before site after split name isReference).mp
      (resolved before site after split name isReference)
  · intro ordered before site after split name isReference
    exact (same before site after split name isReference).mpr
      (ordered before site after split name isReference)

/-- A value is loaded exactly if it is accepted: loading checks, defines and looks up in one pass
that stops at the first fault, and what it checks at each site does not depend on the others. -/
theorem ofJson_succeeds_iff (json : Json) :
    (∃ s, (ofJson json).1 = .ok s) ↔ Accepted json := by
  have succeeds : (∃ s, (ofJson json).1 = .ok s) ↔
      ∃ s steps t, DescribesSchema json s steps ∧ Loading.start.Runs steps t := by
    constructor
    · rintro ⟨s, found⟩
      obtain ⟨steps, described, runs⟩ := (ofJson_eq_ok_iff json s _).mp (Prod.ext found rfl)
      exact ⟨s, steps, _, described, runs⟩
    · rintro ⟨s, steps, t, described, runs⟩
      exact ⟨s, congrArg Prod.fst ((ofJson_eq_ok_iff json s t).mpr ⟨steps, described, runs⟩)⟩
  have runs_iff : ∀ steps, Covers [⟨none, json⟩] steps →
      ((∃ t, Loading.start.Runs steps t) ↔
        (ofNames (namesOf (Site.mk none json).sites)).Orderly ∧
          Resolves [] (Site.mk none json).sites) := by
    intro steps covers
    have naming := covers.naming
    rw [sitesOf_cons, sitesOf_nil, List.append_nil] at naming
    have runs := exists_runs_sites_iff (Site.mk none json).sites [] Loading.orderly_start
    rw [← naming] at runs
    exact (Loading.exists_runs_iff_naming rfl steps).trans runs
  rw [succeeds]
  constructor
  · rintro ⟨s, steps, t, described, runs⟩
    obtain ⟨top, type, describes⟩ := (exists_describesSchema_iff json steps).mp ⟨s, described⟩
    have covers := describes.covers
    have valid : ∀ site ∈ (Site.mk none json).sites, site.Valid := fun site member =>
      covers.valid site (mem_sitesOf.mpr ⟨_, List.mem_singleton.mpr rfl, member⟩)
    obtain ⟨orderly, resolved⟩ := (runs_iff steps covers).mp ⟨t, runs⟩
    obtain ⟨⟨home, together⟩, distinct⟩ := (Loading.orderly_ofNames_iff _).mp orderly
    exact ⟨top, valid, distinct, ⟨home, together⟩,
      (resolves_iff_ordered top valid together).mp resolved⟩
  · rintro ⟨top, valid, distinct, ⟨home, together⟩, ordered⟩
    obtain ⟨type, steps, describes⟩ := describable_of_valid ⟨none, json⟩ valid
    obtain ⟨s, described⟩ := (exists_describesSchema_iff json steps).mpr ⟨top, type, describes⟩
    have orderly := (Loading.orderly_ofNames_iff _).mpr ⟨⟨home, together⟩, distinct⟩
    have resolved := (resolves_iff_ordered top valid together).mpr ordered
    obtain ⟨t, runs⟩ := (runs_iff steps describes.covers).mpr ⟨orderly, resolved⟩
    exact ⟨s, steps, t, described, runs⟩

end Schema

end AvroIdl
