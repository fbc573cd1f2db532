import AvroIdl.Proofs.Load.Descriptions

/-
The places of a document where a type stands, in document order, and what each of them must
be like by itself.
-/
set_option autoImplicit false

namespace AvroIdl

namespace Load

/-- The name that a definition gives itself, when its members are well formed. -/
def ownName? (members : Members) (around : Option String) : Option TypeName :=
  (text? members "name").map fun raw =>
    ⟨(TypeName.ofDotted raw).simple,
      (text? members "namespace" <|> (TypeName.ofDotted raw).nameSpace <|> around).filter (· ≠ "")⟩

/-- The items of a list that stands under a key. -/
def listed (members : Members) (key : String) : List Json :=
  match members.get? key with
  | some (.array items) => items
  | _ => []

def fieldName? (item : Json) : Option String :=
  item.members?.bind (text? · "name")

def fieldType? (item : Json) : Option Json :=
  item.members?.bind (Members.get? · "type")

def fieldDefault? (item : Json) : Option Json :=
  item.members?.bind (Members.get? · "default")

/-- A value that stands for a type, and the namespace around it. -/
structure Site where
  around : Option String
  json : Json

namespace Site

def members (site : Site) : Members :=
  site.json.members?.getD []

/-- What the tag of an object says that it is. -/
def kind? (site : Site) : Option Kind :=
  (text? site.members "type").bind Load.kind?

/-- The name that is defined here. -/
def name? (site : Site) : Option TypeName :=
  match site.kind? with
  | some .record | some .enum => ownName? site.members site.around
  | _ => none

/-- The name of a defined type that is mentioned here. -/
def reference? (site : Site) : Option String :=
  site.json.text?.filter fun name => (primitive? name none).isNone

def fields (site : Site) : List Json :=
  match site.kind? with
  | some .record => listed site.members "fields"
  | _ => []

def symbols (site : Site) : List Json :=
  match site.kind? with
  | some .enum => listed site.members "symbols"
  | _ => []

/-- The types that stand directly inside of an object of each kind, in order. What a record
holds is in the namespace of the record. -/
def insideAs (kind : Kind) (members : Members) (around : Option String) : List Site :=
  match kind with
  | .record =>
    ((listed members "fields").filterMap fieldType?).map
      (Site.mk ((ownName? members around).bind TypeName.nameSpace))
  | .array => (Members.get? members "items").toList.map (Site.mk around)
  | .map => (Members.get? members "values").toList.map (Site.mk around)
  | .enum | .primitive => []

/-- The types that stand directly inside. An object whose tag is no text stands for its tag. -/
def inside (site : Site) : List Site :=
  match site.json with
  | .array items => items.map (Site.mk site.around)
  | .object members =>
    match Members.get? members "type" with
    | some (.string tag) =>
      match Load.kind? tag with
      | some kind => insideAs kind members site.around
      | none => []
    | some inner => [⟨site.around, inner⟩]
    | none => []
  | _ => []

end Site

theorem sizeOf_listed (members : Members) (key : String) :
    sizeOf (listed members key) < sizeOf members + 1 := by
  rw [listed]
  split
  · rename_i items found
    have smaller := Members.sizeOf_get?_array found
    omega
  · have positive : 1 ≤ sizeOf members := by
      cases members with
      | nil => exact Nat.le_refl 1
      | cons head rest => rw [List.cons.sizeOf_spec]; omega
    rw [List.nil.sizeOf_spec]
    omega

theorem sizeOf_fieldType? {item type : Json} (found : fieldType? item = some type) :
    sizeOf type < sizeOf item := by
  obtain ⟨members, isObject, isType⟩ := Option.bind_eq_some_iff.mp found
  cases item with
  | object inner =>
    cases isObject
    have smaller := Members.sizeOf_get? isType
    rw [Json.object.sizeOf_spec]
    omega
  | _ => cases isObject

theorem Site.sizeOf_insideAs {kind : Kind} {members : Members} {around : Option String}
    {inner : Site} (member : inner ∈ insideAs kind members around) :
    sizeOf inner.json < sizeOf members + 1 := by
  cases kind with
  | record =>
    obtain ⟨type, isType, rfl⟩ := List.mem_map.mp member
    obtain ⟨item, inItems, typed⟩ := List.mem_filterMap.mp isType
    have less := sizeOf_fieldType? typed
    have below := List.sizeOf_lt_of_mem inItems
    have bound := sizeOf_listed members "fields"
    dsimp only
    omega
  | array | map =>
    obtain ⟨type, isType, rfl⟩ := List.mem_map.mp member
    have less := Members.sizeOf_get? (Option.mem_toList.mp isType)
    dsimp only
    omega
  | enum | primitive => cases member

theorem Site.sizeOf_inside {site inner : Site} (member : inner ∈ site.inside) :
    sizeOf inner.json < sizeOf site.json := by
  obtain ⟨around, json⟩ := site
  cases json with
  | array items =>
    obtain ⟨item, inItems, rfl⟩ := List.mem_map.mp member
    have smaller := List.sizeOf_lt_of_mem inItems
    rw [Json.array.sizeOf_spec]
    dsimp only
    omega
  | object members =>
    rw [Json.object.sizeOf_spec]
    rw [Site.inside] at member
    dsimp only at member
    split at member
    · split at member
      · have less := sizeOf_insideAs member
        omega
      · cases member
    · rename_i other notText found
      rw [List.mem_singleton.mp member]
      have less := Members.sizeOf_get? found
      dsimp only
      omega
    · cases member
  | _ => cases member

/-- What passes from the sites inside of a site to the site holds of every site. -/
@[elab_as_elim]
theorem Site.induction_inside {motive : Site → Prop}
    (whole : ∀ site, (∀ inner ∈ site.inside, motive inner) → motive site) (site : Site) :
    motive site := by
  induction size : sizeOf site.json using Nat.strongRecOn generalizing site with
  | ind bound smaller =>
    apply whole
    intro inner member
    exact smaller _ (by have := Site.sizeOf_inside member; omega) inner rfl

/-- A site and all sites inside of it, in document order. -/
def Site.sites (site : Site) : List Site :=
  site :: site.inside.attach.flatMap fun inner => inner.1.sites
termination_by sizeOf site.json
decreasing_by exact Site.sizeOf_inside inner.2

/-- All sites of some sites. -/
def sitesOf (sites : List Site) : List Site :=
  sites.flatMap Site.sites

@[simp] theorem sitesOf_nil : sitesOf [] = [] := rfl

@[simp] theorem sitesOf_cons (site : Site) (rest : List Site) :
    sitesOf (site :: rest) = site.sites ++ sitesOf rest := rfl

@[simp] theorem sitesOf_append (sites rest : List Site) :
    sitesOf (sites ++ rest) = sitesOf sites ++ sitesOf rest :=
  List.flatMap_append

theorem mem_sitesOf {sites : List Site} {site : Site} :
    site ∈ sitesOf sites ↔ ∃ top ∈ sites, site ∈ top.sites :=
  List.mem_flatMap

theorem Site.sites_eq (site : Site) : site.sites = site :: sitesOf site.inside := by
  rw [Site.sites, sitesOf, List.flatMap_subtype (fun _ _ => rfl), List.unattach_attach]

theorem Site.mem_sites_self (site : Site) : site ∈ site.sites := by
  rw [site.sites_eq]
  exact List.mem_cons_self

theorem Site.sites_subset_of_inside {site inner : Site} (member : inner ∈ site.inside) :
    inner.sites ⊆ site.sites := by
  intro deep inInner
  rw [site.sites_eq]
  exact List.mem_cons_of_mem _ (mem_sitesOf.mpr ⟨inner, member, inInner⟩)

/-- The names that some sites define. -/
def namesOf (sites : List Site) : List TypeName :=
  sites.filterMap Site.name?

/-- A member that is missing, null or a text. -/
def OptionalText (members : Members) (key : String) : Prop :=
  ∃ text, members.Gives key text

/-- What a record or an enum needs to be named. -/
structure Headed (members : Members) : Prop where
  named : ∃ raw, members.get? "name" = some (.string raw) ∧ (TypeName.ofDotted raw).simple ≠ ""
  nameSpace : OptionalText members "namespace"

/-- A field has a name and a type. -/
inductive ShapedField : Json → Prop
  | mk {members : Members} (named : ∃ name, members.get? "name" = some (.string name))
      (typed : ∃ type, members.get? "type" = some type) (doc : OptionalText members "doc")
      (userDataType : OptionalText members "userDataType") : ShapedField (.object members)

/-- The members that an object of each kind needs, and those that it may have. -/
inductive ShapedAs : Kind → Members → Prop
  | record {members : Members} {items : List Json} (headed : Headed members)
      (doc : OptionalText members "doc") (found : members.get? "fields" = some (.array items))
      (each : ∀ item ∈ items, ShapedField item) : ShapedAs .record members
  | enum {members : Members} {symbols : List String} (headed : Headed members)
      (doc : OptionalText members "doc")
      (found : members.get? "symbols" = some (.array (symbols.map Json.string))) :
      ShapedAs .enum members
  | array {members : Members} {items : Json} (found : members.get? "items" = some items)
      (hinted : OptionalText members "java-class") : ShapedAs .array members
  | map {members : Members} {values : Json} (found : members.get? "values" = some values)
      (keyed : OptionalText members "java-key-class")
      (hinted : OptionalText members "java-class") : ShapedAs .map members
  | primitive {members : Members} (hinted : OptionalText members "java-class") :
      ShapedAs .primitive members

/-- A type is a word, a list of types, an object that holds another type, or one whose tag is
known. -/
inductive Shaped : Json → Prop
  | word {name : String} (supported : name ∉ unsupported) : Shaped (.string name)
  | union {items : List Json} (nonempty : items ≠ []) : Shaped (.array items)
  | wrappedObject {members inner : Members}
      (found : members.get? "type" = some (.object inner)) : Shaped (.object members)
  | wrappedArray {members : Members} {inner : List Json}
      (found : members.get? "type" = some (.array inner)) : Shaped (.object members)
  | tagged {members : Members} {tag : String} {kind : Kind}
      (found : members.get? "type" = some (.string tag)) (known : kind? tag = some kind)
      (shaped : ShapedAs kind members) : Shaped (.object members)

/-- A scalar, or an empty list or object. -/
def IsDefault : Json → Prop
  | .null | .bool _ | .number _ | .string _ | .object [] | .array [] => True
  | .object (_ :: _) | .array (_ :: _) => False

/-- What a site must be like by itself, whatever is defined elsewhere. -/
structure Site.Valid (site : Site) : Prop where
  shaped : Shaped site.json
  defaults : ∀ item ∈ site.fields, ∀ value, fieldDefault? item = some value → IsDefault value
  distinctFields : (site.fields.filterMap fieldName?).Nodup
  distinctSymbols : (site.symbols.filterMap Json.text?).Nodup

end Load

end AvroIdl
