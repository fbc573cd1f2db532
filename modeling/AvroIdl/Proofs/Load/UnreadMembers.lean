import AvroIdl.Proofs.Load.Changes

/-
What is read of an object, and that the rest does not matter. Which keys are read depends on the
tag; some members of arrays and primitives are looked at for a warning only.
-/
set_option autoImplicit false

namespace AvroIdl

namespace Load

open Members (AgreeOn)

/-- The keys that are read of an object with a tag of this kind. -/
def Kind.keys : Kind → List String
  | .record => ["type", "name", "namespace", "doc", "fields"]
  | .enum => ["type", "name", "namespace", "doc", "symbols"]
  | .array => ["type", "items", "java-class"]
  | .map => ["type", "values", "java-key-class", "java-class"]
  | .primitive => ["type", "java-class"]

/-- The keys that are read of an object where a type stands. One without a known tag can only
wrap another type. -/
def typeKeys (members : Members) : List String :=
  (((text? members "type").bind kind?).map Kind.keys).getD ["type"]

def fieldKeys : List String :=
  ["name", "type", "default", "doc", "userDataType"]

variable {members others : Members}

theorem agreeOn_insert {keys : List String} {key : String} (unread : key ∉ keys) (value : Json) :
    AgreeOn keys members (members.insert key value) := by
  intro other read
  have apart : key ≠ other := fun same => unread (same ▸ read)
  rw [Members.get?_insert, if_neg apart]

theorem type_mem_typeKeys (members : Members) : "type" ∈ typeKeys members := by
  rw [typeKeys]
  cases (text? members "type").bind kind? with
  | none => exact List.mem_singleton_self _
  | some kind => cases kind <;> exact List.mem_cons_self

theorem typeKeys_of_tag {tag : String} {kind : Kind}
    (found : members.get? "type" = some (.string tag)) (known : kind? tag = some kind) :
    typeKeys members = kind.keys := by
  rw [typeKeys, (text?_eq_some_iff _ _ _).mpr found, Option.bind_some, known]
  rfl

/-- The tag is read, so which keys are read stays the same. -/
theorem typeKeys_of_agree (agree : AgreeOn (typeKeys members) members others) :
    typeKeys others = typeKeys members := by
  rw [typeKeys, typeKeys, text?, text?, agree _ (type_mem_typeKeys members)]

section Tagged

variable {tag : String} (found : members.get? "type" = some (.string tag))
include found

theorem keeps_array (known : kind? tag = some .array)
    (agree : AgreeOn Kind.array.keys members others) :
    Keeps (.object members) (.object others) := by
  intro around type steps described
  have tag := (agree _ (by decide)).trans found
  cases described.of_tag found known with
  | array isItems ofItems hinted =>
    have items := (agree _ (by decide)).trans isItems
    have hint := hinted.of_eq (agree _ (by decide))
    exact ⟨_, .tagged tag known (.array items ofItems hint),
      SameNames.append rfl (sameNames_warnings _ _)⟩

theorem keeps_map (known : kind? tag = some .map) (agree : AgreeOn Kind.map.keys members others) :
    Keeps (.object members) (.object others) := by
  intro around type steps described
  have tag := (agree _ (by decide)).trans found
  cases described.of_tag found known with
  | map isValues ofValues keyed hinted =>
    have values := (agree _ (by decide)).trans isValues
    have key := keyed.of_eq (agree _ (by decide))
    have hint := hinted.of_eq (agree _ (by decide))
    exact ⟨steps, .tagged tag known (.map values ofValues key hint), rfl⟩

theorem keeps_primitive (known : kind? tag = some .primitive)
    (agree : AgreeOn Kind.primitive.keys members others) :
    Keeps (.object members) (.object others) := by
  intro around type steps described
  have tag := (agree _ (by decide)).trans found
  cases described.of_tag found known with
  | primitive hinted =>
    have hint := hinted.of_eq (agree _ (by decide))
    exact ⟨_, .tagged tag known (.primitive hint), sameNames_warnings _ _⟩

theorem keeps_tagged {kind : Kind} (known : kind? tag = some kind)
    (agree : AgreeOn kind.keys members others) : Keeps (.object members) (.object others) := by
  cases kind with
  | record =>
    exact keeps_record found known (fun _ _ header => header.of_agree (agree.mono (by decide)))
      (agree.mono (by decide))
  | enum =>
    exact keeps_enum found known (fun _ _ header => header.of_agree (agree.mono (by decide)))
      (agree.mono (by decide))
  | array => exact keeps_array found known agree
  | map => exact keeps_map found known agree
  | primitive => exact keeps_primitive found known agree

end Tagged

theorem keeps_of_agree (agree : AgreeOn (typeKeys members) members others) :
    Keeps (.object members) (.object others) := by
  intro around type steps described
  cases described with
  | wrapped found untagged described =>
    have inner := (agree _ (type_mem_typeKeys members)).trans found
    exact ⟨steps, .wrapped inner untagged described, rfl⟩
  | tagged found known tagged =>
    rw [typeKeys_of_tag found known] at agree
    exact keeps_tagged found known agree _ _ _ (.tagged found known tagged)

theorem alike_of_agree (agree : AgreeOn (typeKeys members) members others) :
    Alike (.object members) (.object others) := by
  refine ⟨keeps_of_agree agree, keeps_of_agree ?_⟩
  rw [typeKeys_of_agree agree]
  exact agree.symm

theorem keepsField_of_agree (agree : AgreeOn fieldKeys members others) :
    KeepsField (.object members) (.object others) := by
  rintro around field steps ⟨shape, found, described⟩
  have type := (agree _ (by decide)).trans found
  exact ⟨steps, .mk (shape.of_agree (agree.mono (by decide))) type described, rfl⟩

end Load

open Load

/-- Members that are not read are changed in one object, where a type stands or a field. -/
def Json.ChangesUnread : Json → Json → Prop :=
  Changes (fun members others => members.AgreeOn (typeKeys members) others)
    (Members.AgreeOn fieldKeys)

namespace Schema

/-- Members that are not read do not matter, whatever they hold and wherever they stand. -/
theorem ofJson_of_unread {json other : Json}
    (changes : Relation.ReflTransGen Json.ChangesUnread json other) (s : Schema) :
    (ofJson json).1 = .ok s ↔ (ofJson other).1 = .ok s := by
  refine ofJson_of_changes ⟨?_, ?_, ?_⟩ changes s
  · exact fun members others agree => agree _ (type_mem_typeKeys members)
  · exact fun members others agree => alike_of_agree agree
  · exact fun members others agree => ⟨keepsField_of_agree agree, keepsField_of_agree agree.symm⟩

/-- An enum with fields, which only records have. -/
def fieldedEnum : Members :=
  [("fields", .null), ("name", .string "n.D"), ("symbols", .array []), ("type", .string "enum")]

def orderedField : Json :=
  .object [("name", .string "b"), ("order", .string "ignore"), ("type", layeredUnion)]

def layeredUnread : Members :=
  (layeredOuter fieldedEnum).insert "fields"
    (.array [orderedField, nestedField "c" (.object (layeredArray fieldedEnum))])

theorem layeredUnread_accepted :
    Relation.ReflTransGen Json.ChangesUnread layeredJson (.object layeredUnread) ∧
      (ofJson (.object layeredUnread)).1 = .ok layered := by
  have notOfEnum : "fields" ∉ Kind.enum.keys := by decide
  have notOfField : "order" ∉ fieldKeys := by decide
  have enum : Json.ChangesUnread (.object (layeredEnum "n.D")) (.object fieldedEnum) :=
    .here (agreeOn_insert notOfEnum .null)
  have swaps : Members.Swaps "fields" (.array ([] ++ nestedField "b" layeredUnion :: [_]))
      (.array ([] ++ orderedField :: [nestedField "c" (.object (layeredArray fieldedEnum))]))
      (layeredOuter fieldedEnum) _ :=
    Members.swaps_insert rfl _
  have field : Json.ChangesUnread (.object (layeredOuter fieldedEnum)) (.object layeredUnread) :=
    .field rfl rfl swaps (.here (agreeOn_insert notOfField (.string "ignore")))
  have changes : Relation.ReflTransGen Json.ChangesUnread layeredJson (.object layeredUnread) :=
    (Relation.ReflTransGen.single (changes_layered enum)).tail field
  have accepted : (ofJson layeredJson).1 = .ok layered := congrArg Prod.fst ofJson_layered
  exact ⟨changes, (ofJson_of_unread changes layered).mp accepted⟩

end Schema

end AvroIdl
