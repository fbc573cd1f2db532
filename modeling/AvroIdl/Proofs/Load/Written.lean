import AvroIdl.Proofs.Json.Unquoting
import AvroIdl.Proofs.Load.Marks

/-
Schemas written as JSON: the shortest spelling of each type, with a bare word for a primitive
type without a class and for a reference. What is written describes the type it was written for.
-/
set_option autoImplicit false

namespace AvroIdl

@[simp] theorem Members.get?_nil (name : String) : get? [] name = none := rfl

@[simp] theorem Members.get?_cons (key name : String) (value : Json) (rest : Members) :
    get? ((key, value) :: rest) name = if key = name then some value else rest.get? name := rfl

@[simp] theorem Members.get?_append (members rest : Members) (name : String) :
    get? (members ++ rest) name = (members.get? name).or (rest.get? name) := by
  induction members with
  | nil => rfl
  | cons head members ih =>
    obtain ⟨key, value⟩ := head
    rw [List.cons_append, get?, get?]
    split
    · rfl
    · exact ih

/-- A member that is left out if there is no text. -/
def textMember (key : String) : Option String → Members
  | some text => [(key, .string text)]
  | none => []

@[simp] theorem get?_textMember (key name : String) (text : Option String) :
    (textMember key text).get? name = if key = name then text.map .string else none := by
  cases text with
  | some text => rfl
  | none => exact (ite_self _).symm

theorem Members.gives_of_get? {members : Members} {key : String} {text : Option String}
    (found : members.get? key = text.map .string) : members.Gives key text := by
  cases text with
  | some text => exact found
  | none => exact .inl found

/-- The text of a default is written without its escapes. -/
def Default.toJson : Default → Json
  | .null => .null
  | .bool b => .bool b
  | .number spelling => .number spelling
  | .text escaped => .string ((Json.unquote? ("\"" ++ escaped ++ "\"")).getD escaped)
  | .emptyMap => .object []
  | .emptyArray => .array []

/-- A text stands between its quotes the way it is escaped. -/
def Default.Escaped : Default → Prop
  | .text escaped => ∃ text, escaped = Json.escape text
  | _ => True

theorem Default.describes_toJson {value : Default} (escaped : value.Escaped) :
    DescribesDefault value.toJson value := by
  cases value with
  | text between =>
    obtain ⟨text, rfl⟩ := escaped
    have read : Json.unquote? ("\"" ++ Json.escape text ++ "\"") = some text :=
      Json.unquote?_quote text
    rw [toJson, read]
    exact .text text
  | _ => constructor

/-- A bare word if no class is given. -/
def wordJson (word : String) (javaClass : Option String) : Json :=
  match javaClass with
  | none => .string word
  | some _ => .object (textMember "java-class" javaClass ++ [("type", .string word)])

def EnumType.toJson (type : EnumType) : Json :=
  .object (textMember "doc" type.doc ++ [("name", .string type.name),
    ("symbols", .array (type.symbols.map .string)), ("type", .string "enum")])

/-- A record whose fields are written already. -/
def recordJson (name : String) (nameSpace doc : Option String) (fields : List Json) : Members :=
  textMember "doc" doc ++ [("fields", .array fields), ("name", .string name)] ++
    textMember "namespace" nameSpace ++ [("type", .string "record")]

def defaultMember : Option Default → Members
  | some value => [("default", value.toJson)]
  | none => []

/-- A field whose type is written already. -/
def fieldJson (name : String) (type : Json) (doc : Option String) (default : Option Default)
    (userDataType : Option String) : Members :=
  defaultMember default ++ textMember "doc" doc ++ [("name", .string name), ("type", type)] ++
    textMember "userDataType" userDataType

mutual

/-- Members stand in the order of their names. A nested definition does not say its namespace,
which is the one around it. -/
def AvroType.toJson : AvroType → Json
  | .null => .string "null"
  | .int javaClass => wordJson "int" javaClass
  | .long javaClass => wordJson "long" javaClass
  | .string javaClass => wordJson "string" javaClass
  | .boolean javaClass => wordJson "boolean" javaClass
  | .enum type => type.toJson
  | .record type => recordToJson none type
  | .union members => .array (typesToJson members)
  | .map values keyClass javaClass =>
    .object (textMember "java-class" javaClass ++ textMember "java-key-class" keyClass ++
      [("type", .string "map"), ("values", values.toJson)])
  | .array items keyClass javaClass =>
    .object (("items", items.toJson) :: textMember "java-class" javaClass ++
      textMember "java-key-class" keyClass ++ [("type", .string "array")])
  | .reference name => .string name

def typesToJson : List AvroType → List Json
  | [] => []
  | type :: rest => type.toJson :: typesToJson rest

def recordToJson (nameSpace : Option String) : RecordOf AvroType → Json
  | ⟨name, doc, fields⟩ => .object (recordJson name nameSpace doc (fieldsToJson fields))

def fieldsToJson : List (FieldOf AvroType) → List Json
  | [] => []
  | field :: rest => fieldToJson field :: fieldsToJson rest

def fieldToJson : FieldOf AvroType → Json
  | ⟨name, type, doc, default, userDataType⟩ =>
    .object (fieldJson name type.toJson doc default userDataType)

end

/-- A whole document: the top record says the namespace of all types. -/
def Schema.toJson (s : Schema) : Json :=
  recordToJson s.nameSpace s.asRecord

/-- What a type needs by itself to be read back as it is. -/
def AvroType.Loadable : AvroType → Prop
  | .record type =>
    (type.name ≠ "" ∧ isDotted type.name = false) ∧ (type.fields.map FieldOf.name).Nodup ∧
      ∀ field ∈ type.fields, ∀ value ∈ field.default, value.Escaped
  | .enum type => (type.name ≠ "" ∧ isDotted type.name = false) ∧ type.symbols.Nodup
  | .union members => members ≠ []
  | .array _ keyClass _ => keyClass = none
  | .reference name => name ∉ Load.primitives ∧ name ∉ Load.unsupported
  | _ => True

namespace Load

/-- What the load of a type does to the names, in a namespace around all types. -/
def stepOf? (home : Option String) : AvroType → Option Step
  | .record type => some (.define ⟨type.name, home⟩)
  | .enum type => some (.define ⟨type.name, home⟩)
  | .reference name => some (.mention name home)
  | _ => none

def stepsOf (home : Option String) (types : List AvroType) : List Step :=
  (nodesOf types).filterMap (stepOf? home)

theorem stepsOf_cons (home : Option String) (type : AvroType) (rest : List AvroType) :
    stepsOf home (type :: rest) = stepsOf home [type] ++ stepsOf home rest := by
  rw [stepsOf, stepsOf, stepsOf, ← List.filterMap_append, ← nodesOf_append,
    List.singleton_append]

theorem stepsOf_singleton (home : Option String) (type : AvroType) :
    stepsOf home [type] = (stepOf? home type).toList ++ stepsOf home type.parts := by
  have whole : stepsOf home [type] = (type :: nodesOf type.parts).filterMap (stepOf? home) := by
    rw [stepsOf, nodesOf_cons, nodesOf_nil, List.append_nil, AvroType.nodes_eq]
  rw [whole, List.filterMap_cons]
  cases stepOf? home type <;> rfl

variable {home : Option String}

/-- An undotted name lies in the namespace that is said, or else in the one around it. -/
theorem header_of_plain {members : Members} {simple : String} {given around : Option String}
    (named : members.get? "name" = some (.string simple))
    (gives : members.get? "namespace" = given.map .string)
    (plain : simple ≠ "" ∧ isDotted simple = false) (chosen : (given <|> around) = home)
    (present : home ≠ some "") : Header members around ⟨simple, home⟩ := by
  have whole : TypeName.ofDotted simple = ⟨simple, none⟩ :=
    TypeName.ofDotted_full ⟨simple, none⟩ plain.2
  refine ⟨⟨simple, given, named, Members.gives_of_get? gives, ?_⟩, plain.1⟩
  have kept : home.filter (· ≠ "") = home := by
    cases home with
    | none => rfl
    | some text =>
      have nonempty : decide (text ≠ "") = true := decide_eq_true fun empty =>
        present (congrArg some empty)
      rw [Option.filter_some, nonempty, if_pos rfl]
  have joined : (given <|> (none : Option String) <|> around) = home := chosen
  rw [whole, joined, kept]

theorem describes_wordJson {word : String} {javaClass : Option String} {type : AvroType}
    (primitive : primitive? word javaClass = some type) (known : kind? word = some .primitive) :
    Describes home (wordJson word javaClass) type [] := by
  cases javaClass with
  | none => exact .word primitive
  | some name =>
    let members : Members := [("java-class", .string name), ("type", .string word)]
    have hinted : members.Gives "java-class" (some name) := rfl
    have described : DescribesTagged .primitive word home members _ _ := .primitive hinted
    rw [primitive] at described
    exact .tagged rfl known described

theorem describes_reference {name : String} (loadable : AvroType.Loadable (.reference name)) :
    Describes home (.string name) (.reference name) [.mention name home] := by
  obtain ⟨other, supported⟩ := loadable
  refine .reference ?_ supported
  fun_cases primitive? name none with
  | case6 => rfl
  | _ => exact absurd (by decide) other

theorem describes_enum {type : EnumType} (loadable : AvroType.Loadable (.enum type))
    (present : home ≠ some "") :
    Describes home type.toJson (.enum type) [.define ⟨type.name, home⟩] := by
  obtain ⟨plain, distinct⟩ := loadable
  have chosen : ((none : Option String) <|> home) = home := rfl
  have header : Header (textMember "doc" type.doc ++ [("name", .string type.name),
      ("symbols", .array (type.symbols.map .string)), ("type", .string "enum")]) home
      ⟨type.name, home⟩ :=
    header_of_plain (by simp) (by simp) plain chosen present
  have known : kind? "enum" = some .enum := rfl
  refine .tagged ?_ known (.enum ⟨header, rfl, ?_, ?_, distinct⟩)
  · simp
  · apply Members.gives_of_get?
    simp
  · simp

theorem describes_map {values : AvroType} {keyClass javaClass : Option String} {steps : List Step}
    (described : Describes home values.toJson values steps) :
    Describes home (AvroType.map values keyClass javaClass).toJson
      (.map values keyClass javaClass) steps := by
  rw [AvroType.toJson]
  have known : kind? "map" = some .map := rfl
  refine .tagged ?_ known (.map ?_ described ?_ ?_)
  · simp
  · simp
  · apply Members.gives_of_get?
    simp
  · apply Members.gives_of_get?
    simp

theorem describes_array {items : AvroType} {javaClass : Option String} {steps : List Step}
    (described : Describes home items.toJson items steps) :
    Describes home (AvroType.array items none javaClass).toJson (.array items none javaClass)
      steps := by
  rw [AvroType.toJson]
  have unkeyed : warnings (keyClassWarning (("items", items.toJson) ::
      textMember "java-class" javaClass ++ textMember "java-key-class" none ++
      [("type", .string "array")])) = [] := by
    simp [keyClassWarning, warnings]
  rw [← List.append_nil steps, ← unkeyed]
  have known : kind? "array" = some .array := rfl
  refine .tagged ?_ known (.array ?_ described ?_)
  · simp
  · simp
  · apply Members.gives_of_get?
    simp

theorem describesAll_toJson {types : List AvroType}
    (each : ∀ type ∈ types, Describes home type.toJson type (stepsOf home [type])) :
    DescribesAll home (typesToJson types) types (stepsOf home types) := by
  induction types with
  | nil => exact .nil
  | cons type rest ih =>
    rw [List.forall_mem_cons] at each
    rw [stepsOf_cons]
    exact .cons each.1 (ih each.2)

theorem describesField_toJson {field : Field} {steps : List Step}
    (escaped : ∀ value ∈ field.default, value.Escaped)
    (described : Describes home field.type.toJson field.type steps) :
    DescribesField home (fieldToJson field) field steps := by
  obtain ⟨name, type, doc, default, userDataType⟩ := field
  have found : Members.get? (defaultMember default) "default" = default.map Default.toJson := by
    cases default <;> simp [defaultMember]
  have others : ∀ key, key ≠ "default" → Members.get? (defaultMember default) key = none := by
    intro key other
    cases default <;> simp [defaultMember, other.symm]
  have defaulted : Option.Rel DescribesDefault (default.map Default.toJson) default := by
    cases default with
    | none => exact .none
    | some value => exact .some (Default.describes_toJson (escaped value rfl))
  rw [fieldToJson]
  refine .mk ⟨?_, ?_, ?_, ?_⟩ ?_ described
  · simp [fieldJson, others]
  · apply Members.gives_of_get?
    simp [fieldJson, others]
  · simpa [fieldJson, found] using defaulted
  · apply Members.gives_of_get?
    simp [fieldJson, others]
  · simp [fieldJson, others]

theorem describesFields_toJson {fields : List Field}
    (escaped : ∀ field ∈ fields, ∀ value ∈ field.default, value.Escaped)
    (each : ∀ field ∈ fields, Describes home field.type.toJson field.type
      (stepsOf home [field.type])) :
    DescribesFields home (fieldsToJson fields) fields
      (stepsOf home (fields.map FieldOf.type)) := by
  induction fields with
  | nil => exact .nil
  | cons field rest ih =>
    rw [List.forall_mem_cons] at escaped each
    rw [List.map_cons, stepsOf_cons]
    exact .cons (describesField_toJson escaped.1 each.1) (ih escaped.2 each.2)

/-- A record is written with its namespace or stands in it. -/
theorem describesRecord_toJson {type : RecordType} {given around : Option String}
    (loadable : AvroType.Loadable (.record type)) (chosen : (given <|> around) = home)
    (present : home ≠ some "")
    (each : ∀ field ∈ type.fields, Describes home field.type.toJson field.type
      (stepsOf home [field.type])) :
    DescribesRecord around (recordJson type.name given type.doc (fieldsToJson type.fields))
      ⟨type.name, home⟩ type (stepsOf home [.record type]) := by
  obtain ⟨plain, distinct, escaped⟩ := loadable
  have header : Header (recordJson type.name given type.doc (fieldsToJson type.fields)) around
      ⟨type.name, home⟩ :=
    header_of_plain (by simp [recordJson]) (by simp [recordJson]) plain chosen present
  have inside := describesFields_toJson escaped each
  rw [stepsOf_singleton]
  refine .mk ⟨header, rfl, ?_, distinct⟩ ?_ inside
  · apply Members.gives_of_get?
    simp [recordJson]
  · simp [recordJson]

theorem get?_type_recordJson (name : String) (nameSpace doc : Option String)
    (fields : List Json) :
    (recordJson name nameSpace doc fields).get? "type" = some (.string "record") := by
  simp [recordJson]

/-- What is written for a type describes it. -/
theorem describes_toJson (present : home ≠ some "") (type : AvroType)
    (loadable : ∀ node ∈ nodesOf [type], node.Loadable) :
    Describes home type.toJson type (stepsOf home [type]) := by
  induction type using AvroType.induction_parts with
  | whole type ih =>
    have nodes : nodesOf [type] = type :: nodesOf type.parts := by
      rw [nodesOf_cons, nodesOf_nil, List.append_nil, AvroType.nodes_eq]
    rw [nodes, List.forall_mem_cons] at loadable
    obtain ⟨here, inside⟩ := loadable
    have each : ∀ part ∈ type.parts, Describes home part.toJson part (stepsOf home [part]) := by
      intro part member
      apply ih part member
      intro node below
      rw [nodesOf_cons, nodesOf_nil, List.append_nil] at below
      exact inside node (mem_nodesOf.mpr ⟨part, member, below⟩)
    cases type with
    | null => exact .word rfl
    | int javaClass | long javaClass | string javaClass | boolean javaClass =>
      exact describes_wordJson rfl rfl
    | enum type => exact describes_enum here present
    | record type =>
      obtain ⟨name, doc, fields⟩ := type
      have chosen : ((none : Option String) <|> home) = home := rfl
      have described := describesRecord_toJson here chosen present
        fun field member => each field.type (List.mem_map_of_mem member)
      exact .tagged (get?_type_recordJson _ _ _ _) rfl (.record described)
    | union members =>
      rw [stepsOf_singleton]
      refine .union ?_ (describesAll_toJson each)
      cases members with
      | nil => exact absurd rfl here
      | cons first rest => exact List.cons_ne_nil _ _
    | map values keyClass javaClass =>
      exact describes_map (each values (List.mem_singleton.mpr rfl))
    | array items keyClass javaClass =>
      cases here
      exact describes_array (each items (List.mem_singleton.mpr rfl))
    | reference name => exact describes_reference here

end Load

end AvroIdl
