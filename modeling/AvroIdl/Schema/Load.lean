import AvroIdl.Hint.Closest
import AvroIdl.Schema.Basic
import AvroIdl.Schema.LoadError

/-
Loading a schema from a JSON value. A type must be defined before it is referred to, or
be the record that is being defined, and all types lie in the namespace of the top
record.
-/
set_option autoImplicit false

namespace AvroIdl

/-- The types defined so far, in order, and the warnings given. -/
structure Loading where
  defined : List TypeName
  warnings : List Warning

abbrev Load := ExceptT LoadError (StateM Loading)

namespace Loading

def start : Loading := ⟨[], []⟩

/-- The namespace of the first type defined, which is the top record. -/
def home (s : Loading) : Option String :=
  s.defined.head?.bind TypeName.nameSpace

def isDefined (s : Loading) (full : String) : Bool :=
  s.defined.any fun name => name.full = full

/-- A dotted name is looked up as it is; a simple one in the namespace around it, then as
it is. -/
def resolves (s : Loading) (name : String) (nameSpace : Option String) : Bool :=
  if isDotted name then s.isDefined name
  else nameSpace.any (fun n => s.isDefined (TypeName.full ⟨name, some n⟩)) || s.isDefined name

end Loading

namespace Load

def warn (w : Warning) : Load Unit :=
  modify fun s => { s with warnings := s.warnings ++ [w] }

/-- Says inside which part of the document the faults of an action lie. -/
def within {α : Type} (context : LoadError → LoadError) (action : Load α) : Load α :=
  fun s => match action s with
    | (.ok a, s) => (.ok a, s)
    | (.error e, s) => (.error (context e), s)

def ofOption {α : Type} (e : LoadError) : Option α → Load α
  | some a => pure a
  | none => throw e

/-- A member that may be missing or null, and otherwise must be a string. -/
def optionalText (members : Members) (key : String) : Load (Option String) :=
  match members.get? key with
  | none | some .null => pure none
  | some (.string text) => pure (some text)
  | some other => throw (.notString key other)

def text? (members : Members) (key : String) : Option String :=
  (members.get? key).bind Json.text?

/-- The first type fixes the namespace, and no two types share a full name. -/
def define (name : TypeName) : Load Unit := do
  let s ← get
  if s.defined ≠ [] ∧ name.nameSpace ≠ s.home then
    throw (.foreignNameSpace name s.home)
  if s.isDefined name.full then
    throw (.definedTwice name)
  set { s with defined := s.defined ++ [name] }

def primitives : List String := ["null", "boolean", "int", "long", "string"]

/-- Avro types that have no place in the model. -/
def unsupported : List String := ["float", "double", "bytes", "fixed"]

/-- The words a misspelled type name may have meant. -/
def knownNames (s : Loading) : List String :=
  primitives ++ s.defined.map TypeName.simple ++ s.defined.map TypeName.full

def knownTags : List String := primitives ++ ["record", "enum", "array", "map"]

/-- The kinds of types that an object can define. -/
inductive Kind
  | record
  | enum
  | array
  | map
  | primitive

def kind? (tag : String) : Option Kind :=
  match tag with
  | "record" | "error" => some .record
  | "enum" => some .enum
  | "array" => some .array
  | "map" => some .map
  | "null" | "int" | "long" | "string" | "boolean" => some .primitive
  | _ => none

def unknownTag (tag : String) : LoadError :=
  if tag ∈ unsupported then .unsupportedType tag
  else .unknownTag tag (Hint.closest tag knownTags)

def primitive? (word : String) (javaClass : Option String) : Option AvroType :=
  match word with
  | "null" => some .null
  | "int" => some (.int javaClass)
  | "long" => some (.long javaClass)
  | "string" => some (.string javaClass)
  | "boolean" => some (.boolean javaClass)
  | _ => none

def reference (name : String) (nameSpace : Option String) : Load AvroType := do
  let s ← get
  if s.resolves name nameSpace then return .reference name
  throw (.undefinedType name (Hint.closest name (knownNames s)))

/-- A word names a primitive type or a type that is defined already. -/
def word (name : String) (nameSpace : Option String) : Load AvroType :=
  match primitive? name none with
  | some type => pure type
  | none =>
    if name ∈ unsupported then throw (.unsupportedType name) else reference name nameSpace

/-- The namespace is the one given, else what stands before the last dot of the name, else
the one around the definition. An empty namespace is none. -/
def header (members : Members) (kind : String) (around : Option String) : Load TypeName := do
  let raw ← ofOption (.missingName kind) (text? members "name")
  let dotted := TypeName.ofDotted raw
  if dotted.simple = "" then throw (.emptyName kind)
  let given ← optionalText members "namespace"
  let chosen := (given <|> dotted.nameSpace <|> around).filter (· ≠ "")
  return ⟨dotted.simple, chosen⟩

def annotatedPrimitive (members : Members) (tag : String) : Load AvroType := do
  if let some name := text? members "logicalType" then warn (.logicalType name tag)
  let javaClass ← optionalText members "java-class"
  return (primitive? tag javaClass).getD .null

/-- A text is escaped, so that it can stand between quotes as it is. -/
def defaultValue : Json → Load Default
  | .null => pure .null
  | .bool b => pure (.bool b)
  | .number spelling => pure (.number spelling)
  | .string text => pure (.text (Json.escape text))
  | .object [] => pure .emptyMap
  | .array [] => pure .emptyArray
  | other => throw (.unsupportedDefault other)

def symbols (enum : String) : List String → List Json → Load (List String)
  | seen, [] => pure seen
  | seen, .string symbol :: rest =>
    if symbol ∈ seen then throw (.duplicateSymbol symbol enum)
    else symbols enum (seen ++ [symbol]) rest
  | _, other :: _ => throw (.symbolNotString enum other)

def enum (members : Members) (around : Option String) : Load EnumType := do
  let name ← header members "enum" around
  define name
  let doc ← optionalText members "doc"
  match members.get? "symbols" with
  | some (.array items) => return ⟨name.simple, doc, ← symbols name.simple [] items⟩
  | _ => throw (.missingSymbols name.simple)

mutual

def type (json : Json) (around : Option String) : Load AvroType :=
  match json with
  | .string name => word name around
  | .array [] => throw .emptyUnion
  | .array members => return .union (← unionMembers 0 members around)
  | .object members => tagged members around
  | other => throw (.invalidSchema other)
termination_by (sizeOf json, 0)

def unionMembers (index : Nat) (members : List Json) (around : Option String) :
    Load (List AvroType) :=
  match members with
  | [] => pure []
  | member :: rest => do
    let first ← within (.inUnionMember index) (type member around)
    return first :: (← unionMembers (index + 1) rest around)
termination_by (sizeOf members, 0)

/-- An object whose tag is itself an object or a list stands for that tag alone. -/
def tagged (members : Members) (around : Option String) : Load AvroType :=
  match _found : members.get? "type" with
  | some (.object inner) => tagged inner around
  | some (.array inner) => type (.array inner) around
  | some (.string tag) =>
    match kind? tag with
    | some .record => return .record (← record members around).1
    | some .enum => return .enum (← enum members around)
    | some .array => array members around
    | some .map => map members around
    | some .primitive => annotatedPrimitive members tag
    | none => throw (unknownTag tag)
  | some other => throw (.invalidTag other)
  | none => throw .missingTag
termination_by (sizeOf members, 1)
decreasing_by
  all_goals decreasing_with first
    | exact Nat.zero_lt_one
    | exact Members.sizeOf_get?_object _found
    | (have smaller := Members.sizeOf_get? _found; simp only [Json.array.sizeOf_spec] at smaller; omega)

def array (members : Members) (around : Option String) : Load AvroType :=
  match _found : members.get? "items" with
  | none => throw .missingItems
  | some json => do
    let items ← within .inArrayItems (type json around)
    if let some keyClass := members.get? "java-key-class" then warn (.keyClassOnArray keyClass)
    return .array items none (← optionalText members "java-class")
termination_by (sizeOf members, 0)
decreasing_by
  all_goals decreasing_with exact Members.sizeOf_get? _found

def map (members : Members) (around : Option String) : Load AvroType :=
  match _found : members.get? "values" with
  | none => throw .missingValues
  | some json => do
    let values ← within .inMapValues (type json around)
    let keyClass ← optionalText members "java-key-class"
    return .map values keyClass (← optionalText members "java-class")
termination_by (sizeOf members, 0)
decreasing_by
  all_goals decreasing_with exact Members.sizeOf_get? _found

/-- The name is defined before the fields are read, so that they can refer to it. -/
def record (members : Members) (around : Option String) : Load (RecordType × Option String) := do
  let name ← header members "record" around
  define name
  let doc ← optionalText members "doc"
  match _found : members.get? "fields" with
  | some (.array items) =>
    return (⟨name.simple, doc, ← fields name.simple 0 [] items name.nameSpace⟩, name.nameSpace)
  | some other => throw (.fieldsNotArray name.simple other)
  | none => throw (.missingFields name.simple)
termination_by (sizeOf members, 0)
decreasing_by
  all_goals decreasing_with exact Members.sizeOf_get?_array _found

def fields (record : String) (index : Nat) (seen : List String) (items : List Json)
    (around : Option String) : Load (List Field) :=
  match items with
  | [] => pure []
  | item :: rest => do
    let first ← within (.inField index record) (field item around)
    if first.name ∈ seen then throw (.duplicateField first.name record)
    return first :: (← fields record (index + 1) (seen ++ [first.name]) rest around)
termination_by (sizeOf items, 0)

def field (json : Json) (around : Option String) : Load Field :=
  match json with
  | .object members => do
    let name ← ofOption .fieldMissingName (text? members "name")
    match _found : Members.get? members "type" with
    | none => throw (LoadError.fieldMissingType name)
    | some typeJson =>
      let type ← within (.inFieldType name) (type typeJson around)
      let default ← match Members.get? members "default" with
        | none => pure none
        | some value => some <$> within (.inFieldDefault name) (defaultValue value)
      let doc ← optionalText members "doc"
      return ⟨name, type, doc, default, ← optionalText members "userDataType"⟩
  | _ => throw .fieldNotObject
termination_by (sizeOf json, 0)
decreasing_by
  all_goals decreasing_with (have smaller := Members.sizeOf_get? _found; simp; omega)

end

/-- A whole document defines one record. -/
def document (json : Json) : Load Schema :=
  match json with
  | .object members =>
    match text? members "type" with
    | some "record" | some "error" => do
      let (top, nameSpace) ← record members none
      return ⟨top.name, nameSpace, top.doc, top.fields⟩
    | some other => throw (.notRecord other)
    | none => throw .untagged
  | other => throw (.notRecordObject other)

end Load

end AvroIdl
