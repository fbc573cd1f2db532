import AvroIdl.Json.Compact
import AvroIdl.Schema.TypeName

/-
Why a JSON value is not a schema, and what is passed over with a warning when it is.
-/
set_option autoImplicit false

namespace AvroIdl

/-- The last constructors say inside which part of the document a fault lies. -/
inductive LoadError
  | notRecordObject (found : Json)
  | notRecord (tag : String)
  | untagged
  | notString (key : String) (found : Json)
  | foreignNameSpace (name : TypeName) (home : Option String)
  | definedTwice (name : TypeName)
  | emptyUnion
  | invalidSchema (found : Json)
  | unsupportedType (name : String)
  | undefinedType (name : String) (meant : Option String)
  | invalidTag (found : Json)
  | missingTag
  | unknownTag (tag : String) (meant : Option String)
  | missingName (kind : String)
  | emptyName (kind : String)
  | missingFields (record : String)
  | fieldsNotArray (record : String) (found : Json)
  | duplicateField (field record : String)
  | missingSymbols (enum : String)
  | symbolNotString (enum : String) (found : Json)
  | duplicateSymbol (symbol enum : String)
  | missingItems
  | missingValues
  | fieldNotObject
  | fieldMissingName
  | fieldMissingType (field : String)
  | unsupportedDefault (found : Json)
  | inUnionMember (index : Nat) (cause : LoadError)
  | inArrayItems (cause : LoadError)
  | inMapValues (cause : LoadError)
  | inField (index : Nat) (record : String) (cause : LoadError)
  | inFieldType (field : String) (cause : LoadError)
  | inFieldDefault (field : String) (cause : LoadError)

namespace LoadError

def foreignNameSpaceMessage (name : TypeName) (home : Option String) : String :=
  let protocol := match home with
    | some nameSpace => "the protocol namespace `" ++ nameSpace ++ "`"
    | none => "the protocol, which has no namespace"
  match name.nameSpace with
  | some nameSpace =>
    "named type `" ++ name.full ++ "` is in namespace `" ++ nameSpace ++ "`, outside " ++ protocol
  | none => "named type `" ++ name.full ++ "` has no namespace, unlike " ++ protocol

def meantMessage (meant : String) : String :=
  " (did you mean `" ++ meant ++ "`?)"

def message : LoadError → String
  | .notRecordObject found => "top-level schema must be a record object, found " ++ found.compact
  | .notRecord tag => "top-level schema must be a record, found `" ++ tag ++ "`"
  | .untagged => "top-level schema missing 'type'"
  | .notString key found => "'" ++ key ++ "' must be a string, found " ++ found.compact
  | .foreignNameSpace name home => foreignNameSpaceMessage name home
  | .definedTwice name => "named type `" ++ name.full ++ "` is defined more than once"
  | .emptyUnion => "union must have at least one member"
  | .invalidSchema found => "invalid schema JSON: " ++ found.compact
  | .unsupportedType name =>
    "unsupported Avro type `" ++ name ++
      "` (supported: null, int, long, string, boolean, record, enum, union, map, array)"
  | .undefinedType name (some meant) => "undefined type `" ++ name ++ "`" ++ meantMessage meant
  | .undefinedType name none =>
    "undefined type `" ++ name ++ "` (named types must be defined before they are referenced)"
  | .invalidTag found => "invalid 'type' value: " ++ found.compact
  | .missingTag => "schema object missing 'type' field"
  | .unknownTag tag (some meant) => "unknown schema type: " ++ tag ++ meantMessage meant
  | .unknownTag tag none => "unknown schema type: " ++ tag
  | .missingName kind => kind ++ " missing 'name'"
  | .emptyName kind => kind ++ " has an empty name"
  | .missingFields record => "record `" ++ record ++ "` missing 'fields'"
  | .fieldsNotArray record found =>
    "'fields' of record `" ++ record ++ "` must be an array, found " ++ found.compact
  | .duplicateField field record =>
    "duplicate field name `" ++ field ++ "` in record `" ++ record ++ "`"
  | .missingSymbols enum => "enum `" ++ enum ++ "` missing 'symbols' array"
  | .symbolNotString enum found =>
    "symbols of enum `" ++ enum ++ "` must be strings, found " ++ found.compact
  | .duplicateSymbol symbol enum =>
    "duplicate symbol `" ++ symbol ++ "` in enum `" ++ enum ++ "`"
  | .missingItems => "array missing 'items'"
  | .missingValues => "map missing 'values'"
  | .fieldNotObject => "field must be an object"
  | .fieldMissingName => "field missing 'name'"
  | .fieldMissingType field => "field `" ++ field ++ "` missing 'type'"
  | .unsupportedDefault found =>
    "unsupported default value " ++ found.compact ++
      " (only null, strings, numbers, booleans, \x7b\x7d and [] are supported)"
  | .inUnionMember index cause => "union member " ++ toString index ++ ": " ++ cause.message
  | .inArrayItems cause => "parse array items schema: " ++ cause.message
  | .inMapValues cause => "parse map values schema: " ++ cause.message
  | .inField index record cause =>
    "parse field at index " ++ toString index ++ " of record `" ++ record ++ "`: " ++ cause.message
  | .inFieldType field cause => "parse type for field `" ++ field ++ "`: " ++ cause.message
  | .inFieldDefault field cause => "default for field `" ++ field ++ "`: " ++ cause.message

end LoadError

/-- What a schema says that its protocol will not. -/
inductive Warning
  | keyClassOnArray (value : Json)
  | logicalType (name underlying : String)

end AvroIdl
