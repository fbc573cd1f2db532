import AvroIdl.Command.LogFilter
import AvroIdl.Conversion.Converter
import AvroIdl.Text.Quoted

/-
Log lines: the level, the target, a message, and named values after it. The message is a
field as well, one that each line has.
-/
set_option autoImplicit false

namespace AvroIdl.Event

open Command

def level : Event → LogLevel
  | .warned _ => .warn
  | _ => .debug

def target : Event → String
  | .started _ _ _ => "avsc2avdl"
  | .warned _ | .loaded _ _ _ _ => "avsc2avdl::import"
  | .rendering _ _ _ => "avsc2avdl::model::idl"

def policyName : Policy → String
  | .redeclare => "Redeclare"
  | .deduplicate => "Deduplicate"

def message : Event → String
  | .started _ _ _ => "starting conversion"
  | .warned (.keyClassOnArray _) => "ignoring 'java-key-class' on an array: arrays have no keys"
  | .warned (.logicalType _ underlying) =>
    "logical types are not rendered; using the underlying `" ++ underlying ++ "`"
  | .loaded source _ _ _ => "loaded schema from " ++ source
  | .rendering _ _ _ => "rendering protocol"

def values : Event → List (String × String)
  | .started input output policy =>
    [("args", "Args \x7b input: " ++ Text.quoted input ++ ", output: " ++ Text.quoted output ++
      ", policy: " ++ policyName policy ++ " \x7d")]
  | .warned (.keyClassOnArray value) => [("key_class", value.compact)]
  | .warned (.logicalType name _) => [("logical_type", Text.quoted name)]
  | .loaded _ schema fields namedTypes =>
    [("schema", schema), ("fields", toString fields), ("named_types", toString namedTypes)]
  | .rendering protocol fields declarations =>
    [("protocol", protocol), ("fields", toString fields), ("declarations", toString declarations)]

def fieldNames (e : Event) : List String :=
  "message" :: e.values.map Prod.fst

/-- Characters that can steer a terminal are written by their code. -/
def harmless (c : Char) : String :=
  if ['\x07', '\x08', '\x0c', '\x1b', '\x7f'].contains c then
    "\\x" ++ (if c.toNat < 0x10 then "0" else "") ++ Text.hexText c.toNat
  else if 0x80 ≤ c.toNat && c.toNat ≤ 0x9f then "\\u\x7b" ++ Text.hexText c.toNat ++ "\x7d"
  else c.toString

def line (e : Event) : String :=
  e.level.label ++ " " ++ e.target ++ ": " ++ String.join (e.message.toList.map harmless) ++
    String.join (e.values.map fun (name, value) => " " ++ name ++ "=" ++ value)

def isShown (filter : Option String) (e : Event) : Bool :=
  Command.isShown filter e.level e.target e.fieldNames

end AvroIdl.Event
