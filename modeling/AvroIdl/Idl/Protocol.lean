import AvroIdl.Declaration.Walk
import AvroIdl.Idl.Block

/-
The protocol of a schema: it bears the name of the top record, declares that record
first and then every record and enum defined inside it.
-/
set_option autoImplicit false

namespace AvroIdl.Schema

def roots (s : Schema) : List AvroType :=
  s.fields.map FieldOf.type

/-- The declarations that follow the top record. The top record counts as declared when
each name is declared once. -/
def declarations (s : Schema) : Policy → Except NameConflict (List Declaration)
  | .redeclare => .ok (Walk.redeclare s.roots).declared
  | .deduplicate =>
    (Walk.deduplicate s.roots (Registry.empty.register (.record s.asRecord)).2).declared?

def nameSpaceLine (nameSpace : Option String) : String :=
  match nameSpace with
  | some name => annotationText "namespace" name ++ "\n"
  | none => ""

/-- Blocks are parted by one empty line. -/
def followingBlocks (declarations : List Declaration) : String :=
  match declarations with
  | [] => ""
  | _ => "\n\n" ++ "\n\n".intercalate (declarations.map fun d => d.block 0)

def protocol (s : Schema) (declarations : List Declaration) : String :=
  nameSpaceLine s.nameSpace ++ "protocol " ++ s.name ++ " \x7b\n" ++
    docComment s.doc 0 ++ recordBody s.name s.fields 0 ++
    followingBlocks declarations ++ "\n\x7d\n"

/-- The protocol in which every definition is declared where it is met. -/
def render (s : Schema) : String :=
  s.protocol (Walk.redeclare s.roots).declared

def renderWith (s : Schema) (policy : Policy) : Except NameConflict String :=
  (s.declarations policy).map s.protocol

end AvroIdl.Schema
