import AvroIdl.Conversion.Failure
import AvroIdl.Text.Quoted

/-
The arguments of the program: two positional ones and some options, in any order.
-/
set_option autoImplicit false

namespace AvroIdl.Command

structure Arguments where
  input : String
  output : String
  policy : Policy
  deriving DecidableEq

inductive Request
  | help
  | version
  | convert (arguments : Arguments)
  deriving DecidableEq

/-- One argument by its form. Of a cluster of short options only the first letter matters, as
each letter either ends the reading or is refused. -/
inductive Argument
  | value (bytes : List UInt8)
  | endOfOptions
  | short (letter : Char)
  | long (name : String) (attached : Option (List UInt8))

namespace Argument

def isEquals (byte : UInt8) : Bool :=
  byte = 0x3d

/-- A long option may carry a value after its first equals sign. -/
def ofLong (body : List UInt8) : Argument :=
  let name := Text.lossy (body.takeWhile fun byte => !isEquals byte)
  match body.dropWhile fun byte => !isEquals byte with
  | [] => .long name none
  | _ :: attached => .long name (some attached)

def ofBytes : List UInt8 → Argument
  | 0x2d :: 0x2d :: [] => .endOfOptions
  | 0x2d :: 0x2d :: body => ofLong body
  | 0x2d :: first :: rest => .short ((Text.lossy (first :: rest)).toList.headD '\uFFFD')
  | bytes => .value bytes

end Argument

def invalidOption (option : String) : Failure :=
  .usage ("invalid option '" ++ option ++ "'")

def unexpectedValue (option : String) (attached : List UInt8) : Failure :=
  .usage ("unexpected argument for option '" ++ option ++ "': " ++ Text.quotedBytes attached)

def invalidValue (bytes : List UInt8) : Failure :=
  .usage ("argument is not valid UTF-8: " ++ Text.quotedBytes bytes)

def wrongCount (count : Nat) : Failure :=
  .usage ("expected 2 arguments (input and output), got " ++ toString count)

/-- What has been read of the arguments so far. -/
structure Reading where
  values : List String
  policy : Policy

namespace Reading

def start : Reading := ⟨[], .deduplicate⟩

def addValue (r : Reading) (bytes : List UInt8) : Except Failure Reading :=
  match Text.ofBytes? bytes with
  | some text => .ok { r with values := r.values ++ [text] }
  | none => .error (invalidValue bytes)

def finish (r : Reading) : Except Failure Request :=
  match r.values with
  | [input, output] => .ok (.convert ⟨input, output, r.policy⟩)
  | values => .error (wrongCount values.length)

end Reading

def readValues : Reading → List (List UInt8) → Except Failure Request
  | r, [] => r.finish
  | r, bytes :: rest =>
    match r.addValue bytes with
    | .ok r => readValues r rest
    | .error f => .error f

/-- Help and version win over all that stands after them. -/
def readArguments : Reading → List (List UInt8) → Except Failure Request
  | r, [] => r.finish
  | r, bytes :: rest =>
    match Argument.ofBytes bytes with
    | .endOfOptions => readValues r rest
    | .value bytes =>
      match r.addValue bytes with
      | .ok r => readArguments r rest
      | .error f => .error f
    | .short 'h' => .ok .help
    | .short 'V' => .ok .version
    | .short letter => .error (invalidOption ("-" ++ letter.toString))
    | .long "help" _ => .ok .help
    | .long "version" _ => .ok .version
    | .long "redeclare" none => readArguments { r with policy := .redeclare } rest
    | .long "redeclare" (some attached) => .error (unexpectedValue "--redeclare" attached)
    | .long name _ => .error (invalidOption ("--" ++ name))

def Request.ofArguments (arguments : List (List UInt8)) : Except Failure Request :=
  readArguments .start arguments

end AvroIdl.Command
