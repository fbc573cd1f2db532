import AvroIdl.Text.Bytes

/-
Bytes that are perhaps not UTF-8, taken apart into characters and the pieces between
them that are none.
-/
set_option autoImplicit false

namespace AvroIdl.Text

/-- A broken piece is as long as it could have been the start of one character. -/
inductive Chunk
  | char (c : Char)
  | broken (bytes : List UInt8)

/-- How many bytes a character goes on after its first byte, and the bounds of the next byte. -/
def continuation? (first : UInt8) : Option (Nat × UInt8 × UInt8) :=
  if first < 0x80 then some (0, 0, 0)
  else if first < 0xc2 then none
  else if first < 0xe0 then some (1, 0x80, 0xbf)
  else if first = 0xe0 then some (2, 0xa0, 0xbf)
  else if first = 0xed then some (2, 0x80, 0x9f)
  else if first < 0xf0 then some (2, 0x80, 0xbf)
  else if first = 0xf0 then some (3, 0x90, 0xbf)
  else if first < 0xf4 then some (3, 0x80, 0xbf)
  else if first = 0xf4 then some (3, 0x80, 0x8f)
  else none

/-- At most `n` bytes that go on with a character. -/
def takeContinuation : Nat → UInt8 → UInt8 → List UInt8 → List UInt8
  | n + 1, low, high, byte :: rest =>
    if low ≤ byte ∧ byte ≤ high then byte :: takeContinuation n 0x80 0xbf rest else []
  | _, _, _, _ => []

def firstChunk (first : UInt8) (rest : List UInt8) : Chunk × Nat :=
  match continuation? first with
  | none => (.broken [first], 0)
  | some (n, low, high) =>
    let more := takeContinuation n low high rest
    if more.length < n then (.broken (first :: more), more.length)
    else match ofBytes? (first :: more) with
      | some text => (.char (text.toList.headD '\x00'), more.length)
      | none => (.broken (first :: more), more.length)

def chunks : List UInt8 → List Chunk
  | [] => []
  | first :: rest =>
    let (chunk, taken) := firstChunk first rest
    chunk :: chunks (rest.drop taken)
termination_by bytes => bytes.length
decreasing_by simp only [List.length_drop, List.length_cons]; omega

/-- Each broken piece becomes one replacement character. -/
def lossy (bytes : List UInt8) : String :=
  String.ofList ((chunks bytes).map fun
    | .char c => c
    | .broken _ => '\uFFFD')

end AvroIdl.Text
