/-
Where a reader stands in a text: after how many bytes, on which line, and how many
bytes into that line.
-/
set_option autoImplicit false

namespace AvroIdl.Json

structure Position where
  offset : Nat
  line : Nat
  column : Nat
  deriving DecidableEq

namespace Position

def start : Position := ⟨0, 1, 0⟩

def advance (p : Position) (byte : UInt8) : Position :=
  if byte = 0x0a then ⟨p.offset + 1, p.line + 1, 0⟩
  else ⟨p.offset + 1, p.line, p.column + 1⟩

def after (p : Position) (bytes : List UInt8) : Position :=
  bytes.foldl advance p

theorem after_append (p : Position) (a b : List UInt8) :
    p.after (a ++ b) = (p.after a).after b :=
  List.foldl_append

theorem offset_after (p : Position) (bytes : List UInt8) :
    (p.after bytes).offset = p.offset + bytes.length := by
  induction bytes generalizing p with
  | nil => rfl
  | cons byte rest ih =>
    rw [after, List.foldl_cons, ← after, ih, List.length_cons]
    unfold advance
    split <;> simp only <;> omega

theorem line_after (p : Position) (bytes : List UInt8) :
    (p.after bytes).line = p.line + bytes.count 0x0a := by
  induction bytes generalizing p with
  | nil => rfl
  | cons byte rest ih =>
    rw [after, List.foldl_cons, ← after, ih, List.count_cons]
    unfold advance
    split
    · simp_all
      omega
    · simp_all

end Position

/-- The byte where a line begins, or the length of a text with fewer lines. -/
def lineStart : Nat → List UInt8 → Nat
  | 0, _ => 0
  | _ + 1, [] => 0
  | n + 1, byte :: rest => 1 + lineStart (if byte = 0x0a then n else n + 1) rest

end AvroIdl.Json
