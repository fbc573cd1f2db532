/-
The edit distance of two words: how many characters must be inserted, deleted or
replaced to turn one into the other.
-/
set_option autoImplicit false

namespace AvroIdl.Hint

/-- The next row of the table, from left to right. `above` is the row before it, `corner` its
entry before those, and `left` the entry just made. -/
def fillRow (c : Char) : List Char → Nat → Nat → List Nat → List Nat
  | d :: ds, corner, left, upper :: above =>
    let entry := min (min (corner + if c = d then 0 else 1) (upper + 1)) (left + 1)
    entry :: fillRow c ds upper entry above
  | _, _, _, _ => []

/-- A row holds the distances of one prefix of `a` from all prefixes of `b`. -/
def nextRow (b : List Char) (row : List Nat) (c : Char) : List Nat :=
  match row with
  | [] => []
  | corner :: above => (corner + 1) :: fillRow c b corner (corner + 1) above

def firstRow (b : List Char) : List Nat :=
  List.range (b.length + 1)

def distance (a b : String) : Nat :=
  (a.toList.foldl (nextRow b.toList) (firstRow b.toList)).getLastD 0

end AvroIdl.Hint
