import AvroIdl.Pattern.Reader

/-
Which patterns can be put to use. Nothing is known of characters beyond ASCII, neither what
classes they are in nor which differ only in case. And no pattern may match a text in the
middle of a character.
-/
set_option autoImplicit false

namespace AvroIdl.Pattern

/-- The switches that matter here: case does or does not, and patterns are of characters or of
bytes. -/
structure Mode where
  ignoreCase : Bool
  unicode : Bool

namespace Mode

def start : Mode := ⟨false, true⟩

def switched (m : Mode) (s : Switches) : Mode :=
  ⟨s.get .ignoreCase m.ignoreCase, s.get .unicode m.unicode⟩

/-- Case is known of bytes. -/
def knowsCase (m : Mode) : Bool :=
  !m.ignoreCase || !m.unicode

end Mode

/-- A byte beyond ASCII is only a piece of a character. -/
def Atom.isUsable (m : Mode) : Atom → Bool
  | .letter l => m.knowsCase && (m.unicode || !l.asByte || l.char.toNat < 0x80)
  | .dot => m.unicode
  | .edge => true
  | .wordEdge => !m.unicode
  | .shorthand negated => !m.unicode && !negated
  | .property => false

/-- Sets of bytes hold ASCII only, so none of them is negated. -/
def Letter.isMember (m : Mode) (l : Letter) : Bool :=
  m.knowsCase && (m.unicode || l.char.toNat < 0x80)

mutual

def CharSet.isUsable (m : Mode) : CharSet → Bool
  | .empty => true
  | .letter l => l.isMember m
  | .range first last => first.isMember m && last.isMember m
  | .named negated => m.knowsCase && (m.unicode || !negated)
  | .shorthand negated => !m.unicode && !negated
  | .property => false
  | .bracket negated set => set.isUsable m && (m.unicode || !negated)
  | .union sets => CharSet.areUsable m sets
  | .combined left right => left.isUsable m && right.isUsable m

def CharSet.areUsable (m : Mode) : List CharSet → Bool
  | [] => true
  | set :: rest => set.isUsable m && CharSet.areUsable m rest

end

mutual

/-- The mode behind a pattern that is usable in a mode. -/
def modeAfter? (m : Mode) : Pattern → Option Mode
  | .empty => some m
  | .atom a => if a.isUsable m then some m else none
  | .switches s => some (m.switched s)
  | .oneOf negated set =>
    if set.isUsable m && (m.unicode || !negated) then some m else none
  | .repeated p => p.modeAfter? m
  | .group s p => (p.modeAfter? (m.switched s)).map fun _ => m
  | .choice ps | .sequence ps => modeAfterAll? m ps

def modeAfterAll? (m : Mode) : List Pattern → Option Mode
  | [] => some m
  | p :: rest => (p.modeAfter? m).bind fun m => modeAfterAll? m rest

end

/-- Parts that nest deeper than this are too many. -/
def maxDepth : Nat := 250

def isUsable (p : Pattern) : Bool :=
  p.depth ≤ maxDepth && (p.modeAfter? .start).isSome

end AvroIdl.Pattern
