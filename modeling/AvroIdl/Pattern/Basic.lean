/-
Patterns of text: characters, sets, groups, choices and repetitions. Counted repetitions,
which are written with braces, are not among them.
-/
set_option autoImplicit false

namespace AvroIdl

namespace Pattern

/-- Rules that a pattern can switch on and off. -/
inductive Switch
  | ignoreCase
  | lineEdges
  | dotMeetsNewline
  | fewestFirst
  | unicode
  | carriageReturn
  | blanks
  deriving DecidableEq

structure Switches where
  on : List Switch
  off : List Switch

/-- A character may be written as one byte, by two hexadecimal digits. -/
structure Letter where
  char : Char
  asByte : Bool

/-- The smallest patterns. Shorthands are the digits, the white space and the characters of words;
properties are all other classes with a name. -/
inductive Atom
  | letter (l : Letter)
  | dot
  | edge
  | wordEdge
  | shorthand (negated : Bool)
  | property

/-- What stands in brackets. Sets are combined by what they share and by what they do not. -/
inductive CharSet
  | empty
  | letter (l : Letter)
  | range (first last : Letter)
  | named (negated : Bool)
  | shorthand (negated : Bool)
  | property
  | bracket (negated : Bool) (set : CharSet)
  | union (sets : List CharSet)
  | combined (left right : CharSet)

end Pattern

/-- Switches that stand alone hold to the end of the group they are in. -/
inductive Pattern
  | empty
  | atom (a : Pattern.Atom)
  | switches (s : Pattern.Switches)
  | oneOf (negated : Bool) (s : Pattern.CharSet)
  | repeated (p : Pattern)
  | group (s : Pattern.Switches) (p : Pattern)
  | choice (ps : List Pattern)
  | sequence (ps : List Pattern)

namespace Pattern

namespace Switch

def ofLetter? : Char → Option Switch
  | 'i' => some .ignoreCase
  | 'm' => some .lineEdges
  | 's' => some .dotMeetsNewline
  | 'U' => some .fewestFirst
  | 'u' => some .unicode
  | 'R' => some .carriageReturn
  | 'x' => some .blanks
  | _ => none

end Switch

namespace Switches

def none : Switches := ⟨[], []⟩

/-- Letters before a hyphen switch on, those after it off. None may stand twice. -/
def ofLetters? (letters : List Char) : Option Switches := do
  let on ← (letters.takeWhile (· ≠ '-')).mapM Switch.ofLetter?
  match letters.dropWhile (· ≠ '-') with
  | [] => if on.Nodup then return ⟨on, []⟩ else failure
  | _ :: letters =>
    let off ← letters.mapM Switch.ofLetter?
    if off ≠ [] ∧ (on ++ off).Nodup then return ⟨on, off⟩ else failure

/-- How a rule is set that was set in some way before. -/
def get (s : Switches) (switch : Switch) (before : Bool) : Bool :=
  if s.on.contains switch then true else if s.off.contains switch then false else before

end Switches

mutual

def CharSet.depth : CharSet → Nat
  | .bracket _ set => set.depth + 1
  | .union sets => CharSet.depthOfAll sets + 1
  | .combined left right => max left.depth right.depth + 1
  | _ => 0

def CharSet.depthOfAll : List CharSet → Nat
  | [] => 0
  | set :: rest => max set.depth (CharSet.depthOfAll rest)

end

mutual

/-- How many parts stand one inside of the other. Atoms count nothing. -/
def depth : Pattern → Nat
  | .empty | .atom _ | .switches _ => 0
  | .oneOf _ s => s.depth + 1
  | .repeated p | .group _ p => p.depth + 1
  | .choice ps | .sequence ps => depthOfAll ps + 1

def depthOfAll : List Pattern → Nat
  | [] => 0
  | p :: rest => max p.depth (depthOfAll rest)

end

end Pattern

end AvroIdl
