import AvroIdl.Pattern.Set
import AvroIdl.Text.Alphanumeric

/-
Reading patterns: sequences, choices, repetitions and groups.
-/
set_option autoImplicit false

namespace AvroIdl.Pattern

/-- What stands before a group that is not closed yet: choices and items, the last one first, and
whether blanks count there. -/
structure OpenGroup where
  choices : List Pattern
  items : List Pattern
  blanks : Bool
  head : Switches

/-- A pattern that is read in part: choices and items of the innermost group, the last one first,
the groups around it, and the names of all groups. -/
structure Reading where
  choices : List Pattern
  items : List Pattern
  blanks : Bool
  outer : List OpenGroup
  names : List String

namespace Reading

def start : Reading := ⟨[], [], false, [], []⟩

def push (r : Reading) (p : Pattern) : Reading :=
  { r with items := p :: r.items }

/-- What the items come to in order. -/
def sequence (r : Reading) : Pattern :=
  match r.items with
  | [] => .empty
  | [p] => p
  | items => .sequence items.reverse

/-- All of the innermost group. -/
def contents (r : Reading) : Pattern :=
  match r.choices with
  | [] => r.sequence
  | choices => .choice (r.sequence :: choices).reverse

def choose (r : Reading) : Reading :=
  { r with choices := r.sequence :: r.choices, items := [] }

/-- A group may say whether blanks count in it. -/
def openGroup (r : Reading) (head : Switches) : Reading where
  choices := []
  items := []
  blanks := head.get .blanks r.blanks
  outer := ⟨r.choices, r.items, r.blanks, head⟩ :: r.outer
  names := r.names

def closeGroup? (r : Reading) : Option Reading :=
  match r.outer with
  | [] => none
  | g :: outer => some ⟨g.choices, .group g.head r.contents :: g.items, g.blanks, outer, r.names⟩

/-- Only what matches something can be repeated. -/
def repeat? (r : Reading) : Option Reading :=
  match r.items with
  | [] | .switches _ :: _ => none
  | p :: items => some { r with items := .repeated p :: items }

def isName : List Char → Bool
  | [] => false
  | c :: rest =>
    (c = '_' || Text.isAlphabetic c) &&
      rest.all fun c => c = '_' || c = '.' || c = '[' || c = ']' || Text.isAlphanumeric c

/-- Each group has a name of its own. -/
def openNamed (r : Reading) (chars : List Char) : Option (Reading × List Char) :=
  let name := String.ofList (chars.takeWhile (· ≠ '>'))
  match chars.dropWhile (· ≠ '>') with
  | [] => none
  | _ :: rest =>
    if isName name.toList ∧ name ∉ r.names then
      some ({ r.openGroup .none with names := name :: r.names }, rest)
    else none

/-- Switches that a parenthesis ends stand alone; a colon begins a group with them. -/
def openSwitched (r : Reading) (chars : List Char) : Option (Reading × List Char) := do
  let head ← Switches.ofLetters? (chars.takeWhile fun c => c ≠ ':' ∧ c ≠ ')')
  match chars.dropWhile fun c => c ≠ ':' ∧ c ≠ ')' with
  | [] => none
  | c :: rest =>
    if c = ':' then some (r.openGroup head, rest)
    else if head.on = [] ∧ head.off = [] then none
    else some ({ r.push (.switches head) with blanks := head.get .blanks r.blanks }, rest)

def openHead (r : Reading) : List Char → Option (Reading × List Char)
  | '?' :: 'P' :: '<' :: rest | '?' :: '<' :: rest => r.openNamed rest
  | '?' :: rest => r.openSwitched rest
  | rest => some (r.openGroup .none, rest)

/-- A question mark behind a repetition belongs to it. -/
def afterRepetition : List Char → List Char
  | '?' :: rest => rest
  | rest => rest

def next (r : Reading) (c : Char) (rest : List Char) : Option (Reading × List Char) :=
  if c = '(' then r.openHead (skip r.blanks rest)
  else if c = ')' then r.closeGroup?.map (·, rest)
  else if c = '|' then some (r.choose, rest)
  else if c = '[' then
    (readSet r.blanks .new [] rest).map fun (p, rest) => (r.push p, rest)
  else if c = '*' ∨ c = '+' ∨ c = '?' then r.repeat?.map (·, afterRepetition rest)
  else if c = '\x7b' then none
  else if c = '.' then some (r.push (.atom .dot), rest)
  else if c = '^' ∨ c = '$' then some (r.push (.atom .edge), rest)
  else (readMember r.blanks c rest).map fun (a, rest) => (r.push (.atom a), rest)

theorem length_le_of_openNamed {r s : Reading} {chars rest : List Char}
    (h : r.openNamed chars = some (s, rest)) : rest.length ≤ chars.length := by
  have short := (List.dropWhile_sublist (l := chars) (· ≠ '>')).length_le
  simp only [openNamed] at h
  split at h
  · cases h
  · rename_i found
    rw [found, List.length_cons] at short
    split at h
    · cases h
      omega
    · cases h

theorem length_le_of_openSwitched {r s : Reading} {chars rest : List Char}
    (h : r.openSwitched chars = some (s, rest)) : rest.length ≤ chars.length := by
  have short := (List.dropWhile_sublist (l := chars) fun c => c ≠ ':' ∧ c ≠ ')').length_le
  obtain ⟨head, _, h⟩ := Option.bind_eq_some_iff.1 h
  split at h
  · cases h
  · rename_i found
    rw [found, List.length_cons] at short
    grind

theorem length_le_of_openHead {r s : Reading} {chars rest : List Char}
    (h : r.openHead chars = some (s, rest)) : rest.length ≤ chars.length := by
  unfold openHead at h
  split at h
  · exact Nat.le_trans (length_le_of_openNamed h) (by simp only [List.length_cons]; omega)
  · exact Nat.le_trans (length_le_of_openNamed h) (by simp only [List.length_cons]; omega)
  · exact Nat.le_trans (length_le_of_openSwitched h) (by simp only [List.length_cons]; omega)
  · cases h
    exact Nat.le_refl _

theorem length_afterRepetition_le (chars : List Char) :
    (afterRepetition chars).length ≤ chars.length := by
  unfold afterRepetition
  split
  · exact Nat.le_succ _
  · exact Nat.le_refl _

theorem length_le_of_next {r s : Reading} {c : Char} {chars rest : List Char}
    (h : r.next c chars = some (s, rest)) : rest.length ≤ chars.length := by
  have behind := length_afterRepetition_le chars
  simp only [next] at h
  split at h
  · exact Nat.le_trans (length_le_of_openHead h) (length_skip_le r.blanks chars)
  · grind [→ length_le_of_readSet, → length_le_of_readMember, Option.map_eq_some_iff]

def run (r : Reading) (chars : List Char) : Option Pattern :=
  match _found : skip r.blanks chars with
  | [] => if r.outer.isEmpty then some r.contents else none
  | c :: after =>
    match _read : r.next c after with
    | none => none
    | some (s, rest) => run s rest
termination_by chars.length
decreasing_by
  have skipped := length_skip_le r.blanks chars
  have short := length_le_of_next _read
  rw [_found, List.length_cons] at skipped
  omega

end Reading

def ofText? (text : String) : Option Pattern :=
  Reading.start.run text.toList

end AvroIdl.Pattern
