import AvroIdl.Pattern.Atom

/-
Reading sets of characters: brackets in brackets, ranges, and operators between them.
-/
set_option autoImplicit false

namespace AvroIdl.Pattern

/-- At its beginning a bracket may be negated, and then hyphens and a closing bracket mean
themselves. -/
inductive BracketPart
  | opened
  | negated
  | hyphens
  | inside

/-- A bracket that is not closed yet: what stands before its last operator, and the sets after
that, the last one first. -/
structure Bracket where
  negated : Bool
  left : Option CharSet
  sets : List CharSet
  part : BracketPart

namespace Bracket

def new : Bracket := ⟨false, none, [], .opened⟩

def add (b : Bracket) (set : CharSet) : Bracket :=
  { b with sets := set :: b.sets, part := .inside }

def contents (b : Bracket) : CharSet :=
  let right := match b.sets with
    | [] => .empty
    | [set] => set
    | sets => .union sets.reverse
  match b.left with
  | none => right
  | some left => .combined left right

/-- An operator stands behind all that was read. -/
def operated (b : Bracket) : Bracket :=
  ⟨b.negated, some b.contents, [], .inside⟩

end Bracket

def namedSets : List String :=
  ["alnum", "alpha", "ascii", "blank", "cntrl", "digit", "graph", "lower", "print", "punct",
    "space", "upper", "word", "xdigit"]

def readName (negated : Bool) (chars : List Char) : Option (CharSet × List Char) :=
  match chars.dropWhile (· ≠ ':') with
  | ':' :: ']' :: rest =>
    if namedSets.contains (String.ofList (chars.takeWhile (· ≠ ':'))) then
      some (.named negated, rest)
    else none
  | _ => none

/-- A set that goes by a name between colons. A bracket that holds something else is no such set. -/
def readNamed : List Char → Option (CharSet × List Char)
  | ':' :: '^' :: rest => readName true rest
  | ':' :: rest => readName false rest
  | _ => none

/-- The first sign behind the next blanks, and behind the sign of a comment if one is there. When
there is none, the next blank. -/
def lookAhead (blanks : Bool) (chars : List Char) : Option Char :=
  if blanks then
    let rest := match chars.dropWhile Text.isBlank with
      | '#' :: rest => rest.dropWhile Text.isBlank
      | rest => rest
    rest.head?.or chars.head?
  else chars.head?

def CharSet.ofAtom? : Atom → Option CharSet
  | .letter l => some (.letter l)
  | .shorthand negated => some (.shorthand negated)
  | .property => some .property
  | .dot | .edge | .wordEdge => none

/-- A range goes up. -/
def CharSet.range? (first last : Atom) : Option CharSet :=
  match first, last with
  | .letter first, .letter last =>
    if first.char ≤ last.char then some (.range first last) else none
  | _, _ => none

/-- One character or a range. A hyphen before a closing bracket or another hyphen makes no range. -/
def readRange (blanks : Bool) (c : Char) (rest : List Char) : Option (CharSet × List Char) := do
  let (first, rest) ← readMember blanks c rest
  let single := (CharSet.ofAtom? first).map (·, rest)
  match skip blanks rest with
  | [] => none
  | hyphen :: after =>
    if hyphen ≠ '-' ∨ lookAhead blanks after = some ']' ∨ lookAhead blanks after = some '-' then
      single
    else
      match skip blanks after with
      | [] => none
      | d :: after =>
        let (last, after) ← readMember blanks d after
        (CharSet.range? first last).map (·, after)

/-- Brackets that are open, the innermost first, or the outermost bracket when it is closed. -/
inductive SetReading
  | unfinished (b : Bracket) (outer : List Bracket)
  | finished (negated : Bool) (set : CharSet)

namespace SetReading

def insideOf (blanks : Bool) (b : Bracket) (outer : List Bracket) (c : Char) (rest : List Char) :
    Option (SetReading × List Char) :=
  if c = '[' then
    match readNamed rest with
    | some (set, rest) => some (.unfinished (b.add set) outer, rest)
    | none => some (.unfinished .new (b :: outer), rest)
  else if c = ']' then
    match outer with
    | [] => some (.finished b.negated b.contents, rest)
    | p :: outer => some (.unfinished (p.add (.bracket b.negated b.contents)) outer, rest)
  else if (c = '&' ∨ c = '-' ∨ c = '~') ∧ rest.head? = some c then
    some (.unfinished b.operated outer, rest.drop 1)
  else (readRange blanks c rest).map fun (set, rest) => (.unfinished (b.add set) outer, rest)

def next (blanks : Bool) (b : Bracket) (outer : List Bracket) (c : Char) (rest : List Char) :
    Option (SetReading × List Char) :=
  let itself (part : BracketPart) : SetReading :=
    .unfinished { b.add (.letter ⟨c, false⟩) with part := part } outer
  match b.part with
  | .inside => insideOf blanks b outer c rest
  | .hyphens =>
    if c = '-' then some (itself .hyphens, rest) else insideOf blanks b outer c rest
  | .negated =>
    if c = '-' then some (itself .hyphens, rest)
    else if c = ']' then some (itself .inside, rest)
    else insideOf blanks b outer c rest
  | .opened =>
    if c = '^' then some (.unfinished { b with negated := true, part := .negated } outer, rest)
    else if c = '-' then some (itself .hyphens, rest)
    else if c = ']' then some (itself .inside, rest)
    else insideOf blanks b outer c rest

end SetReading

theorem length_le_of_readName {negated : Bool} {set : CharSet} {chars rest : List Char}
    (h : readName negated chars = some (set, rest)) : rest.length ≤ chars.length := by
  have short := (List.dropWhile_sublist (l := chars) (· ≠ ':')).length_le
  simp only [readName] at h
  split at h
  · rename_i after found
    rw [found] at short
    split at h
    · cases h
      simp only [List.length_cons] at short
      omega
    · cases h
  · cases h

theorem length_le_of_readNamed {set : CharSet} {chars rest : List Char}
    (h : readNamed chars = some (set, rest)) : rest.length ≤ chars.length := by
  unfold readNamed at h
  split at h
  · exact Nat.le_trans (length_le_of_readName h) (by simp only [List.length_cons]; omega)
  · exact Nat.le_trans (length_le_of_readName h) (by simp only [List.length_cons]; omega)
  · cases h

theorem length_le_of_readRange {blanks : Bool} {c : Char} {set : CharSet} {chars rest : List Char}
    (h : readRange blanks c chars = some (set, rest)) : rest.length ≤ chars.length := by
  obtain ⟨⟨first, after⟩, read, h⟩ := Option.bind_eq_some_iff.1 h
  have short := length_le_of_readMember read
  have skipped := length_skip_le blanks after
  dsimp only at h
  split at h
  · cases h
  · rename_i hyphen behind found
    rw [found, List.length_cons] at skipped
    split at h
    · obtain ⟨_, _, h⟩ := Option.map_eq_some_iff.1 h
      cases h
      exact short
    · have skippedAgain := length_skip_le blanks behind
      split at h
      · cases h
      · rename_i d last foundLast
        rw [foundLast, List.length_cons] at skippedAgain
        obtain ⟨⟨_, r⟩, readLast, h⟩ := Option.bind_eq_some_iff.1 h
        have shortAgain := length_le_of_readMember readLast
        obtain ⟨_, _, h⟩ := Option.map_eq_some_iff.1 h
        cases h
        dsimp only
        omega

namespace SetReading

theorem length_le_of_insideOf {blanks : Bool} {b : Bracket} {outer : List Bracket} {c : Char}
    {reading : SetReading} {chars rest : List Char}
    (h : insideOf blanks b outer c chars = some (reading, rest)) :
    rest.length ≤ chars.length := by
  simp only [insideOf] at h
  split at h
  · split at h
    · rename_i found
      cases h
      exact length_le_of_readNamed found
    · cases h
      exact Nat.le_refl _
  · split at h
    · split at h <;> cases h <;> exact Nat.le_refl _
    · split at h
      · cases h
        simp
      · obtain ⟨_, read, h⟩ := Option.map_eq_some_iff.1 h
        cases h
        exact length_le_of_readRange read

theorem length_le_of_next {blanks : Bool} {b : Bracket} {outer : List Bracket} {c : Char}
    {reading : SetReading} {chars rest : List Char}
    (h : next blanks b outer c chars = some (reading, rest)) : rest.length ≤ chars.length := by
  have inside := @length_le_of_insideOf blanks b outer c reading chars rest
  simp only [next] at h
  grind

end SetReading

/-- The set of a bracket that was opened before, and what follows it. -/
def readSet (blanks : Bool) (b : Bracket) (outer : List Bracket) (chars : List Char) :
    Option (Pattern × List Char) :=
  match _found : skip blanks chars with
  | [] => none
  | c :: after =>
    match _read : SetReading.next blanks b outer c after with
    | none => none
    | some (.finished negated set, rest) => some (.oneOf negated set, rest)
    | some (.unfinished b outer, rest) => readSet blanks b outer rest
termination_by chars.length
decreasing_by
  have skipped := length_skip_le blanks chars
  have short := SetReading.length_le_of_next _read
  rw [_found, List.length_cons] at skipped
  omega

theorem length_le_of_readSet {blanks : Bool} {b : Bracket} {outer : List Bracket} {p : Pattern}
    {chars rest : List Char} (h : readSet blanks b outer chars = some (p, rest)) :
    rest.length ≤ chars.length := by
  fun_induction readSet blanks b outer chars with
  | case1 => cases h
  | case2 => cases h
  | case3 b outer chars c after found negated set r read =>
    have skipped := length_skip_le blanks chars
    have short := SetReading.length_le_of_next read
    rw [found, List.length_cons] at skipped
    cases h
    omega
  | case4 b outer chars c after found b' outer' r read ih =>
    have skipped := length_skip_le blanks chars
    have short := SetReading.length_le_of_next read
    rw [found, List.length_cons] at skipped
    have := ih h
    omega

end AvroIdl.Pattern
