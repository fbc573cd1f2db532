import AvroIdl.Pattern.Basic
import AvroIdl.Text.Blank

/-
Reading atoms: characters, and what a backslash makes of them. Where blanks are no part of
a pattern, they may stand between its signs, and comments too.
-/
set_option autoImplicit false

namespace AvroIdl.Pattern

/-- Leaves out blanks and comments; a comment goes to the end of its line. -/
def skipBlanks (inComment : Bool) : List Char → List Char
  | [] => []
  | c :: rest =>
    if inComment then skipBlanks (c ≠ '\n') rest
    else if Text.isBlank c then skipBlanks false rest
    else if c = '#' then skipBlanks true rest
    else c :: rest

def skip (blanks : Bool) (chars : List Char) : List Char :=
  if blanks then skipBlanks false chars else chars

theorem length_skipBlanks_le (inComment : Bool) (chars : List Char) :
    (skipBlanks inComment chars).length ≤ chars.length := by
  induction chars generalizing inComment with
  | nil => simp [skipBlanks]
  | cons c rest ih =>
    unfold skipBlanks
    split
    · exact Nat.le_succ_of_le (ih _)
    · split
      · exact Nat.le_succ_of_le (ih _)
      · split
        · exact Nat.le_succ_of_le (ih _)
        · exact Nat.le_refl _

theorem length_skip_le (blanks : Bool) (chars : List Char) :
    (skip blanks chars).length ≤ chars.length := by
  unfold skip
  split
  · exact length_skipBlanks_le false chars
  · exact Nat.le_refl _

def hexDigit? (c : Char) : Option Nat :=
  if c.isDigit then some (c.toNat - '0'.toNat)
  else if 'a' ≤ c ∧ c ≤ 'f' then some (c.toNat - 'a'.toNat + 10)
  else if 'A' ≤ c ∧ c ≤ 'F' then some (c.toNat - 'A'.toNat + 10)
  else none

/-- A number of so many hexadecimal digits, and what follows it. -/
def readHex (blanks : Bool) : Nat → Nat → List Char → Option (Nat × List Char)
  | 0, value, chars => some (value, chars)
  | n + 1, value, chars =>
    match skip blanks chars with
    | [] => none
    | c :: rest => (hexDigit? c).bind fun digit => readHex blanks n (16 * value + digit) rest

theorem length_le_of_readHex {blanks : Bool} {n value number : Nat} {chars rest : List Char}
    (h : readHex blanks n value chars = some (number, rest)) : rest.length ≤ chars.length := by
  induction n generalizing value chars with
  | zero =>
    simp only [readHex, Option.some.injEq, Prod.mk.injEq] at h
    exact Nat.le_of_eq (congrArg List.length h.2.symm)
  | succ n ih =>
    have short := length_skip_le blanks chars
    simp only [readHex] at h
    split at h
    · cases h
    · rename_i c after found
      rw [found, List.length_cons] at short
      obtain ⟨digit, _, h⟩ := Option.bind_eq_some_iff.1 h
      have := ih h
      omega

def readCode (blanks : Bool) (digits : Nat) (chars : List Char) : Option (Atom × List Char) :=
  (readHex blanks digits 0 chars).bind fun (code, rest) =>
    if code.isValidChar then some (.letter ⟨Char.ofNat code, digits = 2⟩, rest) else none

/-- A property goes by one letter. -/
def readProperty (blanks : Bool) (chars : List Char) : Option (Atom × List Char) :=
  match skip blanks chars with
  | [] => none
  | c :: rest => if c = '\\' ∨ c = '\x7b' then none else some (.property, rest)

/-- What a backslash and one more character mean. Signs stand for themselves. -/
def escaped? (c : Char) : Option Atom :=
  match c with
  | 'd' | 's' | 'w' => some (.shorthand false)
  | 'D' | 'S' | 'W' => some (.shorthand true)
  | 'a' => some (.letter ⟨'\x07', false⟩)
  | 'f' => some (.letter ⟨'\x0c', false⟩)
  | 't' => some (.letter ⟨'\t', false⟩)
  | 'n' => some (.letter ⟨'\n', false⟩)
  | 'r' => some (.letter ⟨'\r', false⟩)
  | 'v' => some (.letter ⟨'\x0b', false⟩)
  | 'A' | 'z' => some .edge
  | 'b' | 'B' | '<' | '>' => some .wordEdge
  | c => if c.isAlphanum ∨ 0x80 ≤ c.toNat then none else some (.letter ⟨c, false⟩)

/-- What stands behind a backslash. -/
def readEscape (blanks : Bool) : List Char → Option (Atom × List Char)
  | [] => none
  | c :: rest =>
    if c = 'x' then readCode blanks 2 rest
    else if c = 'u' then readCode blanks 4 rest
    else if c = 'U' then readCode blanks 8 rest
    else if c = 'p' ∨ c = 'P' then readProperty blanks rest
    else (escaped? c).map (·, rest)

/-- A character of a set, which means itself unless it is a backslash. -/
def readMember (blanks : Bool) (c : Char) (rest : List Char) : Option (Atom × List Char) :=
  if c = '\\' then readEscape blanks rest else some (.letter ⟨c, false⟩, rest)

theorem length_le_of_readCode {blanks : Bool} {digits : Nat} {atom : Atom}
    {chars rest : List Char} (h : readCode blanks digits chars = some (atom, rest)) :
    rest.length ≤ chars.length := by
  obtain ⟨⟨code, after⟩, read, h⟩ := Option.bind_eq_some_iff.1 h
  have short := length_le_of_readHex read
  by_cases valid : code.isValidChar
  · simp only [valid, if_true, Option.some.injEq, Prod.mk.injEq] at h
    exact h.2 ▸ short
  · simp [valid] at h

theorem length_le_of_readProperty {blanks : Bool} {atom : Atom} {chars rest : List Char}
    (h : readProperty blanks chars = some (atom, rest)) : rest.length ≤ chars.length := by
  have short := length_skip_le blanks chars
  simp only [readProperty] at h
  split at h
  · cases h
  · rename_i c after found
    rw [found, List.length_cons] at short
    split at h
    · cases h
    · cases h
      omega

theorem length_le_of_readEscape {blanks : Bool} {atom : Atom} {chars rest : List Char}
    (h : readEscape blanks chars = some (atom, rest)) : rest.length ≤ chars.length := by
  cases chars with
  | nil => cases h
  | cons c after =>
    simp only [readEscape] at h
    rw [List.length_cons]
    split at h
    · exact Nat.le_succ_of_le (length_le_of_readCode h)
    · split at h
      · exact Nat.le_succ_of_le (length_le_of_readCode h)
      · split at h
        · exact Nat.le_succ_of_le (length_le_of_readCode h)
        · split at h
          · exact Nat.le_succ_of_le (length_le_of_readProperty h)
          · obtain ⟨_, _, h⟩ := Option.map_eq_some_iff.1 h
            cases h
            exact Nat.le_succ _

theorem length_le_of_readMember {blanks : Bool} {c : Char} {atom : Atom} {chars rest : List Char}
    (h : readMember blanks c chars = some (atom, rest)) : rest.length ≤ chars.length := by
  simp only [readMember] at h
  split at h
  · exact length_le_of_readEscape h
  · cases h
    exact Nat.le_refl _

end AvroIdl.Pattern
