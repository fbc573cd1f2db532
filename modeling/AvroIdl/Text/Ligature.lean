import AvroIdl.Text.Width

/-
Letters that make one character with letters before them. The writing system decides
which ones do, and whether a joiner has to stand between them.
-/
set_option autoImplicit false

namespace AvroIdl.Text

/-- A letter or a run of letters that one before it can be drawn into. -/
inductive Letter where
  /-- Arabic alef, drawn into a lam. -/
  | alef
  /-- Hebrew lamed, joined to an alef. -/
  | lamed
  /-- A Khmer letter, drawn below another one after the sign coeng. -/
  | subscript
  /-- Buginese ya, joined to the vowel i. -/
  | ya
  /-- That ya with its vowel, drawn into an a. -/
  | iya
  /-- A Tifinagh consonant, and one after a consonant joiner. -/
  | consonant
  | joinedConsonant
  /-- The second of two tone letters of Lisu. -/
  | secondTone
  /-- Old Turkic i, joined to an ash. -/
  | orkhonI
deriving DecidableEq

/-- First and last code point of each range of marks that may stand anywhere in a ligature, in
order. Arabic has its own. -/
def ligatureMarkRanges : List (Nat × Nat) := [
  (0x34f, 0x34f), (0x17b4, 0x17b5), (0x180b, 0x180d), (0x180f, 0x180f), (0xfe00, 0xfe0f),
  (0xe0100, 0xe01ef)]

def isLigatureMark (c : Char) : Bool :=
  ligatureMarkRanges.any fun (first, last) => first ≤ c.toNat && c.toNat ≤ last

/-- Unicode 15.1: characters without width that nonetheless part the Arabic letters around them,
in the same form. -/
def partingRanges : List (Nat × Nat) := [
  (0x605, 0x605), (0x890, 0x891), (0x8e2, 0x8e2), (0x9be, 0x9be), (0x9d7, 0x9d7),
  (0xb3e, 0xb3e), (0xb57, 0xb57), (0xbbe, 0xbbe), (0xbd7, 0xbd7), (0xcc0, 0xcc0),
  (0xcc2, 0xcc2), (0xcc7, 0xcc8), (0xcca, 0xccb), (0xcd5, 0xcd6), (0xd3e, 0xd3e),
  (0xd4e, 0xd4e), (0xd57, 0xd57), (0xdcf, 0xdcf), (0xddf, 0xddf), (0x1160, 0x11ff),
  (0x180e, 0x180e), (0x1b35, 0x1b35), (0x1b3b, 0x1b3b), (0x1b3d, 0x1b3d),
  (0x1b43, 0x1b43), (0x200c, 0x200d), (0x2065, 0x2069), (0x302e, 0x302f),
  (0x3164, 0x3164), (0xa8fa, 0xa8fa), (0xd7b0, 0xd7c6), (0xd7cb, 0xd7fb),
  (0xff9e, 0xffa0), (0xfff0, 0xfff8), (0x111c2, 0x111c3), (0x1133e, 0x1133e),
  (0x11357, 0x11357), (0x114b0, 0x114b0), (0x114bd, 0x114bd), (0x115af, 0x115af),
  (0x11930, 0x11930), (0x1193f, 0x1193f), (0x11941, 0x11941), (0x11a3a, 0x11a3a),
  (0x11a84, 0x11a89), (0x11d46, 0x11d46), (0x11f02, 0x11f02), (0x1d165, 0x1d165),
  (0x1d16e, 0x1d172), (0xe0000, 0xe0000), (0xe0002, 0xe001f), (0xe0080, 0xe00ff),
  (0xe01f0, 0xe0fff)]

/-- Marks that Arabic letters join across. -/
def isTransparent (c : Char) : Bool :=
  width? c = some 0 &&
    !partingRanges.any fun (first, last) => first ≤ c.toNat && c.toNat ≤ last

def isLam (c : Char) : Bool :=
  c = '\u0644' || (0x6b5 ≤ c.toNat && c.toNat ≤ 0x6b8) || c = '\u076a' || c = '\u08a6' ||
    c = '\u08c7'

def isAlef (c : Char) : Bool :=
  ['\u0622', '\u0623', '\u0625', '\u0627', '\u0671', '\u0672', '\u0673', '\u0675', '\u0773',
    '\u0774'].contains c || (0x870 ≤ c.toNat && c.toNat ≤ 0x882)

/-- First and last code point of each range of Khmer letters that have a form below another one,
in order. -/
def subscriptRanges : List (Nat × Nat) := [
  (0x1780, 0x1782), (0x1784, 0x1787), (0x1789, 0x178c), (0x178e, 0x1793), (0x1795, 0x1798),
  (0x179b, 0x179d), (0x17a0, 0x17a0), (0x17a2, 0x17a2), (0x17a7, 0x17a7), (0x17ab, 0x17ac),
  (0x17af, 0x17af)]

def isSubscript (c : Char) : Bool :=
  subscriptRanges.any fun (first, last) => first ≤ c.toNat && c.toNat ≤ last

def isConsonant (c : Char) : Bool :=
  (0x2d31 ≤ c.toNat && c.toNat ≤ 0x2d65) || c = '\u2d6f'

namespace Letter

def ofChar? (c : Char) : Option Letter :=
  if isAlef c then some alef
  else if c = '\u05dc' then some lamed
  else if isSubscript c then some subscript
  else if c = '\u1a10' then some ya
  else if isConsonant c then some consonant
  else if c = '\ua4fc' || c = '\ua4fd' then some secondTone
  else if c.toNat = 0x10c03 then some orkhonI
  else none

/-- The width that a character adds to a letter that it is drawn into or belongs to, and the
letter that the two are for one before them. `joined` tells that a joiner is between. -/
def before? (c : Char) (joined : Bool) : Letter → Option (Int × Option Letter)
  | alef =>
    if isLam c then some (0, none)
    else if isTransparent c then some (0, some alef)
    else none
  | lamed => if joined && c = '\u05d0' then some (0, none) else none
  | subscript => if c = '\u17d2' then some (-1, none) else none
  | ya => if joined && c = '\u1a17' then some (0, some iya) else none
  | iya => if c = '\u1a15' then some (0, none) else none
  | consonant =>
    if c = '\u2d7f' then some (1, some joinedConsonant)
    else if joined && isConsonant c then some (0, none)
    else none
  | joinedConsonant => if isConsonant c then some (-1, none) else none
  | secondTone => if 0xa4f8 ≤ c.toNat && c.toNat ≤ 0xa4fb then some (0, none) else none
  | orkhonI => if joined && c.toNat = 0x10c32 then some (0, none) else none

end Letter

end AvroIdl.Text
