import AvroIdl.Text.Emoji
import AvroIdl.Text.Ligature

/-
How many columns a text takes. Characters that are drawn as one count as one, so the width
of each depends on what follows it: a text is measured from its end, and what the part
measured so far begins with is all that the next character has to know of it.
-/
set_option autoImplicit false

namespace AvroIdl.Text

/-- A selector asks for one form of the character before it. -/
inductive Selector where
  | text
  | emoji
deriving DecidableEq

namespace Selector

def ofChar? : Char → Option Selector
  | '\ufe0e' => some text
  | '\ufe0f' => some emoji
  | _ => none

/-- Whether a character has the form that is asked for. An emoji made of an ideograph keeps its
width as a text. -/
def selects (c : Char) : Selector → Bool
  | text => isSelectable c && !(0x1f200 ≤ c.toNat && c.toNat ≤ 0x1f2ff)
  | emoji => isTextEmoji c || isSelectable c

end Selector

/-- What can be drawn as one with a character before it. -/
inductive Item where
  | plain
  | letter (letter : Letter) (joined : Bool)
  | emoji (part : EmojiPart)

namespace Item

def ofChar (c : Char) : Item :=
  match Letter.ofChar? c, emojiPart? c with
  | some l, _ => letter l false
  | none, some part => emoji part
  | none, none => plain

def isLetter : Item → Bool
  | letter _ _ => true
  | _ => false

/-- An emoji that the one before it is joined to. -/
def isJoined : Item → Bool
  | emoji .joined => true
  | emoji .joinedKeycap => true
  | _ => false

/-- The width that a character adds to what it is drawn as one with, and what the two are. -/
def before? (c : Char) : Item → Option (Int × Item)
  | plain => none
  | letter l joined =>
    if l ≠ .alef && c = joiner then some (0, letter l true)
    else if l ≠ .alef && isLigatureMark c then some (0, letter l joined)
    else (l.before? c joined).map fun (width, both) => (width, both.elim plain (letter · false))
  | emoji part => (part.before? c).map fun (width, both) => (width, emoji both)

end Item

/-- What a text begins with: an item, and a selector in front of it. -/
structure Onset where
  item : Item
  selector : Option Selector

namespace Onset

def plain : Onset := ⟨.plain, none⟩

/-- What is left of an item once a selector is in front of it. -/
def select (s : Selector) (next : Item) : Onset :=
  ⟨if next.isLetter || s = .emoji && next.isJoined then next else .plain, some s⟩

/-- What a selector that is of no use to the character before it leaves. -/
def unselect (next : Onset) : Item :=
  if next.selector.isNone || next.item.isLetter then next.item else .plain

end Onset

/-- The width of a character before an item, and what the text then begins with. -/
def widthBefore (c : Char) (next : Item) : Int × Onset :=
  if c.toNat ≤ 0xa0 then (1, .plain)
  else match Selector.ofChar? c, next.before? c with
    | some s, _ => (0, .select s next)
    | none, some (width, both) => (width, ⟨both, none⟩)
    | none, none => ((width? c).getD 1, ⟨.ofChar c, none⟩)

/-- The width of a character before the rest of its text, and what the text then begins with. An
emoji that is joined to the next one counts there. -/
def step (c : Char) (next : Onset) : Int × Onset :=
  match next.selector.filter (·.selects c) with
  | some .text => (1, .plain)
  | some .emoji => (if next.item.isJoined then 0 else 2, ⟨.emoji .whole, none⟩)
  | none => widthBefore c next.unselect

/-- The width of a text, and what it begins with. -/
def measure (chars : List Char) : Int × Onset :=
  chars.foldr (fun c (total, next) =>
    let (width, onset) := step c next
    (width + total, onset)) (0, .plain)

/-- Control characters count one each. -/
def width (chars : List Char) : Nat :=
  (measure chars).1.toNat

end AvroIdl.Text
