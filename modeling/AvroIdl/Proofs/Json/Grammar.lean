import AvroIdl.Proofs.Json.Numeral
import AvroIdl.Proofs.Json.Quotes

/-
The grammar of JSON with comments. A text is a row of tokens with gaps around them, and a value
is a row of tokens.
-/
set_option autoImplicit false

namespace AvroIdl.Json

inductive Token
  | openList
  | closeList
  | openObject
  | closeObject
  | comma
  | colon
  | null
  | bool (value : Bool)
  | number (numeral : Numeral)
  | string (text : String)

namespace Token

inductive Spelled : Token → List Char → Prop
  | openList : Spelled .openList ['[']
  | closeList : Spelled .closeList [']']
  | openObject : Spelled .openObject ['\x7b']
  | closeObject : Spelled .closeObject ['\x7d']
  | comma : Spelled .comma [',']
  | colon : Spelled .colon [':']
  | null : Spelled .null ['n', 'u', 'l', 'l']
  | true : Spelled (.bool true) ['t', 'r', 'u', 'e']
  | false : Spelled (.bool false) ['f', 'a', 'l', 's', 'e']
  | number (numeral : Numeral) : Spelled (.number numeral) numeral.text
  | string {text : String} {inner : List Char} (quotes : Quotes inner text.toList) :
      Spelled (.string text) ('"' :: (inner ++ ['"']))

/-- A number goes on as far as it can. -/
def continuesNumber (c : Char) : Bool :=
  c.isDigit || c = '.' || c = 'e' || c = 'E'

/-- The token ends before such a text. -/
def EndsBefore : Token → List Char → Prop
  | .number _, rest => ∀ c ∈ rest.head?, continuesNumber c = false
  | _, _ => True

end Token

def isSpace (c : Char) : Bool :=
  c = ' ' || c = '\t' || c = '\n' || c = '\r'

theorem isSpace_iff {c : Char} : isSpace c = true ↔ c = ' ' ∨ c = '\t' ∨ c = '\n' ∨ c = '\r' := by
  simp only [isSpace, Bool.or_eq_true, decide_eq_true_eq, or_assoc]

/-- A gap without comments. -/
def Blanks (gap : List Char) : Prop :=
  ∀ c ∈ gap, isSpace c = true

inductive Gap : List Char → Prop
  | nil : Gap []
  | space {c : Char} {rest : List Char} (isSpace : isSpace c = true) (after : Gap rest) :
      Gap (c :: rest)
  | block {body rest : List Char} (inside : ¬ ['*', '/'] <:+: body) (after : Gap rest) :
      Gap ('/' :: '*' :: (body ++ '*' :: '/' :: rest))
  | line {body rest : List Char} (inside : '\n' ∉ body) (after : Gap rest) :
      Gap ('/' :: '/' :: (body ++ '\n' :: rest))

/-- In the last line of a text a comment may end with the text. -/
inductive LastGap : List Char → Prop
  | gap {gap : List Char} (isGap : Gap gap) : LastGap gap
  | line {gap body : List Char} (isGap : Gap gap) (inside : '\n' ∉ body) :
      LastGap (gap ++ '/' :: '/' :: body)

/-- The text is made up of the tokens, with gaps around them. -/
inductive Lexed (Between Last : List Char → Prop) : List Token → List Char → Prop
  | last {gap : List Char} (isLast : Last gap) : Lexed Between Last [] gap
  | token {token : Token} {tokens : List Token} {gap text rest : List Char} (isGap : Between gap)
      (spelled : token.Spelled text) (ends : token.EndsBefore rest)
      (after : Lexed Between Last tokens rest) :
      Lexed Between Last (token :: tokens) (gap ++ (text ++ rest))

mutual

/-- The tokens of a value in which lists and objects stand at most `room` deep. Numbers are taken
as they are written. -/
inductive IsValue : Nat → List Token → Json → Prop
  | null {room : Nat} : IsValue room [.null] .null
  | bool {room : Nat} (value : Bool) : IsValue room [.bool value] (.bool value)
  | number {room : Nat} (n : Numeral) : IsValue room [.number n] (.number n.token)
  | string {room : Nat} (text : String) : IsValue room [.string text] (.string text)
  | emptyList {room : Nat} : IsValue (room + 1) [.openList, .closeList] (.array [])
  | list {room : Nat} {tokens rest : List Token} {item : Json} {items : List Json}
      (first : IsValue room tokens item) (others : AreItems room rest items) :
      IsValue (room + 1) (.openList :: (tokens ++ (rest ++ [.closeList]))) (.array (item :: items))
  | emptyObject {room : Nat} : IsValue (room + 1) [.openObject, .closeObject] (.object [])
  | object {room : Nat} {key : String} {tokens rest : List Token} {value : Json}
      {members : Members} (first : IsValue room tokens value)
      (others : AreMembers room [(key, value)] rest members) :
      IsValue (room + 1)
        (.openObject :: .string key :: .colon :: (tokens ++ (rest ++ [.closeObject])))
        (.object members)

/-- The items of a list after its first. -/
inductive AreItems : Nat → List Token → List Json → Prop
  | nil {room : Nat} : AreItems room [] []
  | cons {room : Nat} {tokens rest : List Token} {item : Json} {items : List Json}
      (first : IsValue room tokens item) (others : AreItems room rest items) :
      AreItems room (.comma :: (tokens ++ rest)) (item :: items)

/-- The members of an object after its first, and what they make of those before. -/
inductive AreMembers : Nat → Members → List Token → Members → Prop
  | nil {room : Nat} {members : Members} : AreMembers room members [] members
  | cons {room : Nat} {key : String} {tokens rest : List Token} {value : Json}
      {before members : Members} (first : IsValue room tokens value)
      (others : AreMembers room (before.insert key value) rest members) :
      AreMembers room before (.comma :: .string key :: .colon :: (tokens ++ rest)) members

end

/-- The text is JSON with comments for the value, its numbers as they are written. -/
def Spells (source : String) (json : Json) : Prop :=
  ∃ tokens, Lexed Gap LastGap tokens source.toList ∧ IsValue Reader.maxDepth tokens json

/-- The text is JSON without comments for the value, its numbers as they are written. -/
def SpellsPlainly (source : String) (json : Json) : Prop :=
  ∃ tokens, Lexed Blanks Blanks tokens source.toList ∧ IsValue Reader.maxDepth tokens json

theorem Token.Spelled.ne_nil {token : Token} {text : List Char} (spelled : token.Spelled text) :
    text ≠ [] := by
  cases spelled with
  | number n =>
    intro isNil
    have whole : n.whole = [] := by
      simp only [Numeral.text, List.append_eq_nil_iff] at isNil
      exact isNil.1.1.2
    have isWhole := n.isWhole
    rw [whole] at isWhole
    cases isWhole
  | _ => exact List.cons_ne_nil _ _

/-- How a token is written when nothing else is asked for. -/
def Token.plainText : Token → List Char
  | .openList => ['[']
  | .closeList => [']']
  | .openObject => ['\x7b']
  | .closeObject => ['\x7d']
  | .comma => [',']
  | .colon => [':']
  | .null => ['n', 'u', 'l', 'l']
  | .bool true => ['t', 'r', 'u', 'e']
  | .bool false => ['f', 'a', 'l', 's', 'e']
  | .number n => n.text
  | .string text => '"' :: ((escape text).toList ++ ['"'])

theorem Token.spelled_plainText (token : Token) : token.Spelled token.plainText := by
  cases token with
  | bool value => cases value <;> constructor
  | string text => exact .string (quotes_escape text)
  | _ => constructor

/-- The tokens one right after the other. -/
def joined (tokens : List Token) : List Char :=
  tokens.flatMap Token.plainText

/-- A text that goes on with no number. -/
def Stops (text : List Char) : Prop :=
  ∀ c ∈ text.head?, Token.continuesNumber c = false

theorem Stops.endsBefore {text : List Char} (stops : Stops text) (token : Token) :
    token.EndsBefore text := by
  cases token with
  | number n => exact stops
  | _ => trivial

theorem stops_cons {c : Char} {rest : List Char} (other : Token.continuesNumber c = false) :
    Stops (c :: rest) := by
  rintro _ ⟨⟩
  exact other

section

variable {between last : List Char → Prop}

theorem Lexed.plain {tokens : List Token} {text : List Char} {token : Token}
    (after : Lexed between last tokens text) (none : between []) (ends : token.EndsBefore text) :
    Lexed between last (token :: tokens) (token.plainText ++ text) :=
  .token none token.spelled_plainText ends after

mutual

/-- The tokens of a value can be written without gaps, before a text that goes on with no
number. -/
theorem IsValue.lexed {room : Nat} {tokens : List Token} {json : Json} {more : List Token}
    {text : List Char} (none : between []) : IsValue room tokens json →
      Lexed between last more text → Stops text →
      Lexed between last (tokens ++ more) (joined tokens ++ text)
  | .null, after, stops | .bool _, after, stops | .number _, after, stops
  | .string _, after, stops => by
    rw [joined, List.flatMap_singleton]
    exact after.plain none (stops.endsBefore _)
  | .emptyList, after, _ => by
    have closed : Lexed between last (.closeList :: more) (']' :: text) := after.plain none trivial
    have whole : Lexed between last (.openList :: _) (['['] ++ _) := closed.plain none trivial
    exact whole
  | .emptyObject, after, _ => by
    have closed : Lexed between last (.closeObject :: more) ('\x7d' :: text) :=
      after.plain none trivial
    have whole : Lexed between last (.openObject :: _) (['\x7b'] ++ _) := closed.plain none trivial
    exact whole
  | @IsValue.list _ tokens rest _ _ first others, after, _ => by
    have closed : Lexed between last (.closeList :: more) (']' :: text) := after.plain none trivial
    obtain ⟨tail, stops⟩ := others.lexed none closed (stops_cons rfl)
    have whole : Lexed between last (.openList :: _) (['['] ++ _) :=
      (first.lexed none tail stops).plain none trivial
    simpa [joined, Token.plainText] using whole
  | @IsValue.object _ key tokens rest _ _ first others, after, _ => by
    have closed : Lexed between last (.closeObject :: more) ('\x7d' :: text) :=
      after.plain none trivial
    obtain ⟨tail, stops⟩ := others.lexed none closed (stops_cons rfl)
    have colon : Lexed between last (.colon :: _) ([':'] ++ _) :=
      (first.lexed none tail stops).plain none trivial
    have named : Lexed between last (.string key :: .colon :: _) _ := colon.plain none trivial
    have whole : Lexed between last (.openObject :: _) (['\x7b'] ++ _) := named.plain none trivial
    simpa [joined, Token.plainText] using whole

theorem AreItems.lexed {room : Nat} {tokens : List Token} {items : List Json} {more : List Token}
    {text : List Char} (none : between []) : AreItems room tokens items →
      Lexed between last more text → Stops text →
      Lexed between last (tokens ++ more) (joined tokens ++ text) ∧ Stops (joined tokens ++ text)
  | .nil, after, stops => ⟨after, stops⟩
  | @AreItems.cons _ tokens rest _ _ first others, after, stops => by
    obtain ⟨tail, stops⟩ := others.lexed none after stops
    have whole : Lexed between last (.comma :: _) ([','] ++ _) :=
      (first.lexed none tail stops).plain none trivial
    exact ⟨by simpa [joined, Token.plainText] using whole, stops_cons rfl⟩

theorem AreMembers.lexed {room : Nat} {tokens : List Token} {before members : Members}
    {more : List Token} {text : List Char} (none : between []) :
    AreMembers room before tokens members →
      Lexed between last more text → Stops text →
      Lexed between last (tokens ++ more) (joined tokens ++ text) ∧ Stops (joined tokens ++ text)
  | .nil, after, stops => ⟨after, stops⟩
  | @AreMembers.cons _ key tokens rest _ _ _ first others, after, stops => by
    obtain ⟨tail, stops⟩ := others.lexed none after stops
    have colon : Lexed between last (.colon :: _) ([':'] ++ _) :=
      (first.lexed none tail stops).plain none trivial
    have named : Lexed between last (.string key :: .colon :: _) _ := colon.plain none trivial
    have whole : Lexed between last (.comma :: _) ([','] ++ _) := named.plain none trivial
    exact ⟨by simpa [joined, Token.plainText] using whole, stops_cons rfl⟩

end

end

theorem spellsPlainly_of_joined {source : String} {tokens : List Token} {json : Json}
    (isValue : IsValue Reader.maxDepth tokens json) (same : source.toList = joined tokens) :
    SpellsPlainly source json := by
  have none : Blanks [] := List.forall_mem_nil _
  have ends : Lexed Blanks Blanks [] [] := .last none
  have lexed := isValue.lexed none ends nofun
  rw [List.append_nil, List.append_nil, ← same] at lexed
  exact ⟨tokens, lexed, isValue⟩

end AvroIdl.Json
