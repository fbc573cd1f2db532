import AvroIdl.Json.Reader

/-
Numbers as JSON writes them. The reader keeps all of a number but the spelling of its exponent,
which becomes a small `e` with a sign.
-/
set_option autoImplicit false

namespace AvroIdl.Json

/-- One digit or more. -/
structure IsDigits (text : List Char) : Prop where
  nonempty : text ≠ []
  only : ∀ c ∈ text, c.isDigit = true

/-- The digits before the point. A zero among them comes first only if it is alone. -/
inductive IsWhole : List Char → Prop
  | zero : IsWhole ['0']
  | positive {c : Char} {rest : List Char} (digit : c.isDigit = true) (nonzero : c ≠ '0')
      (more : ∀ d ∈ rest, d.isDigit = true) : IsWhole (c :: rest)

structure Exponent where
  letter : Char
  sign : Option Char
  digits : List Char
  isLetter : letter = 'e' ∨ letter = 'E'
  isSign : ∀ c ∈ sign, c = '+' ∨ c = '-'
  isDigits : IsDigits digits

structure Numeral where
  negative : Bool
  whole : List Char
  fraction : Option (List Char)
  exponent : Option Exponent
  isWhole : IsWhole whole
  isFraction : ∀ digits ∈ fraction, IsDigits digits

namespace Exponent

def text (e : Exponent) : List Char :=
  e.letter :: (e.sign.toList ++ e.digits)

theorem isSign_getD (e : Exponent) : e.sign.getD '+' = '+' ∨ e.sign.getD '+' = '-' := by
  cases given : e.sign with
  | none => exact .inl rfl
  | some c => exact e.isSign c given

/-- The same exponent as a small `e` with a sign. -/
def normal (e : Exponent) : Exponent where
  letter := 'e'
  sign := some (e.sign.getD '+')
  digits := e.digits
  isLetter := .inl rfl
  isSign := by
    intro c same
    rw [← Option.some.inj same]
    exact e.isSign_getD
  isDigits := e.isDigits

theorem text_normal (e : Exponent) : e.normal.text = 'e' :: e.sign.getD '+' :: e.digits :=
  rfl

end Exponent

namespace Numeral

def signText (n : Numeral) : List Char :=
  if n.negative then ['-'] else []

def fractionText (n : Numeral) : List Char :=
  match n.fraction with
  | some digits => '.' :: digits
  | none => []

def exponentText (n : Numeral) : List Char :=
  match n.exponent with
  | some e => e.text
  | none => []

def text (n : Numeral) : List Char :=
  n.signText ++ n.whole ++ n.fractionText ++ n.exponentText

/-- The number as it is written. -/
def token (n : Numeral) : String :=
  String.ofList n.text

/-- The same number with its exponent as a small `e` with a sign. -/
def normal (n : Numeral) : Numeral :=
  { n with exponent := n.exponent.map Exponent.normal }

theorem text_normal (n : Numeral) :
    n.normal.text = n.signText ++ n.whole ++ n.fractionText ++ n.normal.exponentText :=
  rfl

@[simp] theorem normal_normal (n : Numeral) : n.normal.normal = n.normal := by
  rw [normal, normal, Option.map_map]
  rfl

end Numeral

/-- What follows the letter of an exponent, with a sign. -/
def signed : List Char → List Char
  | '+' :: digits => '+' :: digits
  | '-' :: digits => '-' :: digits
  | digits => '+' :: digits

/-- The spelling of a number with its exponent, if it has one, as a small `e` with a sign. -/
def normalText : List Char → List Char
  | [] => []
  | c :: rest => if c = 'e' ∨ c = 'E' then 'e' :: signed rest else c :: normalText rest

def normalSpelling (spelling : String) : String :=
  String.ofList (normalText spelling.toList)

theorem signed_of_digits {digits : List Char} (isDigits : IsDigits digits) :
    signed digits = '+' :: digits := by
  have others : ∀ {c : Char}, c.isDigit = false → c ∉ digits := by
    intro c other member
    rw [isDigits.only c member] at other
    cases other
  unfold signed
  split
  · exact absurd List.mem_cons_self (others rfl)
  · exact absurd List.mem_cons_self (others rfl)
  · rfl

theorem Exponent.normalText_text (e : Exponent) : normalText e.text = e.normal.text := by
  rw [text, normalText, if_pos e.isLetter, text_normal]
  cases given : e.sign with
  | none => exact congrArg ('e' :: ·) (signed_of_digits e.isDigits)
  | some c =>
    rcases e.isSign c given with rfl | rfl <;> rfl

theorem normalText_append {text rest : List Char} (plain : ∀ c ∈ text, ¬ (c = 'e' ∨ c = 'E')) :
    normalText (text ++ rest) = text ++ normalText rest := by
  induction text with
  | nil => rfl
  | cons c text ih =>
    rw [List.forall_mem_cons] at plain
    rw [List.cons_append, normalText, if_neg plain.1, ih plain.2, List.cons_append]

theorem not_letter_of_isDigit {c : Char} (digit : c.isDigit = true) : ¬ (c = 'e' ∨ c = 'E') := by
  rintro (rfl | rfl) <;> cases digit

theorem IsWhole.only {text : List Char} (whole : IsWhole text) : ∀ c ∈ text, c.isDigit = true := by
  cases whole with
  | zero => exact List.forall_mem_singleton.mpr rfl
  | positive digit nonzero more => exact List.forall_mem_cons.mpr ⟨digit, more⟩

/-- A number has no characters but digits, signs, a point and the letter of its exponent. -/
theorem Numeral.of_mem_text {n : Numeral} {c : Char} (member : c ∈ n.text) :
    c.isDigit = true ∨ (c = '-' ∨ c = '+' ∨ c = '.') ∨ ∃ e ∈ n.exponent, c = e.letter := by
  simp only [text, List.mem_append] at member
  rcases member with ((inSign | inWhole) | inFraction) | inExponent
  · rw [signText] at inSign
    split at inSign
    · exact .inr (.inl (.inl (List.mem_singleton.mp inSign)))
    · cases inSign
  · exact .inl (n.isWhole.only c inWhole)
  · rw [fractionText] at inFraction
    split at inFraction
    · rename_i digits given
      rcases List.mem_cons.mp inFraction with isPoint | inDigits
      · exact .inr (.inl (.inr (.inr isPoint)))
      · exact .inl ((n.isFraction digits given).only c inDigits)
    · cases inFraction
  · rw [exponentText] at inExponent
    split at inExponent
    · rename_i e given
      simp only [Exponent.text, List.mem_cons, List.mem_append, Option.mem_toList] at inExponent
      rcases inExponent with isLetter | isSign | inDigits
      · exact .inr (.inr ⟨e, given, isLetter⟩)
      · rcases e.isSign c isSign with plus | minus
        · exact .inr (.inl (.inr (.inl plus)))
        · exact .inr (.inl (.inl minus))
      · exact .inl (e.isDigits.only c inDigits)
    · cases inExponent

theorem ascii_of_isDigit {c : Char} (digit : c.isDigit = true) : c.toNat < 0x80 := by
  simp only [Char.isDigit, Bool.and_eq_true, decide_eq_true_eq] at digit
  have small : c.val.toNat ≤ 57 := digit.2
  change c.val.toNat < 0x80
  omega

theorem Numeral.ascii (n : Numeral) : ∀ c ∈ n.text, c.toNat < 0x80 := by
  intro c member
  rcases of_mem_text member with digit | sign | ⟨e, -, rfl⟩
  · exact ascii_of_isDigit digit
  · rcases sign with rfl | rfl | rfl <;> decide
  · rcases e.isLetter with isLetter | isLetter <;> rw [isLetter] <;> decide

theorem Numeral.not_mem_text (n : Numeral) {c : Char} (digit : c.isDigit = false)
    (sign : ¬ (c = '-' ∨ c = '+' ∨ c = '.')) (letter : c ∉ ['e', 'E']) : c ∉ n.text := by
  intro member
  rcases of_mem_text member with isDigit | isSign | ⟨e, -, isLetter⟩
  · rw [isDigit] at digit
    cases digit
  · exact sign isSign
  · refine letter ?_
    rw [isLetter]
    rcases e.isLetter with same | same <;> rw [same] <;> decide

theorem Numeral.normalText_text (n : Numeral) : normalText n.text = n.normal.text := by
  have noLetter : ∀ c ∈ n.signText ++ n.whole ++ n.fractionText, ¬ (c = 'e' ∨ c = 'E') := by
    intro c member
    simp only [List.mem_append, signText, fractionText] at member
    rcases member with (inSign | inWhole) | inFraction
    · split at inSign
      · rw [List.mem_singleton.mp inSign]
        decide
      · cases inSign
    · exact not_letter_of_isDigit (n.isWhole.only c inWhole)
    · split at inFraction
      · rename_i digits given
        rcases List.mem_cons.mp inFraction with rfl | inDigits
        · decide
        · exact not_letter_of_isDigit ((n.isFraction digits given).only c inDigits)
      · cases inFraction
  rw [text, normalText_append noLetter, text_normal, exponentText, exponentText, normal]
  cases n.exponent with
  | none => rfl
  | some e => exact congrArg _ e.normalText_text

theorem normalSpelling_token (n : Numeral) : normalSpelling n.token = n.normal.token := by
  rw [normalSpelling, Numeral.token, String.toList_ofList, n.normalText_text, Numeral.token]

mutual

/-- The value with its numbers spelled in another way. -/
def mapNumbers (f : String → String) : Json → Json
  | .null => .null
  | .bool value => .bool value
  | .number text => .number (f text)
  | .string text => .string text
  | .array items => .array (mapNumbersInItems f items)
  | .object members => .object (mapNumbersInMembers f members)

def mapNumbersInItems (f : String → String) : List Json → List Json
  | [] => []
  | item :: rest => item.mapNumbers f :: mapNumbersInItems f rest

def mapNumbersInMembers (f : String → String) : List (String × Json) → List (String × Json)
  | [] => []
  | (name, value) :: rest => (name, value.mapNumbers f) :: mapNumbersInMembers f rest

end

theorem mapNumbersInMembers_insert (f : String → String) (members : Members) (name : String)
    (new : Json) :
    mapNumbersInMembers f (members.insert name new) =
      Members.insert (mapNumbersInMembers f members) name (new.mapNumbers f) := by
  induction members with
  | nil => rfl
  | cons head rest ih =>
    obtain ⟨key, value⟩ := head
    rw [Members.insert, mapNumbersInMembers, Members.insert]
    split
    · rfl
    · split
      · rfl
      · rw [mapNumbersInMembers, ih]

theorem get?_mapNumbersInMembers (f : String → String) (members : Members) (name : String) :
    Members.get? (mapNumbersInMembers f members) name = (members.get? name).map (mapNumbers f) := by
  induction members with
  | nil => rfl
  | cons head rest ih =>
    obtain ⟨key, value⟩ := head
    rw [mapNumbersInMembers, Members.get?, Members.get?]
    split
    · rfl
    · exact ih

end AvroIdl.Json
