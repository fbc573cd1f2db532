import AvroIdl.Proofs.Json.Held
import AvroIdl.Proofs.Json.ReadText
import AvroIdl.Proofs.Load.Reads

/-
The literals of defaults are JSON. Each is read back as the value that the default was made of,
as long as its numbers are as they are kept.
-/
set_option autoImplicit false

namespace AvroIdl

namespace Json

/-- The value is the other one, or stands somewhere in it. -/
inductive Within (value : Json) : Json → Prop
  | self : Within value value
  | item {items : List Json} {item : Json} (listed : item ∈ items) (deeper : Within value item) :
      Within value (.array items)
  | member {members : Members} {name : String} {inner : Json} (listed : (name, inner) ∈ members)
      (deeper : Within value inner) : Within value (.object members)

theorem Within.trans {value inner json : Json} (first : value.Within inner)
    (second : inner.Within json) : value.Within json := by
  induction second with
  | self => exact first
  | item listed _ ih => exact .item listed ih
  | member listed _ ih => exact .member listed ih

/-- Every number in the value has the spelling in which numbers are kept. -/
def NumbersKept (json : Json) : Prop :=
  ∀ spelling, (Json.number spelling).Within json → ∃ n : Numeral, n.normal.token = spelling

theorem hereditary_numbersKept : Hereditary NumbersKept where
  null := nofun
  bool _ := nofun
  string _ := nofun
  number n := by
    rintro spelling (_ | _)
    exact ⟨n, rfl⟩
  array each := by
    rintro spelling (_ | ⟨listed, deeper⟩)
    exact each _ listed spelling deeper
  object each := by
    rintro spelling (_ | _ | ⟨listed, deeper⟩)
    exact each _ listed spelling deeper

/-- A text that is one token is read as the value of the token. -/
theorem read_of_spelled {token : Token} {text : String} {json : Json}
    (spelled : token.Spelled text.toList) (isValue : IsValue Reader.maxDepth [token] json) :
    read text = .ok (json.mapNumbers normalSpelling) := by
  have none : Gap [] := .nil
  have alone : Lexed Gap LastGap [token] ([] ++ (text.toList ++ [])) := by
    refine .token none spelled ?_ (.last (.gap none))
    cases token with
    | number n => exact nofun
    | _ => trivial
  rw [List.nil_append, List.append_nil] at alone
  exact read_of_spells ⟨[token], alone, isValue⟩

theorem Quotes.visible {inner text : List Char} (quotes : Quotes inner text) :
    ∀ c ∈ inner, 0x20 ≤ c.toNat := by
  have of_plain : ∀ {c : Char}, isPlain c = true → 0x20 ≤ c.toNat :=
    fun plain => (isPlain_iff.mp plain).2.2
  have of_unit : ∀ {digits : List Char} {unit : Nat}, CodeUnit digits unit →
      ∀ c ∈ digits, 0x20 ≤ c.toNat := fun named c member => of_plain (named.plain c member)
  induction quotes with
  | nil => exact List.forall_mem_nil _
  | plain plain _ ih => exact List.forall_mem_cons.mpr ⟨of_plain plain, ih⟩
  | @short c meant inner text short _ ih =>
    have visible : 0x20 ≤ c.toNat := by
      unfold shortEscape? at short
      split at short <;> first | decide | cases short
    exact List.forall_mem_cons.mpr ⟨by decide, List.forall_mem_cons.mpr ⟨visible, ih⟩⟩
  | unit named _ _ ih =>
    simp only [List.forall_mem_cons, List.forall_mem_append]
    exact ⟨by decide, by decide, of_unit named, ih⟩
  | pair highNamed _ lowNamed _ _ ih =>
    simp only [List.forall_mem_cons, List.forall_mem_append]
    exact ⟨by decide, by decide, of_unit highNamed, by decide, by decide, of_unit lowNamed, ih⟩

/-- No token goes over the end of a line, or has any other control character in it. -/
theorem Token.Spelled.visible {token : Token} {text : List Char} (spelled : token.Spelled text) :
    ∀ c ∈ text, 0x20 ≤ c.toNat := by
  cases spelled with
  | number n =>
    intro c member
    rcases Numeral.of_mem_text member with digit | sign | ⟨e, -, rfl⟩
    · simp only [Char.isDigit, Bool.and_eq_true, decide_eq_true_eq] at digit
      have large : 48 ≤ c.val.toNat := digit.1
      change 0x20 ≤ c.val.toNat
      omega
    · rcases sign with rfl | rfl | rfl <;> decide
    · rcases e.isLetter with same | same <;> rw [same] <;> decide
  | string quotes =>
    simp only [List.forall_mem_cons, List.forall_mem_append]
    exact ⟨by decide, quotes.visible, by decide, List.forall_mem_nil _⟩
  | _ => simp

theorem IsValue.tokens_of_string {room : Nat} {tokens : List Token} {text : String}
    (isValue : IsValue room tokens (.string text)) : tokens = [.string text] := by
  cases isValue
  rfl

end Json

open Json

/-- Apart from empty lists and objects, a literal is one token, whose value is the value that the
default was made of. -/
theorem DescribesDefault.exists_token {value : Json} {d : Default}
    (described : DescribesDefault value d) (kept : value.NumbersKept) :
    (∃ token : Token, token.Spelled d.literal.toList ∧ IsValue Reader.maxDepth [token] value ∧
      value.mapNumbers normalSpelling = value) ∨
      (value = .array [] ∧ d = .emptyArray) ∨ (value = .object [] ∧ d = .emptyMap) := by
  cases described with
  | null => exact .inl ⟨.null, .null, .null, rfl⟩
  | bool b =>
    cases b with
    | true => exact .inl ⟨.bool true, .true, .bool true, rfl⟩
    | false => exact .inl ⟨.bool false, .false, .bool false, rfl⟩
  | number spelling =>
    obtain ⟨n, rfl⟩ := kept spelling .self
    refine .inl ⟨.number n.normal, ?_, .number n.normal, ?_⟩
    · rw [Default.literal, Numeral.token, String.toList_ofList]
      exact .number n.normal
    · rw [mapNumbers, normalSpelling_token, Numeral.normal_normal]
  | text text =>
    refine .inl ⟨.string text, ?_, .string text, rfl⟩
    have quoted : (Default.text (escape text)).literal.toList =
        '"' :: ((escape text).toList ++ ['"']) := by
      rw [Default.literal, String.toList_append, String.toList_append]
      rfl
    rw [quoted]
    exact .string (quotes_escape text)
  | emptyMap => exact .inr (.inr ⟨rfl, rfl⟩)
  | emptyArray => exact .inr (.inl ⟨rfl, rfl⟩)

theorem Default.read_literal {value : Json} {d : Default} (described : DescribesDefault value d)
    (kept : value.NumbersKept) : Json.read d.literal = .ok value := by
  rcases described.exists_token kept with ⟨token, spelled, isValue, same⟩ | ⟨rfl, rfl⟩ | ⟨rfl, rfl⟩
  · rw [read_of_spelled spelled isValue, same]
  · rfl
  · rfl

theorem Default.literal_visible {value : Json} {d : Default} (described : DescribesDefault value d)
    (kept : value.NumbersKept) : ∀ c ∈ d.literal.toList, 0x20 ≤ c.toNat := by
  rcases described.exists_token kept with ⟨token, spelled, -, -⟩ | ⟨-, rfl⟩ | ⟨-, rfl⟩
  · exact spelled.visible
  · simp [Default.literal]
  · simp [Default.literal]

/-- The literal of a default is read back as the value that the default was made of, and it stands
on one line. A text is one string in it, whatever its characters are. -/
theorem Default.literal_reads_back {source : String} {json value : Json} {d : Default}
    {s t : Loading} (found : Json.read source = .ok json) (inside : value.Within json)
    (loaded : Load.Returns (Load.defaultValue value) s d t) :
    Json.read d.literal = .ok value ∧ (∀ c ∈ d.literal.toList, 0x20 ≤ c.toNat) ∧
      ∀ text, value = .string text → (Token.string text).Spelled d.literal.toList := by
  have kept : value.NumbersKept := fun spelling deeper =>
    hereditary_numbersKept.of_read found spelling (deeper.trans inside)
  obtain ⟨described, -⟩ := (Load.returns_defaultValue_iff value d).mp loaded
  refine ⟨read_literal described kept, literal_visible described kept, ?_⟩
  rintro text rfl
  rcases described.exists_token kept with ⟨token, spelled, isValue, -⟩ | ⟨same, -⟩ | ⟨same, -⟩
  · cases isValue.tokens_of_string
    exact spelled
  · cases same
  · cases same

/-- A list with a text in it that has all that could break out of a string. -/
def trickySource : String :=
  "[\"a\\\"b\\\\ // é /* \\u0001\\n\"]"

def trickyText : String :=
  "a\"b\\ // é /* \x01\n"

theorem read_trickySource : Json.read trickySource = .ok (.array [.string trickyText]) := rfl

theorem Default.trickyText_reads_back :
    Json.read "\"a\\\"b\\\\ // é /* \\u0001\\n\"" = .ok (.string trickyText) ∧
      (Token.string trickyText).Spelled "\"a\\\"b\\\\ // é /* \\u0001\\n\"".toList := by
  have loaded : Load.Returns (Load.defaultValue (.string trickyText)) .start
      (.text (escape trickyText)) .start := (Load.returns_pure_iff _ _).mpr ⟨rfl, rfl⟩
  obtain ⟨read, -, one⟩ := Default.literal_reads_back read_trickySource
    (.item List.mem_cons_self .self) loaded
  exact ⟨read, one trickyText rfl⟩

end AvroIdl
