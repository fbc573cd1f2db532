import AvroIdl.Json.Compact
import AvroIdl.Proofs.Json.Runs
import AvroIdl.Proofs.Text.Utf8

/-
What may stand between quotes, and the text that is meant by it. The reader takes it for that
text, and a text that is escaped is meant by what stands there then.
-/
set_option autoImplicit false

namespace AvroIdl.Json

open Text

/-- Such a character stands for itself between quotes. -/
def isPlain (c : Char) : Bool :=
  c ≠ '"' && c ≠ '\\' && 0x20 ≤ c.toNat

theorem isPlain_iff {c : Char} : isPlain c = true ↔ c ≠ '"' ∧ c ≠ '\\' ∧ 0x20 ≤ c.toNat := by
  simp only [isPlain, Bool.and_eq_true, decide_eq_true_eq, and_assoc]

/-- The character that is meant by one after a backslash. -/
def shortEscape? : Char → Option Char
  | '"' => some '"'
  | '\\' => some '\\'
  | '/' => some '/'
  | 'b' => some '\x08'
  | 'f' => some '\x0c'
  | 'n' => some '\n'
  | 'r' => some '\r'
  | 't' => some '\t'
  | _ => none

/-- A hexadecimal digit is written in either case. -/
def IsHexDigit (c : Char) (value : Nat) : Prop :=
  value < 16 ∧ (c = Nat.digitChar value ∨ c = (Nat.digitChar value).toUpper)

/-- Four hexadecimal digits name a code unit. -/
inductive CodeUnit : List Char → Nat → Prop
  | mk {a b c d : Char} {p q r s : Nat} (first : IsHexDigit a p) (second : IsHexDigit b q)
      (third : IsHexDigit c r) (fourth : IsHexDigit d s) :
      CodeUnit [a, b, c, d] (16 * (16 * (16 * p + q) + r) + s)

/-- What stands between quotes, and the text that is meant by it. A code unit that is a half of a
character stands before its other half. -/
inductive Quotes : List Char → List Char → Prop
  | nil : Quotes [] []
  | plain {c : Char} {inner text : List Char} (plain : isPlain c = true)
      (after : Quotes inner text) : Quotes (c :: inner) (c :: text)
  | short {c meant : Char} {inner text : List Char} (short : shortEscape? c = some meant)
      (after : Quotes inner text) : Quotes ('\\' :: c :: inner) (meant :: text)
  | unit {digits inner text : List Char} {unit : Nat} (named : CodeUnit digits unit)
      (whole : unit < 0xD800 ∨ 0xDFFF < unit) (after : Quotes inner text) :
      Quotes ('\\' :: 'u' :: (digits ++ inner)) (Char.ofNat unit :: text)
  | pair {first second inner text : List Char} {high low : Nat} (highNamed : CodeUnit first high)
      (isHigh : 0xD800 ≤ high ∧ high ≤ 0xDBFF) (lowNamed : CodeUnit second low)
      (isLow : 0xDC00 ≤ low ∧ low ≤ 0xDFFF) (after : Quotes inner text) :
      Quotes ('\\' :: 'u' :: (first ++ '\\' :: 'u' :: (second ++ inner)))
        (Char.ofNat ((high - 0xD800) * 0x400 + (low - 0xDC00) + 0x10000) :: text)

/-- A character is plain if its bytes are. -/
theorem isPlain_iff_bytes (c : Char) :
    isPlain c = true ↔ ∀ byte ∈ String.utf8EncodeChar c, isPlain (Char.ofUInt8 byte) = true := by
  by_cases ascii : c.toNat < 0x80
  · rw [Text.utf8EncodeChar_of_ascii ascii, List.forall_mem_singleton,
      Text.ofUInt8_of_ascii ascii]
  · have wide : 0x80 ≤ c.toNat := Nat.not_lt.mp ascii
    have all : ∀ d : Char, 0x80 ≤ d.toNat → isPlain d = true := by
      intro d large
      have quote : d ≠ '"' := by
        rintro rfl
        exact absurd large (by decide)
      have slash : d ≠ '\\' := by
        rintro rfl
        exact absurd large (by decide)
      exact isPlain_iff.mpr ⟨quote, slash, by omega⟩
    refine iff_of_true (all c wide) ?_
    intro byte member
    refine all _ ?_
    rw [Text.toNat_ofUInt8]
    exact Text.le_of_mem_utf8EncodeChar wide member

/-- A short escape is a sign of its own, and so is what it means. -/
theorem ascii_of_shortEscape? {c meant : Char} (short : shortEscape? c = some meant) :
    c.toNat < 0x80 ∧ meant.toNat < 0x80 := by
  unfold shortEscape? at short
  split at short <;> cases short <;> decide

theorem isHexDigit_digitChar {value : Nat} (small : value < 16) :
    IsHexDigit (Nat.digitChar value) value :=
  ⟨small, .inl rfl⟩

theorem quotes_of_plain {text : List Char} (plain : ∀ c ∈ text, isPlain c = true) :
    Quotes text text := by
  induction text with
  | nil => exact .nil
  | cons c text ih =>
    rw [List.forall_mem_cons] at plain
    exact .plain plain.1 (ih plain.2)

theorem quotes_escapeChar (c : Char) {inner text : List Char} (after : Quotes inner text) :
    Quotes ((escapeChar c).toList ++ inner) (c :: text) := by
  fun_cases escapeChar c with
  | case8 c quote slash _ _ _ _ _ small =>
    have named : CodeUnit ['0', '0', Nat.digitChar (c.toNat / 16), Nat.digitChar (c.toNat % 16)]
        (16 * (16 * (16 * 0 + 0) + c.toNat / 16) + c.toNat % 16) :=
      .mk (isHexDigit_digitChar (by decide)) (isHexDigit_digitChar (by decide))
        (isHexDigit_digitChar (by omega)) (isHexDigit_digitChar (Nat.mod_lt _ (by decide)))
    have same : 16 * (16 * (16 * 0 + 0) + c.toNat / 16) + c.toNat % 16 = c.toNat := by omega
    rw [same] at named
    have escaped := Quotes.unit named (.inl (by omega)) after
    rw [Char.ofNat_toNat] at escaped
    simp only [String.toList_append, Char.toString_eq_singleton, String.toList_singleton,
      List.append_assoc]
    exact escaped
  | case9 c quote slash _ _ _ _ _ visible =>
    rw [Char.toString_eq_singleton, String.toList_singleton]
    refine .plain ?_ after
    exact isPlain_iff.mpr ⟨quote, slash, Nat.not_lt.mp visible⟩
  | _ => exact .short rfl after

/-- Escaping is undone. -/
theorem quotes_escape (text : String) : Quotes (escape text).toList text.toList := by
  rw [escape, String.toList_join]
  induction text.toList with
  | nil => exact .nil
  | cons c rest ih =>
    rw [List.map_cons, List.flatMap_cons]
    exact quotes_escapeChar c ih

namespace Reader

/-- The bytes lead from one part of a string to another, and to the bytes that it denotes then. -/
inductive Goes : StringPart → List UInt8 → List UInt8 → StringPart → List UInt8 → Prop
  | nil {part : StringPart} {taken : List UInt8} : Goes part taken [] part taken
  | cons {part next last : StringPart} {taken more out rest : List UInt8} {byte : UInt8}
      (stepped : stepString part taken byte = .ok (.more next more))
      (after : Goes next more rest last out) : Goes part taken (byte :: rest) last out

variable {part next last : StringPart} {taken more out bytes : List UInt8} {waiting : List Frame}

theorem Goes.append {rest : List UInt8} (goes : Goes part taken bytes next more)
    (after : Goes next more rest last out) : Goes part taken (bytes ++ rest) last out := by
  induction goes with
  | nil => exact after
  | cons stepped _ ih => exact .cons stepped (ih after)

/-- A reader whose mode holds a part of a string goes from part to part with it. -/
theorem Goes.passes {mode : StringPart → List UInt8 → Mode}
    (steps : ∀ {part next : StringPart} {taken more : List UInt8} {byte : UInt8},
      stepString part taken byte = .ok (.more next more) →
        step ⟨waiting, mode part taken⟩ byte = .ok ⟨waiting, mode next more⟩)
    (goes : Goes part taken bytes last out) :
    Passes ⟨waiting, mode part taken⟩ bytes ⟨waiting, mode last out⟩ := by
  induction goes with
  | nil => exact passes_nil _
  | cons stepped _ ih => exact .cons (steps stepped) ih

theorem Goes.passes_string (goes : Goes part taken bytes last out) :
    Passes ⟨waiting, .string part taken⟩ bytes ⟨waiting, .string last out⟩ := by
  refine goes.passes fun stepped => ?_
  rw [step]
  dsimp only
  rw [stepped]

theorem Goes.passes_key {members : Members} (goes : Goes part taken bytes last out) :
    Passes ⟨waiting, .key members part taken⟩ bytes ⟨waiting, .key members last out⟩ := by
  refine goes.passes fun stepped => ?_
  rw [step]
  dsimp only
  rw [stepped]

theorem stepString_plain {byte : UInt8} (plain : isPlain (Char.ofUInt8 byte) = true) :
    stepString .plain taken byte = .ok (.more .plain (byte :: taken)) := by
  obtain ⟨quote, slash, control⟩ := isPlain_iff.mp plain
  rw [Text.toNat_ofUInt8] at control
  have visible : ¬ byte < 0x20 := by
    rw [UInt8.lt_iff_toNat_lt]
    exact Nat.not_lt.mpr control
  unfold stepString
  split <;> simp_all

/-- Bytes that stand for themselves are taken as they are. -/
theorem goes_plain (plain : ∀ byte ∈ bytes, isPlain (Char.ofUInt8 byte) = true) :
    Goes .plain taken bytes .plain (bytes.reverse ++ taken) := by
  induction bytes generalizing taken with
  | nil => exact .nil
  | cons byte rest ih =>
    rw [List.forall_mem_cons] at plain
    rw [List.reverse_cons, List.append_assoc]
    exact .cons (stepString_plain plain.1) (ih plain.2)

theorem hexValue?_of_isHexDigit {c : Char} {value : Nat} (digit : IsHexDigit c value) :
    c.toNat < 0x80 ∧ hexValue? (UInt8.ofNat c.toNat) = some value := by
  have lower : ∀ n < 16, (Nat.digitChar n).toNat < 0x80 ∧
      hexValue? (UInt8.ofNat (Nat.digitChar n).toNat) = some n := by
    decide
  have upper : ∀ n < 16, (Nat.digitChar n).toUpper.toNat < 0x80 ∧
      hexValue? (UInt8.ofNat (Nat.digitChar n).toUpper.toNat) = some n := by
    decide
  obtain ⟨small, rfl | rfl⟩ := digit
  · exact lower value small
  · exact upper value small

theorem hexNumber?_of_isHexDigit {a b c d : Char} {p q r s : Nat} (first : IsHexDigit a p)
    (second : IsHexDigit b q) (third : IsHexDigit c r) (fourth : IsHexDigit d s) :
    hexNumber? [UInt8.ofNat a.toNat, UInt8.ofNat b.toNat, UInt8.ofNat c.toNat,
      UInt8.ofNat d.toNat] = some (16 * (16 * (16 * p + q) + r) + s) := by
  simp only [hexNumber?, List.foldl_cons, List.foldl_nil, Option.bind_some, Option.map_some,
    hexValue?_of_isHexDigit first, hexValue?_of_isHexDigit second, hexValue?_of_isHexDigit third,
    hexValue?_of_isHexDigit fourth, Nat.mul_zero, Nat.zero_add]

theorem endHex_of_whole {unit : Nat} (whole : unit < 0xD800 ∨ 0xDFFF < unit) :
    endHex none unit taken = .ok (.more .plain (pushChar unit taken)) := by
  rw [endHex, if_neg (by omega), if_neg (by omega)]

theorem endHex_of_high {unit : Nat} (isHigh : 0xD800 ≤ unit ∧ unit ≤ 0xDBFF) :
    endHex none unit taken = .ok (.more (.partner unit) taken) := by
  rw [endHex, if_neg (by omega), if_pos isHigh]

theorem endHex_of_low (high : Nat) {unit : Nat} (isLow : 0xDC00 ≤ unit ∧ unit ≤ 0xDFFF) :
    endHex (some high) unit taken = .ok (.more .plain
      (pushChar ((high - 0xD800) * 0x400 + (unit - 0xDC00) + 0x10000) taken)) := by
  rw [endHex, if_pos isLow]

theorem stepString_short {c meant : Char} (short : shortEscape? c = some meant) :
    stepString .escape taken (UInt8.ofNat c.toNat) =
      .ok (.more .plain (UInt8.ofNat meant.toNat :: taken)) := by
  unfold shortEscape? at short
  split at short <;> cases short <;> rfl

end Reader

open Reader

variable {taken out : List UInt8}

/-- Four digits are taken together. -/
theorem CodeUnit.goes {digits : List Char} {unit : Nat} (named : CodeUnit digits unit)
    {high : Option Nat} {next : StringPart}
    (ends : endHex high unit taken = .ok (.more next out)) :
    Goes (.hex high []) taken (encode digits) next out := by
  obtain @⟨a, b, c, d, p, q, r, s, first, second, third, fourth⟩ := named
  rw [encode_cons_of_ascii (hexValue?_of_isHexDigit first).1,
    encode_cons_of_ascii (hexValue?_of_isHexDigit second).1,
    encode_cons_of_ascii (hexValue?_of_isHexDigit third).1,
    encode_cons_of_ascii (hexValue?_of_isHexDigit fourth).1]
  refine .cons rfl (.cons rfl (.cons rfl (.cons ?_ .nil)))
  have number := hexNumber?_of_isHexDigit first second third fourth
  have complete : stepString (.hex high [UInt8.ofNat a.toNat, UInt8.ofNat b.toNat,
      UInt8.ofNat c.toNat]) taken (UInt8.ofNat d.toNat) =
      endHex high (16 * (16 * (16 * p + q) + r) + s) taken := by
    have four : ¬ [UInt8.ofNat a.toNat, UInt8.ofNat b.toNat, UInt8.ofNat c.toNat].length < 3 :=
      Nat.lt_irrefl 3
    rw [stepString, if_neg four, List.cons_append, List.cons_append, List.cons_append,
      List.nil_append, number]
  exact complete.trans ends

theorem encode_cons_reverse (c : Char) (text : List Char) :
    (encode (c :: text)).reverse ++ taken =
      (encode text).reverse ++ ((String.utf8EncodeChar c).reverse ++ taken) := by
  rw [encode_cons, List.reverse_append, List.append_assoc]

/-- What stands between quotes is taken for what is meant by it. -/
theorem Quotes.goes {inner text : List Char} (quotes : Quotes inner text) :
    Goes .plain taken (encode inner) .plain ((encode text).reverse ++ taken) := by
  induction quotes generalizing taken with
  | nil => exact .nil
  | @plain c inner text plain _ ih =>
    rw [encode_cons_reverse, encode_cons]
    exact (goes_plain ((isPlain_iff_bytes c).mp plain)).append ih
  | @short c meant inner text short _ ih =>
    obtain ⟨ascii, meantAscii⟩ := ascii_of_shortEscape? short
    rw [encode_cons_reverse, encode_cons_of_ascii (by decide), encode_cons_of_ascii ascii,
      utf8EncodeChar_of_ascii meantAscii]
    exact .cons rfl (.cons (stepString_short short) ih)
  | unit named whole _ ih =>
    rw [encode_cons_reverse, encode_cons_of_ascii (by decide), encode_cons_of_ascii (by decide),
      encode_append]
    exact .cons rfl (.cons rfl ((named.goes (endHex_of_whole whole)).append ih))
  | @pair first second _ _ high low highNamed isHigh lowNamed isLow _ ih =>
    -- The first half gives no bytes. It waits in the part of the string for the second.
    have goesHigh : Goes (.hex none []) taken (encode first) (.partner high) taken :=
      highNamed.goes (endHex_of_high isHigh)
    have goesLow : Goes (.hex (some high) []) taken (encode second) .plain
        (pushChar ((high - 0xD800) * 0x400 + (low - 0xDC00) + 0x10000) taken) :=
      lowNamed.goes (endHex_of_low high isLow)
    rw [encode_cons_reverse, encode_cons_of_ascii (by decide), encode_cons_of_ascii (by decide),
      encode_append, encode_cons_of_ascii (by decide), encode_cons_of_ascii (by decide),
      encode_append]
    exact .cons rfl (.cons rfl (goesHigh.append (.cons rfl (.cons rfl (goesLow.append ih)))))

end AvroIdl.Json
