import AvroIdl.Proofs.Json.Quotes

/-
What stands between quotes, and the text that the reader takes it for. A text that is escaped is
read back, and one that stands as it is only if nothing in it must be escaped.
-/
set_option autoImplicit false

namespace AvroIdl.Json

/-- The text that a string literal denotes. -/
def unquote? (literal : String) : Option String :=
  match readPlain (Text.bytes literal) with
  | .ok (.string text) => some text
  | _ => none

theorem plain_iff_bytes (text : String) :
    (∀ c ∈ text.toList, isPlain c = true) ↔
      ∀ byte ∈ Text.bytes text, isPlain (Char.ofUInt8 byte) = true := by
  constructor
  · intro plain byte member
    obtain ⟨c, inText, inChar⟩ := List.mem_flatMap.mp member
    exact (isPlain_iff_bytes c).mp (plain c inText) byte inChar
  · intro plain c inText
    exact (isPlain_iff_bytes c).mpr fun byte inChar =>
      plain byte (List.mem_flatMap.mpr ⟨c, inText, inChar⟩)

namespace Reader

variable {waiting : List Frame} {bytes : List UInt8}

/-- The reader after an opening quote and some bytes of a string. -/
abbrev inString (waiting : List Frame) (part : StringPart) (bytes : List UInt8) : Reader :=
  ⟨waiting, .string part bytes⟩

/-- The quote after the bytes of a text completes a string. -/
theorem closes_string (text : String) :
    (inString waiting .plain (Text.bytes text).reverse).step 0x22 =
      .ok (completed waiting (.string text)) := by
  have closed : stepString .plain (Text.bytes text).reverse 0x22 =
      .ok (.closed (Text.bytes text).reverse) := rfl
  have whole : closeString (Text.bytes text).reverse = .ok text := by
    rw [closeString, List.reverse_reverse, Text.ofBytes?_bytes]
  rw [step]
  dsimp only
  rw [closed]
  dsimp only
  rw [whole]
  rfl

theorem readPlain_of_quotes {inner text : String} (quotes : Quotes inner.toList text.toList) :
    readPlain (Text.bytes ("\"" ++ inner ++ "\"")) = .ok (.string text) := by
  have passes : (inString [] .plain []).Passes (Text.bytes inner)
      (inString [] .plain ((Text.bytes text).reverse ++ [])) := quotes.goes.passes_string
  rw [List.append_nil] at passes
  have opens : start.step 0x22 = .ok (inString [] .plain []) := rfl
  have whole := Passes.cons opens (passes.append (.single (closes_string text)))
  have bytes : Text.bytes ("\"" ++ inner ++ "\"") = 0x22 :: (Text.bytes inner ++ [0x22]) := by
    rw [Text.bytes_append, Text.bytes_append]
    rfl
  rw [readPlain, bytes, run_eq_finish _ whole]
  rfl

/-- How many bytes a part of an escape may give back beyond those that are still to be read. -/
def credit : StringPart → Nat
  | .plain | .escape => 0
  | .hex none digits => 1 + digits.length
  | .partner _ => 5
  | .partnerMark _ => 6
  | .hex (some _) digits => 7 + digits.length

theorem length_pushChar_le (unit : Nat) (bytes : List UInt8) :
    (pushChar unit bytes).length ≤ bytes.length + 4 := by
  have size := Char.utf8Size_le_four (Char.ofNat unit)
  rw [pushChar, List.length_append, List.length_reverse, String.length_utf8EncodeChar]
  omega

theorem endHex_size {high : Option Nat} {unit : Nat} {bytes out : List UInt8} {next : StringPart}
    (ended : endHex high unit bytes = .ok (.more next out)) :
    out.length + credit next ≤ bytes.length + 5 := by
  revert ended
  fun_cases endHex high unit bytes with
  | case1 | case5 => rintro ⟨⟩
  | case2 =>
    rintro ⟨⟩
    exact Nat.le_refl _
  | case3 =>
    intro ended
    cases ended
    have pushed := length_pushChar_le unit bytes
    simp only [credit]
    omega
  | case4 high =>
    intro ended
    cases ended
    have pushed := length_pushChar_le ((high - 0xD800) * 0x400 + (unit - 0xDC00) + 0x10000) bytes
    simp only [credit]
    omega

/-- A byte that is read adds at most one byte to a string, once escapes are paid for. -/
theorem stepString_size {part next : StringPart} {bytes out : List UInt8} {byte : UInt8}
    (stepped : stepString part bytes byte = .ok (.more next out)) :
    out.length + credit next ≤ bytes.length + credit part + 1 := by
  revert stepped
  fun_cases stepString part bytes byte with
  | case15 high digits =>
    intro stepped
    cases stepped
    cases high <;> simp only [credit, List.length_append, List.length_singleton] <;> omega
  | case16 high digits complete unit =>
    intro stepped
    have ended := endHex_size stepped
    have owed : 4 ≤ credit (.hex high digits) := by
      cases high <;> simp only [credit] <;> omega
    omega
  | _ =>
    intro stepped
    cases stepped <;> simp only [credit, List.length_cons, List.length_nil] <;> omega

theorem bytes_of_closed {part : StringPart} {byte : UInt8} {out : List UInt8}
    (closed : stepString part bytes byte = .ok (.closed out)) : out = bytes := by
  revert closed
  fun_cases stepString part bytes byte with
  | case1 =>
    rintro ⟨⟩
    rfl
  | case16 high digits complete unit =>
    fun_cases endHex high unit bytes <;> rintro ⟨⟩
  | _ => rintro ⟨⟩

/-- A string that is complete denotes its bytes, and is the whole value. -/
theorem eq_of_closed {rest : List UInt8} {next after : Reader} {text : String}
    (closed : ((closeString bytes).map fun text => completed [] (.string text)) = .ok next)
    (passes : next.Passes rest after) (finished : after.finish = .ok (.string text)) :
    (Text.bytes text).reverse = bytes ∧ ∀ byte ∈ rest, isBlank byte = true := by
  rw [closeString] at closed
  cases read : Text.ofBytes? bytes.reverse with
  | none =>
    rw [read] at closed
    cases closed
  | some found =>
    rw [read] at closed
    cases closed
    obtain ⟨rfl, blanks⟩ := passes_finished passes
    cases finished
    rw [Text.bytes_of_ofBytes? read, List.reverse_reverse]
    exact ⟨rfl, blanks⟩

/-- A string denotes no more bytes than it has, and its closing quote is one of them. -/
theorem length_le_of_passes {part : StringPart} {rest : List UInt8} {after : Reader} {text : String}
    (passes : (inString [] part bytes).Passes rest after)
    (finished : after.finish = .ok (.string text)) :
    (Text.bytes text).length + 1 ≤ bytes.length + credit part + rest.length := by
  induction rest generalizing part bytes with
  | nil =>
    cases passes
    cases finished
  | cons byte rest ih =>
    obtain ⟨next, stepped, later⟩ := passes_cons_iff.mp passes
    rw [step] at stepped
    dsimp only at stepped
    split at stepped
    · cases stepped
    · rename_i part out more
      cases stepped
      have whole := ih later
      have size := stepString_size more
      rw [List.length_cons]
      omega
    · rename_i out closed
      obtain rfl := bytes_of_closed closed
      obtain ⟨rfl, -⟩ := eq_of_closed stepped later finished
      rw [List.length_reverse, List.length_cons]
      omega

theorem escape_of_not_plain {byte : UInt8} {part : StringPart} {out : List UInt8}
    (more : stepString .plain bytes byte = .ok (.more part out))
    (special : isPlain (Char.ofUInt8 byte) ≠ true) : part = .escape ∧ out = bytes := by
  revert more
  generalize same : StringPart.plain = before
  fun_cases stepString before bytes byte with
  | case1 => rintro ⟨⟩
  | case2 =>
    rintro ⟨⟩
    exact ⟨rfl, rfl⟩
  | case3 => rintro ⟨⟩
  | case4 visible quote slash =>
    refine absurd ?_ special
    rw [UInt8.lt_iff_toNat_lt, Nat.not_lt] at visible
    rw [isPlain_iff, Text.toNat_ofUInt8]
    exact ⟨quote, slash, visible⟩
  | _ => cases same

/-- A text is only read back as it stands if it has no quote, no backslash and no control
character. -/
theorem plain_of_passes {taken rest : List UInt8} {after : Reader} {text : String}
    (split : Text.bytes text = taken.reverse ++ rest)
    (passes : (inString [] .plain taken).Passes (rest ++ [0x22]) after)
    (finished : after.finish = .ok (.string text)) :
    ∀ byte ∈ rest, isPlain (Char.ofUInt8 byte) = true := by
  induction rest generalizing taken with
  | nil => exact List.forall_mem_nil _
  | cons byte rest ih =>
    rw [List.cons_append] at passes
    obtain ⟨next, stepped, later⟩ := passes_cons_iff.mp passes
    have sizes := congrArg List.length split
    simp only [List.length_append, List.length_reverse, List.length_cons] at sizes
    by_cases plain : isPlain (Char.ofUInt8 byte) = true
    · rw [step] at stepped
      dsimp only at stepped
      rw [stepString_plain plain] at stepped
      cases stepped
      refine List.forall_mem_cons.mpr ⟨plain, ih ?_ later⟩
      rw [split, List.reverse_cons, List.append_assoc, List.singleton_append]
    · rw [step] at stepped
      dsimp only at stepped
      split at stepped
      · cases stepped
      · rename_i part out more
        cases stepped
        obtain ⟨rfl, rfl⟩ := escape_of_not_plain more plain
        -- a backslash is paid for and gives nothing back
        have short := length_le_of_passes later finished
        simp only [credit, List.length_append, List.length_singleton] at short
        omega
      · -- the quote would be followed by the closing one, which is no blank
        obtain ⟨-, blanks⟩ := eq_of_closed stepped later finished
        exact absurd (blanks 0x22 (List.mem_append_right _ List.mem_cons_self)) (by decide)

end Reader

theorem unquote?_quote (text : String) : unquote? (quote text) = some text := by
  rw [unquote?, quote, Reader.readPlain_of_quotes (quotes_escape text)]

/-- Between quotes, a text stands for itself if nothing in it must be escaped, and only then. -/
theorem unquote?_eq_some_self_iff (text : String) :
    unquote? ("\"" ++ text ++ "\"") = some text ↔ ∀ c ∈ text.toList, isPlain c = true := by
  constructor
  · intro denoted
    have ran : readPlain (Text.bytes ("\"" ++ text ++ "\"")) = .ok (.string text) := by
      rw [unquote?] at denoted
      split at denoted
      · rename_i found read
        rw [read, Option.some.inj denoted]
      · cases denoted
    have bytes : Text.bytes ("\"" ++ text ++ "\"") = 0x22 :: (Text.bytes text ++ [0x22]) := by
      rw [Text.bytes_append, Text.bytes_append]
      rfl
    rw [readPlain, bytes] at ran
    obtain ⟨after, passes, finished⟩ := Reader.exists_passes_of_run ran
    obtain ⟨next, opened, passes⟩ := Reader.passes_cons_iff.mp passes
    cases opened
    exact (plain_iff_bytes text).mpr (Reader.plain_of_passes rfl passes finished)
  · intro plain
    rw [unquote?, Reader.readPlain_of_quotes (quotes_of_plain plain)]

end AvroIdl.Json
