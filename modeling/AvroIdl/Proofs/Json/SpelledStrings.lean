import AvroIdl.Proofs.Json.Rows

/-
Whatever the reader takes up to a closing quote is spelled as the grammar has it.
-/
set_option autoImplicit false

namespace AvroIdl.Json

open Text

theorem isHexDigit_of_hexValue? {byte : UInt8} {value : Nat}
    (isHex : Reader.hexValue? byte = some value) : IsHexDigit (Char.ofUInt8 byte) value := by
  have all : ∀ n < 256, ∀ value ∈ Reader.hexValue? (UInt8.ofNat n),
      value < 16 ∧ (Char.ofUInt8 (UInt8.ofNat n) = Nat.digitChar value ∨
        Char.ofUInt8 (UInt8.ofNat n) = (Nat.digitChar value).toUpper) := by
    decide +kernel
  have found := all byte.toNat byte.toNat_lt value
  rw [UInt8.ofNat_toNat] at found
  exact found isHex

namespace Reader

variable {r next : Reader} {part : StringPart} {text : List Char} {json : Json}

theorem outcome_of_passes {bytes : List UInt8} (passes : r.Passes bytes next)
    (finished : next.finish = .ok json) : r.outcome bytes = .ok json := by
  induction bytes generalizing r with
  | nil =>
    cases passes
    rw [outcome, finished]
    rfl
  | cons byte rest ih =>
    obtain ⟨middle, stepped, passes⟩ := passes_cons_iff.mp passes
    rw [outcome, stepped]
    dsimp only
    rw [ih passes]
    rfl

/-- A text with a wrong digit in an escape is not read. -/
theorem not_passes_of_broken {high : Option Nat} {digits bytes : List UInt8}
    (inside : r.part? = some (.hex high digits)) (broken : Broken digits)
    (few : digits.length ≤ 3) (passes : r.Passes bytes next) : next.finish ≠ .ok json := by
  intro finished
  have read := outcome_of_passes passes finished
  rw [outcome_of_broken inside broken few] at read
  split at read <;> cases read

/-- A text does not end in a string. -/
theorem exists_cons_of_inside (inside : r.part? = some part) (reads : r.Reads text json) :
    ∃ c others, text = c :: others := by
  cases text with
  | cons c others => exact ⟨c, others, rfl⟩
  | nil =>
    rw [reads_nil_iff] at reads
    obtain ⟨waiting, mode⟩ := r
    cases mode with
    | string | key => cases reads
    | _ => cases inside

/-- The first byte of a character is taken. -/
theorem exists_step {c : Char} {others : List Char} (reads : r.Reads (c :: others) json) :
    ∃ byte ∈ String.utf8EncodeChar c, ∃ next after bytes, r.step byte = .ok next ∧
      next.Passes bytes after ∧ after.finish = .ok json := by
  obtain ⟨after, passes, finished⟩ := reads
  rw [encode_cons] at passes
  cases isEncoded : String.utf8EncodeChar c with
  | nil => exact absurd isEncoded String.utf8EncodeChar_ne_nil
  | cons byte more =>
    rw [isEncoded] at passes
    obtain ⟨next, stepped, passes⟩ := passes_cons_iff.mp passes
    exact ⟨byte, List.mem_cons_self, next, after, _, stepped, passes, finished⟩

theorem ascii_of_refuses {c : Char} {others : List Char} (reads : r.Reads (c :: others) json)
    (refuses : ∀ byte : UInt8, 0x80 ≤ byte.toNat → ∀ next, r.step byte ≠ .ok next) :
    c.toNat < 0x80 := by
  refine Nat.lt_of_not_le fun wide => ?_
  obtain ⟨byte, member, next, -, -, stepped, -⟩ := exists_step reads
  exact refuses byte (le_of_mem_utf8EncodeChar wide member) next stepped

/-- What the next character does inside of a string, if it is one of ASCII. -/
theorem exists_more {c : Char} {others : List Char} (inside : r.part? = some part)
    (ascii : c.toNat < 0x80) (reads : r.Reads (c :: others) json) :
    (∃ after taken, ∃ next : Reader,
      stepString part r.taken (UInt8.ofNat c.toNat) = .ok (.more after taken) ∧
        next.part? = some after ∧ next.Reads others json) ∨
    ∃ taken, stepString part r.taken (UInt8.ofNat c.toNat) = .ok (.closed taken) := by
  obtain ⟨next, stepped, reads⟩ := (reads_cons_iff ascii).mp reads
  have does := step_inside inside (UInt8.ofNat c.toNat)
  split at does
  · rw [does] at stepped
    cases stepped
  · rename_i after taken more
    obtain ⟨other, isOther, inOther⟩ := does
    cases stepped.symm.trans isOther
    exact .inl ⟨after, taken, next, more, inOther, reads⟩
  · rename_i taken closed
    exact .inr ⟨taken, closed⟩

/-- Four digits are asked for one by one, and each of them must be one. -/
theorem exists_hexDigit {high : Option Nat} {digits : List UInt8}
    (inside : r.part? = some (.hex high digits)) (reads : r.Reads text json) :
    ∃ c others value, text = c :: others ∧ IsHexDigit c value := by
  obtain ⟨c, others, rfl⟩ := exists_cons_of_inside inside reads
  obtain ⟨byte, member, next, after, bytes, stepped, passes, finished⟩ := exists_step reads
  have does := step_inside inside byte
  rw [stepString] at does
  cases isHex : hexValue? byte with
  | none =>
    have broken : Broken (digits ++ [byte]) :=
      ⟨byte, List.mem_append_right _ List.mem_cons_self, isHex⟩
    by_cases more : digits.length < 3
    · rw [if_pos more] at does
      obtain ⟨other, isOther, inOther⟩ := does
      cases stepped.symm.trans isOther
      have size : (digits ++ [byte]).length ≤ 3 := by
        rw [List.length_append, List.length_singleton]
        exact more
      exact absurd finished (not_passes_of_broken inOther broken size passes)
    · rw [if_neg more, hexNumber?_of_broken broken] at does
      cases stepped.symm.trans does
  | some value =>
    have isDigit := isHexDigit_of_hexValue? isHex
    by_cases ascii : c.toNat < 0x80
    · rw [utf8EncodeChar_of_ascii ascii, List.mem_singleton] at member
      rw [member, ofUInt8_of_ascii ascii] at isDigit
      exact ⟨c, others, value, rfl, isDigit⟩
    · have wide := le_of_mem_utf8EncodeChar (Nat.not_lt.mp ascii) member
      have small := (hexValue?_of_isHexDigit isDigit).1
      rw [toNat_ofUInt8] at small
      omega

theorem exists_hex_more {high : Option Nat} {digits : List UInt8}
    (inside : r.part? = some (.hex high digits)) (few : digits.length < 3)
    (reads : r.Reads text json) :
    ∃ c others value, ∃ next : Reader, text = c :: others ∧ IsHexDigit c value ∧
      next.part? = some (.hex high (digits ++ [UInt8.ofNat c.toNat])) ∧ next.Reads others json := by
  obtain ⟨c, others, value, rfl, digit⟩ := exists_hexDigit inside reads
  have does : ∀ taken, stepString (.hex high digits) taken (UInt8.ofNat c.toNat) =
      .ok (.more (.hex high (digits ++ [UInt8.ofNat c.toNat])) taken) := by
    intro taken
    rw [stepString, if_pos few]
  rcases exists_more inside (hexValue?_of_isHexDigit digit).1 reads with
    ⟨after, taken, next, more, inNext, reads⟩ | ⟨taken, closed⟩
  · rw [does] at more
    cases more
    exact ⟨c, others, value, next, rfl, digit, inNext, reads⟩
  · rw [does] at closed
    cases closed

/-- Four digits that are read name a code unit, with which the string goes on. -/
theorem exists_codeUnit {high : Option Nat} (inside : r.part? = some (.hex high []))
    (reads : r.Reads text json) :
    ∃ digits others unit after taken out, ∃ next : Reader, text = digits ++ others ∧
      CodeUnit digits unit ∧ endHex high unit taken = .ok (.more after out) ∧
        next.part? = some after ∧ next.Reads others json := by
  obtain ⟨a, text, p, r₁, rfl, first, inside, reads⟩ := exists_hex_more inside (by decide) reads
  obtain ⟨b, text, q, r₂, rfl, second, inside, reads⟩ := exists_hex_more inside (by simp) reads
  obtain ⟨c, text, r, r₃, rfl, third, inside, reads⟩ := exists_hex_more inside (by simp) reads
  obtain ⟨d, others, s, rfl, fourth⟩ := exists_hexDigit inside reads
  have named := CodeUnit.mk first second third fourth
  have does : ∀ taken, stepString (.hex high ([] ++ [UInt8.ofNat a.toNat] ++
      [UInt8.ofNat b.toNat] ++ [UInt8.ofNat c.toNat])) taken (UInt8.ofNat d.toNat) =
        endHex high (16 * (16 * (16 * p + q) + r) + s) taken := by
    intro taken
    have number := hexNumber?_of_isHexDigit first second third fourth
    have four : ¬ ([] ++ [UInt8.ofNat a.toNat] ++ [UInt8.ofNat b.toNat] ++
        [UInt8.ofNat c.toNat]).length < 3 := Nat.lt_irrefl 3
    rw [stepString, if_neg four]
    simp only [List.nil_append, List.cons_append, number]
  rcases exists_more inside (hexValue?_of_isHexDigit fourth).1 reads with
    ⟨after, out, next, more, inNext, reads⟩ | ⟨taken, closed⟩
  · rw [does] at more
    exact ⟨[a, b, c, d], others, _, after, _, out, next, rfl, named, more, inNext, reads⟩
  · rw [does] at closed
    revert closed
    fun_cases endHex <;> rintro ⟨⟩

/-- After a backslash comes a sign that stands for another, or a code unit. -/
theorem escape_of_stepString {taken : List UInt8} {byte : UInt8} {result : StringStep}
    (stepped : stepString .escape taken byte = .ok result) :
    (∃ meant out, shortEscape? (Char.ofUInt8 byte) = some meant ∧ result = .more .plain out) ∨
      (Char.ofUInt8 byte = 'u' ∧ result = .more (.hex none []) taken) := by
  revert stepped
  generalize same : StringPart.escape = before
  fun_cases stepString before taken byte with
  | case5 sign | case6 sign | case7 sign | case8 sign | case9 sign | case10 sign | case11 sign
  | case12 sign =>
    rintro ⟨⟩
    rw [sign]
    exact .inl ⟨_, _, rfl, rfl⟩
  | case13 sign =>
    rintro ⟨⟩
    exact .inr ⟨sign, rfl⟩
  | case14 => rintro ⟨⟩
  | _ => cases same

theorem partner_of_stepString {high : Nat} {taken : List UInt8} {byte : UInt8}
    {result : StringStep} (stepped : stepString (.partner high) taken byte = .ok result) :
    Char.ofUInt8 byte = '\\' ∧ result = .more (.partnerMark high) taken := by
  revert stepped
  generalize same : StringPart.partner high = before
  fun_cases stepString before taken byte with
  | case18 _ sign =>
    cases same
    rintro ⟨⟩
    exact ⟨sign, rfl⟩
  | case19 => rintro ⟨⟩
  | _ => cases same

theorem partnerMark_of_stepString {high : Nat} {taken : List UInt8} {byte : UInt8}
    {result : StringStep} (stepped : stepString (.partnerMark high) taken byte = .ok result) :
    Char.ofUInt8 byte = 'u' ∧ result = .more (.hex (some high) []) taken := by
  revert stepped
  generalize same : StringPart.partnerMark high = before
  fun_cases stepString before taken byte with
  | case20 _ sign =>
    cases same
    rintro ⟨⟩
    exact ⟨sign, rfl⟩
  | case21 => rintro ⟨⟩
  | _ => cases same

/-- Where no byte beyond ASCII is taken, the next character is one of ASCII. -/
theorem exists_ascii (inside : r.part? = some part) (reads : r.Reads text json)
    (signs : ∀ taken byte result, stepString part taken byte = .ok result →
      (Char.ofUInt8 byte).toNat < 0x80) :
    ∃ c others, text = c :: others ∧ c.toNat < 0x80 := by
  obtain ⟨c, others, rfl⟩ := exists_cons_of_inside inside reads
  refine ⟨c, others, rfl, ascii_of_refuses reads fun byte wide next stepped => ?_⟩
  have does := step_inside inside byte
  cases result : stepString part r.taken byte with
  | error cause =>
    rw [result] at does
    cases stepped.symm.trans does
  | ok given =>
    have small := signs _ _ _ result
    rw [toNat_ofUInt8] at small
    omega

theorem exists_escape (inside : r.part? = some .escape) (reads : r.Reads text json) :
    ∃ c others, ∃ next : Reader, text = c :: others ∧ next.Reads others json ∧
      ((∃ meant, shortEscape? c = some meant ∧ next.part? = some .plain) ∨
        (c = 'u' ∧ next.part? = some (.hex none []))) := by
  obtain ⟨c, others, rfl, ascii⟩ := exists_ascii inside reads fun taken byte result stepped => by
    rcases escape_of_stepString stepped with ⟨meant, out, short, -⟩ | ⟨sign, -⟩
    · exact (ascii_of_shortEscape? short).1
    · rw [sign]
      decide
  rcases exists_more inside ascii reads with
    ⟨after, taken, next, more, inNext, reads⟩ | ⟨taken, closed⟩
  · have escaped := escape_of_stepString more
    rw [ofUInt8_of_ascii ascii] at escaped
    refine ⟨c, others, next, rfl, reads, ?_⟩
    rcases escaped with ⟨meant, out, short, same⟩ | ⟨isUnit, same⟩
    · cases same
      exact .inl ⟨meant, short, inNext⟩
    · cases same
      exact .inr ⟨isUnit, inNext⟩
  · rcases escape_of_stepString closed with ⟨meant, out, -, same⟩ | ⟨-, same⟩ <;> cases same

/-- The sign that leads from one part of a string to the next, where nothing else may come. -/
theorem exists_sign {after : StringPart} {sign : Char} (inside : r.part? = some part)
    (only : ∀ taken byte result, stepString part taken byte = .ok result →
      Char.ofUInt8 byte = sign ∧ result = .more after taken)
    (ascii : sign.toNat < 0x80) (reads : r.Reads text json) :
    ∃ others, ∃ next : Reader, text = sign :: others ∧ next.part? = some after ∧
      next.Reads others json := by
  obtain ⟨c, others, rfl, small⟩ := exists_ascii inside reads fun taken byte result stepped => by
    rw [(only taken byte result stepped).1]
    exact ascii
  rcases exists_more inside small reads with ⟨_, taken, next, more, inNext, reads⟩ | ⟨taken, closed⟩
  · obtain ⟨same, goesOn⟩ := only _ _ _ more
    cases goesOn
    rw [ofUInt8_of_ascii small] at same
    exact ⟨others, next, by rw [same], inNext, reads⟩
  · cases (only _ _ _ closed).2

/-- Between quotes a plain character is taken as it is. -/
theorem passes_plain {bytes : List UInt8} (inside : r.part? = some .plain)
    (plain : ∀ byte ∈ bytes, isPlain (Char.ofUInt8 byte) = true) :
    ∃ next : Reader, r.Passes bytes next ∧ next.part? = some .plain := by
  induction bytes generalizing r with
  | nil => exact ⟨r, passes_nil r, inside⟩
  | cons byte rest ih =>
    rw [List.forall_mem_cons] at plain
    have does := step_inside inside byte
    rw [stepString_plain plain.1] at does
    obtain ⟨middle, stepped, inMiddle⟩ := does
    obtain ⟨next, passes, inNext⟩ := ih inMiddle plain.2
    exact ⟨next, .cons stepped passes, inNext⟩

theorem exists_plain {c : Char} {others : List Char} (inside : r.part? = some .plain)
    (plain : isPlain c = true) (reads : r.Reads (c :: others) json) :
    ∃ next : Reader, next.part? = some .plain ∧ next.Reads others json := by
  obtain ⟨next, passes, inNext⟩ := passes_plain inside ((isPlain_iff_bytes c).mp plain)
  have single : encode [c] = String.utf8EncodeChar c := List.flatMap_singleton _ _
  rw [← single] at passes
  exact ⟨next, inNext, (reads_append_iff passes).mp reads⟩

/-- A half of a character is only read with its other half. -/
theorem exists_low {high : Nat} (inside : r.part? = some (.partner high))
    (reads : r.Reads text json) :
    ∃ digits others low, ∃ next : Reader, text = '\\' :: 'u' :: (digits ++ others) ∧
      CodeUnit digits low ∧ (0xDC00 ≤ low ∧ low ≤ 0xDFFF) ∧ next.part? = some .plain ∧
        next.Reads others json := by
  obtain ⟨_, r₁, rfl, inside, reads⟩ :=
    exists_sign inside (fun _ _ _ => partner_of_stepString) (by decide) reads
  obtain ⟨_, r₂, rfl, inside, reads⟩ :=
    exists_sign inside (fun _ _ _ => partnerMark_of_stepString) (by decide) reads
  obtain ⟨digits, others, low, after, taken, out, next, rfl, named, ended, inNext, reads⟩ :=
    exists_codeUnit inside reads
  rw [endHex] at ended
  split at ended
  · rename_i isLow
    cases ended
    exact ⟨digits, others, low, next, rfl, named, isLow, inNext, reads⟩
  · cases ended

theorem special_of_stepString {taken : List UInt8} {byte : UInt8} {result : StringStep}
    (special : isPlain (Char.ofUInt8 byte) ≠ true)
    (stepped : stepString .plain taken byte = .ok result) :
    Char.ofUInt8 byte = '"' ∨ (Char.ofUInt8 byte = '\\' ∧ result = .more .escape taken) := by
  revert stepped
  generalize same : StringPart.plain = before
  fun_cases stepString before taken byte with
  | case1 sign => exact fun _ => .inl sign
  | case2 sign =>
    rintro ⟨⟩
    exact .inr ⟨sign, rfl⟩
  | case3 => rintro ⟨⟩
  | case4 visible quote slash =>
    refine absurd ?_ special
    rw [UInt8.lt_iff_toNat_lt, Nat.not_lt] at visible
    rw [isPlain_iff, toNat_ofUInt8]
    exact ⟨quote, slash, visible⟩
  | _ => cases same

/-- A character that is not plain closes the string or begins an escape. -/
theorem quote_or_escape {c : Char} {others : List Char} (inside : r.part? = some .plain)
    (special : isPlain c ≠ true) (reads : r.Reads (c :: others) json) :
    c = '"' ∨ (c = '\\' ∧ ∃ next : Reader, next.part? = some .escape ∧ next.Reads others json) := by
  have ascii : c.toNat < 0x80 := by
    refine Nat.lt_of_not_le fun wide => special ((isPlain_iff_bytes c).mpr fun byte member => ?_)
    have large := le_of_mem_utf8EncodeChar wide member
    rw [isPlain_iff, toNat_ofUInt8]
    exact ⟨ofUInt8_ne large (by decide), ofUInt8_ne large (by decide), by omega⟩
  have same := ofUInt8_of_ascii ascii
  rw [← same] at special
  rcases exists_more inside ascii reads with
    ⟨after, taken, next, more, inNext, reads⟩ | ⟨taken, closed⟩
  · have does := special_of_stepString special more
    rw [same] at does
    rcases does with isQuote | ⟨isBackslash, goesOn⟩
    · exact .inl isQuote
    · cases goesOn
      exact .inr ⟨isBackslash, next, inNext, reads⟩
  · have does := special_of_stepString special closed
    rw [same] at does
    rcases does with isQuote | ⟨-, goesOn⟩
    · exact .inl isQuote
    · cases goesOn

/-- An escape that is read stands for a character. -/
theorem exists_escaped (inside : r.part? = some .escape) (reads : r.Reads text json) :
    ∃ escape others meant, ∃ next : Reader, text = escape ++ others ∧ next.part? = some .plain ∧
      next.Reads others json ∧ ∀ inner text, Quotes inner text →
        Quotes ('\\' :: (escape ++ inner)) (meant :: text) := by
  obtain ⟨c, others, r₁, rfl, reads₁, ⟨meant, short, inside₁⟩ | ⟨rfl, inside₁⟩⟩ :=
    exists_escape inside reads
  · exact ⟨[c], others, meant, r₁, rfl, inside₁, reads₁, fun _ _ => .short short⟩
  · obtain ⟨digits, others, unit, part, _, _, r₂, rfl, named, ended, inside₂, reads₂⟩ :=
      exists_codeUnit inside₁ reads₁
    rw [endHex] at ended
    split at ended
    · cases ended
    · rename_i notLow
      split at ended
      · rename_i isHigh
        cases ended
        obtain ⟨second, others, low, r₃, rfl, lowNamed, isLow, inside₃, reads₃⟩ :=
          exists_low inside₂ reads₂
        have goesOn : ∀ inner text, Quotes inner text →
            Quotes ('\\' :: ('u' :: (digits ++ '\\' :: 'u' :: second) ++ inner))
              (Char.ofNat ((unit - 0xD800) * 0x400 + (low - 0xDC00) + 0x10000) :: text) := by
          intro inner text quotes
          have pair := Quotes.pair named isHigh lowNamed isLow quotes
          simpa only [List.cons_append, List.append_assoc] using pair
        refine ⟨'u' :: (digits ++ '\\' :: 'u' :: second), others, _, r₃, ?_, inside₃, reads₃,
          goesOn⟩
        simp only [List.cons_append, List.append_assoc]
      · rename_i notHigh
        cases ended
        exact ⟨'u' :: digits, others, _, r₂, rfl, inside₂, reads₂,
          fun inner text quotes => .unit named (by omega) quotes⟩

/-- Whatever is read up to the closing quote is spelled between quotes. -/
theorem exists_quotes (inside : r.part? = some .plain) (reads : r.Reads text json) :
    ∃ inner meant others, text = inner ++ '"' :: others ∧ Quotes inner meant := by
  induction size : text.length using Nat.strongRecOn generalizing r text with
  | ind bound ih =>
    subst size
    obtain ⟨c, others, rfl⟩ := exists_cons_of_inside inside reads
    by_cases plain : isPlain c = true
    · obtain ⟨next, inNext, reads⟩ := exists_plain inside plain reads
      obtain ⟨inner, meant, rest, rfl, quotes⟩ := ih _ (Nat.lt_succ_self _) inNext reads rfl
      exact ⟨c :: inner, c :: meant, rest, rfl, .plain plain quotes⟩
    · rcases quote_or_escape inside plain reads with rfl | ⟨rfl, next, inEscape, reads⟩
      · exact ⟨[], [], others, rfl, .nil⟩
      · obtain ⟨escape, rest, meant, last, rfl, inLast, reads, goesOn⟩ :=
          exists_escaped inEscape reads
        have shorter : rest.length < ('\\' :: (escape ++ rest)).length := by
          rw [List.length_cons, List.length_append]
          omega
        obtain ⟨inner, text, after, rfl, quotes⟩ := ih _ shorter inLast reads rfl
        refine ⟨'\\' :: (escape ++ inner), meant :: text, after, ?_, goesOn inner text quotes⟩
        rw [List.cons_append, List.append_assoc]

end Reader

end AvroIdl.Json
