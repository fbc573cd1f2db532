import AvroIdl.Proofs.Json.Grammar

/-
The reader on the characters of a number. It goes from one part of the number to the next, and
has the spelling that it keeps when the number may end.
-/
set_option autoImplicit false

namespace AvroIdl.Json

open Text

namespace Reader

variable {waiting : List Frame} {text given : List Char} {part next : NumberPart} {r : Reader}

/-- The reader where it awaits a value. -/
abbrev ready (waiting : List Frame) : Reader :=
  ⟨waiting, .between .value⟩

abbrev inNumber (waiting : List Frame) (part : NumberPart) (text : List Char) : Reader :=
  ⟨waiting, .number part text⟩

theorem Passes.ascii {after middle : Reader} {c : Char} {rest : List Char} (ascii : c.toNat < 0x80)
    (stepped : r.step (UInt8.ofNat c.toNat) = .ok middle)
    (passes : middle.Passes (encode rest) after) : r.Passes (encode (c :: rest)) after := by
  rw [encode_cons_of_ascii ascii]
  exact .cons stepped passes

/-- Any number of digits may come next. -/
def NumberPart.InDigits (part : NumberPart) : Prop :=
  part = .whole ∨ part = .fraction ∨ part = .exponentDigits

/-- An exponent may come next. -/
def NumberPart.BeforeExponent (part : NumberPart) : Prop :=
  part = .zero ∨ part = .whole ∨ part = .fraction

theorem step_digit (inDigits : NumberPart.InDigits part) {c : Char} (digit : c.isDigit = true) :
    (inNumber waiting part text).step (UInt8.ofNat c.toNat) =
      .ok (inNumber waiting part (c :: text)) := by
  have same := ofUInt8_of_ascii (ascii_of_isDigit digit)
  rcases inDigits with rfl | rfl | rfl <;> simp [step, stepNumber, same, digit]

theorem passes_digits (inDigits : NumberPart.InDigits part) {digits : List Char}
    (only : ∀ c ∈ digits, c.isDigit = true) :
    (inNumber waiting part text).Passes (encode digits)
      (inNumber waiting part (digits.reverse ++ text)) := by
  induction digits generalizing text with
  | nil => exact passes_nil _
  | cons c rest ih =>
    rw [List.forall_mem_cons] at only
    rw [List.reverse_cons, List.append_assoc]
    exact .ascii (ascii_of_isDigit only.1) (step_digit inDigits only.1) (ih only.2)

/-- The first digit leads to a part in which any number of them may follow. -/
theorem passes_isDigits (inDigits : NumberPart.InDigits next) {digits : List Char}
    (isDigits : IsDigits digits)
    (first : ∀ c : Char, c.isDigit = true →
      r.step (UInt8.ofNat c.toNat) = .ok (inNumber waiting next (c :: given))) :
    r.Passes (encode digits) (inNumber waiting next (digits.reverse ++ given)) := by
  obtain ⟨nonempty, only⟩ := isDigits
  obtain ⟨c, rest, rfl⟩ := List.exists_cons_of_ne_nil nonempty
  rw [List.forall_mem_cons] at only
  rw [List.reverse_cons, List.append_assoc]
  exact .ascii (ascii_of_isDigit only.1) (first c only.1) (passes_digits inDigits only.2)

theorem step_point {c : Char} (digit : c.isDigit = true) :
    (inNumber waiting .point text).step (UInt8.ofNat c.toNat) =
      .ok (inNumber waiting .fraction (c :: text)) := by
  simp [step, stepNumber, ofUInt8_of_ascii (ascii_of_isDigit digit), digit]

theorem step_exponentSign {c : Char} (digit : c.isDigit = true) :
    (inNumber waiting .exponentSign text).step (UInt8.ofNat c.toNat) =
      .ok (inNumber waiting .exponentDigits (c :: text)) := by
  simp [step, stepNumber, ofUInt8_of_ascii (ascii_of_isDigit digit), digit]

/-- A digit right after the letter gives the exponent a sign. -/
theorem step_exponent {c : Char} (digit : c.isDigit = true) :
    (inNumber waiting .exponent text).step (UInt8.ofNat c.toNat) =
      .ok (inNumber waiting .exponentDigits (c :: '+' :: text)) := by
  have noSign : ¬ (c = '+' ∨ c = '-') := by
    rintro (rfl | rfl) <;> cases digit
  simp [step, stepNumber, ofUInt8_of_ascii (ascii_of_isDigit digit), digit, noSign]

theorem step_letter (before : NumberPart.BeforeExponent part) {c : Char}
    (isLetter : c = 'e' ∨ c = 'E') :
    (inNumber waiting part text).step (UInt8.ofNat c.toNat) =
      .ok (inNumber waiting .exponent ('e' :: text)) := by
  rcases isLetter with rfl | rfl <;> rcases before with rfl | rfl | rfl <;> rfl

theorem passes_exponent (before : NumberPart.BeforeExponent part) (e : Exponent) :
    (inNumber waiting part text).Passes (encode e.text)
      (inNumber waiting .exponentDigits (e.normal.text.reverse ++ text)) := by
  have ascii : e.letter.toNat < 0x80 := by
    rcases e.isLetter with same | same <;> rw [same] <;> decide
  refine .ascii ascii (step_letter before e.isLetter) ?_
  rw [e.text_normal, List.reverse_cons, List.reverse_cons, List.append_assoc, List.append_assoc]
  cases given : e.sign with
  | none => exact passes_isDigits (.inr (.inr rfl)) e.isDigits fun c digit => step_exponent digit
  | some c =>
    have digits : (inNumber waiting .exponentSign (c :: 'e' :: text)).Passes (encode e.digits)
        (inNumber waiting .exponentDigits (e.digits.reverse ++ c :: 'e' :: text)) :=
      passes_isDigits (.inr (.inr rfl)) e.isDigits fun d digit => step_exponentSign digit
    rcases e.isSign c given with rfl | rfl
    · exact .ascii (by decide) rfl digits
    · exact .ascii (by decide) rfl digits

theorem passes_fraction (before : part = .zero ∨ part = .whole) {digits : List Char}
    (isDigits : IsDigits digits) :
    (inNumber waiting part text).Passes (encode ('.' :: digits))
      (inNumber waiting .fraction (('.' :: digits).reverse ++ text)) := by
  have opens : (inNumber waiting part text).step 0x2e =
      .ok (inNumber waiting .point ('.' :: text)) := by
    rcases before with rfl | rfl <;> rfl
  rw [List.reverse_cons, List.append_assoc]
  exact .ascii (by decide) opens
    (passes_isDigits (.inr (.inl rfl)) isDigits fun c digit => step_point digit)

theorem isBlank_eq (byte : UInt8) : isBlank byte = isSpace (Char.ofUInt8 byte) := by
  have same : ∀ other : UInt8, Char.ofUInt8 byte = Char.ofUInt8 other ↔ byte = other :=
    fun other => ⟨eq_of_ofUInt8, congrArg Char.ofUInt8⟩
  have space : Char.ofUInt8 byte = ' ' ↔ byte = 0x20 := same 0x20
  have tab : Char.ofUInt8 byte = '\t' ↔ byte = 0x09 := same 0x09
  have newline : Char.ofUInt8 byte = '\n' ↔ byte = 0x0a := same 0x0a
  have carriage : Char.ofUInt8 byte = '\r' ↔ byte = 0x0d := same 0x0d
  rw [Bool.eq_iff_iff]
  rw [isSpace_iff, space, tab, newline, carriage]
  simp only [isBlank, Bool.or_eq_true, decide_eq_true_eq, or_assoc]
  exact or_congr_right or_left_comm

theorem isSpace_of_isDigit {c : Char} (digit : c.isDigit = true) : isSpace c = false := by
  rw [Bool.eq_false_iff]
  intro space
  rcases isSpace_iff.mp space with rfl | rfl | rfl | rfl <;> cases digit

theorem step_ready {c : Char} (digit : c.isDigit = true) (nonzero : c ≠ '0') :
    (ready waiting).step (UInt8.ofNat c.toNat) = .ok (inNumber waiting .whole [c]) := by
  have noBlank : ¬ isBlank (UInt8.ofNat c.toNat) = true := by
    rw [isBlank_eq, ofUInt8_of_ascii (ascii_of_isDigit digit), isSpace_of_isDigit digit]
    exact Bool.false_ne_true
  rw [step]
  dsimp only
  rw [stepBetween, if_neg noBlank, stepPlace, beginValue, ofUInt8_of_ascii (ascii_of_isDigit digit)]
  split
  case h_8 => rw [if_neg nonzero, if_pos digit]
  all_goals cases digit

theorem step_sign {c : Char} (digit : c.isDigit = true) (nonzero : c ≠ '0') :
    (inNumber waiting .sign text).step (UInt8.ofNat c.toNat) =
      .ok (inNumber waiting .whole (c :: text)) := by
  simp [step, stepNumber, ofUInt8_of_ascii (ascii_of_isDigit digit), digit, nonzero]

/-- The digits before the point, after a sign or without one. -/
theorem passes_whole {whole : List Char} (isWhole : IsWhole whole)
    (zero : r.step 0x30 = .ok (inNumber waiting .zero ('0' :: text)))
    (positive : ∀ c : Char, c.isDigit = true → c ≠ '0' →
      r.step (UInt8.ofNat c.toNat) = .ok (inNumber waiting .whole (c :: text))) :
    ∃ part, (part = .zero ∨ part = .whole) ∧
      r.Passes (encode whole) (inNumber waiting part (whole.reverse ++ text)) := by
  cases isWhole with
  | zero => exact ⟨.zero, .inl rfl, .ascii (by decide) zero (passes_nil _)⟩
  | @positive c rest digit nonzero more =>
    refine ⟨.whole, .inr rfl, .ascii (ascii_of_isDigit digit) (positive c digit nonzero) ?_⟩
    rw [List.reverse_cons, List.append_assoc]
    exact passes_digits (.inl rfl) more

/-- A number is read up to its end, where it has the spelling that is kept. -/
theorem passes_numeral (n : Numeral) (waiting : List Frame) :
    ∃ part : NumberPart, part.mayEnd = true ∧
      (ready waiting).Passes (encode n.text) (inNumber waiting part n.normal.text.reverse) := by
  have integral : ∃ part, (part = .zero ∨ part = .whole) ∧ (ready waiting).Passes
      (encode (n.signText ++ n.whole)) (inNumber waiting part (n.signText ++ n.whole).reverse) := by
    rw [Numeral.signText]
    cases n.negative with
    | false =>
      obtain ⟨part, before, passes⟩ : ∃ part, (part = .zero ∨ part = .whole) ∧
          (ready waiting).Passes (encode n.whole) (inNumber waiting part (n.whole.reverse ++ [])) :=
        passes_whole n.isWhole rfl fun c => step_ready
      rw [List.append_nil] at passes
      exact ⟨part, before, passes⟩
    | true =>
      obtain ⟨part, before, passes⟩ : ∃ part, (part = .zero ∨ part = .whole) ∧
          (inNumber waiting .sign ['-']).Passes (encode n.whole)
            (inNumber waiting part (n.whole.reverse ++ ['-'])) :=
        passes_whole n.isWhole rfl fun c => step_sign
      refine ⟨part, before, ?_⟩
      rw [if_pos rfl, List.reverse_append]
      exact .ascii (by decide) rfl passes
  have fractional : ∃ part, NumberPart.BeforeExponent part ∧ part.mayEnd = true ∧
      (ready waiting).Passes (encode (n.signText ++ n.whole ++ n.fractionText))
        (inNumber waiting part (n.signText ++ n.whole ++ n.fractionText).reverse) := by
    obtain ⟨part, before, passes⟩ := integral
    rw [Numeral.fractionText]
    cases given : n.fraction with
    | none =>
      rw [List.append_nil]
      refine ⟨part, before.imp_right .inl, ?_, passes⟩
      rcases before with rfl | rfl <;> rfl
    | some digits =>
      refine ⟨.fraction, .inr (.inr rfl), rfl, ?_⟩
      rw [encode_append, List.reverse_append]
      exact passes.append (passes_fraction before (n.isFraction digits given))
  obtain ⟨part, before, ends, passes⟩ := fractional
  rw [Numeral.text, Numeral.text_normal, Numeral.exponentText, Numeral.exponentText, Numeral.normal]
  cases n.exponent with
  | none =>
    rw [List.append_nil]
    exact ⟨part, ends, by rwa [Option.map_none, List.append_nil]⟩
  | some e =>
    refine ⟨.exponentDigits, rfl, ?_⟩
    rw [encode_append, Option.map_some, List.reverse_append]
    exact passes.append (passes_exponent before e)

end Reader

end AvroIdl.Json
