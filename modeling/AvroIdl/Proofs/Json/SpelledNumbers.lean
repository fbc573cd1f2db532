import AvroIdl.Proofs.Json.SpelledStrings

/-
Whatever the reader takes as a number is spelled as the grammar has it, and nothing comes after it
that could go on with it.
-/
set_option autoImplicit false

namespace AvroIdl.Json

open Text

namespace Reader

variable {r next : Reader} {waiting : List Frame} {part : NumberPart} {text given : List Char}
  {json : Json} {byte : UInt8}

theorem isBlank_of_wide (wide : 0x80 ≤ byte.toNat) : isBlank byte = false := by
  rw [isBlank_eq, Bool.eq_false_iff]
  intro space
  rcases isSpace_iff.mp space with same | same | same | same <;>
    exact ofUInt8_ne wide (by decide) same

theorem beginValue_ne_of_wide (wide : 0x80 ≤ byte.toNat) : beginValue waiting byte ≠ .ok next := by
  fun_cases beginValue waiting byte with
  | case1 sign | case2 sign | case3 sign | case4 sign | case5 sign | case6 sign | case8 sign
  | case10 _ _ _ _ _ _ _ sign =>
    exact absurd sign (ofUInt8_ne wide (by decide))
  | case11 _ _ _ _ _ _ _ _ digit =>
    rw [isDigit_of_wide wide] at digit
    cases digit
  | case7 | case9 | case12 => rintro ⟨⟩

theorem stepBetween_ne_of_wide (wide : 0x80 ≤ byte.toNat) (place : Place) :
    stepBetween waiting place byte ≠ .ok next := by
  rw [stepBetween, if_neg (by rw [isBlank_of_wide wide]; exact Bool.false_ne_true)]
  fun_cases stepPlace waiting place byte with
  | case1 | case3 | case5 => exact beginValue_ne_of_wide wide
  | case2 sign | case6 _ sign | case7 _ sign | case9 sign | case10 sign | case13 _ sign
  | case15 _ sign | case16 _ sign | case18 _ _ sign =>
    exact absurd sign (ofUInt8_ne wide (by decide))
  | _ => rintro ⟨⟩

theorem stepNumber_ne_of_wide (wide : 0x80 ≤ byte.toNat) :
    stepNumber waiting part given byte ≠ .ok next := by
  have ends : endNumber waiting given byte ≠ .ok next := stepBetween_ne_of_wide wide _
  have digit := isDigit_of_wide wide
  have zero : Char.ofUInt8 byte ≠ '0' := ofUInt8_ne wide (by decide)
  have point : Char.ofUInt8 byte ≠ '.' := ofUInt8_ne wide (by decide)
  have small : Char.ofUInt8 byte ≠ 'e' := ofUInt8_ne wide (by decide)
  have large : Char.ofUInt8 byte ≠ 'E' := ofUInt8_ne wide (by decide)
  have plus : Char.ofUInt8 byte ≠ '+' := ofUInt8_ne wide (by decide)
  have minus : Char.ofUInt8 byte ≠ '-' := ofUInt8_ne wide (by decide)
  cases part <;> simp [stepNumber, digit, zero, point, small, large, plus, minus, ends]

theorem ascii_of_isAlpha {c : Char} (letter : c.isAlpha = true) : c.toNat < 0x80 := by
  have small : c.val.toNat ≤ 122 := by
    rcases Bool.or_eq_true_iff.mp letter with upper | lower
    · exact Nat.le_trans (of_decide_eq_true upper).2 (by decide)
    · exact of_decide_eq_true (Bool.and_eq_true_iff.mp lower).2
  change c.val.toNat < 0x80
  omega

/-- Outside of strings no byte beyond ASCII is taken. -/
theorem step_ne_of_wide (outside : r.Outside) (wide : 0x80 ≤ byte.toNat) :
    r.step byte ≠ .ok next := by
  obtain ⟨waiting, mode⟩ := r
  rw [step]
  cases mode with
  | between place => exact stepBetween_ne_of_wide wide place
  | number part given => exact stepNumber_ne_of_wide wide
  | string | key => exact outside.elim
  | literal first rest value =>
    have other : Char.ofUInt8 byte ≠ first :=
      ofUInt8_ne wide (ascii_of_isAlpha (outside first List.mem_cons_self))
    dsimp only
    rw [if_pos other]
    rintro ⟨⟩

theorem ascii_of_outside {c : Char} {others : List Char} (outside : r.Outside)
    (reads : r.Reads (c :: others) json) : c.toNat < 0x80 :=
  ascii_of_refuses reads fun _ wide _ => step_ne_of_wide outside wide

theorem exists_first_of_literal {first : Char} {rest : List Char} {value : Json}
    (letters : ∀ c ∈ first :: rest, c.isAlpha = true)
    (reads : Reads ⟨waiting, .literal first rest value⟩ text json) :
    ∃ others, ∃ next : Reader, text = first :: others ∧
      step ⟨waiting, .literal first rest value⟩ (UInt8.ofNat first.toNat) = .ok next ∧
        next.Reads others json := by
  cases text with
  | nil => cases reads_nil_iff.mp reads
  | cons c others =>
    have ascii := ascii_of_outside (r := ⟨waiting, .literal first rest value⟩) letters reads
    obtain ⟨next, stepped, later⟩ := (reads_cons_iff ascii).mp reads
    have same : c = first := by
      by_cases same : c = first
      · exact same
      · rw [step] at stepped
        dsimp only at stepped
        rw [ofUInt8_of_ascii ascii, if_pos same] at stepped
        cases stepped
    subst same
    exact ⟨others, next, rfl, stepped, later⟩

/-- The letters of a literal come one after the other. -/
theorem exists_of_literal {first : Char} {rest : List Char} {value : Json}
    (letters : ∀ c ∈ first :: rest, c.isAlpha = true)
    (reads : Reads ⟨waiting, .literal first rest value⟩ text json) :
    ∃ others, text = first :: (rest ++ others) := by
  induction rest generalizing first text with
  | nil =>
    obtain ⟨others, -, rfl, -⟩ := exists_first_of_literal letters reads
    exact ⟨others, rfl⟩
  | cons second rest ih =>
    obtain ⟨others, next, rfl, stepped, reads⟩ := exists_first_of_literal letters reads
    have same := ofUInt8_of_ascii (ascii_of_isAlpha (letters first List.mem_cons_self))
    rw [step] at stepped
    dsimp only at stepped
    rw [same, if_neg (not_not_intro rfl)] at stepped
    cases stepped
    obtain ⟨more, rfl⟩ := ih (fun c member => letters c (List.mem_cons_of_mem _ member)) reads
    exact ⟨more, rfl⟩

/-- After a value nothing comes that could go on with a number. -/
theorem step_completed_ne (waiting : List Frame) (value : Json)
    (continues : Token.continuesNumber (Char.ofUInt8 byte) = true) :
    (completed waiting value).step byte ≠ .ok next := by
  have noBlank : isBlank byte = false := by
    rw [isBlank_eq, Bool.eq_false_iff]
    intro space
    rw [continuesNumber_of_isSpace space] at continues
    cases continues
  have noSign : ∀ {c : Char}, Token.continuesNumber c = false → Char.ofUInt8 byte ≠ c := by
    rintro c stops rfl
    rw [continues] at stops
    cases stops
  have refused : ∀ (outer : List Frame) (place : Place),
      (∃ value, place = .finished value) ∨ (∃ items, place = .listMore items) ∨
        (∃ members, place = .objectMore members) →
      step ⟨outer, .between place⟩ byte ≠ .ok next := by
    intro outer place isPlace
    rw [step_between outer place noBlank]
    fun_cases stepPlace outer place byte with
    | case6 _ sign | case7 _ sign | case15 _ sign | case16 _ sign => exact absurd sign (noSign rfl)
    | case8 | case17 | case20 => rintro ⟨⟩
    | _ => simp at isPlace
  cases waiting with
  | nil => exact refused _ _ (.inl ⟨_, rfl⟩)
  | cons frame outer =>
    cases frame with
    | list items => exact refused _ _ (.inr (.inl ⟨_, rfl⟩))
    | object members key => exact refused _ _ (.inr (.inr ⟨_, rfl⟩))

theorem stops_of_endNumber (ended : endNumber waiting given byte = .ok next) :
    Token.continuesNumber (Char.ofUInt8 byte) = false := by
  rw [Bool.eq_false_iff]
  intro continues
  exact step_completed_ne waiting _ continues ended

/-- Digits are taken as long as there are any. -/
theorem exists_digits (inDigits : NumberPart.InDigits part)
    (reads : (inNumber waiting part given).Reads text json) :
    ∃ digits others given, text = digits ++ others ∧ (∀ c ∈ digits, c.isDigit = true) ∧
      (∀ c ∈ others.head?, c.isDigit = false) ∧
        (inNumber waiting part given).Reads others json := by
  induction text generalizing given with
  | nil => exact ⟨[], [], given, rfl, nofun, nofun, reads⟩
  | cons c rest ih =>
    cases digit : c.isDigit with
    | false =>
      refine ⟨[], c :: rest, given, rfl, nofun, ?_, reads⟩
      rintro _ ⟨⟩
      exact digit
    | true =>
      obtain ⟨next, stepped, reads⟩ := (reads_cons_iff (ascii_of_isDigit digit)).mp reads
      rw [step_digit inDigits digit] at stepped
      cases stepped
      obtain ⟨digits, others, given, rfl, only, ends, reads⟩ := ih reads
      exact ⟨c :: digits, others, given, rfl, List.forall_mem_cons.mpr ⟨digit, only⟩, ends, reads⟩

/-- A digit must come next, and leads to a part in which any number of them may follow. -/
def NumberPart.AsksDigit (part last : NumberPart) : Prop :=
  (part = .point ∧ last = .fraction) ∨ (part = .exponentSign ∧ last = .exponentDigits)

/-- Where a digit must come, one or more are taken. -/
theorem exists_isDigits {last : NumberPart} (asks : NumberPart.AsksDigit part last)
    (reads : (inNumber waiting part given).Reads text json) :
    ∃ digits others given, text = digits ++ others ∧ IsDigits digits ∧
      (∀ c ∈ others.head?, c.isDigit = false) ∧
        (inNumber waiting last given).Reads others json := by
  cases text with
  | nil =>
    rw [reads_nil_iff] at reads
    rcases asks with ⟨rfl, rfl⟩ | ⟨rfl, rfl⟩ <;> cases reads
  | cons c rest =>
    have ascii := ascii_of_outside (r := inNumber waiting part given) trivial reads
    obtain ⟨next, stepped, reads⟩ := (reads_cons_iff ascii).mp reads
    cases digit : c.isDigit with
    | false =>
      have same := ofUInt8_of_ascii ascii
      rcases asks with ⟨rfl, rfl⟩ | ⟨rfl, rfl⟩ <;> simp [step, stepNumber, same, digit] at stepped
    | true =>
      have inDigits : NumberPart.InDigits last ∧ next = inNumber waiting last (c :: given) := by
        rcases asks with ⟨rfl, rfl⟩ | ⟨rfl, rfl⟩
        · exact ⟨.inr (.inl rfl), Except.ok.inj (stepped.symm.trans (step_point digit))⟩
        · exact ⟨.inr (.inr rfl), Except.ok.inj (stepped.symm.trans (step_exponentSign digit))⟩
      obtain ⟨inDigits, rfl⟩ := inDigits
      obtain ⟨digits, others, given, rfl, more, ends, reads⟩ := exists_digits inDigits reads
      exact ⟨c :: digits, others, given, rfl,
        ⟨List.cons_ne_nil _ _, List.forall_mem_cons.mpr ⟨digit, more⟩⟩, ends, reads⟩

/-- Nothing goes on with a number that ends before the next character. -/
theorem stops_of_reads (reads : (inNumber waiting part given).Reads text json)
    (own : ∀ c ∈ text.head?, c.toNat < 0x80 →
      (inNumber waiting part given).step (UInt8.ofNat c.toNat) =
        endNumber waiting given (UInt8.ofNat c.toNat)) : Stops text := by
  rintro c isFirst
  obtain ⟨rest, rfl⟩ := List.head?_eq_some_iff.mp isFirst
  have ascii := ascii_of_outside (r := inNumber waiting part given) trivial reads
  obtain ⟨next, stepped, -⟩ := (reads_cons_iff ascii).mp reads
  rw [own c isFirst ascii] at stepped
  have stops := stops_of_endNumber stepped
  rwa [ofUInt8_of_ascii ascii] at stops

theorem stops_of_exponentDigits (noDigit : ∀ c ∈ text.head?, c.isDigit = false)
    (reads : (inNumber waiting .exponentDigits given).Reads text json) : Stops text := by
  refine stops_of_reads reads fun c isFirst ascii => ?_
  simp [step, stepNumber, ofUInt8_of_ascii ascii, noDigit c isFirst]

/-- After the letter of an exponent come a sign or none, and digits. -/
theorem exists_exponent (reads : (inNumber waiting .exponent given).Reads text json) :
    ∃ (sign : Option Char) (digits others : List Char), text = sign.toList ++ digits ++ others ∧
      (∀ c ∈ sign, c = '+' ∨ c = '-') ∧ IsDigits digits ∧ Stops others := by
  cases text with
  | nil => cases reads_nil_iff.mp reads
  | cons c rest =>
    have ascii := ascii_of_outside (r := inNumber waiting .exponent given) trivial reads
    have same := ofUInt8_of_ascii ascii
    obtain ⟨next, stepped, reads⟩ := (reads_cons_iff ascii).mp reads
    by_cases isSign : c = '+' ∨ c = '-'
    · have signed : next = inNumber waiting .exponentSign (c :: given) := by
        simpa [step, stepNumber, same, isSign] using stepped.symm
      subst signed
      obtain ⟨digits, others, _, rfl, isDigits, ends, reads⟩ :=
        exists_isDigits (.inr ⟨rfl, rfl⟩) reads
      refine ⟨some c, digits, others, rfl, ?_, isDigits, stops_of_exponentDigits ends reads⟩
      rintro _ ⟨⟩
      exact isSign
    · cases digit : c.isDigit with
      | false => simp [step, stepNumber, same, isSign, digit] at stepped
      | true =>
        rw [step_exponent digit] at stepped
        cases stepped
        obtain ⟨digits, others, _, rfl, more, ends, reads⟩ := exists_digits (.inr (.inr rfl)) reads
        refine ⟨none, c :: digits, others, rfl, ?_,
          ⟨List.cons_ne_nil _ _, List.forall_mem_cons.mpr ⟨digit, more⟩⟩,
          stops_of_exponentDigits ends reads⟩
        rintro _ ⟨⟩

/-- What may come after the digits of a number: an exponent, or nothing that goes on with it. -/
theorem exists_exponent? (before : NumberPart.BeforeExponent part)
    (noDigit : ∀ c ∈ text.head?, c.isDigit = false)
    (noPoint : part = .fraction ∨ '.' ∉ text.head?)
    (reads : (inNumber waiting part given).Reads text json) :
    ∃ (exponent : Option Exponent) (others : List Char),
      text = exponent.elim [] Exponent.text ++ others ∧ Stops others := by
  cases text with
  | nil => exact ⟨none, [], rfl, nofun⟩
  | cons c rest =>
    have ascii := ascii_of_outside (r := inNumber waiting part given) trivial reads
    by_cases letter : c = 'e' ∨ c = 'E'
    · obtain ⟨next, stepped, reads⟩ := (reads_cons_iff ascii).mp reads
      rw [step_letter before letter] at stepped
      cases stepped
      obtain ⟨sign, digits, others, rfl, isSign, isDigits, stops⟩ := exists_exponent reads
      exact ⟨some ⟨c, sign, digits, letter, isSign, isDigits⟩, others, rfl, stops⟩
    · refine ⟨none, c :: rest, rfl, stops_of_reads reads ?_⟩
      rintro _ ⟨⟩ -
      have same := ofUInt8_of_ascii ascii
      have digit := noDigit c rfl
      simp only [List.head?_cons, Option.mem_some_iff] at noPoint
      rcases before with rfl | rfl | rfl <;> simp_all [step, stepNumber]

/-- What may come after the digits before the point. -/
theorem exists_fraction? (before : part = .zero ∨ part = .whole)
    (noDigit : ∀ c ∈ text.head?, c.isDigit = false)
    (reads : (inNumber waiting part given).Reads text json) :
    ∃ (fraction : Option (List Char)) (exponent : Option Exponent) (others : List Char),
      text = fraction.elim [] ('.' :: ·) ++ exponent.elim [] Exponent.text ++ others ∧
        (∀ digits ∈ fraction, IsDigits digits) ∧ Stops others := by
  by_cases isPoint : '.' ∈ text.head?
  · obtain ⟨rest, rfl⟩ := List.head?_eq_some_iff.mp isPoint
    obtain ⟨next, stepped, reads⟩ := (reads_cons_iff (by decide)).mp reads
    have opens : next = inNumber waiting .point ('.' :: given) := by
      rcases before with rfl | rfl <;> exact (Except.ok.inj stepped).symm
    subst opens
    obtain ⟨digits, rest, _, rfl, isDigits, ends, reads⟩ := exists_isDigits (.inl ⟨rfl, rfl⟩) reads
    obtain ⟨exponent, others, rfl, stops⟩ :=
      exists_exponent? (.inr (.inr rfl)) ends (.inl rfl) reads
    refine ⟨some digits, exponent, others, ?_, ?_, stops⟩
    · simp only [Option.elim_some, List.cons_append, List.append_assoc]
    · rintro _ ⟨⟩
      exact isDigits
  · obtain ⟨exponent, others, rfl, stops⟩ :=
      exists_exponent? (before.imp_right .inl) noDigit (.inr isPoint) reads
    exact ⟨none, exponent, others, rfl, nofun, stops⟩

/-- A zero comes alone, and any other digit before any number of them. -/
theorem exists_whole {c : Char} {rest : List Char} (digit : c.isDigit = true)
    (zero : r.step 0x30 = .ok (inNumber waiting .zero ('0' :: given)))
    (positive : ∀ c : Char, c.isDigit = true → c ≠ '0' →
      r.step (UInt8.ofNat c.toNat) = .ok (inNumber waiting .whole (c :: given)))
    (reads : r.Reads (c :: rest) json) :
    ∃ part whole given others, c :: rest = whole ++ others ∧ IsWhole whole ∧
      (part = .zero ∨ part = .whole) ∧ (∀ c ∈ others.head?, c.isDigit = false) ∧
        (inNumber waiting part given).Reads others json := by
  obtain ⟨next, stepped, reads⟩ := (reads_cons_iff (ascii_of_isDigit digit)).mp reads
  by_cases isZero : c = '0'
  · subst isZero
    cases stepped.symm.trans zero
    refine ⟨.zero, ['0'], _, rest, rfl, .zero, .inl rfl, fun d isFirst => ?_, reads⟩
    obtain ⟨others, rfl⟩ := List.head?_eq_some_iff.mp isFirst
    rw [Bool.eq_false_iff]
    intro another
    have ascii := ascii_of_isDigit another
    obtain ⟨next, stepped, -⟩ := (reads_cons_iff ascii).mp reads
    simp [step, stepNumber, ofUInt8_of_ascii ascii, another] at stepped
  · cases stepped.symm.trans (positive c digit isZero)
    obtain ⟨digits, others, given, rfl, more, ends, reads⟩ := exists_digits (.inl rfl) reads
    exact ⟨.whole, c :: digits, given, others, rfl, .positive digit isZero more, .inr rfl, ends,
      reads⟩

theorem numeralText_eq (n : Numeral) : n.text = (if n.negative then ['-'] else []) ++ n.whole ++
    n.fraction.elim [] ('.' :: ·) ++ n.exponent.elim [] Exponent.text := by
  rw [Numeral.text, Numeral.signText, Numeral.fractionText, Numeral.exponentText]
  cases n.fraction <;> cases n.exponent <;> rfl

/-- What is read from the first digit on is spelled as a number, after a sign or without one. -/
theorem exists_numeral_of_digit (negative : Bool) {c : Char} {rest : List Char}
    (digit : c.isDigit = true)
    (zero : r.step 0x30 = .ok (inNumber waiting .zero ('0' :: given)))
    (positive : ∀ c : Char, c.isDigit = true → c ≠ '0' →
      r.step (UInt8.ofNat c.toNat) = .ok (inNumber waiting .whole (c :: given)))
    (reads : r.Reads (c :: rest) json) :
    ∃ (n : Numeral) (others : List Char),
      (if negative then ['-'] else []) ++ c :: rest = n.text ++ others ∧ Stops others := by
  obtain ⟨part, whole, _, tail, same, isWhole, before, ends, reads⟩ :=
    exists_whole digit zero positive reads
  obtain ⟨fraction, exponent, others, rfl, isFraction, stops⟩ := exists_fraction? before ends reads
  refine ⟨⟨negative, whole, fraction, exponent, isWhole, isFraction⟩, others, ?_, stops⟩
  rw [same, numeralText_eq]
  simp only [List.append_assoc]

/-- After a minus sign comes a digit. -/
theorem exists_digit_of_sign (reads : (inNumber waiting .sign given).Reads text json) :
    ∃ c rest, text = c :: rest ∧ c.isDigit = true := by
  cases text with
  | nil => cases reads_nil_iff.mp reads
  | cons c rest =>
    refine ⟨c, rest, rfl, ?_⟩
    have ascii := ascii_of_outside (r := inNumber waiting .sign given) trivial reads
    obtain ⟨next, stepped, -⟩ := (reads_cons_iff ascii).mp reads
    cases digit : c.isDigit with
    | true => rfl
    | false =>
      have nonzero : c ≠ '0' := by
        rintro rfl
        cases digit
      simp [step, stepNumber, ofUInt8_of_ascii ascii, digit, nonzero] at stepped

/-- Whatever is read as a number is spelled as one. -/
theorem exists_numeral {c : Char} {rest : List Char} (begins : c = '-' ∨ c.isDigit = true)
    (reads : (ready waiting).Reads (c :: rest) json) :
    ∃ (n : Numeral) (others : List Char), c :: rest = n.text ++ others ∧ Stops others := by
  rcases begins with rfl | digit
  · obtain ⟨next, stepped, reads⟩ := (reads_cons_iff (by decide)).mp reads
    have signed : next = inNumber waiting .sign ['-'] := (Except.ok.inj stepped).symm
    subst signed
    obtain ⟨d, rest, rfl, digit⟩ := exists_digit_of_sign reads
    exact exists_numeral_of_digit true digit rfl (fun _ => step_sign) reads
  · exact exists_numeral_of_digit false digit rfl (fun _ => step_ready) reads

end Reader

end AvroIdl.Json
