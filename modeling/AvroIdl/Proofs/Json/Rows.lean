import AvroIdl.Proofs.Json.ReadText

/-
A row of tokens is read as the same value whatever is in its gaps. Between tokens the reader goes
by the token that comes next, and not by how it is spelled.
-/
set_option autoImplicit false

namespace AvroIdl.Json.Reader

open Text

variable {r next : Reader} {text rest : List Char} {json : Json} {byte : UInt8}

theorem isBetween_completed (waiting : List Frame) (value : Json) :
    (completed waiting value).IsBetween :=
  ⟨_, rfl⟩

theorem reads_cons_iff {c : Char} (ascii : c.toNat < 0x80) :
    r.Reads (c :: rest) json ↔
      ∃ next, r.step (UInt8.ofNat c.toNat) = .ok next ∧ next.Reads rest json := by
  simp only [Reads, encode_cons_of_ascii ascii, passes_cons_iff]
  constructor
  · rintro ⟨after, ⟨next, stepped, passes⟩, finished⟩
    exact ⟨next, stepped, after, passes, finished⟩
  · rintro ⟨next, stepped, after, passes, finished⟩
    exact ⟨after, ⟨next, stepped, passes⟩, finished⟩

theorem step_between (waiting : List Frame) (place : Place) (noBlank : isBlank byte = false) :
    step ⟨waiting, .between place⟩ byte = stepPlace waiting place byte := by
  rw [step]
  dsimp only
  rw [stepBetween, if_neg (by rw [noBlank]; exact Bool.false_ne_true)]

/-- After a sign the reader is between tokens again. -/
theorem isBetween_of_step (between : r.IsBetween) (noBlank : isBlank byte = false)
    (isSign : Char.ofUInt8 byte ∈ ['[', ']', '\x7b', '\x7d', ',', ':'])
    (stepped : r.step byte = .ok next) : next.IsBetween := by
  obtain ⟨waiting, mode⟩ := r
  obtain ⟨place, rfl⟩ := between
  rw [step_between waiting place noBlank] at stepped
  have noQuote : Char.ofUInt8 byte ≠ '"' := by
    intro isQuote
    rw [isQuote] at isSign
    exact absurd isSign (by decide)
  have noDigit : (Char.ofUInt8 byte).isDigit = false := by
    have all : ∀ c ∈ ['[', ']', '\x7b', '\x7d', ',', ':'], c.isDigit = false := by simp
    exact all _ isSign
  have ofValue : ∀ {frames : List Frame}, beginValue frames byte = .ok next →
      next.IsBetween := by
    intro frames begun
    revert begun
    fun_cases beginValue frames byte with
    | case6 | case8 =>
      rintro ⟨⟩
      exact ⟨_, rfl⟩
    | case7 | case9 | case12 => rintro ⟨⟩
    | _ => simp_all
  revert stepped
  fun_cases stepPlace waiting place byte with
  | case1 | case3 | case5 => exact ofValue
  | case10 isQuote | case13 _ isQuote => exact absurd isQuote noQuote
  | case2 | case6 | case7 | case9 | case15 | case16 | case18 =>
    rintro ⟨⟩
    exact ⟨_, rfl⟩
  | _ => rintro ⟨⟩

/-- What is awaited where a byte is taken that begins a value. -/
theorem exists_awaits (between : r.IsBetween) (noBlank : isBlank byte = false)
    (noSign : Char.ofUInt8 byte ∉ [']', '\x7d', ',', ':']) (stepped : r.step byte = .ok next) :
    (∃ waiting, r.Awaits waiting) ∨
      (Char.ofUInt8 byte = '"' ∧ ∃ waiting members, r.AwaitsKey waiting members) := by
  obtain ⟨waiting, mode⟩ := r
  obtain ⟨place, rfl⟩ := between
  rw [step_between waiting place noBlank] at stepped
  simp only [List.mem_cons, List.not_mem_nil, or_false, not_or] at noSign
  obtain ⟨noList, noObject, noComma, noColon⟩ := noSign
  revert stepped
  fun_cases stepPlace waiting place byte with
  | case1 => exact fun _ => .inl ⟨_, awaits_value waiting⟩
  | case3 => exact fun _ => .inl ⟨_, awaits_first waiting⟩
  | case5 items => exact fun _ => .inl ⟨_, awaits_next waiting items⟩
  | case10 isQuote => exact fun _ => .inr ⟨isQuote, waiting, [], ⟨_, rfl⟩, rfl⟩
  | case13 members isQuote => exact fun _ => .inr ⟨isQuote, waiting, members, ⟨_, rfl⟩, rfl⟩
  | case2 sign | case6 _ sign => exact absurd sign noList
  | case7 _ sign | case16 _ sign => exact absurd sign noComma
  | case9 sign | case15 _ sign => exact absurd sign noObject
  | case18 _ _ sign => exact absurd sign noColon
  | _ => rintro ⟨⟩

/-- Where a sign is read, all that comes of it is where the reader is after it. -/
theorem exists_takes_sign {token : Token} {sign : Char} (between : r.IsBetween)
    (isSign : Token.sign? token = some sign) (reads : r.Reads (sign :: rest) json) :
    ∃ next, next.IsBetween ∧ r.Takes token next ∧ next.Reads rest json := by
  have known : sign.toNat < 0x80 ∧ isBlank (UInt8.ofNat sign.toNat) = false ∧
      sign ∈ ['[', ']', '\x7b', '\x7d', ',', ':'] := by
    cases token <;> cases isSign <;> decide
  obtain ⟨ascii, noBlank, member⟩ := known
  obtain ⟨next, stepped, reads⟩ := (reads_cons_iff ascii).mp reads
  refine ⟨next, ?_, takes_sign isSign stepped, reads⟩
  refine isBetween_of_step between noBlank ?_ stepped
  rwa [ofUInt8_of_ascii ascii]

/-- A value is awaited where a text begins with one, unless that is the name of a member. -/
theorem exists_awaits_of_reads {c : Char} (between : r.IsBetween) (ascii : c.toNat < 0x80)
    (noSpace : isSpace c = false) (noSign : c ∉ [']', '\x7d', ',', ':'])
    (reads : r.Reads (c :: rest) json) :
    (∃ waiting, r.Awaits waiting) ∨ (c = '"' ∧ ∃ waiting members, r.AwaitsKey waiting members) := by
  obtain ⟨next, stepped, -⟩ := (reads_cons_iff ascii).mp reads
  have same := ofUInt8_of_ascii ascii
  have noBlank : isBlank (UInt8.ofNat c.toNat) = false := by rwa [isBlank_eq, same]
  have awaits := exists_awaits between noBlank (by rwa [same]) stepped
  rwa [same] at awaits

theorem exists_awaits_of_ne_quote {c : Char} (between : r.IsBetween) (ascii : c.toNat < 0x80)
    (noSpace : isSpace c = false) (noSign : c ∉ ['"', ']', '\x7d', ',', ':'])
    (reads : r.Reads (c :: rest) json) : ∃ waiting, r.Awaits waiting := by
  rw [List.mem_cons, not_or] at noSign
  rcases exists_awaits_of_reads between ascii noSpace noSign.2 reads with awaits | ⟨isQuote, -⟩
  · exact awaits
  · exact absurd isQuote noSign.1

/-- Where a number is read it is awaited. -/
theorem exists_awaits_of_numeral {n : Numeral} (between : r.IsBetween)
    (reads : r.Reads (n.text ++ rest) json) : ∃ waiting, r.Awaits waiting := by
  obtain ⟨c, others, isText, ascii, noSpace, noSign⟩ := n.exists_cons
  rw [isText] at reads
  exact exists_awaits_of_ne_quote between ascii noSpace noSign reads

/-- Where a token is read, all that comes of it is where the reader is after it. -/
theorem exists_takes {token : Token} (between : r.IsBetween) (spelled : token.Spelled text)
    (ends : token.EndsBefore rest) (reads : r.Reads (text ++ rest) json) :
    ∃ next, next.IsBetween ∧ r.Takes token next ∧ next.Reads rest json := by
  have completes : ∀ {waiting : List Frame} {value : Json},
      r.Takes token (completed waiting value) →
        ∃ next, next.IsBetween ∧ r.Takes token next ∧ next.Reads rest json :=
    fun takes => ⟨_, isBetween_completed _ _, takes, (takes _ _ _ spelled ends).mp reads⟩
  cases spelled with
  | openList | closeList | openObject | closeObject | comma | colon =>
    exact exists_takes_sign between rfl reads
  | null =>
    obtain ⟨waiting, awaits⟩ :=
      exists_awaits_of_ne_quote between (by decide) rfl (by decide) reads
    exact completes awaits.takes_null
  | true | false =>
    obtain ⟨waiting, awaits⟩ :=
      exists_awaits_of_ne_quote between (by decide) rfl (by decide) reads
    exact completes (awaits.takes_bool _)
  | number n =>
    obtain ⟨waiting, awaits⟩ := exists_awaits_of_numeral between reads
    exact completes (awaits.takes_number n)
  | @string meant inner quotes =>
    rcases exists_awaits_of_reads between (by decide) rfl (by decide) reads with
      ⟨waiting, awaits⟩ | ⟨-, waiting, members, awaits⟩
    · exact completes (awaits.takes_string _)
    · have takes := awaits.takes_key meant
      exact ⟨_, ⟨_, rfl⟩, takes, (takes _ _ _ (.string quotes) ends).mp reads⟩

/-- What is read of one text with these tokens is read of all of them. -/
theorem ends_of_reads {tokens : List Token} (lexed : Lexed Blanks Blanks tokens text)
    (between : r.IsBetween) (reads : r.Reads text json) : r.Ends tokens json := by
  induction lexed generalizing r with
  | @last gap blanks =>
    rw [← List.append_nil gap, reads_append_iff (passes_blanks between blanks)] at reads
    intro other lexed
    cases lexed with
    | last others =>
      rw [← List.append_nil other, reads_append_iff (passes_blanks between others)]
      exact reads
  | token blanks spelled ends _ ih =>
    rw [reads_append_iff (passes_blanks between blanks)] at reads
    obtain ⟨next, nextBetween, takes, reads⟩ := exists_takes between spelled ends reads
    exact takes.leads between _ _ (ih nextBetween reads)

end AvroIdl.Json.Reader
