import AvroIdl.Proofs.Json.Rows
import AvroIdl.Proofs.Json.SpelledNumbers

/-
A text that the reader takes has tokens: it is a row of them with blanks around.
-/
set_option autoImplicit false

namespace AvroIdl.Json

open Text

theorem Blanks.cons {c : Char} {gap : List Char} (blanks : Blanks gap) (space : isSpace c = true) :
    Blanks (c :: gap) :=
  List.forall_mem_cons.mpr ⟨space, blanks⟩

theorem Lexed.blank {c : Char} {tokens : List Token} {rest : List Char} (space : isSpace c = true)
    (lexed : Lexed Blanks Blanks tokens rest) : Lexed Blanks Blanks tokens (c :: rest) := by
  cases lexed with
  | last blanks => exact .last (blanks.cons space)
  | token blanks spelled ends after => exact .token (blanks.cons space) spelled ends after

namespace Reader

variable {r : Reader} {waiting : List Frame} {text rest : List Char} {c : Char} {json : Json}

/-- The text begins with a token that ends before the others. -/
def BeginsWithToken (text : List Char) : Prop :=
  ∃ (token : Token) (own others : List Char),
    text = own ++ others ∧ token.Spelled own ∧ token.EndsBefore others

theorem beginsWithToken_of_quotes {inner meant others : List Char} (quotes : Quotes inner meant)
    (same : rest = inner ++ '"' :: others) : BeginsWithToken ('"' :: rest) := by
  subst same
  have spelled : (Token.string (String.ofList meant)).Spelled ('"' :: (inner ++ ['"'])) :=
    .string (by rwa [String.toList_ofList])
  refine ⟨_, _, others, ?_, spelled, trivial⟩
  rw [List.cons_append, List.append_assoc, List.singleton_append]

/-- Where a value is awaited, what is read begins with the token that the value begins with. -/
theorem beginsWithToken_of_ready (ascii : c.toNat < 0x80) (noSpace : isSpace c = false)
    (reads : (ready waiting).Reads (c :: rest) json) : BeginsWithToken (c :: rest) := by
  obtain ⟨next, stepped, later⟩ := (reads_cons_iff ascii).mp reads
  have same := ofUInt8_of_ascii ascii
  have noBlank : isBlank (UInt8.ofNat c.toNat) = false := by rwa [isBlank_eq, same]
  have ofNumber : c = '-' ∨ c.isDigit = true → BeginsWithToken (c :: rest) := by
    intro begins
    obtain ⟨n, others, isText, stops⟩ := exists_numeral begins reads
    exact ⟨.number n, _, others, isText, .number n, stops⟩
  rw [step_between waiting .value noBlank, stepPlace] at stepped
  revert stepped
  fun_cases beginValue waiting (UInt8.ofNat c.toNat) with
  | case1 sign =>
    rintro ⟨⟩
    cases same.symm.trans sign
    obtain ⟨others, rfl⟩ := exists_of_literal (by simp) later
    exact ⟨.null, _, others, rfl, .null, trivial⟩
  | case2 sign =>
    rintro ⟨⟩
    cases same.symm.trans sign
    obtain ⟨others, rfl⟩ := exists_of_literal (by simp) later
    exact ⟨.bool true, _, others, rfl, .true, trivial⟩
  | case3 sign =>
    rintro ⟨⟩
    cases same.symm.trans sign
    obtain ⟨others, rfl⟩ := exists_of_literal (by simp) later
    exact ⟨.bool false, _, others, rfl, .false, trivial⟩
  | case4 sign => exact fun _ => ofNumber (.inl (same.symm.trans sign))
  | case5 sign =>
    rintro ⟨⟩
    cases same.symm.trans sign
    obtain ⟨inner, meant, others, isText, quotes⟩ := exists_quotes rfl later
    exact beginsWithToken_of_quotes quotes isText
  | case6 sign =>
    rintro -
    cases same.symm.trans sign
    exact ⟨.openList, _, rest, rfl, .openList, trivial⟩
  | case8 sign =>
    rintro -
    cases same.symm.trans sign
    exact ⟨.openObject, _, rest, rfl, .openObject, trivial⟩
  | case10 _ _ _ _ _ _ _ zero =>
    cases same.symm.trans zero
    exact fun _ => ofNumber (.inr rfl)
  | case11 _ _ _ _ _ _ _ _ digit =>
    rw [same] at digit
    exact fun _ => ofNumber (.inr digit)
  | _ => rintro ⟨⟩

theorem Awaits.reads_ready (awaits : r.Awaits waiting) (ascii : c.toNat < 0x80)
    (noSpace : isSpace c = false) (noClose : c ≠ ']') (reads : r.Reads (c :: rest) json) :
    (ready waiting).Reads (c :: rest) json := by
  rw [reads_cons_iff ascii] at reads ⊢
  rwa [← awaits.step_eq ascii noSpace noClose]

/-- Between tokens what is read begins with one, unless it begins with a blank. -/
theorem beginsWithToken_of_reads (between : r.IsBetween) (noSpace : isSpace c = false)
    (reads : r.Reads (c :: rest) json) : BeginsWithToken (c :: rest) := by
  have ascii : c.toNat < 0x80 := by
    obtain ⟨waiting, mode⟩ := r
    obtain ⟨place, rfl⟩ := between
    exact ascii_of_outside (r := ⟨waiting, .between place⟩) trivial reads
  by_cases isSign : c ∈ [']', '\x7d', ',', ':']
  · simp only [List.mem_cons, List.not_mem_nil, or_false] at isSign
    rcases isSign with rfl | rfl | rfl | rfl
    · exact ⟨.closeList, _, rest, rfl, .closeList, trivial⟩
    · exact ⟨.closeObject, _, rest, rfl, .closeObject, trivial⟩
    · exact ⟨.comma, _, rest, rfl, .comma, trivial⟩
    · exact ⟨.colon, _, rest, rfl, .colon, trivial⟩
  · rcases exists_awaits_of_reads between ascii noSpace isSign reads with
      ⟨waiting, awaits⟩ | ⟨rfl, waiting, members, awaits⟩
    · have noClose : c ≠ ']' := by
        rintro rfl
        exact isSign (by decide)
      exact beginsWithToken_of_ready ascii noSpace (awaits.reads_ready ascii noSpace noClose reads)
    · obtain ⟨next, stepped, later⟩ := (reads_cons_iff (by decide)).mp reads
      cases stepped.symm.trans awaits.begins
      obtain ⟨inner, meant, others, isText, quotes⟩ := exists_quotes rfl later
      exact beginsWithToken_of_quotes quotes isText

/-- What is read is a row of tokens with blanks around. -/
theorem exists_tokens (between : r.IsBetween) (reads : r.Reads text json) :
    ∃ tokens, Lexed Blanks Blanks tokens text := by
  induction size : text.length using Nat.strongRecOn generalizing r text with
  | ind bound ih =>
    subst size
    cases text with
    | nil => exact ⟨[], .last (blanks_replicate 0)⟩
    | cons c rest =>
      cases space : isSpace c with
      | true =>
        have blank : r.Passes (encode [c]) r := passes_blanks between (blanks_singleton space)
        have later : r.Reads rest json := (reads_append_iff blank).mp reads
        obtain ⟨tokens, lexed⟩ := ih _ (Nat.lt_succ_self _) between later rfl
        exact ⟨tokens, lexed.blank space⟩
      | false =>
        obtain ⟨token, own, others, same, spelled, ends⟩ :=
          beginsWithToken_of_reads between space reads
        rw [same] at reads ih ⊢
        obtain ⟨next, nextBetween, -, later⟩ := exists_takes between spelled ends reads
        have shorter : others.length < (own ++ others).length := by
          rw [List.length_append]
          exact Nat.lt_add_of_pos_left (List.length_pos_iff.mpr spelled.ne_nil)
        obtain ⟨tokens, lexed⟩ := ih _ shorter nextBetween later rfl
        exact ⟨token :: tokens, .token (blanks_replicate 0) spelled ends lexed⟩

end Reader

end AvroIdl.Json
