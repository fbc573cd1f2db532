import AvroIdl.Proofs.Json.Grammar
import AvroIdl.Proofs.Json.Lockstep

/-
Taking the comments out of a text leaves the same tokens, with blanks in their gaps.
-/
set_option autoImplicit false

namespace AvroIdl.Json

open Text

theorem encode_blanks (n : Nat) :
    encode (List.replicate n ' ') = List.replicate n CommentScan.blank := by
  have space : String.utf8EncodeChar ' ' = [CommentScan.blank] := rfl
  rw [encode, List.flatMap_replicate, space, List.flatten_replicate_singleton]

theorem blanks_replicate (n : Nat) : Blanks (List.replicate n ' ') := by
  intro c member
  rw [(List.mem_replicate.mp member).2]
  rfl

theorem Blanks.append {gap rest : List Char} (blanks : Blanks gap) (after : Blanks rest) :
    Blanks (gap ++ rest) := by
  intro c member
  rcases List.mem_append.mp member with first | second
  · exact blanks c first
  · exact after c second

theorem blanks_singleton {c : Char} (space : isSpace c = true) : Blanks [c] :=
  List.forall_mem_singleton.mpr space

namespace CommentScan

/-- Going over the text gives `plain` in its place, and leaves the scan at `next`. -/
def Gives (scan : CommentScan) (text plain : List Char) (next : CommentScan) : Prop :=
  ∀ bytes stripped, next.Strips bytes stripped →
    scan.Strips (encode text ++ bytes) (encode plain ++ stripped)

variable {scan middle next : CommentScan} {text plain more others : List Char}

theorem gives_nil (scan : CommentScan) : scan.Gives [] [] scan :=
  fun _ _ strips => strips

theorem Gives.append (first : scan.Gives text plain middle)
    (second : middle.Gives more others next) :
    scan.Gives (text ++ more) (plain ++ others) next := by
  intro bytes stripped strips
  rw [encode_append, encode_append, List.append_assoc, List.append_assoc]
  exact first _ _ (second _ _ strips)

theorem Gives.cons {c d : Char} (first : scan.Gives [c] [d] middle)
    (second : middle.Gives text plain next) : scan.Gives (c :: text) (d :: plain) next :=
  first.append second

theorem gives_ascii {c d : Char} (ascii : c.toNat < 0x80) (ascii' : d.toNat < 0x80)
    (stepped : scan.step (UInt8.ofNat c.toNat) = (some (UInt8.ofNat d.toNat), next)) :
    scan.Gives [c] [d] next := by
  intro bytes stripped strips
  rw [encode_cons_of_ascii ascii, encode_cons_of_ascii ascii']
  refine strips_cons_iff.mpr ⟨_, _, rfl, ?_, ?_⟩
  · rw [stepped]
  · rw [stepped]
    exact strips

/-- Bytes that do not move the scan are taken out one by one, or left. -/
theorem strips_each {f : UInt8 → UInt8} {taken bytes stripped : List UInt8}
    (each : ∀ byte ∈ taken, scan.step byte = (some (f byte), scan))
    (strips : scan.Strips bytes stripped) :
    scan.Strips (taken ++ bytes) (taken.map f ++ stripped) := by
  induction taken with
  | nil => exact strips
  | cons byte taken ih =>
    rw [List.forall_mem_cons] at each
    refine strips_cons_iff.mpr ⟨_, _, rfl, ?_, ?_⟩
    · rw [each.1]
    · rw [each.1]
      exact ih each.2

theorem gives_kept {text : List Char}
    (kept : ∀ byte ∈ encode text, scan.step byte = (some byte, scan)) :
    scan.Gives text text scan := by
  intro bytes stripped strips
  have same := strips_each (f := id) kept strips
  rwa [List.map_id] at same

/-- In a comment every byte of a character that is not ASCII gives a blank. -/
theorem gives_wide {c : Char} (wide : 0x80 ≤ c.toNat)
    (first : ∀ byte : UInt8, 0x80 ≤ byte.toNat → scan.step byte = (some blank, next))
    (later : ∀ byte : UInt8, 0x80 ≤ byte.toNat → next.step byte = (some blank, next)) :
    ∃ plain, Blanks plain ∧ scan.Gives [c] plain next := by
  have large : ∀ byte ∈ String.utf8EncodeChar c, 0x80 ≤ byte.toNat :=
    fun byte member => le_of_mem_utf8EncodeChar wide member
  refine ⟨List.replicate (String.utf8EncodeChar c).length ' ', blanks_replicate _, ?_⟩
  intro bytes stripped strips
  rw [encode_blanks, encode, List.flatMap_singleton]
  cases isEncoded : String.utf8EncodeChar c with
  | nil =>
    have size := String.length_utf8EncodeChar c
    rw [isEncoded, List.length_nil] at size
    exact absurd size.symm (Nat.pos_iff_ne_zero.mp (Char.utf8Size_pos c))
  | cons byte rest =>
    rw [isEncoded, List.forall_mem_cons] at large
    rw [List.length_cons, List.replicate_succ, ← List.map_const']
    refine strips_cons_iff.mpr ⟨_, _, rfl, ?_, ?_⟩
    · rw [first byte large.1]
    · rw [first byte large.1]
      exact strips_each (fun other member => later other (large.2 other member)) strips

/-- The scan is in a block comment, and a slash does not end it if none comes next. -/
def InBlock (scan : CommentScan) (body : List Char) : Prop :=
  scan = .block ∨ (scan = .star ∧ body.head? ≠ some '/')

theorem step_block_of_wide (inBlock : scan = .block ∨ scan = .star) (byte : UInt8)
    (wide : 0x80 ≤ byte.toNat) : scan.step byte = (some blank, .block) := by
  have asterisk : Char.ofUInt8 byte ≠ '*' := ofUInt8_ne wide (by decide)
  have slash : Char.ofUInt8 byte ≠ '/' := ofUInt8_ne wide (by decide)
  rcases inBlock with rfl | rfl
  · unfold step
    split <;> first | rfl | contradiction
  · unfold step
    split <;> first | rfl | contradiction

theorem step_block_of_ne {c : Char} (ascii : c.toNat < 0x80) (asterisk : c ≠ '*')
    (inBlock : scan = .block ∨ (scan = .star ∧ c ≠ '/')) :
    scan.step (UInt8.ofNat c.toNat) = (some blank, .block) := by
  rcases inBlock with rfl | ⟨rfl, slash⟩
  · unfold step
    rw [ofUInt8_of_ascii ascii]
    split <;> first | rfl | contradiction
  · unfold step
    rw [ofUInt8_of_ascii ascii]
    split <;> first | rfl | contradiction

theorem gives_in_block {c : Char} {rest : List Char} (inBlock : scan.InBlock (c :: rest))
    (inside : ¬ ['*', '/'] <:+: c :: rest) :
    ∃ plain next, Blanks plain ∧ scan.Gives [c] plain next ∧ next.InBlock rest := by
  have among : scan = .block ∨ scan = .star := inBlock.imp_right And.left
  by_cases ascii : c.toNat < 0x80
  · refine ⟨[' '], ?_⟩
    by_cases asterisk : c = '*'
    · subst asterisk
      -- Were a slash next, the body would hold the end of the comment.
      refine ⟨.star, blanks_singleton rfl, gives_ascii ascii (by decide) ?_, .inr ⟨rfl, ?_⟩⟩
      · rcases among with rfl | rfl <;> rfl
      · intro closes
        obtain ⟨after, rfl⟩ := List.head?_eq_some_iff.mp closes
        exact inside ⟨[], after, rfl⟩
    · refine ⟨.block, blanks_singleton rfl, gives_ascii ascii (by decide) ?_, .inl rfl⟩
      refine step_block_of_ne ascii asterisk (inBlock.imp_right ?_)
      rintro ⟨isStar, noSlash⟩
      exact ⟨isStar, fun same => noSlash (by rw [same, List.head?_cons])⟩
  · obtain ⟨plain, blanks, gives⟩ := gives_wide (Nat.not_lt.mp ascii) (step_block_of_wide among)
      (step_block_of_wide (.inl rfl))
    exact ⟨plain, .block, blanks, gives, .inl rfl⟩

/-- A block comment is taken out up to its end. -/
theorem gives_block {body : List Char} (inBlock : scan.InBlock body)
    (inside : ¬ ['*', '/'] <:+: body) :
    ∃ plain, Blanks plain ∧ scan.Gives (body ++ ['*', '/']) plain .outside := by
  induction body generalizing scan with
  | nil =>
    have among : scan = .block ∨ scan = .star := inBlock.imp_right And.left
    have opens : scan.Gives ['*'] [' '] .star := by
      refine gives_ascii (by decide) (by decide) ?_
      rcases among with rfl | rfl <;> rfl
    have closes : star.Gives ['/'] [' '] .outside := gives_ascii (by decide) (by decide) rfl
    exact ⟨[' ', ' '], blanks_replicate 2, opens.cons closes⟩
  | cons c rest ih =>
    obtain ⟨first, next, blanks, gives, stays⟩ := gives_in_block inBlock inside
    have within : ¬ ['*', '/'] <:+: rest := fun found =>
      inside (found.trans (List.infix_cons List.infix_rfl))
    obtain ⟨others, blanks', gives'⟩ := ih stays within
    exact ⟨first ++ others, blanks.append blanks', gives.append gives'⟩

theorem gives_in_line {c : Char} (stays : c ≠ '\n') :
    ∃ plain, Blanks plain ∧ line.Gives [c] plain .line := by
  by_cases ascii : c.toNat < 0x80
  · refine ⟨[' '], blanks_singleton rfl, gives_ascii ascii (by decide) ?_⟩
    unfold step
    rw [ofUInt8_of_ascii ascii]
    split <;> first | rfl | contradiction
  · have wide : ∀ byte : UInt8, 0x80 ≤ byte.toNat → line.step byte = (some blank, .line) := by
      intro byte large
      have newline : Char.ofUInt8 byte ≠ '\n' := ofUInt8_ne large (by decide)
      unfold step
      split <;> first | rfl | contradiction
    exact gives_wide (Nat.not_lt.mp ascii) wide wide

/-- A line comment is taken out as far as the line goes. -/
theorem gives_line {body : List Char} (inside : '\n' ∉ body) :
    ∃ plain, Blanks plain ∧ line.Gives body plain .line := by
  induction body with
  | nil => exact ⟨[], blanks_replicate 0, gives_nil _⟩
  | cons c rest ih =>
    rw [List.mem_cons, not_or] at inside
    obtain ⟨first, blanks, gives⟩ := gives_in_line (Ne.symm inside.1)
    obtain ⟨others, blanks', gives'⟩ := ih inside.2
    exact ⟨first ++ others, blanks.append blanks', gives.append gives'⟩

theorem gives_opening (mark : Char) (scan : CommentScan) (ascii : mark.toNat < 0x80)
    (opens : slash.step (UInt8.ofNat mark.toNat) = (some blank, scan)) :
    outside.Gives ['/', mark] [' ', ' '] scan :=
  have begins : outside.Gives ['/'] [' '] .slash := gives_ascii (by decide) (by decide) rfl
  begins.cons (gives_ascii ascii (by decide) opens)

theorem gives_backslash : string.Gives ['\\'] ['\\'] .escape :=
  gives_ascii (by decide) (by decide) rfl

theorem gives_escaped {c : Char} (ascii : c.toNat < 0x80) : escape.Gives [c] [c] .string :=
  gives_ascii ascii ascii rfl

theorem gives_plain {text : List Char} (plain : ∀ c ∈ text, isPlain c = true) :
    string.Gives text text .string := by
  refine gives_kept fun byte member => ?_
  obtain ⟨c, inText, inChar⟩ := List.mem_flatMap.mp member
  obtain ⟨quote, slash, -⟩ := isPlain_iff.mp ((isPlain_iff_bytes c).mp (plain c inText) byte inChar)
  exact step_string_of_ne quote slash

end CommentScan

open CommentScan

/-- A gap is taken out, and is no shorter then. -/
theorem Gap.gives {gap : List Char} (isGap : Gap gap) :
    ∃ plain, Blanks plain ∧ (plain = [] → gap = []) ∧ Gives .outside gap plain .outside := by
  induction isGap with
  | nil => exact ⟨[], blanks_replicate 0, fun _ => rfl, gives_nil _⟩
  | @space c rest isSpace after ih =>
    obtain ⟨plain, blanks, -, gives⟩ := ih
    have kept : Gives .outside [c] [c] .outside := by
      rcases isSpace_iff.mp isSpace with rfl | rfl | rfl | rfl <;>
        exact gives_ascii (by decide) (by decide) rfl
    exact ⟨c :: plain, (blanks_singleton isSpace).append blanks, nofun, kept.cons gives⟩
  | @block body rest inside after ih =>
    obtain ⟨plain, blanks, -, gives⟩ := ih
    have opens : Gives .outside ['/', '*'] [' ', ' '] .block :=
      gives_opening '*' .block (by decide) rfl
    obtain ⟨taken, blanks', closes⟩ := gives_block (.inl rfl) inside
    refine ⟨[' ', ' '] ++ (taken ++ plain), (blanks_replicate 2).append (blanks'.append blanks),
      nofun, ?_⟩
    have whole := opens.append (closes.append gives)
    rwa [List.append_assoc] at whole
  | @line body rest inside after ih =>
    obtain ⟨plain, blanks, -, gives⟩ := ih
    have opens : Gives .outside ['/', '/'] [' ', ' '] .line :=
      gives_opening '/' .line (by decide) rfl
    obtain ⟨taken, blanks', goes⟩ := gives_line inside
    have ends : Gives .line ['\n'] ['\n'] .outside := gives_ascii (by decide) (by decide) rfl
    refine ⟨[' ', ' '] ++ (taken ++ '\n' :: plain), ?_, nofun,
      opens.append (goes.append (ends.cons gives))⟩
    exact (blanks_replicate 2).append (blanks'.append ((blanks_singleton rfl).append blanks))

theorem LastGap.strips {gap : List Char} (isLast : LastGap gap) :
    ∃ plain, Blanks plain ∧ (plain = [] → gap = []) ∧
      CommentScan.Strips .outside (encode gap) (encode plain) := by
  have closed : ∀ {scan : CommentScan} {text plain : List Char}, scan.mayEnd = true →
      Gives .outside text plain scan →
        CommentScan.Strips .outside (encode text) (encode plain) := by
    intro scan text plain ends gives
    have strips := gives [] [] (strips_nil_iff.mpr ⟨rfl, ends⟩)
    rwa [List.append_nil, List.append_nil] at strips
  cases isLast with
  | gap isGap =>
    obtain ⟨plain, blanks, same, gives⟩ := isGap.gives
    exact ⟨plain, blanks, same, closed rfl gives⟩
  | @line gap body isGap inside =>
    obtain ⟨plain, blanks, -, gives⟩ := isGap.gives
    have opens : Gives .outside ['/', '/'] [' ', ' '] .line :=
      gives_opening '/' .line (by decide) rfl
    obtain ⟨taken, blanks', goes⟩ := gives_line inside
    refine ⟨plain ++ ([' ', ' '] ++ taken), blanks.append ((blanks_replicate 2).append blanks'), ?_,
      closed rfl (gives.append (opens.append goes))⟩
    intro isNil
    exact absurd (List.append_eq_nil_iff.mp isNil).2 nofun

theorem isPlain_of_isHexDigit {c : Char} {value : Nat} (digit : IsHexDigit c value) :
    isPlain c = true := by
  have all : ∀ n < 16, isPlain (Nat.digitChar n) = true ∧
      isPlain (Nat.digitChar n).toUpper = true := by
    decide
  obtain ⟨small, rfl | rfl⟩ := digit
  · exact (all value small).1
  · exact (all value small).2

theorem CodeUnit.plain {digits : List Char} {unit : Nat} (named : CodeUnit digits unit) :
    ∀ c ∈ digits, isPlain c = true := by
  obtain ⟨first, second, third, fourth⟩ := named
  simp only [List.forall_mem_cons]
  exact ⟨isPlain_of_isHexDigit first, isPlain_of_isHexDigit second, isPlain_of_isHexDigit third,
    isPlain_of_isHexDigit fourth, fun _ impossible => nomatch impossible⟩

/-- An escape of a code unit, up to its end. -/
theorem CodeUnit.gives {digits : List Char} {unit : Nat} (named : CodeUnit digits unit)
    {inner : List Char} (after : Gives .string inner inner .string) :
    Gives .string ('\\' :: 'u' :: (digits ++ inner)) ('\\' :: 'u' :: (digits ++ inner)) .string :=
  have mark : Gives .escape ['u'] ['u'] .string := gives_escaped (by decide)
  gives_backslash.cons (mark.cons ((gives_plain named.plain).append after))

/-- The scan stays in a string as long as the string goes on. -/
theorem Quotes.gives {inner text : List Char} (quotes : Quotes inner text) :
    Gives .string inner inner .string := by
  induction quotes with
  | nil => exact gives_nil _
  | plain plain _ ih => exact (gives_plain (List.forall_mem_singleton.mpr plain)).cons ih
  | short short _ ih =>
    exact gives_backslash.cons ((gives_escaped (ascii_of_shortEscape? short).1).cons ih)
  | unit named _ _ ih => exact named.gives ih
  | pair highNamed _ lowNamed _ _ ih => exact highNamed.gives (lowNamed.gives ih)

theorem gives_outside {text : List Char} (ascii : ∀ c ∈ text, c.toNat < 0x80)
    (noQuote : '"' ∉ text) (noSlash : '/' ∉ text) : Gives .outside text text .outside := by
  refine gives_kept fun byte member => ?_
  obtain ⟨c, inText, inChar⟩ := List.mem_flatMap.mp member
  rw [utf8EncodeChar_of_ascii (ascii c inText)] at inChar
  rw [List.mem_singleton.mp inChar]
  have quote : c ≠ '"' := fun same => noQuote (same ▸ inText)
  have slash : c ≠ '/' := fun same => noSlash (same ▸ inText)
  unfold step
  rw [ofUInt8_of_ascii (ascii c inText)]
  split <;> first | rfl | contradiction

theorem Token.Spelled.gives {token : Token} {text : List Char} (spelled : token.Spelled text) :
    Gives .outside text text .outside := by
  cases spelled with
  | number n =>
    exact gives_outside n.ascii (n.not_mem_text rfl (by decide) (by decide))
      (n.not_mem_text rfl (by decide) (by decide))
  | string quotes =>
    have opens : Gives .outside ['"'] ['"'] .string := gives_ascii (by decide) (by decide) rfl
    have closes : Gives .string ['"'] ['"'] .outside := gives_ascii (by decide) (by decide) rfl
    exact opens.cons (quotes.gives.append closes)
  | _ => exact gives_outside (by simp) (by decide) (by decide)

theorem continuesNumber_of_isSpace {c : Char} (space : isSpace c = true) :
    Token.continuesNumber c = false := by
  rcases isSpace_iff.mp space with rfl | rfl | rfl | rfl <;> rfl

/-- A token ends before a gap with its comments taken out if it ends before the gap. -/
theorem Token.EndsBefore.blanks {token : Token} {gap plain rest others : List Char}
    (ends : token.EndsBefore (gap ++ rest)) (blanks : Blanks plain) (same : plain = [] → gap = [])
    (first : rest.head? = others.head?) : token.EndsBefore (plain ++ others) := by
  cases token with
  | number n =>
    intro c isFirst
    cases plain with
    | nil =>
      rw [same rfl, List.nil_append] at ends
      exact ends c (first ▸ isFirst)
    | cons d plain =>
      rw [← Option.some.inj isFirst]
      exact continuesNumber_of_isSpace (blanks d List.mem_cons_self)
  | _ => trivial

/-- With its comments taken out a text has the same tokens. -/
theorem Lexed.strips {tokens : List Token} {text : List Char}
    (lexed : Lexed Gap LastGap tokens text) :
    ∃ plain, Lexed Blanks Blanks tokens plain ∧
      (∀ token : Token, token.EndsBefore text → token.EndsBefore plain) ∧
      CommentScan.Strips .outside (encode text) (encode plain) := by
  induction lexed with
  | @last gap isLast =>
    obtain ⟨plain, blanks, same, strips⟩ := isLast.strips
    refine ⟨plain, .last blanks, fun token ends => ?_, strips⟩
    rw [← List.append_nil gap] at ends
    rw [← List.append_nil plain]
    exact ends.blanks blanks same rfl
  | @token token tokens gap text rest isGap spelled ends after ih =>
    obtain ⟨plain, lexed, kept, strips⟩ := ih
    obtain ⟨blanked, blanks, same, gives⟩ := isGap.gives
    refine ⟨blanked ++ (text ++ plain), .token blanks spelled (kept token ends) lexed, ?_, ?_⟩
    · intro other ends
      obtain ⟨c, others, rfl⟩ := List.exists_cons_of_ne_nil spelled.ne_nil
      exact ends.blanks blanks same rfl
    · rw [encode_append, encode_append, encode_append, encode_append]
      exact gives _ _ (spelled.gives _ _ strips)

end AvroIdl.Json
