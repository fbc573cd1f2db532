import AvroIdl.Json.Reader
import AvroIdl.Proofs.Json.Blanked

/-
The reader does the same on a source with its comments taken out as on one with its comments
blanked. The two differ where a line breaks inside a comment, and there the reader is outside of
strings, or in an escape that is already broken.
-/
set_option autoImplicit false

namespace AvroIdl.Json

namespace Reader

/-- What a run over bytes that can all be read comes to: a value, or a cause and the number of
bytes looked at. -/
def outcome : Reader → List UInt8 → Except (Cause × Nat) Json
  | r, [] => r.finish.mapError fun cause => (cause, 0)
  | r, byte :: rest =>
    match r.step byte with
    | .ok next => (outcome next rest).mapError fun e => (e.1, e.2 + 1)
    | .error cause => .error (cause, 1)

variable {r next : Reader} {bytes : List UInt8}

theorem run_eq_outcome (r : Reader) (p : Position) (bytes : List UInt8) :
    r.run true p (bytes.map some) =
      (r.outcome bytes).mapError fun e => ⟨e.1, some (p.after (bytes.take e.2))⟩ := by
  induction bytes generalizing r p with
  | nil =>
    rw [List.map_nil, run, outcome, if_pos rfl]
    cases r.finish <;> rfl
  | cons byte rest ih =>
    rw [List.map_cons, run, outcome]
    cases r.step byte with
    | error cause => rfl
    | ok next =>
      dsimp only
      rw [ih]
      cases next.outcome rest <;> rfl

theorem le_length_of_outcome {cause : Cause} {n : Nat}
    (failed : r.outcome bytes = .error (cause, n)) : n ≤ bytes.length := by
  induction bytes generalizing r n with
  | nil =>
    rw [outcome] at failed
    cases finished : r.finish with
    | ok value =>
      rw [finished] at failed
      cases failed
    | error other =>
      rw [finished] at failed
      cases failed
      exact Nat.le_refl 0
  | cons byte rest ih =>
    rw [outcome] at failed
    cases stepped : r.step byte with
    | error other =>
      rw [stepped] at failed
      cases failed
      exact Nat.succ_le_succ (Nat.zero_le _)
    | ok next =>
      rw [stepped] at failed
      cases later : next.outcome rest with
      | ok value =>
        simp only [later] at failed
        cases failed
      | error e =>
        simp only [later] at failed
        cases failed
        exact Nat.succ_le_succ (ih later)

/-- The part of a string that the reader is in, if it is in one. -/
def part? (r : Reader) : Option StringPart :=
  match r.mode with
  | .string part _ | .key _ part _ => some part
  | .between _ | .literal _ _ _ | .number _ _ => none

def taken (r : Reader) : List UInt8 :=
  match r.mode with
  | .string _ bytes | .key _ _ bytes => bytes
  | .between _ | .literal _ _ _ | .number _ _ => []

/-- The reader is in no string, and waits for letters if it waits for characters. -/
def Outside (r : Reader) : Prop :=
  match r.mode with
  | .between _ | .number _ _ => True
  | .literal next rest _ => ∀ c ∈ next :: rest, c.isAlpha = true
  | .string _ _ | .key _ _ _ => False

/-- Outside of strings a line break is as good as a blank. -/
theorem step_break (outside : r.Outside) : r.step 0x0a = r.step 0x20 := by
  obtain ⟨waiting, mode⟩ := r
  cases mode with
  | between place => rfl
  | literal next rest value =>
    have letter := outside next List.mem_cons_self
    have noBreak : Char.ofUInt8 0x0a ≠ next := by
      rintro rfl
      exact absurd letter (by decide)
    have noBlank : Char.ofUInt8 0x20 ≠ next := by
      rintro rfl
      exact absurd letter (by decide)
    rw [step, step]
    dsimp only
    rw [if_pos noBreak, if_pos noBlank]
  | number part text => cases part <;> rfl
  | string | key => exact outside.elim

/-- Where the reader stands after a byte outside of strings: in a new string after a quote, and
outside after all others. -/
def Opened (byte : UInt8) (next : Reader) : Prop :=
  (Char.ofUInt8 byte = '"' ∧ next.part? = some .plain) ∨
    (Char.ofUInt8 byte ≠ '"' ∧ next.Outside)

theorem opened_beginValue {waiting : List Frame} {byte : UInt8}
    (begun : beginValue waiting byte = .ok next) : Opened byte next := by
  revert begun
  fun_cases beginValue waiting byte with
  | case1 sign | case2 sign | case3 sign =>
    rintro ⟨⟩
    exact .inr ⟨by rw [sign]; decide, by simp [Outside]⟩
  | case4 sign | case6 sign | case8 sign =>
    rintro ⟨⟩
    exact .inr ⟨by rw [sign]; decide, trivial⟩
  | case5 isQuote =>
    rintro ⟨⟩
    exact .inl ⟨isQuote, rfl⟩
  | case10 _ _ _ _ noQuote | case11 _ _ _ _ noQuote =>
    rintro ⟨⟩
    exact .inr ⟨noQuote, trivial⟩
  | case7 | case9 | case12 => rintro ⟨⟩

theorem opened_stepPlace {waiting : List Frame} {place : Place} {byte : UInt8}
    (stepped : stepPlace waiting place byte = .ok next) : Opened byte next := by
  revert stepped
  fun_cases stepPlace waiting place byte with
  | case1 | case3 | case5 => exact opened_beginValue
  | case2 sign | case6 _ sign | case7 _ sign | case9 sign | case15 _ sign | case16 _ sign
  | case18 _ _ sign =>
    rintro ⟨⟩
    exact .inr ⟨by rw [sign]; decide, trivial⟩
  | case10 isQuote | case13 _ isQuote =>
    rintro ⟨⟩
    exact .inl ⟨isQuote, rfl⟩
  | case4 | case8 | case11 | case12 | case14 | case17 | case19 | case20 => rintro ⟨⟩

theorem isBlank_of_quote {byte : UInt8} (isQuote : Char.ofUInt8 byte = '"') :
    isBlank byte = false := by
  have same : byte = 0x22 := Text.eq_of_ofUInt8 isQuote
  rw [same]
  rfl

theorem opened_stepBetween {waiting : List Frame} {place : Place} {byte : UInt8}
    (stepped : stepBetween waiting place byte = .ok next) : Opened byte next := by
  rw [stepBetween] at stepped
  split at stepped
  · rename_i blank
    cases stepped
    refine .inr ⟨?_, trivial⟩
    intro isQuote
    rw [isBlank_of_quote isQuote] at blank
    cases blank
  · exact opened_stepPlace stepped

theorem ne_quote_of_isDigit {c : Char} (digit : c.isDigit = true) : c ≠ '"' := by
  rintro rfl
  exact absurd digit (by decide)

theorem opened_stepNumber {waiting : List Frame} {part : NumberPart} {text : List Char}
    {byte : UInt8} (stepped : stepNumber waiting part text byte = .ok next) : Opened byte next := by
  have ends : endNumber waiting text byte = .ok next → Opened byte next := opened_stepBetween
  revert stepped
  fun_cases stepNumber waiting part text byte with
  | case7 | case11 | case16 | case23 => exact ends
  | case1 _ _ sign | case5 _ _ _ sign | case9 _ _ _ sign =>
    rintro ⟨⟩
    exact .inr ⟨fun isQuote => absurd (sign.symm.trans isQuote) (by decide), trivial⟩
  | case6 _ _ _ _ sign | case10 _ _ _ _ sign | case15 _ _ _ sign | case17 _ _ sign =>
    rintro ⟨⟩
    refine .inr ⟨fun isQuote => ?_, trivial⟩
    rcases sign with sign | sign <;> exact absurd (sign.symm.trans isQuote) (by decide)
  | case2 _ _ _ digit | case8 _ _ digit | case12 _ _ digit | case14 _ _ digit
  | case18 _ _ _ digit | case20 _ _ digit | case22 _ _ digit =>
    rintro ⟨⟩
    exact .inr ⟨ne_quote_of_isDigit digit, trivial⟩
  | _ => rintro ⟨⟩

theorem opened_of_step {byte : UInt8} (outside : r.Outside) (stepped : r.step byte = .ok next) :
    Opened byte next := by
  obtain ⟨waiting, mode⟩ := r
  rw [step] at stepped
  cases mode with
  | between place => exact opened_stepBetween stepped
  | number part text => exact opened_stepNumber stepped
  | string | key => exact outside.elim
  | literal first rest value =>
    dsimp only at stepped
    split at stepped
    · cases stepped
    · rename_i same
      rw [ne_eq, Decidable.not_not] at same
      have letter := outside first List.mem_cons_self
      have noQuote : Char.ofUInt8 byte ≠ '"' := by
        rw [same]
        rintro rfl
        exact absurd letter (by decide)
      cases rest with
      | nil =>
        cases stepped
        exact .inr ⟨noQuote, trivial⟩
      | cons second rest =>
        cases stepped
        exact .inr ⟨noQuote, fun c member => outside c (List.mem_cons_of_mem _ member)⟩

/-- What a byte in a string does: it is refused, leads to another part of the string, or closes
it. -/
theorem step_inside {part : StringPart} (inside : r.part? = some part) (byte : UInt8) :
    match stepString part r.taken byte with
    | .error cause => r.step byte = .error cause
    | .ok (.more part _) => ∃ next, r.step byte = .ok next ∧ next.part? = some part
    | .ok (.closed _) => ∀ next, r.step byte = .ok next → next.Outside := by
  obtain ⟨waiting, mode⟩ := r
  cases mode with
  | string own taken | key members own taken =>
    cases inside
    rw [step]
    dsimp only [Reader.taken]
    cases stepString part taken byte with
    | error cause => rfl
    | ok result =>
      cases result with
      | more part taken => exact ⟨_, rfl, rfl⟩
      | closed taken =>
        dsimp only
        cases closeString taken with
        | error cause => rintro next ⟨⟩
        | ok text =>
          rintro next ⟨⟩
          trivial
  | _ => cases inside

/-- Digits of an escape that name nothing. -/
def Broken (digits : List UInt8) : Prop :=
  ∃ digit ∈ digits, hexValue? digit = none

theorem foldl_hexNumber_none (digits : List UInt8) :
    digits.foldl (fun n d => n.bind fun n => (hexValue? d).map (16 * n + ·)) none = none := by
  induction digits with
  | nil => rfl
  | cons digit rest ih => exact ih

theorem hexNumber?_of_broken {digits : List UInt8} (broken : Broken digits) :
    hexNumber? digits = none := by
  obtain ⟨digit, member, isNone⟩ := broken
  obtain ⟨before, after, rfl⟩ := List.append_of_mem member
  rw [hexNumber?, List.foldl_append, List.foldl_cons, isNone]
  cases before.foldl (fun n d => n.bind fun n => (hexValue? d).map (16 * n + ·)) (some 0) <;>
    exact foldl_hexNumber_none after

/-- Once a digit of an escape is wrong, the other bytes only count. -/
theorem outcome_of_broken {high : Option Nat} {digits : List UInt8}
    (inside : r.part? = some (.hex high digits)) (broken : Broken digits)
    (few : digits.length ≤ 3) (bytes : List UInt8) :
    r.outcome bytes =
      if 4 - digits.length ≤ bytes.length then .error (.invalidEscape, 4 - digits.length)
      else .error (.endInString, bytes.length) := by
  induction bytes generalizing r digits with
  | nil =>
    have ends : r.finish = .error .endInString := by
      obtain ⟨waiting, mode⟩ := r
      cases mode <;> first | rfl | cases inside
    rw [outcome, ends, if_neg]
    · rfl
    · rw [List.length_nil]
      omega
  | cons byte rest ih =>
    have longer : Broken (digits ++ [byte]) := by
      obtain ⟨digit, member, isNone⟩ := broken
      exact ⟨digit, List.mem_append_left _ member, isNone⟩
    have stepped := step_inside inside byte
    rw [stepString] at stepped
    by_cases more : digits.length < 3
    · rw [if_pos more] at stepped
      obtain ⟨next, isNext, nextInside⟩ := stepped
      rw [outcome, isNext]
      dsimp only
      rw [ih nextInside longer (by rw [List.length_append, List.length_singleton]; omega)]
      have counted : 4 - digits.length = 4 - (digits.length + 1) + 1 := by omega
      rw [List.length_append, List.length_singleton, List.length_cons, counted]
      simp only [Nat.add_le_add_iff_right]
      split <;> rfl
    · rw [if_neg more, hexNumber?_of_broken longer] at stepped
      have last : digits.length = 3 := by omega
      rw [outcome, stepped, last, if_pos (by rw [List.length_cons]; omega)]

theorem hexValue?_eq_none {byte : UInt8} {c : Char} (same : Char.ofUInt8 byte = c)
    (sign : c = '"' ∨ c = '\\') : hexValue? byte = none := by
  rw [hexValue?, same]
  rcases sign with rfl | rfl <;> decide

end Reader

namespace CommentScan

/-- The scan is in a string literal. -/
def quoted : CommentScan → Bool
  | .string | .escape => true
  | .outside | .slash | .block | .star | .line => false

theorem step_string_of_quote {byte : UInt8} (sign : Char.ofUInt8 byte = '"') :
    string.step byte = (some byte, .outside) := by
  simp [step, sign]

theorem step_string_of_backslash {byte : UInt8} (sign : Char.ofUInt8 byte = '\\') :
    string.step byte = (some byte, .escape) := by
  simp [step, sign]

theorem step_string_of_ne {byte : UInt8} (noQuote : Char.ofUInt8 byte ≠ '"')
    (noBackslash : Char.ofUInt8 byte ≠ '\\') : string.step byte = (some byte, .string) := by
  unfold step
  split <;> first | rfl | contradiction

theorem step_quoted {scan : CommentScan} (quoted : scan.quoted = true) (byte : UInt8) :
    (scan.step byte).1 = some byte := by
  fun_cases step scan byte <;> first | rfl | cases quoted

/-- Outside of strings a scan only gives a quote where a string begins. -/
theorem step_unquoted {scan : CommentScan} {byte first : UInt8} (unquoted : scan.quoted = false)
    (isFirst : (scan.step byte).1 = some first) :
    (Char.ofUInt8 first = '"' ∧ (scan.step byte).2 = .string) ∨
      (Char.ofUInt8 first ≠ '"' ∧ (scan.step byte).2.quoted = false) := by
  have noQuote : Char.ofUInt8 blank ≠ '"' := by decide
  revert isFirst
  fun_cases step scan byte <;> rintro ⟨⟩ <;> simp_all [CommentScan.quoted]

/-- A line break in a comment with both its ends is taken out with it. -/
def hidesBreak (scan : CommentScan) (byte : UInt8) : Bool :=
  match scan with
  | .block | .star => byte = 0x0a
  | .outside | .string | .escape | .slash | .line => false

/-- A byte that is given is the blanked one, except for line breaks that are taken out. -/
theorem eq_blankedByte_or {scan : CommentScan} {byte first : UInt8}
    (isFirst : (scan.step byte).1 = some first) :
    (scan.hidesBreak byte = false ∧ first = scan.blankedByte byte) ∨
      (scan.hidesBreak byte = true ∧ first = 0x20 ∧ scan.blankedByte byte = 0x0a) := by
  by_cases isBreak : byte = 0x0a
  · subst isBreak
    cases scan <;> cases isFirst <;> decide
  · have noBreak : Char.ofUInt8 byte ≠ '\n' := by
      intro sign
      have same : byte = 0x0a := Text.eq_of_ofUInt8 sign
      exact isBreak same
    revert isFirst
    fun_cases step scan byte <;> rintro ⟨⟩ <;>
      simp_all [hidesBreak, blankedByte, covers, inComment]

theorem unquoted_of_hidesBreak {scan : CommentScan} {byte : UInt8}
    (hides : scan.hidesBreak byte = true) : scan.quoted = false := by
  cases scan <;> first | rfl | cases hides

end CommentScan

namespace Reader

/-- The part of a string and the scan are in the same string. -/
def InStep (part : StringPart) (scan : CommentScan) : Prop :=
  match part with
  | .plain | .partner _ => scan = .string
  | .hex _ digits => scan = .string ∧ digits.length ≤ 3
  | .escape | .partnerMark _ => scan = .escape

/-- The reader is in a string if the scan is. -/
def Synced (r : Reader) (scan : CommentScan) : Prop :=
  match r.part? with
  | some part => InStep part scan
  | none => r.Outside ∧ scan.quoted = false

/-- The reader is in an escape that will be refused. -/
def Doomed (r : Reader) : Prop :=
  ∃ high digits, r.part? = some (.hex high digits) ∧ Broken digits ∧ digits.length ≤ 3

variable {r next : Reader} {scan : CommentScan} {byte first : UInt8}

theorem InStep.quoted {part : StringPart} (inStep : InStep part scan) : scan.quoted = true := by
  cases part with
  | plain | escape | partner | partnerMark =>
    cases inStep
    rfl
  | hex high digits =>
    obtain ⟨rfl, -⟩ := inStep
    rfl

theorem part?_of_outside (outside : r.Outside) : r.part? = none := by
  obtain ⟨waiting, mode⟩ := r
  cases mode <;> first | rfl | exact outside.elim

theorem Synced.outside (synced : r.Synced scan) (unquoted : scan.quoted = false) : r.Outside := by
  rw [Synced] at synced
  cases inside : r.part? with
  | none =>
    rw [inside] at synced
    exact synced.1
  | some part =>
    rw [inside] at synced
    rw [synced.quoted] at unquoted
    cases unquoted

theorem inStep_of_endHex {high : Option Nat} {unit : Nat} {bytes out : List UInt8}
    {next : StringPart} (ended : endHex high unit bytes = .ok (.more next out)) :
    InStep next .string := by
  revert ended
  fun_cases endHex high unit bytes <;> rintro ⟨⟩ <;> rfl

theorem inStep_of_more {part next : StringPart} {taken out : List UInt8}
    (inStep : InStep part scan) (more : stepString part taken byte = .ok (.more next out)) :
    InStep next (scan.step byte).2 ∨
      ∃ high digits, next = .hex high digits ∧ Broken digits ∧ digits.length ≤ 3 := by
  have next_of_hex : hexValue? byte ≠ none → (CommentScan.string.step byte).2 = .string := by
    intro isHex
    refine congrArg Prod.snd (CommentScan.step_string_of_ne ?_ ?_)
    · exact fun sign => isHex (hexValue?_eq_none sign (.inl rfl))
    · exact fun sign => isHex (hexValue?_eq_none sign (.inr rfl))
  revert more
  fun_cases stepString part taken byte with
  | case2 sign | case18 _ sign =>
    rintro ⟨⟩
    cases inStep
    exact .inl (congrArg Prod.snd (CommentScan.step_string_of_backslash sign))
  | case4 _ noQuote noBackslash =>
    rintro ⟨⟩
    cases inStep
    exact .inl (congrArg Prod.snd (CommentScan.step_string_of_ne noQuote noBackslash))
  | case5 | case6 | case7 | case8 | case9 | case10 | case11 | case12 =>
    rintro ⟨⟩
    cases inStep
    exact .inl rfl
  | case13 | case20 =>
    rintro ⟨⟩
    cases inStep
    exact .inl ⟨rfl, Nat.zero_le 3⟩
  | case15 high digits fewer =>
    rintro ⟨⟩
    obtain ⟨rfl, -⟩ := inStep
    have few : (digits ++ [byte]).length ≤ 3 := by
      rw [List.length_append, List.length_singleton]
      exact fewer
    by_cases wrong : hexValue? byte = none
    · exact .inr ⟨high, _, rfl, ⟨byte, List.mem_append_right _ List.mem_cons_self, wrong⟩, few⟩
    · exact .inl ⟨next_of_hex wrong, few⟩
  | case16 high digits _ unit number =>
    intro ended
    obtain ⟨rfl, -⟩ := inStep
    have isHex : hexValue? byte ≠ none := by
      intro wrong
      have none : hexNumber? (digits ++ [byte]) = none :=
        hexNumber?_of_broken ⟨byte, List.mem_append_right _ List.mem_cons_self, wrong⟩
      rw [number] at none
      cases none
    rw [next_of_hex isHex]
    exact .inl (inStep_of_endHex ended)
  | _ => rintro ⟨⟩

theorem unquoted_of_closed {part : StringPart} {taken out : List UInt8} (inStep : InStep part scan)
    (closed : stepString part taken byte = .ok (.closed out)) :
    (scan.step byte).2.quoted = false := by
  revert closed
  fun_cases stepString part taken byte with
  | case1 sign =>
    rintro ⟨⟩
    cases inStep
    rw [CommentScan.step_string_of_quote sign]
    rfl
  | case16 high digits _ unit number =>
    fun_cases endHex high unit taken <;> rintro ⟨⟩
  | _ => rintro ⟨⟩

/-- Reader and scan stay together, until an escape is broken. -/
theorem synced_of_step (synced : r.Synced scan) (isFirst : (scan.step byte).1 = some first)
    (stepped : r.step first = .ok next) : next.Synced (scan.step byte).2 ∨ next.Doomed := by
  rw [Synced] at synced
  cases inside : r.part? with
  | none =>
    rw [inside] at synced
    obtain ⟨outside, unquoted⟩ := synced
    rcases CommentScan.step_unquoted unquoted isFirst with ⟨isQuote, opens⟩ | ⟨noQuote, stays⟩
    · rcases opened_of_step outside stepped with ⟨-, plain⟩ | ⟨noQuote, -⟩
      · refine .inl ?_
        rw [Synced, plain]
        exact opens
      · exact absurd isQuote noQuote
    · rcases opened_of_step outside stepped with ⟨isQuote, -⟩ | ⟨-, still⟩
      · exact absurd isQuote noQuote
      · refine .inl ?_
        rw [Synced, part?_of_outside still]
        exact ⟨still, stays⟩
  | some part =>
    rw [inside] at synced
    rw [CommentScan.step_quoted synced.quoted] at isFirst
    cases isFirst
    have result := step_inside inside byte
    cases does : stepString part r.taken byte with
    | error cause =>
      rw [does] at result
      dsimp only at result
      rw [result] at stepped
      cases stepped
    | ok out =>
      cases out with
      | more after taken =>
        rw [does] at result
        obtain ⟨other, isNext, inOther⟩ := result
        cases stepped.symm.trans isNext
        rcases inStep_of_more synced does with stays | ⟨high, digits, rfl, broken, few⟩
        · refine .inl ?_
          rw [Synced, inOther]
          exact stays
        · exact .inr ⟨high, digits, inOther, broken, few⟩
      | closed taken =>
        rw [does] at result
        have still := result next stepped
        refine .inl ?_
        rw [Synced, part?_of_outside still]
        exact ⟨still, unquoted_of_closed synced does⟩

/-- What is read from a source with its comments blanked is what is read with them taken out. -/
theorem outcome_blanked {bytes stripped : List UInt8} (strips : scan.Strips bytes stripped)
    (synced : r.Synced scan) : r.outcome (scan.blanked bytes) = r.outcome stripped := by
  induction bytes generalizing scan stripped r with
  | nil =>
    obtain ⟨rfl, -⟩ := CommentScan.strips_nil_iff.mp strips
    rfl
  | cons byte rest ih =>
    obtain ⟨first, others, rfl, isFirst, later⟩ := CommentScan.strips_cons_iff.mp strips
    have same : r.step (scan.blankedByte byte) = r.step first := by
      rcases CommentScan.eq_blankedByte_or isFirst with ⟨-, rfl⟩ | ⟨hides, rfl, isBreak⟩
      · rfl
      · rw [isBreak]
        exact step_break (synced.outside (CommentScan.unquoted_of_hidesBreak hides))
    rw [CommentScan.blanked, outcome, outcome, same]
    cases stepped : r.step first with
    | error cause => rfl
    | ok next =>
      dsimp only
      rcases synced_of_step synced isFirst stepped with stays | ⟨high, digits, inside, broken, few⟩
      · rw [ih later stays]
      · rw [outcome_of_broken inside broken few, outcome_of_broken inside broken few,
          CommentScan.length_blanked, later.length_eq]

end Reader

end AvroIdl.Json
