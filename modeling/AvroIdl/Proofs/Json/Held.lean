import AvroIdl.Proofs.Json.Numeral

/-
What the reader has read so far. A property of values that goes from parts to wholes, and that
numbers have in the spelling that is kept, holds of every value that is read.
-/
set_option autoImplicit false

namespace AvroIdl.Json

/-- What is true of the scalars that are read, and of a value whose parts it is true of. -/
structure Hereditary (P : Json → Prop) : Prop where
  null : P .null
  bool (value : Bool) : P (.bool value)
  number (n : Numeral) : P (.number n.normal.token)
  string (text : String) : P (.string text)
  array {items : List Json} (each : ∀ item ∈ items, P item) : P (.array items)
  object {members : Members} (each : ∀ member ∈ members, P member.2) : P (.object members)

theorem forall_mem_insert {P : Json → Prop} {members : Members} {value : Json}
    (each : ∀ member ∈ members, P member.2) (new : P value) (key : String) :
    ∀ member ∈ members.insert key value, P member.2 := by
  induction members with
  | nil => exact List.forall_mem_singleton.mpr new
  | cons head rest ih =>
    obtain ⟨name, first⟩ := head
    obtain ⟨here, others⟩ := List.forall_mem_cons.mp each
    rw [Members.insert]
    split
    · exact List.forall_mem_cons.mpr ⟨new, others⟩
    · split
      · exact List.forall_mem_cons.mpr ⟨new, each⟩
      · exact List.forall_mem_cons.mpr ⟨here, ih others⟩

theorem mem_of_get? {members : Members} {key : String} {value : Json}
    (found : members.get? key = some value) : (key, value) ∈ members := by
  induction members with
  | nil => cases found
  | cons head rest ih =>
    obtain ⟨name, first⟩ := head
    rw [Members.get?] at found
    split at found
    · rename_i same
      cases found
      rw [same]
      exact List.mem_cons_self
    · exact List.mem_cons_of_mem _ (ih found)

inductive IsIntegral : List Char → Prop
  | positive {whole : List Char} (isWhole : IsWhole whole) : IsIntegral whole
  | negative {whole : List Char} (isWhole : IsWhole whole) : IsIntegral ('-' :: whole)

/-- A number without an exponent. -/
inductive IsDecimal : List Char → Prop
  | integral {text : List Char} (isIntegral : IsIntegral text) : IsDecimal text
  | fraction {whole digits : List Char} (isIntegral : IsIntegral whole)
      (isDigits : IsDigits digits) : IsDecimal (whole ++ '.' :: digits)

/-- What is kept of a number up to one of its parts. -/
inductive Begun : NumberPart → List Char → Prop
  | sign : Begun .sign ['-']
  | zero {text : List Char} (isIntegral : IsIntegral text) : Begun .zero text
  | whole {sign rest : List Char} {c : Char} (isSign : sign = [] ∨ sign = ['-'])
      (digit : c.isDigit = true) (nonzero : c ≠ '0') (more : ∀ d ∈ rest, d.isDigit = true) :
      Begun .whole (sign ++ c :: rest)
  | point {whole : List Char} (isIntegral : IsIntegral whole) : Begun .point (whole ++ ['.'])
  | fraction {whole digits : List Char} (isIntegral : IsIntegral whole)
      (isDigits : IsDigits digits) : Begun .fraction (whole ++ '.' :: digits)
  | exponent {decimal : List Char} (isDecimal : IsDecimal decimal) :
      Begun .exponent (decimal ++ ['e'])
  | exponentSign {decimal : List Char} {sign : Char} (isDecimal : IsDecimal decimal)
      (isSign : sign = '+' ∨ sign = '-') : Begun .exponentSign (decimal ++ ['e', sign])
  | exponentDigits {decimal digits : List Char} {sign : Char} (isDecimal : IsDecimal decimal)
      (isSign : sign = '+' ∨ sign = '-') (isDigits : IsDigits digits) :
      Begun .exponentDigits (decimal ++ 'e' :: sign :: digits)

theorem IsDigits.singleton {c : Char} (digit : c.isDigit = true) : IsDigits [c] :=
  ⟨List.cons_ne_nil _ _, List.forall_mem_singleton.mpr digit⟩

theorem IsDigits.concat {digits : List Char} {c : Char} (isDigits : IsDigits digits)
    (digit : c.isDigit = true) : IsDigits (digits ++ [c]) := by
  refine ⟨List.append_ne_nil_of_left_ne_nil isDigits.nonempty _, ?_⟩
  intro d member
  rcases List.mem_append.mp member with old | new
  · exact isDigits.only d old
  · rwa [List.mem_singleton.mp new]

theorem IsIntegral.exists_numeral {text : List Char} (isIntegral : IsIntegral text) :
    ∃ n : Numeral, n.fraction = none ∧ n.exponent = none ∧ n.text = text := by
  cases isIntegral with
  | positive isWhole =>
    refine ⟨⟨false, text, none, none, isWhole, nofun⟩, rfl, rfl, ?_⟩
    simp [Numeral.text, Numeral.signText, Numeral.fractionText, Numeral.exponentText]
  | @negative whole isWhole =>
    refine ⟨⟨true, whole, none, none, isWhole, nofun⟩, rfl, rfl, ?_⟩
    simp [Numeral.text, Numeral.signText, Numeral.fractionText, Numeral.exponentText]

theorem IsDecimal.exists_numeral {text : List Char} (isDecimal : IsDecimal text) :
    ∃ n : Numeral, n.exponent = none ∧ n.text = text := by
  cases isDecimal with
  | integral isIntegral =>
    obtain ⟨n, -, exponent, same⟩ := isIntegral.exists_numeral
    exact ⟨n, exponent, same⟩
  | @fraction whole digits isIntegral isDigits =>
    obtain ⟨n, fraction, exponent, rfl⟩ := isIntegral.exists_numeral
    refine ⟨⟨n.negative, n.whole, some digits, none, n.isWhole, ?_⟩, rfl, ?_⟩
    · rintro _ ⟨⟩
      exact isDigits
    · simp [Numeral.text, Numeral.signText, Numeral.fractionText, Numeral.exponentText, fraction,
        exponent]

theorem isIntegral_of_digits {sign rest : List Char} {c : Char} (isSign : sign = [] ∨ sign = ['-'])
    (digit : c.isDigit = true) (nonzero : c ≠ '0') (more : ∀ d ∈ rest, d.isDigit = true) :
    IsIntegral (sign ++ c :: rest) := by
  have isWhole := IsWhole.positive digit nonzero more
  rcases isSign with rfl | rfl
  · exact .positive isWhole
  · exact .negative isWhole

/-- A number that may end here is one that is kept as it is. -/
theorem Begun.exists_numeral {part : NumberPart} {text : List Char} (begun : Begun part text)
    (ends : part.mayEnd = true) : ∃ n : Numeral, n.normal.text = text := by
  have of_decimal : ∀ {text : List Char}, IsDecimal text → ∃ n : Numeral, n.normal.text = text := by
    intro text isDecimal
    obtain ⟨n, exponent, rfl⟩ := isDecimal.exists_numeral
    refine ⟨n, ?_⟩
    rw [n.text_normal, Numeral.text, Numeral.exponentText, Numeral.normal, Numeral.exponentText,
      exponent]
    rfl
  cases begun with
  | @exponentDigits decimal digits sign isDecimal isSign isDigits =>
    obtain ⟨n, exponent, rfl⟩ := isDecimal.exists_numeral
    have isSign' : ∀ c ∈ some sign, c = '+' ∨ c = '-' := by
      rintro _ ⟨⟩
      exact isSign
    refine ⟨{ n with exponent := some ⟨'e', some sign, digits, .inl rfl, isSign', isDigits⟩ }, ?_⟩
    rw [Numeral.text_normal, Numeral.text, Numeral.exponentText, Numeral.exponentText, exponent,
      List.append_nil]
    rfl
  | zero isIntegral => exact of_decimal (.integral isIntegral)
  | whole isSign digit nonzero more =>
    exact of_decimal (.integral (isIntegral_of_digits isSign digit nonzero more))
  | fraction isIntegral isDigits => exact of_decimal (.fraction isIntegral isDigits)
  | _ => cases ends

theorem Begun.isIntegral {part : NumberPart} {text : List Char} (begun : Begun part text)
    (before : part = .zero ∨ part = .whole) : IsIntegral text := by
  cases begun with
  | zero isIntegral => exact isIntegral
  | whole isSign digit nonzero more => exact isIntegral_of_digits isSign digit nonzero more
  | _ => simp at before

theorem Begun.isDecimal {part : NumberPart} {text : List Char} (begun : Begun part text)
    (before : part = .zero ∨ part = .whole ∨ part = .fraction) : IsDecimal text := by
  cases begun with
  | fraction isIntegral isDigits => exact .fraction isIntegral isDigits
  | zero isIntegral => exact .integral isIntegral
  | whole isSign digit nonzero more =>
    exact .integral (isIntegral_of_digits isSign digit nonzero more)
  | _ => simp at before

/-- The part that a digit leads to, other than a zero that nothing but a sign stands before. -/
def NumberPart.afterDigit : NumberPart → NumberPart
  | .sign => .whole
  | .point => .fraction
  | .exponent | .exponentSign => .exponentDigits
  | part => part

/-- One more digit. -/
theorem Begun.digit {part : NumberPart} {text : List Char} {c : Char} (begun : Begun part text)
    (digit : c.isDigit = true) (grows : part ≠ .zero ∧ part ≠ .exponent)
    (nonzero : part = .sign → c ≠ '0') : Begun part.afterDigit (text ++ [c]) := by
  cases begun with
  | sign =>
    exact .whole (.inr rfl) digit (nonzero rfl) (fun _ member => nomatch member)
  | zero => exact absurd rfl grows.1
  | @whole sign rest d isSign first nonzero' more =>
    rw [List.append_assoc]
    refine .whole isSign first nonzero' fun e member => ?_
    rcases List.mem_append.mp member with old | new
    · exact more e old
    · rwa [List.mem_singleton.mp new]
  | point isIntegral =>
    rw [List.append_assoc]
    exact .fraction isIntegral (.singleton digit)
  | fraction isIntegral isDigits =>
    rw [List.append_assoc]
    exact .fraction isIntegral (isDigits.concat digit)
  | exponent => exact absurd rfl grows.2
  | exponentSign isDecimal isSign =>
    rw [List.append_assoc]
    exact .exponentDigits isDecimal isSign (.singleton digit)
  | exponentDigits isDecimal isSign isDigits =>
    rw [List.append_assoc]
    exact .exponentDigits isDecimal isSign (isDigits.concat digit)

theorem Begun.zero_of_sign {text : List Char} (begun : Begun .sign text) :
    Begun .zero (text ++ ['0']) := by
  cases begun
  exact .zero (.negative .zero)

theorem Begun.sign_of_exponent {text : List Char} {c : Char} (begun : Begun .exponent text)
    (isSign : c = '+' ∨ c = '-') : Begun .exponentSign (text ++ [c]) := by
  cases begun with
  | exponent isDecimal =>
    rw [List.append_assoc]
    exact .exponentSign isDecimal isSign

/-- An exponent that begins with a digit gets a sign. -/
theorem Begun.digit_of_exponent {text : List Char} {c : Char} (begun : Begun .exponent text)
    (digit : c.isDigit = true) : Begun .exponentDigits (text ++ ['+'] ++ [c]) :=
  (begun.sign_of_exponent (.inl rfl)).digit digit (by simp) nofun

namespace Reader

variable (P : Json → Prop)

def FrameHolds : Frame → Prop
  | .list items => ∀ item ∈ items, P item
  | .object members _ => ∀ member ∈ members, P member.2

def PlaceHolds : Place → Prop
  | .listNext items | .listMore items => ∀ item ∈ items, P item
  | .objectNext members | .objectMore members | .colon members _ => ∀ member ∈ members, P member.2
  | .finished value => P value
  | .value | .listStart | .objectStart => True

def ModeHolds : Mode → Prop
  | .between place => PlaceHolds P place
  | .literal _ _ value => P value
  | .number part text => Begun part text.reverse
  | .key members _ _ => ∀ member ∈ members, P member.2
  | .string _ _ => True

/-- The property holds of all values that the reader has, and a number in the making can become
one that is kept. -/
structure Holds (r : Reader) : Prop where
  waiting : ∀ frame ∈ r.waiting, FrameHolds P frame
  mode : ModeHolds P r.mode

/-- If the reader goes on, the property holds of what it has. -/
def GoesOn (result : Except Cause Reader) : Prop :=
  ∀ next, result = .ok next → next.Holds P

variable {P}

theorem goesOn_error (cause : Cause) : GoesOn P (.error cause) := by
  rintro next ⟨⟩

theorem goesOn_ok {r : Reader} (holds : r.Holds P) : GoesOn P (.ok r) := by
  rintro next ⟨⟩
  exact holds

theorem goesOn_map {α : Type} {result : Except Cause α} {next : α → Reader}
    (holds : ∀ a, (next a).Holds P) : GoesOn P (result.map next) := by
  cases result with
  | error cause => exact goesOn_error cause
  | ok a => exact goesOn_ok (holds a)

variable {waiting : List Frame} {byte : UInt8} {text : List Char} {part : NumberPart}

theorem holds_cons (outer : ∀ frame ∈ waiting, FrameHolds P frame) {frame : Frame}
    (holds : FrameHolds P frame) : ∀ other ∈ frame :: waiting, FrameHolds P other :=
  List.forall_mem_cons.mpr ⟨holds, outer⟩

theorem holds_number (outer : ∀ frame ∈ waiting, FrameHolds P frame)
    (begun : Begun part text.reverse) : GoesOn P (.ok ⟨waiting, .number part text⟩) :=
  goesOn_ok ⟨outer, begun⟩

theorem holds_push (outer : ∀ frame ∈ waiting, FrameHolds P frame) {c : Char}
    (begun : Begun part (text.reverse ++ [c])) :
    GoesOn P (.ok ⟨waiting, .number part (c :: text)⟩) := by
  refine holds_number outer ?_
  rw [List.reverse_cons]
  exact begun

theorem complete_holds (outer : ∀ frame ∈ waiting, FrameHolds P frame) {value : Json}
    (holds : P value) :
    (∀ frame ∈ (complete waiting value).1, FrameHolds P frame) ∧
      PlaceHolds P (complete waiting value).2 := by
  cases waiting with
  | nil => exact ⟨List.forall_mem_nil _, holds⟩
  | cons frame rest =>
    obtain ⟨inner, others⟩ := List.forall_mem_cons.mp outer
    cases frame with
    | list items => exact ⟨others, List.forall_mem_cons.mpr ⟨holds, inner⟩⟩
    | object members key => exact ⟨others, forall_mem_insert inner holds key⟩

theorem completed_holds (outer : ∀ frame ∈ waiting, FrameHolds P frame) {value : Json}
    (holds : P value) : (completed waiting value).Holds P :=
  ⟨(complete_holds outer holds).1, (complete_holds outer holds).2⟩

theorem endPlace_holds {place : Place} (holds : PlaceHolds P place) {json : Json}
    (ended : endPlace place = .ok json) : P json := by
  cases place with
  | finished value =>
    cases ended
    exact holds
  | _ => cases ended

section Steps

variable (hereditary : Hereditary P)
include hereditary

theorem beginValue_holds (outer : ∀ frame ∈ waiting, FrameHolds P frame) :
    GoesOn P (beginValue waiting byte) := by
  fun_cases beginValue waiting byte with
  | case1 => exact goesOn_ok ⟨outer, hereditary.null⟩
  | case2 | case3 => exact goesOn_ok ⟨outer, hereditary.bool _⟩
  | case4 => exact holds_number outer .sign
  | case5 | case6 | case8 => exact goesOn_ok ⟨outer, trivial⟩
  | case10 => exact holds_number outer (.zero (.positive .zero))
  | case11 =>
    rename_i nonzero digit
    exact holds_number outer (.whole (.inl rfl) digit nonzero (List.forall_mem_nil _))
  | _ => exact goesOn_error _

theorem stepPlace_holds (outer : ∀ frame ∈ waiting, FrameHolds P frame) {place : Place}
    (holds : PlaceHolds P place) : GoesOn P (stepPlace waiting place byte) := by
  fun_cases stepPlace waiting place byte with
  | case1 => exact beginValue_holds hereditary outer
  | case2 => exact goesOn_ok (completed_holds outer (hereditary.array (List.forall_mem_nil _)))
  | case3 => exact beginValue_holds hereditary (holds_cons outer (List.forall_mem_nil _))
  | case5 => exact beginValue_holds hereditary (holds_cons outer holds)
  | case6 items =>
    refine goesOn_ok (completed_holds outer (hereditary.array ?_))
    exact fun item member => holds item (List.mem_reverse.mp member)
  | case7 => exact goesOn_ok ⟨outer, holds⟩
  | case9 => exact goesOn_ok (completed_holds outer (hereditary.object (List.forall_mem_nil _)))
  | case10 => exact goesOn_ok ⟨outer, List.forall_mem_nil _⟩
  | case13 => exact goesOn_ok ⟨outer, holds⟩
  | case15 => exact goesOn_ok (completed_holds outer (hereditary.object holds))
  | case16 => exact goesOn_ok ⟨outer, holds⟩
  | case18 => exact goesOn_ok ⟨holds_cons outer holds, trivial⟩
  | _ => exact goesOn_error _

theorem stepBetween_holds (outer : ∀ frame ∈ waiting, FrameHolds P frame) {place : Place}
    (holds : PlaceHolds P place) : GoesOn P (stepBetween waiting place byte) := by
  rw [stepBetween]
  split
  · exact goesOn_ok ⟨outer, holds⟩
  · exact stepPlace_holds hereditary outer holds

theorem holds_of_mayEnd (begun : Begun part text.reverse) (ends : part.mayEnd = true) :
    P (.number (String.ofList text.reverse)) := by
  obtain ⟨n, same⟩ := begun.exists_numeral ends
  rw [← same]
  exact hereditary.number n

theorem endNumber_holds (outer : ∀ frame ∈ waiting, FrameHolds P frame)
    (begun : Begun part text.reverse) (ends : part.mayEnd = true) :
    GoesOn P (endNumber waiting text byte) := by
  obtain ⟨frames, place⟩ := complete_holds outer (holds_of_mayEnd hereditary begun ends)
  exact stepBetween_holds hereditary frames place

/-- A byte is added to a number, ends it, or is a fault. -/
theorem stepNumber_holds (outer : ∀ frame ∈ waiting, FrameHolds P frame)
    (begun : Begun part text.reverse) : GoesOn P (stepNumber waiting part text byte) := by
  -- The cases are the branches in their order. What is not listed is a fault.
  fun_cases stepNumber waiting part text byte with
  | case1 c go zero =>
    rw [zero]
    exact holds_push outer begun.zero_of_sign
  | case2 c go nonzero digit =>
    exact holds_push outer (begun.digit digit (by simp) fun _ => nonzero)
  | case8 c go digit | case12 c go digit | case14 c go digit | case20 c go digit
  | case22 c go digit => exact holds_push outer (begun.digit digit (by simp) nofun)
  | case5 c go _ point =>
    rw [point]
    exact holds_push outer (.point (begun.isIntegral (.inl rfl)))
  | case9 c go _ point =>
    rw [point]
    exact holds_push outer (.point (begun.isIntegral (.inr rfl)))
  | case6 => exact holds_push outer (.exponent (begun.isDecimal (.inl rfl)))
  | case10 => exact holds_push outer (.exponent (begun.isDecimal (.inr (.inl rfl))))
  | case15 => exact holds_push outer (.exponent (begun.isDecimal (.inr (.inr rfl))))
  | case17 c go sign => exact holds_push outer (begun.sign_of_exponent sign)
  | case18 c go _ digit =>
    refine holds_push outer ?_
    rw [List.reverse_cons]
    exact begun.digit_of_exponent digit
  | case7 | case11 | case16 | case23 => exact endNumber_holds hereditary outer begun rfl
  | _ => exact goesOn_error _

theorem step_holds {r : Reader} (holds : r.Holds P) : GoesOn P (r.step byte) := by
  obtain ⟨waiting, mode⟩ := r
  obtain ⟨outer, held⟩ := holds
  cases mode with
  | between place => exact stepBetween_holds hereditary outer held
  | literal next rest value =>
    rw [step]
    dsimp only
    split
    · exact goesOn_error _
    · split
      · exact goesOn_ok (completed_holds outer held)
      · exact goesOn_ok ⟨outer, held⟩
  | number part text => exact stepNumber_holds hereditary outer held
  | string part bytes =>
    rw [step]
    dsimp only
    split
    · exact goesOn_error _
    · exact goesOn_ok ⟨outer, trivial⟩
    · exact goesOn_map fun text => completed_holds outer (hereditary.string text)
  | key members part bytes =>
    rw [step]
    dsimp only
    split
    · exact goesOn_error _
    · exact goesOn_ok ⟨outer, held⟩
    · exact goesOn_map fun text => ⟨outer, held⟩

theorem finish_holds {r : Reader} (holds : r.Holds P) {json : Json}
    (finished : r.finish = .ok json) : P json := by
  obtain ⟨waiting, mode⟩ := r
  obtain ⟨outer, held⟩ := holds
  cases mode with
  | between place => exact endPlace_holds held finished
  | number part text =>
    rw [finish] at finished
    dsimp only at finished
    split at finished
    · rename_i ends
      exact endPlace_holds (complete_holds outer (holds_of_mayEnd hereditary held ends)).2 finished
    · cases finished
  | _ => cases finished

theorem run_holds {whole : Bool} {r : Reader} {p : Position} {bytes : List (Option UInt8)}
    {json : Json} (holds : r.Holds P) (ran : r.run whole p bytes = .ok json) : P json := by
  induction bytes generalizing r p with
  | nil =>
    rw [run] at ran
    split at ran
    · cases finished : r.finish with
      | error cause =>
        rw [finished] at ran
        cases ran
      | ok value =>
        rw [finished] at ran
        cases ran
        exact finish_holds hereditary holds finished
    · cases ran
  | cons byte rest ih =>
    cases byte with
    | none => cases ran
    | some byte =>
      rw [run] at ran
      split at ran
      · rename_i next stepped
        exact ih (step_holds hereditary holds next stepped) ran
      · cases ran

end Steps

end Reader

/-- A property that goes from parts to wholes holds of whatever is read from a text. -/
theorem Hereditary.of_read {P : Json → Prop} (hereditary : Hereditary P) {source : String}
    {json : Json} (found : read source = .ok json) : P json :=
  have holds : Reader.start.Holds P := ⟨List.forall_mem_nil _, trivial⟩
  Reader.run_holds hereditary holds found

end AvroIdl.Json
