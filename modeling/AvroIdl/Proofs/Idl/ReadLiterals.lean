import AvroIdl.Json.Compact
import AvroIdl.Proofs.Json.HeldNumbers
import AvroIdl.Proofs.Text.Readable
import AvroIdl.Schema.Default

/-
Literals of defaults can be read back. A text is escaped, so its closing quote is the first
one without a backslash before it.
-/
set_option autoImplicit false

namespace AvroIdl

/-- Quotes and backslashes only stand after a backslash. -/
inductive Escaped : List Char → Prop
  | nil : Escaped []
  | pair (c : Char) {rest : List Char} (after : Escaped rest) : Escaped ('\\' :: c :: rest)
  | plain {c : Char} {rest : List Char} (slash : c ≠ '\\') (quote : c ≠ '"')
      (after : Escaped rest) : Escaped (c :: rest)

theorem Escaped.append {text rest : List Char} (escaped : Escaped text) (after : Escaped rest) :
    Escaped (text ++ rest) := by
  induction escaped with
  | nil => exact after
  | pair c _ ih => exact .pair c ih
  | plain slash quote _ ih => exact .plain slash quote ih

theorem Escaped.singleton {c : Char} (slash : c ≠ '\\') (quote : c ≠ '"') : Escaped [c] :=
  .plain slash quote .nil

/-- A quote after an escaped text is the first one that is not a part of it. -/
theorem Escaped.append_quote {text other rest rest' : List Char} (escaped : Escaped text)
    (escaped' : Escaped other) (same : text ++ '"' :: rest = other ++ '"' :: rest') :
    text = other ∧ rest = rest' := by
  induction escaped generalizing other with
  | nil =>
    cases escaped' with
    | nil => exact ⟨rfl, List.tail_eq_of_cons_eq same⟩
    | pair => exact absurd (List.head_eq_of_cons_eq same) (by decide)
    | plain _ quote _ => exact absurd (List.head_eq_of_cons_eq same).symm quote
  | pair c _ ih =>
    cases escaped' with
    | nil => exact absurd (List.head_eq_of_cons_eq same) (by decide)
    | pair d after =>
      have inner := List.tail_eq_of_cons_eq same
      obtain ⟨rfl, last⟩ := ih after (List.tail_eq_of_cons_eq inner)
      exact ⟨by rw [List.head_eq_of_cons_eq inner], last⟩
    | plain slash _ _ => exact absurd (List.head_eq_of_cons_eq same).symm slash
  | plain slash quote _ ih =>
    cases escaped' with
    | nil => exact absurd (List.head_eq_of_cons_eq same) quote
    | pair => exact absurd (List.head_eq_of_cons_eq same) slash
    | plain _ _ after =>
      obtain ⟨rfl, last⟩ := ih after (List.tail_eq_of_cons_eq same)
      exact ⟨by rw [List.head_eq_of_cons_eq same], last⟩

theorem digitChar_ne : ∀ n < 16, Nat.digitChar n ≠ '\\' ∧ Nat.digitChar n ≠ '"' := by
  decide

theorem Json.escaped_escapeChar (c : Char) : Escaped (Json.escapeChar c).toList := by
  fun_cases escapeChar c with
  | case8 c quote slash _ _ _ _ _ small =>
    have high := digitChar_ne (c.toNat / 16) (by omega)
    have low := digitChar_ne (c.toNat % 16) (Nat.mod_lt _ (by decide))
    have zeros : Escaped "\\u00".toList :=
      .pair 'u' (.plain (by decide) (by decide) (.singleton (by decide) (by decide)))
    simp only [String.toList_append, Char.toString_eq_singleton, String.toList_singleton]
    exact (zeros.append (.singleton high.1 high.2)).append (.singleton low.1 low.2)
  | case9 c quote slash =>
    rw [Char.toString_eq_singleton, String.toList_singleton]
    exact .singleton slash quote
  | _ => exact .pair _ .nil

theorem Json.escaped_escape (text : String) : Escaped (Json.escape text).toList := by
  rw [escape, String.toList_join]
  induction text.toList with
  | nil => exact .nil
  | cons c rest ih => exact (escaped_escapeChar c).append ih

/-- A closing quote ends a text that is escaped. -/
theorem readable_escaped :
    Readable (fun text : String => text.toList ++ ['"']) id (fun text => Escaped text.toList)
      Anything := by
  intro a b rest rest' okA okB _ _ same
  simp only [List.append_assoc, List.singleton_append] at same
  obtain ⟨texts, after⟩ := okA.append_quote okB same
  exact ⟨String.toList_inj.mp texts, after⟩

namespace Default

def WellSpelled : Default → Prop
  | .text escaped => Escaped escaped.toList
  | .number spelling => Json.IsNumeral spelling.toList
  | _ => True

/-- The defaults whose literals are fixed words. -/
def constants : List Default :=
  [.null, .bool true, .bool false, .emptyMap, .emptyArray]

theorem constant_injective : ∀ a ∈ constants, ∀ b ∈ constants, a.literal = b.literal → a = b := by
  decide

theorem begins_constant : ∀ d ∈ constants, ∃ c ∈ d.literal.toList.head?,
    c ≠ '"' ∧ c ≠ '-' ∧ c.isDigit = false := by
  simp [constants, literal]

theorem constant_free : ∀ d ∈ constants, ∀ c ∈ d.literal.toList, (c == ';') = false := by
  simp [constants, literal]

/-- A number or a constant. -/
def Bare (d : Default) : Prop :=
  (∃ spelling, d = .number spelling ∧ Json.IsNumeral spelling.toList) ∨ d ∈ constants

theorem WellSpelled.text_or_bare {d : Default} (spelled : d.WellSpelled) :
    (∃ escaped, d = .text escaped ∧ Escaped escaped.toList) ∨ d.Bare := by
  cases d with
  | text escaped => exact .inl ⟨escaped, rfl, spelled⟩
  | number spelling => exact .inr (.inl ⟨spelling, rfl, spelled⟩)
  | bool value => cases value <;> exact .inr (.inr (by decide))
  | _ => exact .inr (.inr (by decide))

theorem Bare.begins {d : Default} (bare : d.Bare) : ∃ c ∈ d.literal.toList.head?, c ≠ '"' := by
  rcases bare with ⟨spelling, rfl, numeral⟩ | constant
  · obtain ⟨first, rest, text, begins⟩ := numeral.begins
    refine ⟨first, by rw [literal, text]; rfl, ?_⟩
    rintro rfl
    exact absurd begins (by decide)
  · obtain ⟨c, first, other, -⟩ := begins_constant d constant
    exact ⟨c, first, other⟩

theorem Bare.free {d : Default} (bare : d.Bare) : ∀ c ∈ d.literal.toList, (c == ';') = false := by
  rcases bare with ⟨spelling, rfl, numeral⟩ | constant
  · intro c member
    have isNumber := numeral.only c member
    rw [beq_eq_false_iff_ne]
    rintro rfl
    exact absurd isNumber (by decide)
  · exact constant_free d constant

/-- No constant is spelled like a number. -/
theorem number_ne_constant {spelling : String} {d : Default}
    (numeral : Json.IsNumeral spelling.toList) (constant : d ∈ constants) : spelling ≠ d.literal := by
  rintro rfl
  obtain ⟨first, rest, text, begins⟩ := numeral.begins
  obtain ⟨c, isFirst, -, minus, digit⟩ := begins_constant d constant
  rw [text, List.head?_cons, Option.mem_some] at isFirst
  subst isFirst
  rcases begins with isDigit | isMinus
  · rw [isDigit] at digit
    cases digit
  · exact minus isMinus

theorem Bare.literal_injective {a b : Default} (bareA : a.Bare) (bareB : b.Bare)
    (same : a.literal = b.literal) : a = b := by
  rcases bareA with ⟨spelling, rfl, numeral⟩ | constant
  · rcases bareB with ⟨other, rfl, -⟩ | constant'
    · exact congrArg number same
    · exact absurd same (number_ne_constant numeral constant')
  · rcases bareB with ⟨other, rfl, numeral'⟩ | constant'
    · exact absurd same.symm (number_ne_constant numeral' constant)
    · exact constant_injective a constant b constant' same

theorem text_ne_bare {escaped : String} {d : Default} {rest rest' : List Char} (bare : d.Bare) :
    (text escaped).literal.toList ++ rest ≠ d.literal.toList ++ rest' := by
  intro same
  obtain ⟨c, first, other⟩ := bare.begins
  cases literal : d.literal.toList with
  | nil =>
    rw [literal] at first
    cases first
  | cons d tail =>
    rw [literal, List.head?_cons, Option.mem_some] at first
    subst first
    rw [literal, Default.literal, String.append_assoc, String.toList_append] at same
    exact other (List.head_eq_of_cons_eq same).symm

/-- A semicolon ends the literal of a default. -/
theorem readable_literal :
    Readable (fun d : Default => d.literal.toList) id WellSpelled (Begins (· == ';')) := by
  intro a b rest rest' okA okB stops stops' same
  dsimp only at same
  rcases okA.text_or_bare with ⟨escaped, rfl, closedA⟩ | bareA
  · rcases okB.text_or_bare with ⟨other, rfl, closedB⟩ | bareB
    · simp only [literal, String.toList_append, List.append_assoc] at same
      have inner := List.append_cancel_left same
      rw [← List.append_assoc, ← List.append_assoc] at inner
      obtain ⟨texts, after⟩ := readable_escaped closedA closedB trivial trivial inner
      exact ⟨congrArg text texts, after⟩
    · exact absurd same (text_ne_bare bareB)
  · rcases okB.text_or_bare with ⟨other, rfl, closedB⟩ | bareB
    · exact absurd same.symm (text_ne_bare bareA)
    · obtain ⟨literals, after⟩ := readable_until (· == ';') bareA.free bareB.free stops stops' same
      exact ⟨bareA.literal_injective bareB literals, after⟩

end Default

end AvroIdl
