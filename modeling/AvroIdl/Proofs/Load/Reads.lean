import AvroIdl.Proofs.Load.Descriptions
import AvroIdl.Proofs.Load.Returns

/-
The loads that read one object or one word only, and exactly when they succeed.
-/
set_option autoImplicit false

namespace AvroIdl.Load

variable {s t : Loading}

theorem text?_eq_some_iff (members : Members) (key text : String) :
    text? members key = some text ↔ members.get? key = some (.string text) := by
  rw [text?, Option.bind_eq_some_iff]
  constructor
  · rintro ⟨json, found, isText⟩
    cases json with
    | string other => rwa [← Option.some.inj isText]
    | _ => cases isText
  · intro found
    exact ⟨_, found, rfl⟩

theorem returns_optionalText_iff (members : Members) (key : String) (text : Option String) :
    Returns (optionalText members key) s text t ↔ members.Gives key text ∧ s = t := by
  rw [optionalText]
  split
  · rename_i missing
    cases text <;> simp [Members.Gives, missing]
  · rename_i null
    cases text <;> simp [Members.Gives, null]
  · rename_i other found
    cases text <;> simp [Members.Gives, found]
  · rename_i other notNull notText found
    cases text with
    | none => simpa [Members.Gives, found] using fun same => absurd same notNull
    | some text => simpa [Members.Gives, found] using fun same => absurd same (notText text)

theorem returns_header_iff (members : Members) (kind : String) (around : Option String)
    (name : TypeName) :
    Returns (header members kind around) s name t ↔ Header members around name ∧ s = t := by
  simp only [header, returns_bind_iff, returns_ofOption_iff, returns_check_iff,
    returns_optionalText_iff, returns_pure_iff, text?_eq_some_iff]
  constructor
  · rintro ⟨raw, _, ⟨found, rfl⟩, nonempty, given, _, ⟨gives, rfl⟩, rfl, rfl⟩
    exact ⟨⟨⟨raw, given, found, gives, rfl⟩, nonempty⟩, rfl⟩
  · rintro ⟨⟨⟨raw, given, found, gives, rfl⟩, nonempty⟩, rfl⟩
    exact ⟨raw, s, ⟨found, rfl⟩, nonempty, given, s, ⟨gives, rfl⟩, rfl, rfl⟩

def warn? : Option Warning → Load Unit
  | some w => warn w
  | none => pure ()

theorem returns_warn?_iff (w : Option Warning) (u : Unit) :
    Returns (warn? w) s u t ↔ s.Runs (warnings w) t := by
  cases w with
  | none => exact (returns_pure_iff () u).trans (and_iff_right rfl)
  | some w => exact (returns_warn_iff w u).trans (and_iff_right trivial).symm

theorem returns_define_iff (name : TypeName) (u : Unit) :
    Returns (define name) s u t ↔ s.Allows (.define name) ∧ s.after (.define name) = t := by
  simp only [define, returns_bind_iff, returns_get_iff, returns_check_iff, returns_set_iff,
    Loading.Allows, Loading.after]
  constructor
  · rintro ⟨_, _, ⟨rfl, rfl⟩, fits, fresh, rfl⟩
    refine ⟨⟨?_, Bool.not_eq_true _ ▸ fresh⟩, rfl⟩
    rwa [not_and_or, not_not, not_not] at fits
  · rintro ⟨⟨fits, fresh⟩, rfl⟩
    refine ⟨s, s, ⟨rfl, rfl⟩, ?_, ?_, rfl⟩
    · rwa [not_and_or, not_not, not_not]
    · rw [fresh]
      exact Bool.false_ne_true

/-- Symbols are texts, and none repeats an earlier one. -/
theorem returns_symbols_iff (enum : String) (seen : List String) (items : List Json)
    (all : List String) (distinct : seen.Nodup) :
    Returns (symbols enum seen items) s all t ↔
      (∃ new, items = new.map Json.string ∧ (seen ++ new).Nodup ∧ seen ++ new = all) ∧ s = t := by
  induction items generalizing seen with
  | nil =>
    rw [symbols, returns_pure_iff]
    apply and_congr_left'
    constructor
    · rintro rfl
      exact ⟨[], rfl, by rwa [List.append_nil], List.append_nil _⟩
    · rintro ⟨new, isNil, -, rfl⟩
      rw [List.map_eq_nil_iff.mp isNil.symm, List.append_nil]
  | cons item rest ih =>
    cases item with
    | string symbol =>
      rw [symbols]
      by_cases member : symbol ∈ seen
      · rw [if_pos member]
        refine iff_of_false (not_returns_throw _ _) ?_
        rintro ⟨⟨new, same, apart, -⟩, -⟩
        obtain ⟨first, later, rfl, isText, -⟩ := List.map_eq_cons_iff.mp same.symm
        cases isText
        exact List.disjoint_of_nodup_append apart member List.mem_cons_self
      · have extended : (seen ++ [symbol]).Nodup := List.concat_eq_append ▸ distinct.concat member
        rw [if_neg member, ih _ extended]
        apply and_congr_left'
        constructor
        · rintro ⟨new, rfl, apart, rfl⟩
          rw [List.append_assoc] at apart ⊢
          exact ⟨symbol :: new, rfl, apart, rfl⟩
        · rintro ⟨new, same, apart, rfl⟩
          obtain ⟨first, later, rfl, isText, rfl⟩ := List.map_eq_cons_iff.mp same.symm
          cases isText
          exact ⟨later, rfl, by rwa [List.append_assoc], List.append_assoc _ _ _⟩
    | _ =>
      rw [symbols]
      · refine iff_of_false (not_returns_throw _ _) ?_
        rintro ⟨⟨new, same, -⟩, -⟩
        obtain ⟨first, later, rfl, isText, -⟩ := List.map_eq_cons_iff.mp same.symm
        cases isText
      · intro symbol isText
        cases isText

theorem returns_reference_iff (name : String) (around : Option String) (type : AvroType) :
    Returns (reference name around) s type t ↔
      .reference name = type ∧ s.Runs [.mention name around] t := by
  have unfolded : s.Runs [.mention name around] t ↔ s.resolves name around = true ∧ s = t :=
    Iff.rfl
  rw [unfolded, reference, returns_bind_iff]
  constructor
  · rintro ⟨_, _, read, rest⟩
    obtain ⟨rfl, rfl⟩ := (returns_get_iff _).mp read
    by_cases found : s.resolves name around = true
    · rw [if_pos found] at rest
      obtain ⟨same, rfl⟩ := (returns_pure_iff _ _).mp rest
      exact ⟨same, found, rfl⟩
    · rw [if_neg found] at rest
      exact absurd rest (not_returns_throw _ _)
  · rintro ⟨rfl, found, rfl⟩
    refine ⟨s, s, (returns_get_iff _).mpr ⟨rfl, rfl⟩, ?_⟩
    rw [if_pos found, returns_pure_iff]
    exact ⟨rfl, rfl⟩

theorem returns_defaultValue_iff (json : Json) (d : Default) :
    Returns (defaultValue json) s d t ↔ DescribesDefault json d ∧ s = t := by
  constructor
  · fun_cases defaultValue json with
    | case1 | case2 b | case3 spelling | case4 text | case5 | case6 =>
        rw [returns_pure_iff]
        rintro ⟨rfl, rfl⟩
        exact ⟨by constructor, rfl⟩
    | case7 other => exact fun run => absurd run (not_returns_throw _ _)
  · rintro ⟨described, rfl⟩
    cases described <;> exact (returns_pure_iff _ _).mpr ⟨rfl, rfl⟩

/-- A field's default is read before the members that come after it. -/
theorem returns_default_iff {α : Type} (found : Option Json) (context : LoadError → LoadError)
    (rest : Option Default → Load α) (a : α) :
    Returns (match found with
      | none => pure none >>= rest
      | some value => (some <$> within context (defaultValue value)) >>= rest) s a t ↔
      ∃ d, Option.Rel DescribesDefault found d ∧ Returns (rest d) s a t := by
  cases found with
  | none =>
    rw [pure_bind]
    constructor
    · intro run
      exact ⟨none, .none, run⟩
    · rintro ⟨_, ⟨⟩, run⟩
      exact run
  | some value =>
    simp only [returns_bind_iff, returns_map_iff, returns_within_iff, returns_defaultValue_iff]
    constructor
    · rintro ⟨_, _, ⟨known, ⟨described, rfl⟩, rfl⟩, run⟩
      exact ⟨some known, .some described, run⟩
    · rintro ⟨_, ⟨described⟩, run⟩
      exact ⟨_, s, ⟨_, ⟨described, rfl⟩, rfl⟩, run⟩

theorem annotatedPrimitive_eq (members : Members) (tag : String) :
    annotatedPrimitive members tag = do
      warn? (logicalTypeWarning members tag)
      return (primitive? tag (← optionalText members "java-class")).getD .null := by
  rw [annotatedPrimitive, logicalTypeWarning]
  cases text? members "logicalType" <;> rfl

theorem returns_annotatedPrimitive_iff (members : Members) (tag : String) (type : AvroType) :
    Returns (annotatedPrimitive members tag) s type t ↔
      (∃ javaClass, members.Gives "java-class" javaClass ∧
        (primitive? tag javaClass).getD .null = type) ∧
      s.Runs (warnings (logicalTypeWarning members tag)) t := by
  rw [annotatedPrimitive_eq]
  simp only [returns_bind_iff, returns_warn?_iff, returns_optionalText_iff, returns_pure_iff]
  constructor
  · rintro ⟨_, m, warns, javaClass, _, ⟨hinted, rfl⟩, same, rfl⟩
    exact ⟨⟨javaClass, hinted, same⟩, warns⟩
  · rintro ⟨⟨javaClass, hinted, same⟩, warns⟩
    exact ⟨(), t, warns, javaClass, t, ⟨hinted, rfl⟩, same, rfl⟩

theorem returns_enum_iff (members : Members) (around : Option String) (type : EnumType) :
    Returns (enum members around) s type t ↔
      ∃ name, EnumShape members around name type ∧ s.Runs [.define name] t := by
  simp only [enum, returns_bind_iff, returns_header_iff, returns_define_iff,
    returns_optionalText_iff]
  constructor
  · rintro ⟨name, _, ⟨header, rfl⟩, _, m, ⟨allowed, defines⟩, doc, _, ⟨gives, rfl⟩, rest⟩
    split at rest
    · rename_i items found
      rw [returns_bind_iff] at rest
      obtain ⟨all, _, listed, same⟩ := rest
      rw [returns_symbols_iff _ _ _ _ List.nodup_nil] at listed
      obtain ⟨⟨new, rfl, distinct, rfl⟩, rfl⟩ := listed
      obtain ⟨rfl, rfl⟩ := (returns_pure_iff _ _).mp same
      exact ⟨name, ⟨header, rfl, gives, found, distinct⟩, allowed, defines⟩
    · exact absurd rest (not_returns_throw _ _)
  · rintro ⟨name, shape, allowed, defines⟩
    refine ⟨name, s, ⟨shape.header, rfl⟩, (), t, ⟨allowed, defines⟩, type.doc, t,
      ⟨shape.doc, rfl⟩, ?_⟩
    rw [shape.symbols]
    simp only [returns_bind_iff, returns_symbols_iff _ _ _ _ List.nodup_nil, returns_pure_iff]
    refine ⟨type.symbols, t, ⟨⟨type.symbols, rfl, shape.distinct, rfl⟩, rfl⟩, ?_, rfl⟩
    rw [← shape.named]

theorem returns_word_iff (name : String) (around : Option String) (type : AvroType) :
    Returns (word name around) s type t ↔
      ∃ steps, Describes around (.string name) type steps ∧ s.Runs steps t := by
  rw [word]
  split
  · rename_i known primitive
    rw [returns_pure_iff]
    constructor
    · rintro ⟨rfl, rfl⟩
      exact ⟨[], .word primitive, rfl⟩
    · rintro ⟨steps, described, runs⟩
      cases described with
      | word same =>
        rw [primitive] at same
        exact ⟨Option.some.inj same, runs⟩
      | reference other => simp [primitive] at other
  · rename_i other
    split
    · rename_i barred
      refine iff_of_false (not_returns_throw _ _) ?_
      rintro ⟨steps, described, -⟩
      cases described with
      | word primitive => simp [other] at primitive
      | reference _ supported => exact supported barred
    · rename_i supported
      rw [returns_reference_iff]
      constructor
      · rintro ⟨rfl, runs⟩
        exact ⟨_, .reference other supported, runs⟩
      · rintro ⟨steps, described, runs⟩
        cases described with
        | word primitive => simp [other] at primitive
        | reference _ _ => exact ⟨rfl, runs⟩

end AvroIdl.Load
