import AvroIdl.Proofs.Load.Activities

/-
What the names mean inside a record that are defined by then: the type of that name, except for
the words that are tried before the names.
-/
set_option autoImplicit false

namespace AvroIdl.Load

variable {around : Option String} {s : Loading}

theorem simple_ofDotted_of_spells {d : TypeName} {name : String}
    (plain : isDotted d.simple = false) (spells : name = d.simple ∨ name = d.full) :
    (TypeName.ofDotted name).simple = d.simple := by
  rcases spells with rfl | rfl
  · have whole : TypeName.ofDotted d.simple = ⟨d.simple, none⟩ :=
      TypeName.ofDotted_full ⟨d.simple, none⟩ plain
    rw [whole]
  · rw [TypeName.ofDotted_full d plain]

/-- A name stands for one type. -/
theorem Encloses.unique {json : Json} (encloses : Encloses json around s) {d e : TypeName}
    {name : String} (isFirst : d ∈ s.defined) (isSecond : e ∈ s.defined)
    (spellsFirst : name = d.simple ∨ name = d.full)
    (spellsSecond : name = e.simple ∨ name = e.full) : d = e := by
  have plain := encloses.reaches.plain
  have distinct := (encloses.reaches.orderly Loading.orderly_start).nodup_simple
  apply List.inj_on_of_nodup_map distinct isFirst isSecond
  rw [← simple_ofDotted_of_spells (plain d isFirst) spellsFirst,
    simple_ofDotted_of_spells (plain e isSecond) spellsSecond]

theorem primitive?_eq_none_iff (word : String) (javaClass : Option String) :
    primitive? word javaClass = none ↔ word ∉ primitives := by
  unfold primitive?
  split <;> simp_all [primitives]

theorem primitive?_ne_reference (word : String) (javaClass : Option String) (name : String) :
    primitive? word javaClass ≠ some (.reference name) := by
  unfold primitive?
  split <;> nofun

/-- A word is tried as a primitive type first, then as one that has no place in the model. -/
theorem returns_word_iff_cases (name : String) (around : Option String) (type : AvroType)
    (t : Loading) :
    Returns (word name around) s type t ↔
      (primitive? name none = some type ∨
        name ∉ primitives ∧ name ∉ unsupported ∧ s.resolves name around = true ∧
          .reference name = type) ∧ s = t := by
  rw [← primitive?_eq_none_iff name none, word]
  cases primitive : primitive? name none with
  | some known => simp
  | none =>
    dsimp only
    split
    · rename_i barred
      simp [barred]
    · rename_i supported
      have unfolded : s.Runs [.mention name around] t ↔ s.resolves name around = true ∧ s = t :=
        Iff.rfl
      rw [returns_reference_iff, unfolded]
      simp only [reduceCtorEq, supported, not_false_eq_true, true_and, false_or, and_left_comm,
        and_assoc]

/-- In a record, the simple name and the full name of each type that is defined by then refer to
it, unless the word is taken by a primitive type or by one that has no place in the model. What
a word is read as is a primitive type of that name or the one type that it names. -/
theorem defined_names_refer (json : Json) (around : Option String) (s : Loading)
    (encloses : Encloses json around s) :
    (∀ d ∈ s.defined, ∀ name, name = d.simple ∨ name = d.full →
      (Returns (word name around) s (.reference name) s ↔
        name ∉ primitives ∧ name ∉ unsupported)) ∧
      ∀ name type t, Returns (word name around) s type t →
        primitive? name none = some type ∨
          type = .reference name ∧ ∃! d, d ∈ s.defined ∧ (name = d.simple ∨ name = d.full) := by
  have resolves : ∀ name, s.resolves name around = true ↔
      ∃ d ∈ s.defined, name = d.simple ∨ name = d.full :=
    fun _ => Loading.resolves_iff encloses.reaches.plain encloses.together
  constructor
  · intro d member name spells
    rw [returns_word_iff_cases, resolves]
    constructor
    · rintro ⟨primitive | ⟨other, supported, -⟩, -⟩
      · exact absurd primitive (primitive?_ne_reference name none name)
      · exact ⟨other, supported⟩
    · rintro ⟨other, supported⟩
      exact ⟨.inr ⟨other, supported, ⟨d, member, spells⟩, rfl⟩, rfl⟩
  · intro name type t returns
    rw [returns_word_iff_cases, resolves] at returns
    obtain ⟨primitive | ⟨-, -, ⟨d, member, spells⟩, rfl⟩, -⟩ := returns
    · exact .inl primitive
    · refine .inr ⟨rfl, d, ⟨member, spells⟩, ?_⟩
      rintro e ⟨isDefined, spelled⟩
      exact encloses.unique isDefined member spelled spells

theorem nested_names_refer :
    Encloses Schema.nestedJson (some "n") ⟨[⟨"A", some "n"⟩, ⟨"B", some "n"⟩], []⟩ ∧
      (∀ d ∈ [TypeName.mk "A" (some "n"), ⟨"B", some "n"⟩], ∀ name,
        name = d.simple ∨ name = d.full →
        (Returns (word name (some "n")) ⟨[⟨"A", some "n"⟩, ⟨"B", some "n"⟩], []⟩
            (.reference name) ⟨[⟨"A", some "n"⟩, ⟨"B", some "n"⟩], []⟩ ↔
          name ∉ primitives ∧ name ∉ unsupported)) ∧
      ∀ name type t,
        Returns (word name (some "n")) ⟨[⟨"A", some "n"⟩, ⟨"B", some "n"⟩], []⟩ type t →
          primitive? name none = some type ∨
            type = .reference name ∧ ∃! d, d ∈ [TypeName.mk "A" (some "n"), ⟨"B", some "n"⟩] ∧
              (name = d.simple ∨ name = d.full) := by
  have encloses : Encloses Schema.nestedJson (some "n")
      ⟨[⟨"A", some "n"⟩, ⟨"B", some "n"⟩], []⟩ :=
    encloses_of_describes Schema.describes_nested
      ⟨⟨.inl rfl, rfl⟩, ⟨.inr rfl, rfl⟩, rfl, rfl, rfl⟩
  exact ⟨encloses, defined_names_refer _ _ _ encloses⟩

/-- A record with the name of a primitive type, and a field that mentions it. -/
def takenName : Schema :=
  ⟨"A", none, none, [⟨"f", .record ⟨"int", none, []⟩, none, none, none⟩,
    ⟨"g", .int none, none, none, none⟩]⟩

def takenInner : Members :=
  [("fields", .array []), ("name", .string "int"), ("type", .string "record")]

def takenMembers : Members :=
  [("fields", .array [Schema.nestedField "f" (.object takenInner),
      Schema.nestedField "g" (.string "int")]),
    ("name", .string "A"), ("type", .string "record")]

def takenSource : String :=
  "\x7b\"type\":\"record\",\"name\":\"A\",\"fields\":[" ++
    "\x7b\"name\":\"f\",\"type\":\x7b\"type\":\"record\",\"name\":\"int\",\"fields\":[]\x7d\x7d," ++
    "\x7b\"name\":\"g\",\"type\":\"int\"\x7d]\x7d"

set_option maxRecDepth 10000 in
theorem read_takenSource : Json.read takenSource = .ok (.object takenMembers) := rfl

theorem describes_takenName : DescribesSchema (.object takenMembers) takenName
    [.define ⟨"A", none⟩, .define ⟨"int", none⟩] := by
  have top : Header takenMembers none ⟨"A", none⟩ :=
    ⟨⟨"A", none, rfl, .inl rfl, by decide⟩, by decide⟩
  have taken : Header takenInner none ⟨"int", none⟩ :=
    ⟨⟨"int", none, rfl, .inl rfl, by decide⟩, by decide⟩
  have inner : DescribesRecord none takenInner ⟨"int", none⟩ ⟨"int", none, []⟩
      [.define ⟨"int", none⟩] :=
    .mk ⟨taken, rfl, .inl rfl, List.nodup_nil⟩ rfl .nil
  have first := Schema.describes_nestedField "f" (.tagged rfl rfl (.record inner))
  have word : Describes none (.string "int") (.int none) [] := .word rfl
  have second := Schema.describes_nestedField "g" word
  have record : DescribesRecord none takenMembers ⟨"A", none⟩ takenName.asRecord
      [.define ⟨"A", none⟩, .define ⟨"int", none⟩] :=
    .mk ⟨top, rfl, .inl rfl, by decide⟩ rfl (.cons first (.cons second .nil))
  exact .mk rfl rfl record

/-- The mention of the record is read as the primitive type, although the record is defined. -/
theorem takenName_is_not_referred_to :
    Encloses (.object takenMembers) none ⟨[⟨"A", none⟩, ⟨"int", none⟩], []⟩ ∧
      Returns (word "int" none) ⟨[⟨"A", none⟩, ⟨"int", none⟩], []⟩ (.int none)
        ⟨[⟨"A", none⟩, ⟨"int", none⟩], []⟩ ∧
      Schema.load takenSource "a.avsc" = .ok takenName := by
  have runs : Loading.start.Runs [.define ⟨"A", none⟩, .define ⟨"int", none⟩]
      ⟨[⟨"A", none⟩, ⟨"int", none⟩], []⟩ :=
    ⟨⟨.inl rfl, rfl⟩, ⟨.inr rfl, rfl⟩, rfl⟩
  refine ⟨encloses_of_describes describes_takenName runs, rfl, ?_⟩
  rw [Schema.load_eq_ok_iff]
  exact ⟨_, _, _, read_takenSource, describes_takenName, runs⟩

end AvroIdl.Load
