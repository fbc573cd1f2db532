import AvroIdl.Proofs.Hint.Closest
import AvroIdl.Proofs.Load.DefinedNames
import AvroIdl.Proofs.Load.Lookups

/-
What may have been meant by an undefined type can be written in its place: inside a record all
known names can be read, except those that stand for types without a place in the model.
-/
set_option autoImplicit false

namespace AvroIdl.Load

variable {around : Option String} {t : Loading}

theorem mem_knownNames_iff (t : Loading) (name : String) :
    name ∈ knownNames t ↔
      name ∈ primitives ∨ ∃ d ∈ t.defined, name = d.simple ∨ name = d.full := by
  simp only [knownNames, List.mem_append, List.mem_map, or_assoc]
  constructor
  · rintro (primitive | ⟨d, member, rfl⟩ | ⟨d, member, rfl⟩)
    · exact .inl primitive
    · exact .inr ⟨d, member, .inl rfl⟩
    · exact .inr ⟨d, member, .inr rfl⟩
  · rintro (primitive | ⟨d, member, rfl | rfl⟩)
    · exact .inl primitive
    · exact .inr (.inl ⟨d, member, rfl⟩)
    · exact .inr (.inr ⟨d, member, rfl⟩)

/-- Inside a record a known name can be read, unless a type has the name of one that has no place
in the model. -/
theorem Encloses.reads_knownName {json : Json} (encloses : Encloses json around t) {name : String}
    (known : name ∈ knownNames t) :
    (∃ type, Returns (word name around) t type t) ∨
      name ∈ unsupported ∧ ∃ d ∈ t.defined, name = d.simple ∨ name = d.full := by
  rw [mem_knownNames_iff] at known
  cases primitive : primitive? name none with
  | some type => exact .inl ⟨type, (returns_word_iff_cases _ _ _ _).mpr ⟨.inl primitive, rfl⟩⟩
  | none =>
    have other := (primitive?_eq_none_iff name none).mp primitive
    have spelled := known.resolve_left other
    by_cases supported : name ∈ unsupported
    · exact .inr ⟨supported, spelled⟩
    · have resolves := (Loading.resolves_iff encloses.reaches.plain encloses.together).mpr spelled
      have reads : Returns (word name around) t (.reference name) t :=
        (returns_word_iff_cases _ _ _ _).mpr ⟨.inr ⟨other, supported, resolves, rfl⟩, rfl⟩
      exact .inl ⟨_, reads⟩

/-- A lookup that fails suggests a known name, or none. -/
theorem meant_of_word_fails {x : String} {meant : Option String}
    (fails : outcome (word x around) t = (.error (.undefinedType x meant), t)) :
    x ∉ unsupported ∧ Hint.closest x (knownNames t) = meant := by
  rw [outcome_word, Prod.mk.injEq] at fails
  obtain ⟨isFault, -⟩ := fails
  split at isFault
  · cases isFault
  · split at isFault
    · cases isFault
    · rename_i supported
      split at isFault
      · cases isFault
      · cases isFault
        exact ⟨supported, rfl⟩

/-- A document fails over an undefined type at a lookup that the reading of it leads to. -/
theorem misses_of_document {json : Json} {e : LoadError} {x : String} {meant : Option String}
    (fails : Schema.ofJson json = (.error e, t)) (isCause : e.cause = .undefinedType x meant) :
    ∃ top, Opens json top ∧ Misses top x meant t := by
  have ran : outcome (document json) .start = (.error e, t) := fails
  cases json with
  | object members =>
    have locates : Locates (Misses ⟨.record members, none, .start⟩)
        (record members none >>= fun (read : RecordType × Option String) =>
          return Schema.mk read.1.name read.2 read.1.doc read.1.fields) .start :=
      (compositional_locates.all.2.2.2.2.1 members none .start).bind fun _ t _ =>
        compositional_locates.ofPure _ t
    rw [document] at ran
    split at ran
    · rename_i tagged
      exact ⟨_, ⟨members, rfl, .inl tagged, rfl⟩, locates e t ran x meant isCause⟩
    · rename_i tagged
      exact ⟨_, ⟨members, rfl, .inr tagged, rfl⟩, locates e t ran x meant isCause⟩
    · cases ran
      cases isCause
    · cases ran
      cases isCause
  | _ =>
    cases ran
    cases isCause

theorem exists_of_ofSource_fails {source : String} {e : LoadError}
    (rejected : Schema.ofSource source = (.error (.schema e), t)) :
    ∃ json, Json.read source = .ok json ∧ Schema.ofJson json = (.error e, t) := by
  rw [Schema.ofSource] at rejected
  split at rejected
  · cases rejected
  · rename_i json isJson
    refine ⟨json, isJson, ?_⟩
    rcases ran : Schema.ofJson json with ⟨fault | schema, left⟩
    · rw [ran] at rejected
      cases rejected
      rfl
    · rw [ran] at rejected
      cases rejected

/-- A lookup is made inside of a record. -/
theorem encloses_of_opens {json : Json} {top : Activity} {x : String} {s : Loading}
    (opens : Opens json top) (leads : Leads top ⟨.type (.string x), around, s⟩) :
    Encloses json around s := by
  rcases Relation.reflTransGen_iff_eq_or_transGen.mp leads with same | further
  · obtain ⟨members, -, -, rfl⟩ := opens
    cases same
  · exact encloses_of_leads opens further

/-- Where a source fails over an undefined type and a hint is given, the hint is another word, and
one that can be read in place of the type: the same lookup, in the same namespace and state, then
succeeds. The one exception is a type that has the name of one without a place in the model. -/
theorem hint_can_be_read (source x hint : String) (e : LoadError) (t : Loading)
    (rejected : Schema.ofSource source = (.error (.schema e), t))
    (hinted : e.cause = .undefinedType x (some hint)) :
    (∃ place, e.message =
        place ++ ("undefined type `" ++ x ++ "`" ++ (" (did you mean `" ++ hint ++ "`?)"))) ∧
      hint ≠ x ∧
      ∃ json top around, Json.read source = .ok json ∧ Opens json top ∧
        Leads top ⟨.type (.string x), around, t⟩ ∧
        outcome (word x around) t = (.error (.undefinedType x (some hint)), t) ∧
        ((∃ type, Returns (word hint around) t type t) ∨
          hint ∈ unsupported ∧ ∃ d ∈ t.defined, hint = d.simple ∨ hint = d.full) := by
  have last : ∃ place, e.message = place ++ (LoadError.undefinedType x (some hint)).message :=
    hinted ▸ e.exists_message_eq
  obtain ⟨json, isJson, fails⟩ := exists_of_ofSource_fails rejected
  obtain ⟨top, opens, around, leads, missed⟩ := misses_of_document fails hinted
  obtain ⟨supported, chosen⟩ := meant_of_word_fails missed
  have encloses := encloses_of_opens opens leads
  have known := encloses.reads_knownName (Hint.mem_of_closest chosen)
  refine ⟨last, ?_, json, top, around, isJson, opens, leads, missed, known⟩
  rintro rfl
  rcases known with ⟨type, returns⟩ | ⟨barred, -⟩
  · exact not_returns_of_outcome missed returns
  · exact supported barred

/-- A record that misspells its own name in a field. -/
def misspelled : String :=
  "\x7b\"type\":\"record\",\"name\":\"n.Tree\",\"fields\":[" ++
    "\x7b\"name\":\"left\",\"type\":\"Tre\"\x7d]\x7d"

def misspelledField : Members :=
  [("name", .string "left"), ("type", .string "Tre")]

def misspelledMembers : Members :=
  [("fields", .array [.object misspelledField]), ("name", .string "n.Tree"),
    ("type", .string "record")]

set_option maxRecDepth 10000 in
theorem read_misspelled : Json.read misspelled = .ok (.object misspelledMembers) := rfl

def misspelledState : Loading :=
  ⟨[⟨"Tree", some "n"⟩], []⟩

def misspelledFault : LoadError :=
  .inField 0 "Tree" (.inFieldType "left" (.undefinedType "Tre" (some "Tree")))

theorem word_misspelled : outcome (word "Tre" (some "n")) misspelledState =
    (.error (.undefinedType "Tre" (some "Tree")), misspelledState) := by
  have chosen : Hint.closest "Tre" (knownNames misspelledState) = some "Tree" := by decide
  rw [outcome_word, chosen]
  rfl

theorem ofJson_misspelled :
    Schema.ofJson (.object misspelledMembers) = (.error misspelledFault, misspelledState) := by
  have named : Returns (header misspelledMembers "record" none) .start ⟨"Tree", some "n"⟩ .start :=
    (returns_header_iff _ _ _ _).mpr
      ⟨⟨⟨"n.Tree", none, rfl, .inl rfl, by decide⟩, by decide⟩, rfl⟩
  have defined : Returns (define ⟨"Tree", some "n"⟩) .start () misspelledState :=
    (returns_define_iff _ _).mpr ⟨⟨.inl rfl, rfl⟩, rfl⟩
  have documented : Returns (optionalText misspelledMembers "doc") misspelledState none
      misspelledState :=
    (returns_optionalText_iff _ _ _).mpr ⟨.inl rfl, rfl⟩
  have fieldName : Returns (ofOption .fieldMissingName (text? misspelledField "name"))
      misspelledState "left" misspelledState := rfl
  have inField : outcome (field (.object misspelledField) (some "n")) misspelledState =
      (.error (.inFieldType "left" (.undefinedType "Tre" (some "Tree"))), misspelledState) := by
    rw [field, outcome_bind_of_returns fieldName]
    apply outcome_bind_of_error
    apply outcome_within_of_error
    rw [type]
    exact word_misspelled
  have inRecord : outcome (record misspelledMembers none) .start =
      (.error misspelledFault, misspelledState) := by
    rw [record, outcome_bind_of_returns named, outcome_bind_of_returns defined,
      outcome_bind_of_returns documented]
    apply outcome_bind_of_error
    rw [fields]
    apply outcome_bind_of_error
    apply outcome_within_of_error
    exact inField
  exact outcome_bind_of_error inRecord _

theorem misspelled_can_be_read :
    Schema.ofSource misspelled = (.error (.schema misspelledFault), misspelledState) ∧
      misspelledFault.cause = .undefinedType "Tre" (some "Tree") ∧ "Tree" ≠ "Tre" ∧
      ∃ json top around, Json.read misspelled = .ok json ∧ Opens json top ∧
        Leads top ⟨.type (.string "Tre"), around, misspelledState⟩ ∧
        ∃ type, Returns (word "Tree" around) misspelledState type misspelledState := by
  have rejected : Schema.ofSource misspelled =
      (.error (.schema misspelledFault), misspelledState) := by
    rw [Schema.ofSource, read_misspelled]
    dsimp only
    rw [ofJson_misspelled]
    rfl
  obtain ⟨-, apart, json, top, around, isJson, opens, leads, -, known⟩ :=
    hint_can_be_read misspelled "Tre" "Tree" _ _ rejected rfl
  have supported : "Tree" ∉ unsupported := by decide
  have reads := known.resolve_right fun barred => supported barred.1
  exact ⟨rejected, rfl, apart, json, top, around, isJson, opens, leads, reads⟩

end AvroIdl.Load
