import AvroIdl.Proofs.Load.Reads

/-
A load succeeds exactly on what its grammar describes, and it does to its state what the
steps of the description do.
-/
set_option autoImplicit false

namespace AvroIdl.Load

/-- The load succeeds with the results, and by the steps, that the grammar gives. -/
def Follows {α : Type} (action : Load α) (grammar : α → List Step → Prop) : Prop :=
  ∀ s a t, Returns action s a t ↔ ∃ steps, grammar a steps ∧ s.Runs steps t

theorem Follows.of_throw {α : Type} {e : LoadError} {grammar : α → List Step → Prop}
    (empty : ∀ a steps, ¬ grammar a steps) : Follows (throw e) grammar := by
  intro s a t
  refine iff_of_false (not_returns_throw _ _) ?_
  rintro ⟨steps, described, -⟩
  exact empty a steps described

theorem follows_unionMembers_nil (index : Nat) (around : Option String) :
    Follows (unionMembers index [] around) (DescribesAll around []) := by
  intro s types t
  rw [unionMembers, returns_pure_iff]
  constructor
  · rintro ⟨rfl, rfl⟩
    exact ⟨[], .nil, rfl⟩
  · rintro ⟨steps, described, runs⟩
    cases described
    exact ⟨rfl, runs⟩

theorem follows_unionMembers_cons {index : Nat} {member : Json} {rest : List Json}
    {around : Option String} (first : Follows (type member around) (Describes around member))
    (others : Follows (unionMembers (index + 1) rest around) (DescribesAll around rest)) :
    Follows (unionMembers index (member :: rest) around)
      (DescribesAll around (member :: rest)) := by
  intro s types t
  rw [unionMembers]
  simp only [returns_bind_iff, returns_within_iff, returns_pure_iff]
  constructor
  · rintro ⟨head, m, runHead, tail, _, runTail, rfl, rfl⟩
    obtain ⟨before, described, runsHead⟩ := (first s head m).mp runHead
    obtain ⟨later, describedTail, runsTail⟩ := (others m tail _).mp runTail
    exact ⟨_, .cons described describedTail, runsHead.append runsTail⟩
  · rintro ⟨steps, described, runs⟩
    cases described with
    | cons head tail =>
      obtain ⟨m, runsHead, runsTail⟩ := Loading.runs_append_iff.mp runs
      exact ⟨_, m, (first s _ m).mpr ⟨_, head, runsHead⟩, _, t,
        (others m _ t).mpr ⟨_, tail, runsTail⟩, rfl, rfl⟩

theorem follows_field {members : Members} {around : Option String}
    (inner : ∀ json, members.get? "type" = some json →
      Follows (type json around) (Describes around json)) :
    Follows (field (.object members) around) (DescribesField around (.object members)) := by
  intro s result t
  rw [field]
  simp only [returns_bind_iff, returns_ofOption_iff, text?_eq_some_iff]
  constructor
  · rintro ⟨name, _, ⟨named, rfl⟩, rest⟩
    split at rest
    · exact absurd rest (not_returns_throw _ _)
    · rename_i json found
      rw [returns_bind_iff] at rest
      obtain ⟨described, m, run, rest⟩ := rest
      obtain ⟨default, defaulted, rest⟩ := (returns_default_iff _ _ _ _).mp rest
      simp only [returns_bind_iff, returns_optionalText_iff, returns_pure_iff] at rest
      obtain ⟨doc, _, ⟨givesDoc, rfl⟩, hint, _, ⟨givesHint, rfl⟩, rfl, rfl⟩ := rest
      rw [returns_within_iff] at run
      obtain ⟨steps, describes, runs⟩ := (inner json found _ _ _).mp run
      exact ⟨steps, .mk ⟨named, givesDoc, defaulted, givesHint⟩ found describes, runs⟩
  · rintro ⟨steps, ⟨shape, found, described⟩, runs⟩
    refine ⟨result.name, s, ⟨shape.named, rfl⟩, ?_⟩
    split
    · rename_i missing
      simp [found] at missing
    · rename_i json isType
      cases found.symm.trans isType
      rw [returns_bind_iff]
      refine ⟨result.type, t, ?_, ?_⟩
      · rw [returns_within_iff]
        exact (inner _ found _ _ _).mpr ⟨steps, described, runs⟩
      · refine (returns_default_iff _ _ _ _).mpr ⟨result.default, shape.default, ?_⟩
        simp only [returns_bind_iff, returns_optionalText_iff, returns_pure_iff]
        exact ⟨result.doc, t, ⟨shape.doc, rfl⟩, result.userDataType, t, ⟨shape.userDataType, rfl⟩,
          rfl, rfl⟩

theorem follows_field_other {json : Json} (around : Option String)
    (other : ∀ members, json ≠ .object members) :
    Follows (field json around) (DescribesField around json) := by
  have refused : field json around = throw .fieldNotObject := by
    rw [field]
    exact other
  rw [refused]
  apply Follows.of_throw
  rintro result steps ⟨⟩
  exact other _ rfl

theorem follows_fields_nil (record : String) (index : Nat) (seen : List String)
    (around : Option String) (distinct : seen.Nodup) :
    Follows (fields record index seen [] around) fun results steps =>
      DescribesFields around [] results steps ∧ (seen ++ results.map FieldOf.name).Nodup := by
  intro s results t
  rw [fields, returns_pure_iff]
  constructor
  · rintro ⟨rfl, rfl⟩
    exact ⟨[], ⟨.nil, by rwa [List.map_nil, List.append_nil]⟩, rfl⟩
  · rintro ⟨steps, ⟨described, -⟩, runs⟩
    cases described
    exact ⟨rfl, runs⟩

/-- The name of each field is checked against those before it, so the check of a whole list is
that all its names differ. -/
theorem follows_fields_cons {record : String} {index : Nat} {seen : List String} {item : Json}
    {rest : List Json} {around : Option String} (distinct : seen.Nodup)
    (first : Follows (field item around) (DescribesField around item))
    (others : ∀ head : Field, (seen ++ [head.name]).Nodup →
      Follows (fields record (index + 1) (seen ++ [head.name]) rest around) fun results steps =>
        DescribesFields around rest results steps ∧
          (seen ++ [head.name] ++ results.map FieldOf.name).Nodup) :
    Follows (fields record index seen (item :: rest) around) fun results steps =>
      DescribesFields around (item :: rest) results steps ∧
        (seen ++ results.map FieldOf.name).Nodup := by
  intro s results t
  rw [fields]
  simp only [returns_bind_iff, returns_within_iff, returns_check_iff, returns_pure_iff]
  constructor
  · rintro ⟨head, m, runHead, fresh, tail, _, runTail, rfl, rfl⟩
    have extended : (seen ++ [head.name]).Nodup := List.concat_eq_append ▸ distinct.concat fresh
    obtain ⟨before, described, runsHead⟩ := (first s head m).mp runHead
    obtain ⟨later, ⟨describedTail, apart⟩, runsTail⟩ := (others _ extended m tail _).mp runTail
    refine ⟨_, ⟨.cons described describedTail, ?_⟩, runsHead.append runsTail⟩
    rwa [List.append_assoc] at apart
  · rintro ⟨steps, ⟨described, apart⟩, runs⟩
    cases described with
    | @cons _ _ _ head tail _ _ describedHead describedTail =>
      obtain ⟨m, runsHead, runsTail⟩ := Loading.runs_append_iff.mp runs
      rw [List.map_cons, List.append_cons] at apart
      have extended := List.Nodup.of_append_left apart
      refine ⟨head, m, (first s _ m).mpr ⟨_, describedHead, runsHead⟩, ?_, tail, t, ?_, rfl, rfl⟩
      · intro member
        exact List.disjoint_of_nodup_append extended member List.mem_cons_self
      · exact (others _ extended m _ t).mpr ⟨_, ⟨describedTail, apart⟩, runsTail⟩

theorem follows_record {members : Members} {around : Option String}
    (inner : ∀ (name : TypeName) items, members.get? "fields" = some (.array items) →
      Follows (fields name.simple 0 [] items name.nameSpace) fun results steps =>
        DescribesFields name.nameSpace items results steps ∧
          ([] ++ results.map FieldOf.name).Nodup) :
    Follows (record members around) fun result steps =>
      ∃ name, result.2 = name.nameSpace ∧ DescribesRecord around members name result.1 steps := by
  intro s result t
  rw [record]
  simp only [returns_bind_iff, returns_header_iff, returns_define_iff, returns_optionalText_iff]
  constructor
  · rintro ⟨name, _, ⟨header, rfl⟩, _, m, ⟨allowed, rfl⟩, doc, _, ⟨gives, rfl⟩, rest⟩
    split at rest
    · rename_i items found
      simp only [returns_bind_iff, returns_pure_iff] at rest
      obtain ⟨all, _, run, rfl, rfl⟩ := rest
      obtain ⟨steps, ⟨described, distinct⟩, runs⟩ := (inner name items found _ _ _).mp run
      exact ⟨_, ⟨name, rfl, .mk ⟨header, rfl, gives, distinct⟩ found described⟩, allowed, runs⟩
    · exact absurd rest (not_returns_throw _ _)
    · exact absurd rest (not_returns_throw _ _)
  · rintro ⟨steps, ⟨name, isNameSpace, ⟨shape, found, described⟩⟩, allowed, runs⟩
    refine ⟨name, s, ⟨shape.header, rfl⟩, (), _, ⟨allowed, rfl⟩, result.1.doc, _,
      ⟨shape.doc, rfl⟩, ?_⟩
    split
    · rename_i items isArray
      cases found.symm.trans isArray
      have read := (inner name _ found _ _ _).mpr ⟨_, ⟨described, shape.distinct⟩, runs⟩
      simp only [returns_bind_iff, returns_pure_iff]
      refine ⟨result.1.fields, t, read, ?_, rfl⟩
      rw [← shape.named, ← isNameSpace]
    · rename_i other notArray isOther
      exact absurd (Option.some.inj (isOther.symm.trans found)) (notArray _)
    · rename_i missing
      simp [found] at missing

theorem array_eq {members : Members} {json : Json} (around : Option String)
    (found : members.get? "items" = some json) :
    array members around = do
      let items ← within .inArrayItems (type json around)
      warn? (keyClassWarning members)
      return .array items none (← optionalText members "java-class") := by
  rw [array, keyClassWarning]
  split
  · rename_i missing
    simp [found] at missing
  · rename_i other isItems
    cases found.symm.trans isItems
    cases members.get? "java-key-class" <;> rfl

theorem follows_array {members : Members} {around : Option String} (tag : String)
    (inner : ∀ json, members.get? "items" = some json →
      Follows (type json around) (Describes around json)) :
    Follows (array members around) (DescribesTagged .array tag around members) := by
  intro s result t
  cases found : members.get? "items" with
  | none =>
    have refused : array members around = throw .missingItems := by
      rw [array]
      split
      · rfl
      · rename_i json isItems
        simp [found] at isItems
    rw [refused]
    refine iff_of_false (not_returns_throw _ _) ?_
    rintro ⟨steps, described, -⟩
    cases described with
    | array isItems => simp [found] at isItems
  | some json =>
    rw [array_eq around found]
    simp only [returns_bind_iff, returns_within_iff, returns_warn?_iff, returns_optionalText_iff,
      returns_pure_iff]
    constructor
    · rintro ⟨items, m, run, _, _, warns, javaClass, _, ⟨hinted, rfl⟩, rfl, rfl⟩
      obtain ⟨steps, described, runs⟩ := (inner json found _ _ _).mp run
      exact ⟨_, .array found described hinted, runs.append warns⟩
    · rintro ⟨steps, described, runs⟩
      cases described with
      | array isItems described hinted =>
        cases found.symm.trans isItems
        obtain ⟨m, runsItems, warns⟩ := Loading.runs_append_iff.mp runs
        exact ⟨_, m, (inner _ found _ _ _).mpr ⟨_, described, runsItems⟩, (), t, warns, _, t,
          ⟨hinted, rfl⟩, rfl, rfl⟩

theorem follows_map {members : Members} {around : Option String} (tag : String)
    (inner : ∀ json, members.get? "values" = some json →
      Follows (type json around) (Describes around json)) :
    Follows (map members around) (DescribesTagged .map tag around members) := by
  intro s result t
  rw [map]
  split
  · rename_i missing
    refine iff_of_false (not_returns_throw _ _) ?_
    rintro ⟨steps, described, -⟩
    cases described with
    | map found => simp [missing] at found
  · rename_i json found
    simp only [returns_bind_iff, returns_within_iff, returns_optionalText_iff, returns_pure_iff]
    constructor
    · rintro ⟨values, m, run, keyClass, _, ⟨keyed, rfl⟩, javaClass, _, ⟨hinted, rfl⟩, rfl, rfl⟩
      obtain ⟨steps, described, runs⟩ := (inner json found _ _ _).mp run
      exact ⟨steps, .map found described keyed hinted, runs⟩
    · rintro ⟨steps, described, runs⟩
      cases described with
      | map isValues described keyed hinted =>
        cases found.symm.trans isValues
        exact ⟨_, t, (inner _ found _ _ _).mpr ⟨steps, described, runs⟩, _, t, ⟨keyed, rfl⟩, _, t,
          ⟨hinted, rfl⟩, rfl, rfl⟩

/-- An object whose tag is an object or a list stands for that tag. -/
theorem follows_tagged_wrapped {members : Members} {inner : Json} {around : Option String}
    (found : members.get? "type" = some inner) (untagged : inner.text? = none)
    (same : tagged members around = type inner around)
    (follows : Follows (type inner around) (Describes around inner)) :
    Follows (tagged members around) (Describes around (.object members)) := by
  intro s result t
  rw [same, follows s result t]
  constructor
  · rintro ⟨steps, described, runs⟩
    exact ⟨steps, .wrapped found untagged described, runs⟩
  · rintro ⟨steps, described, runs⟩
    cases described with
    | wrapped isInner _ described =>
      cases found.symm.trans isInner
      exact ⟨steps, described, runs⟩
    | tagged isTag _ _ =>
      cases found.symm.trans isTag
      cases untagged

theorem tagged_object {members inner : Members} (around : Option String)
    (found : members.get? "type" = some (.object inner)) :
    tagged members around = type (.object inner) around := by
  rw [tagged, type]
  split <;> rename_i isInner <;> cases found.symm.trans isInner
  · rfl
  · rename_i notObject _ _
    exact absurd rfl (notObject inner)

theorem tagged_array {members : Members} {inner : List Json} (around : Option String)
    (found : members.get? "type" = some (.array inner)) :
    tagged members around = type (.array inner) around := by
  rw [tagged]
  split <;> rename_i isInner <;> cases found.symm.trans isInner
  · rfl
  · rename_i notArray _
    exact absurd rfl (notArray inner)

theorem tagged_eq {members : Members} {tag : String} (around : Option String)
    (found : members.get? "type" = some (.string tag)) :
    tagged members around =
      match kind? tag with
      | some .record => return .record (← record members around).1
      | some .enum => return .enum (← enum members around)
      | some .array => array members around
      | some .map => map members around
      | some .primitive => annotatedPrimitive members tag
      | none => throw (unknownTag tag) := by
  rw [tagged]
  split <;> rename_i isTag <;> cases found.symm.trans isTag
  · rfl
  · rename_i notTag
    exact absurd rfl (notTag tag)

theorem follows_tagged_kind {members : Members} {tag : String} {kind : Kind}
    {around : Option String} (found : members.get? "type" = some (.string tag))
    (known : kind? tag = some kind)
    (follows : Follows (tagged members around) (DescribesTagged kind tag around members)) :
    Follows (tagged members around) (Describes around (.object members)) := by
  intro s result t
  rw [follows s result t]
  constructor
  · rintro ⟨steps, described, runs⟩
    exact ⟨steps, .tagged found known described, runs⟩
  · rintro ⟨steps, described, runs⟩
    cases described with
    | wrapped isInner untagged _ =>
      cases found.symm.trans isInner
      cases untagged
    | tagged isTag isKind described =>
      cases found.symm.trans isTag
      cases known.symm.trans isKind
      exact ⟨steps, described, runs⟩

theorem follows_tagged_record {members : Members} {tag : String} {around : Option String}
    (found : members.get? "type" = some (.string tag)) (known : kind? tag = some .record)
    (follows : Follows (record members around) fun result steps =>
      ∃ name, result.2 = name.nameSpace ∧ DescribesRecord around members name result.1 steps) :
    Follows (tagged members around) (Describes around (.object members)) := by
  apply follows_tagged_kind found known
  intro s type t
  rw [tagged_eq around found, known]
  simp only [returns_bind_iff, returns_pure_iff]
  constructor
  · rintro ⟨result, _, run, rfl, rfl⟩
    obtain ⟨steps, ⟨name, -, described⟩, runs⟩ := (follows s result _).mp run
    exact ⟨steps, .record described, runs⟩
  · rintro ⟨steps, described, runs⟩
    cases described with
    | @record _ _ _ name type _ described =>
      exact ⟨(type, name.nameSpace), t, (follows s _ t).mpr ⟨steps, ⟨name, rfl, described⟩, runs⟩,
        rfl, rfl⟩

theorem follows_tagged_enum {members : Members} {tag : String} {around : Option String}
    (found : members.get? "type" = some (.string tag)) (known : kind? tag = some .enum) :
    Follows (tagged members around) (Describes around (.object members)) := by
  apply follows_tagged_kind found known
  intro s type t
  rw [tagged_eq around found, known]
  simp only [returns_bind_iff, returns_enum_iff, returns_pure_iff]
  constructor
  · rintro ⟨type, _, ⟨name, shape, runs⟩, rfl, rfl⟩
    exact ⟨_, .enum shape, runs⟩
  · rintro ⟨steps, described, runs⟩
    cases described with
    | enum shape => exact ⟨_, t, ⟨_, shape, runs⟩, rfl, rfl⟩

theorem follows_tagged_primitive {members : Members} {tag : String} {around : Option String}
    (found : members.get? "type" = some (.string tag)) (known : kind? tag = some .primitive) :
    Follows (tagged members around) (Describes around (.object members)) := by
  apply follows_tagged_kind found known
  intro s type t
  rw [tagged_eq around found, known]
  simp only [returns_annotatedPrimitive_iff]
  constructor
  · rintro ⟨⟨javaClass, hinted, rfl⟩, runs⟩
    exact ⟨_, .primitive hinted, runs⟩
  · rintro ⟨steps, described, runs⟩
    cases described with
    | primitive hinted => exact ⟨⟨_, hinted, rfl⟩, runs⟩

theorem follows_tagged_unknown {members : Members} {tag : String} {around : Option String}
    (found : members.get? "type" = some (.string tag)) (unknown : kind? tag = none) :
    Follows (tagged members around) (Describes around (.object members)) := by
  rw [tagged_eq around found, unknown]
  apply Follows.of_throw
  intro result steps described
  cases described with
  | wrapped isInner untagged _ =>
    cases found.symm.trans isInner
    cases untagged
  | tagged isTag known _ =>
    cases found.symm.trans isTag
    cases unknown.symm.trans known

theorem tagged_invalid {members : Members} {other : Json} (around : Option String)
    (found : members.get? "type" = some other) (notObject : ∀ inner, other ≠ .object inner)
    (notArray : ∀ inner, other ≠ .array inner) (notText : ∀ tag, other ≠ .string tag) :
    tagged members around = throw (.invalidTag other) := by
  rw [tagged]
  split <;> rename_i isOther <;> cases found.symm.trans isOther
  · exact absurd rfl (notObject _)
  · exact absurd rfl (notArray _)
  · exact absurd rfl (notText _)
  · rfl

theorem tagged_missing {members : Members} (around : Option String)
    (missing : members.get? "type" = none) : tagged members around = throw .missingTag := by
  rw [tagged]
  split <;> rename_i found <;> cases missing.symm.trans found
  rfl

theorem follows_tagged_invalid {members : Members} {other : Json} {around : Option String}
    (found : members.get? "type" = some other) (notObject : ∀ inner, other ≠ .object inner)
    (notArray : ∀ inner, other ≠ .array inner) (notText : ∀ tag, other ≠ .string tag) :
    Follows (tagged members around) (Describes around (.object members)) := by
  rw [tagged_invalid around found notObject notArray notText]
  apply Follows.of_throw
  intro result steps described
  cases described with
  | wrapped isInner _ described =>
    cases found.symm.trans isInner
    cases described with
    | word _ | reference _ _ => exact notText _ rfl
    | union _ _ => exact notArray _ rfl
    | wrapped _ _ _ | tagged _ _ _ => exact notObject _ rfl
  | tagged isTag _ _ =>
    cases found.symm.trans isTag
    exact notText _ rfl

theorem follows_tagged_missing {members : Members} (around : Option String)
    (missing : members.get? "type" = none) :
    Follows (tagged members around) (Describes around (.object members)) := by
  rw [tagged_missing around missing]
  apply Follows.of_throw
  intro result steps described
  cases described with
  | wrapped found _ _ => cases missing.symm.trans found
  | tagged found _ _ => cases missing.symm.trans found

theorem follows_type_string (name : String) (around : Option String) :
    Follows (type (.string name) around) (Describes around (.string name)) := by
  intro s result t
  rw [type, returns_word_iff]

theorem follows_type_union {items : List Json} {around : Option String} (nonempty : items ≠ [])
    (follows : Follows (unionMembers 0 items around) (DescribesAll around items)) :
    Follows (type (.array items) around) (Describes around (.array items)) := by
  intro s result t
  rw [type]
  · simp only [returns_bind_iff, returns_pure_iff]
    constructor
    · rintro ⟨types, _, run, rfl, rfl⟩
      obtain ⟨steps, described, runs⟩ := (follows s types _).mp run
      exact ⟨steps, .union nonempty described, runs⟩
    · rintro ⟨steps, described, runs⟩
      cases described with
      | union _ all => exact ⟨_, t, (follows s _ t).mpr ⟨steps, all, runs⟩, rfl, rfl⟩
  · exact nonempty

theorem follows_type_object {members : Members} {around : Option String}
    (follows : Follows (tagged members around) (Describes around (.object members))) :
    Follows (type (.object members) around) (Describes around (.object members)) := by
  rwa [type]

/-- The functions that call each other follow the grammars that refer to each other. -/
theorem follows_grammar :
    (∀ json around, Follows (type json around) (Describes around json)) ∧
    (∀ members around, Follows (tagged members around) (Describes around (.object members))) ∧
    (∀ members around tag,
      Follows (map members around) (DescribesTagged .map tag around members)) ∧
    (∀ members around tag,
      Follows (array members around) (DescribesTagged .array tag around members)) ∧
    (∀ members around, Follows (record members around) fun result steps =>
      ∃ name, result.2 = name.nameSpace ∧ DescribesRecord around members name result.1 steps) ∧
    (∀ record index seen items around, seen.Nodup →
      Follows (fields record index seen items around) fun results steps =>
        DescribesFields around items results steps ∧ (seen ++ results.map FieldOf.name).Nodup) ∧
    (∀ json around, Follows (field json around) (DescribesField around json)) ∧
    (∀ index members around,
      Follows (unionMembers index members around) (DescribesAll around members)) := by
  apply type.mutual_induct
  -- The cases of `type`, in the order of its branches.
  case case1 =>
    intro around name
    exact follows_type_string name around
  case case2 =>
    intro around
    rw [type]
    apply Follows.of_throw
    rintro type steps described
    cases described with
    | union nonempty _ => exact nonempty rfl
  case case3 =>
    intro around items nonempty follows
    exact follows_type_union nonempty follows
  case case4 =>
    intro around members follows
    exact follows_type_object follows
  case case5 =>
    intro around other notText notEmpty notArray notObject
    have refused : type other around = throw (.invalidSchema other) := by
      rw [type]
      · exact notText
      · exact notEmpty
      · exact notArray
      · exact notObject
    rw [refused]
    apply Follows.of_throw
    rintro result steps described
    cases described with
    | word _ | reference _ _ => exact notText _ rfl
    | union _ _ => exact notArray _ rfl
    | wrapped _ _ _ | tagged _ _ _ => exact notObject _ rfl
  -- Those of `tagged`.
  case case6 =>
    intro members around inner found follows
    have same := tagged_object around found
    exact follows_tagged_wrapped found rfl same (follows_type_object follows)
  case case7 =>
    intro members around inner found follows
    have same := tagged_array around found
    exact follows_tagged_wrapped found rfl same follows
  case case8 =>
    intro members around tag found known follows
    exact follows_tagged_record found known follows
  case case9 =>
    intro members around tag found known
    exact follows_tagged_enum found known
  case case10 =>
    intro members around tag found known follows
    apply follows_tagged_kind found known
    rw [tagged_eq around found, known]
    exact follows tag
  case case11 =>
    intro members around tag found known follows
    apply follows_tagged_kind found known
    rw [tagged_eq around found, known]
    exact follows tag
  case case12 =>
    intro members around tag found known
    exact follows_tagged_primitive found known
  case case13 =>
    intro members around tag found unknown
    exact follows_tagged_unknown found unknown
  case case14 =>
    intro members around other notObject notArray notText found
    exact follows_tagged_invalid found notObject notArray notText
  case case15 =>
    intro members around missing
    exact follows_tagged_missing around missing
  -- Those of `map` and `array`: what is missing describes nothing.
  case case16 =>
    intro members around missing tag
    apply follows_map
    intro json found
    cases missing.symm.trans found
  case case17 =>
    intro members around json found follows tag
    apply follows_map
    intro other isOther
    cases found.symm.trans isOther
    exact follows
  case case18 =>
    intro members around missing tag
    apply follows_array
    intro json found
    cases missing.symm.trans found
  case case19 =>
    intro members around json found follows tag
    apply follows_array
    intro other isOther
    cases found.symm.trans isOther
    exact follows
  -- Records and their fields.
  case case20 =>
    intro members around follows
    apply follows_record
    intro name items found
    exact follows name items found List.nodup_nil
  case case21 =>
    intro record index seen around distinct
    exact follows_fields_nil record index seen around distinct
  case case22 =>
    intro record index seen around item rest first others distinct
    exact follows_fields_cons distinct first others
  case case23 =>
    intro around members follows
    exact follows_field follows
  case case24 =>
    intro json around other
    exact follows_field_other around other
  -- The members of a union.
  case case25 =>
    intro index around
    exact follows_unionMembers_nil index around
  case case26 =>
    intro index around member rest first others
    exact follows_unionMembers_cons first others

theorem follows_record_none (members : Members) :
    Follows (record members none) fun result steps =>
      ∃ name, result.2 = name.nameSpace ∧ DescribesRecord none members name result.1 steps :=
  follows_grammar.2.2.2.2.1 members none

end AvroIdl.Load
