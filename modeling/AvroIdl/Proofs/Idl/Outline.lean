import AvroIdl.Proofs.Idl.Words
import AvroIdl.Proofs.Schema.Nodes
import AvroIdl.Schema.Load

/-
The spelling of a type tells the type, except whether a name is that of a definition or of a
reference. It is read from left to right: the hints, a word, and what the word takes.
-/
set_option autoImplicit false

namespace AvroIdl

namespace AvroType

mutual

/-- The names and hints in the spelling of a type can be told from the signs around them. -/
def Legible : AvroType → Prop
  | .null => True
  | .int javaClass | .long javaClass | .string javaClass | .boolean javaClass => Unquoted javaClass
  | .enum type => IsTypeWord type.name
  | .record type => IsTypeWord type.name
  | .union members => AllLegible members
  | .map values keyClass javaClass => values.Legible ∧ Unquoted keyClass ∧ Unquoted javaClass
  | .array items keyClass javaClass => items.Legible ∧ Unquoted keyClass ∧ Unquoted javaClass
  | .reference name => IsTypeWord name

def AllLegible : List AvroType → Prop
  | [] => True
  | type :: rest => type.Legible ∧ AllLegible rest

end

theorem allLegible_iff (types : List AvroType) :
    AllLegible types ↔ ∀ type ∈ types, type.Legible := by
  induction types with
  | nil => simp [AllLegible]
  | cons type rest ih => simp [AllLegible, ih]

mutual

/-- The type in which every definition is replaced by its name. -/
def outline : AvroType → AvroType
  | .null => .null
  | .int javaClass => .int javaClass
  | .long javaClass => .long javaClass
  | .string javaClass => .string javaClass
  | .boolean javaClass => .boolean javaClass
  | .enum type => .reference type.name
  | .record type => .reference type.name
  | .union members => .union (outlines members)
  | .map values keyClass javaClass => .map values.outline keyClass javaClass
  | .array items keyClass javaClass => .array items.outline keyClass javaClass
  | .reference name => .reference name

def outlines : List AvroType → List AvroType
  | [] => []
  | type :: rest => type.outline :: outlines rest

end

theorem outlines_eq_map (types : List AvroType) : outlines types = types.map outline := by
  induction types with
  | nil => rfl
  | cons type rest ih => rw [outlines, ih, List.map_cons]

def keyClass : AvroType → Option String
  | .map _ keyClass _ | .array _ keyClass _ => keyClass
  | _ => none

def javaClass : AvroType → Option String
  | .int javaClass | .long javaClass | .string javaClass | .boolean javaClass => javaClass
  | .map _ _ javaClass | .array _ _ javaClass => javaClass
  | _ => none

def word : AvroType → String
  | .null => "null"
  | .int _ => "int"
  | .long _ => "long"
  | .string _ => "string"
  | .boolean _ => "boolean"
  | .enum type => type.name
  | .record type => type.name
  | .union _ => "union"
  | .map _ _ _ => "map"
  | .array _ _ _ => "array"
  | .reference name => name

/-- What stands after the word of a type. -/
inductive Body
  | nothing
  | members (types : List AvroType)
  | inside (type : AvroType)

def body : AvroType → Body
  | .union members => .members members
  | .map values _ _ => .inside values
  | .array items _ _ => .inside items
  | _ => .nothing

def Body.text : Body → String
  | .nothing => ""
  | .members types => " \x7b " ++ ", ".intercalate (types.map spelling) ++ " \x7d"
  | .inside type => "<" ++ type.spelling ++ ">"

def Body.outline : Body → Body
  | .nothing => .nothing
  | .members types => .members (types.map AvroType.outline)
  | .inside type => .inside type.outline

theorem spelling_eq (type : AvroType) :
    type.spelling =
      keyClassHint type.keyClass ++ classHint type.javaClass ++ type.word ++ type.body.text := by
  cases type with
  | union members =>
    have opening : "union \x7b " = "union" ++ " \x7b " := rfl
    simp only [spelling, keyClass, javaClass, word, body, Body.text, keyClassHint, classHint, hint,
      spellings_eq_map, String.empty_append, String.append_assoc]
    rw [opening, String.append_assoc]
  | map values keyClass javaClass =>
    have opening : "map<" = "map" ++ "<" := rfl
    simp only [spelling, AvroType.keyClass, AvroType.javaClass, word, body, Body.text,
      String.append_assoc]
    rw [opening, String.append_assoc]
  | array items keyClass javaClass =>
    have opening : "array<" = "array" ++ "<" := rfl
    simp only [spelling, AvroType.keyClass, AvroType.javaClass, word, body, Body.text,
      String.append_assoc]
    rw [opening, String.append_assoc]
  | _ => simp [spelling, keyClass, javaClass, word, body, Body.text, keyClassHint, classHint, hint]

/-- The outline of the type with these parts. -/
def assemble (word : String) (keyClass javaClass : Option String) : Body → AvroType
  | .nothing => (Load.primitive? word javaClass).getD (.reference word)
  | .members types => .union types
  | .inside type =>
    if word = "map" then .map type keyClass javaClass else .array type keyClass javaClass

theorem primitive?_of_not_keyword {name : String} (other : name ∉ keywords)
    (javaClass : Option String) : Load.primitive? name javaClass = none := by
  fun_cases Load.primitive? name javaClass with
  | case6 => rfl
  | _ => exact absurd other (by decide)

theorem Legible.outline_eq {type : AvroType} (legible : type.Legible) :
    type.outline = assemble type.word type.keyClass type.javaClass type.body.outline := by
  cases type with
  | enum type | record type | reference name =>
    simp only [body, Body.outline, assemble]
    rw [word, primitive?_of_not_keyword legible.2]
    rfl
  | union members =>
    rw [outline, outlines_eq_map]
    rfl
  | _ => rfl

theorem Legible.isWord {type : AvroType} (legible : type.Legible) : IsWord type.word := by
  cases type with
  | enum type | record type | reference name => exact legible.1
  | _ => exact isWord_of_keyword _ (by simp [word, keywords])

theorem Legible.unquoted {type : AvroType} (legible : type.Legible) :
    Unquoted type.keyClass ∧ Unquoted type.javaClass := by
  have nothing : Unquoted none := by
    rintro text ⟨⟩
  cases type with
  | int | long | string | boolean => exact ⟨nothing, legible⟩
  | map | array => exact legible.2
  | _ => exact ⟨nothing, nothing⟩

/-- What may follow the spelling of a type. -/
def Ends (rest : List Char) : Prop :=
  Begins (fun c => !isWordChar c && c != '<') rest ∧ ¬ " \x7b".toList <+: rest

theorem Ends.of_cons {c : Char} (stops : (!isWordChar c && c != '<') = true) (blank : c ≠ ' ')
    (rest : List Char) : Ends (c :: rest) := by
  refine ⟨begins_cons.mpr stops, ?_⟩
  intro begun
  exact blank (List.cons_prefix_cons.mp begun).1.symm

theorem Ends.of_blank {c : Char} (brace : c ≠ '\x7b') (rest : List Char) :
    Ends (' ' :: c :: rest) := by
  refine ⟨begins_cons.mpr rfl, ?_⟩
  intro begun
  have second := (List.cons_prefix_cons.mp begun).2
  exact brace (List.cons_prefix_cons.mp second).1.symm

theorem opens_hint {p : Char → Bool} (sign : p '@' = true) {rest : List Char} (opens : Opens p rest)
    (name : String) (value : Option String) : Opens p ((hint name value).toList ++ rest) := by
  cases value with
  | none => exact opens
  | some text =>
    rw [hint, annotationText]
    simp only [String.toList_append, List.append_assoc]
    exact ⟨'@', rfl, sign⟩

theorem Legible.opens {type : AvroType} (legible : type.Legible) :
    Opens (fun c => isWordChar c || c == '@') type.spelling.toList := by
  have words : ∀ c, isWordChar c = true → (isWordChar c || c == '@') = true := by
    intro c holds
    rw [holds]
    rfl
  rw [spelling_eq]
  simp only [String.toList_append, List.append_assoc]
  exact opens_hint rfl (opens_hint rfl ((legible.isWord.opens.mono words).append _) _ _) _ _

/-- The types that are spelled in a body. -/
def Body.types : Body → List AvroType
  | .nothing => []
  | .members types => types
  | .inside type => [type]

theorem Body.toList_members (types : List AvroType) :
    (Body.members types).text.toList = " \x7b ".toList ++
      (", ".toList.intercalate (types.map fun type => type.spelling.toList) ++ " \x7d".toList) := by
  simp only [text, String.toList_append, String.toList_intercalate, List.map_map, List.append_assoc]
  rfl

theorem Body.toList_inside (type : AvroType) :
    (Body.inside type).text.toList = "<".toList ++ (type.spelling.toList ++ ">".toList) := by
  simp only [text, String.toList_append, List.append_assoc]

theorem Ends.ne_members {rest : List Char} (stops : Ends rest) (types : List AvroType)
    (rest' : List Char) : rest ≠ (Body.members types).text.toList ++ rest' := by
  intro same
  rw [Body.toList_members, List.append_assoc] at same
  exact stops.2 ⟨' ' :: _, same.symm⟩

theorem Ends.ne_inside {rest : List Char} (stops : Ends rest) (type : AvroType)
    (rest' : List Char) : rest ≠ (Body.inside type).text.toList ++ rest' := by
  intro same
  rw [Body.toList_inside, List.append_assoc] at same
  have angle : ('<' : Char) ∈ rest.head? := by
    rw [same]
    rfl
  exact absurd (stops.1 '<' angle) (by decide)

theorem Body.members_ne_inside (types : List AvroType) (type : AvroType) (rest rest' : List Char) :
    (Body.members types).text.toList ++ rest ≠ (Body.inside type).text.toList ++ rest' := by
  intro same
  rw [toList_members, toList_inside] at same
  exact absurd (List.head_eq_of_cons_eq same) (by decide)

section Bodies

variable {ok : AvroType → Prop}
  (inner : Readable (fun type : AvroType => type.spelling.toList) outline ok Ends)

include inner

theorem readable_inside :
    Readable (fun type : AvroType => type.spelling.toList ++ ">".toList) outline ok Anything := by
  exact inner.closed ">".toList fun rest => Ends.of_cons rfl (by decide) rest

theorem readable_members (legible : ∀ type, ok type → type.Legible) :
    Readable (fun types : List AvroType =>
        ", ".toList.intercalate (types.map fun type => type.spelling.toList) ++ " \x7d".toList)
      (List.map outline) (fun types => ∀ type ∈ types, ok type) Anything := by
  apply readable_joined inner
  · intro rest
    exact Ends.of_cons rfl (by decide) _
  · intro rest
    exact Ends.of_blank (by decide) rest
  · intro type rest rest' _ same
    exact absurd (List.head_eq_of_cons_eq same) (by decide)
  · intro type rest rest' isOk same
    exact ((legible type isOk).opens.append rest).not_isPrefix ⟨' ', rfl, rfl⟩ ⟨rest', same.symm⟩

/-- A body can be read back if the types in it can. -/
theorem readable_body (legible : ∀ type, ok type → type.Legible) :
    Readable (fun body : Body => body.text.toList) Body.outline
      (fun body => ∀ type ∈ body.types, ok type) Ends := by
  intro a b rest rest' okA okB stops stops' same
  dsimp only at same
  cases a with
  | nothing =>
    cases b with
    | nothing => exact ⟨rfl, same⟩
    | members others => exact absurd same (stops.ne_members others rest')
    | inside other => exact absurd same (stops.ne_inside other rest')
  | members types =>
    cases b with
    | nothing => exact absurd same.symm (stops'.ne_members types rest)
    | members others =>
      rw [Body.toList_members, Body.toList_members, List.append_assoc " \x7b ".toList,
        List.append_assoc " \x7b ".toList] at same
      obtain ⟨outlines, after⟩ := readable_members inner legible okA okB trivial trivial
        (List.append_cancel_left same)
      exact ⟨congrArg Body.members outlines, after⟩
    | inside other => exact absurd same (Body.members_ne_inside types other rest rest')
  | inside type =>
    cases b with
    | nothing => exact absurd same.symm (stops'.ne_inside type rest)
    | members others => exact absurd same.symm (Body.members_ne_inside others type rest' rest)
    | inside other =>
      rw [Body.toList_inside, Body.toList_inside, List.append_assoc "<".toList,
        List.append_assoc "<".toList] at same
      obtain ⟨outlines, after⟩ := readable_inside inner (okA type List.mem_cons_self)
        (okB other List.mem_cons_self) trivial trivial (List.append_cancel_left same)
      exact ⟨congrArg Body.inside outlines, after⟩

end Bodies

theorem readable_keyClassHint :
    Readable (fun value => (keyClassHint value).toList) id Unquoted
      (fun rest => ¬ "@java-key-class(\"".toList <+: rest) :=
  readable_annotationText keyClassHint "" "java-key-class" " " "@java-key-class(\"" (by simp) rfl
    (by simp [keyClassHint, hint])

theorem readable_classHint :
    Readable (fun value => (classHint value).toList) id Unquoted
      (fun rest => ¬ "@java-class(\"".toList <+: rest) :=
  readable_annotationText classHint "" "java-class" " " "@java-class(\"" (by simp) rfl
    (by simp [classHint, hint])

theorem not_keyClassHint {word : String} (isWord : IsWord word) (javaClass : Option String)
    (rest : List Char) :
    ¬ "@java-key-class(\"".toList <+: (classHint javaClass).toList ++ (word.toList ++ rest) := by
  cases javaClass with
  | none => exact (isWord.opens.append rest).not_isPrefix ⟨'@', rfl, rfl⟩
  | some text =>
    rw [classHint, hint, annotationText]
    simp [List.cons_prefix_cons]

theorem begins_body {rest : List Char} (stops : Ends rest) (body : Body) :
    Begins (fun c => !isWordChar c) (body.text.toList ++ rest) := by
  cases body with
  | nothing =>
    intro c first
    have both := stops.1 c first
    rw [Bool.and_eq_true] at both
    exact both.1
  | members types =>
    rw [Body.toList_members]
    exact begins_cons.mpr rfl
  | inside type =>
    rw [Body.toList_inside]
    exact begins_cons.mpr rfl

theorem mem_parts_of_mem_types {type inner : AvroType} (member : inner ∈ type.body.types) :
    inner ∈ type.parts := by
  cases type with
  | union | map | array => exact member
  | _ => cases member

theorem Legible.of_mem_types {type inner : AvroType} (legible : type.Legible)
    (member : inner ∈ type.body.types) : inner.Legible := by
  cases type with
  | union members => exact (allLegible_iff members).mp legible inner member
  | map | array =>
    cases List.mem_singleton.mp member
    exact legible.1
  | _ => cases member

/-- The induction is on a bound of both sizes, as nothing is known yet of the second type when the
first one is taken apart. -/
theorem readable_spelling_below (bound : Nat) :
    Readable (fun type : AvroType => type.spelling.toList) outline
      (fun type => type.Legible ∧ sizeOf type < bound) Ends := by
  induction bound with
  | zero =>
    rintro a b rest rest' ⟨-, less⟩
    exact absurd less (Nat.not_lt_zero _)
  | succ bound ih =>
    rintro a b rest rest' ⟨legibleA, sizeA⟩ ⟨legibleB, sizeB⟩ stops stops' same
    dsimp only at same
    rw [spelling_eq, spelling_eq] at same
    simp only [String.toList_append, List.append_assoc] at same
    obtain ⟨keyClasses, same⟩ := readable_keyClassHint legibleA.unquoted.1 legibleB.unquoted.1
      (not_keyClassHint legibleA.isWord _ _) (not_keyClassHint legibleB.isWord _ _) same
    obtain ⟨javaClasses, same⟩ := readable_classHint legibleA.unquoted.2 legibleB.unquoted.2
      ((legibleA.isWord.opens.append _).not_isPrefix ⟨'@', rfl, rfl⟩)
      ((legibleB.isWord.opens.append _).not_isPrefix ⟨'@', rfl, rfl⟩) same
    obtain ⟨words, same⟩ := readable_word legibleA.isWord legibleB.isWord
      (begins_body stops _) (begins_body stops' _) same
    have inner : ∀ {type : AvroType}, type.Legible → sizeOf type < bound + 1 →
        ∀ part ∈ type.body.types, part.Legible ∧ sizeOf part < bound := by
      intro type legible size part member
      have less := sizeOf_lt_of_mem_parts (mem_parts_of_mem_types member)
      exact ⟨legible.of_mem_types member, by omega⟩
    obtain ⟨bodies, same⟩ := readable_body ih (fun _ isOk => isOk.1) (inner legibleA sizeA)
      (inner legibleB sizeB) stops stops' same
    refine ⟨?_, same⟩
    simp only [id_eq] at keyClasses javaClasses words
    rw [legibleA.outline_eq, legibleB.outline_eq, keyClasses, javaClasses, words, bodies]

/-- The spelling of a type tells its outline. -/
theorem readable_spelling :
    Readable (fun type : AvroType => type.spelling.toList) outline Legible Ends := by
  intro a b rest rest' legibleA legibleB
  exact readable_spelling_below (sizeOf a + sizeOf b + 1) ⟨legibleA, by omega⟩
    ⟨legibleB, by omega⟩

theorem ends_nil : Ends [] :=
  ⟨begins_nil _, fun begun => absurd (List.prefix_nil.mp begun) (by decide)⟩

mutual

/-- A definition is spelled by its name only. -/
theorem spelling_outline (type : AvroType) : type.outline.spelling = type.spelling := by
  cases type with
  | union members => rw [outline, spelling, spelling, spellings_outlines members]
  | map values keyClass javaClass | array values keyClass javaClass =>
    rw [outline, spelling, spelling, spelling_outline values]
  | _ => rfl

theorem spellings_outlines (types : List AvroType) :
    spellings (outlines types) = spellings types := by
  cases types with
  | nil => rfl
  | cons type rest =>
    rw [outlines, spellings, spellings, spelling_outline type, spellings_outlines rest]

end

/-- Two types are spelled alike exactly if they are the same once each definition is replaced by
its name. This is so if no hint has a quote in it, and each name is a word that is no keyword. -/
theorem spelling_eq_iff_outline_eq {a b : AvroType} (legibleA : a.Legible)
    (legibleB : b.Legible) : a.spelling = b.spelling ↔ a.outline = b.outline := by
  constructor
  · intro same
    have texts : a.spelling.toList ++ [] = b.spelling.toList ++ [] := by rw [same]
    exact (readable_spelling legibleA legibleB ends_nil ends_nil texts).1
  · intro same
    rw [← spelling_outline a, same, spelling_outline b]

/-- Hints that look like annotations and brackets, around a definition or its name. -/
def crowded (inner : AvroType) : AvroType :=
  .union [.map inner (some "K> @java-class(") (some ", null \x7d"), .union [],
    .array (.reference "n.Größe_1") (some "k") none, .null]

theorem crowded_is_told :
    (crowded (.enum ⟨"union.E", some "doc", ["A"]⟩)).Legible ∧
      (crowded (.reference "union.E")).Legible ∧
      (crowded (.enum ⟨"union.E", some "doc", ["A"]⟩)).spelling =
        (crowded (.reference "union.E")).spelling ∧
      (crowded (.enum ⟨"union.E", some "doc", ["A"]⟩)).outline =
        (crowded (.reference "union.E")).outline := by
  have words : IsTypeWord "union.E" ∧ IsTypeWord "n.Größe_1" := by
    simp [IsTypeWord, IsWord, isWordChar, signs, keywords]
  have unquoted : Unquoted (some "K> @java-class(") ∧ Unquoted (some ", null \x7d") ∧
      Unquoted (some "k") ∧ Unquoted none := by
    simp [Unquoted]
  have legible : ∀ inner : AvroType, inner.Legible → (crowded inner).Legible := by
    intro inner isLegible
    exact ⟨⟨isLegible, unquoted.1, unquoted.2.1⟩, trivial,
      ⟨words.2, unquoted.2.2.1, unquoted.2.2.2⟩, trivial, trivial⟩
  have legibleA := legible (.enum ⟨"union.E", some "doc", ["A"]⟩) words.1
  have legibleB := legible (.reference "union.E") words.1
  have same : (crowded (.enum ⟨"union.E", some "doc", ["A"]⟩)).spelling =
      (crowded (.reference "union.E")).spelling := rfl
  exact ⟨legibleA, legibleB, same, (spelling_eq_iff_outline_eq legibleA legibleB).mp same⟩

end AvroType

end AvroIdl
