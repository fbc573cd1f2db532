import AvroIdl.Idl.Block
import AvroIdl.Proofs.Idl.Comments
import AvroIdl.Proofs.Idl.Outline
import AvroIdl.Proofs.Idl.ReadLiterals

/-
The lines of fields and the blocks of records and enums can be read back, up to what the
outlines of their types leave out.
-/
set_option autoImplicit false

namespace AvroIdl

structure Field.Legible (field : Field) : Prop where
  name : IsWord field.name
  type : field.type.Legible
  doc : ∀ text ∈ field.doc, Unclosed text
  default : ∀ value ∈ field.default, value.WellSpelled
  userDataType : Unquoted field.userDataType

def Field.outline (field : Field) : Field :=
  ⟨field.name, field.type.outline, field.doc, field.default, field.userDataType⟩

namespace Declaration

/-- The names and texts in the block of a definition can be told from the signs around them. -/
def Legible : Declaration → Prop
  | .record type =>
    IsWord type.name ∧ (∀ text ∈ type.doc, Unclosed text) ∧
      ∀ field ∈ type.fields, Field.Legible field
  | .enum type =>
    IsWord type.name ∧ (∀ text ∈ type.doc, Unclosed text) ∧ ∀ symbol ∈ type.symbols, IsWord symbol

/-- What the block of a definition tells of it. -/
def outline : Declaration → Declaration
  | .record type => .record ⟨type.name, type.doc, type.fields.map Field.outline⟩
  | .enum type => .enum type

end Declaration

/-- A text that begins like the end of a comment, and is not the end of one, holds the closing
mark. -/
theorem isInfix_of_cons {c : Char} {text rest rest' : List Char}
    (same : " */\n".toList ++ rest = c :: text ++ (" */\n".toList ++ rest')) :
    "*/".toList <:+: c :: text := by
  have first := List.head_eq_of_cons_eq same
  have after := List.tail_eq_of_cons_eq same
  cases text with
  | nil => exact absurd (List.head_eq_of_cons_eq after) (by decide)
  | cons d text =>
    have second := List.head_eq_of_cons_eq after
    have last := List.tail_eq_of_cons_eq after
    cases text with
    | nil => exact absurd (List.head_eq_of_cons_eq last) (by decide)
    | cons e text =>
      have third := List.head_eq_of_cons_eq last
      rw [← first, ← second, ← third]
      exact ⟨[' '], text, rfl⟩

/-- A comment ends at its first closing mark. -/
theorem comment_injective {text other rest rest' : List Char} (unclosed : ¬ "*/".toList <:+: text)
    (unclosed' : ¬ "*/".toList <:+: other)
    (same : text ++ (" */\n".toList ++ rest) = other ++ (" */\n".toList ++ rest')) :
    text = other ∧ rest = rest' := by
  induction text generalizing other with
  | nil =>
    cases other with
    | nil => exact ⟨rfl, List.append_cancel_left same⟩
    | cons d other => exact absurd (isInfix_of_cons same) unclosed'
  | cons c text ih =>
    cases other with
    | nil => exact absurd (isInfix_of_cons same.symm) unclosed
    | cons d other =>
      obtain ⟨rfl, after⟩ := ih (fun found => unclosed (List.infix_cons found))
        (fun found => unclosed' (List.infix_cons found)) (List.tail_eq_of_cons_eq same)
      rw [List.head_eq_of_cons_eq same]
      exact ⟨rfl, after⟩

theorem readable_comment :
    Readable (fun text : String => text.toList ++ " */\n".toList) id Unclosed Anything := by
  intro a b rest rest' unclosedA unclosedB _ _ same
  simp only [List.append_assoc] at same
  obtain ⟨texts, after⟩ := comment_injective unclosedA unclosedB same
  exact ⟨String.toList_inj.mp texts, after⟩

theorem readable_docComment (level : Nat) :
    Readable (fun doc => (docComment doc level).toList) id (fun doc => ∀ text ∈ doc, Unclosed text)
      (fun rest => ¬ ((indent level).toList ++ "/** ".toList) <+: rest) := by
  intro a b rest rest' okA okB stops stops' same
  have readable := readable_option (fun doc => (docComment doc level).toList)
    ((indent level).toList ++ "/** ".toList) rfl
    (by intro text; simp only [docComment, String.toList_append, List.append_assoc])
    readable_comment
  obtain ⟨found, after⟩ := readable okA okB ⟨trivial, stops⟩ ⟨trivial, stops'⟩ same
  rw [Option.map_id] at found
  exact ⟨found, after⟩

theorem ne_slash {c : Char} (first : (isWordChar c || c == '@') = true) : (c != '/') = true := by
  rw [bne_iff_ne]
  rintro rfl
  exact absurd first (by decide)

/-- What stands after an indent is no comment unless it begins with a slash. -/
theorem not_docComment {level : Nat} {rest : List Char} (opens : Opens (· != '/') rest) :
    ¬ ((indent level).toList ++ "/** ".toList) <+: (indent level).toList ++ rest := by
  rw [List.prefix_append_right_inj]
  exact opens.not_isPrefix ⟨'/', rfl, rfl⟩

theorem indent_succ (level : Nat) :
    (indent (level + 1)).toList = (indent level).toList ++ "    ".toList := by
  have longer : 4 * (level + 1 + 1) = 4 * (level + 1) + 4 := by omega
  rw [indent, indent, String.toList_ofList, String.toList_ofList, longer, List.replicate_add]
  rfl

namespace Field

theorem readable_userDataType :
    Readable (fun field : Field => (Field.userDataTypeHint field).toList) FieldOf.userDataType
      (fun field => Unquoted field.userDataType)
      (fun rest => ¬ " @userDataType(\"".toList <+: rest) := by
  have hint := readable_annotationText
    (fun name => Field.userDataTypeHint ⟨"", .null, none, none, name⟩)
    " " "userDataType" "" " @userDataType(\"" (by simp) rfl
    (by simp [userDataTypeHint])
  exact hint.comap FieldOf.userDataType

theorem readable_defaultClause :
    Readable (fun field : Field => (Field.defaultClause field).toList) FieldOf.default
      (fun field => ∀ value ∈ field.default, value.WellSpelled)
      (fun rest => Begins (· == ';') rest ∧ ¬ " = ".toList <+: rest) := by
  intro a b rest rest' okA okB stops stops' same
  have readable := readable_option
    (fun value => (Field.defaultClause ⟨"", .null, none, value, none⟩).toList) " = ".toList rfl
    (by intro value; simp only [defaultClause, String.toList_append])
    Default.readable_literal
  obtain ⟨found, after⟩ := readable okA okB stops stops' same
  rw [Option.map_id] at found
  exact ⟨found, after⟩

theorem toList_line (field : Field) (level : Nat) (rest : List Char) :
    (Field.line field level).toList ++ rest =
      (docComment field.doc level).toList ++ ((indent level).toList ++
        (field.type.spelling.toList ++ ((Field.userDataTypeHint field).toList ++
          (' ' :: (field.name.toList ++
            ((Field.defaultClause field).toList ++ ';' :: rest)))))) := by
  simp [Field.line, String.toList_append, List.append_assoc]

/-- The type of a field ends before its hint or its name. -/
theorem ends_type {field : Field} (legible : Field.Legible field) (rest : List Char) :
    AvroType.Ends
      ((Field.userDataTypeHint field).toList ++ (' ' :: (field.name.toList ++ rest))) := by
  rw [userDataTypeHint]
  cases field.userDataType with
  | none =>
    obtain ⟨c, first, isWordChar⟩ := legible.name.opens
    cases name : field.name.toList with
    | nil =>
      rw [name] at first
      cases first
    | cons d others =>
      rw [name, List.head?_cons, Option.mem_some] at first
      subst first
      refine AvroType.Ends.of_blank ?_ _
      rintro rfl
      exact absurd isWordChar (by decide)
  | some text =>
    simp only [String.toList_append, annotationText, List.append_assoc]
    exact AvroType.Ends.of_blank (by decide) _

/-- A field without a hint goes on with its name. -/
theorem not_userDataType {field : Field} (legible : Field.Legible field) (rest : List Char) :
    ¬ " @userDataType(\"".toList <+: ' ' :: (field.name.toList ++ rest) := by
  intro begun
  exact (legible.name.opens.append rest).not_isPrefix ⟨'@', rfl, rfl⟩
    (List.cons_prefix_cons.mp begun).2

theorem begins_defaultClause (field : Field) (rest : List Char) :
    Begins (fun c => !isWordChar c) ((Field.defaultClause field).toList ++ ';' :: rest) := by
  rw [defaultClause]
  cases field.default with
  | none => exact begins_cons.mpr rfl
  | some value =>
    simp only [String.toList_append, List.append_assoc]
    exact begins_cons.mpr rfl

theorem ends_defaultClause (rest : List Char) :
    Begins (· == ';') (';' :: rest) ∧ ¬ " = ".toList <+: ';' :: rest := by
  refine ⟨begins_cons.mpr rfl, ?_⟩
  intro begun
  exact absurd (List.cons_prefix_cons.mp begun).1 (by decide)

/-- A line tells its field, read part by part from the left. -/
theorem readable_line (level : Nat) :
    Readable (fun field : Field => (Field.line field level).toList) Field.outline Field.Legible
      Anything := by
  intro a b rest rest' legibleA legibleB _ _ same
  dsimp only at same
  rw [toList_line, toList_line] at same
  obtain ⟨docs, same⟩ := readable_docComment level legibleA.doc legibleB.doc
    (not_docComment ((legibleA.type.opens.mono fun _ => ne_slash).append _))
    (not_docComment ((legibleB.type.opens.mono fun _ => ne_slash).append _)) same
  obtain ⟨types, same⟩ := AvroType.readable_spelling legibleA.type legibleB.type
    (ends_type legibleA _) (ends_type legibleB _) (List.append_cancel_left same)
  obtain ⟨hints, same⟩ := readable_userDataType legibleA.userDataType legibleB.userDataType
    (not_userDataType legibleA _) (not_userDataType legibleB _) same
  obtain ⟨names, same⟩ := readable_word legibleA.name legibleB.name
    (begins_defaultClause a rest) (begins_defaultClause b rest') (List.tail_eq_of_cons_eq same)
  obtain ⟨defaults, same⟩ := readable_defaultClause legibleA.default legibleB.default
    (ends_defaultClause rest) (ends_defaultClause rest') same
  refine ⟨?_, List.tail_eq_of_cons_eq same⟩
  simp only [id_eq] at docs names
  rw [outline, outline, docs, types, hints, names, defaults]

end Field

/-- How the lines of a block are closed. -/
def closing (level : Nat) : List Char :=
  '\n' :: ((indent level).toList ++ "\x7d".toList)

theorem opens_indent (level : Nat) : Opens (· == ' ') (indent level).toList := by
  rw [indent, String.toList_ofList]
  exact ⟨' ', rfl, rfl⟩

/-- A line inside of a block stands further to the right than the closing brace. -/
theorem newline_ne_closing (level : Nat) (line rest : List Char) :
    '\n' :: ((indent (level + 1)).toList ++ line) ≠ closing level ++ rest := by
  intro same
  simp only [closing, indent_succ, List.cons_append, List.append_assoc] at same
  have after := List.append_cancel_left (List.tail_eq_of_cons_eq same)
  exact absurd (List.head_eq_of_cons_eq after) (by decide)

theorem indent_ne_closing (level : Nat) (line rest : List Char) :
    (indent (level + 1)).toList ++ line ≠ closing level ++ rest := by
  intro same
  exact ((opens_indent (level + 1)).append line).not_isPrefix ⟨'\n', rfl, rfl⟩ ⟨_, same.symm⟩

theorem Field.exists_line (field : Field) (level : Nat) :
    ∃ line, (Field.line field level).toList = (indent level).toList ++ line := by
  simp only [Field.line, String.toList_append, List.append_assoc]
  cases field.doc with
  | none => exact ⟨_, rfl⟩
  | some doc =>
    simp only [docComment, String.toList_append, List.append_assoc]
    exact ⟨_, rfl⟩

theorem readable_fields (level : Nat) :
    Readable (fun fields : List Field =>
        "\n".toList.intercalate (fields.map fun field => (Field.line field (level + 1)).toList) ++
          closing level)
      (List.map Field.outline) (fun fields => ∀ field ∈ fields, Field.Legible field) Anything := by
  apply readable_joined (Field.readable_line (level + 1)) (fun _ => trivial) (fun _ => trivial)
  · intro field rest rest' _
    obtain ⟨line, begins⟩ := Field.exists_line field (level + 1)
    rw [begins, List.append_assoc]
    exact newline_ne_closing level _ rest'
  · intro field rest rest' _
    obtain ⟨line, begins⟩ := Field.exists_line field (level + 1)
    rw [begins, List.append_assoc]
    exact indent_ne_closing level _ rest'

theorem readable_symbol (level : Nat) :
    Readable (fun symbol : String => (indent level ++ symbol).toList) id IsWord
      (Begins fun c => !isWordChar c) := by
  intro a b rest rest' wordA wordB stops stops' same
  simp only [String.toList_append, List.append_assoc] at same
  exact readable_word wordA wordB stops stops' (List.append_cancel_left same)

theorem readable_symbols (level : Nat) :
    Readable (fun symbols : List String =>
        ",\n".toList.intercalate
          (symbols.map fun symbol => (indent (level + 1) ++ symbol).toList) ++ closing level)
      (List.map id) (fun symbols => ∀ symbol ∈ symbols, IsWord symbol) Anything := by
  apply readable_joined (readable_symbol (level + 1))
  · intro rest
    exact begins_cons.mpr rfl
  · intro rest
    exact begins_cons.mpr rfl
  · intro symbol rest rest' _ same
    exact absurd (List.head_eq_of_cons_eq same) (by decide)
  · intro symbol rest rest' _
    rw [String.toList_append, List.append_assoc]
    exact indent_ne_closing level _ rest'

namespace Declaration

def doc : Declaration → Option String
  | .record type => type.doc
  | .enum type => type.doc

def keyword : Declaration → String
  | .record _ => "record"
  | .enum _ => "enum"

/-- The lines of a block, with its closing brace. -/
def lines (level : Nat) : Declaration → List Char
  | .record type =>
    "\n".toList.intercalate
      (type.fields.map fun field => (Field.line field (level + 1)).toList) ++ closing level
  | .enum type =>
    ",\n".toList.intercalate
      (type.symbols.map fun symbol => (indent (level + 1) ++ symbol).toList) ++ closing level

theorem toList_block (d : Declaration) (level : Nat) (rest : List Char) :
    (d.block level).toList ++ rest =
      (docComment d.doc level).toList ++ ((indent level).toList ++ (d.keyword.toList ++
        (' ' :: (d.name.toList ++ (" \x7b\n".toList ++ (d.lines level ++ rest)))))) := by
  cases d with
  | record type =>
    simp [block, recordBody, doc, keyword, name, lines, closing, String.toList_intercalate,
      Function.comp_def]
  | enum type =>
    simp [block, enumBody, doc, keyword, name, lines, closing, String.toList_intercalate,
      Function.comp_def]

theorem Legible.name {d : Declaration} (legible : d.Legible) : IsWord d.name := by
  cases d <;> exact legible.1

theorem Legible.doc {d : Declaration} (legible : d.Legible) : ∀ text ∈ d.doc, Unclosed text := by
  cases d <;> exact legible.2.1

theorem isWord_keyword (d : Declaration) : IsWord d.keyword := by
  have record : IsWord "record" := by simp [IsWord, isWordChar, signs]
  have enum : IsWord "enum" := by simp [IsWord, isWordChar, signs]
  cases d with
  | record => exact record
  | enum => exact enum

theorem opens_keyword (d : Declaration) (rest : List Char) :
    Opens (· != '/') (d.keyword.toList ++ rest) := by
  have plain : ∀ c, isWordChar c = true → (c != '/') = true := by
    intro c word
    exact ne_slash (by rw [word]; rfl)
  exact (d.isWord_keyword.opens.mono plain).append rest

theorem begins_brace (rest : List Char) :
    Begins (fun c => !isWordChar c) (" \x7b\n".toList ++ rest) :=
  begins_cons.mpr rfl

/-- A block tells the outline of the definition it declares. -/
theorem readable_block (level : Nat) :
    Readable (fun d : Declaration => (d.block level).toList) outline Legible Anything := by
  intro a b rest rest' legibleA legibleB _ _ same
  dsimp only at same
  rw [toList_block, toList_block] at same
  obtain ⟨docs, same⟩ := readable_docComment level legibleA.doc legibleB.doc
    (not_docComment (opens_keyword a _)) (not_docComment (opens_keyword b _)) same
  obtain ⟨keywords, same⟩ := readable_word (isWord_keyword a) (isWord_keyword b)
    (begins_cons.mpr rfl) (begins_cons.mpr rfl) (List.append_cancel_left same)
  obtain ⟨names, same⟩ := readable_word legibleA.name legibleB.name
    (begins_brace _) (begins_brace _) (List.tail_eq_of_cons_eq same)
  have same := List.append_cancel_left same
  simp only [id_eq] at docs keywords names
  have different : "record" ≠ "enum" := by decide
  cases a with
  | record type =>
    cases b with
    | record other =>
      obtain ⟨fields, same⟩ := readable_fields level legibleA.2.2 legibleB.2.2 trivial trivial same
      refine ⟨?_, same⟩
      rw [outline, outline, fields]
      exact congrArg₂ (fun name doc => record ⟨name, doc, other.fields.map Field.outline⟩)
        names docs
    | enum other => exact absurd keywords different
  | enum type =>
    cases b with
    | record other => exact absurd keywords different.symm
    | enum other =>
      obtain ⟨symbols, same⟩ :=
        readable_symbols level legibleA.2.2 legibleB.2.2 trivial trivial same
      refine ⟨?_, same⟩
      obtain ⟨name, doc, symbolsA⟩ := type
      obtain ⟨name', doc', symbolsB⟩ := other
      rw [List.map_id, List.map_id] at symbols
      cases names
      cases docs
      cases symbols
      rfl

end Declaration

end AvroIdl
