import AvroIdl.Proofs.Idl.BlockRows

/-
Texts without newlines stay on their lines. So the lines of a block are those it is made of, and
a deeper level moves them all alike.
-/
set_option autoImplicit false

namespace AvroIdl

/-- The lines of a text, without the newlines that part them. -/
def linesOf (text : String) : List String :=
  (text.toList.splitOn '\n').map String.ofList

/-- A line moved to the right. A line with nothing on it stays as it is. -/
def moved (blanks : Nat) (line : String) : String :=
  if line = "" then "" else String.ofList (List.replicate blanks ' ') ++ line

/-- A text that holds no newline. -/
def IsLine (text : String) : Prop :=
  '\n' ∉ text.toList

instance (text : String) : Decidable (IsLine text) :=
  inferInstanceAs (Decidable ('\n' ∉ text.toList))

section Lines

variable {text rest separator : String}

theorem IsLine.append (first : IsLine text) (second : IsLine rest) : IsLine (text ++ rest) := by
  rw [IsLine, String.toList_append, List.mem_append, not_or]
  exact ⟨first, second⟩

theorem IsLine.intercalate {parts : List String} (between : IsLine separator)
    (each : ∀ part ∈ parts, IsLine part) : IsLine (separator.intercalate parts) :=
  intercalate_of_append IsLine (by decide) IsLine.append between each

theorem isLine_indent (level : Nat) : IsLine (indent level) := by
  intro member
  rw [indent, String.toList_ofList] at member
  exact absurd (List.eq_of_mem_replicate member) (by decide)

theorem isLine_annotationText {name argument : String} (named : IsLine name)
    (given : IsLine argument) : IsLine (annotationText name argument) := by
  rw [annotationText]
  exact (((IsLine.append (by decide) named).append (by decide)).append given).append (by decide)

theorem isLine_hint {name : String} {value : Option String} (named : IsLine name)
    (given : ∀ text ∈ value, IsLine text) : IsLine (hint name value) := by
  cases value with
  | none => exact List.not_mem_nil
  | some value => exact (isLine_annotationText named (given value rfl)).append (by decide)

/-- Lines that are joined by newlines are found again. -/
theorem linesOf_intercalate {parts : List String} (nonempty : parts ≠ [])
    (each : ∀ part ∈ parts, IsLine part) : linesOf ("\n".intercalate parts) = parts := by
  have newline : "\n".toList = ['\n'] := rfl
  rw [linesOf, String.toList_intercalate, newline, List.splitOn_intercalate]
  · simp [Function.comp_def]
  · exact List.forall_mem_map.mpr each
  · simpa using nonempty

end Lines

namespace Row

/-- What stands on the line goes on without a newline. -/
def Unbroken : Row → Prop
  | .empty => True
  | .text _ content => IsLine content

theorem isLine_line {row : Row} (unbroken : row.Unbroken) (level : Nat) :
    IsLine (row.line level) := by
  cases row with
  | empty => exact List.not_mem_nil
  | text depth content => exact (isLine_indent _).append unbroken

/-- What stands on a line stands further to the right by four blanks for each level. -/
theorem moved_line (level : Nat) (row : Row) : moved (4 * level) (row.line 0) = row.line level := by
  cases row with
  | empty => rfl
  | text depth content =>
    have filled : (Row.text depth content).line 0 ≠ "" := by simp [line_eq_empty_iff]
    have blanks : 4 * (level + depth + 1) = 4 * level + 4 * (0 + depth + 1) := by omega
    rw [moved, if_neg filled, line, line, indent, indent, blanks, List.replicate_add,
      String.ofList_append, String.append_assoc]

theorem map_line_eq_moved (level : Nat) (rows : List Row) :
    rows.map (line level) = (rows.map (line 0)).map (moved (4 * level)) := by
  rw [List.map_map]
  exact List.map_congr_left fun row _ => (moved_line level row).symm

theorem empty_mem_map_line (level : Nat) (rows : List Row) :
    "" ∈ rows.map (line level) ↔ .empty ∈ rows := by
  simp [line_eq_empty_iff]

end Row

/-- Rows without newlines are the lines of their text. -/
theorem linesOf_join (level : Nat) {rows : List Row} (nonempty : rows ≠ [])
    (unbroken : ∀ row ∈ rows, row.Unbroken) :
    linesOf (Row.join level rows) = rows.map (Row.line level) := by
  apply linesOf_intercalate
  · simpa using nonempty
  · exact List.forall_mem_map.mpr fun row member => Row.isLine_line (unbroken row member) level

mutual

/-- The names and hints that the spelling of a type shows. -/
def AvroType.texts : AvroType → List String
  | .null => []
  | .int javaClass | .long javaClass | .string javaClass | .boolean javaClass => javaClass.toList
  | .enum type => [type.name]
  | .record type => [type.name]
  | .union members => textsOf members
  | .map values keyClass javaClass => keyClass.toList ++ javaClass.toList ++ values.texts
  | .array items keyClass javaClass => keyClass.toList ++ javaClass.toList ++ items.texts
  | .reference name => [name]

def textsOf : List AvroType → List String
  | [] => []
  | type :: rest => type.texts ++ textsOf rest

end

theorem textsOf_eq_flatMap (types : List AvroType) :
    textsOf types = types.flatMap AvroType.texts := by
  induction types with
  | nil => rfl
  | cons type rest ih => rw [textsOf, ih, List.flatMap_cons]

/-- The texts that the lines of a field show. -/
def Field.texts (field : Field) : List String :=
  field.doc.toList ++ field.type.texts ++ field.userDataType.toList ++
    [field.name] ++ (field.default.map Default.literal).toList

/-- The texts that the block of a declaration shows. -/
def Declaration.texts : Declaration → List String
  | .record type => type.name :: type.doc.toList ++ type.fields.flatMap Field.texts
  | .enum type => type.name :: type.doc.toList ++ type.symbols

/-- No text that stands in a list is broken by a newline. -/
def AllLines (texts : List String) : Prop :=
  ∀ text ∈ texts, IsLine text

instance (texts : List String) : Decidable (AllLines texts) :=
  List.decidableBAll IsLine texts

theorem isLine_hints {keyClass javaClass : Option String}
    (each : AllLines (keyClass.toList ++ javaClass.toList)) :
    IsLine (keyClassHint keyClass ++ classHint javaClass) := by
  obtain ⟨keys, classes⟩ := List.forall_mem_append.mp each
  have key : IsLine (keyClassHint keyClass) :=
    isLine_hint (by decide) fun text given => keys text (Option.mem_toList.mpr given)
  have javaClass : IsLine (classHint javaClass) :=
    isLine_hint (by decide) fun text given => classes text (Option.mem_toList.mpr given)
  exact key.append javaClass

theorem AvroType.isLine_spelling {type : AvroType} (each : AllLines type.texts) :
    IsLine type.spelling := by
  induction type using AvroType.induction_parts with
  | whole type ih =>
    cases type with
    | null => decide
    | enum type | record type | reference name => exact each _ List.mem_cons_self
    | int javaClass | long javaClass | string javaClass | boolean javaClass =>
      have hints : IsLine (keyClassHint none ++ classHint javaClass) := isLine_hints each
      exact hints.append (by decide)
    | union members =>
      rw [texts, textsOf_eq_flatMap] at each
      have listed : IsLine (", ".intercalate (members.map spelling)) := by
        apply IsLine.intercalate (by decide)
        rw [List.forall_mem_map]
        intro member isMember
        apply ih member isMember
        intro text shown
        exact each text (List.mem_flatMap.mpr ⟨member, isMember, shown⟩)
      rw [spelling, spellings_eq_map]
      exact (IsLine.append (by decide) listed).append (by decide)
    | map inside keyClass javaClass | array inside keyClass javaClass =>
      obtain ⟨given, below⟩ := List.forall_mem_append.mp each
      have spelled : IsLine inside.spelling := ih inside List.mem_cons_self below
      exact (((isLine_hints given).append (by decide)).append spelled).append (by decide)

theorem unbroken_docRows {depth : Nat} {doc : Option String} (each : AllLines doc.toList) :
    ∀ row ∈ docRows depth doc, row.Unbroken := by
  cases doc with
  | none => exact fun row member => absurd member List.not_mem_nil
  | some doc =>
    rw [docRows, List.forall_mem_singleton]
    exact (IsLine.append (by decide) (each doc List.mem_cons_self)).append (by decide)

namespace Field

variable {field : Field} {depth : Nat}

theorem isLine_content (each : AllLines (Field.texts field)) : IsLine (Field.content field) := by
  simp only [AllLines, texts, List.forall_mem_append, Option.mem_toList] at each
  obtain ⟨⟨⟨⟨-, types⟩, hints⟩, named⟩, defaults⟩ := each
  have userDataType : IsLine (Field.userDataTypeHint field) := by
    rw [userDataTypeHint]
    cases given : field.userDataType with
    | none => decide
    | some name =>
      exact IsLine.append (by decide) (isLine_annotationText (by decide) (hints name given))
  have default : IsLine (Field.defaultClause field) := by
    rw [defaultClause]
    cases given : field.default with
    | none => decide
    | some value => exact IsLine.append (by decide) (defaults value.literal (by rw [given]; rfl))
  have spelled : IsLine field.type.spelling := AvroType.isLine_spelling types
  have name : IsLine field.name := named _ List.mem_cons_self
  have blank : IsLine " " := by decide
  exact ((((spelled.append userDataType).append blank).append name).append default).append
    (by decide)

theorem unbroken_rows (each : AllLines (Field.texts field)) :
    ∀ row ∈ Field.rows depth field, row.Unbroken := by
  have docs : AllLines field.doc.toList := fun text shown => each text (by simp [texts, shown])
  rw [rows, List.forall_mem_append, List.forall_mem_singleton]
  exact ⟨unbroken_docRows docs, isLine_content each⟩

end Field

theorem unbroken_symbolRows {symbols : List String} (each : AllLines symbols) :
    ∀ row ∈ symbolRows symbols, row.Unbroken := by
  induction symbols with
  | nil => simp [symbolRows, Row.Unbroken]
  | cons symbol rest ih =>
    obtain ⟨here, later⟩ := List.forall_mem_cons.mp each
    cases rest with
    | nil => simpa [symbolRows, Row.Unbroken] using here
    | cons next rest =>
      rw [symbolRows, List.forall_mem_cons]
      · exact ⟨here.append (by decide), ih later⟩
      · exact List.cons_ne_nil _ _

theorem unbroken_fieldRows {fields : List Field} (each : AllLines (fields.flatMap Field.texts)) :
    ∀ row ∈ fieldRows fields, row.Unbroken := by
  cases fields with
  | nil => simp [fieldRows, Row.Unbroken]
  | cons field rest =>
    intro row member
    obtain ⟨other, isField, found⟩ := List.mem_flatMap.mp member
    apply Field.unbroken_rows _ row found
    intro text shown
    exact each text (List.mem_flatMap.mpr ⟨other, isField, shown⟩)

theorem Declaration.unbroken_rows {d : Declaration} (each : AllLines d.texts) :
    ∀ row ∈ d.rows, row.Unbroken := by
  have parts : IsLine d.name ∧ AllLines d.doc.toList ∧ ∀ row ∈ d.bodyRows, row.Unbroken := by
    cases d with
    | record type =>
      obtain ⟨named, others⟩ := List.forall_mem_cons.mp each
      obtain ⟨docs, fields⟩ := List.forall_mem_append.mp others
      exact ⟨named, docs, unbroken_fieldRows fields⟩
    | enum type =>
      obtain ⟨named, others⟩ := List.forall_mem_cons.mp each
      obtain ⟨docs, symbols⟩ := List.forall_mem_append.mp others
      exact ⟨named, docs, unbroken_symbolRows symbols⟩
  obtain ⟨named, docs, body⟩ := parts
  have keyword : IsLine d.keyword := by
    cases d with
    | record => exact (by decide : IsLine "record")
    | enum => exact (by decide : IsLine "enum")
  have opening : IsLine (d.keyword ++ " " ++ d.name ++ " \x7b") :=
    ((keyword.append (by decide)).append named).append (by decide)
  have closing : IsLine "\x7d" := by decide
  rw [rows, List.forall_mem_append, List.forall_mem_cons, List.forall_mem_append,
    List.forall_mem_singleton]
  exact ⟨unbroken_docRows docs, opening, body, closing⟩

/-- The lines of a block are its rows, each indented as the level has it. -/
theorem Declaration.linesOf_block {d : Declaration} (each : AllLines d.texts) (level : Nat) :
    linesOf (d.block level) = d.rows.map (Row.line level) := by
  rw [block_eq_join, linesOf_join level d.rows_ne_nil (unbroken_rows each)]

theorem Field.linesOf_line {field : Field} (each : AllLines (Field.texts field)) (level : Nat) :
    linesOf (Field.line field level) = (Field.rows 0 field).map (Row.line level) := by
  have rows : Field.line field level = Row.join level (Field.rows 0 field) :=
    Field.line_eq_join field 0 level
  rw [rows, linesOf_join level (Field.rows_ne_nil field 0) (unbroken_rows each)]

/-- Where the texts that a block shows hold no newline, a deeper level moves all its lines alike,
by four blanks for each level. Only a record without fields and an enum without symbols have an
empty line, which stays empty. The same holds of the lines of a field, none of which is empty. -/
theorem levels_move_lines :
    (∀ (d : Declaration) (level : Nat), AllLines d.texts →
      linesOf (d.block level) = (linesOf (d.block 0)).map (moved (4 * level)) ∧
        ("" ∈ linesOf (d.block level) ↔ d.IsBare)) ∧
      ∀ (field : Field) (level : Nat), AllLines (Field.texts field) →
        linesOf (Field.line field level) = (linesOf (Field.line field 0)).map (moved (4 * level)) ∧
          "" ∉ linesOf (Field.line field level) := by
  constructor
  · intro d level each
    rw [Declaration.linesOf_block each level, Declaration.linesOf_block each 0,
      Row.empty_mem_map_line, d.empty_mem_rows]
    exact ⟨Row.map_line_eq_moved level d.rows, Iff.rfl⟩
  · intro field level each
    rw [Field.linesOf_line each level, Field.linesOf_line each 0, Row.empty_mem_map_line]
    exact ⟨Row.map_line_eq_moved level (Field.rows 0 field), Field.empty_not_mem_rows field 0⟩

def hintedField : Field :=
  ⟨"text", .array (.string (some "U")) none none, some "Why.", some .null, some "T"⟩

/-- A record with a field that takes two lines. -/
def labelRecord : Declaration :=
  .record ⟨"Label", none, [hintedField, ⟨"next", .reference "Label", none, none, none⟩]⟩

/-- An enum without symbols. -/
def bareEnum : Declaration :=
  .enum ⟨"Nothing", some "None.", []⟩

theorem labelRecord_moves :
    (AllLines labelRecord.texts ∧
      linesOf (labelRecord.block 1) =
        ["        record Label \x7b", "            /** Why. */",
          "            array<@java-class(\"U\") string> @userDataType(\"T\") text = null;",
          "            Label next;", "        \x7d"] ∧
      ("" ∈ linesOf (labelRecord.block 1) ↔ labelRecord.IsBare)) ∧
      (AllLines bareEnum.texts ∧
        linesOf (bareEnum.block 1) =
          ["        /** None. */", "        enum Nothing \x7b", "", "        \x7d"] ∧
        ("" ∈ linesOf (bareEnum.block 1) ↔ bareEnum.IsBare)) ∧
      AllLines (Field.texts hintedField) ∧
        linesOf (Field.line hintedField 1) =
          ["        /** Why. */",
            "        array<@java-class(\"U\") string> @userDataType(\"T\") text = null;"] ∧
        "" ∉ linesOf (Field.line hintedField 1) := by
  obtain ⟨blocks, fields⟩ := levels_move_lines
  have labels : AllLines labelRecord.texts := by decide
  have nothing : AllLines bareEnum.texts := by decide
  have hints : AllLines (Field.texts hintedField) := by decide
  obtain ⟨labelLines, labelBare⟩ := blocks labelRecord 1 labels
  obtain ⟨enumLines, enumBare⟩ := blocks bareEnum 1 nothing
  obtain ⟨fieldLines, fieldFull⟩ := fields hintedField 1 hints
  refine ⟨⟨labels, ?_, labelBare⟩, ⟨nothing, ?_, enumBare⟩, hints, ?_, fieldFull⟩
  · rw [labelLines, Declaration.linesOf_block labels]
    decide +kernel
  · rw [enumLines, Declaration.linesOf_block nothing]
    decide +kernel
  · rw [fieldLines, Field.linesOf_line hints]
    decide +kernel

end AvroIdl
