import AvroIdl.Proofs.Idl.ReadBlocks

/-
Fields and blocks line by line: what stands on each line, and how much deeper than the level of
the whole. The lines are joined by newlines, whether they come from a doc, a field or a symbol.
-/
set_option autoImplicit false

namespace AvroIdl

/-- One line of a block, whatever the level of the block is. -/
inductive Row
  | empty
  | text (depth : Nat) (content : String)

namespace Row

def line (level : Nat) : Row → String
  | .empty => ""
  | .text depth content => indent (level + depth) ++ content

theorem line_eq_empty_iff (level : Nat) (row : Row) : row.line level = "" ↔ row = .empty := by
  cases row with
  | empty => simp [line]
  | text depth content => simp [line, indent]

/-- The text of some lines of a block at a level. -/
def join (level : Nat) (rows : List Row) : String :=
  "\n".intercalate (rows.map (line level))

variable (level : Nat) {rows rest : List Row}

theorem join_singleton (row : Row) : join level [row] = row.line level :=
  String.intercalate_singleton

theorem join_append (nonempty : rows ≠ []) (more : rest ≠ []) :
    join level (rows ++ rest) = join level rows ++ "\n" ++ join level rest := by
  rw [join, List.map_append]
  exact String.intercalate_append_of_ne_nil (by simpa using nonempty) (by simpa using more)

theorem join_cons (row : Row) (more : rest ≠ []) :
    join level (row :: rest) = row.line level ++ "\n" ++ join level rest := by
  rw [← List.singleton_append, join_append level (List.cons_ne_nil _ _) more, join_singleton]

/-- Items that have some lines each, with newlines between the items. -/
theorem join_flatMap {α : Type} (rowsOf : α → List Row) (nonempty : ∀ item, rowsOf item ≠ [])
    (items : List α) :
    join level (items.flatMap rowsOf) =
      "\n".intercalate (items.map fun item => join level (rowsOf item)) := by
  induction items with
  | nil => rfl
  | cons first others ih =>
    cases others with
    | nil => simp
    | cons second others =>
      have following : (second :: others).flatMap rowsOf ≠ [] := by simp [nonempty second]
      rw [List.flatMap_cons, join_append level (nonempty first) following, ih]
      simp only [List.map_cons, String.intercalate_cons_cons]

end Row

def docRows (depth : Nat) : Option String → List Row
  | none => []
  | some doc => [.text depth ("/** " ++ doc ++ " */")]

theorem join_docRows (level depth : Nat) (doc : Option String) {rest : List Row}
    (more : rest ≠ []) :
    Row.join level (docRows depth doc ++ rest) =
      docComment doc (level + depth) ++ Row.join level rest := by
  cases doc with
  | none => simp [docRows, docComment]
  | some doc =>
    have comment : " */\n" = " */" ++ "\n" := rfl
    simp only [docRows, List.singleton_append, Row.join_cons level _ more, Row.line, docComment,
      comment, String.append_assoc]

theorem empty_not_mem_docRows (depth : Nat) (doc : Option String) :
    .empty ∉ docRows depth doc := by
  cases doc <;> simp [docRows]

namespace Field

/-- What stands on the line of a field. -/
def content (field : Field) : String :=
  field.type.spelling ++ Field.userDataTypeHint field ++ " " ++ field.name ++
    Field.defaultClause field ++ ";"

def rows (depth : Nat) (field : Field) : List Row :=
  docRows depth field.doc ++ [.text depth (Field.content field)]

variable (field : Field) (depth : Nat)

theorem rows_ne_nil : Field.rows depth field ≠ [] := by simp [rows]

theorem empty_not_mem_rows : .empty ∉ Field.rows depth field := by
  simp [rows, empty_not_mem_docRows]

theorem line_eq_join (level : Nat) :
    Field.line field (level + depth) = Row.join level (Field.rows depth field) := by
  rw [rows, join_docRows level depth field.doc (List.cons_ne_nil _ _), Row.join_singleton]
  simp only [Row.line, content, line, String.append_assoc]

end Field

/-- An enum without symbols has an empty line all the same. A comma follows each symbol but the
last. -/
def symbolRows : List String → List Row
  | [] => [.empty]
  | [last] => [.text 1 last]
  | symbol :: rest => .text 1 (symbol ++ ",") :: symbolRows rest

theorem symbolRows_ne_nil (symbols : List String) : symbolRows symbols ≠ [] := by
  fun_cases symbolRows symbols <;> simp

theorem join_symbolRows (level : Nat) (symbols : List String) :
    Row.join level (symbolRows symbols) =
      ",\n".intercalate (symbols.map fun symbol => indent (level + 1) ++ symbol) := by
  induction symbols with
  | nil => rfl
  | cons symbol rest ih =>
    cases rest with
    | nil => simp [symbolRows, Row.join_singleton, Row.line]
    | cons next rest =>
      have comma : ",\n" = "," ++ "\n" := rfl
      rw [symbolRows, Row.join_cons level _ (symbolRows_ne_nil _), ih]
      · simp only [List.map_cons, String.intercalate_cons_cons, Row.line, comma,
          String.append_assoc]
      · exact List.cons_ne_nil _ _

theorem empty_mem_symbolRows (symbols : List String) :
    .empty ∈ symbolRows symbols ↔ symbols = [] := by
  induction symbols with
  | nil => simp [symbolRows]
  | cons symbol rest ih =>
    cases rest with
    | nil => simp [symbolRows]
    | cons next rest => simp_all [symbolRows]

/-- A record without fields has an empty line all the same. -/
def fieldRows : List Field → List Row
  | [] => [.empty]
  | fields => fields.flatMap (Field.rows 1)

theorem fieldRows_cons (field : Field) (rest : List Field) :
    fieldRows (field :: rest) = (field :: rest).flatMap (Field.rows 1) := rfl

theorem fieldRows_ne_nil (fields : List Field) : fieldRows fields ≠ [] := by
  cases fields with
  | nil => simp [fieldRows]
  | cons field rest => simp [fieldRows_cons, Field.rows_ne_nil field 1]

theorem join_fieldRows (level : Nat) (fields : List Field) :
    Row.join level (fieldRows fields) =
      "\n".intercalate (fields.map fun field => Field.line field (level + 1)) := by
  cases fields with
  | nil => rfl
  | cons field rest =>
    rw [fieldRows_cons, Row.join_flatMap level _ fun field => Field.rows_ne_nil field 1]
    simp only [Field.line_eq_join]

theorem empty_mem_fieldRows (fields : List Field) : .empty ∈ fieldRows fields ↔ fields = [] := by
  cases fields with
  | nil => simp [fieldRows]
  | cons field rest =>
    have noneEmpty : ∀ other : Field, .empty ∉ Field.rows 1 other :=
      fun other => Field.empty_not_mem_rows other 1
    simp [fieldRows_cons, noneEmpty]

namespace Declaration

/-- Whether nothing stands between the braces. -/
def IsBare : Declaration → Prop
  | .record type => type.fields = []
  | .enum type => type.symbols = []

def bodyRows : Declaration → List Row
  | .record type => fieldRows type.fields
  | .enum type => symbolRows type.symbols

def rows (d : Declaration) : List Row :=
  docRows 0 d.doc ++
    .text 0 (d.keyword ++ " " ++ d.name ++ " \x7b") :: (d.bodyRows ++ [.text 0 "\x7d"])

variable (d : Declaration)

theorem rows_ne_nil : d.rows ≠ [] := by simp [rows]

theorem block_eq_join (level : Nat) : d.block level = Row.join level d.rows := by
  -- The block writes newlines at the end of its pieces, the rows have them in between.
  have opening : " \x7b\n" = " \x7b" ++ "\n" := rfl
  have record : "record " = "record" ++ " " := rfl
  have enum : "enum " = "enum" ++ " " := rfl
  rw [rows, join_docRows level 0 d.doc (List.cons_ne_nil _ _), Row.join_cons level _ (by simp)]
  cases d with
  | record type =>
    rw [bodyRows, Row.join_append level (fieldRows_ne_nil _) (List.cons_ne_nil _ _),
      join_fieldRows, Row.join_singleton]
    simp only [block, recordBody, doc, keyword, name, Row.line, Nat.add_zero, opening, record,
      String.append_assoc]
  | enum type =>
    rw [bodyRows, Row.join_append level (symbolRows_ne_nil _) (List.cons_ne_nil _ _),
      join_symbolRows, Row.join_singleton]
    simp only [block, enumBody, doc, keyword, name, Row.line, Nat.add_zero, opening, enum,
      String.append_assoc]

theorem empty_mem_rows : .empty ∈ d.rows ↔ d.IsBare := by
  cases d with
  | record type => simp [rows, empty_not_mem_docRows, bodyRows, empty_mem_fieldRows, IsBare]
  | enum type => simp [rows, empty_not_mem_docRows, bodyRows, empty_mem_symbolRows, IsBare]

end Declaration

end AvroIdl
