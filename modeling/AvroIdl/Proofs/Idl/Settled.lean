import AvroIdl.Proofs.Idl.Annotations
import AvroIdl.Proofs.Idl.DocText
import AvroIdl.Proofs.Load.Formed

/-
Code that closes the string literals it opens. Where all code between the docs is of this kind,
each doc comment is one.
-/
set_option autoImplicit false

namespace AvroIdl

/-- A reader that was outside of literals and comments is there again after the text. -/
def Settles (text : String) : Prop :=
  Skim.outside.after text.toList = .outside

/-- No sign that opens a literal or a comment. -/
def IsCalm (text : String) : Prop :=
  ∀ c ∈ text.toList, c ≠ '"' ∧ c ≠ '/'

instance (text : String) : Decidable (IsCalm text) :=
  List.decidableBAll (fun c => c ≠ '"' ∧ c ≠ '/') text.toList

namespace Skim

theorem step_outside {c : Char} (quote : c ≠ '"') (slash : c ≠ '/') :
    outside.step c = ([c], .outside) := by
  unfold step
  split <;> simp_all

theorem step_string {c : Char} (slash : c ≠ '\\') (quote : c ≠ '"') :
    string.step c = ([c], .string) := by
  unfold step
  split <;> simp_all

theorem after_outside_of_calm {text : List Char} (calm : ∀ c ∈ text, c ≠ '"' ∧ c ≠ '/') :
    outside.after text = .outside := by
  induction text with
  | nil => rfl
  | cons c rest ih =>
    obtain ⟨⟨quote, slash⟩, later⟩ := List.forall_mem_cons.mp calm
    rw [after, List.foldl_cons, step_outside quote slash]
    exact ih later

/-- A literal goes on through an escaped text. -/
theorem after_string_of_escaped {text : List Char} (escaped : Escaped text) :
    string.after text = .string := by
  induction escaped with
  | nil => rfl
  | pair c _ ih => exact ih
  | plain slash quote _ ih =>
    rw [after, List.foldl_cons, step_string slash quote]
    exact ih

end Skim

section Texts

variable {text rest separator : String}

theorem settles_empty : Settles "" := rfl

theorem IsCalm.settles (calm : IsCalm text) : Settles text :=
  Skim.after_outside_of_calm calm

theorem Settles.append (first : Settles text) (second : Settles rest) : Settles (text ++ rest) := by
  rw [Settles, String.toList_append, Skim.after_append, first]
  exact second

theorem Settles.append_calm (first : Settles text) (calm : IsCalm rest) : Settles (text ++ rest) :=
  first.append calm.settles

theorem IsCalm.append_settles (calm : IsCalm text) (second : Settles rest) :
    Settles (text ++ rest) :=
  calm.settles.append second

theorem Settles.intercalate {parts : List String} (between : Settles separator)
    (each : ∀ part ∈ parts, Settles part) : Settles (separator.intercalate parts) :=
  intercalate_of_append Settles settles_empty Settles.append between each

theorem settles_quoted (escaped : Escaped text.toList) : Settles (quoted text) := by
  have opened : Skim.outside.after "\"".toList = .string := rfl
  rw [Settles, quoted, String.toList_append, String.toList_append, Skim.after_append,
    Skim.after_append, opened, Skim.after_string_of_escaped escaped]
  rfl

end Texts

/-- A hint that is there stands in its quotes the way a literal does. -/
def HintEscaped (value : Option String) : Prop :=
  ∀ text ∈ value, Escaped text.toList

theorem settles_annotated {key value : String} (calm : IsCalm key)
    (escaped : Escaped value.toList) : Settles (annotationText key value) := by
  have before : Settles ("@" ++ key ++ "(") :=
    (IsCalm.append_settles (by decide) calm.settles).append_calm (by decide)
  rw [annotationText_eq]
  exact (before.append (settles_quoted escaped)).append_calm (by decide)

theorem settles_hint {key : String} {value : Option String} (calm : IsCalm key)
    (escaped : HintEscaped value) : Settles (hint key value) := by
  cases value with
  | none => exact settles_empty
  | some value => exact (settles_annotated calm (escaped value rfl)).append_calm (by decide)

theorem calm_indent (level : Nat) : IsCalm (indent level) := by
  intro c member
  rw [indent, String.toList_ofList] at member
  rw [List.eq_of_mem_replicate member]
  decide

theorem Default.settles_literal {value : Default} (spelled : value.WellSpelled) :
    Settles value.literal := by
  cases value with
  | text escaped => exact settles_quoted spelled
  | number spelling =>
    apply IsCalm.settles
    intro c member
    have isNumber := spelled.only c member
    constructor <;> rintro rfl <;> exact absurd isNumber (by decide)
  | bool value => cases value <;> exact IsCalm.settles (by decide)
  | _ => exact IsCalm.settles (by decide)

structure Field.Calm (field : Field) : Prop where
  name : IsCalm field.name
  userDataType : HintEscaped field.userDataType

/-- Names hold no quote and no slash, and hints are escaped. -/
def AvroType.Calm : AvroType → Prop
  | .record type => IsCalm type.name ∧ ∀ field ∈ type.fields, Field.Calm field
  | .enum type => IsCalm type.name ∧ ∀ symbol ∈ type.symbols, IsCalm symbol
  | .reference name => IsCalm name
  | .int javaClass | .long javaClass | .string javaClass | .boolean javaClass =>
    HintEscaped javaClass
  | .map _ keyClass javaClass | .array _ keyClass javaClass =>
    HintEscaped keyClass ∧ HintEscaped javaClass
  | .null | .union _ => True

structure Schema.Calm (s : Schema) : Prop where
  nameSpace : HintEscaped s.nameSpace
  types : ∀ type ∈ nodesOf [.record s.asRecord], type.Calm

namespace AvroType

variable {type : AvroType}

theorem Calm.word (calm : type.Calm) : IsCalm type.word := by
  cases type with
  | record type | enum type => exact calm.1
  | reference name => exact calm
  | _ =>
    rw [AvroType.word]
    decide

theorem Calm.hints (calm : type.Calm) : HintEscaped type.keyClass ∧ HintEscaped type.javaClass := by
  have nothing : HintEscaped none := by
    rintro text ⟨⟩
  cases type with
  | int | long | string | boolean => exact ⟨nothing, calm⟩
  | map | array => exact calm
  | _ => exact ⟨nothing, nothing⟩

theorem settles_spelling (calm : ∀ node ∈ type.nodes, node.Calm) : Settles type.spelling := by
  induction type using AvroType.induction_parts with
  | whole type ih =>
    rw [nodes_eq, List.forall_mem_cons] at calm
    obtain ⟨here, inside⟩ := calm
    have each : ∀ part ∈ type.parts, Settles part.spelling := fun part member =>
      ih part member fun node below => inside node (mem_nodesOf.mpr ⟨part, member, below⟩)
    have body : Settles type.body.text := by
      cases type with
      | union members =>
        have listed : Settles (", ".intercalate (members.map spelling)) :=
          (IsCalm.settles (by decide)).intercalate (List.forall_mem_map.mpr each)
        exact (IsCalm.append_settles (by decide) listed).append_calm (by decide)
      | map other | array other =>
        have spelled := each other List.mem_cons_self
        exact (IsCalm.append_settles (by decide) spelled).append_calm (by decide)
      | _ => exact settles_empty
    have hints : Settles (keyClassHint type.keyClass ++ classHint type.javaClass) :=
      (settles_hint (by decide) here.hints.1).append (settles_hint (by decide) here.hints.2)
    rw [spelling_eq]
    exact (hints.append_calm here.word).append body

end AvroType

/-- What stands after the doc of a field. -/
theorem Field.settles_line {field : Field} (calm : Field.Calm field)
    (types : ∀ node ∈ field.type.nodes, node.Calm)
    (spelled : ∀ value ∈ field.default, value.WellSpelled) (level : Nat) :
    Settles (Field.line (Field.undocumented field) level) := by
  have userDataType : Settles (Field.userDataTypeHint field) := by
    rw [userDataTypeHint]
    cases given : field.userDataType with
    | none => exact settles_empty
    | some name =>
      exact IsCalm.append_settles (by decide)
        (settles_annotated (by decide) (calm.userDataType name given))
  have default : Settles (Field.defaultClause field) := by
    rw [defaultClause]
    cases given : field.default with
    | none => exact settles_empty
    | some value =>
      exact IsCalm.append_settles (by decide) (Default.settles_literal (spelled value given))
  have before : Settles ("" ++ indent level ++ field.type.spelling) :=
    (settles_empty.append_calm (calm_indent level)).append (AvroType.settles_spelling types)
  have blank : IsCalm " " := by decide
  have named := ((before.append userDataType).append_calm blank).append_calm calm.name
  exact (named.append default).append_calm (by decide)

/-- The first line of a block, which begins with the word for its kind. -/
theorem settles_opening {kind name : String} (word : IsCalm kind) (calm : IsCalm name)
    (level : Nat) : Settles (indent level ++ kind ++ name ++ " \x7b\n") :=
  (((calm_indent level).settles.append_calm word).append_calm calm).append_calm (by decide)

theorem settles_enumBody {name : String} {symbols : List String} (calm : IsCalm name)
    (each : ∀ symbol ∈ symbols, IsCalm symbol) (level : Nat) :
    Settles (enumBody name symbols level) := by
  have lines : Settles (",\n".intercalate
      (symbols.map fun symbol => indent (level + 1) ++ symbol)) := by
    refine (IsCalm.settles (by decide)).intercalate (List.forall_mem_map.mpr ?_)
    exact fun symbol member => (calm_indent _).append_settles (each symbol member).settles
  have opening : Settles (indent level ++ "enum " ++ name ++ " \x7b\n") :=
    settles_opening (by decide) calm level
  have newline : IsCalm "\n" := by decide
  have whole := ((opening.append lines).append_calm newline).append_calm (calm_indent level)
  exact whole.append_calm (by decide)

namespace Piece

/-- Code closes the literals that it opens. -/
def Settled : Piece → Prop
  | .code text => Settles text
  | .doc _ => True

variable {pieces : List Piece}

/-- Where all code is settled, each doc comment is one. -/
theorem apart_of_settled (settled : ∀ piece ∈ pieces, piece.Settled) : Apart .outside pieces := by
  induction pieces with
  | nil => trivial
  | cons piece pieces ih =>
    obtain ⟨here, later⟩ := List.forall_mem_cons.mp settled
    cases piece with
    | code text =>
      rw [Apart, here]
      exact ih later
    | doc text => exact ⟨rfl, ih later⟩

theorem settled_joined {separator : String} {items : List (List Piece)} (calm : IsCalm separator)
    (each : ∀ item ∈ items, ∀ piece ∈ item, piece.Settled) :
    ∀ piece ∈ joined separator items, piece.Settled := by
  cases items with
  | nil =>
    rintro piece ⟨⟩
  | cons first rest =>
    obtain ⟨here, later⟩ := List.forall_mem_cons.mp each
    rw [joined, List.forall_mem_append]
    refine ⟨here, ?_⟩
    intro piece member
    obtain ⟨item, inRest, found⟩ := List.mem_flatMap.mp member
    rcases List.mem_cons.mp found with rfl | inItem
    · exact calm.settles
    · exact later item inRest piece inItem

end Piece

theorem settled_docPieces (doc : Option String) (level : Nat) :
    ∀ piece ∈ docPieces doc level, piece.Settled := by
  cases doc with
  | none =>
    rintro piece ⟨⟩
  | some text =>
    rw [docPieces, List.forall_mem_cons, List.forall_mem_cons, List.forall_mem_singleton]
    exact ⟨(calm_indent level).settles, trivial, IsCalm.settles (by decide)⟩

theorem Declaration.settled_pieces {d : Declaration} (calm : ∀ node ∈ d.toType.nodes, node.Calm)
    (formed : Load.Formed d.toType) (level : Nat) : ∀ piece ∈ d.pieces level, piece.Settled := by
  rw [pieces, List.forall_mem_append]
  refine ⟨settled_docPieces d.doc level, ?_⟩
  rw [AvroType.nodes_eq, List.forall_mem_cons] at calm
  obtain ⟨here, inside⟩ := calm
  cases d with
  | enum type =>
    rw [bodyPieces, List.forall_mem_singleton]
    exact settles_enumBody here.1 here.2 level
  | record type =>
    have opening : Settles (indent level ++ "record " ++ type.name ++ " \x7b\n") :=
      settles_opening (by decide) here.1 level
    have closing : Settles ("\n" ++ indent level ++ "\x7d") :=
      (IsCalm.append_settles (by decide) (calm_indent level).settles).append_calm (by decide)
    rw [bodyPieces, List.forall_mem_append, List.forall_mem_cons, List.forall_mem_singleton]
    refine ⟨⟨opening, Piece.settled_joined (by decide) (List.forall_mem_map.mpr ?_)⟩, closing⟩
    intro field member
    have types : ∀ node ∈ field.type.nodes, node.Calm := fun node below =>
      inside node (mem_nodesOf.mpr ⟨field.type, List.mem_map_of_mem member, below⟩)
    rw [Field.pieces, List.forall_mem_append, List.forall_mem_singleton]
    exact ⟨settled_docPieces field.doc _,
      Field.settles_line (here.2 field member) types (formed.2 field member).default _⟩

namespace Schema

theorem settles_nameSpaceLine {nameSpace : Option String} (escaped : HintEscaped nameSpace) :
    Settles (nameSpaceLine nameSpace) := by
  cases nameSpace with
  | none => exact settles_empty
  | some text => exact (settles_annotated (by decide) (escaped text rfl)).append_calm (by decide)

variable {source name : String} {s t : Schema}

/-- No doc comment of a loaded schema begins inside a string literal, if its names and hints leave
none open. -/
theorem docsApart_of_load (loaded : load source name = .ok s) (calm : s.Calm) : s.DocsApart := by
  have formed := formed_of_load loaded
  have named : IsCalm s.name := by
    have top : AvroType.record s.asRecord ∈ nodesOf [.record s.asRecord] := by
      rw [nodesOf_asRecord]
      exact List.mem_cons_self
    exact (calm.types _ top).1
  have line := settles_nameSpaceLine calm.nameSpace
  have opening : Settles (nameSpaceLine s.nameSpace ++ "protocol " ++ s.name ++ " \x7b\n") :=
    ((line.append_calm (by decide)).append_calm named).append_calm (by decide)
  apply Piece.apart_of_settled
  rw [pieces, List.forall_mem_append, List.forall_mem_cons, List.forall_mem_singleton]
  refine ⟨⟨opening, Piece.settled_joined (by decide) (List.forall_mem_map.mpr ?_)⟩,
    IsCalm.settles (by decide)⟩
  intro d member
  rw [definitions_eq] at member
  have inNodes := mem_definitionsOf.mp member
  exact Declaration.settled_pieces
    (fun node below => calm.types node (mem_nodesOf_trans inNodes below)) (formed _ inNodes) 0

/-- What is in the docs of a loaded schema does not show outside of them, if no text ends its
comment and no name or hint leaves a literal open. -/
theorem withoutComments_eq_of_load (loaded : load source name = .ok s) (calm : s.Calm)
    (same : t.SameButDocs s) (unclosed : s.DocsUnclosed) (unclosed' : t.DocsUnclosed) :
    withoutComments t.render = withoutComments s.render :=
  withoutComments_eq_of_docsApart (docsApart_of_load loaded calm) same unclosed unclosed'

end Schema

end AvroIdl
