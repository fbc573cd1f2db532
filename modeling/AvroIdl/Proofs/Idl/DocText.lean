import AvroIdl.Proofs.Idl.Comments
import AvroIdl.Proofs.Idl.ReadProtocol
import AvroIdl.Proofs.Schema.Docs

/-
The doc comments of a protocol: a text that does not hold the closing mark stays inside its
comment, wherever the comment itself is one.
-/
set_option autoImplicit false

namespace AvroIdl

namespace Piece

theorem allChars_append (pieces rest : List Piece) :
    allChars (pieces ++ rest) = allChars pieces ++ allChars rest :=
  List.flatMap_append

theorem docs_append (pieces rest : List Piece) : docs (pieces ++ rest) = docs pieces ++ docs rest :=
  List.filterMap_append

/-- Lists of pieces with a code between them. -/
def joined (separator : String) : List (List Piece) → List Piece
  | [] => []
  | first :: rest => first ++ rest.flatMap (.code separator :: ·)

theorem allChars_joined (separator : String) (items : List (List Piece)) :
    allChars (joined separator items) = separator.toList.intercalate (items.map allChars) := by
  cases items with
  | nil => rfl
  | cons first rest =>
    rw [joined, intercalate_map_cons, allChars_append]
    congr 1
    exact List.flatMap_assoc

theorem map_joined (f : String → String) (separator : String) (items : List (List Piece)) :
    (joined separator items).map (mapDoc f) =
      joined separator (items.map (List.map (mapDoc f))) := by
  cases items with
  | nil => rfl
  | cons first rest =>
    rw [joined, List.map_cons, joined, List.map_append, List.map_flatMap, List.flatMap_map]
    rfl

theorem docs_joined (separator : String) (items : List (List Piece)) :
    docs (joined separator items) = items.flatMap docs := by
  cases items with
  | nil => rfl
  | cons first rest =>
    rw [joined, docs_append, List.flatMap_cons]
    congr 1
    exact List.filterMap_flatMap

end Piece

open Piece

def docPieces (doc : Option String) (level : Nat) : List Piece :=
  match doc with
  | some text => [.code (indent level), .doc text, .code "\n"]
  | none => []

theorem allChars_docPieces (doc : Option String) (level : Nat) :
    allChars (docPieces doc level) = (docComment doc level).toList := by
  cases doc with
  | none => rfl
  | some text => simp [docPieces, docComment, allChars, chars]

theorem map_docPieces (f : String → String) (doc : Option String) (level : Nat) :
    (docPieces doc level).map (mapDoc f) = docPieces (doc.map f) level := by
  cases doc <;> rfl

theorem docs_docPieces (doc : Option String) (level : Nat) :
    docs (docPieces doc level) = doc.toList := by
  cases doc <;> rfl

/-- The field without its doc. -/
def Field.undocumented (field : Field) : Field :=
  { field with doc := none }

def Field.pieces (field : Field) (level : Nat) : List Piece :=
  docPieces field.doc level ++ [.code (Field.line (Field.undocumented field) level)]

theorem Field.allChars_pieces (field : Field) (level : Nat) :
    allChars (Field.pieces field level) = (Field.line field level).toList := by
  rw [Field.pieces, allChars_append, allChars_docPieces]
  simp [allChars, chars, Field.line, undocumented, docComment, userDataTypeHint, defaultClause]

theorem Field.map_pieces (f : String → String) (field : Field) (level : Nat) :
    (Field.pieces field level).map (mapDoc f) = Field.pieces (mapDocsInField f field) level := by
  obtain ⟨name, type, doc, default, userDataType⟩ := field
  simp only [Field.pieces, List.map_append, map_docPieces, List.map_cons, List.map_nil, mapDoc,
    mapDocsInField, Field.line, undocumented, AvroType.spelling_mapDocs]
  rfl

namespace Declaration

/-- A block without the doc comment of the definition. -/
def bodyPieces (level : Nat) : Declaration → List Piece
  | .record type =>
    .code (indent level ++ "record " ++ type.name ++ " \x7b\n") ::
      joined "\n" (type.fields.map fun field => Field.pieces field (level + 1)) ++
      [.code ("\n" ++ indent level ++ "\x7d")]
  | .enum type => [.code (enumBody type.name type.symbols level)]

def pieces (d : Declaration) (level : Nat) : List Piece :=
  docPieces d.doc level ++ d.bodyPieces level

theorem allChars_pieces (d : Declaration) (level : Nat) :
    allChars (d.pieces level) = (d.block level).toList := by
  rw [pieces, allChars_append, allChars_docPieces]
  cases d with
  | record type =>
    have lines : allChars (joined "\n" (type.fields.map fun field =>
        Field.pieces field (level + 1))) =
        ("\n".intercalate (type.fields.map fun field => Field.line field (level + 1))).toList := by
      rw [allChars_joined, String.toList_intercalate, List.map_map, List.map_map]
      congr 1
      exact List.map_congr_left fun field _ => Field.allChars_pieces field (level + 1)
    rw [bodyPieces, allChars_append, ← List.singleton_append, allChars_append, lines]
    simp [doc, block, recordBody, allChars, chars]
  | enum type => simp [doc, block, bodyPieces, allChars, chars]

theorem map_pieces (f : String → String) (d : Declaration) (level : Nat) :
    (d.pieces level).map (mapDoc f) = (d.mapDocs f).pieces level := by
  rw [pieces, List.map_append, map_docPieces]
  cases d with
  | record type =>
    obtain ⟨name, doc, fields⟩ := type
    simp only [bodyPieces, List.map_append, List.map_cons, List.map_nil, map_joined, List.map_map,
      Function.comp_def, Field.map_pieces]
    simp only [mapDocs, mapDocsInRecord, mapDocsInFields_eq, List.map_map, pieces, bodyPieces]
    rfl
  | enum type => rfl

theorem docs_pieces (d : Declaration) (level : Nat) : Piece.docs (d.pieces level) = d.docs := by
  rw [pieces, docs_append, docs_docPieces]
  cases d with
  | record type =>
    have lines : ∀ field : Field,
        Piece.docs (Field.pieces field (level + 1)) = field.doc.toList := by
      intro field
      rw [Field.pieces, docs_append, docs_docPieces]
      exact List.append_nil _
    rw [bodyPieces, docs_append, ← List.singleton_append, docs_append, docs_joined,
      List.flatMap_map]
    simp only [lines, Declaration.docs, doc]
    simp [Piece.docs, List.filterMap_eq_flatMap_toList]
  | enum type => exact List.append_nil _

end Declaration

namespace Schema

/-- The protocol of a schema in pieces. -/
def pieces (s : Schema) : List Piece :=
  .code (nameSpaceLine s.nameSpace ++ "protocol " ++ s.name ++ " \x7b\n") ::
    joined "\n\n" (s.definitions.map fun d => d.pieces 0) ++ [.code "\n\x7d\n"]

theorem allChars_pieces (s : Schema) : allChars s.pieces = s.render.toList := by
  have blocks : allChars (joined "\n\n" (s.definitions.map fun d => d.pieces 0)) =
      ((Declaration.record s.asRecord).block 0).toList ++
        (Walk.redeclare s.roots).declared.flatMap fun d => "\n\n".toList ++ (d.block 0).toList := by
    rw [Walk.declared_redeclare, definitions, allChars_joined, List.map_map, intercalate_map_cons]
    simp only [Function.comp, Declaration.allChars_pieces]
  rw [pieces, allChars_append, ← List.singleton_append, allChars_append, blocks, render,
    toList_protocol]
  simp [allChars, chars]

theorem map_pieces (f : String → String) (s : Schema) :
    s.pieces.map (mapDoc f) = (s.mapDocs f).pieces := by
  rw [pieces, pieces, definitions_mapDocs]
  simp only [List.map_append, List.map_cons, List.map_nil, map_joined, List.map_map,
    Function.comp_def, Declaration.map_pieces]
  rfl

theorem docs_pieces (s : Schema) : Piece.docs s.pieces = s.docs := by
  rw [pieces, docs_append, ← List.singleton_append, docs_append, docs_joined, List.flatMap_map]
  simp only [Declaration.docs_pieces]
  exact List.append_nil _

/-- No doc holds the mark that ends a comment. -/
def DocsUnclosed (s : Schema) : Prop :=
  ∀ text ∈ s.docs, Unclosed text

/-- No doc comment of the protocol begins inside a string literal. -/
def DocsApart (s : Schema) : Prop :=
  Apart .outside s.pieces

theorem toList_withoutComments (s : Schema) :
    (withoutComments s.render).toList = Skim.outside.kept (allChars s.pieces) ++
      (Skim.outside.after (allChars s.pieces)).left := by
  rw [withoutComments, String.toList_ofList, allChars_pieces]

theorem docsUnclosed_mapDocs {text : String} (unclosed : Unclosed text) (s : Schema) :
    (s.mapDocs fun _ => text).DocsUnclosed := by
  intro other member
  rw [← docs_pieces, ← map_pieces, Piece.docs, List.filterMap_map] at member
  obtain ⟨piece, -, isDoc⟩ := List.mem_filterMap.mp member
  cases piece with
  | code => cases isDoc
  | doc =>
    cases isDoc
    exact unclosed

theorem withoutComments_eq_of_docsApart {s t : Schema} (apart : s.DocsApart)
    (same : t.SameButDocs s) (unclosed : s.DocsUnclosed) (unclosed' : t.DocsUnclosed) :
    withoutComments t.render = withoutComments s.render := by
  have pieces : s.pieces.map (mapDoc fun _ => "") = t.pieces.map (mapDoc fun _ => "") := by
    rw [map_pieces, map_pieces, same]
  rw [DocsUnclosed, ← docs_pieces] at unclosed unclosed'
  obtain ⟨kept, after⟩ := kept_eq_of_apart apart pieces unclosed unclosed'
  rw [← String.toList_inj, toList_withoutComments, toList_withoutComments, kept, after]

/-- Texts that do not end their comments leave no trace outside of them, if no comment begins
inside a string literal, and only then. -/
theorem docs_stay_inside_iff (s : Schema) (unclosed : s.DocsUnclosed) :
    (∀ t : Schema, t.SameButDocs s → t.DocsUnclosed →
      withoutComments t.render = withoutComments s.render) ↔ s.DocsApart := by
  constructor
  · intro same
    by_contra mixed
    have short := same _ (s.sameButDocs_mapDocs fun _ => "") (docsUnclosed_mapDocs (by decide) s)
    have long := same _ (s.sameButDocs_mapDocs fun _ => "a") (docsUnclosed_mapDocs (by decide) s)
    have lengths := congrArg (fun text : String => text.toList.length) (short.trans long.symm)
    simp only [toList_withoutComments, ← map_pieces, List.length_append] at lengths
    obtain ⟨after, -, longer⟩ := kept_mapDoc .outside s.pieces
    rw [after] at lengths
    have less := longer mixed
    omega
  · intro apart t same unclosed'
    exact withoutComments_eq_of_docsApart apart same unclosed unclosed'

/-- A record with a doc, and nothing else. -/
def documented (text : String) : Schema :=
  ⟨"A", none, some text, []⟩

theorem documented_stays_inside :
    (documented "One * two / three.").DocsUnclosed ∧
      ((∀ t : Schema, t.SameButDocs (documented "One * two / three.") → t.DocsUnclosed →
        withoutComments t.render = withoutComments (documented "One * two / three.").render) ↔
          (documented "One * two / three.").DocsApart) := by
  have unclosed : (documented "One * two / three.").DocsUnclosed := by
    intro text member
    cases List.mem_singleton.mp member
    decide
  exact ⟨unclosed, docs_stay_inside_iff _ unclosed⟩

def documentedSource (text : String) : String :=
  "\x7b\"type\":\"record\",\"name\":\"A\",\"doc\":\"" ++ text ++ "\",\"fields\":[]\x7d"

theorem load_documentedSource {text : String}
    (read : Json.read (documentedSource text) = .ok (.object [("doc", .string text),
      ("fields", .array []), ("name", .string "A"), ("type", .string "record")])) (name : String) :
    load (documentedSource text) name = .ok (documented text) := by
  have header : Load.Header [("doc", .string text), ("fields", .array []), ("name", .string "A"),
      ("type", .string "record")] none ⟨"A", none⟩ :=
    ⟨⟨"A", none, rfl, .inl rfl, by decide⟩, by decide⟩
  have record : Load.DescribesRecord none _ ⟨"A", none⟩ (documented text).asRecord
      [.define ⟨"A", none⟩] :=
    .mk ⟨header, rfl, rfl, List.nodup_nil⟩ rfl .nil
  rw [load_eq_ok_iff]
  exact ⟨_, _, ⟨[⟨"A", none⟩], []⟩, read, .mk rfl rfl record, ⟨.inl rfl, rfl⟩, rfl⟩

/-- What follows the closing mark in a doc is no longer part of a comment. -/
theorem closing_doc_shows :
    ∃ s t, load (documentedSource "x") "a.avsc" = .ok s ∧
      load (documentedSource "*/ x") "a.avsc" = .ok t ∧ s.SameButDocs t ∧
      withoutComments s.render ≠ withoutComments t.render := by
  refine ⟨documented "x", documented "*/ x", load_documentedSource rfl _,
    load_documentedSource rfl _, rfl, ?_⟩
  intro same
  have chars := congrArg String.toList same
  rw [toList_withoutComments, toList_withoutComments] at chars
  exact absurd chars (by decide)

end Schema

end AvroIdl
