import Mathlib.Data.List.Infix

/-
Leaving comments out of a text, and texts that only differ in their comments: code with
comments between, where code may open strings and comments of its own.
-/
set_option autoImplicit false

namespace AvroIdl

/-- Where a reader stands that leaves out comments. What a comment holds so far stands latest
first: it is put back if the comment never ends. -/
inductive Skim
  | outside
  | slash
  | string
  | escape
  | comment (inside : List Char)
  | star (inside : List Char)

namespace Skim

/-- What is kept at a character, and where the reader stands after it. -/
def step (s : Skim) (c : Char) : List Char × Skim :=
  match s, c with
  | .outside, '"' => (['"'], .string)
  | .outside, '/' => ([], .slash)
  | .outside, c => ([c], .outside)
  | .slash, '*' => ([], .comment [])
  | .slash, '/' => (['/'], .slash)
  | .slash, '"' => (['/', '"'], .string)
  | .slash, c => (['/', c], .outside)
  | .string, '"' => (['"'], .outside)
  | .string, '\\' => (['\\'], .escape)
  | .string, c => ([c], .string)
  | .escape, c => ([c], .string)
  | .comment inside, '*' => ([], .star ('*' :: inside))
  | .comment inside, c => ([], .comment (c :: inside))
  | .star _, '/' => ([], .outside)
  | .star inside, '*' => ([], .star ('*' :: inside))
  | .star inside, c => ([], .comment (c :: inside))

def after (s : Skim) (text : List Char) : Skim :=
  text.foldl (fun s c => (s.step c).2) s

def kept (s : Skim) : List Char → List Char
  | [] => []
  | c :: rest => (s.step c).1 ++ (s.step c).2.kept rest

/-- What is put back at the end of a text. -/
def left : Skim → List Char
  | .slash => ['/']
  | .comment inside | .star inside => '/' :: '*' :: inside.reverse
  | .outside | .string | .escape => []

variable {s : Skim}

theorem after_append (s : Skim) (text rest : List Char) :
    s.after (text ++ rest) = (s.after text).after rest :=
  List.foldl_append

theorem kept_append (s : Skim) (text rest : List Char) :
    s.kept (text ++ rest) = s.kept text ++ (s.after text).kept rest := by
  induction text generalizing s with
  | nil => rfl
  | cons c text ih => rw [List.cons_append, kept, ih, kept, List.append_assoc, after, after,
      List.foldl_cons]

end Skim

/-- A text without its comments, which begin outside string literals. -/
def withoutComments (text : String) : String :=
  String.ofList (Skim.outside.kept text.toList ++ (Skim.outside.after text.toList).left)

/-- A part of a text: code, or a comment with a text inside. -/
inductive Piece
  | code (text : String)
  | doc (text : String)

namespace Piece

def chars : Piece → List Char
  | .code text => text.toList
  | .doc text => "/** ".toList ++ (text.toList ++ " */".toList)

/-- The piece with another text in its comment. -/
def mapDoc (f : String → String) : Piece → Piece
  | .code text => .code text
  | .doc text => .doc (f text)

def docs (pieces : List Piece) : List String :=
  pieces.filterMap fun
    | .code _ => none
    | .doc text => some text

end Piece

/-- A text that a comment can hold. -/
def Unclosed (text : String) : Prop :=
  ¬ "*/".toList <:+: text.toList

instance (text : String) : Decidable (Unclosed text) :=
  inferInstanceAs (Decidable (¬ "*/".toList <:+: text.toList))

namespace Skim

/-- The reader keeps nothing of the text, and stands outside of comments after it. -/
def Drops (s : Skim) (text : List Char) : Prop :=
  s.kept text = [] ∧ s.after text = .outside

theorem Drops.cons {s next : Skim} {c : Char} {text : List Char} (stepped : s.step c = ([], next))
    (drops : next.Drops text) : s.Drops (c :: text) := by
  rw [Drops, kept, after, List.foldl_cons, stepped]
  exact drops

theorem step_comment {c : Char} (other : c ≠ '*') (inside : List Char) :
    (comment inside).step c = ([], .comment (c :: inside)) := by
  unfold step
  split <;> simp_all

theorem step_star {c : Char} (noSlash : c ≠ '/') (noStar : c ≠ '*') (inside : List Char) :
    (star inside).step c = ([], .comment (c :: inside)) := by
  unfold step
  split <;> simp_all

theorem not_isInfix_of_cons {sign text : List Char} {c : Char} (free : ¬ sign <:+: c :: text) :
    ¬ sign <:+: text :=
  fun inside => free (inside.trans (List.suffix_cons c text).isInfix)

/-- A comment goes on through a text that does not hold the closing mark, and ends after it. -/
theorem comment_drops {text : List Char} :
    (¬ "*/".toList <:+: text → ∀ inside, (comment inside).Drops (text ++ " */".toList)) ∧
      (¬ "*/".toList <:+: '*' :: text → ∀ inside, (star inside).Drops (text ++ " */".toList)) := by
  induction text with
  | nil => exact ⟨fun _ _ => ⟨rfl, rfl⟩, fun _ _ => ⟨rfl, rfl⟩⟩
  | cons c text ih =>
    constructor
    · intro free inside
      by_cases isStar : c = '*'
      · subst isStar
        exact .cons rfl (ih.2 free _)
      · exact .cons (step_comment isStar inside) (ih.1 (not_isInfix_of_cons free) _)
    · intro free inside
      have noSlash : c ≠ '/' := by
        rintro rfl
        exact free ⟨[], text, rfl⟩
      have later := not_isInfix_of_cons free
      by_cases isStar : c = '*'
      · subst isStar
        exact .cons rfl (ih.2 later _)
      · exact .cons (step_star noSlash isStar inside) (ih.1 (not_isInfix_of_cons later) _)

/-- A comment can begin here, or is going on. -/
def hides : Skim → Bool
  | .outside | .slash | .comment _ => true
  | .string | .escape | .star _ => false

/-- Of a comment nothing is kept. A slash that stood before it is. -/
theorem doc_hidden {s : Skim} (hides : s.hides = true) {text : String} (unclosed : Unclosed text) :
    s.kept (Piece.chars (.doc text)) = s.kept ['/'] ∧
      s.after (Piece.chars (.doc text)) = .outside := by
  have opened : ∃ inside, s.kept "/** ".toList = s.kept ['/'] ∧
      s.after "/** ".toList = .comment inside := by
    cases s with
    | outside | slash | comment => exact ⟨_, rfl, rfl⟩
    | _ => cases hides
  obtain ⟨inside, kept, isComment⟩ := opened
  obtain ⟨nothing, ended⟩ := comment_drops.1 unclosed inside
  rw [Piece.chars, kept_append, after_append, kept, isComment, nothing, ended, List.append_nil]
  exact ⟨rfl, rfl⟩

end Skim

namespace Piece

/-- No comment begins inside a string literal. -/
def Apart : Skim → List Piece → Prop
  | _, [] => True
  | s, .code text :: rest => Apart (s.after text.toList) rest
  | s, .doc _ :: rest => s.hides = true ∧ Apart .outside rest

def allChars (pieces : List Piece) : List Char :=
  pieces.flatMap chars

variable {pieces others : List Piece} {s : Skim}

/-- Texts in comments have no part in what is kept. -/
theorem kept_eq_of_apart (apart : Apart s pieces)
    (same : pieces.map (mapDoc fun _ => "") = others.map (mapDoc fun _ => ""))
    (unclosed : ∀ text ∈ docs pieces, Unclosed text)
    (unclosed' : ∀ text ∈ docs others, Unclosed text) :
    s.kept (allChars pieces) = s.kept (allChars others) ∧
      s.after (allChars pieces) = s.after (allChars others) := by
  induction pieces generalizing s others with
  | nil =>
    rw [List.map_nil, eq_comm, List.map_eq_nil_iff] at same
    rw [same]
    exact ⟨rfl, rfl⟩
  | cons piece pieces ih =>
    rw [List.map_cons, eq_comm, List.map_eq_cons_iff] at same
    obtain ⟨other, others, rfl, first, rest⟩ := same
    rw [allChars, allChars, List.flatMap_cons, List.flatMap_cons]
    simp only [Skim.kept_append, Skim.after_append]
    cases piece with
    | code text =>
      cases other with
      | doc => cases first
      | code text' =>
        cases first
        obtain ⟨kept, after⟩ := ih apart rest.symm unclosed unclosed'
        exact ⟨congrArg (s.kept text.toList ++ ·) kept, after⟩
    | doc text =>
      cases other with
      | code => cases first
      | doc text' =>
        have closed := List.forall_mem_cons.mp unclosed
        have closed' := List.forall_mem_cons.mp unclosed'
        obtain ⟨hides, later⟩ := apart
        obtain ⟨kept, after⟩ := ih later rest.symm closed.2 closed'.2
        obtain ⟨hidden, ended⟩ := Skim.doc_hidden hides closed.1
        obtain ⟨hidden', ended'⟩ := Skim.doc_hidden hides closed'.1
        rw [hidden, hidden', ended, ended']
        exact ⟨congrArg (s.kept ['/'] ++ ·) kept, after⟩

/-- A comment that begins inside a string literal is kept with what stands in it. -/
theorem kept_doc_of_not_hides (shown : s.hides ≠ true) :
    (s.kept (chars (.doc ""))).length < (s.kept (chars (.doc "a"))).length ∧
      s.after (chars (.doc "")) = s.after (chars (.doc "a")) := by
  cases s with
  | string | escape | star inside =>
    refine ⟨?_, rfl⟩
    exact Nat.lt_succ_self _
  | _ => exact absurd rfl shown

/-- Where every text in a comment is replaced by the same one, a longer one leaves no less, and
more if some comment begins inside a string literal. -/
theorem kept_mapDoc (s : Skim) (pieces : List Piece) :
    s.after (allChars (pieces.map (mapDoc fun _ => ""))) =
        s.after (allChars (pieces.map (mapDoc fun _ => "a"))) ∧
      (s.kept (allChars (pieces.map (mapDoc fun _ => "")))).length ≤
        (s.kept (allChars (pieces.map (mapDoc fun _ => "a")))).length ∧
      (¬ Apart s pieces → (s.kept (allChars (pieces.map (mapDoc fun _ => "")))).length <
        (s.kept (allChars (pieces.map (mapDoc fun _ => "a")))).length) := by
  induction pieces generalizing s with
  | nil => exact ⟨rfl, Nat.le_refl _, fun shown => absurd trivial shown⟩
  | cons piece pieces ih =>
    simp only [List.map_cons, allChars, List.flatMap_cons, Skim.kept_append, Skim.after_append,
      List.length_append]
    cases piece with
    | code text =>
      obtain ⟨after, kept, more⟩ := ih (s.after text.toList)
      exact ⟨after, Nat.add_le_add_left kept _, fun shown => Nat.add_lt_add_left (more shown) _⟩
    | doc text =>
      by_cases hides : s.hides = true
      · have empty : Unclosed "" := by decide
        have letter : Unclosed "a" := by decide
        obtain ⟨hidden, ended⟩ := Skim.doc_hidden hides empty
        obtain ⟨hidden', ended'⟩ := Skim.doc_hidden hides letter
        obtain ⟨after, kept, more⟩ := ih .outside
        simp only [mapDoc]
        rw [hidden, hidden', ended, ended']
        refine ⟨after, Nat.add_le_add_left kept _, fun notApart => Nat.add_lt_add_left (more ?_) _⟩
        exact fun later => notApart ⟨hides, later⟩
      · obtain ⟨longer, same⟩ := kept_doc_of_not_hides hides
        obtain ⟨after, kept, -⟩ := ih (s.after (chars (.doc "")))
        simp only [mapDoc]
        rw [← same]
        have most := Nat.add_lt_add_of_lt_of_le longer kept
        exact ⟨after, Nat.le_of_lt most, fun _ => most⟩

end Piece

end AvroIdl
