import AvroIdl.Idl.Spelling
import AvroIdl.Proofs.Text.Readable

/-
The smallest parts of a protocol that can be read back: words, and annotations with a quoted
argument.
-/
set_option autoImplicit false

namespace AvroIdl

/-- What stands around words. No letter or digit of any script is among these characters, nor the
underscore or the dot. -/
def signs : List Char :=
  [' ', '\n', ',', ';', '<', '>', '\x7b', '\x7d', '"', '@', '/']

def isWordChar (c : Char) : Bool :=
  !signs.contains c

theorem isWordChar_of_alphanum {c : Char}
    (plain : (c.isAlphanum || c == '_' || c == '.') = true) : isWordChar c = true := by
  have others :
      signs.all (fun sign => !(sign.isAlphanum || sign == '_' || sign == '.')) = true := rfl
  rw [isWordChar, Bool.not_eq_true', List.contains_eq_mem, decide_eq_false_iff_not]
  intro member
  have other := List.all_eq_true.mp others c member
  rw [plain] at other
  cases other

def IsWord (text : String) : Prop :=
  text ≠ "" ∧ ∀ c ∈ text.toList, isWordChar c = true

/-- The words that begin the spelling of a type without a name. -/
def keywords : List String :=
  ["null", "int", "long", "string", "boolean", "union", "map", "array"]

def IsTypeWord (name : String) : Prop :=
  IsWord name ∧ name ∉ keywords

theorem isWord_of_keyword : ∀ word ∈ keywords, IsWord word := by
  simp [keywords, IsWord, isWordChar, signs]

theorem IsWord.opens {word : String} (isWord : IsWord word) : Opens isWordChar word.toList := by
  cases text : word.toList with
  | nil => exact absurd (String.toList_eq_nil_iff.mp text) isWord.1
  | cons c rest =>
    exact ⟨c, rfl, isWord.2 c (by rw [text]; exact List.mem_cons_self)⟩

theorem readable_word :
    Readable String.toList id IsWord (Begins fun c => !isWordChar c) := by
  intro a b rest rest' wordA wordB stops stops' same
  have free : ∀ {word : String}, IsWord word → ∀ c ∈ word.toList, (!isWordChar c) = false := by
    intro word isWord c member
    rw [isWord.2 c member]
    rfl
  exact readable_until (fun c => !isWordChar c) (free wordA) (free wordB) stops stops' same

def Unquoted (hint : Option String) : Prop :=
  ∀ text ∈ hint, '"' ∉ text.toList

theorem readable_argument (close : String) :
    Readable (fun text : String => text.toList ++ '"' :: close.toList) id
      (fun text => '"' ∉ text.toList) Anything := by
  intro a b rest rest' freeA freeB _ _ same
  have free : ∀ {text : String}, '"' ∉ text.toList → ∀ c ∈ text.toList, (c == '"') = false := by
    intro text without c member
    rw [beq_eq_false_iff_ne]
    rintro rfl
    exact without member
  have closed := (readable_until (· == '"')).closed ('"' :: close.toList)
    (fun rest => begins_cons.mpr rfl)
  exact closed (free freeA) (free freeB) trivial trivial same

/-- An annotation that may be missing. -/
theorem readable_annotationText (whole : Option String → String)
    (before name after opening : String)
    (begun : before ++ "@" ++ name ++ "(\"" = opening) (absent : whole none = "")
    (present : ∀ argument,
      whole (some argument) = before ++ annotationText name argument ++ after) :
    Readable (fun argument => (whole argument).toList) id Unquoted
      (fun rest => ¬ opening.toList <+: rest) := by
  intro a b rest rest' okA okB stops stops' same
  have readable := readable_option (fun argument => (whole argument).toList) opening.toList
    (by rw [absent]; rfl)
    (by intro argument; rw [present, annotationText, ← begun]; simp [String.append_assoc])
    (readable_argument (")" ++ after))
  obtain ⟨found, rest⟩ := readable okA okB ⟨trivial, stops⟩ ⟨trivial, stops'⟩ same
  rw [Option.map_id] at found
  exact ⟨found, rest⟩

end AvroIdl
