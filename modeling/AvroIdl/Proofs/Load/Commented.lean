import AvroIdl.Proofs.Json.Tokens
import AvroIdl.Proofs.Load.Document

/-
Comments are not seen. Put in between the tokens of a text or at its ends, in any number, they
change neither the value that is read nor the schema that is loaded.
-/
set_option autoImplicit false

namespace AvroIdl

namespace Json

open Text

/-- The second gap is the first with comments put in, each of them up to its end. -/
inductive GapCommented : List Char → List Char → Prop
  | nil : GapCommented [] []
  | space {c : Char} {gap commented : List Char} (isSpace : isSpace c = true)
      (after : GapCommented gap commented) : GapCommented (c :: gap) (c :: commented)
  | block {gap commented body : List Char} (inside : ¬ ['*', '/'] <:+: body)
      (after : GapCommented gap commented) :
      GapCommented gap ('/' :: '*' :: (body ++ '*' :: '/' :: commented))
  | line {gap commented body : List Char} (inside : '\n' ∉ body)
      (after : GapCommented gap commented) :
      GapCommented gap ('/' :: '/' :: (body ++ '\n' :: commented))

/-- The second text is the first with comments put in between its tokens and at its ends. -/
inductive Commented : List Char → List Char → Prop
  | last {gap commented : List Char} (gaps : GapCommented gap commented) : Commented gap commented
  | token {token : Token} {gap gap' text rest rest' : List Char} (gaps : GapCommented gap gap')
      (spelled : token.Spelled text) (ends : token.EndsBefore rest) (after : Commented rest rest') :
      Commented (gap ++ (text ++ rest)) (gap' ++ (text ++ rest'))

variable {gap gap' text text' rest rest' : List Char} {tokens : List Token} {source : String}
  {json : Json}

theorem GapCommented.blanks (gaps : GapCommented gap gap') : Blanks gap := by
  induction gaps with
  | nil => exact blanks_replicate 0
  | space isSpace _ ih => exact ih.cons isSpace
  | block _ _ ih | line _ _ ih => exact ih

theorem GapCommented.isGap (gaps : GapCommented gap gap') : Gap gap' := by
  induction gaps with
  | nil => exact .nil
  | space isSpace _ ih => exact .space isSpace ih
  | block inside _ ih => exact .block inside ih
  | line inside _ ih => exact .line inside ih

theorem gapCommented_self (blanks : Blanks gap) : GapCommented gap gap := by
  induction gap with
  | nil => exact .nil
  | cons c gap ih =>
    obtain ⟨space, others⟩ := List.forall_mem_cons.mp blanks
    exact .space space (ih others)

theorem Lexed.commented_self (lexed : Lexed Blanks Blanks tokens text) : Commented text text := by
  induction lexed with
  | last blanks => exact .last (gapCommented_self blanks)
  | token blanks spelled ends _ ih => exact .token (gapCommented_self blanks) spelled ends ih

/-- A comment may also come before all of a text. -/
theorem Commented.block {body : List Char} (commented : Commented text text')
    (inside : ¬ ['*', '/'] <:+: body) :
    Commented text ('/' :: '*' :: (body ++ '*' :: '/' :: text')) := by
  cases commented with
  | last gaps => exact .last (.block inside gaps)
  | @token token gap gap' own rest rest' gaps spelled ends after =>
    have whole := Commented.token (.block inside gaps) spelled ends after
    simpa only [List.cons_append, List.append_assoc] using whole

theorem Commented.line {body : List Char} (commented : Commented text text')
    (inside : '\n' ∉ body) : Commented text ('/' :: '/' :: (body ++ '\n' :: text')) := by
  cases commented with
  | last gaps => exact .last (.line inside gaps)
  | @token token gap gap' own rest rest' gaps spelled ends after =>
    have whole := Commented.token (.line inside gaps) spelled ends after
    simpa only [List.cons_append, List.append_assoc] using whole

/-- The second text begins as the first does, or with a comment. -/
def StartsAlike (text text' : List Char) : Prop :=
  text'.head? = text.head? ∨ text'.head? = some '/'

theorem StartsAlike.endsBefore {token : Token} (alike : StartsAlike text text')
    (ends : token.EndsBefore text) : token.EndsBefore text' := by
  cases token with
  | number n =>
    intro c isFirst
    rcases alike with same | opens
    · exact ends c (same ▸ isFirst)
    · rw [opens] at isFirst
      cases isFirst
      rfl
  | _ => trivial

theorem GapCommented.startsAlike (gaps : GapCommented gap gap') (alike : StartsAlike rest rest') :
    StartsAlike (gap ++ rest) (gap' ++ rest') := by
  cases gaps with
  | nil => exact alike
  | space => exact .inl rfl
  | block | line => exact .inr rfl

/-- With comments put in a text has the same tokens. -/
theorem Commented.lexed (commented : Commented text text') :
    ∃ tokens, Lexed Blanks Blanks tokens text ∧ Lexed Gap LastGap tokens text' ∧
      StartsAlike text text' := by
  induction commented with
  | @last gap gap' gaps =>
    have alike : StartsAlike (gap ++ []) (gap' ++ []) := gaps.startsAlike (.inl rfl)
    rw [List.append_nil, List.append_nil] at alike
    exact ⟨[], .last gaps.blanks, .last (.gap gaps.isGap), alike⟩
  | @token token gap gap' text rest rest' gaps spelled ends _ ih =>
    obtain ⟨tokens, plain, lexed, alike⟩ := ih
    refine ⟨token :: tokens, .token gaps.blanks spelled ends plain,
      .token gaps.isGap spelled (alike.endsBefore ends) lexed, gaps.startsAlike (.inl ?_)⟩
    obtain ⟨c, others, rfl⟩ := List.exists_cons_of_ne_nil spelled.ne_nil
    rfl

theorem reads_of_readPlain (valid : readPlain (bytes source) = .ok json) :
    Reader.start.Reads source.toList json :=
  Reader.exists_passes_of_run valid

/-- With comments put in, what is read of a text is what is read of it without them. -/
theorem Commented.read_eq {commented : String}
    (isCommented : Commented source.toList commented.toList)
    (valid : readPlain (bytes source) = .ok json) : read commented = .ok json := by
  obtain ⟨tokens, plain, lexed, -⟩ := isCommented.lexed
  exact read_of_ends (Reader.ends_of_reads plain ⟨_, rfl⟩ (reads_of_readPlain valid)) lexed

theorem exists_lexed_of_readPlain (valid : readPlain (bytes source) = .ok json) :
    ∃ tokens, Lexed Blanks Blanks tokens source.toList :=
  Reader.exists_tokens ⟨_, rfl⟩ (reads_of_readPlain valid)

/-- What is read without looking for comments is read when looking for them. -/
theorem read_of_readPlain (valid : readPlain (bytes source) = .ok json) :
    read source = .ok json := by
  obtain ⟨tokens, lexed⟩ := exists_lexed_of_readPlain valid
  exact lexed.commented_self.read_eq valid

theorem readPlain_of_spellsPlainly (spells : SpellsPlainly source json) :
    readPlain (bytes source) = .ok (json.mapNumbers normalSpelling) := by
  obtain ⟨tokens, lexed, isValue⟩ := spells
  exact run_of_reads (isValue.ends _ lexed)

end Json

namespace Schema

open Json

theorem load_eq_of_read_eq {source commented : String} (same : read commented = read source)
    (name : String) (s : Schema) : load commented name = .ok s ↔ load source name = .ok s := by
  rw [load_eq_ok_iff_ofJson, load_eq_ok_iff_ofJson, same]

/-- Every JSON text without comments is read as if no comments were looked for, and as the same
value and the same schema with comments put in. -/
theorem comments_are_not_seen (source : String) :
    (∀ json, SpellsPlainly source json →
      readPlain (Text.bytes source) = .ok (json.mapNumbers normalSpelling)) ∧
    ∀ value, readPlain (Text.bytes source) = .ok value →
      (∃ tokens, Lexed Blanks Blanks tokens source.toList) ∧ read source = .ok value ∧
        ∀ commented : String, Commented source.toList commented.toList →
          read commented = .ok value ∧
            ∀ name s, load commented name = .ok s ↔ load source name = .ok s := by
  refine ⟨fun _ => readPlain_of_spellsPlainly, fun value valid => ?_⟩
  have isRead := read_of_readPlain valid
  refine ⟨exists_lexed_of_readPlain valid, isRead, fun commented isCommented => ?_⟩
  have commentedRead := isCommented.read_eq valid
  exact ⟨commentedRead, load_eq_of_read_eq (commentedRead.trans isRead.symm)⟩

def markedRest : String :=
  "\"type\":\"record\",\"name\":\"A\",\"doc\":\"\\\"/*\",\"fields\":[]\x7d"

/-- A record whose doc has a quote and the mark of a comment in it. -/
def markedSource : String :=
  "\x7b" ++ markedRest

def markedMembers : Members :=
  [("doc", .string "\"/*"), ("fields", .array []), ("name", .string "A"),
    ("type", .string "record")]

def markedJson : Json :=
  .object markedMembers

def marked : Schema :=
  ⟨"A", none, some "\"/*", []⟩

theorem spellsPlainly_markedSource : SpellsPlainly markedSource markedJson := by
  have isValue : IsValue Reader.maxDepth _ markedJson :=
    @IsValue.object _ "type" _ _ _ _ (.string "record") (@AreMembers.cons _ "name" _ _ _ _ _
      (.string "A") (@AreMembers.cons _ "doc" _ _ _ _ _ (.string "\"/*")
        (@AreMembers.cons _ "fields" _ _ _ _ _ .emptyList .nil)))
  exact spellsPlainly_of_joined isValue (by decide)

theorem load_markedSource (name : String) : load markedSource name = .ok marked := by
  have header : Load.Header markedMembers none ⟨"A", none⟩ :=
    ⟨⟨"A", none, rfl, .inl rfl, by decide⟩, by decide⟩
  have record : Load.DescribesRecord none markedMembers ⟨"A", none⟩ marked.asRecord
      [.define ⟨"A", none⟩] :=
    .mk ⟨header, rfl, rfl, List.nodup_nil⟩ rfl .nil
  have isRead : read markedSource = .ok markedJson :=
    read_of_readPlain (readPlain_of_spellsPlainly spellsPlainly_markedSource)
  rw [load_eq_ok_iff]
  exact ⟨markedJson, _, ⟨[⟨"A", none⟩], []⟩, isRead, .mk rfl rfl record, ⟨.inl rfl, rfl⟩, rfl⟩

/-- The same record with a quote in a comment before it, and a brace in one inside it. -/
def commentedSource : String :=
  "//\"\n\x7b/*\x7d*/" ++ markedRest

theorem commented_markedSource : Commented markedSource.toList commentedSource.toList := by
  have source : markedSource.toList = '\x7b' :: markedRest.toList := by
    rw [markedSource, String.toList_append]
    rfl
  have commented : commentedSource.toList = '/' :: '/' :: (['"'] ++ '\n' :: '\x7b' :: '/' :: '*' ::
      (['\x7d'] ++ '*' :: '/' :: markedRest.toList)) := by
    rw [commentedSource, String.toList_append]
    rfl
  have opens := reads_of_readPlain (readPlain_of_spellsPlainly spellsPlainly_markedSource)
  rw [source] at opens ⊢
  rw [commented]
  obtain ⟨next, stepped, reads⟩ := (Reader.reads_cons_iff (by decide)).mp opens
  cases stepped
  obtain ⟨tokens, lexed⟩ := Reader.exists_tokens ⟨_, rfl⟩ reads
  have brace : ¬ ['*', '/'] <:+: ['\x7d'] := by decide
  have inside := lexed.commented_self.block brace
  have after : Commented ('\x7b' :: _) ('\x7b' :: _) := .token .nil .openObject trivial inside
  exact after.line (by decide)

theorem marked_is_loaded_commented :
    SpellsPlainly markedSource markedJson ∧ readPlain (Text.bytes markedSource) = .ok markedJson ∧
      Commented markedSource.toList commentedSource.toList ∧
      read commentedSource = .ok markedJson ∧
      load markedSource "a.avsc" = .ok marked ∧ load commentedSource "a.avsc" = .ok marked := by
  have valid := (comments_are_not_seen markedSource).1 markedJson spellsPlainly_markedSource
  obtain ⟨-, -, same⟩ := (comments_are_not_seen markedSource).2 markedJson valid
  obtain ⟨isRead, loads⟩ := same commentedSource commented_markedSource
  have loaded := load_markedSource "a.avsc"
  exact ⟨spellsPlainly_markedSource, valid, commented_markedSource, isRead, loaded,
    (loads _ _).mpr loaded⟩

end Schema

end AvroIdl
