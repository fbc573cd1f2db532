import AvroIdl.Json.Comment
import AvroIdl.Proofs.Text.Utf8

/-
A source with blanks in place of its comments, and line breaks where they were. Nothing is left
in it to be taken out, and it has as many bytes.
-/
set_option autoImplicit false

namespace AvroIdl.Json

namespace CommentScan

def inComment : CommentScan → Bool
  | .slash | .block | .star | .line => true
  | .outside | .string | .escape => false

/-- The byte belongs to a comment, if comments can be taken out at all. -/
def covers (scan : CommentScan) (byte : UInt8) : Bool :=
  match scan with
  | .outside => Char.ofUInt8 byte = '/'
  | scan => scan.inComment

/-- Every byte of a comment is a blank, except for line breaks. -/
def blankedByte (scan : CommentScan) (byte : UInt8) : UInt8 :=
  if scan.covers byte && byte != 0x0a then blank else byte

def blanked : CommentScan → List UInt8 → List UInt8
  | _, [] => []
  | scan, byte :: rest => scan.blankedByte byte :: blanked (scan.step byte).2 rest

def after (scan : CommentScan) (bytes : List UInt8) : CommentScan :=
  bytes.foldl (fun scan byte => (scan.step byte).2) scan

theorem blanked_append (scan : CommentScan) (bytes rest : List UInt8) :
    scan.blanked (bytes ++ rest) = scan.blanked bytes ++ (scan.after bytes).blanked rest := by
  induction bytes generalizing scan with
  | nil => rfl
  | cons byte bytes ih => rw [List.cons_append, blanked, ih, blanked, List.cons_append]; rfl

theorem length_blanked (scan : CommentScan) (bytes : List UInt8) :
    (scan.blanked bytes).length = bytes.length := by
  induction bytes generalizing scan with
  | nil => rfl
  | cons byte bytes ih => rw [blanked, List.length_cons, List.length_cons, ih]

theorem step_wide (scan : CommentScan) {byte : UInt8} (wide : 0x80 ≤ byte.toNat) :
    scan.covers byte = scan.inComment ∧ (scan.step byte).2.inComment = scan.inComment := by
  have other : ∀ {c : Char}, c.toNat < 0x80 → Char.ofUInt8 byte ≠ c := Text.ofUInt8_ne wide
  have quote := other (c := '"') (by decide)
  have backslash := other (c := '\\') (by decide)
  have slash := other (c := '/') (by decide)
  have asterisk := other (c := '*') (by decide)
  have newline := other (c := '\n') (by decide)
  constructor
  · cases scan <;> simp [covers, inComment, slash]
  · fun_cases step scan byte <;> first | rfl | contradiction

/-- The bytes of a character that is not ASCII are all in one comment, or in none. -/
theorem blanked_of_wide (scan : CommentScan) {bytes : List UInt8}
    (wide : ∀ byte ∈ bytes, 0x80 ≤ byte.toNat) :
    scan.blanked bytes =
      if scan.inComment then List.replicate bytes.length blank else bytes := by
  induction bytes generalizing scan with
  | nil => exact (ite_self []).symm
  | cons byte bytes ih =>
    rw [List.forall_mem_cons] at wide
    obtain ⟨covered, stays⟩ := step_wide scan wide.1
    have noBreak : byte ≠ 0x0a := by
      rintro rfl
      exact absurd wide.1 (by decide)
    rw [blanked, ih _ wide.2, stays, blankedByte, covered]
    cases scan.inComment
    · rfl
    · simp [noBreak, List.replicate_succ]

theorem exists_bytes_eq_blanked_char (scan : CommentScan) (c : Char) :
    ∃ text : List Char,
      text.flatMap String.utf8EncodeChar = scan.blanked (String.utf8EncodeChar c) := by
  by_cases ascii : c.toNat < 0x80
  · rw [Text.utf8EncodeChar_of_ascii ascii, blanked, blanked, blankedByte]
    split
    · exact ⟨[' '], rfl⟩
    · exact ⟨[c], by rw [List.flatMap_singleton, Text.utf8EncodeChar_of_ascii ascii]⟩
  · rw [blanked_of_wide scan fun byte member =>
      Text.le_of_mem_utf8EncodeChar (Nat.not_lt.mp ascii) member]
    split
    · refine ⟨List.replicate (String.utf8EncodeChar c).length ' ', ?_⟩
      have space : String.utf8EncodeChar ' ' = [blank] := rfl
      rw [List.flatMap_replicate, space, List.flatten_replicate_singleton]
    · exact ⟨[c], List.flatMap_singleton _ _⟩

/-- The blanked bytes of a text are the bytes of a text. -/
theorem exists_bytes_eq_blanked (scan : CommentScan) (text : List Char) :
    ∃ other : List Char,
      other.flatMap String.utf8EncodeChar = scan.blanked (text.flatMap String.utf8EncodeChar) := by
  induction text generalizing scan with
  | nil => exact ⟨[], rfl⟩
  | cons c text ih =>
    obtain ⟨first, isFirst⟩ := exists_bytes_eq_blanked_char scan c
    obtain ⟨rest, isRest⟩ := ih (scan.after (String.utf8EncodeChar c))
    refine ⟨first ++ rest, ?_⟩
    rw [List.flatMap_append, isFirst, isRest, List.flatMap_cons, blanked_append]

/-- Comments can be taken out, and this is left. -/
def Strips (scan : CommentScan) (bytes stripped : List UInt8) : Prop :=
  scan.run bytes = ⟨stripped.map some, true⟩

theorem strips_nil_iff {scan : CommentScan} {stripped : List UInt8} :
    scan.Strips [] stripped ↔ stripped = [] ∧ scan.mayEnd = true := by
  rw [Strips, run, Uncommented.mk.injEq, eq_comm, List.map_eq_nil_iff]

theorem strips_cons_iff {scan : CommentScan} {byte : UInt8} {rest stripped : List UInt8} :
    scan.Strips (byte :: rest) stripped ↔
      ∃ first others, stripped = first :: others ∧ (scan.step byte).1 = some first ∧
        (scan.step byte).2.Strips rest others := by
  have run_cons : scan.run (byte :: rest) = ⟨(scan.step byte).1 ::
      ((scan.step byte).2.run rest).reads, ((scan.step byte).2.run rest).whole⟩ := rfl
  rw [Strips, run_cons, Uncommented.mk.injEq]
  constructor
  · rintro ⟨reads, whole⟩
    obtain ⟨first, others, rfl, isFirst, isRest⟩ := List.map_eq_cons_iff.mp reads.symm
    refine ⟨first, others, rfl, isFirst.symm, ?_⟩
    rw [Strips, isRest, ← whole]
  · rintro ⟨first, others, rfl, isFirst, isRest⟩
    rw [isRest, isFirst]
    exact ⟨rfl, rfl⟩

theorem Strips.length_eq {scan : CommentScan} {bytes stripped : List UInt8}
    (strips : scan.Strips bytes stripped) : bytes.length = stripped.length := by
  induction bytes generalizing scan stripped with
  | nil =>
    obtain ⟨rfl, -⟩ := strips_nil_iff.mp strips
    rfl
  | cons byte rest ih =>
    obtain ⟨first, others, rfl, -, later⟩ := strips_cons_iff.mp strips
    rw [List.length_cons, List.length_cons, ih later]

/-- Where a scan stands that has met no comments. -/
def quiet : CommentScan → CommentScan
  | .string => .string
  | .escape => .escape
  | .outside | .slash | .block | .star | .line => .outside

/-- Inside a comment the blanked byte is a blank or a line break, which means nothing to a scan. -/
theorem step_blankedByte_of_inComment {scan : CommentScan} (inside : scan.inComment = true)
    (byte : UInt8) :
    outside.step (scan.blankedByte byte) = (some (scan.blankedByte byte), .outside) ∧
      (scan.step byte).2.quiet = .outside := by
  have covered : scan.covers byte = true := by
    cases scan <;> first | rfl | cases inside
  constructor
  · rw [blankedByte, covered, Bool.true_and]
    split
    · rfl
    · rename_i isBreak
      rw [bne_iff_ne, ne_eq, Decidable.not_not] at isBreak
      rw [isBreak]
      rfl
  · fun_cases step scan byte <;> first | rfl | cases inside

theorem step_blankedByte {scan : CommentScan} {byte first : UInt8}
    (isFirst : (scan.step byte).1 = some first) :
    scan.quiet.step (scan.blankedByte byte) =
      (some (scan.blankedByte byte), (scan.step byte).2.quiet) := by
  cases inside : scan.inComment with
  | true =>
    obtain ⟨blanked, next⟩ := step_blankedByte_of_inComment inside byte
    have isQuiet : scan.quiet = .outside := by
      cases scan <;> first | rfl | cases inside
    rw [isQuiet, next, blanked]
  | false =>
    by_cases covered : scan.covers byte = true
    · have opens : scan = .outside ∧ Char.ofUInt8 byte = '/' := by
        cases scan <;> simp_all [covers, inComment]
      obtain ⟨rfl, isSlash⟩ := opens
      have noBreak : byte ≠ 0x0a := by
        rintro rfl
        exact absurd isSlash (by decide)
      have next : (outside.step byte).2 = .slash := by
        simp [step, isSlash]
      have isBlank : outside.blankedByte byte = blank := by
        simp [blankedByte, covered, noBreak]
      rw [next, isBlank]
      rfl
    · rw [blankedByte, if_neg (by simp [covered])]
      fun_cases step scan byte <;> simp_all [covers, inComment, quiet, step]

/-- In a source with blanks in place of its comments nothing is taken out. -/
theorem strips_blanked {scan : CommentScan} {bytes stripped : List UInt8}
    (strips : scan.Strips bytes stripped) :
    scan.quiet.Strips (scan.blanked bytes) (scan.blanked bytes) := by
  induction bytes generalizing scan stripped with
  | nil =>
    obtain ⟨-, ends⟩ := strips_nil_iff.mp strips
    refine strips_nil_iff.mpr ⟨rfl, ?_⟩
    cases scan <;> first | rfl | cases ends
  | cons byte rest ih =>
    obtain ⟨first, others, -, isFirst, later⟩ := strips_cons_iff.mp strips
    have next : scan.quiet.step (scan.blankedByte byte) =
        (some (scan.blankedByte byte), (scan.step byte).2.quiet) := step_blankedByte isFirst
    rw [blanked]
    refine strips_cons_iff.mpr ⟨_, _, rfl, ?_, ?_⟩
    · rw [next]
    · rw [next]
      exact ih later

end CommentScan

/-- The same text with a blank for every byte of every comment, except for line breaks. -/
def blankComments (source : String) : String :=
  (Text.ofBytes? (CommentScan.outside.blanked (Text.bytes source))).getD source

theorem bytes_blankComments (source : String) :
    Text.bytes (blankComments source) = CommentScan.outside.blanked (Text.bytes source) := by
  obtain ⟨other, same⟩ := CommentScan.exists_bytes_eq_blanked .outside source.toList
  have isText : Text.bytes (String.ofList other) =
      CommentScan.outside.blanked (Text.bytes source) := by
    rw [Text.bytes, String.toList_ofList, same]
    rfl
  rw [blankComments, ← isText, Text.ofBytes?_bytes]
  rfl

end AvroIdl.Json
