import AvroIdl.Conversion.Converter
import AvroIdl.Proofs.Json.Lockstep
import AvroIdl.Proofs.Text.Readable

/-
Where a fault is said to be in a source with comments: after as many bytes as in the source with
its comments blanked, and on an earlier line if a line breaks inside a comment before it.
-/
set_option autoImplicit false

namespace AvroIdl.Json

namespace CommentScan

/-- How many line breaks are taken out with the comments. -/
def hiddenBreaks : CommentScan → List UInt8 → Nat
  | _, [] => 0
  | scan, byte :: rest => (scan.hidesBreak byte).toNat + hiddenBreaks (scan.step byte).2 rest

variable {scan : CommentScan} {bytes stripped : List UInt8}

/-- These bytes are read from the source before anything else. -/
def Begins (scan : CommentScan) (bytes stripped : List UInt8) (n : Nat) : Prop :=
  (scan.run bytes).reads.take n = (stripped.take n).map some

theorem begins_nil_iff {n : Nat} : scan.Begins [] stripped n ↔ stripped.take n = [] := by
  rw [Begins, run, List.take_nil, eq_comm, List.map_eq_nil_iff]

theorem begins_cons_iff {byte : UInt8} {rest : List UInt8} {n : Nat} :
    scan.Begins (byte :: rest) stripped (n + 1) ↔
      ∃ first others, stripped = first :: others ∧ (scan.step byte).1 = some first ∧
        (scan.step byte).2.Begins rest others n := by
  have run_cons : (scan.run (byte :: rest)).reads.take (n + 1) =
      (scan.step byte).1 :: ((scan.step byte).2.run rest).reads.take n := rfl
  rw [Begins, run_cons]
  cases stripped with
  | nil => exact iff_of_false nofun (fun ⟨_, _, impossible, _⟩ => nomatch impossible)
  | cons first others =>
    rw [List.take_succ_cons, List.map_cons, List.cons.injEq]
    constructor
    · rintro ⟨isFirst, later⟩
      exact ⟨first, others, rfl, isFirst, later⟩
    · rintro ⟨_, _, ⟨⟩, isFirst, later⟩
      exact ⟨isFirst, later⟩

theorem Strips.begins (strips : scan.Strips bytes stripped) (n : Nat) :
    scan.Begins bytes stripped n := by
  rw [Begins, strips, List.map_take]

theorem Begins.mono {n m : Nat} (begins : scan.Begins bytes stripped n) (fewer : m ≤ n) :
    scan.Begins bytes stripped m := by
  have same := congrArg (List.take m) begins
  rw [List.take_take, Nat.min_eq_left fewer, ← List.map_take, List.take_take,
    Nat.min_eq_left fewer] at same
  exact same

/-- In the bytes looked at, blanking keeps the line breaks that are taken out with comments. -/
theorem Begins.count_blanked {n : Nat} (begins : scan.Begins bytes stripped n) :
    ((scan.blanked bytes).take n).count 0x0a =
      (stripped.take n).count 0x0a + scan.hiddenBreaks (bytes.take n) := by
  induction bytes generalizing scan stripped n with
  | nil =>
    rw [begins_nil_iff.mp begins, blanked, List.take_nil]
    rfl
  | cons byte rest ih =>
    cases n with
    | zero => rfl
    | succ n =>
      obtain ⟨first, others, rfl, isFirst, later⟩ := begins_cons_iff.mp begins
      rw [blanked, List.take_succ_cons, List.take_succ_cons, List.take_succ_cons, hiddenBreaks,
        List.count_cons, List.count_cons, ih later]
      rcases eq_blankedByte_or isFirst with ⟨kept, rfl⟩ | ⟨hides, rfl, isBreak⟩
      · rw [kept, Bool.toNat_false]
        omega
      · have counted : ((0x0a : UInt8) == 0x0a) = true := rfl
        have passed : ((0x20 : UInt8) == 0x0a) = false := rfl
        rw [hides, isBreak, counted, passed, Bool.toNat_true, if_pos rfl, if_neg Bool.false_ne_true]
        omega

/-- Without line breaks in comments the bytes looked at are the same. -/
theorem Begins.take_blanked {n : Nat} (begins : scan.Begins bytes stripped n)
    (none : scan.hiddenBreaks (bytes.take n) = 0) :
    (scan.blanked bytes).take n = stripped.take n := by
  induction bytes generalizing scan stripped n with
  | nil => rw [begins_nil_iff.mp begins, blanked, List.take_nil]
  | cons byte rest ih =>
    cases n with
    | zero => rfl
    | succ n =>
      obtain ⟨first, others, rfl, isFirst, later⟩ := begins_cons_iff.mp begins
      rw [List.take_succ_cons, hiddenBreaks, Nat.add_eq_zero_iff] at none
      rw [blanked, List.take_succ_cons, List.take_succ_cons, ih later none.2]
      rcases eq_blankedByte_or isFirst with ⟨-, rfl⟩ | ⟨hides, -, -⟩
      · rfl
      · rw [hides] at none
        cases none.1

theorem count_take_blanked (strips : scan.Strips bytes stripped) (n : Nat) :
    ((scan.blanked bytes).take n).count 0x0a =
      (stripped.take n).count 0x0a + scan.hiddenBreaks (bytes.take n) :=
  (strips.begins n).count_blanked

theorem take_blanked_of_hiddenBreaks (strips : scan.Strips bytes stripped) {n : Nat}
    (none : scan.hiddenBreaks (bytes.take n) = 0) :
    (scan.blanked bytes).take n = stripped.take n :=
  (strips.begins n).take_blanked none

theorem blankedByte_eq_break_iff (scan : CommentScan) (byte : UInt8) :
    scan.blankedByte byte = 0x0a ↔ byte = 0x0a := by
  rw [blankedByte]
  split
  · rename_i covered
    rw [Bool.and_eq_true, bne_iff_ne] at covered
    exact iff_of_false (by decide) covered.2
  · rfl

theorem lineStart_blanked (n : Nat) (scan : CommentScan) (bytes : List UInt8) :
    lineStart n (scan.blanked bytes) = lineStart n bytes := by
  induction bytes generalizing scan n with
  | nil => rw [blanked]
  | cons byte rest ih =>
    cases n with
    | zero => rfl
    | succ n =>
      rw [blanked, lineStart, lineStart, ih]
      simp only [blankedByte_eq_break_iff]

end CommentScan

/-- Comments can be taken out of the source, and this is left. -/
def Strips (source : String) (stripped : List UInt8) : Prop :=
  CommentScan.outside.Strips (Text.bytes source) stripped

variable {source : String} {stripped : List UInt8}

theorem Strips.read_eq (strips : Strips source stripped) :
    read source = (Reader.start.outcome stripped).mapError fun e =>
      ⟨e.1, some (Position.start.after (stripped.take e.2))⟩ := by
  have uncommented : uncomment (Text.bytes source) = ⟨stripped.map some, true⟩ := strips
  rw [read, uncommented]
  exact Reader.run_eq_outcome .start .start stripped

theorem Strips.blankComments (strips : Strips source stripped) :
    Strips (blankComments source) (Text.bytes (Json.blankComments source)) := by
  rw [Strips, bytes_blankComments]
  exact CommentScan.strips_blanked strips

/-- A fault in a source with comments is the same one, after as many bytes, in the source with its
comments blanked. -/
theorem Strips.read_blankComments (strips : Strips source stripped) {e : ReadError}
    (failed : read source = .error e) :
    ∃ n, n ≤ stripped.length ∧
      e.position = some (Position.start.after (stripped.take n)) ∧
      read (Json.blankComments source) = .error ⟨e.cause,
        some (Position.start.after ((Text.bytes (Json.blankComments source)).take n))⟩ := by
  have synced : Reader.start.Synced .outside := ⟨trivial, rfl⟩
  have same := Reader.outcome_blanked strips synced
  rw [← bytes_blankComments] at same
  rw [strips.read_eq] at failed
  rw [strips.blankComments.read_eq, same]
  cases outcome : Reader.start.outcome stripped with
  | ok value =>
    rw [outcome] at failed
    cases failed
  | error fault =>
    rw [outcome] at failed
    cases failed
    exact ⟨fault.2, Reader.le_length_of_outcome outcome, rfl, rfl⟩

/-- A message tells the line. -/
theorem ReadError.line_eq_of_message_eq {cause : Cause} {p q : Position}
    (same : message ⟨cause, some p⟩ = message ⟨cause, some q⟩) : p.line = q.line := by
  have free : ∀ n : Nat, ∀ c ∈ (toString n).toList, (c == ' ') = false := by
    intro n c member
    rw [Nat.toString_eq_repr, Nat.repr_eq_ofList_toDigits, String.toList_ofList] at member
    have digit := Nat.isDigit_of_mem_toDigits (by decide) (by decide) member
    rw [beq_eq_false_iff_ne]
    rintro rfl
    exact absurd digit (by decide)
  have chars := congrArg String.toList same
  simp only [message, String.toList_append, List.append_assoc, List.append_cancel_left_eq] at chars
  obtain ⟨lines, -⟩ := readable_until (· == ' ') (free p.line) (free q.line)
    (begins_cons.mpr rfl) (begins_cons.mpr rfl) chars
  have digits : Nat.toDigits 10 p.line = Nat.toDigits 10 q.line := by
    have spelled := congrArg String.toList lines
    simpa only [id_eq, Nat.toString_eq_repr, Nat.repr_eq_ofList_toDigits, String.toList_ofList]
      using spelled
  rw [← Nat.ofDigitChars_toDigits (b := 10) (n := p.line) (by decide) (by decide), digits,
    Nat.ofDigitChars_toDigits (by decide) (by decide)]

end AvroIdl.Json
