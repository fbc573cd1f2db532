import AvroIdl.Conversion.Converter
import AvroIdl.Proofs.Json.Faults
import AvroIdl.Proofs.Json.Lines

/-
Which byte of a source a fault is shown at. The byte is found again from its line and column, so
the line breaks that are taken out with comments are left out of the count.
-/
set_option autoImplicit false

namespace AvroIdl.Json

namespace CommentScan

theorem count_break_blanked (scan : CommentScan) (bytes : List UInt8) (n : Nat) :
    ((scan.blanked bytes).take n).count 0x0a = (bytes.take n).count 0x0a := by
  induction bytes generalizing scan n with
  | nil => rw [blanked]
  | cons byte rest ih =>
    cases n with
    | zero => rfl
    | succ n =>
      rw [blanked, List.take_succ_cons, List.take_succ_cons, count_break_cons, count_break_cons, ih]
      simp only [blankedByte_eq_break_iff]

theorem Begins.count_break {scan : CommentScan} {bytes stripped : List UInt8} {n : Nat}
    (begins : scan.Begins bytes stripped n) :
    (bytes.take n).count 0x0a =
      (stripped.take n).count 0x0a + scan.hiddenBreaks (bytes.take n) := by
  rw [← count_break_blanked scan, begins.count_blanked]

theorem getElem?_blanked_eq_break_iff (scan : CommentScan) (bytes : List UInt8) (i : Nat) :
    (scan.blanked bytes)[i]? = some 0x0a ↔ bytes[i]? = some 0x0a := by
  induction bytes generalizing scan i with
  | nil => rw [blanked]
  | cons byte rest ih =>
    cases i with
    | zero =>
      rw [blanked, List.getElem?_cons_zero, List.getElem?_cons_zero, Option.some_inj,
        Option.some_inj, blankedByte_eq_break_iff]
    | succ i => rw [blanked, List.getElem?_cons_succ, List.getElem?_cons_succ, ih]

theorem length_reads (scan : CommentScan) (bytes : List UInt8) :
    (scan.run bytes).reads.length = bytes.length := by
  induction bytes generalizing scan with
  | nil => rfl
  | cons byte rest ih => rw [run, List.length_cons, List.length_cons, ih]

theorem hiddenBreaks_take_le (scan : CommentScan) (bytes : List UInt8) (n : Nat) :
    scan.hiddenBreaks (bytes.take n) ≤ scan.hiddenBreaks bytes := by
  induction bytes generalizing scan n with
  | nil => rw [List.take_nil]
  | cons byte rest ih =>
    cases n with
    | zero => exact Nat.zero_le _
    | succ n =>
      rw [List.take_succ_cons, hiddenBreaks, hiddenBreaks]
      exact Nat.add_le_add_left (ih _ n) _

end CommentScan

/-- The last of so many bytes, or the place after them if it is a line break. -/
def lastShown (bytes : List UInt8) (n : Nat) : Nat :=
  if 0 < n ∧ bytes[n - 1]? ≠ some 0x0a then n - 1 else n

theorem lastShown_le (bytes : List UInt8) (n : Nat) : lastShown bytes n ≤ n := by
  rw [lastShown]
  split <;> omega

theorem lastShown_blanked (scan : CommentScan) (bytes : List UInt8) (n : Nat) :
    lastShown (scan.blanked bytes) n = lastShown bytes n := by
  rw [lastShown, lastShown]
  simp only [ne_eq, scan.getElem?_blanked_eq_break_iff bytes (n - 1)]

/-- The byte shown is on the line of the place after it. -/
theorem count_take_lastShown (bytes : List UInt8) (n : Nat) :
    (bytes.take (lastShown bytes n)).count 0x0a = (bytes.take n).count 0x0a := by
  rw [lastShown]
  split
  · rename_i seen
    obtain ⟨m, rfl⟩ := Nat.exists_eq_succ_of_ne_zero seen.1.ne'
    rw [Nat.succ_eq_add_one, Nat.add_sub_cancel] at seen ⊢
    have passed : bytes[m]?.toList.count 0x0a = 0 :=
      List.count_eq_zero_of_not_mem fun member => seen.2 (Option.mem_toList.mp member)
    rw [List.take_add_one, List.count_append, passed, Nat.add_zero]
  · rfl

variable {bytes : List UInt8} {n : Nat}

theorem line_start_after (taken : List UInt8) :
    (Position.start.after taken).line = taken.count 0x0a + 1 := by
  rw [Position.line_after, Nat.add_comm]
  rfl

/-- The column is 0 before the first byte and after a line break. -/
theorem column_start_pos_iff (within : n ≤ bytes.length) :
    0 < (Position.start.after (bytes.take n)).column ↔ 0 < n ∧ bytes[n - 1]? ≠ some 0x0a := by
  rw [Nat.pos_iff_ne_zero, ne_eq, column_eq_zero_iff, List.getLast?_take]
  split
  · rename_i noBytes
    rw [noBytes]
    exact iff_of_false (not_not_intro nofun) (fun both => nomatch both.1)
  · rename_i someBytes
    have isLast : n - 1 < bytes.length := by omega
    rw [List.getElem?_eq_getElem isLast, Option.some_or]
    simp only [Option.mem_some_iff, forall_eq', ne_eq, Option.some_inj,
      Nat.pos_of_ne_zero someBytes, true_and]

/-- The line begins as many bytes before the place as the column says. -/
theorem lineStart_add_column_start (within : n ≤ bytes.length) :
    lineStart ((bytes.take n).count 0x0a) bytes + (Position.start.after (bytes.take n)).column =
      n := by
  have counted := lineStart_add_column .start (bytes.take n) (bytes.drop n)
  have noColumn : (if (bytes.take n).count 0x0a = 0 then Position.start.column else 0) = 0 :=
    ite_self 0
  rw [List.take_append_drop, noColumn, List.length_take, Nat.min_eq_left within] at counted
  exact counted

/-- A fault is shown at the last byte looked at, or after it if it is a line break, where nothing
hides a line break. -/
theorem span?_after (cause : Cause) (within : n ≤ bytes.length) :
    ReadError.span? ⟨cause, some (Position.start.after (bytes.take n))⟩ bytes =
      some ⟨lastShown bytes n, if lastShown bytes n < bytes.length then 1 else 0⟩ := by
  have line : (Position.start.after (bytes.take n)).line - 1 = (bytes.take n).count 0x0a := by
    rw [line_start_after, Nat.add_sub_cancel]
  have counted := lineStart_add_column_start within
  have offset : min (lineStart ((bytes.take n).count 0x0a) bytes +
      ((Position.start.after (bytes.take n)).column - 1)) bytes.length = lastShown bytes n := by
    rw [lastShown]
    split
    · rename_i seen
      have column := (column_start_pos_iff within).mpr seen
      omega
    · rename_i atStart
      have column := mt (column_start_pos_iff within).mp atStart
      omega
  rw [ReadError.span?, Option.map_some, line]
  dsimp only
  rw [offset]

theorem span?_blanked (scan : CommentScan) (e : ReadError) (bytes : List UInt8) :
    e.span? (scan.blanked bytes) = e.span? bytes := by
  rw [ReadError.span?, ReadError.span?]
  simp only [CommentScan.lineStart_blanked, CommentScan.length_blanked]

variable {source : String} {e : ReadError}

/-- What was looked at of a source before a fault, with blanks in place of its comments. -/
theorem exists_taken (failed : read source = .error e)
    (readable : e.cause.category ≠ .unreadable) :
    ∃ taken : List UInt8,
      Reader.start.FailsAfter (uncomment (Text.bytes source)).reads e.cause taken.length ∧
      CommentScan.outside.Begins (Text.bytes source) taken taken.length ∧
      taken.length ≤ (Text.bytes source).length ∧
      e.position = some (Position.start.after taken) := by
  obtain ⟨taken, fails, same, position⟩ := Reader.exists_failsAfter failed readable
  have begins : CommentScan.outside.Begins (Text.bytes source) taken taken.length := by
    rw [CommentScan.Begins, List.take_length]
    exact same
  refine ⟨taken, fails, begins, ?_, position⟩
  have lengths := congrArg List.length same
  rw [List.length_take, List.length_map, uncomment, CommentScan.length_reads] at lengths
  omega

/-- Blanking keeps where a fault is shown if no comment before it hides a line break. -/
theorem span?_of_begins {taken : List UInt8}
    (begins : CommentScan.outside.Begins bytes taken taken.length)
    (within : taken.length ≤ bytes.length)
    (unbroken : CommentScan.outside.hiddenBreaks (bytes.take taken.length) = 0)
    (position : e.position = some (Position.start.after taken)) :
    e.span? bytes = some ⟨lastShown bytes taken.length,
      if lastShown bytes taken.length < bytes.length then 1 else 0⟩ := by
  have blanked := begins.take_blanked unbroken
  have inBlanked : taken.length ≤ (CommentScan.outside.blanked bytes).length :=
    within.trans_eq (CommentScan.length_blanked _ _).symm
  have spanned := span?_after e.cause inBlanked
  rw [blanked, List.take_length, ← position, span?_blanked, lastShown_blanked,
    CommentScan.length_blanked] at spanned
  exact spanned

/-- A fault in a source without line breaks in its comments is shown at the last byte that was
looked at, or after it if it is a line break, and on the line that its message tells. -/
theorem label_of_fault (source : String) (e : ReadError) (failed : read source = .error e)
    (kind : e.cause.category = .malformed ∨ e.cause.category = .ended)
    (unbroken : CommentScan.outside.hiddenBreaks (Text.bytes source) = 0) :
    ∃ n p label,
      (∀ m, Reader.start.FailsAfter (uncomment (Text.bytes source)).reads e.cause m ↔ m = n) ∧
      e.position = some p ∧ e.span? (Text.bytes source) = some label ∧
      label.offset =
        (if 0 < n ∧ (Text.bytes source)[n - 1]? ≠ some 0x0a then n - 1 else n) ∧
      label.offset ≤ (Text.bytes source).length ∧
      label.length = (if label.offset < (Text.bytes source).length then 1 else 0) ∧
      p.line = ((Text.bytes source).take label.offset).count 0x0a + 1 := by
  have readable : e.cause.category ≠ .unreadable := by
    rcases kind with kind | kind <;> rw [kind] <;> nofun
  obtain ⟨taken, fails, begins, within, position⟩ := exists_taken failed readable
  have unbrokenBefore := Nat.le_zero.mp
    (unbroken ▸ CommentScan.outside.hiddenBreaks_take_le (Text.bytes source) taken.length)
  refine ⟨taken.length, _, _, fun m => ?_, position,
    span?_of_begins begins within unbrokenBefore position, rfl, (lastShown_le _ _).trans within,
    rfl, ?_⟩
  · constructor
    · intro other
      exact other.unique fails
    · rintro rfl
      exact fails
  · rw [line_start_after, count_take_lastShown, begins.count_break, unbrokenBefore,
      List.take_length]

/-- A missing value after a line with characters of two bytes, and a comment. -/
def missingValue : String :=
  "// é\n[\"é\",\n ]"

theorem missingValue_label :
    read missingValue = .error ⟨.trailingComma, some ⟨15, 3, 2⟩⟩ ∧
      ∃ n p label,
        (∀ m, Reader.start.FailsAfter (uncomment (Text.bytes missingValue)).reads
          .trailingComma m ↔ m = n) ∧
        some (Position.mk 15 3 2) = some p ∧
        ReadError.span? ⟨.trailingComma, some ⟨15, 3, 2⟩⟩ (Text.bytes missingValue) =
          some label ∧
        label.offset =
          (if 0 < n ∧ (Text.bytes missingValue)[n - 1]? ≠ some 0x0a then n - 1 else n) ∧
        label.offset ≤ (Text.bytes missingValue).length ∧
        label.length = (if label.offset < (Text.bytes missingValue).length then 1 else 0) ∧
        p.line = ((Text.bytes missingValue).take label.offset).count 0x0a + 1 :=
  ⟨rfl, label_of_fault missingValue ⟨.trailingComma, some ⟨15, 3, 2⟩⟩ rfl (.inl rfl) rfl⟩

theorem lastShown_length_eq_iff (bytes : List UInt8) :
    lastShown bytes bytes.length = bytes.length ↔ ∀ byte ∈ bytes.getLast?, byte = 0x0a := by
  rw [lastShown, ← List.getLast?_eq_getElem?]
  cases isLast : bytes.getLast? with
  | none =>
    rw [List.getLast?_eq_none_iff.mp isLast]
    exact iff_of_true rfl nofun
  | some byte =>
    have someBytes := List.length_pos_of_mem (List.mem_of_getLast? isLast)
    simp only [Option.mem_some_iff, forall_eq', ne_eq, Option.some_inj]
    split
    · rename_i other
      exact iff_of_false (by omega) other.2
    · rename_i same
      exact iff_of_true rfl (not_not.mp fun other => same ⟨someBytes, other⟩)

/-- Hidden line breaks let a line begin earlier than where it was thought to. -/
theorem lineStart_le_of_begins {taken : List UInt8}
    (begins : CommentScan.outside.Begins bytes taken taken.length) :
    lineStart (taken.count 0x0a) bytes + (Position.start.after taken).column ≤ taken.length := by
  have counted := lineStart_add_column_start (Nat.le_refl taken.length)
  rw [List.take_length] at counted
  have within : lineStart (taken.count 0x0a) taken ≤ taken.length := by omega
  have earlier : lineStart (taken.count 0x0a) (CommentScan.outside.blanked bytes) ≤
      lineStart (taken.count 0x0a) taken := by
    apply lineStart_le
    rw [(begins.mono within).count_blanked, count_take_lineStart (Nat.le_refl _)]
    exact Nat.le_add_right _ _
  rw [CommentScan.lineStart_blanked] at earlier
  omega

/-- A line break that a comment hides keeps the place shown from the end of the text. -/
theorem span?_ne_end {taken : List UInt8}
    (begins : CommentScan.outside.Begins bytes taken taken.length)
    (whole : taken.length = bytes.length)
    (broken : CommentScan.outside.hiddenBreaks bytes ≠ 0)
    (position : e.position = some (Position.start.after taken)) :
    e.span? bytes ≠ some ⟨bytes.length, 0⟩ := by
  intro atEnd
  have breaks := begins.count_break
  rw [List.take_length, whole, List.take_length] at breaks
  have before : lineStart (taken.count 0x0a) bytes < bytes.length :=
    lineStart_lt_length (by omega)
  have earlier := lineStart_le_of_begins begins
  rw [ReadError.span?, position, Option.map_some, Option.some_inj, Span.mk.injEq, line_start_after,
    Nat.add_sub_cancel] at atEnd
  omega

/-- A text that stops too early is shown to do so after its last byte if that is a line break and
no comment hides one, and only then. -/
theorem label_of_ended_iff (source : String) (e : ReadError) (failed : read source = .error e)
    (ended : e.cause.category = .ended) :
    e.span? (Text.bytes source) = some ⟨(Text.bytes source).length, 0⟩ ↔
      (∀ byte ∈ (Text.bytes source).getLast?, byte = 0x0a) ∧
        CommentScan.outside.hiddenBreaks (Text.bytes source) = 0 := by
  have readable : e.cause.category ≠ .unreadable := by
    rw [ended]
    nofun
  obtain ⟨taken, fails, begins, within, position⟩ := exists_taken failed readable
  have whole : taken.length = (Text.bytes source).length := by
    rw [fails.all ended, uncomment, CommentScan.length_reads]
  by_cases unbroken : CommentScan.outside.hiddenBreaks (Text.bytes source) = 0
  · have unbrokenBefore := unbroken
    rw [← List.take_length (l := Text.bytes source), ← whole] at unbrokenBefore
    rw [span?_of_begins begins within unbrokenBefore position, whole,
      ← lastShown_length_eq_iff, Option.some_inj, Span.mk.injEq]
    constructor
    · rintro ⟨atEnd, -⟩
      exact ⟨atEnd, unbroken⟩
    · rintro ⟨atEnd, -⟩
      rw [atEnd]
      exact ⟨rfl, if_neg (Nat.lt_irrefl _)⟩
  · exact iff_of_false (span?_ne_end begins whole unbroken position) (fun both => unbroken both.2)

/-- A list that stops after a line break. -/
def openList : String :=
  "[1,\n"

theorem openList_label :
    read openList = .error ⟨.endInValue, some ⟨4, 2, 0⟩⟩ ∧
      (ReadError.span? ⟨.endInValue, some ⟨4, 2, 0⟩⟩ (Text.bytes openList) =
          some ⟨(Text.bytes openList).length, 0⟩ ↔
        (∀ byte ∈ (Text.bytes openList).getLast?, byte = 0x0a) ∧
          CommentScan.outside.hiddenBreaks (Text.bytes openList) = 0) :=
  ⟨rfl, label_of_ended_iff openList ⟨.endInValue, some ⟨4, 2, 0⟩⟩ rfl rfl⟩

/-- An object that stops after its first byte is said to do so at that byte, not after it. -/
theorem openObject_label_not_at_end :
    read "\x7b" = .error ⟨.endInObject, some ⟨1, 1, 1⟩⟩ ∧
      Cause.category .endInObject = .ended ∧
      ReadError.span? ⟨.endInObject, some ⟨1, 1, 1⟩⟩ (Text.bytes "\x7b") = some ⟨0, 1⟩ ∧
      (Text.bytes "\x7b").length = 1 :=
  ⟨rfl, rfl, rfl, rfl⟩

end AvroIdl.Json
