import AvroIdl.Json.Position

/-
Lines and columns against bytes: where the line begins that a position is on, and how many lines
end before it.
-/
set_option autoImplicit false

namespace AvroIdl.Json

theorem count_break_cons (byte : UInt8) (rest : List UInt8) :
    (byte :: rest).count 0x0a = rest.count 0x0a + if byte = 0x0a then 1 else 0 := by
  simp only [List.count_cons, beq_iff_eq]

/-- The column counts the bytes from the start of the line. -/
theorem lineStart_add_column (p : Position) (taken rest : List UInt8) :
    lineStart (taken.count 0x0a) (taken ++ rest) + (p.after taken).column =
      taken.length + if taken.count 0x0a = 0 then p.column else 0 := by
  induction taken generalizing p with
  | nil =>
    rw [List.count_nil, lineStart, List.length_nil, if_pos rfl]
    rfl
  | cons byte taken ih =>
    have goesOn : p.after (byte :: taken) = (p.advance byte).after taken := rfl
    have later := ih (p.advance byte)
    rw [goesOn, List.cons_append, count_break_cons, List.length_cons]
    rw [Position.advance] at later ⊢
    split
    · rename_i isBreak
      rw [if_pos isBreak] at later
      simp only [ite_self] at later
      rw [lineStart, if_pos isBreak, if_neg (Nat.succ_ne_zero _)]
      omega
    · rename_i noBreak
      rw [if_neg noBreak] at later
      dsimp only at later
      rw [Nat.add_zero]
      cases breaks : taken.count 0x0a with
      | zero =>
        rw [breaks, lineStart, if_pos rfl] at later
        rw [lineStart, if_pos rfl]
        omega
      | succ n =>
        rw [breaks, if_neg (Nat.succ_ne_zero n)] at later
        rw [lineStart, if_neg noBreak, if_neg (Nat.succ_ne_zero n)]
        omega

/-- The column is 0 at the start of a text and after a line break, and only there. -/
theorem column_eq_zero_iff (bytes : List UInt8) :
    (Position.start.after bytes).column = 0 ↔ ∀ byte ∈ bytes.getLast?, byte = 0x0a := by
  rcases List.eq_nil_or_concat bytes with rfl | ⟨before, last, rfl⟩
  · exact iff_of_true rfl (fun _ impossible => nomatch impossible)
  · have lastStep : (Position.start.after before).after [last] =
        (Position.start.after before).advance last := rfl
    rw [List.concat_eq_append, Position.after_append, List.getLast?_concat, lastStep,
      Position.advance]
    by_cases isBreak : last = 0x0a
    · rw [if_pos isBreak]
      exact iff_of_true rfl (by rintro _ ⟨⟩; exact isBreak)
    · rw [if_neg isBreak]
      exact iff_of_false (Nat.succ_ne_zero _) (fun all => isBreak (all last rfl))

/-- As many line breaks stand before a line as its number says. -/
theorem count_take_lineStart {n : Nat} {bytes : List UInt8} (enough : n ≤ bytes.count 0x0a) :
    (bytes.take (lineStart n bytes)).count 0x0a = n := by
  induction bytes generalizing n with
  | nil =>
    rw [List.count_nil, Nat.le_zero] at enough
    rw [enough, List.take_nil, List.count_nil]
  | cons byte rest ih =>
    cases n with
    | zero => rfl
    | succ n =>
      rw [count_break_cons] at enough
      rw [lineStart, Nat.add_comm, List.take_succ_cons, count_break_cons]
      split
      · rename_i isBreak
        rw [if_pos isBreak] at enough
        rw [ih (Nat.le_of_succ_le_succ enough)]
      · rename_i noBreak
        rw [if_neg noBreak] at enough
        rw [ih enough]

/-- A line begins no later than any place with as many line breaks before it. -/
theorem lineStart_le {n m : Nat} {bytes : List UInt8} (enough : n ≤ (bytes.take m).count 0x0a) :
    lineStart n bytes ≤ m := by
  induction bytes generalizing n m with
  | nil =>
    rw [List.take_nil, List.count_nil, Nat.le_zero] at enough
    rw [enough]
    exact Nat.zero_le m
  | cons byte rest ih =>
    cases n with
    | zero => exact Nat.zero_le m
    | succ n =>
      cases m with
      | zero => cases enough
      | succ m =>
        rw [List.take_succ_cons, count_break_cons] at enough
        rw [lineStart, Nat.add_comm]
        refine Nat.succ_le_succ (ih ?_)
        split
        · rename_i isBreak
          rw [if_pos isBreak] at enough
          exact Nat.le_of_succ_le_succ enough
        · rename_i noBreak
          rw [if_neg noBreak] at enough
          exact enough

/-- A line before the last one begins before the end of the text. -/
theorem lineStart_lt_length {n : Nat} {bytes : List UInt8} (before : n < bytes.count 0x0a) :
    lineStart n bytes < bytes.length := by
  refine Nat.lt_of_not_le fun atEnd => ?_
  have counted := count_take_lineStart (Nat.le_of_lt before)
  rw [List.take_of_length_le atEnd] at counted
  omega

end AvroIdl.Json
