import AvroIdl.Proofs.Json.BlankedPositions

/-
What is said of a fault in a source with comments, against what is said of it where the comments
are blanked.
-/
set_option autoImplicit false

namespace AvroIdl.Schema

variable {source : String} {e : Json.ReadError}

theorem load_of_read_error (failed : Json.read source = .error e) (name : String) :
    load source name = .error (.schema (SourceError.diagnostic (.json e) source name)) := by
  rw [load, ofSource, failed]
  rfl

/-- Where a fault is shown does not depend on what is blanked, if its position does not. -/
theorem span?_blankComments (e : Json.ReadError) (source : String) :
    e.span? (Text.bytes (Json.blankComments source)) = e.span? (Text.bytes source) := by
  rw [Json.ReadError.span?, Json.ReadError.span?, Json.bytes_blankComments]
  simp only [Json.CommentScan.lineStart_blanked, Json.CommentScan.length_blanked]

/-- Blanking the comments of a text that is no JSON leaves what is said of the fault as it is if no
line breaks inside a comment before the fault, and only then. -/
theorem fault_of_blankComments_iff (source name : String) (stripped : List UInt8)
    (e : Json.ReadError) (strips : Json.Strips source stripped)
    (failed : Json.read source = .error e) :
    ∃ p d d', e.position = some p ∧ load source name = .error (.schema d) ∧
      load (Json.blankComments source) name = .error (.schema d') ∧
      (d'.message = d.message ∧ d'.span = d.span ↔
        Json.CommentScan.outside.hiddenBreaks ((Text.bytes source).take p.offset) = 0) := by
  obtain ⟨n, within, isPosition, blankedFails⟩ := strips.read_blankComments failed
  rw [Json.bytes_blankComments] at blankedFails
  obtain ⟨cause, position⟩ := e
  cases isPosition
  have offset : (Json.Position.start.after (stripped.take n)).offset = n := by
    rw [Json.Position.offset_after, List.length_take, Nat.min_eq_left within]
    exact Nat.zero_add n
  refine ⟨_, _, _, rfl, load_of_read_error failed name, load_of_read_error blankedFails name, ?_⟩
  rw [offset]
  constructor
  · rintro ⟨sameMessage, -⟩
    have messages := String.append_right_inj _ |>.mp sameMessage
    have lines := Json.ReadError.line_eq_of_message_eq messages
    rw [Json.Position.line_after, Json.Position.line_after,
      Json.CommentScan.count_take_blanked strips n] at lines
    omega
  · intro unbroken
    have samePosition := Json.CommentScan.take_blanked_of_hiddenBreaks strips unbroken
    rw [samePosition]
    exact ⟨rfl, span?_blankComments ⟨cause, some (.after .start (stripped.take n))⟩ source⟩

/-- A fault on the line after a comment of two lines. -/
def brokenComment : String :=
  "/*\n*/\nx"

theorem brokenComment_fault :
    Json.Strips brokenComment [0x20, 0x20, 0x20, 0x20, 0x20, 0x0a, 0x78] ∧
      Json.read brokenComment = .error ⟨.expectedValue, some ⟨7, 2, 1⟩⟩ ∧
      ∃ p d d', some (Json.Position.mk 7 2 1) = some p ∧
        load brokenComment "a.avsc" = .error (.schema d) ∧
        load (Json.blankComments brokenComment) "a.avsc" = .error (.schema d') ∧
        (d'.message = d.message ∧ d'.span = d.span ↔
          Json.CommentScan.outside.hiddenBreaks ((Text.bytes brokenComment).take p.offset) = 0) :=
  ⟨rfl, rfl, fault_of_blankComments_iff brokenComment "a.avsc"
    [0x20, 0x20, 0x20, 0x20, 0x20, 0x0a, 0x78] ⟨.expectedValue, some ⟨7, 2, 1⟩⟩ rfl rfl⟩

/-- The line is one too small, and the place shown is inside the comment. -/
theorem brokenComment_moves_fault :
    Json.blankComments brokenComment = "  \n  \nx" ∧
      load brokenComment "a.avsc" = .error (.schema
        ⟨"invalid JSON: expected value at line 2 column 1", "a.avsc", brokenComment,
          some ⟨3, 1⟩⟩) ∧
      load "  \n  \nx" "a.avsc" = .error (.schema
        ⟨"invalid JSON: expected value at line 3 column 1", "a.avsc", "  \n  \nx",
          some ⟨6, 1⟩⟩) :=
  ⟨by decide, rfl, rfl⟩

end AvroIdl.Schema
