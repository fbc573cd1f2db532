import AvroIdl.Proofs.Json.BlankedPositions

/-
How much of a text has been looked at when the reader fails. A fault shows at the last byte looked
at, and a text that stops too early has been looked at as a whole.
-/
set_option autoImplicit false

namespace AvroIdl.Json

namespace Reader

/-- The reader fails for this cause once it has looked at so many bytes. -/
inductive FailsAfter : Reader → List (Option UInt8) → Cause → Nat → Prop
  | ended {r : Reader} {cause : Cause} (finished : r.finish = .error cause) :
      FailsAfter r [] cause 0
  | refused {r : Reader} {byte : UInt8} {rest : List (Option UInt8)} {cause : Cause}
      (stepped : r.step byte = .error cause) : FailsAfter r (some byte :: rest) cause 1
  | passed {r next : Reader} {byte : UInt8} {rest : List (Option UInt8)} {cause : Cause} {n : Nat}
      (stepped : r.step byte = .ok next) (later : FailsAfter next rest cause n) :
      FailsAfter r (some byte :: rest) cause (n + 1)

variable {r : Reader} {whole : Bool} {p : Position} {reads : List (Option UInt8)} {e : ReadError}

/-- The position of a fault that is none of reading is after the bytes looked at. -/
theorem exists_failsAfter (ran : r.run whole p reads = .error e)
    (readable : e.cause.category ≠ .unreadable) :
    ∃ taken : List UInt8, r.FailsAfter reads e.cause taken.length ∧
      reads.take taken.length = taken.map some ∧ e.position = some (p.after taken) := by
  induction reads generalizing r p with
  | nil =>
    rw [run] at ran
    split at ran
    · cases finished : r.finish with
      | ok value =>
        rw [finished] at ran
        cases ran
      | error cause =>
        rw [finished] at ran
        cases ran
        exact ⟨[], .ended finished, rfl, rfl⟩
    · cases ran
      exact absurd rfl readable
  | cons read rest ih =>
    cases read with
    | none =>
      cases ran
      exact absurd rfl readable
    | some byte =>
      rw [run] at ran
      split at ran
      · rename_i next stepped
        obtain ⟨taken, later, same, position⟩ := ih ran
        refine ⟨byte :: taken, .passed stepped later, ?_, position⟩
        rw [List.length_cons, List.take_succ_cons, same, List.map_cons]
      · rename_i cause stepped
        cases ran
        exact ⟨[byte], .refused stepped, rfl, rfl⟩

/-- A reader fails at one place. -/
theorem FailsAfter.unique {cause : Cause} {n m : Nat} (fails : r.FailsAfter reads cause n)
    (other : r.FailsAfter reads cause m) : n = m := by
  induction fails generalizing m with
  | ended =>
    cases other
    rfl
  | refused stepped =>
    cases other with
    | refused => rfl
    | passed passes =>
      rw [stepped] at passes
      cases passes
  | passed stepped _ ih =>
    cases other with
    | refused refused =>
      rw [stepped] at refused
      cases refused
    | passed passes later =>
      rw [stepped] at passes
      cases passes
      rw [ih later]

/-- Whatever is refused is malformed. -/
def Refuses {α : Type} (result : Except Cause α) : Prop :=
  ∀ cause, result = .error cause → cause.category = .malformed

variable {waiting : List Frame} {byte : UInt8}

theorem refuses_ok {α : Type} (a : α) : Refuses (.ok a) := by
  rintro cause ⟨⟩

theorem refuses_error {α : Type} {cause : Cause} (malformed : cause.category = .malformed) :
    Refuses (.error cause : Except Cause α) := by
  rintro _ ⟨⟩
  exact malformed

theorem beginValue_refuses : Refuses (beginValue waiting byte) := by
  fun_cases beginValue waiting byte <;> first | exact refuses_ok _ | exact refuses_error rfl

theorem stepBetween_refuses (place : Place) : Refuses (stepBetween waiting place byte) := by
  rw [stepBetween]
  split
  · exact refuses_ok _
  · fun_cases stepPlace waiting place byte <;>
      first | exact beginValue_refuses | exact refuses_ok _ | exact refuses_error rfl

theorem stepNumber_refuses (part : NumberPart) (text : List Char) :
    Refuses (stepNumber waiting part text byte) := by
  have ends : Refuses (endNumber waiting text byte) := stepBetween_refuses _
  fun_cases stepNumber waiting part text byte <;>
    first | exact ends | exact refuses_ok _ | exact refuses_error rfl

theorem stepString_refuses (part : StringPart) (bytes : List UInt8) :
    Refuses (stepString part bytes byte) := by
  fun_cases stepString part bytes byte with
  | case16 high digits _ unit =>
    fun_cases endHex high unit bytes <;> first | exact refuses_ok _ | exact refuses_error rfl
  | _ => first | exact refuses_ok _ | exact refuses_error rfl

theorem closeString_refuses {α : Type} (bytes : List UInt8) (next : String → α) :
    Refuses ((closeString bytes).map next) := by
  rw [closeString]
  split
  · exact refuses_ok _
  · exact refuses_error rfl

/-- No byte is refused for being the end of the text. -/
theorem step_refuses (r : Reader) (byte : UInt8) : Refuses (r.step byte) := by
  obtain ⟨waiting, mode⟩ := r
  rw [step]
  cases mode with
  | between place => exact stepBetween_refuses place
  | number part text => exact stepNumber_refuses part text
  | literal next rest value =>
    dsimp only
    split
    · exact refuses_error rfl
    · split <;> exact refuses_ok _
  | string part bytes | key members part bytes =>
    dsimp only
    split
    · rename_i cause refused
      exact refuses_error (stepString_refuses part bytes cause refused)
    · exact refuses_ok _
    · exact closeString_refuses _ _

/-- A text that stops too early has been looked at as a whole. -/
theorem FailsAfter.all {cause : Cause} {n : Nat} (fails : r.FailsAfter reads cause n)
    (ended : cause.category = .ended) : n = reads.length := by
  induction fails with
  | ended => rfl
  | @refused r byte _ cause stepped =>
    rw [step_refuses r byte cause stepped] at ended
    cases ended
  | passed _ _ ih => rw [List.length_cons, ih ended]

end Reader

end AvroIdl.Json
