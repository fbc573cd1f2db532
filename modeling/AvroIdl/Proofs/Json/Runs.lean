import AvroIdl.Json.Reader

/-
Runs over bytes that can all be read, taken apart where one piece of a text ends.
-/
set_option autoImplicit false

namespace AvroIdl.Json.Reader

/-- The reader takes all the bytes, and `after` is what it is then. -/
def Passes (r : Reader) (bytes : List UInt8) (after : Reader) : Prop :=
  bytes.foldlM step r = .ok after

variable {r after : Reader} {bytes : List UInt8}

theorem passes_nil (r : Reader) : r.Passes [] r :=
  rfl

theorem passes_cons_iff {byte : UInt8} :
    r.Passes (byte :: bytes) after ↔ ∃ next, r.step byte = .ok next ∧ next.Passes bytes after := by
  rw [Passes, List.foldlM_cons]
  cases stepped : r.step byte with
  | error cause =>
    constructor
    · rintro ⟨⟩
    · rintro ⟨_, ⟨⟩, _⟩
  | ok next =>
    constructor
    · intro passes
      exact ⟨next, rfl, passes⟩
    · rintro ⟨_, found, passes⟩
      cases found
      exact passes

theorem Passes.cons {next : Reader} {byte : UInt8} (stepped : r.step byte = .ok next)
    (passes : next.Passes bytes after) : r.Passes (byte :: bytes) after :=
  passes_cons_iff.mpr ⟨next, stepped, passes⟩

theorem Passes.single {byte : UInt8} (stepped : r.step byte = .ok after) : r.Passes [byte] after :=
  .cons stepped (passes_nil after)

theorem Passes.append {last : Reader} {rest : List UInt8} (passes : r.Passes bytes after)
    (later : after.Passes rest last) : r.Passes (bytes ++ rest) last := by
  induction bytes generalizing r with
  | nil =>
    cases passes
    exact later
  | cons byte bytes ih =>
    obtain ⟨next, stepped, passes⟩ := passes_cons_iff.mp passes
    exact .cons stepped (ih passes)

theorem passes_append_iff {last : Reader} {rest : List UInt8} (passes : r.Passes bytes after) :
    r.Passes (bytes ++ rest) last ↔ after.Passes rest last := by
  refine ⟨fun whole => ?_, passes.append⟩
  induction bytes generalizing r with
  | nil =>
    cases passes
    exact whole
  | cons byte bytes ih =>
    obtain ⟨next, stepped, passes⟩ := passes_cons_iff.mp passes
    obtain ⟨other, isOther, whole⟩ := passes_cons_iff.mp whole
    cases stepped.symm.trans isOther
    exact ih passes whole

/-- A run goes on from where the reader stands after the bytes that it takes. -/
theorem run_of_passes (whole : Bool) (p : Position) (rest : List (Option UInt8))
    (passes : r.Passes bytes after) :
    r.run whole p (bytes.map some ++ rest) = after.run whole (p.after bytes) rest := by
  induction bytes generalizing r p with
  | nil =>
    cases passes
    rfl
  | cons byte bytes ih =>
    obtain ⟨next, stepped, passes⟩ := passes_cons_iff.mp passes
    rw [List.map_cons, List.cons_append, run, stepped]
    exact ih (p.advance byte) passes

theorem run_eq_finish (p : Position) (passes : r.Passes bytes after) :
    r.run true p (bytes.map some) =
      after.finish.mapError fun cause => ⟨cause, some (p.after bytes)⟩ := by
  have ran := run_of_passes true p [] passes
  rwa [List.append_nil, run, if_pos rfl] at ran

/-- A value is read from bytes that the reader takes and may end after. -/
theorem exists_passes_of_run {p : Position} {value : Json}
    (ran : r.run true p (bytes.map some) = .ok value) :
    ∃ after, r.Passes bytes after ∧ after.finish = .ok value := by
  induction bytes generalizing r p with
  | nil =>
    refine ⟨r, passes_nil r, ?_⟩
    rw [List.map_nil, run, if_pos rfl] at ran
    cases finished : r.finish with
    | error cause =>
      rw [finished] at ran
      cases ran
    | ok value =>
      rw [finished] at ran
      cases ran
      rfl
  | cons byte rest ih =>
    rw [List.map_cons, run] at ran
    split at ran
    · rename_i next stepped
      obtain ⟨after, passes, finished⟩ := ih ran
      exact ⟨after, .cons stepped passes, finished⟩
    · cases ran

/-- Only blanks may follow a complete value. -/
theorem passes_finished {value : Json}
    (passes : Passes ⟨[], .between (.finished value)⟩ bytes after) :
    after = ⟨[], .between (.finished value)⟩ ∧ ∀ byte ∈ bytes, isBlank byte = true := by
  induction bytes with
  | nil =>
    cases passes
    exact ⟨rfl, fun _ member => absurd member List.not_mem_nil⟩
  | cons byte rest ih =>
    obtain ⟨next, stepped, passes⟩ := passes_cons_iff.mp passes
    rw [step] at stepped
    dsimp only at stepped
    rw [stepBetween] at stepped
    split at stepped
    · rename_i blank
      cases stepped
      obtain ⟨same, blanks⟩ := ih passes
      exact ⟨same, List.forall_mem_cons.mpr ⟨blank, blanks⟩⟩
    · cases stepped

end AvroIdl.Json.Reader
