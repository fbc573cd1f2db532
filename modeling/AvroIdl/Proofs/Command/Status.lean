import AvroIdl.Proofs.Command.Ending
import AvroIdl.Proofs.Conversion.Policies

/-
The exit status of a run. Every failure has its own class of status, but lines for people that
standard output does not take break a run off outside of all classes.
-/
set_option autoImplicit false

namespace AvroIdl.Command

theorem exitStatus_mem (f : Failure) : f.exitStatus ∈ [2, 3, 4, 5, 6] := by
  cases f <;> simp [Failure.exitStatus]

theorem Reading.exitStatus_of_addValue {r : Reading} {bytes : List UInt8} {f : Failure}
    (refused : r.addValue bytes = .error f) : f.exitStatus = 2 := by
  rw [addValue] at refused
  split at refused
  · cases refused
  · cases refused
    rfl

theorem Reading.exitStatus_of_finish {r : Reading} {f : Failure} (refused : r.finish = .error f) :
    f.exitStatus = 2 := by
  rw [finish] at refused
  split at refused
  · cases refused
  · cases refused
    rfl

theorem exitStatus_of_readValues {r : Reading} {arguments : List (List UInt8)} {f : Failure}
    (refused : readValues r arguments = .error f) : f.exitStatus = 2 := by
  induction arguments generalizing r with
  | nil => exact Reading.exitStatus_of_finish refused
  | cons bytes rest ih =>
    rw [readValues] at refused
    cases added : r.addValue bytes with
    | ok next =>
      rw [added] at refused
      exact ih refused
    | error e =>
      rw [added] at refused
      cases refused
      exact Reading.exitStatus_of_addValue added

/-- Whatever is wrong with the arguments is an error of usage. -/
theorem exitStatus_of_readArguments {r : Reading} {arguments : List (List UInt8)} {f : Failure}
    (refused : readArguments r arguments = .error f) : f.exitStatus = 2 := by
  induction arguments generalizing r with
  | nil => exact Reading.exitStatus_of_finish refused
  | cons bytes rest ih =>
    rw [readArguments] at refused
    split at refused
    · exact exitStatus_of_readValues refused
    · split at refused
      · exact ih refused
      · rename_i e added
        cases refused
        exact Reading.exitStatus_of_addValue added
    · cases refused
    · cases refused
    · cases refused
      rfl
    · cases refused
    · cases refused
    · exact ih refused
    · cases refused
      rfl
    · cases refused
      rfl

theorem OutputState.exists_fault {state : OutputState} (broken : state ≠ .working) :
    ∃ e, state.fault? = some e := by
  cases state with
  | working => exact absurd rfl broken
  | full | closed => exact ⟨_, rfl⟩

namespace World

/-- The failure of a run. A protocol that fits nowhere is one, and a protocol that nobody reads
is none. -/
def Fails (w : World) (arguments : List (List UInt8)) (f : Failure) : Prop :=
  w.Decides arguments (.failure f) ∨
    ((∃ protocol, w.Decides arguments (.stream protocol)) ∧ w.output = .full ∧
      f = .unwritable "<stdout>" .deviceFull)

/-- The run prints lines for people: the help, the version, or where it has written a protocol. -/
def Announces (w : World) (arguments : List (List UInt8)) : Prop :=
  (∃ text, w.Decides arguments (.lines text)) ∨
    ∃ location protocol line, w.Decides arguments (.file location protocol line)

/-- What each class of failures is about. No text that loads has names in conflict, so the last
class stays empty. -/
inductive FailsInClass (w : World) (arguments : List (List UInt8)) : Nat → Prop
  | usage {f : Failure} (refused : Request.ofArguments arguments = .error f) :
      FailsInClass w arguments 2
  | input {a : Arguments} (request : Request.ofArguments arguments = .ok (.convert a))
      (missing : w.source? a.input = none) : FailsInClass w arguments 3
  | schema {a : Arguments} {source : String} {f : Failure}
      (request : Request.ofArguments arguments = .ok (.convert a))
      (given : w.source? a.input = some source)
      (refused : Schema.load source a.sourceName = .error f) : FailsInClass w arguments 4
  | output {a : Arguments} {source : String} {s : Schema}
      (request : Request.ofArguments arguments = .ok (.convert a))
      (given : w.source? a.input = some source)
      (loaded : Schema.load source a.sourceName = .ok s) : FailsInClass w arguments 5

variable {w : World} {arguments : List (List UInt8)}

/-- What a status is, by what the run decides on. -/
def statusOf (state : OutputState) : Ending → Nat
  | .failure f => f.exitStatus
  | .stream _ => if state = .full then 5 else 0
  | .lines _ | .file _ _ _ => if state = .working then 0 else brokenOffStatus

theorem status_finish (w : World) (log : String) (e : Ending) :
    (w.finish log e).status = statusOf w.output e := by
  cases e with
  | failure f => rfl
  | lines text =>
    rw [finish, print, statusOf]
    cases w.output <;> rfl
  | stream protocol =>
    rw [finish, writeOutput, statusOf]
    cases w.output <;> rfl
  | file location protocol line =>
    rw [finish, print, statusOf]
    dsimp only
    cases w.output <;> rfl

theorem status_of_decides {e : Ending} (decides : w.Decides arguments e) :
    (w.run arguments).status = statusOf w.output e := by
  obtain ⟨log, run⟩ := exists_run_eq w arguments
  rw [run, status_finish, (w.decides_iff arguments e).mp decides]

theorem exists_decides (w : World) (arguments : List (List UInt8)) :
    ∃ e, w.Decides arguments e :=
  ⟨_, (w.decides_iff arguments _).mpr rfl⟩

theorem Decides.unique {e e' : Ending} (decides : w.Decides arguments e)
    (decides' : w.Decides arguments e') : e = e' := by
  rw [decides_iff] at decides decides'
  rw [← decides, decides']

theorem status_of_fails {f : Failure} (fails : w.Fails arguments f) :
    (w.run arguments).status = f.exitStatus := by
  rcases fails with decides | ⟨⟨protocol, decides⟩, full, rfl⟩
  · exact status_of_decides decides
  · rw [status_of_decides decides, statusOf, if_pos full]
    rfl

theorem not_fails_of_announces (announces : w.Announces arguments) (f : Failure) :
    ¬ w.Fails arguments f := by
  rintro (decides | ⟨⟨protocol, decides⟩, -⟩) <;>
    rcases announces with ⟨text, other⟩ | ⟨location, written, line, other⟩ <;>
    cases decides.unique other

/-- A text that is read fails to convert only as a schema. -/
theorem exitStatus_of_convert {c : Converter} {source name : String} {f : Failure}
    (failed : c.convert source name = .error f) :
    f.exitStatus = 4 ∧ ∃ e, Schema.load source name = .error e := by
  rw [Converter.convert_of_load] at failed
  cases loaded : Schema.load source name with
  | ok s =>
    rw [loaded] at failed
    cases failed
  | error e =>
    rw [loaded] at failed
    cases failed
    refine ⟨?_, f, rfl⟩
    rw [Schema.load] at loaded
    cases read : (Schema.ofSource source).1 with
    | ok s =>
      rw [read] at loaded
      cases loaded
    | error e =>
      rw [read] at loaded
      cases loaded
      rfl

theorem exists_load_of_conversion {a : Arguments} {protocol : String}
    (converted : w.conversion a = .ok protocol) :
    ∃ source, w.source? a.input = some source ∧
      ∃ s, Schema.load source a.sourceName = .ok s := by
  obtain ⟨source, given, converts⟩ := (conversion_eq_ok_iff protocol).mp converted
  refine ⟨source, given, ?_⟩
  rw [Converter.convert_of_load] at converts
  cases loaded : Schema.load source a.sourceName with
  | ok s => exact ⟨s, rfl⟩
  | error e =>
    rw [loaded] at converts
    cases converts

/-- Every failure is in the class of its status. -/
theorem failsInClass_of_fails {f : Failure} (fails : w.Fails arguments f) :
    w.FailsInClass arguments f.exitStatus := by
  rcases fails with decides | ⟨⟨protocol, decides⟩, -, rfl⟩
  · cases decides with
    | refused request =>
      rw [exitStatus_of_readArguments request]
      exact .usage request
    | @unconverted a _ request failed =>
      cases given : w.source? a.input with
      | none =>
        obtain ⟨e, other, status⟩ := conversion_of_no_source given
        cases other.symm.trans failed
        rw [status]
        exact .input request given
      | some source =>
        rw [conversion_of_source given] at failed
        obtain ⟨status, e, refused⟩ := exitStatus_of_convert failed
        rw [status]
        exact .schema request given refused
    | unwritable request converted =>
      obtain ⟨source, given, s, loaded⟩ := exists_load_of_conversion converted
      exact .output request given loaded
  · cases decides with
    | stream request converted =>
      obtain ⟨source, given, s, loaded⟩ := exists_load_of_conversion converted
      exact .output request given loaded

/-- Nothing that the run was about to print is printed, and the runtime reports, after the log, what
the system says of it. -/
theorem report_of_announces (announces : w.Announces arguments) (broken : w.output ≠ .working) :
    (w.run arguments).output = "" ∧ ∃ e log, w.output.fault? = some e ∧
      (w.run arguments).errors = log ++ w.runtime.report (printFault e) := by
  obtain ⟨e, fault⟩ := OutputState.exists_fault broken
  obtain ⟨log, run⟩ := exists_run_eq w arguments
  rw [run]
  rcases announces with ⟨text, decides⟩ | ⟨location, protocol, line, decides⟩
  · rw [(w.decides_iff arguments _).mp decides, finish, print, fault]
    exact ⟨rfl, e, log, rfl, rfl⟩
  · rw [(w.decides_iff arguments _).mp decides, finish, print, fault]
    exact ⟨rfl, e, log, rfl, rfl⟩

theorem status_of_announces (announces : w.Announces arguments) :
    (w.run arguments).status = if w.output = .working then 0 else brokenOffStatus := by
  rcases announces with ⟨text, decides⟩ | ⟨location, protocol, line, decides⟩ <;>
    exact status_of_decides decides

/-- A run that breaks off ends outside of all classes. -/
theorem unclassified_of_announces (announces : w.Announces arguments)
    (broken : w.output ≠ .working) :
    ¬ ((w.run arguments).status = 0 ∨
      ∃ f, w.Fails arguments f ∧ (w.run arguments).status = f.exitStatus) := by
  intro classified
  rw [status_of_announces announces, if_neg broken] at classified
  rcases classified with zero | ⟨f, fails, -⟩
  · exact absurd zero (by decide)
  · exact not_fails_of_announces announces f fails

theorem classified_of_not_announces (quiet : ¬ w.Announces arguments) :
    (w.run arguments).status = 0 ∨
      ∃ f, w.Fails arguments f ∧ (w.run arguments).status = f.exitStatus := by
  obtain ⟨e, decides⟩ := exists_decides w arguments
  cases e with
  | failure f => exact .inr ⟨f, .inl decides, status_of_decides decides⟩
  | stream protocol =>
    by_cases full : w.output = .full
    · have fails : w.Fails arguments (.unwritable "<stdout>" .deviceFull) :=
        .inr ⟨⟨protocol, decides⟩, full, rfl⟩
      exact .inr ⟨_, fails, status_of_fails fails⟩
    · left
      rw [status_of_decides decides, statusOf, if_neg full]
  | lines text => exact absurd (.inl ⟨text, decides⟩) quiet
  | file location protocol line => exact absurd (.inr ⟨location, protocol, line, decides⟩) quiet

/-- A run ends in 0 or in the status of its failure, unless it prints lines for people and
standard output does not take them, and then it breaks off with a report of the runtime. What
cannot be written to standard output is a failure when it is a protocol, and no failure if nobody
reads it. -/
theorem status_is_classified_iff (w : World) (arguments : List (List UInt8)) :
    ((w.run arguments).status = 0 ∨
        (∃ f, w.Fails arguments f ∧ (w.run arguments).status = f.exitStatus) ↔
      w.output = .working ∨ ¬ w.Announces arguments) ∧
    (w.output ≠ .working → w.Announces arguments →
      (w.run arguments).status = brokenOffStatus ∧ (w.run arguments).output = "" ∧
        ∃ e log, w.output.fault? = some e ∧
          (w.run arguments).errors = log ++ w.runtime.report (printFault e)) ∧
    (∀ f, w.Fails arguments f → (w.run arguments).status = f.exitStatus ∧
      w.FailsInClass arguments f.exitStatus) ∧
    ∀ protocol, w.Decides arguments (.stream protocol) →
      (w.run arguments).status = if w.output = .full then 5 else 0 := by
  refine ⟨?_, ?_, fun f fails => ⟨status_of_fails fails, failsInClass_of_fails fails⟩,
    fun protocol decides => status_of_decides decides⟩
  · constructor
    · intro classified
      by_cases working : w.output = .working
      · exact .inl working
      · exact .inr fun announces => unclassified_of_announces announces working classified
    · intro takes
      by_cases announces : w.Announces arguments
      · have working := takes.resolve_right fun quiet => quiet announces
        left
        rw [status_of_announces announces, if_pos working]
      · exact classified_of_not_announces announces
  · intro broken announces
    refine ⟨?_, report_of_announces announces broken⟩
    rw [status_of_announces announces, if_neg broken]

/-- The help, asked for by someone who has stopped reading. -/
theorem help_breaks_off :
    (run ⟨⟨[]⟩, [], [], .closed, none, .inThread 5⟩ [Text.bytes "--help"]).status = 101 ∧
      (run ⟨⟨[]⟩, [], [], .closed, none, .inThread 5⟩ [Text.bytes "--help"]).errors =
        (Runtime.inThread 5).report "failed printing to stdout: Broken pipe (os error 32)" ∧
      ∀ f : Failure, f.exitStatus ≠ 101 := by
  refine ⟨by decide +kernel, by decide +kernel, ?_⟩
  intro f same
  have classes := exitStatus_mem f
  rw [same] at classes
  exact absurd classes (by decide)

end World

end AvroIdl.Command
