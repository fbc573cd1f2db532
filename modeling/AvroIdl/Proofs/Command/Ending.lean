import AvroIdl.Command.Run

/-
A run in two parts: what it decides from the arguments, the input and the files, and what it then
does to the files and to standard output.
-/
set_option autoImplicit false

namespace AvroIdl.Command

/-- What a run decides on before it writes or prints anything. -/
inductive Ending
  | failure (f : Failure)
  | lines (text : String)
  | stream (protocol : String)
  | file (location : Location) (protocol line : String)

/-- What the input is called in messages. -/
def Arguments.sourceName (a : Arguments) : String :=
  if isStream a.input then "<stdin>" else a.input

/-- What is read has to be text. -/
def textOf (contents : Except SystemError (List UInt8)) : Except SystemError String :=
  contents.bind fun bytes =>
    match Text.ofBytes? bytes with
    | some text => .ok text
    | none => .error .invalidText

namespace World

/-- The text that is to be converted, if the input can be read and is text. -/
def source? (w : World) (input : String) : Option String :=
  (textOf (w.contents input)).toOption

def conversion (w : World) (a : Arguments) : Except Failure String :=
  (a.converted (w.contents a.input)).1

/-- Where a protocol goes. -/
def destination (w : World) (output protocol : String) : Ending :=
  if isStream output then .stream protocol
  else match w.tree.target w.cwd output with
    | .error e => .failure (.unwritable output e)
    | .ok location => .file location protocol (successLine w.cwd output ++ "\n")

def ending (w : World) (arguments : List (List UInt8)) : Ending :=
  match Request.ofArguments arguments with
  | .error f => .failure f
  | .ok .help => .lines (unlines helpLines)
  | .ok .version => .lines (versionLine ++ "\n")
  | .ok (.convert a) =>
    match w.conversion a with
    | .error f => .failure f
    | .ok protocol => w.destination a.output protocol

/-- Why a run decides on something. -/
inductive Decides (w : World) (arguments : List (List UInt8)) : Ending → Prop
  | refused {f : Failure} (request : Request.ofArguments arguments = .error f) :
      Decides w arguments (.failure f)
  | help (request : Request.ofArguments arguments = .ok .help) :
      Decides w arguments (.lines (unlines helpLines))
  | version (request : Request.ofArguments arguments = .ok .version) :
      Decides w arguments (.lines (versionLine ++ "\n"))
  | unconverted {a : Arguments} {f : Failure}
      (request : Request.ofArguments arguments = .ok (.convert a))
      (failed : w.conversion a = .error f) : Decides w arguments (.failure f)
  | stream {a : Arguments} {protocol : String}
      (request : Request.ofArguments arguments = .ok (.convert a))
      (converted : w.conversion a = .ok protocol) (stream : isStream a.output = true) :
      Decides w arguments (.stream protocol)
  | unwritable {a : Arguments} {protocol : String} {e : SystemError}
      (request : Request.ofArguments arguments = .ok (.convert a))
      (converted : w.conversion a = .ok protocol) (named : isStream a.output = false)
      (failed : w.tree.target w.cwd a.output = .error e) :
      Decides w arguments (.failure (.unwritable a.output e))
  | file {a : Arguments} {protocol : String} {location : Location}
      (request : Request.ofArguments arguments = .ok (.convert a))
      (converted : w.conversion a = .ok protocol) (named : isStream a.output = false)
      (found : w.tree.target w.cwd a.output = .ok location) :
      Decides w arguments (.file location protocol (successLine w.cwd a.output ++ "\n"))

def finish (w : World) (log : String) : Ending → Outcome
  | .failure f => w.fail log f
  | .lines text => w.print log text
  | .stream protocol => w.writeOutput log protocol
  | .file location protocol line =>
    { w with tree := w.tree.put location (.file (Text.bytes protocol)) }.print log line

theorem deliver_eq (w : World) (log output protocol : String) :
    w.deliver log output protocol = w.finish log (w.destination output protocol) := by
  rw [deliver, destination]
  cases isStream output with
  | true => rfl
  | false =>
    rw [FileTree.writeFile]
    cases w.tree.target w.cwd output <;> rfl

theorem ending_of_conversion {w : World} {arguments : List (List UInt8)} {a : Arguments}
    {protocol : String} (request : Request.ofArguments arguments = .ok (.convert a))
    (converted : w.conversion a = .ok protocol) :
    w.ending arguments = w.destination a.output protocol := by
  rw [ending, request]
  dsimp only
  rw [converted]

theorem decides_iff (w : World) (arguments : List (List UInt8)) (e : Ending) :
    w.Decides arguments e ↔ w.ending arguments = e := by
  constructor
  · intro decides
    cases decides with
    | refused request | help request | version request => rw [ending, request]
    | unconverted request failed =>
      rw [ending, request]
      dsimp only
      rw [failed]
    | stream request converted stream =>
      rw [ending_of_conversion request converted, destination, if_pos stream]
    | unwritable request converted named other | file request converted named other =>
      rw [ending_of_conversion request converted, destination, named, other]
      rfl
  · rintro rfl
    fun_cases ending w arguments with
    | case1 f request => exact .refused request
    | case2 request => exact .help request
    | case3 request => exact .version request
    | case4 a request f failed => exact .unconverted request failed
    | case5 a request protocol converted =>
      fun_cases destination w a.output protocol with
      | case1 stream => exact .stream request converted stream
      | case2 named e failed =>
        exact .unwritable request converted (Bool.not_eq_true _ ▸ named) failed
      | case3 named location found =>
        exact .file request converted (Bool.not_eq_true _ ▸ named) found

/-- A run does what it has decided on, after some log lines. -/
theorem exists_run_eq (w : World) (arguments : List (List UInt8)) :
    ∃ log, w.run arguments = w.finish log (w.ending arguments) := by
  rw [run, ending]
  cases Request.ofArguments arguments with
  | error f => exact ⟨"", rfl⟩
  | ok request =>
    cases request with
    | help => exact ⟨"", rfl⟩
    | version => exact ⟨"", rfl⟩
    | convert a =>
      refine ⟨logText w.log (a.converted (w.contents a.input)).2, ?_⟩
      dsimp only
      rw [convert, conversion]
      rcases a.converted (w.contents a.input) with ⟨f | protocol, events⟩
      · rfl
      · exact deliver_eq w _ a.output protocol

variable {w : World} {a : Arguments}

theorem conversion_eq (w : World) (a : Arguments) :
    w.conversion a =
      if isStream a.input then
        ((Converter.mk a.policy).convertInput (textOf (w.contents a.input))).1
      else ((Converter.mk a.policy).convertFile a.input (textOf (w.contents a.input))).1 := by
  rw [conversion, Arguments.converted, textOf]
  cases isStream a.input <;> rfl

theorem conversion_of_source {source : String} (given : w.source? a.input = some source) :
    w.conversion a = (Converter.mk a.policy).convert source a.sourceName := by
  rw [conversion_eq, Arguments.sourceName]
  rw [source?] at given
  cases text : textOf (w.contents a.input) with
  | error e =>
    rw [text] at given
    cases given
  | ok found =>
    rw [text] at given
    cases given
    cases isStream a.input <;> rfl

/-- An input that is missing, cannot be read or is no text fails in one class. -/
theorem conversion_of_no_source (missing : w.source? a.input = none) :
    ∃ f, w.conversion a = .error f ∧ f.exitStatus = 3 := by
  rw [conversion_eq]
  rw [source?] at missing
  cases text : textOf (w.contents a.input) with
  | ok found =>
    rw [text] at missing
    cases missing
  | error e =>
    cases isStream a.input with
    | true => exact ⟨.unreadable "<stdin>" e, rfl, rfl⟩
    | false =>
      cases e with
      | notFound => exact ⟨.inputMissing a.input, rfl, rfl⟩
      | _ => exact ⟨.unreadable a.input _, rfl, rfl⟩

/-- A conversion gives a protocol if the input is a text and the text converts. -/
theorem conversion_eq_ok_iff (protocol : String) :
    w.conversion a = .ok protocol ↔
      ∃ source, w.source? a.input = some source ∧
        (Converter.mk a.policy).convert source a.sourceName = .ok protocol := by
  cases given : w.source? a.input with
  | none =>
    obtain ⟨f, failed, -⟩ := conversion_of_no_source given
    simp [failed]
  | some source => simp [conversion_of_source given]

end World

end AvroIdl.Command
