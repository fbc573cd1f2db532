import AvroIdl.Command.Arguments
import AvroIdl.Command.FileTree
import AvroIdl.Command.LogLine
import AvroIdl.Report.Basic

/-
One run of the program: from its arguments, standard input and files to its exit status,
what it prints, and the files after it.
-/
set_option autoImplicit false

namespace AvroIdl.Command

/-- What becomes of text that is written to standard output. -/
inductive OutputState
  | working
  | full
  | closed
  deriving DecidableEq

/-- What the system says of text that is lost. -/
def OutputState.fault? : OutputState → Option SystemError
  | .working => none
  | .full => some .deviceFull
  | .closed => some .brokenPipe

/-- What the runtime knows of a run that breaks off: in which of the system's threads, where in its
own code, and the lines of a trace if the environment asks for one. -/
structure Runtime where
  thread : Nat
  place : String
  trace : Option (List String)

structure World where
  tree : FileTree
  cwd : Location
  input : List UInt8
  output : OutputState
  log : Option String
  runtime : Runtime

structure Outcome where
  status : Nat
  output : String
  errors : String
  tree : FileTree

def helpLines : List String :=
  [usageLine,
    "",
    "Converts an Avro JSON schema (.avsc) into Avro IDL (.avdl).",
    "Use `-` as INPUT to read stdin, or as OUTPUT to write stdout.",
    "",
    "Options:",
    "  --redeclare    declare a repeated inline record or enum every time it appears",
    "  -h, --help     print this help",
    "  -V, --version  print the version"]

def versionLine : String := "avsc2avdl 0.9.1"

def unlines (lines : List String) : String :=
  String.join (lines.map fun line => line ++ "\n")

namespace Runtime

/-- Where the runtime prints lines. -/
def printPlace : String :=
  "/rustc/b940084d7eb6a299eb4bfeb8e34901bc051e7ac4/library/std/src/io/stdio.rs:1168:9"

/-- Nobody has asked for a trace. -/
def inThread (thread : Nat) : Runtime :=
  ⟨thread, printPlace, none⟩

def traceHint : String :=
  "note: run with `RUST_BACKTRACE=1` environment variable to display a backtrace"

/-- What stands on the error stream when a run breaks off. It begins on a new line, as the line
before it may be open. -/
def report (r : Runtime) (message : String) : String :=
  unlines (["", "thread 'main' (" ++ toString r.thread ++ ") panicked at " ++ r.place ++ ":",
    message] ++ r.trace.getD [traceHint])

end Runtime

def successLine (cwd : Location) (path : String) : String :=
  "Conversion successful. AVDL written to: " ++ fullPath cwd path

def isStream (path : String) : Bool :=
  path = "-"

/-- What the arguments ask to be converted, with the events of the conversion. -/
def Arguments.converted (a : Arguments) (contents : Except SystemError (List UInt8)) :
    Except Failure String × List Event :=
  let text := contents.bind fun bytes =>
    match Text.ofBytes? bytes with
    | some text => .ok text
    | none => .error .invalidText
  let c : Converter := ⟨a.policy⟩
  let (result, events) :=
    if isStream a.input then c.convertInput text else c.convertFile a.input text
  (result, .started a.input a.output a.policy :: events)

def logText (filter : Option String) (events : List Event) : String :=
  unlines ((events.filter (Event.isShown filter)).map Event.line)

namespace World

def fail (w : World) (log : String) (f : Failure) : Outcome :=
  ⟨f.exitStatus, "", log ++ unlines f.report, w.tree⟩

/-- Exit status of a run that breaks off because a line cannot be printed. -/
def brokenOffStatus : Nat := 101

def printFault (e : SystemError) : String :=
  "failed printing to stdout: " ++ e.message

/-- Prints lines that must not be lost: when standard output fails the run breaks off. -/
def print (w : World) (log text : String) : Outcome :=
  match w.output.fault? with
  | none => ⟨0, text, log, w.tree⟩
  | some e => ⟨brokenOffStatus, "", log ++ w.runtime.report (printFault e), w.tree⟩

/-- Writes a protocol to standard output. Nobody reading it is no failure. -/
def writeOutput (w : World) (log text : String) : Outcome :=
  match w.output.fault? with
  | none => ⟨0, text, log, w.tree⟩
  | some .brokenPipe => ⟨0, "", log, w.tree⟩
  | some e => w.fail log (.unwritable "<stdout>" e)

def deliver (w : World) (log output protocol : String) : Outcome :=
  if isStream output then w.writeOutput log protocol
  else match w.tree.writeFile w.cwd output (Text.bytes protocol) with
    | .error e => w.fail log (.unwritable output e)
    | .ok tree => { w with tree }.print log (successLine w.cwd output ++ "\n")

def contents (w : World) (input : String) : Except SystemError (List UInt8) :=
  if isStream input then .ok w.input else w.tree.readFile w.cwd input

def convert (w : World) (a : Arguments) : Outcome :=
  let (result, events) := a.converted (w.contents a.input)
  let log := logText w.log events
  match result with
  | .error f => w.fail log f
  | .ok protocol => w.deliver log a.output protocol

/-- The whole run. -/
def run (w : World) (arguments : List (List UInt8)) : Outcome :=
  match Request.ofArguments arguments with
  | .error f => w.fail "" f
  | .ok .help => w.print "" (unlines helpLines)
  | .ok .version => w.print "" (versionLine ++ "\n")
  | .ok (.convert a) => w.convert a

end World

end AvroIdl.Command
