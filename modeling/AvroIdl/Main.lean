import AvroIdl.Command.Run

/-
The program itself: reads arguments, files and streams, and prints what a run says.
-/
set_option autoImplicit false

namespace AvroIdl.Program

open Command

/-- The variable that holds the log filter. -/
def logVariable : String := "AVSC2AVDL_LOG"

/-- Some system calls report the negative of the error's number. -/
def errorNumber (code : UInt32) : Nat :=
  min code.toNat (0 - code).toNat

def ofNumber (number : Nat) (details : String) : SystemError :=
  match number with
  | 2 => .notFound
  | 20 => .notDirectory
  | 21 => .isDirectory
  | 28 => .deviceFull
  | 32 => .brokenPipe
  | 36 => .nameTooLong
  | number => .other (details ++ " (os error " ++ toString number ++ ")")

def systemError : IO.Error → SystemError
  | .noFileOrDirectory _ code details | .inappropriateType _ code details
  | .invalidArgument _ code details | .resourceExhausted _ code details
  | .permissionDenied _ code details | .resourceVanished code details =>
    ofNumber (errorNumber code) details
  | e => .other (toString e)

def attempt {α : Type} (action : IO α) : IO (Except SystemError α) :=
  try
    return .ok (← action)
  catch e => return .error (systemError e)

def fail (f : Failure) : IO UInt32 := do
  IO.eprint (unlines f.report)
  return f.exitStatus.toUInt32

def printText (text : String) : IO (Except SystemError Unit) := attempt do
  let out ← IO.getStdout
  out.putStr text
  out.flush

/-- The system's number of the one thread of the program, which is that of its process. -/
def threadNumber : IO Nat := do
  let status ← IO.FS.readFile "/proc/self/stat"
  return ((status.splitOn " ").head?.bind String.toNat?).getD 0

def printLines (text : String) : IO UInt32 := do
  match ← printText text with
  | .ok () => return 0
  | .error e =>
    -- There is no trace to show, even if the environment asks for one.
    IO.eprint ((Runtime.inThread (← threadNumber)).report (World.printFault e))
    return World.brokenOffStatus.toUInt32

def contents (input : String) : IO (Except SystemError (List UInt8)) := attempt do
  let bytes ← if isStream input then (← IO.getStdin).readBinToEnd else IO.FS.readBinFile input
  return bytes.toList

def deliver (output protocol : String) : IO UInt32 := do
  if isStream output then
    match ← printText protocol with
    | .ok () | .error .brokenPipe => return 0
    | .error e => fail (.unwritable "<stdout>" e)
  else
    match ← attempt (IO.FS.writeFile output protocol) with
    | .error e => fail (.unwritable output e)
    | .ok () =>
      let cwd := (Path.ofText (← IO.currentDir).toString).parts
      printLines (successLine cwd output ++ "\n")

def convert (a : Arguments) : IO UInt32 := do
  let (result, events) := a.converted (← contents a.input)
  IO.eprint (logText (← IO.getEnv logVariable) events)
  match result with
  | .error f => fail f
  | .ok protocol => deliver a.output protocol

end AvroIdl.Program

open AvroIdl Command Program in
def main (arguments : List String) : IO UInt32 := do
  match Request.ofArguments (arguments.map Text.bytes) with
  | .error f => fail f
  | .ok .help => printLines (unlines helpLines)
  | .ok .version => printLines (versionLine ++ "\n")
  | .ok (.convert a) => convert a
