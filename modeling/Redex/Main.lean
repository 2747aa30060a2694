import Redex.Command.Run

/-!
# The program

Reads what a command line needs from the outside, runs it, and writes what comes of it.
-/

set_option autoImplicit false

namespace Redex.Command

/-- The content of a file, under its name, if it can be read. -/
def readFile? (name : Text) : IO (List (Text × Text)) := do
  try
    let bytes ← IO.FS.readBinFile name.shown
    return [(name, Text.ofBytes bytes.toList)]
  catch _ => return []

/-- The whole standard input. -/
partial def readInput (input : IO.FS.Stream) (before : ByteArray) : IO ByteArray := do
  let more ← input.read 65536
  if more.isEmpty then return before else readInput input (before ++ more)

/-- The files and the input that a request mentions. -/
def gather (request : Request) : IO Provisions := do
  let preferences := request.preferences
  let settings ←
    readFile? (if preferences.config.isEmpty then settingsFile else preferences.config)
  let found : Provisions := ⟨settings, []⟩
  let prelude ← match settle .standard found.surroundings preferences with
    | .ok (settled, _) => readFile? settled.prelude
    | .error _ => pure []
  match request.action with
  | .reduce _ (.file name) => return ⟨settings ++ prelude ++ (← readFile? name), []⟩
  | .reduce _ .standardInput =>
    let bytes ← readInput (← IO.getStdin) .empty
    return ⟨settings ++ prelude, Text.ofBytes bytes.toList⟩
  | _ => return ⟨settings ++ prelude, []⟩

/-- A name for a run, from the clock and from chance. -/
def freshRunName : IO String := do
  let time ← IO.monoNanosNow
  let chance ← IO.rand 0 0x4000000000000000
  return Text.hexadecimal 16 time ++ "-" ++ Text.hexadecimal 16 chance

/-- Write the output of an outcome, which is refused if writing fails. -/
def write (outcome : Outcome) : IO Outcome := do
  let stdout ← IO.getStdout
  try
    stdout.putStr outcome.output
    stdout.flush
    return outcome
  catch error => return outcome.refused ⟨"", Text.ofString (toString error)⟩

/-- Run a command line and write its outcome. -/
def mainWith (arguments : List String) : IO UInt32 := do
  let arguments := arguments.map Text.ofString
  let provisions ← match Invocation.parse arguments with
    | .ok (.request request) => gather request
    | _ => pure ⟨[], []⟩
  let outcome ← write (runCommandLine (← freshRunName) provisions arguments)
  let stderr ← IO.getStderr
  stderr.putStr outcome.log.shown
  match outcome.failure with
  | some message => stderr.putStrLn (failureLine message).shown
  | none => pure ()
  return UInt32.ofNat outcome.exit

end Redex.Command

/-- The program. -/
def main (arguments : List String) : IO UInt32 := Redex.Command.mainWith arguments
