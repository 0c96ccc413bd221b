import LoudHeaders.CommandLine
import LoudHeaders.Text.Utf8

/-
  The command line.

  This is the only module that performs input and output. It reads the compile
  database a request names and prints what the run gives. It starts no program
  and opens no repository: where a run needs one, it is told that there is none,
  and ends with the error that belongs to it.
-/

namespace LoudHeaders

namespace CommandLine

/-- The path of the compile database that a command line needs, if it needs
one. -/
def neededFile (setting : Setting) : Option Text :=
  match Arguments.parse setting.environment setting.arguments with
  | .ok (.gatherDeps a) =>
    some (Gather.databasePath (gatherOptions setting.directory setting.processors a))
  | _ => none

/-- The outside with at most one file in it. -/
def worldOf (file : Option (Text × Except ReadFailure Text)) : World where
  readText := fun path =>
    match file with
    | some (known, content) => if path = known then content else .error (.refused .notFound)
    | none => .error (.refused .notFound)
  findRepository := fun path =>
    .error ("could not find repository at '".toList ++ path ++ "'".toList)
  runner := fun argv _ =>
    match argv with
    | [] => .error .emptyCommand
    | program :: _ => .error (.start program (.refused .notFound))

/-- The refusal behind a failed read. -/
def refusalOf : IO.Error → ReadFailure
  | .permissionDenied _ code _ => .refused ⟨Int.ofNat code.toNat⟩
  | .inappropriateType _ code _ => .refused ⟨Int.ofNat code.toNat⟩
  | .invalidArgument _ code _ => .refused ⟨Int.ofNat code.toNat⟩
  | _ => .refused .notFound

/-- Reads a file as text. -/
def readFile (path : Text) : IO (Except ReadFailure Text) := do
  try
    let bytes ← IO.FS.readBinFile (String.ofList path)
    match Utf8.decode? bytes.toList with
    | some text => return .ok text
    | none => return .error .notText
  catch e => return .error (refusalOf e)

/-- The environment variables that the options know. -/
def readEnvironment : IO (List (Text × Text)) := do
  let options := Arguments.CommandName.gatherDeps.options
  let names := options.filterMap Arguments.OptionName.environmentKey?
  names.filterMapM fun name => do
    return (← IO.getEnv (String.ofList name)).map fun value => (name, value.toList)

end CommandLine

end LoudHeaders

open LoudHeaders LoudHeaders.CommandLine in
/-- Runs the program on the arguments of the command line. -/
def main (arguments : List String) : IO UInt32 := do
  let directory := (← IO.currentDir).toString.toList
  let setting : Setting := {
    arguments := arguments.map String.toList
    environment := ← readEnvironment
    logFilter := none
    topicName := fun _ => []
    directory
    processors := 1 }
  let file ← (neededFile setting).mapM fun path => do return (path, ← readFile path)
  let outcome := run (worldOf file) setting
  (← IO.getStderr).putStr (String.ofList outcome.error)
  (← IO.getStdout).putStr (String.ofList outcome.output)
  return outcome.exitCode.toUInt32
