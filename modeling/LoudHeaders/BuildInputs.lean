import LoudHeaders.Path.Normal
import LoudHeaders.Trace
import LoudHeaders.Version

/-
  The files a build needs.

  The build tool is asked for its version first, and only one that is recent
  enough is asked for the inputs of the targets. Each line of its answer that is
  not blank is a path, taken from the build directory.
-/

namespace LoudHeaders

namespace BuildInputs

/-- The oldest version whose answer lists transitive inputs. -/
def minVersion : Version := ⟨1, 11, 0⟩

/-- The same version as text. -/
def minVersionText : Text := "1.11.0".toList

/-- The targets as they appear in messages. -/
def targetList (targets : List Text) : Text := Text.joinWith [',', ' '] targets

/-- The call that asks for the version. -/
def versionCall (binary : Text) : Call := ⟨[binary, "--version".toList], none⟩

/-- The call that asks for the inputs. -/
def inputsCall (binary directory : Text) (targets : List Text) : Call :=
  ⟨[binary, "-C".toList, directory, "-t".toList, "inputs".toList] ++ targets, none⟩

/-- Whether the version a tool reports is recent enough. -/
def accepts (report : Text) : Bool :=
  match Version.parse? report with
  | some v => v.atLeast minVersion
  | none => false

/-- Fails unless the build tool is recent enough. -/
def verifyVersion (run : Runner) (binary : Text) : Session Unit := do
  let call := versionCall binary
  let answer ← Session.lift (run.call call.argv call.cwd)
  let output ← Session.ofExcept (Error.resolver "--version".toList) answer
  let report := Text.trim output
  if accepts report then
    Session.log .inputs .debug (binary ++ " is version ".toList ++ report)
  else Session.fail (.toolVersion binary report minVersionText)

/-- Adds a path to a list of paths unless one with its components is there. -/
def insertPath (paths : List Text) (p : Text) : List Text :=
  if paths.any (Path.same p) then paths else paths ++ [p]

/-- The paths an answer lists, each one once. -/
def pathsOf (directory output : Text) : List Text :=
  let stated := ((Text.lines output).map Text.trim).filter fun line => !line.isEmpty
  (stated.map (Path.absolutize directory)).foldl insertPath []

/-- The files needed to build the targets. -/
def targetInputs (run : Runner) (binary directory : Text) (targets : List Text) :
    Session (List Text) := do
  verifyVersion run binary
  let names := targetList targets
  Session.log .inputs .debug
    ("calling ".toList ++ binary ++ " to fetch inputs for ".toList ++ names ++ " from ".toList ++
      directory)
  let call := inputsCall binary directory targets
  let answer ← Session.lift (run.call call.argv call.cwd)
  let output ← Session.ofExcept (Error.resolver names) answer
  let paths := pathsOf directory output
  Session.log .inputs .info
    ("Found ".toList ++ Text.ofNat paths.length ++ " inputs required to build ".toList ++ names)
  return paths

end BuildInputs

end LoudHeaders
