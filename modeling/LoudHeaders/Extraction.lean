import LoudHeaders.CommandWords
import LoudHeaders.CompileDatabase.Basic
import LoudHeaders.MakeRule
import LoudHeaders.Trace

/-
  The dependencies of one compile command.

  The compiler is asked, in the command's directory, for the make rule of the
  source file. The rule's target and dependencies make a compile target. A call
  that fails and an output without a colon are errors of this command alone.
-/

namespace LoudHeaders

/-- A source file together with the rule its compiler reported. -/
structure CompileTarget where
  file : Text
  directory : Text
  target : Text
  dependencies : List Text
  deriving DecidableEq, Repr

namespace CompileCommand

/-- The call that asks for the dependencies of a command. -/
def dependencyCall (c : CompileCommand) : Call :=
  ⟨CommandWords.dependencyCommand c.command, some c.directory⟩

/-- The compile target that an answer of the compiler describes. -/
def targetOf (c : CompileCommand) (answer : Except RunError Text) :
    Except ExtractError CompileTarget :=
  match answer with
  | .error cause => .error (.fetch c.file cause)
  | .ok output =>
    match MakeRule.parse? output with
    | none => .error (.noRule c.file)
    | some rule => .ok {
        file := c.file
        directory := c.directory
        target := rule.target
        dependencies := rule.dependencies }

/-- The log line about the target of a command. -/
def dependsLine (t : CompileTarget) : LogLine :=
  ⟨.dependencies, .debug,
    t.file ++ " depends on ".toList ++ Text.ofNat t.dependencies.length ++ " files".toList⟩

/-- Asks the compiler for the dependencies of a command. -/
def extract (run : Runner) (c : CompileCommand) : Traced (Except ExtractError CompileTarget) := do
  let call := c.dependencyCall
  let result := c.targetOf (← run.call call.argv call.cwd)
  match result with
  | .error _ => return result
  | .ok t => ⟨[.logged (dependsLine t)], result⟩

end CompileCommand

end LoudHeaders
