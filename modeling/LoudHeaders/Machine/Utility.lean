import LoudHeaders.Machine.Cat

/-
  Well-known programs.

  A utility reads its arguments, files and its input, and prints. The shell is one
  too, but what it does is told by its scripts.

  This serves only the world the program is run in; no theorem is about it.
-/

namespace LoudHeaders

namespace Machine

/-- The well-known programs. -/
inductive Utility where
  | shell
  | cat
  | echo
  | pwd
  | succeed
  | fail
  | sleep
  deriving DecidableEq, Repr

/-- What a utility did: its status, what it printed, and what it left of its
input. -/
structure Effect where
  status : Nat
  output : List UInt8
  error : List UInt8
  input : List UInt8
  deriving DecidableEq, Repr

namespace Utility

/-- Prints the input, or files if any are named. -/
def concatenated (files : FileTree) (directory : Place) (input : List UInt8)
    (arguments : List Text) : Effect :=
  match Cat.request .plain [] arguments with
  | .about => ⟨0, [], [], input⟩
  | .refused message =>
    let lines := "cat: ".toList ++ message ++
      "\nTry 'cat --help' for more information.\n".toList
    ⟨1, [], Utf8.encode lines, input⟩
  | .files style names =>
    let names := if names.isEmpty then [['-']] else names
    let (bytes, said) := Cat.read files directory input names
    { status := if said.isEmpty then 0 else 1
      output := if style = .plain then bytes else Cat.shown style ⟨1, some 0⟩ bytes
      error := Utf8.encode said
      input := if names.contains ['-'] then [] else input }

/-- Prints the arguments on one line; with `-n` in front, without the line feed. -/
def echoed (arguments : List Text) : List UInt8 :=
  match arguments with
  | ['-', 'n'] :: rest => Utf8.encode (Text.joinWith [' '] rest)
  | _ => Utf8.encode (Text.joinWith [' '] arguments ++ ['\n'])

/-- Runs a utility other than the shell. -/
def run (files : FileTree) (directory : Place) (input : List UInt8) (arguments : List Text)
    (u : Utility) : Effect :=
  match u with
  | .cat => concatenated files directory input arguments
  | .echo => ⟨0, echoed arguments, [], input⟩
  | .pwd => ⟨0, Utf8.encode (directory.path ++ ['\n']), [], input⟩
  | .fail => ⟨1, [], [], input⟩
  | .shell => ⟨0, [], [], input⟩
  | .succeed => ⟨0, [], [], input⟩
  | .sleep => ⟨0, [], [], input⟩

end Utility

end Machine

end LoudHeaders
