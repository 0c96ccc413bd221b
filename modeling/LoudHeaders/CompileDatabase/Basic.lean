import LoudHeaders.Path.Normal

/-
  Compile commands and the selection among them.

  A compile database is a list of commands. A command is selected when its
  source file, taken from its own directory, is one of the files a build needs;
  the order of the database and repeated commands are kept.
-/

namespace LoudHeaders

/-- How one source file is compiled: the file, the directory the compiler runs
in and the command line. -/
structure CompileCommand where
  file : Text
  directory : Text
  command : Text
  deriving DecidableEq, Repr

namespace CompileCommand

/-- The source file, taken from the command's directory. -/
def source (c : CompileCommand) : Text := Path.absolutize c.directory c.file

/-- The commands whose source file is among `inputs`, compared by components. -/
def select (commands : List CompileCommand) (inputs : List Text) : List CompileCommand :=
  commands.filter fun c => inputs.any (Path.same c.source)

/-- The name of the database in a build directory. -/
def databaseName : Text := "compile_commands.json".toList

end CompileCommand

end LoudHeaders
