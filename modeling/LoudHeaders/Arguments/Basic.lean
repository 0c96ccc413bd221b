import LoudHeaders.Text.Basic

/-
  What a command line can ask for.

  There are two commands, each with options of its own and positional arguments.
  An option is written by its long name or, where it has one, by a letter; it
  takes a number, a path, an output format or no value. Two options can also be
  given through the environment.
-/

namespace LoudHeaders

/-- The forms of output. -/
inductive Format where
  | text
  | json
  deriving DecidableEq, Repr

/-- What is asked of a run that gathers headers. -/
structure DepsArguments where
  ninjaBinary : Option Text
  numFiles : Nat
  numCommits : Option Nat
  repo : Option Text
  compileCommands : Option Text
  jobs : Option Nat
  format : Format
  noProgress : Bool
  buildDir : Text
  targets : List Text
  deriving DecidableEq, Repr

/-- What is asked of a run that counts changes. -/
structure ChangesArguments where
  maxCommits : Option Nat
  numFiles : Nat
  format : Format
  noProgress : Bool
  dir : Text
  deriving DecidableEq, Repr

/-- What a command line asks for. -/
inductive Request where
  | gatherDeps (arguments : DepsArguments)
  | gatherChanges (arguments : ChangesArguments)
  deriving DecidableEq, Repr

/-- Why a command line gives no request. Asking for help or for the version is
one of the reasons. -/
inductive Refusal where
  | displayHelp
  | displayVersion
  | nothingGiven
  | missingArgument
  | unknownArgument
  | unknownCommand
  | invalidValue
  | malformedNumber
  | givenTwice
  | unwantedValue
  deriving DecidableEq, Repr

namespace Arguments

/-- The kinds of value an option can take. -/
inductive ValueKind where
  | number
  | path
  | format
  deriving DecidableEq, Repr

/-- A value that has been checked. -/
inductive Value where
  | number (n : Nat)
  | path (p : Text)
  | format (f : Format)
  | flag
  deriving DecidableEq, Repr

/-- The options of both commands. -/
inductive OptionName where
  | ninjaBinary
  | numFiles
  | numCommits
  | repo
  | compileCommands
  | jobs
  | maxCommits
  | format
  | noProgress
  | help
  deriving DecidableEq, Repr

/-- The two commands. -/
inductive CommandName where
  | gatherDeps
  | gatherChanges
  deriving DecidableEq, Repr

namespace OptionName

/-- The long name of an option. -/
def long : OptionName → Text
  | .ninjaBinary => "ninja-binary".toList
  | .numFiles => "num-files".toList
  | .numCommits => "num-commits".toList
  | .repo => "repo".toList
  | .compileCommands => "compile-commands".toList
  | .jobs => "jobs".toList
  | .maxCommits => "max-commits".toList
  | .format => "format".toList
  | .noProgress => "no-progress".toList
  | .help => "help".toList

/-- The letter of an option. -/
def short? : OptionName → Option Char
  | .ninjaBinary => some 'b'
  | .numFiles => some 'n'
  | .numCommits => some 'c'
  | .jobs => some 'j'
  | .help => some 'h'
  | _ => none

/-- The kind of value an option takes, if it takes one. -/
def kind? : OptionName → Option ValueKind
  | .ninjaBinary => some .path
  | .numFiles => some .number
  | .numCommits => some .number
  | .repo => some .path
  | .compileCommands => some .path
  | .jobs => some .number
  | .maxCommits => some .number
  | .format => some .format
  | .noProgress => none
  | .help => none

/-- The environment variable an option can be given through. -/
def environmentKey? : OptionName → Option Text
  | .ninjaBinary => some "HPP_RAY_NINJA".toList
  | .jobs => some "HPP_RAY_JOBS".toList
  | _ => none

end OptionName

namespace CommandName

/-- How a command is written. -/
def text : CommandName → Text
  | .gatherDeps => "gather-deps".toList
  | .gatherChanges => "gather-changes".toList

/-- The command written by a text. -/
def ofText? (s : Text) : Option CommandName :=
  [gatherDeps, gatherChanges].find? fun name => name.text == s

/-- The options of a command, in the order in which the environment is asked. -/
def options : CommandName → List OptionName
  | .gatherDeps =>
    [.ninjaBinary, .numFiles, .numCommits, .repo, .compileCommands, .jobs, .format, .noProgress,
      .help]
  | .gatherChanges => [.maxCommits, .numFiles, .format, .noProgress, .help]

/-- Whether any number of positional arguments may follow the first. -/
def takesMore : CommandName → Bool
  | .gatherDeps => true
  | .gatherChanges => false

/-- The option with a long name. -/
def long? (c : CommandName) (name : Text) : Option OptionName :=
  c.options.find? fun o => o.long == name

/-- The option with a letter. -/
def short? (c : CommandName) (letter : Char) : Option OptionName :=
  c.options.find? fun o => o.short? == some letter

end CommandName

/-- How many entries are shown when nothing else is asked for. -/
def defaultNumFiles : Nat := 10

/-- The format with a name. -/
def format? (name : Text) : Option Format :=
  if name = "text".toList then some .text
  else if name = "json".toList then some .json
  else none

/-- Checks a value by its kind. -/
def ValueKind.check (kind : ValueKind) (raw : Text) : Except Refusal Value :=
  match kind with
  | .number =>
    match Text.count? raw with
    | some n => .ok (.number n)
    | none => .error .malformedNumber
  | .path => if raw.isEmpty then .error .invalidValue else .ok (.path raw)
  | .format =>
    match format? raw with
    | some f => .ok (.format f)
    | none => .error .invalidValue

end Arguments

end LoudHeaders
