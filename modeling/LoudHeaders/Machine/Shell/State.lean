import LoudHeaders.Machine.Process
import LoudHeaders.Machine.Shell.Pattern
import LoudHeaders.Machine.Shell.Token
import LoudHeaders.Machine.Utility

/-
  The state of a running shell.

  A shell has variables, functions, arguments, a directory, and outputs that lead
  somewhere: into a buffer, a file, or nowhere. The first two buffers are what the
  whole process prints; others hold what is on its way through a pipe or into a
  word. Running either goes on or leaves the ordinary order: the shell ends, a
  signal ends it, or a loop or function is left.

  This serves only the world the program is run in; no theorem is about it (see
  Machine/Shell/Basic).
-/

namespace LoudHeaders

namespace Machine

namespace Shell

/-- A variable. -/
structure Variable where
  name : Text
  value : Option Text
  exported : Bool
  fixed : Bool
  deriving DecidableEq, Repr

/-- Where an output leads. -/
inductive Sink where
  | buffer (n : Nat)
  | file (place : Place)
  | nowhere
  deriving DecidableEq, Repr

/-- A running shell. `captured` is the status of the last command whose output
became a part of a word; traps are actions by signal, zero being the end of the
shell. The context is what is running commands or is carried out itself, and
stands in front of messages. Jobs are the processes that nobody has waited for,
with the statuses they end with. -/
structure State where
  programs : List (Place × Utility)
  files : FileTree
  name : Text
  arguments : List Text
  bindings : List Variable
  saved : List (List (Text × Option Variable))
  functions : List (Text × Command)
  directory : Place
  status : Nat
  captured : Nat
  line : Nat
  context : Text
  input : List UInt8
  sinks : List (Nat × Sink)
  buffers : List (List UInt8)
  options : Text
  traps : List (Nat × Text)
  process : Nat
  processes : Nat
  jobs : List (Nat × Nat)
  latestJob : Option Nat
  loops : Nat

/-- Ways to leave the ordinary order. -/
inductive Flow where
  | exited (status : Nat)
  | killed (process signal : Nat)
  | left (loops : Nat) (again : Bool)
  | returned (status : Nat)
  | faulty (message : Text)
  | exhausted
  deriving DecidableEq, Repr

/-- A step of a shell. -/
abbrev Step (α : Type) : Type := ExceptT Flow (StateM State) α

namespace State

/-- The shell as it starts. -/
def start (files : FileTree) (programs : List (Place × Utility)) (searchPath : List Place)
    (directory : Place) (name : Text) (arguments : List Text) : State where
  programs := programs
  files := files
  name := name
  arguments := arguments
  bindings := [⟨"IFS".toList, some [' ', '\t', '\n'], false, false⟩,
    ⟨"PATH".toList, some (Text.joinWith [':'] (searchPath.map Place.path)), true, false⟩,
    ⟨"PWD".toList, some directory.path, true, false⟩,
    ⟨"OPTIND".toList, some ['1'], false, false⟩]
  saved := []
  functions := []
  directory := directory
  status := 0
  captured := 0
  line := 1
  context := []
  input := []
  sinks := [(1, .buffer 0), (2, .buffer 1)]
  buffers := [[], []]
  options := []
  traps := []
  process := 4242
  processes := 4242
  jobs := []
  latestJob := none
  loops := 0

/-- The variable with a name. -/
def variableOf (s : State) (name : Text) : Option Variable :=
  s.bindings.find? fun v => v.name == name

/-- The value of a variable, if it has one. -/
def value? (s : State) (name : Text) : Option Text := (s.variableOf name).bind Variable.value

/-- Puts a variable in the place of the one with its name. -/
def put (s : State) (v : Variable) : State :=
  { s with bindings := v :: s.bindings.filter fun w => w.name != v.name }

/-- Takes a variable away. -/
def drop (s : State) (name : Text) : State :=
  { s with bindings := s.bindings.filter fun v => v.name != name }

/-- Gives a variable a value. -/
def assign (s : State) (name value : Text) : State :=
  match s.variableOf name with
  | some v => s.put { v with value := some value }
  | none => s.put ⟨name, some value, s.options.contains 'a', false⟩

/-- Whether an option is on. -/
def hasOption (s : State) (letter : Char) : Bool := s.options.contains letter

/-- Where an output leads, if it is open. -/
def sink? (s : State) (n : Nat) : Option Sink :=
  (s.sinks.find? fun entry => entry.1 == n).map (·.2)

/-- Leads an output somewhere. -/
def lead (s : State) (n : Nat) (sink : Option Sink) : State :=
  let others := s.sinks.filter fun entry => entry.1 != n
  { s with
    sinks := match sink with
      | some sink => (n, sink) :: others
      | none => others }

/-- Puts an item at a place. -/
def putItem (s : State) (place : Place) (item : Item) : State :=
  { s with files := (place, item) :: s.files.filter fun entry => entry.1 != place }

/-- Writes bytes to an output. -/
def write (s : State) (n : Nat) (bytes : List UInt8) : State :=
  match s.sink? n with
  | some (.buffer k) => { s with buffers := s.buffers.modify k (· ++ bytes) }
  | some (.file place) => s.putItem place (.file ((s.files.bytes? place).getD [] ++ bytes))
  | _ => s

/-- Writes a message to the second output, with the name of the shell, the line and
the context in front. -/
def complain (s : State) (message : Text) : State :=
  let context := if s.context.isEmpty then [] else s.context ++ ": ".toList
  s.write 2 (Utf8.encode
    (s.name ++ ": ".toList ++ Text.ofNat s.line ++ ": ".toList ++ context ++ message ++ ['\n']))

/-- What the arguments are as a parameter of one character, or a variable's
value. -/
def parameter? (s : State) (name : Text) : Option Text :=
  match name with
  | ['#'] => some (Text.ofNat s.arguments.length)
  | ['?'] => some (Text.ofNat s.status)
  | ['$'] => some (Text.ofNat s.process)
  | ['!'] => s.latestJob.map Text.ofNat
  | ['-'] => some s.options
  | _ =>
    match Text.word? name with
    | some 0 => some s.name
    | some (n + 1) => s.arguments[n]?
    | none =>
      if name = "PPID".toList then some (Text.ofNat (s.process - 1)) else s.value? name

/-- The variables that a program started by the shell is given. -/
def environment (s : State) : List Variable :=
  s.bindings.filter fun v => v.exported && v.value.isSome

end State

/-- Ends the shell with a message and a status. -/
def stop {α : Type} (message : Text) (status : Nat) : Step α := do
  modify (·.complain message)
  throw (.exited status)

/-- Assigns to a variable, unless it is fixed. -/
def assign (name value : Text) : Step Unit := do
  if ((← get).variableOf name).any Variable.fixed then
    stop (name ++ ": is read only".toList) 2
  modify (·.assign name value)

/-- Runs a step and gives how it went instead of leaving. -/
def observed {α : Type} (step : Step α) : Step (Except Flow α) :=
  ExceptT.mk do
    let result ← step.run
    return .ok result

/-- Goes on as an observed step went. -/
def resumed {α : Type} (result : Except Flow α) : Step α :=
  match result with
  | .ok a => return a
  | .error flow => throw flow

end Shell

end Machine

end LoudHeaders
