import LoudHeaders.Arguments.Basic

/-
  Reading a command line.

  Options and positional arguments may be mixed; behind `--` everything is
  positional. What was read last stays pending until something else is
  recognised, and only then is its value checked, so an unknown option behind a
  bad value is what gets reported. The environment is asked for options that
  were not given, and what is required is looked for last.
-/

namespace LoudHeaders

namespace Arguments

/-- What was read last and is not settled yet. -/
inductive Pending where
  | option (name : OptionName) (raw : Option Text)
  | positional (raw : Text)
  deriving DecidableEq, Repr

/-- What a command line has given so far. -/
structure State where
  values : List (OptionName × Value)
  positionals : List Text
  pending : Option Pending
  trailing : Bool
  deriving DecidableEq, Repr

namespace State

/-- Nothing given. -/
def start : State := ⟨[], [], none, false⟩

/-- The value of an option. -/
def get? (s : State) (name : OptionName) : Option Value :=
  (s.values.find? fun entry => entry.1 == name).map (·.2)

/-- Takes up a value for an option that was not given yet. -/
def give (s : State) (name : OptionName) (raw : Text) : Except Refusal State :=
  if (s.get? name).isSome then .error .givenTwice
  else match name.kind? with
    | none => .ok { s with values := s.values ++ [(name, .flag)] }
    | some kind => (kind.check raw).map fun v => { s with values := s.values ++ [(name, v)] }

/-- Settles what is pending: an option needs a value, and the first positional
argument is a path. -/
def settle (s : State) : Except Refusal State :=
  let idle := { s with pending := none }
  match s.pending with
  | none => .ok idle
  | some (.option _ none) => .error .invalidValue
  | some (.option name (some raw)) => idle.give name raw
  | some (.positional raw) =>
    if s.positionals.isEmpty && raw.isEmpty then .error .invalidValue
    else .ok { idle with positionals := s.positionals ++ [raw] }

/-- The number of positional arguments, the pending one included. -/
def positionalCount (s : State) : Nat :=
  s.positionals.length +
    match s.pending with
    | some (.positional _) => 1
    | _ => 0

/-- Takes up a positional argument. -/
def positional (c : CommandName) (s : State) (raw : Text) : Except Refusal State :=
  if s.positionalCount != 0 && !c.takesMore then .error .unknownArgument
  else (s.settle).map fun s => { s with pending := some (.positional raw) }

/-- Takes up an option that was recognised, with the value attached to it. -/
def recognised (s : State) (name : OptionName) (attached : Option Text) :
    Except Refusal State :=
  match name.kind?, attached with
  | none, some _ => .error .unwantedValue
  | none, none => do
    let s ← s.settle
    if name = .help then .error .displayHelp else s.give name []
  | some _, some raw => do (← s.settle).give name raw
  | some _, none => (s.settle).map fun s => { s with pending := some (.option name none) }

/-- Takes up an option by its long name. -/
def longOption (c : CommandName) (s : State) (body : Text) : Except Refusal State :=
  let name := (Text.cut '=' body).map (·.1)
  let attached := (Text.cut '=' body).map (·.2)
  match c.long? (name.getD body) with
  | some o => s.recognised o attached
  | none => .error .unknownArgument

/-- The value attached to a letter; an equals sign in front of it is dropped. -/
def attachedToLetter : Text → Option Text
  | [] => none
  | '=' :: raw => some raw
  | raw => some raw

/-- Takes up an option by its letter. A letter without a value ends the run, so
letters need not be taken up in groups. -/
def shortOption (c : CommandName) (s : State) (letter : Char) (rest : Text) :
    Except Refusal State :=
  match c.short? letter with
  | none => .error .unknownArgument
  | some o =>
    match o.kind? with
    | none => s.recognised o none
    | some _ => s.recognised o (attachedToLetter rest)

/-- Takes up an argument that is no option. -/
def plain (c : CommandName) (s : State) (raw : Text) : Except Refusal State :=
  match s.pending with
  | some (.option name none) => .ok { s with pending := some (.option name (some raw)) }
  | _ => s.positional c raw

/-- Takes up one argument. -/
def step (c : CommandName) (s : State) (argument : Text) : Except Refusal State :=
  if s.trailing then s.positional c argument
  else match argument with
    | ['-', '-'] => .ok { s with trailing := true }
    | '-' :: '-' :: body => s.longOption c body
    | '-' :: letter :: rest => s.shortOption c letter rest
    | raw => s.plain c raw

/-- Asks the environment for an option that was not given. -/
def ask (environment : List (Text × Text)) (s : State) (name : OptionName) :
    Except Refusal State :=
  if (s.get? name).isSome then .ok s
  else match name.environmentKey? with
    | none => .ok s
    | some key =>
      match environment.find? fun entry => entry.1 == key with
      | none => .ok s
      | some entry => s.give name entry.2

/-- The number an option was given. -/
def number? (s : State) (name : OptionName) : Option Nat :=
  match s.get? name with
  | some (.number n) => some n
  | _ => none

/-- The path an option was given. -/
def path? (s : State) (name : OptionName) : Option Text :=
  match s.get? name with
  | some (.path p) => some p
  | _ => none

/-- The format that was asked for. -/
def formatOf (s : State) : Format :=
  match s.get? .format with
  | some (.format f) => f
  | _ => .text

/-- The request of a command line that has been read, if nothing is missing. -/
def request (c : CommandName) (s : State) : Except Refusal Request :=
  match s.positionals with
  | [] => .error .missingArgument
  | first :: rest =>
    let numFiles := (s.number? .numFiles).getD defaultNumFiles
    let noProgress := (s.get? .noProgress).isSome
    match c with
    | .gatherDeps => .ok (.gatherDeps {
        ninjaBinary := s.path? .ninjaBinary
        numFiles
        numCommits := s.number? .numCommits
        repo := s.path? .repo
        compileCommands := s.path? .compileCommands
        jobs := s.number? .jobs
        format := s.formatOf
        noProgress
        buildDir := first
        targets := rest })
    | .gatherChanges => .ok (.gatherChanges {
        maxCommits := s.number? .maxCommits
        numFiles
        format := s.formatOf
        noProgress
        dir := first })

end State

/-- Reads the arguments behind the name of a command. -/
def parseCommand (environment : List (Text × Text)) (c : CommandName) (arguments : List Text) :
    Except Refusal Request := do
  let s ← arguments.foldlM (State.step c) State.start
  let s ← s.settle
  let s ← c.options.foldlM (State.ask environment) s
  s.request c

/-- The word that asks for help on a command. -/
def helpWord : Text := "help".toList

/-- The answer to a request for help on the commands that follow. -/
def helpOn : List Text → Refusal
  | [] => .displayHelp
  | first :: rest =>
    if first = helpWord || (CommandName.ofText? first).isSome then
      match rest with
      | [] => .displayHelp
      | _ => .unknownCommand
    else .unknownCommand

/-- The answer to what stands behind `--` where a command is wanted. -/
def afterEscape : List Text → Refusal
  | [] => .nothingGiven
  | first :: _ =>
    if first = helpWord || (CommandName.ofText? first).isSome then .unknownArgument
    else .unknownCommand

/-- The answer to an option in front of the command. -/
def topOption (body : Text) : Refusal :=
  let name := ((Text.cut '=' body).map (·.1)).getD body
  let attached := (Text.cut '=' body).isSome
  if name = helpWord then (if attached then .unwantedValue else .displayHelp)
  else if name = "version".toList then (if attached then .unwantedValue else .displayVersion)
  else .unknownArgument

/-- Reads a command line, the program's own name left out. -/
def parse (environment : List (Text × Text)) : List Text → Except Refusal Request
  | [] => .error .nothingGiven
  | first :: rest =>
    match CommandName.ofText? first with
    | some c => parseCommand environment c rest
    | none =>
      if first = helpWord then .error (helpOn rest)
      else match first with
        | ['-', '-'] => .error (afterEscape rest)
        | '-' :: '-' :: body => .error (topOption body)
        | '-' :: 'h' :: _ => .error .displayHelp
        | '-' :: 'V' :: _ => .error .displayVersion
        | '-' :: _ :: _ => .error .unknownArgument
        | _ => .error .unknownCommand

end Arguments

end LoudHeaders
