import LoudHeaders.Machine.Shell.Condition
import LoudHeaders.Machine.Shell.Parser
import LoudHeaders.Machine.Shell.Printing
import LoudHeaders.Machine.Shell.State

/-
  Commands that a shell carries out itself.

  Each takes its arguments and ends with a status, or with a fault that is put
  into words where the command is run. Those that run further commands are not
  among them.

  This serves only the world the program is run in; no theorem is about it (see
  Machine/Shell/Basic).
-/

namespace LoudHeaders

namespace Machine

namespace Shell

namespace Builtin

/-- Ends a command with a fault. -/
def fault {α : Type} (message : Text) : Step α := throw (.faulty message)

/-- Prints bytes. -/
def print (bytes : List UInt8) : Step Unit := modify (·.write 1 bytes)

/-- The number that an argument has to be. -/
def number (word : Text) : Step Nat :=
  match Text.word? word with
  | some n => return n
  | none => fault ("Illegal number: ".toList ++ word)

/-- Prints by a format. -/
def printf (arguments : List Text) : Step Nat := do
  match if arguments.head? = some ['-', '-'] then arguments.tail else arguments with
  | [] => fault "usage: printf format [arg ...]".toList
  | format :: rest =>
    let printed := Printing.printf format rest
    print printed.output
    printed.messages.forM fun message => modify (·.complain message)
    return printed.status

/-- Changes the directory. -/
def cd (arguments : List Text) : Step Nat := do
  let s ← get
  let wanted :=
    match arguments.filter (· != ['-', '-']) with
    | [] => s.value? "HOME".toList
    | ['-'] :: _ => s.value? "OLDPWD".toList
    | path :: _ => some path
  match wanted with
  | none => return 0
  | some path =>
    match s.files.resolve s.directory path with
    | .ok place =>
      if !s.files.isDirectory place then fault ("can't cd to ".toList ++ path)
      let moved := { s with directory := place }
      set ((moved.assign "OLDPWD".toList s.directory.path).assign "PWD".toList place.path)
      if arguments.head? = some ['-'] then print (Utf8.encode (place.path ++ ['\n']))
      return 0
    | .error _ => fault ("can't cd to ".toList ++ path)

/-- Drops arguments in front. -/
def shift (arguments : List Text) : Step Nat := do
  let n ← match arguments with
    | [] => pure 1
    | word :: _ => number word
  if (← get).arguments.length < n then fault "can't shift that many".toList
  modify fun s => { s with arguments := s.arguments.drop n }
  return 0

/-- The letters of the options with a long name. -/
def longOptions : List (Text × Char) :=
  [("errexit".toList, 'e'), ("nounset".toList, 'u'), ("xtrace".toList, 'x'),
    ("noglob".toList, 'f'), ("allexport".toList, 'a'), ("noexec".toList, 'n'),
    ("verbose".toList, 'v'), ("noclobber".toList, 'C')]

/-- The letters of options. -/
def optionLetters : Text := ['e', 'u', 'x', 'f', 'a', 'n', 'v', 'C', 'b', 'm', 'h', 'I']

/-- Turns an option on or off. -/
def switchOption (on : Bool) (letter : Char) : Step Unit :=
  modify fun s =>
    let others := s.options.filter (· != letter)
    { s with options := if on then others ++ [letter] else others }

/-- Turns the options of a word of letters on or off; gives whether it asks for a
long name. -/
def switchLetters (on : Bool) (letters : Text) : Step Bool := do
  letters.forM fun c => do
    if c != 'o' then
      if !optionLetters.contains c then
        fault ("Illegal option -".toList ++ [c])
      switchOption on c
  return letters.contains 'o'

/-- Sets options and arguments. -/
def setArguments : List Text → Step Nat
  | [] => return 0
  | ['-', '-'] :: rest => do
    modify fun s => { s with arguments := rest }
    return 0
  | ['-'] :: rest => do
    ['v', 'x'].forM (switchOption false)
    if !rest.isEmpty then modify fun s => { s with arguments := rest }
    return 0
  | (sign :: c :: letters) :: rest => do
    if sign != '-' && sign != '+' then
      modify fun s => { s with arguments := (sign :: c :: letters) :: rest }
      return 0
    let long ← switchLetters (sign == '-') (c :: letters)
    match rest with
    | name :: rest =>
      if long then
        match longOptions.find? fun entry => entry.1 == name with
        | some entry =>
          switchOption (sign == '-') entry.2
          setArguments rest
        | none => fault ("Illegal option -o ".toList ++ name)
      else setArguments (name :: rest)
    | [] => return 0
  | words => do
    modify fun s => { s with arguments := words }
    return 0

/-- The name and the value of a word with an equals sign, or the word as a name. -/
def definition (word : Text) : Step (Text × Option Text) := do
  let (name, value) :=
    match Text.cut '=' word with
    | some halves => (halves.1, some halves.2)
    | none => (word, none)
  if !isName name then fault (name ++ ": bad variable name".toList)
  return (name, value)

/-- Assigns to a variable on behalf of a builtin, unless it is fixed. -/
def give (name value : Text) : Step Unit := do
  if ((← get).variableOf name).any Variable.fixed then fault (name ++ ": is read only".toList)
  modify (·.assign name value)

/-- Marks variables. -/
def mark (change : Variable → Variable) (arguments : List Text) : Step Nat := do
  (arguments.filter fun a => a != ['-', '-'] && a != ['-', 'p']).forM fun word => do
    let (name, value) ← definition word
    match value with
    | some value => give name value
    | none => pure ()
    modify fun s => s.put (change ((s.variableOf name).getD ⟨name, none, false, false⟩))
  return 0

/-- Makes variables of a function. -/
def makeLocal (arguments : List Text) : Step Nat := do
  if (← get).saved.isEmpty then fault "not in a function".toList
  arguments.forM fun word => do
    let (name, value) ← definition word
    modify fun s =>
      match s.saved with
      | frame :: frames =>
        { s with saved := ((name, s.variableOf name) :: frame) :: frames }
      | [] => s
    match value with
    | some value => give name value
    | none => pure ()
  return 0

/-- Takes variables or functions away. -/
def unset (arguments : List Text) : Step Nat := do
  let functions := arguments.head? == some ['-', 'f']
  let names := arguments.filter fun a => a != ['-', 'f'] && a != ['-', 'v'] && a != ['-', '-']
  names.forM fun name => do
    if functions then
      modify fun s => { s with functions := s.functions.filter fun entry => entry.1 != name }
    else
      if !isName name then fault (name ++ ": bad variable name".toList)
      if ((← get).variableOf name).any Variable.fixed then
        fault (name ++ ": is read only".toList)
      modify (·.drop name)
  return 0

/-- The name of a signal without its first three letters, which they all share. -/
def shortName (name : Text) : Text := name.drop 3

/-- The signal a word stands for, by its number or its short name in any case. The
end of the shell counts as one. -/
def signal? (word : Text) : Option Nat :=
  let upper := word.map Char.toUpper
  match Text.word? word with
  | some n => if n < 65 then some n else none
  | none =>
    if upper = "EXIT".toList then some 0
    else (Status.signalNames.find? fun entry => shortName entry.2 == upper).map (·.1)

/-- Signals that a process passes over unless it asks for them, and those that
only stop it or let it go on. -/
def passedOver : List Nat := [17, 18, 19, 20, 21, 22, 23, 28]

/-- The action that a signal is to cause, if one was named. -/
def trapFor (s : State) (signal : Nat) : Option Text :=
  (s.traps.find? fun entry => entry.1 == signal).map (·.2)

/-- The message about a use of `kill` that makes no sense. -/
def killUsage : Text :=
  "Usage: kill [-s sigspec | -signum | -sigspec] [pid | job]... or\nkill -l [exitstatus]".toList

/-- Sends a signal to a process: the shell, another one that it runs in or has
started, or a job, which then ends with it. Gives the action that the signal is to
cause. -/
def send (signal : Nat) (targets : List Text) : Step (Nat × Option Text) := do
  match targets with
  | [] => fault killUsage
  | target :: _ =>
    let s ← get
    match Text.word? target with
    | none => fault ("Illegal number: ".toList ++ target)
    | some n =>
      if n < 4242 || s.processes < n then
        modify (·.complain ("No such process\n".toList))
        return (1, none)
      else if signal = 0 then return (0, none)
      else if s.jobs.any fun job => job.1 == n then
        if !passedOver.contains signal then
          set { s with
            jobs := s.jobs.map fun (job : Nat × Nat) =>
              if job.1 = n then (n, 128 + signal) else job }
        return (0, none)
      else
        match if n = s.process then trapFor s signal else none with
        | some action => if signal = 9 then throw (.killed n signal) else return (0, some action)
        | none => if passedOver.contains signal then return (0, none) else throw (.killed n signal)

/-- The name of a signal given by its number or by the status it causes. -/
def nameSignal (word : Text) : Step Nat := do
  let n ← number word
  match Status.signalNames.find? fun entry => entry.1 == n % 128 with
  | some entry =>
    print (Utf8.encode (shortName entry.2 ++ ['\n']))
    return 0
  | none => fault ("invalid signal number or exit status: ".toList ++ word)

/-- Sends a signal, or names one. Gives the action that the signal is to cause. -/
def kill (arguments : List Text) : Step (Nat × Option Text) := do
  match arguments with
  | ['-', 'l'] :: word :: _ => return (← nameSignal word, none)
  | ['-', '-'] :: targets => send 15 targets
  | ['-', 's'] :: name :: targets =>
    match signal? name with
    | some n => send n (if targets.head? = some ['-', '-'] then targets.tail else targets)
    | none => fault ("invalid signal number or name: ".toList ++ name)
  | ('-' :: c :: name) :: targets =>
    match signal? (c :: name) with
    | some n => send n (if targets.head? = some ['-', '-'] then targets.tail else targets)
    | none => fault ("Illegal option -".toList ++ [c])
  | targets => send 15 targets

/-- Notes what signals are to cause. -/
def trap (arguments : List Text) : Step Nat := do
  match if arguments.head? = some ['-', '-'] then arguments.tail else arguments with
  | [] => return 0
  | action :: names =>
    let (action, names) : Text × List Text :=
      if names.isEmpty then (['-'], [action])
      else if (Text.word? action).isSome then (['-'], action :: names)
      else (action, names)
    match names.find? fun name => (signal? name).isNone with
    | some name =>
      modify (·.write 2 (Utf8.encode ("trap: ".toList ++ name ++ ": bad trap\n".toList)))
      return 1
    | none =>
      let signals := names.filterMap signal?
      modify fun s =>
        let kept := s.traps.filter fun entry => !signals.contains entry.1
        { s with
          traps := if action = ['-'] then kept else kept ++ signals.map fun n => (n, action) }
      return 0

/-- Gives variables the words of a text between gaps, the last one all that is
left. -/
def fill (isGap : Char → Bool) : List Text → Text → Step Unit
  | [], _ => pure ()
  | [name], text => give name text
  | name :: others, text => do
    give name (text.takeWhile fun c => !isGap c)
    fill isGap others ((text.dropWhile fun c => !isGap c).dropWhile isGap)

/-- Reads a line of the input into variables. -/
def readLine (arguments : List Text) : Step Nat := do
  let raw := arguments.contains ['-', 'r']
  let names := arguments.filter fun a => a != ['-', 'r']
  if names.isEmpty then fault "arg count".toList
  let s ← get
  let line := s.input.takeWhile (· != 10)
  let rest := s.input.drop line.length
  set { s with input := rest.drop 1 }
  let text := Utf8.decodeLossy line
  let text := if raw then text else text.filter (· != '\\')
  let ifs := (s.value? "IFS".toList).getD [' ', '\t', '\n']
  let isGap (c : Char) : Bool := ifs.contains c
  let trimmed := ((text.dropWhile isGap).reverse.dropWhile isGap).reverse
  fill isGap names trimmed
  return if rest.isEmpty then 1 else 0

/-- What a shell says about a program that a signal ended. -/
def signalTexts : List (Nat × Text) :=
  [(1, "Hangup".toList), (3, "Quit".toList), (4, "Illegal instruction".toList),
    (5, "Trace/breakpoint trap".toList), (6, "Aborted".toList), (7, "Bus error".toList),
    (8, "Floating point exception".toList), (9, "Killed".toList),
    (10, "User defined signal 1".toList), (11, "Segmentation fault".toList),
    (12, "User defined signal 2".toList), (14, "Alarm clock".toList),
    (15, "Terminated".toList), (16, "Stack fault".toList), (24, "CPU time limit exceeded".toList),
    (25, "File size limit exceeded".toList), (26, "Virtual timer expired".toList),
    (27, "Profiling timer expired".toList), (29, "I/O possible".toList),
    (30, "Power failure".toList), (31, "Bad system call".toList)]

/-- Says what signal ended a program. -/
def mourn (signal : Nat) : Step Unit :=
  match signalTexts.find? fun entry => entry.1 == signal with
  | some entry => modify (·.write 2 (Utf8.encode (entry.2 ++ ['\n'])))
  | none => pure ()

/-- Waits for jobs, or for all of them; gives the status of the last one. -/
def wait (arguments : List Text) : Step Nat := do
  if arguments.isEmpty then modify fun s => { s with jobs := [] }
  let statuses ← arguments.mapM fun word => do
    let n ← number word
    match (← get).jobs.find? fun job => job.1 == n with
    | some job =>
      mourn (job.2 - 128)
      return job.2
    | none => return 127
  return statuses.getLast?.getD 0

/-- Tests a condition. -/
def test (name : Text) (arguments : List Text) : Step Nat := do
  let s ← get
  let words ← if name = ['['] then
      if arguments.getLast? = some [']'] then pure arguments.dropLast
      else fault "missing ]".toList
    else pure arguments
  match Condition.holds ⟨s.files, s.directory⟩ words with
  | .ok b => return if b then 0 else 1
  | .error message => fault message

/-- Leaves loops. -/
def leave (again : Bool) (arguments : List Text) : Step Nat := do
  let n ← match arguments with
    | [] => pure 1
    | word :: _ => number word
  if n = 0 then fault ("Illegal number: ".toList ++ arguments.headD [])
  let loops := (← get).loops
  if loops = 0 then return 0 else throw (.left (min n loops) again)

/-- The status that an argument gives, or the last one. -/
def statusOf (arguments : List Text) : Step Nat := do
  match arguments with
  | [] => return (← get).status
  | word :: _ => return (← number word) % 256

/-- The builtins that are part of the language: a fault in one ends the shell. -/
def isSpecial (name : Text) : Bool := Parser.reserved.contains name

/-- The names of the builtins. -/
def names : List Text :=
  Parser.reserved ++ ["echo".toList, "printf".toList, "pwd".toList, "cd".toList, "kill".toList,
    "true".toList, "false".toList, "test".toList, ['['], "read".toList, "local".toList,
    "umask".toList, "wait".toList, "type".toList, "command".toList, "hash".toList,
    "jobs".toList, "ulimit".toList, "alias".toList, "unalias".toList, "getopts".toList]

/-- Carries out a builtin that runs no further commands. -/
def run (name : Text) (arguments : List Text) : Step Nat := do
  if name = "echo".toList then
    print (Printing.echo arguments)
    return 0
  else if name = "printf".toList then printf arguments
  else if name = "pwd".toList then
    print (Utf8.encode ((← get).directory.path ++ ['\n']))
    return 0
  else if name = "cd".toList then cd arguments
  else if name = "false".toList then return 1
  else if name = "test".toList || name = ['['] then test name arguments
  else if name = "read".toList then readLine arguments
  else if name = "wait".toList then wait arguments
  else if name = "local".toList then makeLocal arguments
  else if name = "umask".toList then
    if arguments.isEmpty then print (Utf8.encode "0022\n".toList)
    return 0
  else if name = "break".toList then leave false arguments
  else if name = "continue".toList then leave true arguments
  else if name = "exit".toList then throw (.exited (← statusOf arguments))
  else if name = "return".toList then throw (.returned (← statusOf arguments))
  else if name = "set".toList then setArguments arguments
  else if name = "shift".toList then shift arguments
  else if name = "export".toList then mark (fun v => { v with exported := true }) arguments
  else if name = "readonly".toList then mark (fun v => { v with fixed := true }) arguments
  else if name = "unset".toList then unset arguments
  else if name = "trap".toList then trap arguments
  else return 0

end Builtin

end Shell

end Machine

end LoudHeaders
