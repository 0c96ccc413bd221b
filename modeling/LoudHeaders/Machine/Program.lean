import LoudHeaders.Gather
import LoudHeaders.Machine.Repositories
import LoudHeaders.Machine.Shell.Run
import LoudHeaders.Text.Blank

/-
  Programs, and the machine they are started on.

  A program answers its arguments: by a table of rules, or as one of a few
  well-known utilities. Starting one fails on a zero byte in what it is given, then
  on the working directory, then on finding and loading the program. The machine
  provides everything a run needs from the outside; what theorems need of it is that
  it refuses no call as empty but the empty one.
-/

namespace LoudHeaders

namespace Machine

/-- A rule for a program that answers by a table. It applies when `has` is one of
the arguments. -/
structure Rule where
  has : Text
  output : Text
  error : Text
  status : Option Int
  refusal : Option SystemError
  deriving DecidableEq, Repr

namespace Rule

/-- The first rule that applies to the arguments behind the program's name. -/
def find? (rules : List Rule) (argv : List Text) : Option Rule :=
  rules.find? fun rule => argv.tail.contains rule.has

/-- What a program without a rule says. -/
def noRule : Text := "no rule".toList

/-- The status of a program without a rule. -/
def noRuleStatus : Nat := 127

/-- A runner that answers by rules, without starting anything. -/
def runner (rules : List Rule) : Runner := fun argv _ =>
  match argv with
  | [] => .error .emptyCommand
  | program :: _ =>
    match find? rules argv with
    | none => .error (.failed program (Status.exitText noRuleStatus) noRule)
    | some rule =>
      match rule.refusal, rule.status with
      | some e, _ => .error (.start program (.refused e))
      | none, some code => .error (.failed program (Status.exitText code) rule.error)
      | none, none => .ok rule.output

/-- A process that answers by rules. Of its status eight bits are passed on. -/
def process (rules : List Rule) (argv : List Text) : Finished :=
  match find? rules argv with
  | none => ⟨.exited noRuleStatus, [], Utf8.encode (noRule ++ ['\n'])⟩
  | some rule =>
    let code := ((rule.status.getD 0) % 256).toNat
    ⟨.exited code, Utf8.encode rule.output, Utf8.encode rule.error⟩

end Rule

/-- The programs a machine can hold. -/
inductive Program where
  | table (rules : List Rule)
  | utility (u : Utility)
  deriving DecidableEq, Repr

/-- What a shell needs to know of programs: the utilities and where they are. -/
def utilities (programs : List (Place × Program)) : List (Place × Utility) :=
  programs.filterMap fun entry =>
    match entry.2 with
    | .utility u => some (entry.1, u)
    | .table _ => none

end Machine

open Machine in
/-- A machine: what is on its disk, the objects of repositories and the programs by
place, where programs are looked for, and the directory a run starts in. -/
structure Machine where
  files : FileTree
  objects : List (Place × Git.Objects)
  programs : List (Place × Program)
  searchPath : List Place
  directory : Place

namespace Machine

/-- The bytes a program's file is taken to hold, which are no text. -/
def programBytes : List UInt8 := [0x7F, 0x45, 0x4C, 0x46, 0xFF]

/-- What is on the disk, the files of the programs included. -/
def tree (m : Machine) : FileTree :=
  m.files ++ m.programs.map fun entry => (entry.1, .file programBytes)

/-- The program at a place. -/
def programAt? (m : Machine) (place : Place) : Option Program :=
  (m.programs.find? fun entry => entry.1 == place).map (·.2)

/-- The program at a place, or the refusal to run what is there. -/
def executable (m : Machine) (place : Place) : Except SystemError Program :=
  match m.programAt? place with
  | some program => .ok program
  | none => .error .permissionDenied

/-- The program that a name stands for in one directory. -/
def programIn (m : Machine) (name : Text) (place : Place) : Except SystemError Program :=
  ((place ++ [name]).foldlM m.tree.descend []).bind m.executable

/-- Looks for a program by name in one directory after the other; `refusal` is
what stands if none has it. The last refusal counts, but one to run something
that is there stays. -/
def search (m : Machine) (name : Text) (refusal : SystemError) :
    List Place → Except SystemError Program
  | [] => .error refusal
  | place :: rest =>
    match m.programIn name place with
    | .ok program => .ok program
    | .error e =>
      m.search name (if refusal = .permissionDenied then refusal else e) rest

/-- The program a name stands for: a path if there is a slash in it, otherwise
one to be looked for. -/
def locate (m : Machine) (directory : Place) (name : Text) : Except SystemError Program :=
  if name.isEmpty then .error .notFound
  else if name.contains '/' then (m.tree.resolve directory name).bind m.executable
  else if FileTree.maxName < Text.byteSize name then .error .nameTooLong
  else m.search name .notFound m.searchPath

/-- Runs a program to its end. -/
def finish (m : Machine) (directory : Place) (argv : List Text) : Program → Finished
  | .table rules => Rule.process rules argv
  | .utility .shell =>
    Shell.process m.tree (utilities m.programs) m.searchPath directory argv
  | .utility u =>
    let effect := u.run m.tree directory [] argv.tail
    ⟨.exited effect.status, effect.output, effect.error⟩

/-- The longest argument, in bytes. -/
def maxArgument : Nat := 131071

/-- The directory a program is started in. -/
def workingPlace (m : Machine) : Option Text → Except SystemError Place
  | none => .ok m.directory
  | some path =>
    match m.tree.resolve m.directory path with
    | .error e => .error e
    | .ok place => if m.tree.isDirectory place then .ok place else .error .notDirectory

/-- Whether a zero byte stands in an argument or in the working directory. -/
def hasZero (argv : List Text) (cwd : Option Text) : Bool :=
  argv.any (·.contains '\x00') || (cwd.getD []).contains '\x00'

/-- Runs a program to its end, or says why it could not be started. -/
def start (m : Machine) (program : Text) (argv : List Text) (cwd : Option Text) :
    Except StartFailure Finished :=
  if hasZero argv cwd then .error .zeroInArgument
  else
    let started : Except SystemError Finished := do
      let directory ← m.workingPlace cwd
      let found ← m.locate directory program
      if argv.any fun a => maxArgument < Text.byteSize a then throw .listTooLong
      return m.finish directory argv found
    started.mapError .refused

/-- The output of a program that ended well, or why there is none. -/
def runner (m : Machine) : Runner := fun argv cwd =>
  match argv with
  | [] => .error .emptyCommand
  | program :: _ =>
    match m.start program argv cwd with
    | .error cause => .error (.start program cause)
    | .ok finished =>
      if finished.status = .exited 0 then .ok (Utf8.decodeLossy finished.output)
      else .error
        (.failed program finished.status.text (Text.trim (Utf8.decodeLossy finished.error)))

/-- The machine as a run sees it; `run` answers its calls. -/
def worldWith (m : Machine) (run : Runner) : World where
  readText := m.tree.readText m.directory
  findRepository := Repositories.find m.tree m.objects m.directory
  runner := run

/-- The machine as a run sees it. -/
def world (m : Machine) : World := m.worldWith m.runner

end Machine

end LoudHeaders
