import LoudHeaders.BuildInputs
import LoudHeaders.CompileDatabase.Reader
import LoudHeaders.Git.History
import LoudHeaders.Ranking

/-
  Gathering the headers of a build and ranking them.

  The compile database is read, the build tool says which files the targets
  need, and the compiler is asked for the dependencies of each selected command.
  A command without an answer is logged and counted, and leaves no trace in the
  index. When the ranking is weighted, the history is walked before anything
  else, so an unusable repository ends the run before any program is called.

  The selected commands are handled one after the other here, as a run of one job
  does. With more jobs the order is not settled; what all orders have in common is
  said in Proofs/Gather/Pool.
-/

namespace LoudHeaders

/-- What a run is to look at. Whether progress is shown has no part in what is gathered, and
the number of jobs has none but in its order. -/
structure GatherOptions where
  binary : Text
  buildDirectory : Text
  targets : List Text
  database : Option Text
  jobs : Nat
  progress : Bool
  deriving DecidableEq, Repr

/-- The history to weigh by: a directory of the repository and how many commits
to compare. -/
structure Weighting where
  repository : Text
  commits : Nat
  deriving DecidableEq, Repr

/-- The outside as a run sees it: files as text, repositories, programs. -/
structure World where
  readText : Text → Except ReadFailure Text
  findRepository : Git.Finder
  runner : Runner

/-- What a run found. -/
structure GatherReport where
  index : HeaderIndex
  total : Nat
  selected : Nat
  failed : Nat

/-- The index and the number of failures so far. -/
structure Progress where
  index : HeaderIndex
  failed : Nat

namespace Progress

/-- Nothing gathered. -/
def start : Progress := ⟨.empty, 0⟩

/-- Takes up the result of one command: a target goes into the index, an error
is counted. -/
def finish (p : Progress) : Except ExtractError CompileTarget → Progress
  | .ok t => { p with index := p.index.add t }
  | .error _ => { p with failed := p.failed + 1 }

end Progress

namespace Gather

/-- Handles one command: asks the compiler, logs an error, takes up the result. -/
def step (run : Runner) (p : Progress) (c : CompileCommand) : Traced Progress := do
  let result ← c.extract run
  match result with
  | .ok _ => return p.finish result
  | .error e => ⟨[.logged ⟨.gathering, .error, e.message⟩], p.finish result⟩

/-- Handles the commands one after the other. -/
def steps (run : Runner) (p : Progress) : List CompileCommand → Traced Progress
  | [] => pure p
  | c :: rest => do
    let p ← step run p c
    steps run p rest

/-- The path of the compile database. -/
def databasePath (options : GatherOptions) : Text :=
  options.database.getD (Path.join options.buildDirectory CompileCommand.databaseName)

/-- Reads the compile database. -/
def load (world : World) (path : Text) : Session (List CompileCommand) := do
  let text ← Session.ofExcept (Error.databaseRead path) (world.readText path)
  Session.ofExcept (Error.databaseParse path) (CompileDatabase.parse text)

/-- Logs the source file of each command. -/
def listFiles (commands : List CompileCommand) : Session Unit :=
  commands.forM fun c => Session.log .gathering .debug c.file

/-- Gathers from commands that have been read. The selected ones are handled in the order
of the database, which is the schedule of one job and a possible schedule of any number of
jobs, so `jobs` is not read (`Pool.steps_isSchedule`); what is reported is settled by the
commands and the runner, up to order, whatever the schedule (`Pool.reports_schedule`). -/
def fromCommands (run : Runner) (options : GatherOptions) (commands : List CompileCommand) :
    Session GatherReport := do
  let total := commands.length
  Session.log .gathering .info ("Found ".toList ++ Text.ofNat total ++ " compile commands".toList)
  listFiles commands
  let inputs ← BuildInputs.targetInputs run options.binary options.buildDirectory options.targets
  let selected := CompileCommand.select commands inputs
  let count := selected.length
  Session.log .gathering .info
    (Text.ofNat count ++ " of the ".toList ++ Text.ofNat total ++
      " compile commands are required to build the requested targets.".toList)
  listFiles selected
  let p ← Session.lift (steps run .start selected)
  if p.failed != 0 then
    Session.log .gathering .info
      (Text.ofNat p.failed ++ " of ".toList ++ Text.ofNat count ++
        " compile commands were skipped, see errors above".toList)
  return { index := p.index, total, selected := count, failed := p.failed }

/-- Reads the compile database and gathers from it. -/
def gather (world : World) (options : GatherOptions) : Session GatherReport := do
  let commands ← load world (databasePath options)
  fromCommands world.runner options commands

/-- Counts the changes to weigh by, if the ranking is weighted. -/
def changes (world : World) (verbosity : Verbosity) :
    Option Weighting → Session (Option ChangeCounts)
  | none => pure none
  | some w => do
    let found ← Git.gatherChanges verbosity world.findRepository w.repository (some w.commits)
    return some found.counts

/-- Gathers the headers of a build and ranks the first `n`. -/
def loudestHeaders (world : World) (verbosity : Verbosity) (options : GatherOptions)
    (weighting : Option Weighting) (n : Nat) : Session (GatherReport × List RankEntry) := do
  let counts ← changes world verbosity weighting
  let report ← gather world options
  match Ranking.rank report.index counts n with
  | some ranking => return (report, ranking)
  | none => throw .scoreTooLarge

end Gather

end LoudHeaders
