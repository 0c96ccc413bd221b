import LoudHeaders.Arguments.Parser
import LoudHeaders.Gather
import LoudHeaders.LogFilter
import LoudHeaders.Report

/-
  The program as a whole.

  A run takes the arguments, the environment, the directory it starts in and the
  outside, and ends with an exit code, what it prints, and the lines it logs.
  Nothing is printed before a run is known to have succeeded. A usage error ends
  with 2, an error of the run with 1, and a date without a written form or a log
  filter that cannot be read with 101.
-/

namespace LoudHeaders

namespace CommandLine

/-- Where and how the program is run. The filter of its log goes by the names of
the topics. -/
structure Setting where
  arguments : List Text
  environment : List (Text × Text)
  logFilter : Option Text
  topicName : Topic → Text
  directory : Text
  processors : Nat

/-- How a run ended. -/
structure Outcome where
  exitCode : Nat
  output : Text
  error : Text
  deriving DecidableEq, Repr

/-- The name and version of the program. -/
def versionLine : Text := "hpp-ray 0.1.0\n".toList

/-- How the program is used. -/
def usageLine : Text := "Usage: hpp-ray <gather-deps|gather-changes> [OPTIONS] ...\n".toList

/-- The options of a run that gathers headers, made absolute. -/
def gatherOptions (directory : Text) (processors : Nat) (a : DepsArguments) : GatherOptions where
  binary :=
    match a.ninjaBinary with
    | some path => Path.absolutize directory path
    | none => "ninja".toList
  buildDirectory := Path.absolutize directory a.buildDir
  targets := if a.targets.isEmpty then ["all".toList] else a.targets
  database := a.compileCommands.map (Path.absolutize directory)
  jobs := a.jobs.getD processors
  progress := !a.noProgress

/-- The history to weigh by, if commits are to be compared. -/
def weighting (options : GatherOptions) (a : DepsArguments) : Option Weighting :=
  a.numCommits.map fun commits =>
    { repository := a.repo.getD options.buildDirectory, commits }

/-- Gathers headers and gives what is printed. -/
def runDeps (world : World) (v : Verbosity) (directory : Text) (processors : Nat)
    (a : DepsArguments) : Session Text := do
  if a.targets.isEmpty then
    Session.log .program .warn "No targets were specified, assuming `all`.".toList
  let options := gatherOptions directory processors a
  let weights := weighting options a
  let (report, ranking) ← Gather.loudestHeaders world v options weights a.numFiles
  if report.index.isEmpty then
    Session.log .program .warn
      ("No dependencies were gathered for ".toList ++ BuildInputs.targetList options.targets)
  Session.log .program .info
    ("Mapped ".toList ++ Text.ofNat report.index.size ++ " headers from ".toList ++
      Text.ofNat (report.selected - report.failed) ++ " of ".toList ++ Text.ofNat report.total ++
      " compile commands (".toList ++ Text.ofNat report.failed ++ " failed)".toList)
  let meaning : Report.Meaning := if weights.isSome then .recompilations else .targets
  return Report.print a.format meaning ranking

/-- Counts changes and gives what is printed. -/
def runChanges (world : World) (v : Verbosity) (a : ChangesArguments) : Session Text := do
  let found ← Git.gatherChanges v world.findRepository a.dir a.maxCommits
  return Report.print a.format .changes (Ranking.rankChanges found.counts a.numFiles)

/-- Does what is asked for and gives what is printed; `v` is what is shown of the
history. -/
def perform (world : World) (setting : Setting) (v : Verbosity) : Request → Session Text
  | .gatherDeps a => runDeps world v setting.directory setting.processors a
  | .gatherChanges a => runChanges world v a

/-- The log of a run: its events as lines, as far as they are to be shown. -/
def logged (shown : Topic → Verbosity) (events : List Event) : Text :=
  let lines := events.filterMap Event.toLine?
  (lines.filter fun l => (shown l.topic).shows l.level).flatMap Report.logText

/-- The line about how long a run took; `<t>` stands for the time. -/
def totalLine : LogLine := ⟨.program, .info, "Total time: <t>".toList⟩

/-- How a run ends whose arguments were understood. -/
def conclude (shown : Topic → Verbosity) (run : Traced (Except Failure Text)) : Outcome :=
  match run.value with
  | .ok output => ⟨0, output, logged shown (run.events ++ [.logged totalLine])⟩
  | .error (.error e) => ⟨1, [], logged shown run.events ++ Report.fatal e⟩
  | .error .unwritableDate => ⟨101, [], logged shown run.events⟩
  | .error .scoreTooLarge => ⟨101, [], logged shown run.events⟩

/-- How a run ends whose arguments are no request. -/
def refuse : Refusal → Outcome
  | .displayHelp => ⟨0, usageLine, []⟩
  | .displayVersion => ⟨0, versionLine, []⟩
  | _ => ⟨2, [], usageLine⟩

/-- Runs the program. -/
def run (world : World) (setting : Setting) : Outcome :=
  match LogFilter.verbosity? setting.topicName setting.logFilter with
  | none => ⟨101, [], []⟩
  | some shown =>
    match Arguments.parse setting.environment setting.arguments with
    | .error refusal => refuse refusal
    | .ok request => conclude shown (perform world setting (shown .history) request).run

end CommandLine

end LoudHeaders
