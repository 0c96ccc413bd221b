import Mathlib.Order.WellFounded
import LoudHeaders.CommandLine
import LoudHeaders.Proofs.Gather.Account
import LoudHeaders.Proofs.Git.Ending

/-
  Runs that fail, and what they have called by then.

  Four things have to go well before the first compile command is called for: the walk
  along the history, if the ranking is weighted; reading the compile database; the build
  tool's version; and its answer to the query for inputs. They are the stages of a run,
  in this order. Whether a stage goes well is said of the stage alone (`Stage.Passes`,
  `Stage.Fails`), so several can be broken at once.

    1. `ends_of_firstToFail`: the first stage that fails ends the run with its error, and
       the calls made by then are those of the stages up to it.
    2. `loudestHeaders_ends`: where all stages pass, a score that is too large for a word
       is all that can still go wrong, and that is no error.
    3. `fails_before_compiling`: so a run ends with an error exactly if that is the error
       of its first broken stage. No compiler has been called by then, and the program
       prints nothing.

  Of the runner, the error of a run depends on the answers to the two queries alone. Their
  arguments are different, so that any two answers are those of some runner
  (`exists_runner`), even if they were given by one that remembers what it was asked.
-/

namespace LoudHeaders

namespace Gather

open Session (Ends)
open BuildInputs (Answers Recent Refused inputsCall pathsOf targetList versionCall)
open CompileCommand (dependencyCall select)

/-- What the build tool answers when it is asked for the inputs. -/
def inputsAnswer (run : Runner) (options : GatherOptions) : Except RunError Text :=
  run (inputsCall options.binary options.buildDirectory options.targets).argv
    (inputsCall options.binary options.buildDirectory options.targets).cwd

/-- What has to go well before compile commands are handled. -/
inductive Stage where
  | history
  | database
  | version
  | inputs
  deriving DecidableEq, Repr

namespace Stage

/-- The place of a stage in the order of stages. -/
def place : Stage → Nat
  | history => 0
  | database => 1
  | version => 2
  | inputs => 3

/-- The calls made up to a stage, its own included. -/
def calls (options : GatherOptions) : Stage → List Call
  | history => []
  | database => []
  | version => [versionCall options.binary]
  | inputs => queries options

/-- A stage goes well, whatever the others do. -/
def Passes (world : World) (verbosity : Verbosity) (options : GatherOptions)
    (weighting : Option Weighting) : Stage → Prop
  | history => ∀ w, weighting = some w → ∃ found,
      (Git.gatherChanges verbosity world.findRepository w.repository (some w.commits)).run.value =
        .ok found
  | database => ∃ commands, Loads world options commands
  | version => Recent world.runner options.binary
  | inputs => ∃ output, inputsAnswer world.runner options = .ok output

/-- A stage fails with an error, whatever the others do. -/
def Fails (world : World) (verbosity : Verbosity) (options : GatherOptions)
    (weighting : Option Weighting) : Stage → Error → Prop
  | history, e => ∃ w, weighting = some w ∧
      (Git.gatherChanges verbosity world.findRepository w.repository (some w.commits)).run.value =
        .error (.error e)
  | database, e =>
      (∃ cause, world.readText (databasePath options) = .error cause ∧
        e = .databaseRead (databasePath options) cause) ∨
      ∃ text cause, world.readText (databasePath options) = .ok text ∧
        CompileDatabase.parse text = .error cause ∧ e = .databaseParse (databasePath options) cause
  | version, e => Refused world.runner options.binary e
  | inputs, e => ∃ cause, inputsAnswer world.runner options = .error cause ∧
      e = .resolver (targetList options.targets) cause

/-- Queries run where the program runs, and compilers in the directory of a command. -/
theorem dependencyCall_notMem_calls (options : GatherOptions) (stage : Stage)
    (c : CompileCommand) : dependencyCall c ∉ stage.calls options := by
  cases stage <;> simp [calls, queries, versionCall, inputsCall, dependencyCall]

end Stage

section Run

variable {world : World} {verbosity : Verbosity} {options : GatherOptions}
  {weighting : Option Weighting} {n : Nat}

/-- A stage fails, and all stages before it pass. -/
structure FirstToFail (world : World) (verbosity : Verbosity) (options : GatherOptions)
    (weighting : Option Weighting) (stage : Stage) (e : Error) : Prop where
  fails : stage.Fails world verbosity options weighting e
  earlier : ∀ s : Stage, s.place < stage.place → s.Passes world verbosity options weighting

/-! ## One stage -/

theorem changes_some {w : Weighting} {found : Git.Statistics}
    (h : (Git.gatherChanges verbosity world.findRepository w.repository
      (some w.commits)).run.value = .ok found) :
    Ends (changes world verbosity (some w)) [] (.ok (some found.counts)) :=
  Ends.bind_silent ⟨Git.quiet_gatherChanges _ _ _ _, h⟩ (Ends.pure _)

theorem changes_error {w : Weighting} {failure : Failure}
    (h : (Git.gatherChanges verbosity world.findRepository w.repository
      (some w.commits)).run.value = .error failure) :
    Ends (changes world verbosity (some w)) [] (.error failure) :=
  Ends.bind_error ⟨Git.quiet_gatherChanges _ _ _ _, h⟩

theorem changes_of_passes (h : Stage.history.Passes world verbosity options weighting) :
    ∃ counts, Ends (changes world verbosity weighting) [] (.ok counts) := by
  cases weighting with
  | none => exact ⟨none, Ends.pure none⟩
  | some w =>
    obtain ⟨found, hfound⟩ := h w rfl
    exact ⟨_, changes_some hfound⟩

theorem load_error {e : Error} (h : Stage.database.Fails world verbosity options weighting e) :
    Ends (load world (databasePath options)) [] (.error (.error e)) := by
  rcases h with ⟨cause, htext, rfl⟩ | ⟨text, cause, htext, hparse, rfl⟩
  · exact Ends.bind_error (Ends.ofExcept_error _ htext)
  · exact Ends.bind_silent (Ends.ofExcept _ htext) (Ends.ofExcept_error _ hparse)

/-- Up to the query for inputs, commands that have been read call nothing. -/
theorem fromCommands_error {run : Runner} {calls : List Call} {failure : Failure}
    (h : Ends (BuildInputs.targetInputs run options.binary options.buildDirectory options.targets)
      calls (.error failure)) (commands : List CompileCommand) :
    Ends (fromCommands run options commands) calls (.error failure) := by
  refine Ends.bind_silent (Ends.log _ _ _) ?_
  refine Ends.bind_silent (Ends.forM_log _ _ _ _) ?_
  exact Ends.bind_error h

/-- A stage passes or fails, unless a date is in the way of the first. -/
theorem stage_cases (world : World) (verbosity : Verbosity) (options : GatherOptions)
    (weighting : Option Weighting) (stage : Stage) :
    stage.Passes world verbosity options weighting ∨
    (∃ e, stage.Fails world verbosity options weighting e) ∨
    Ends (changes world verbosity weighting) [] (.error .unwritableDate) := by
  cases stage with
  | history =>
    cases weighting with
    | none => exact .inl fun w hw => by cases hw
    | some w =>
      rcases Git.gatherChanges_cases verbosity world.findRepository w.repository
        (some w.commits) with ⟨_, _, _, _, hvalue⟩ | ⟨_, _, _, _, hvalue⟩ | ⟨e, hvalue⟩
      · refine .inl fun w' hw => ?_
        obtain rfl := Option.some.inj hw
        exact ⟨_, hvalue⟩
      · exact .inr (.inr (changes_error hvalue))
      · exact .inr (.inl ⟨e, w, rfl, hvalue⟩)
  | database =>
    cases htext : world.readText (databasePath options) with
    | error cause => exact .inr (.inl ⟨_, .inl ⟨cause, htext, rfl⟩⟩)
    | ok text =>
      cases hparse : CompileDatabase.parse text with
      | error cause => exact .inr (.inl ⟨_, .inr ⟨text, cause, htext, hparse, rfl⟩⟩)
      | ok commands => exact .inl ⟨commands, text, htext, hparse⟩
  | version =>
    rcases BuildInputs.recent_or_refused world.runner options.binary with hrecent | hrefused
    · exact .inl hrecent
    · exact .inr (.inl hrefused)
  | inputs =>
    cases hanswer : inputsAnswer world.runner options with
    | error cause => exact .inr (.inl ⟨_, cause, hanswer, rfl⟩)
    | ok output => exact .inl ⟨output, hanswer⟩

/-! ## The stages in their order -/

/-- **The first stage that fails ends the run.** -/
theorem ends_of_firstToFail {stage : Stage} {e : Error}
    (h : FirstToFail world verbosity options weighting stage e) :
    Ends (loudestHeaders world verbosity options weighting n) (stage.calls options)
      (.error (.error e)) := by
  obtain ⟨hfails, hearlier⟩ := h
  cases stage with
  | history =>
    obtain ⟨w, rfl, hvalue⟩ := hfails
    exact Ends.bind_error (changes_error hvalue)
  | database =>
    obtain ⟨counts, hcounts⟩ := changes_of_passes (hearlier .history (by decide))
    refine Ends.bind_silent hcounts ?_
    exact Ends.bind_error (Ends.bind_error (load_error hfails))
  | version =>
    obtain ⟨counts, hcounts⟩ := changes_of_passes (hearlier .history (by decide))
    obtain ⟨commands, hloads⟩ := hearlier .database (by decide)
    refine Ends.bind_silent hcounts (Ends.bind_error (Ends.bind_silent hloads.ends ?_))
    exact fromCommands_error (BuildInputs.targetInputs_refused hfails _ _) commands
  | inputs =>
    obtain ⟨counts, hcounts⟩ := changes_of_passes (hearlier .history (by decide))
    obtain ⟨commands, hloads⟩ := hearlier .database (by decide)
    have hrecent := hearlier .version (by decide)
    obtain ⟨cause, hanswer, rfl⟩ := hfails
    refine Ends.bind_silent hcounts (Ends.bind_error (Ends.bind_silent hloads.ends ?_))
    exact fromCommands_error (BuildInputs.targetInputs_unanswered hrecent hanswer) commands

/-- What a run makes of its report: a ranking, unless a score is no word. -/
def ranked (report : GatherReport) (counts : Option ChangeCounts) (n : Nat) :
    Except Failure (GatherReport × List RankEntry) :=
  match Ranking.rank report.index counts n with
  | some ranking => .ok (report, ranking)
  | none => .error .scoreTooLarge

theorem ranked_ends (report : GatherReport) (counts : Option ChangeCounts) (n : Nat) :
    Ends (match Ranking.rank report.index counts n with
      | some ranking => pure (report, ranking)
      | none => throw .scoreTooLarge) [] (ranked report counts n) := by
  unfold ranked
  cases Ranking.rank report.index counts n with
  | some ranking => exact Ends.pure _
  | none => exact Ends.throw _

theorem ranked_eq_ok_iff {report report' : GatherReport} {counts : Option ChangeCounts}
    {ranking : List RankEntry} :
    ranked report counts n = .ok (report', ranking) ↔
      report = report' ∧ Ranking.rank report.index counts n = some ranking := by
  unfold ranked
  cases Ranking.rank report.index counts n with
  | none => simp
  | some found => simp

/-- **Where all stages pass, the commands are handled and the headers ranked.** -/
theorem loudestHeaders_ends {counts : Option ChangeCounts} {commands : List CompileCommand}
    {output : Text} (hcounts : Ends (changes world verbosity weighting) [] (.ok counts))
    (hloads : Loads world options commands)
    (hanswers : Answers world.runner options.binary options.buildDirectory options.targets output) :
    let kept := select commands (pathsOf options.buildDirectory output)
    Ends (loudestHeaders world verbosity options weighting n)
      (queries options ++ kept.map dependencyCall)
      (ranked (reportOn world.runner commands kept) counts n) := by
  intro kept
  have hgather := (gathers_of_ends (fromCommands_ends hanswers commands)).gather world rfl hloads
  refine Ends.bind_silent hcounts ?_
  rw [← List.append_nil (queries options ++ kept.map dependencyCall)]
  exact Ends.bind hgather (ranked_ends _ counts n)

/-- All stages of a run pass, or a date is in the way of the first, or there is a first
stage that fails. -/
theorem run_cases (world : World) (verbosity : Verbosity) (options : GatherOptions)
    (weighting : Option Weighting) :
    (∀ stage : Stage, stage.Passes world verbosity options weighting) ∨
    Ends (changes world verbosity weighting) [] (.error .unwritableDate) ∨
    ∃ stage e, FirstToFail world verbosity options weighting stage e := by
  by_cases hall : ∀ stage : Stage, stage.Passes world verbosity options weighting
  · exact .inl hall
  obtain ⟨stage, hstage, hearlier⟩ := WellFounded.has_min (measure Stage.place).wf
    {s : Stage | ¬s.Passes world verbosity options weighting} (not_forall.mp hall)
  rcases stage_cases world verbosity options weighting stage with hpasses | ⟨e, he⟩ | hdate
  · exact absurd hpasses hstage
  · refine .inr (.inr ⟨stage, e, he, fun s hs => ?_⟩)
    exact not_not.mp fun hs' => hearlier s hs' hs
  · exact .inr (.inl hdate)

/-- Where all stages pass, there is all that a ranking needs. -/
theorem answers_of_passes
    (h : ∀ stage : Stage, stage.Passes world verbosity options weighting) :
    ∃ counts commands output, Ends (changes world verbosity weighting) [] (.ok counts) ∧
      Loads world options commands ∧
      Answers world.runner options.binary options.buildDirectory options.targets output := by
  obtain ⟨counts, hcounts⟩ := changes_of_passes (h .history)
  obtain ⟨commands, hloads⟩ := h .database
  obtain ⟨output, hanswer⟩ := h .inputs
  exact ⟨counts, commands, output, hcounts, hloads, h .version, hanswer⟩

/-- A date that is in the way of the walk ends the run, and that is no error. -/
theorem value_of_unwritable (n : Nat)
    (h : Ends (changes world verbosity weighting) [] (.error .unwritableDate)) :
    (loudestHeaders world verbosity options weighting n).run.value = .error .unwritableDate :=
  (Ends.bind_error h).value_eq

/-- Only where all stages pass does a run succeed. -/
theorem passes_of_value_eq_ok {result : GatherReport × List RankEntry}
    (h : (loudestHeaders world verbosity options weighting n).run.value = .ok result)
    (stage : Stage) : stage.Passes world verbosity options weighting := by
  rcases run_cases world verbosity options weighting with hall | hdate | ⟨_, _, hfirst⟩
  · exact hall stage
  · cases h.symm.trans (value_of_unwritable n hdate)
  · have hvalue := (ends_of_firstToFail (n := n) hfirst).value_eq
    cases h.symm.trans hvalue

/-- A run ends with an error exactly if that is the error of its first stage that
fails. -/
theorem value_eq_error_iff {e : Error} :
    (loudestHeaders world verbosity options weighting n).run.value = .error (.error e) ↔
      ∃ stage, FirstToFail world verbosity options weighting stage e := by
  constructor
  · intro h
    rcases run_cases world verbosity options weighting with hall | hdate | ⟨stage, e', hfirst⟩
    · obtain ⟨counts, commands, output, hcounts, hloads, hanswers⟩ := answers_of_passes hall
      have hvalue := (loudestHeaders_ends (n := n) hcounts hloads hanswers).value_eq
      rw [h] at hvalue
      unfold ranked at hvalue
      split at hvalue
      · cases hvalue
      · cases hvalue
    · cases h.symm.trans (value_of_unwritable n hdate)
    · have hvalue := (ends_of_firstToFail (n := n) hfirst).value_eq
      cases h.symm.trans hvalue
      exact ⟨stage, hfirst⟩
  · rintro ⟨stage, hfirst⟩
    exact (ends_of_firstToFail hfirst).value_eq

/-! ## The program -/

/-- What the program does besides calls nothing. -/
theorem runDeps_error {directory : Text} {processors : Nat} {a : DepsArguments} {calls : List Call}
    {failure : Failure}
    (h : Ends (loudestHeaders world verbosity (CommandLine.gatherOptions directory processors a)
      (CommandLine.weighting (CommandLine.gatherOptions directory processors a) a) a.numFiles)
      calls (.error failure)) :
    Ends (CommandLine.runDeps world verbosity directory processors a) calls (.error failure) := by
  unfold CommandLine.runDeps
  split
  · exact Ends.bind_silent (Ends.log _ _ _) (Ends.bind_error h)
  · exact Ends.bind_error h

theorem run_of_error {setting : CommandLine.Setting} {shown : Topic → Verbosity}
    {request : Request} {e : Error}
    (hshown : LogFilter.verbosity? setting.topicName setting.logFilter = some shown)
    (hparse : Arguments.parse setting.environment setting.arguments = .ok request)
    (h : (CommandLine.perform world setting (shown .history) request).run.value =
      .error (.error e)) :
    (CommandLine.run world setting).exitCode = 1 ∧ (CommandLine.run world setting).output = [] := by
  have hrun : CommandLine.run world setting = CommandLine.conclude shown
      (CommandLine.perform world setting (shown .history) request).run := by
    simp only [CommandLine.run, hshown, hparse]
  rw [hrun, CommandLine.conclude, h]
  exact ⟨rfl, rfl⟩

/-- Any two answers to the queries are those of some runner, since one query has two words
and the other has more. -/
theorem exists_runner (options : GatherOptions) (version inputs : Except RunError Text) :
    ∃ run : Runner,
      run (versionCall options.binary).argv (versionCall options.binary).cwd = version ∧
      inputsAnswer run options = inputs := by
  refine ⟨fun argv _ => if argv.length = 2 then version else inputs, rfl, ?_⟩
  have hmore :
      (inputsCall options.binary options.buildDirectory options.targets).argv.length ≠ 2 := by
    simp [inputsCall]
  rw [inputsAnswer, if_neg hmore]

/-- **A run that ends with an error has called no compiler, and the program prints
nothing.** -/
theorem fails_before_compiling (world : World) (verbosity : Verbosity) (options : GatherOptions)
    (weighting : Option Weighting) (n : Nat) :
    (∀ e, (loudestHeaders world verbosity options weighting n).run.value = .error (.error e) ↔
      ∃ stage, FirstToFail world verbosity options weighting stage e) ∧
    (∀ stage e, FirstToFail world verbosity options weighting stage e →
      (loudestHeaders world verbosity options weighting n).run.calls = stage.calls options ∧
      ∀ c, dependencyCall c ∉ stage.calls options) ∧
    (∀ version inputs, ∃ run : Runner,
      run (versionCall options.binary).argv (versionCall options.binary).cwd = version ∧
      inputsAnswer run options = inputs) ∧
    ∀ (setting : CommandLine.Setting) (shown : Topic → Verbosity) (a : DepsArguments) (e : Error),
      LogFilter.verbosity? setting.topicName setting.logFilter = some shown →
      Arguments.parse setting.environment setting.arguments = .ok (.gatherDeps a) →
      shown .history = verbosity →
      CommandLine.gatherOptions setting.directory setting.processors a = options →
      CommandLine.weighting options a = weighting → a.numFiles = n →
      (loudestHeaders world verbosity options weighting n).run.value = .error (.error e) →
      (CommandLine.run world setting).exitCode = 1 ∧ (CommandLine.run world setting).output = [] ∧
      (CommandLine.perform world setting verbosity (.gatherDeps a)).run.calls =
        (loudestHeaders world verbosity options weighting n).run.calls := by
  refine ⟨fun e => value_eq_error_iff, fun stage e hfirst => ⟨?_, fun c => ?_⟩,
    exists_runner options, ?_⟩
  · exact (ends_of_firstToFail hfirst).calls_eq
  · exact stage.dependencyCall_notMem_calls options c
  · rintro setting shown a e hshown hparse rfl rfl rfl rfl hvalue
    have hends := runDeps_error ⟨rfl, hvalue⟩
    obtain ⟨hcode, houtput⟩ := run_of_error hshown hparse hends.value_eq
    exact ⟨hcode, houtput, hends.calls_eq⟩

end Run

/-- A history of one commit, and otherwise no file to read and no program to call. -/
def barren : World where
  readText := fun _ => .error .notText
  findRepository := Git.singleCommit 0
  runner := fun _ _ => .error .emptyCommand

/-- The error of a build tool that knows no target. -/
def unknownTarget : RunError := .failed "ninja".toList "exit status: 1".toList []

/-- A history of one commit, three compile commands, and a build tool that is recent enough
and then knows no target. -/
def stalled : World where
  readText := fun _ => .ok threeCommands
  findRepository := Git.singleCommit 0
  runner := fun argv _ =>
    match argv with
    | [_, _] => .ok "1.11.0".toList
    | _ => .error unknownTarget

/-- The program is started in the root directory to weigh the headers of `b` by one
commit. -/
def weighingOne : CommandLine.Setting where
  arguments := ["gather-deps".toList, "-c".toList, ['1'], "--repo".toList, ['/'], ['b']]
  environment := []
  logFilter := none
  topicName := fun _ => []
  directory := ['/']
  processors := 1

/-- What its arguments say. -/
def weighingOneArguments : DepsArguments :=
  ⟨none, 10, some 1, some ['/'], none, none, .text, false, ['b'], []⟩

/-- What the program is asked to look at. -/
def weighingOneOptions : GatherOptions :=
  ⟨"ninja".toList, ['/', 'b'], ["all".toList], none, 1, true⟩

/-- The history of one commit is no reason to fail. -/
theorem history_passes_singleCommit {world : World}
    (h : world.findRepository = Git.singleCommit 0) :
    Stage.history.Passes world (.upTo .info) weighingOneOptions (some ⟨['/'], 1⟩) := by
  have hdates : ∀ c ∈ [Git.commitAt 0], Date.spell c.time ≠ .unwritable := by decide
  have hcovers := Git.covers_singleCommit 0 (some 1)
  intro w hw
  obtain rfl := Option.some.inj hw
  rw [h]
  exact ⟨_, (Git.value_of_covers hcovers).1 (Git.not_stumbles hdates)⟩

theorem firstToFail_barren :
    FirstToFail barren (.upTo .info) weighingOneOptions (some ⟨['/'], 1⟩) .database
      (.databaseRead (databasePath weighingOneOptions) .notText) := by
  refine ⟨.inl ⟨.notText, rfl, rfl⟩, fun s hs => ?_⟩
  cases s with
  | history => exact history_passes_singleCommit rfl
  | database => exact absurd hs (by decide)
  | version => exact absurd hs (by decide)
  | inputs => exact absurd hs (by decide)

theorem firstToFail_stalled :
    FirstToFail stalled (.upTo .info) weighingOneOptions (some ⟨['/'], 1⟩) .inputs
      (.resolver "all".toList unknownTarget) := by
  refine ⟨⟨unknownTarget, rfl, rfl⟩, fun s hs => ?_⟩
  cases s with
  | history => exact history_passes_singleCommit rfl
  | database => exact ⟨_, threeCommands, rfl, rfl⟩
  | version => exact ⟨"1.11.0".toList, rfl, by decide⟩
  | inputs => exact absurd hs (by decide)

/-- In one world the build tool is broken as well, but the compile database comes first. In
the other the build tool is asked twice. -/
theorem fails_before_compiling_barren :
    let path := databasePath weighingOneOptions
    let run := loudestHeaders barren (.upTo .info) weighingOneOptions (some ⟨['/'], 1⟩) 10
    let later := loudestHeaders stalled (.upTo .info) weighingOneOptions (some ⟨['/'], 1⟩) 10
    run.run.value = .error (.error (.databaseRead path .notText)) ∧ run.run.calls = [] ∧
    Refused barren.runner weighingOneOptions.binary (.resolver "--version".toList .emptyCommand) ∧
    (CommandLine.run barren weighingOne).exitCode = 1 ∧
    (CommandLine.run barren weighingOne).output = [] ∧
    later.run.value = .error (.error (.resolver "all".toList unknownTarget)) ∧
    later.run.calls = [
      ⟨["ninja".toList, "--version".toList], none⟩,
      ⟨["ninja".toList, "-C".toList, ['/', 'b'], "-t".toList, "inputs".toList, "all".toList],
        none⟩] ∧
    (CommandLine.run stalled weighingOne).exitCode = 1 ∧
    (CommandLine.run stalled weighingOne).output = [] := by
  intro path run later
  obtain ⟨herror, hcalls, _, hprogram⟩ :=
    fails_before_compiling barren (.upTo .info) weighingOneOptions (some ⟨['/'], 1⟩) 10
  have hvalue := (herror _).mpr ⟨_, firstToFail_barren⟩
  obtain ⟨hcode, houtput, _⟩ := hprogram weighingOne (fun _ => .upTo .info) weighingOneArguments _
    rfl rfl rfl rfl rfl rfl hvalue
  obtain ⟨herror', hcalls', _, hprogram'⟩ :=
    fails_before_compiling stalled (.upTo .info) weighingOneOptions (some ⟨['/'], 1⟩) 10
  have hvalue' := (herror' _).mpr ⟨_, firstToFail_stalled⟩
  obtain ⟨hcode', houtput', _⟩ := hprogram' weighingOne (fun _ => .upTo .info)
    weighingOneArguments _ rfl rfl rfl rfl rfl rfl hvalue'
  exact ⟨hvalue, (hcalls _ _ firstToFail_barren).1, .inl ⟨_, rfl, rfl⟩, hcode, houtput,
    hvalue', (hcalls' _ _ firstToFail_stalled).1, hcode', houtput'⟩

end Gather

end LoudHeaders
