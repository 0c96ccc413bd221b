import LoudHeaders.Proofs.BuildInputs
import LoudHeaders.Proofs.Gather.Steps

/-
  What a run over the selected commands reports.

  With a build tool that answers, a run that handles one command after the other
  cannot fail: `gathers_in_order` gives its calls and its report for every list of
  commands. The build tool is called twice and the compiler once for each selected
  command, in the order of the database. The counters and the index are those of the
  selected commands, each of which is either recorded or counted as failed
  (`Accounts`), so a command that fails leaves nothing behind: a database without it
  gives the same index.
-/

namespace LoudHeaders

namespace Gather

open Session (Ends)
open BuildInputs (Answers inputsCall pathsOf targetInputs versionCall)
open CompileCommand (answered dependencyCall outcome select)

/-- The database that a run reads lists these commands. -/
def Loads (world : World) (options : GatherOptions) (commands : List CompileCommand) : Prop :=
  ∃ text, world.readText (databasePath options) = .ok text ∧
    CompileDatabase.parse text = .ok commands

/-- Gathering from these commands makes these calls and gives this report, whether the
commands are at hand or are read from the database of a world. -/
structure Gathers (run : Runner) (options : GatherOptions) (commands : List CompileCommand)
    (calls : List Call) (report : GatherReport) : Prop where
  fromCommands : Ends (fromCommands run options commands) calls (.ok report)
  gather : ∀ world : World, world.runner = run → Loads world options commands →
    Ends (gather world options) calls (.ok report)

/-- A report on commands of which some were kept: the counters, and an index of the
targets that the kept commands gave, in their order. -/
structure Accounts (run : Runner) (commands kept : List CompileCommand)
    (report : GatherReport) : Prop where
  total : report.total = commands.length
  selected : report.selected = kept.length
  failed : report.failed = (kept.filter fun c => !answered run c).length
  index : ∃ targets : List CompileTarget,
    (kept.filter (answered run)).map (outcome run) = targets.map .ok ∧
    report.index = .ofTargets targets ∧
    report.failed + targets.length = report.selected

/-- The calls that settle which commands are selected. -/
def queries (options : GatherOptions) : List Call :=
  [versionCall options.binary, inputsCall options.binary options.buildDirectory options.targets]

/-- The report on commands of which some were kept and handled in order. -/
def reportOn (run : Runner) (commands kept : List CompileCommand) : GatherReport where
  index := (Progress.after (kept.map (outcome run))).index
  total := commands.length
  selected := kept.length
  failed := (Progress.after (kept.map (outcome run))).failed

/-- The commands with an answer are those with a target. -/
theorem outcome_answered (run : Runner) (kept : List CompileCommand) :
    (kept.filter (answered run)).map (outcome run) =
      (Progress.recorded (kept.map (outcome run))).map .ok := by
  induction kept with
  | nil => rfl
  | cons c rest ih =>
    have hok := CompileCommand.isOk_outcome run c
    cases hc : outcome run c with
    | error e =>
      have hno : ¬answered run c = true := by rw [← hok, hc]; exact Bool.false_ne_true
      rw [List.filter_cons_of_neg hno, ih, List.map_cons, hc]
      rfl
    | ok t =>
      have hyes : answered run c = true := by rw [← hok, hc]; rfl
      rw [List.filter_cons_of_pos hyes, List.map_cons, ih, List.map_cons, hc]
      rfl

theorem accounts_reportOn (run : Runner) (commands kept : List CompileCommand) :
    Accounts run commands kept (reportOn run commands kept) := by
  refine ⟨rfl, rfl, ?_, _, outcome_answered run kept, Progress.index_after _, ?_⟩
  · show (Progress.after (kept.map (outcome run))).failed = _
    rw [Progress.failed_after, List.countP_map, List.countP_eq_length_filter]
    congr 1
    apply List.filter_congr
    intro c _
    rw [Function.comp_apply, CompileCommand.isOk_outcome]
  · have hsum := Progress.recorded_add_failed (kept.map (outcome run))
    rw [List.length_map] at hsum
    rw [Nat.add_comm]
    exact hsum

theorem fromCommands_ends {run : Runner} {options : GatherOptions} {output : Text}
    (h : Answers run options.binary options.buildDirectory options.targets output)
    (commands : List CompileCommand) :
    let kept := select commands (pathsOf options.buildDirectory output)
    Ends (fromCommands run options commands) (queries options ++ kept.map dependencyCall)
      (.ok (reportOn run commands kept)) := by
  intro kept
  refine Ends.bind_silent (Ends.log _ _ _) ?_
  refine Ends.bind_silent (Ends.forM_log _ _ _ _) ?_
  refine Ends.bind (BuildInputs.targetInputs_ends h) ?_
  refine Ends.bind_silent (Ends.log _ _ _) ?_
  refine Ends.bind_silent (Ends.forM_log _ _ _ _) ?_
  rw [← steps_calls run .start kept, ← List.append_nil (steps run .start kept).calls]
  refine Ends.bind (Ends.lift _) ?_
  rw [steps_value]
  -- the closing line is logged or not, and the report is the same
  split
  · exact Ends.bind_silent (Ends.log _ _ _) (Ends.pure _)
  · exact Ends.pure _

/-- Reading the database calls nothing. -/
theorem Loads.ends {world : World} {options : GatherOptions} {commands : List CompileCommand}
    (h : Loads world options commands) :
    Ends (load world (databasePath options)) [] (.ok commands) := by
  obtain ⟨text, htext, hparse⟩ := h
  exact Ends.bind_silent (Ends.ofExcept _ htext) (Ends.ofExcept _ hparse)

theorem gathers_of_ends {run : Runner} {options : GatherOptions} {commands : List CompileCommand}
    {calls : List Call} {report : GatherReport}
    (h : Ends (fromCommands run options commands) calls (.ok report)) :
    Gathers run options commands calls report := by
  refine ⟨h, ?_⟩
  rintro world rfl hloads
  exact Ends.bind_silent hloads.ends h

/-- The commands with an answer settle the index. -/
theorem Accounts.index_eq {run : Runner} {commands kept commands' kept' : List CompileCommand}
    {report report' : GatherReport} (h : Accounts run commands kept report)
    (h' : Accounts run commands' kept' report')
    (hanswered : kept.filter (answered run) = kept'.filter (answered run)) :
    report.index = report'.index := by
  obtain ⟨targets, hmap, hindex, _⟩ := h.index
  obtain ⟨targets', hmap', hindex', _⟩ := h'.index
  have hok : targets.map (Except.ok : CompileTarget → Outcome) = targets'.map .ok := by
    rw [← hmap, ← hmap', hanswered]
  have htargets : targets = targets' :=
    (List.map_inj_right fun _ _ => Except.ok.inj).mp hok
  rw [hindex, hindex', htargets]

/-- What is selected is selected again. -/
theorem select_survivors (run : Runner) (commands : List CompileCommand) (inputs : List Text) :
    let survivors := (select commands inputs).filter (answered run)
    select survivors inputs = survivors := by
  intro survivors
  apply List.filter_eq_self.mpr
  intro c hc
  exact (List.mem_filter.mp (List.mem_filter.mp hc).1).2

/-- **Every selected command is handled once, in order, and is recorded or counted.**
With a build tool that answers, gathering calls the build tool twice and then the
compiler for each selected command, and reports as `Accounts` says. The index is that
of a database of which only the selected commands with an answer are left. -/
theorem gathers_in_order {run : Runner} {options : GatherOptions} {output : Text}
    (h : Answers run options.binary options.buildDirectory options.targets output)
    (commands : List CompileCommand) :
    ∃ inputs,
      (targetInputs run options.binary options.buildDirectory options.targets).run.value =
        .ok inputs ∧
      let kept := select commands inputs
      let survivors := kept.filter (answered run)
      ∃ report again,
        Gathers run options commands (queries options ++ kept.map dependencyCall) report ∧
        Accounts run commands kept report ∧
        Gathers run options survivors (queries options ++ survivors.map dependencyCall) again ∧
        again.index = report.index ∧ again.failed = 0 := by
  let inputs := pathsOf options.buildDirectory output
  refine ⟨inputs, (BuildInputs.targetInputs_ends h).value_eq, ?_⟩
  intro kept survivors
  have hagain := fromCommands_ends h survivors
  have hsame : select survivors inputs = survivors := select_survivors run commands inputs
  rw [hsame] at hagain
  have hfirst := accounts_reportOn run commands kept
  have hsecond := accounts_reportOn run survivors survivors
  refine ⟨_, _, gathers_of_ends (fromCommands_ends h commands), hfirst,
    gathers_of_ends hagain, ?_, ?_⟩
  · apply hsecond.index_eq hfirst
    rw [List.filter_filter]
    simp only [Bool.and_self]
  · rw [hsecond.failed, List.length_eq_zero_iff, List.filter_eq_nil_iff]
    intro c hc
    have hanswered := (List.mem_filter.mp hc).2
    rw [hanswered]
    exact Bool.false_ne_true

/-- A run of one job for a target `t` in the root directory, with the database in a
file `d`. -/
def rootOptions : GatherOptions := ⟨['n'], ['/'], [['t']], some ['d'], 1, false⟩

/-- Three commands in the root directory, written as lists. -/
def threeCommands : Text :=
  ['[', '[', '"', 'a', '"', ',', '"', '/', '"', ',', '"', 'x', '"', ']', ',',
    '[', '"', 'b', '"', ',', '"', '/', '"', ',', '"', 'y', '"', ']', ',',
    '[', '"', 'c', '"', ',', '"', '/', '"', ',', '"', 'z', '"', ']', ']']

/-- A build tool `n` that needs `a` and `b` for the target, a compiler `x` that fails and
others that report one header. -/
def oneBrokenCompiler : Runner := fun argv _ =>
  match argv with
  | [_, _] => .ok ['1', '.', '1', '1']
  | ['x'] :: _ => .error (.failed ['x'] [] [])
  | ['n'] :: _ => .ok ['a', '\n', 'b']
  | _ => .ok ['o', ':', ' ', 'h']

theorem gathers_oneBrokenCompiler :
    Answers oneBrokenCompiler ['n'] ['/'] [['t']] ['a', '\n', 'b'] ∧
    ∃ report calls,
      (∀ world : World, world.runner = oneBrokenCompiler →
        world.readText ['d'] = .ok threeCommands →
        Ends (gather world rootOptions) calls (.ok report)) ∧
      calls = [
        ⟨[['n'], "--version".toList], none⟩,
        ⟨[['n'], "-C".toList, ['/'], "-t".toList, "inputs".toList, ['t']], none⟩,
        ⟨[['x'], "-MM".toList, "-MF".toList, ['-']], some ['/']⟩,
        ⟨[['y'], "-MM".toList, "-MF".toList, ['-']], some ['/']⟩] ∧
      report.total = 3 ∧ report.selected = 2 ∧ report.failed = 1 ∧
      report.index = .ofTargets [⟨['b'], ['/'], ['o'], [['h']]⟩] := by
  have h : Answers oneBrokenCompiler rootOptions.binary rootOptions.buildDirectory
      rootOptions.targets ['a', '\n', 'b'] := ⟨⟨_, rfl, by decide⟩, rfl⟩
  let commands : List CompileCommand :=
    [⟨['a'], ['/'], ['x']⟩, ⟨['b'], ['/'], ['y']⟩, ⟨['c'], ['/'], ['z']⟩]
  obtain ⟨inputs, hinputs, report, _, hgathers, haccounts, _⟩ := gathers_in_order h commands
  have hsaid : inputs = [['/', 'a'], ['/', 'b']] := Except.ok.inj (hinputs.symm.trans rfl)
  have hkept : select commands inputs = [⟨['a'], ['/'], ['x']⟩, ⟨['b'], ['/'], ['y']⟩] := by
    rw [hsaid]
    decide
  rw [hkept] at hgathers haccounts
  refine ⟨h, report, _, ?_, rfl, haccounts.total, haccounts.selected, haccounts.failed, ?_⟩
  · intro world hworld htext
    exact hgathers.gather world hworld ⟨threeCommands, htext, rfl⟩
  · obtain ⟨targets, htargets, hindex, _⟩ := haccounts.index
    have hok : targets.map (Except.ok : CompileTarget → Outcome) =
        [⟨['b'], ['/'], ['o'], [['h']]⟩].map .ok := htargets.symm
    rw [hindex, (List.map_inj_right fun _ _ => Except.ok.inj).mp hok]

end Gather

end LoudHeaders
