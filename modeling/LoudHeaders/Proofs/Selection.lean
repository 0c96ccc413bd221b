import LoudHeaders.CompileDatabase.Basic
import LoudHeaders.Proofs.BuildInputs
import LoudHeaders.Proofs.Path.Walk

/-
  Which commands are selected.

  The lines of the build tool's answer and the entries of the compile database
  spell the same files differently: relative to different directories, with `.`
  and `..`, with other line ends. `select_targetInputs` says that a command is kept
  exactly if one of the lines names its file, in the sense that both lead to the
  same place from every directory; the order of the database and repeated commands
  are kept because the selection is a filter.
-/

namespace LoudHeaders

namespace CompileCommand

open BuildInputs (Answers pathsOf targetInputs)

/-- A line names the file of a command: the trimmed line, taken from the build
directory, leads where the file leads from the directory of the command. -/
def NamedBy (c : CompileCommand) (directory line : Text) : Prop :=
  Path.LeadAlike c.directory c.file directory (Text.trim line)

theorem same_source {c : CompileCommand} {directory line : Text} :
    Path.same c.source (Path.absolutize directory (Text.trim line)) = true ↔
      c.NamedBy directory line :=
  Path.same_normalize.trans Path.leadAlike_iff.symm

/-- The selection by an answer is a filter that keeps the commands named by a line
that is not blank. -/
theorem select_pathsOf (commands : List CompileCommand) (directory output : Text) :
    ∃ keep : CompileCommand → Bool,
      (∀ c, keep c = true ↔
        ∃ line ∈ Text.pieces (· == '\n') output, Text.trim line ≠ [] ∧
          c.NamedBy directory line) ∧
      select commands (pathsOf directory output) = commands.filter keep := by
  refine ⟨fun c => (pathsOf directory output).any (Path.same c.source), fun c => ?_, rfl⟩
  rw [BuildInputs.any_same_pathsOf]
  simp only [same_source]

/-- What is selected by the answer of a build tool: the commands, in their order and
with their repetitions, whose file is named by a line that is not blank. Blank lines
alone select nothing. -/
theorem select_targetInputs {run : Runner} {binary directory : Text} {targets : List Text}
    {output : Text} (h : Answers run binary directory targets output) :
    ∃ inputs, (targetInputs run binary directory targets).run.value = .ok inputs ∧
      ∀ commands : List CompileCommand,
        (∃ keep : CompileCommand → Bool,
          (∀ c, keep c = true ↔
            ∃ line ∈ Text.pieces (· == '\n') output, Text.trim line ≠ [] ∧
              c.NamedBy directory line) ∧
          select commands inputs = commands.filter keep) ∧
        ((∀ line ∈ Text.pieces (· == '\n') output, Text.trim line = []) →
          select commands inputs = []) := by
  refine ⟨pathsOf directory output, (BuildInputs.targetInputs_ends h).value_eq, ?_⟩
  intro commands
  obtain ⟨keep, hkeep, hselect⟩ := select_pathsOf commands directory output
  refine ⟨⟨keep, hkeep, hselect⟩, fun hblank => ?_⟩
  rw [hselect, List.filter_eq_nil_iff]
  intro c _ hc
  obtain ⟨line, hline, hsaid, _⟩ := (hkeep c).mp hc
  exact hsaid (hblank line hline)

/-- A build tool of version 1.11 that lists one file, above the build directory, on a
line that ends in a carriage return, and then a blank line. -/
def oneFileTool : Runner := fun argv _ =>
  if argv.length = 2 then .ok ['1', '.', '1', '1', '\n']
  else .ok ['.', '.', '/', 'a', '.', 'c', '\r', '\n', ' ', '\n']

theorem select_oneFileTool :
    Answers oneFileTool ['n'] ['/', 'b'] [] ['.', '.', '/', 'a', '.', 'c', '\r', '\n', ' ', '\n'] ∧
    ∃ inputs, (targetInputs oneFileTool ['n'] ['/', 'b'] []).run.value = .ok inputs ∧
      select [⟨['a', '.', 'c'], ['/'], []⟩, ⟨['a', '.', 'c'], ['/', 'b'], []⟩] inputs =
        [⟨['a', '.', 'c'], ['/'], []⟩] := by
  have h : Answers oneFileTool ['n'] ['/', 'b'] []
      ['.', '.', '/', 'a', '.', 'c', '\r', '\n', ' ', '\n'] := ⟨⟨_, rfl, by decide⟩, rfl⟩
  obtain ⟨inputs, hinputs, hselect⟩ := select_targetInputs h
  refine ⟨h, inputs, hinputs, ?_⟩
  obtain ⟨⟨keep, hkeep, hfilter⟩, _⟩ :=
    hselect [⟨['a', '.', 'c'], ['/'], []⟩, ⟨['a', '.', 'c'], ['/', 'b'], []⟩]
  have hkept : keep ⟨['a', '.', 'c'], ['/'], []⟩ = true := by
    rw [hkeep]
    exact ⟨['.', '.', '/', 'a', '.', 'c', '\r'], by decide, by decide, fun start _ => rfl⟩
  have hdropped : keep ⟨['a', '.', 'c'], ['/', 'b'], []⟩ = false := by
    rw [Bool.eq_false_iff, Ne, hkeep]
    rintro ⟨line, hline, hsaid, hnamed⟩
    have hwalk := hnamed [] (by intro s hs; cases hs)
    have hlines : line ∈ [['.', '.', '/', 'a', '.', 'c', '\r'], [' '], []] := hline
    simp only [List.mem_cons, List.not_mem_nil, or_false] at hlines
    rcases hlines with rfl | rfl | rfl
    · exact absurd hwalk (by decide)
    · exact hsaid rfl
    · exact hsaid rfl
  rw [hfilter]
  simp [hkept, hdropped]

end CompileCommand

end LoudHeaders
