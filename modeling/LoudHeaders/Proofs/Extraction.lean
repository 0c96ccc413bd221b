import Mathlib.Logic.ExistsUnique
import LoudHeaders.Machine.Program
import LoudHeaders.Proofs.CommandWords.Line
import LoudHeaders.Proofs.Gather.Steps
import LoudHeaders.Proofs.Text.Pieces

/-
  What is started for a compile command.

  A stored command has one list of words (`existsUnique_wordsOf`): those of the command
  line, or what stands between blanks if the last word is not complete, which is at least
  one word (`words_ne_nil_of_open`). The flags that ask for dependencies are put behind
  these words before anything looks at them. So the program is the first word where there
  is one (`starts_first_word`). Where there is none, the call is not empty all the same:
  the first flag takes the place of the program (`blank_command_starts_flag`), and the
  refusal of empty calls is never reported.
-/

namespace LoudHeaders

namespace CommandWords

/-- The words of a stored command. -/
inductive WordsOf : Text → List Text → Prop
  | line {s : Text} {ws : List Text} (h : Line s ws) : WordsOf s ws
  | blanks {s : Text} (h : Open s) : WordsOf s (Text.words s)

/-- What is not complete is no blank. -/
theorem exists_not_blank_of_open {s : Text} (h : Open s) : ∃ c ∈ s, Text.isBlank c = false := by
  induction h with
  | separator _ _ ih =>
    obtain ⟨c, hmem, hc⟩ := ih
    exact ⟨c, List.mem_cons_of_mem _ hmem, hc⟩
  | comment _ _ _ => exact ⟨'#', List.mem_cons_self, by decide⟩
  | word _ _ _ _ ih =>
    obtain ⟨c, hmem, hc⟩ := ih
    exact ⟨c, List.mem_append_right _ hmem, hc⟩
  | last _ _ ht =>
    cases ht with
    | backslash => exact ⟨'\\', by simp, by decide⟩
    | single _ => exact ⟨'\x27', by simp, by decide⟩
    | double _ => exact ⟨'"', by simp, by decide⟩
    | doubleBackslash _ => exact ⟨'"', by simp, by decide⟩

theorem words_ne_nil_of_open {s : Text} (h : Open s) : Text.words s ≠ [] := by
  obtain ⟨c, hmem, hc⟩ := exists_not_blank_of_open h
  obtain ⟨piece, hpiece, hmem⟩ := Text.exists_piece_of_mem hmem hc
  apply List.ne_nil_of_mem (a := piece)
  rw [Text.words, List.mem_filter]
  exact ⟨hpiece, by simp [List.ne_nil_of_mem hmem]⟩

theorem dependencyCommand_of_wordsOf {s : Text} {ws : List Text} (h : WordsOf s ws) :
    dependencyCommand s = ws ++ dependencyFlags := by
  cases h with
  | line h => rw [dependencyCommand, shellWords?_of_line h, Option.getD_some]
  | blanks h => rw [dependencyCommand, shellWords?_of_open h, Option.getD_none]

/-- Every command has one list of words. -/
theorem existsUnique_wordsOf (s : Text) : ∃! ws, WordsOf s ws := by
  have hexists : ∃ ws, WordsOf s ws := by
    rcases line_or_open s with ⟨ws, h⟩ | h
    · exact ⟨ws, .line h⟩
    · exact ⟨_, .blanks h⟩
  obtain ⟨ws, hws⟩ := hexists
  refine ⟨ws, hws, fun ws' hws' => ?_⟩
  -- the call determines the words in front of its flags
  have hcall := dependencyCommand_of_wordsOf hws
  rw [dependencyCommand_of_wordsOf hws'] at hcall
  exact List.append_cancel_right hcall

/-- There is no word exactly in a command line of separators and comments. -/
theorem wordsOf_nil_iff {s : Text} : WordsOf s [] ↔ Line s [] := by
  refine ⟨fun h => ?_, .line⟩
  generalize hnil : ([] : List Text) = ws at h
  cases h with
  | line h => exact h
  | blanks h => exact absurd hnil.symm (words_ne_nil_of_open h)

end CommandWords

/-- The runner refuses a call as empty only if it is. -/
def Runner.RefusesOnlyEmpty (run : Runner) : Prop :=
  ∀ argv cwd, run argv cwd = .error .emptyCommand → argv = []

theorem Machine.refusesOnlyEmpty (m : Machine) : m.runner.RefusesOnlyEmpty := by
  intro argv cwd h
  cases argv with
  | nil => rfl
  | cons program arguments =>
    rw [Machine.runner] at h
    split at h
    · cases h
    · split at h
      · cases h
      · cases h

namespace CompileCommand

open CommandWords (Line WordsOf dependencyFlags)

theorem extract_calls_of_wordsOf (run : Runner) {c : CompileCommand} {words : List Text}
    (h : WordsOf c.command words) :
    (c.extract run).calls = [⟨words ++ dependencyFlags, some c.directory⟩] := by
  rw [extract_calls, dependencyCall, CommandWords.dependencyCommand_of_wordsOf h]

theorem extract_value_of_wordsOf (run : Runner) {c : CompileCommand} {words : List Text}
    (h : WordsOf c.command words) :
    (c.extract run).value = c.targetOf (run (words ++ dependencyFlags) (some c.directory)) := by
  rw [extract_value, outcome, dependencyCall, CommandWords.dependencyCommand_of_wordsOf h]

/-- An error that is reported is the one the runner gave. -/
theorem eq_of_targetOf_eq_fetch {c : CompileCommand} {answer : Except RunError Text}
    {file : Text} {cause : RunError} (h : c.targetOf answer = .error (.fetch file cause)) :
    answer = .error cause := by
  cases answer with
  | error e =>
    obtain ⟨_, rfl⟩ := ExtractError.fetch.inj (Except.error.inj h)
    rfl
  | ok output =>
    rw [targetOf] at h
    split at h
    · cases h
    · cases h

/-- **The program is the first word of a command, or the first flag if it has no word.** A
command has one list of words, which is empty in a command line of separators and comments
only. The call for its dependencies has these words and the flags, so no call is empty and
none is refused for that. -/
theorem starts_first_word (run : Runner) (c : CompileCommand) :
    (∃! words, WordsOf c.command words) ∧
    (∀ program more, WordsOf c.command (program :: more) →
      (c.extract run).calls = [⟨program :: (more ++ dependencyFlags), some c.directory⟩]) ∧
    (WordsOf c.command [] ↔ Line c.command []) ∧
    (Line c.command [] →
      let call : Call := ⟨["-MM".toList, "-MF".toList, "-".toList], some c.directory⟩
      (c.extract run).calls = [call] ∧
        (c.extract run).value = c.targetOf (run call.argv call.cwd)) ∧
    (run.RefusesOnlyEmpty → ∀ file, (c.extract run).value ≠ .error (.fetch file .emptyCommand)) := by
  refine ⟨CommandWords.existsUnique_wordsOf c.command, ?_, CommandWords.wordsOf_nil_iff, ?_, ?_⟩
  · intro program more h
    exact extract_calls_of_wordsOf run h
  · intro h
    exact ⟨extract_calls_of_wordsOf run (.line h), extract_value_of_wordsOf run (.line h)⟩
  · intro hrun file h
    obtain ⟨words, hwords, _⟩ := CommandWords.existsUnique_wordsOf c.command
    rw [extract_value_of_wordsOf run hwords] at h
    have hempty := hrun _ _ (eq_of_targetOf_eq_fetch h)
    exact absurd (List.append_eq_nil_iff.mp hempty).2 (by decide)

/-- A command that is one comment, in the root directory. -/
def commented : CompileCommand := ⟨['a'], ['/'], "\t# cc a".toList⟩

/-- A machine without programs. -/
def bareMachine : Machine := ⟨[], [], [], [], []⟩

theorem starts_first_word_commented :
    Line commented.command [] ∧ bareMachine.runner.RefusesOnlyEmpty ∧
    (commented.extract bareMachine.runner).calls =
      [⟨["-MM".toList, "-MF".toList, "-".toList], some ['/']⟩] ∧
    (commented.extract bareMachine.runner).value =
      .error (.fetch ['a'] (.start "-MM".toList (.refused .notFound))) ∧
    (commented.extract bareMachine.runner).value ≠ .error (.fetch ['a'] .emptyCommand) := by
  have hline : Line commented.command [] := .separator rfl (.lastComment (by decide))
  have hrun := bareMachine.refusesOnlyEmpty
  obtain ⟨_, _, _, hblank, hnever⟩ := starts_first_word bareMachine.runner commented
  obtain ⟨hcalls, hvalue⟩ := hblank hline
  exact ⟨hline, hrun, hcalls, hvalue, hnever hrun _⟩

/-- A command with nothing in it. -/
def blank : CompileCommand := ⟨"a.cc".toList, "/d".toList, []⟩

/-- A command with nothing in it starts the first flag, and what is reported is that
there is no such program. -/
theorem blank_command_starts_flag :
    Line blank.command [] ∧
    (blank.extract (Machine.Rule.runner [])).calls =
      [⟨["-MM".toList, "-MF".toList, "-".toList], some "/d".toList⟩] ∧
    (blank.extract (Machine.Rule.runner [])).value =
      .error (.fetch "a.cc".toList
        (.failed "-MM".toList "exit status: 127".toList "no rule".toList)) ∧
    (blank.extract (Machine.Rule.runner [])).value ≠
      .error (.fetch "a.cc".toList .emptyCommand) := by
  have hvalue : (blank.extract (Machine.Rule.runner [])).value =
      .error (.fetch "a.cc".toList
        (.failed "-MM".toList "exit status: 127".toList "no rule".toList)) := rfl
  refine ⟨.nil, rfl, hvalue, ?_⟩
  rw [hvalue]
  intro h
  cases h

end CompileCommand

end LoudHeaders
