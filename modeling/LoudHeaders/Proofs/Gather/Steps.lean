import LoudHeaders.Gather

/-
  Commands handled one after the other.

  What becomes of a command is settled by the runner alone (`outcome`): a target if
  the call succeeds and there is a colon in its output, an error otherwise
  (`isOk_outcome`). A step calls the compiler once and takes the outcome up, so a run
  over a list of commands calls the compiler once for each, in their order
  (`steps_calls`), and ends where taking up the outcomes in this order ends
  (`steps_value`): with the targets among them in the index and the errors counted
  (`index_after`, `failed_after`).
-/

namespace LoudHeaders

/-- What is taken up of a command. -/
abbrev Outcome : Type := Except ExtractError CompileTarget

namespace CompileCommand

/-- What the runner's answer makes of a command. -/
def outcome (run : Runner) (c : CompileCommand) : Outcome :=
  c.targetOf (run c.dependencyCall.argv c.dependencyCall.cwd)

/-- Whether the call for a command succeeds with a colon in its output. -/
def answered (run : Runner) (c : CompileCommand) : Bool :=
  match run c.dependencyCall.argv c.dependencyCall.cwd with
  | .ok output => output.contains ':'
  | .error _ => false

theorem isOk_targetOf (c : CompileCommand) (output : Text) :
    (c.targetOf (.ok output)).isOk = output.contains ':' := by
  rw [← Text.isSome_cut]
  cases hcut : Text.cut ':' output with
  | none => simp only [targetOf, MakeRule.parse?, hcut]; rfl
  | some halves => simp only [targetOf, MakeRule.parse?, hcut]; rfl

theorem isOk_outcome (run : Runner) (c : CompileCommand) :
    (c.outcome run).isOk = c.answered run := by
  unfold outcome answered
  cases run c.dependencyCall.argv c.dependencyCall.cwd with
  | error cause => rfl
  | ok output => exact isOk_targetOf c output

theorem extract_value (run : Runner) (c : CompileCommand) :
    (c.extract run).value = c.outcome run := by
  unfold extract outcome
  simp only [Traced.value_bind, Runner.call]
  split
  · rfl
  · rfl

theorem extract_calls (run : Runner) (c : CompileCommand) :
    (c.extract run).calls = [c.dependencyCall] := by
  unfold extract
  simp only [Traced.calls_bind]
  split
  · rfl
  · rfl

end CompileCommand

namespace Progress

/-- The progress once these outcomes have been taken up, in this order. -/
def after (outcomes : List Outcome) : Progress := outcomes.foldl finish start

/-- The targets among outcomes. -/
def recorded (outcomes : List Outcome) : List CompileTarget := outcomes.filterMap Except.toOption

theorem index_foldl (outcomes : List Outcome) (p : Progress) :
    (outcomes.foldl finish p).index = (recorded outcomes).foldl HeaderIndex.add p.index := by
  induction outcomes generalizing p with
  | nil => rfl
  | cons r rest ih =>
    rw [List.foldl_cons, ih]
    cases r with
    | error e => rfl
    | ok t => rfl

/-- The index holds the targets, in the order in which they were taken up. -/
theorem index_after (outcomes : List Outcome) :
    (after outcomes).index = .ofTargets (recorded outcomes) := index_foldl outcomes start

theorem failed_foldl (outcomes : List Outcome) (p : Progress) :
    (outcomes.foldl finish p).failed = p.failed + outcomes.countP fun r => !r.isOk := by
  induction outcomes generalizing p with
  | nil => rfl
  | cons r rest ih =>
    rw [List.foldl_cons, ih]
    cases r with
    | error e =>
      rw [List.countP_cons_of_pos rfl]
      show p.failed + 1 + _ = _
      omega
    | ok t => rw [List.countP_cons_of_neg (by simp [Except.isOk, Except.toBool])]; rfl

/-- The errors are counted. -/
theorem failed_after (outcomes : List Outcome) :
    (after outcomes).failed = outcomes.countP fun r => !r.isOk := by
  rw [after, failed_foldl]
  exact Nat.zero_add _

/-- Every outcome is recorded or counted, and none is both. -/
theorem recorded_add_failed (outcomes : List Outcome) :
    (recorded outcomes).length + (after outcomes).failed = outcomes.length := by
  rw [failed_after]
  induction outcomes with
  | nil => rfl
  | cons r rest ih =>
    cases r with
    | error e =>
      rw [List.countP_cons_of_pos rfl, List.length_cons, ← ih]
      rfl
    | ok t =>
      rw [List.countP_cons_of_neg (by simp [Except.isOk, Except.toBool]), List.length_cons, ← ih]
      show (recorded rest).length + 1 + _ = _
      omega

end Progress

namespace Gather

theorem step_value (run : Runner) (p : Progress) (c : CompileCommand) :
    (step run p c).value = p.finish (c.outcome run) := by
  unfold step
  rw [Traced.value_bind, CompileCommand.extract_value]
  split
  · rfl
  · rfl

theorem step_calls (run : Runner) (p : Progress) (c : CompileCommand) :
    (step run p c).calls = [c.dependencyCall] := by
  unfold step
  rw [Traced.calls_bind, CompileCommand.extract_calls]
  split
  · rfl
  · rfl

theorem steps_value (run : Runner) (p : Progress) (cs : List CompileCommand) :
    (steps run p cs).value = (cs.map (·.outcome run)).foldl Progress.finish p := by
  induction cs generalizing p with
  | nil => rfl
  | cons c rest ih =>
    rw [steps, Traced.value_bind, step_value, ih]
    rfl

theorem steps_calls (run : Runner) (p : Progress) (cs : List CompileCommand) :
    (steps run p cs).calls = cs.map CompileCommand.dependencyCall := by
  induction cs generalizing p with
  | nil => rfl
  | cons c rest ih =>
    rw [steps, Traced.calls_bind, step_calls, ih]
    rfl

end Gather

end LoudHeaders
