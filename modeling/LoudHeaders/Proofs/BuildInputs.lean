import LoudHeaders.BuildInputs
import LoudHeaders.Proofs.Path.Route
import LoudHeaders.Proofs.Session
import LoudHeaders.Proofs.Text.Lines

/-
  The files a build needs, as a query and as a set.

  A build tool that reports a recent version and answers the query for inputs is
  called twice, and what is returned are the paths of its answer (`targetInputs_ends`).
  A tool that is too old or says no version ends the query after the first call, and one
  that does not answer ends it after the second (`targetInputs_refused`,
  `targetInputs_unanswered`).
  As a set of paths these are one path for each line that is not blank
  (`any_same_pathsOf`); that each is kept once does not show.
-/

namespace LoudHeaders

namespace BuildInputs

open Session (Ends)

/-- The build tool says a version that is recent enough. -/
def Recent (run : Runner) (binary : Text) : Prop :=
  ∃ output, run (versionCall binary).argv (versionCall binary).cwd = .ok output ∧
    accepts (Text.trim output) = true

/-- The build tool says no version, or one that is refused. -/
def Refused (run : Runner) (binary : Text) (e : Error) : Prop :=
  (∃ cause, run (versionCall binary).argv (versionCall binary).cwd = .error cause ∧
    e = .resolver "--version".toList cause) ∨
  ∃ output, run (versionCall binary).argv (versionCall binary).cwd = .ok output ∧
    accepts (Text.trim output) = false ∧ e = .toolVersion binary (Text.trim output) minVersionText

theorem recent_or_refused (run : Runner) (binary : Text) :
    Recent run binary ∨ ∃ e, Refused run binary e := by
  cases hrun : run (versionCall binary).argv (versionCall binary).cwd with
  | error cause => exact .inr ⟨_, .inl ⟨cause, hrun, rfl⟩⟩
  | ok output =>
    cases haccepts : accepts (Text.trim output) with
    | true => exact .inl ⟨output, hrun, haccepts⟩
    | false => exact .inr ⟨_, .inr ⟨output, hrun, haccepts, rfl⟩⟩

/-- A build tool that answers: its version is recent enough, and the query for the
inputs of the targets has the given output. -/
structure Answers (run : Runner) (binary directory : Text) (targets : List Text)
    (output : Text) : Prop where
  version : ∃ report, run (versionCall binary).argv (versionCall binary).cwd = .ok report ∧
    accepts (Text.trim report) = true
  inputs : run (inputsCall binary directory targets).argv
    (inputsCall binary directory targets).cwd = .ok output

theorem verifyVersion_ends {run : Runner} {binary report : Text}
    (hrun : run (versionCall binary).argv (versionCall binary).cwd = .ok report)
    (haccepts : accepts (Text.trim report) = true) :
    Ends (verifyVersion run binary) [versionCall binary] (.ok ()) := by
  refine Ends.bind_call ?_
  refine Ends.bind_silent (Ends.ofExcept _ hrun) ?_
  rw [if_pos haccepts]
  exact Ends.log _ _ _

theorem verifyVersion_refused {run : Runner} {binary : Text} {e : Error}
    (h : Refused run binary e) :
    Ends (verifyVersion run binary) [versionCall binary] (.error (.error e)) := by
  refine Ends.bind_call ?_
  rcases h with ⟨cause, hrun, rfl⟩ | ⟨output, hrun, haccepts, rfl⟩
  · exact Ends.bind_error (Ends.ofExcept_error _ hrun)
  · refine Ends.bind_silent (Ends.ofExcept _ hrun) ?_
    rw [if_neg (by simp [haccepts])]
    exact Ends.fail _

/-- The tool is asked for its version and for the inputs, and for nothing else. -/
theorem targetInputs_ends {run : Runner} {binary directory : Text} {targets : List Text}
    {output : Text} (h : Answers run binary directory targets output) :
    Ends (targetInputs run binary directory targets)
      [versionCall binary, inputsCall binary directory targets]
      (.ok (pathsOf directory output)) := by
  obtain ⟨report, hrun, haccepts⟩ := h.version
  show Ends _ ([versionCall binary] ++ [inputsCall binary directory targets]) _
  refine Ends.bind (verifyVersion_ends hrun haccepts) ?_
  refine Ends.bind_silent (Ends.log _ _ _) ?_
  refine Ends.bind_call ?_
  refine Ends.bind_silent (Ends.ofExcept _ h.inputs) ?_
  refine Ends.bind_silent (Ends.log _ _ _) ?_
  exact Ends.pure _

/-- A tool that is refused is not asked for inputs. -/
theorem targetInputs_refused {run : Runner} {binary : Text} {e : Error}
    (h : Refused run binary e) (directory : Text) (targets : List Text) :
    Ends (targetInputs run binary directory targets) [versionCall binary] (.error (.error e)) :=
  Ends.bind_error (verifyVersion_refused h)

theorem targetInputs_unanswered {run : Runner} {binary directory : Text} {targets : List Text}
    {cause : RunError} (hrecent : Recent run binary)
    (hrun : run (inputsCall binary directory targets).argv
      (inputsCall binary directory targets).cwd = .error cause) :
    Ends (targetInputs run binary directory targets)
      [versionCall binary, inputsCall binary directory targets]
      (.error (.error (.resolver (targetList targets) cause))) := by
  obtain ⟨output, hversion, haccepts⟩ := hrecent
  show Ends _ ([versionCall binary] ++ [inputsCall binary directory targets]) _
  refine Ends.bind (verifyVersion_ends hversion haccepts) ?_
  refine Ends.bind_silent (Ends.log _ _ _) ?_
  refine Ends.bind_call ?_
  exact Ends.bind_error (Ends.ofExcept_error _ hrun)

/-- A path that is not added is there in another spelling. -/
theorem any_same_insertPath (paths : List Text) (p x : Text) :
    (insertPath paths p).any (Path.same x) = (paths ++ [p]).any (Path.same x) := by
  unfold insertPath
  split
  · rename_i h
    obtain ⟨q, hq, hpq⟩ := List.any_eq_true.mp h
    have hback : Path.same x p = true → paths.any (Path.same x) = true := by
      intro hxp
      rw [Path.same_iff] at hxp hpq
      exact List.any_eq_true.mpr ⟨q, hq, Path.same_iff.mpr (hxp.trans hpq)⟩
    cases hx : Path.same x p with
    | false => simp [hx]
    | true => simp [hback hx]
  · rfl

theorem any_same_foldl (paths ps : List Text) (x : Text) :
    (ps.foldl insertPath paths).any (Path.same x) = (paths ++ ps).any (Path.same x) := by
  induction ps generalizing paths with
  | nil => simp
  | cons p rest ih =>
    rw [List.foldl_cons, ih, List.any_append, any_same_insertPath]
    simp [Bool.or_assoc]

/-- A path is among those of an answer if some line of it, trimmed, is that path
taken from the directory. -/
theorem any_same_pathsOf {directory output x : Text} :
    (pathsOf directory output).any (Path.same x) = true ↔
      ∃ line ∈ Text.pieces (· == '\n') output, Text.trim line ≠ [] ∧
        Path.same x (Path.absolutize directory (Text.trim line)) = true := by
  unfold pathsOf
  rw [Text.nonblank_lines, any_same_foldl]
  simp only [List.nil_append, List.any_eq_true, List.mem_map, List.mem_filter]
  constructor
  · rintro ⟨p, ⟨said, ⟨⟨line, hline, rfl⟩, hsaid⟩, rfl⟩, hx⟩
    exact ⟨line, hline, by simpa using hsaid, hx⟩
  · rintro ⟨line, hline, hsaid, hx⟩
    exact ⟨_, ⟨_, ⟨⟨line, hline, rfl⟩, by simpa using hsaid⟩, rfl⟩, hx⟩

end BuildInputs

end LoudHeaders
