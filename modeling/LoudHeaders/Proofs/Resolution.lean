import LoudHeaders.CommandLine
import LoudHeaders.Proofs.Path.Walk

/-
  Paths taken from a base, step by step.

  Taking a path from a base is joining texts and bringing the result to normal form. Where
  the result leads is where the path leads from the place of the base (`walk_absolutize`),
  so it makes no difference in which order the steps are done, nor whether base or path is
  in normal form already (`absolutize_absolutize`, `absolutize_join`). An absolute base may
  be taken twice (`absolutize_twice`).

  For a run this means that it does not matter who makes a path absolute
  (`resolves_step_by_step`): arguments that the caller has made absolute give the same run,
  and a header that the compiler has made absolute names the same file.
-/

namespace LoudHeaders

namespace Path

open Machine (Place)

variable {b : Text}

theorem walk_absolutize (start : Place) (b p : Text) :
    walk start (absolutize b p) = walk (walk start b) p := by
  rw [absolutize, walk_normalize, walk_join]

/-- Paths that lead alike from their bases have one absolute form. -/
theorem absolutize_eq_of_walk {p other q : Text}
    (h : ∀ start, walk (walk start b) p = walk (walk start other) q) :
    absolutize b p = absolutize other q :=
  leadAlike_iff.mp fun start _ => h start

theorem absolutize_join (b a c : Text) :
    absolutize (absolutize b a) c = absolutize b (join a c) := by
  apply absolutize_eq_of_walk
  intro start
  rw [walk_absolutize, walk_join]

theorem absolutize_normalize_left (b a : Text) : absolutize (normalize b) a = absolutize b a := by
  apply absolutize_eq_of_walk
  intro start
  rw [walk_normalize]

theorem absolutize_normalize_right (b a : Text) :
    absolutize b (normalize a) = absolutize b a := by
  apply absolutize_eq_of_walk
  intro start
  rw [walk_normalize]

/-- The steps may be taken from either end. -/
theorem absolutize_absolutize (b a c : Text) :
    absolutize b (absolutize a c) = absolutize (absolutize b a) c :=
  calc absolutize b (absolutize a c)
      = absolutize b (join a c) := absolutize_normalize_right b (join a c)
    _ = absolutize (absolutize b a) c := (absolutize_join b a c).symm

/-- From where an absolute path leads, it leads there again. -/
theorem absolutize_twice (hb : isAbsolute b = true) (p : Text) :
    absolutize b (absolutize b p) = absolutize b p := by
  apply absolutize_eq_of_walk
  intro start
  rw [walk_absolutize, walk_of_isAbsolute hb (walk start b) start]

end Path

open CommandLine (gatherOptions runDeps)
open LoudHeaders.Path (absolutize isAbsolute join normalize)

/-- The arguments with the paths that are taken from the directory of the run made absolute
beforehand. -/
def DepsArguments.madeAbsolute (directory : Text) (a : DepsArguments) : DepsArguments :=
  { a with
    ninjaBinary := a.ninjaBinary.map (absolutize directory)
    compileCommands := a.compileCommands.map (absolutize directory)
    buildDir := absolutize directory a.buildDir }

theorem gatherOptions_madeAbsolute {directory : Text} (h : isAbsolute directory = true)
    (processors : Nat) (a : DepsArguments) :
    gatherOptions directory processors (a.madeAbsolute directory) =
      gatherOptions directory processors a := by
  have hbinary : (gatherOptions directory processors (a.madeAbsolute directory)).binary =
      (gatherOptions directory processors a).binary := by
    cases hn : a.ninjaBinary with
    | none => simp [gatherOptions, DepsArguments.madeAbsolute, hn]
    | some path => simp [gatherOptions, DepsArguments.madeAbsolute, hn, Path.absolutize_twice h]
  have hdatabase : (gatherOptions directory processors (a.madeAbsolute directory)).database =
      (gatherOptions directory processors a).database := by
    cases hd : a.compileCommands with
    | none => simp [gatherOptions, DepsArguments.madeAbsolute, hd]
    | some path => simp [gatherOptions, DepsArguments.madeAbsolute, hd, Path.absolutize_twice h]
  have hbuild : (gatherOptions directory processors (a.madeAbsolute directory)).buildDirectory =
      (gatherOptions directory processors a).buildDirectory := Path.absolutize_twice h a.buildDir
  rw [GatherOptions.mk.injEq]
  exact ⟨hbinary, hbuild, rfl, hdatabase, rfl, rfl⟩

theorem runDeps_madeAbsolute {directory : Text} (h : isAbsolute directory = true) (world : World)
    (v : Verbosity) (processors : Nat) (a : DepsArguments) :
    runDeps world v directory processors (a.madeAbsolute directory) =
      runDeps world v directory processors a := by
  unfold runDeps
  rw [gatherOptions_madeAbsolute h]
  rfl

/-- A header that was made absolute names the same file. -/
theorem fileOf_absolutize {entry : HeaderEntry} {t : CompileTarget}
    (ht : entry.targets.head? = some t) (h : isAbsolute t.directory = true) :
    Ranking.fileOf { entry with header := absolutize t.directory entry.header } =
      Ranking.fileOf entry := by
  unfold Ranking.fileOf
  rw [ht]
  exact Path.absolutize_twice h entry.header

/-- **Paths may be resolved in any order of steps.** A path taken from a path that was taken
from a base is their join taken from the base, and normal forms may stand for what they
are the normal form of. So a header names the same file, and arguments give the same run,
whether their paths are absolute already or not. -/
theorem resolves_step_by_step :
    (∀ b a c : Text, absolutize (absolutize b a) c = absolutize b (join a c)) ∧
    (∀ b a : Text, absolutize (normalize b) a = absolutize b a ∧
      absolutize b (normalize a) = absolutize b a) ∧
    (∀ b a c : Text, absolutize b (absolutize a c) = absolutize (absolutize b a) c) ∧
    (∀ (entry : HeaderEntry) (t : CompileTarget), entry.targets.head? = some t →
      isAbsolute t.directory = true →
      Ranking.fileOf { entry with header := absolutize t.directory entry.header } =
        Ranking.fileOf entry) ∧
    ∀ directory : Text, isAbsolute directory = true →
      ∀ (world : World) (v : Verbosity) (processors : Nat) (a : DepsArguments),
        runDeps world v directory processors (a.madeAbsolute directory) =
          runDeps world v directory processors a := by
  refine ⟨Path.absolutize_join, fun b a => ⟨?_, ?_⟩, Path.absolutize_absolutize, ?_, ?_⟩
  · exact Path.absolutize_normalize_left b a
  · exact Path.absolutize_normalize_right b a
  · intro entry t ht h
    exact fileOf_absolutize ht h
  · intro directory h world v processors a
    exact runDeps_madeAbsolute h world v processors a

/-- Arguments with a build directory beside the directory of the run and a database below
it. -/
def sidewaysArguments : DepsArguments where
  ninjaBinary := none
  numFiles := 1
  numCommits := some 2
  repo := none
  compileCommands := some "b//./x/../c.json".toList
  jobs := some 1
  format := .text
  noProgress := true
  buildDir := "../b".toList
  targets := []

/-- A target compiled below the directory of the header that it lists. -/
def belowHeader : CompileTarget := ⟨['a'], "/s/b/.".toList, ['o'], ["../x.h".toList]⟩

/-- A world in which nothing is found. -/
def emptyWorld : World := ⟨fun _ => .ok ['[', ']'], fun _ => .error [], fun _ _ => .ok []⟩

theorem resolves_step_by_step_sideways :
    (sidewaysArguments.madeAbsolute ['/', 'w']).buildDir = "/b".toList ∧
    (sidewaysArguments.madeAbsolute ['/', 'w']).compileCommands = some "/w/b/c.json".toList ∧
    runDeps emptyWorld .full ['/', 'w'] 1 (sidewaysArguments.madeAbsolute ['/', 'w']) =
      runDeps emptyWorld .full ['/', 'w'] 1 sidewaysArguments ∧
    absolutize belowHeader.directory "../x.h".toList = "/s/x.h".toList ∧
    Ranking.fileOf ⟨"/s/x.h".toList, [belowHeader]⟩ =
      Ranking.fileOf ⟨"../x.h".toList, [belowHeader]⟩ := by
  obtain ⟨_, _, _, hheader, hrun⟩ := resolves_step_by_step
  refine ⟨by decide, by decide, ?_, by decide, ?_⟩
  · exact hrun ['/', 'w'] rfl emptyWorld .full 1 sidewaysArguments
  · exact hheader ⟨"../x.h".toList, [belowHeader]⟩ belowHeader rfl rfl

end LoudHeaders
