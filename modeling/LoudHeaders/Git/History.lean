import LoudHeaders.ChangeCounts
import LoudHeaders.Date
import LoudHeaders.Git.Message
import LoudHeaders.Git.Repository
import LoudHeaders.Trace

/-
  Counting changes along the history.

  From the head commit the walk follows first parents. Each commit is compared
  with its parent, and every path the difference names is counted once more. The
  walk ends when the given number of comparisons is done or at a commit without
  parents; the test for the number comes first, so a walk that ends exactly at
  the last commit does not report it as the root. Lost objects matter only where
  a comparison needs them.
-/

namespace LoudHeaders

namespace Git

/-- What the walk knows so far: the counts and how many comparisons were made. -/
structure Tally where
  counts : ChangeCounts
  walked : Nat
  deriving DecidableEq, Repr

/-- The result of a walk. -/
structure Statistics where
  counts : ChangeCounts
  walked : Nat
  reachedRoot : Bool
  deriving DecidableEq, Repr

namespace History

/-- The first digits of a commit's id, as log lines show it. -/
def shortId (c : Commit) : Text := c.id.take 7

/-- The line about a commit that is being processed. -/
def processingLine (c : Commit) : LogLine :=
  ⟨.history, .debug, "Processing ".toList ++ shortId c ++ " ".toList ++ Message.summary c.message⟩

/-- The line about a commit without parents. -/
def rootLine (c : Commit) : LogLine :=
  ⟨.history, .warn, "Commit ".toList ++ shortId c ++ " doesn't have any parents.".toList⟩

/-- The line about a path that a difference names. -/
def touchedLine (path : Text) : LogLine :=
  ⟨.history, .debug, "- ".toList ++ path ++ " was touched".toList⟩

/-- The line a walk starts with. -/
def openingLine (branch : Text) : Option Nat → LogLine
  | some n =>
    ⟨.history, .info,
      "Gathering changes from ".toList ++ Text.ofNat n ++ " latest commits on ".toList ++ branch⟩
  | none => ⟨.history, .info, "Gathering changes on ".toList ++ branch⟩

/-- The line a walk ends with. -/
def closingLine (t : Tally) (date : Text) : LogLine :=
  ⟨.history, .info, "Walked ".toList ++ Text.ofNat t.walked ++ " commits back to ".toList ++ date ++
    ", ".toList ++ Text.ofNat t.counts.size ++ " files changed".toList⟩

/-- Writes a line to the log. -/
def logLine (line : LogLine) : Session Unit := Session.log line.topic line.level line.message

/-- A tree that has to be there. -/
def treeOf (c : Commit) : Session Tree :=
  match c.tree with
  | some tree => pure tree
  | none => Session.fail (.history (.missing c.id))

/-- The paths in which a commit differs from its parent. -/
def touched (parent c : Commit) : Session (List Text) := do
  let old ← treeOf parent
  let new ← treeOf c
  return Tree.diff old new

/-- Counts the paths of one difference. -/
def Tally.add (workingTree : Text) (t : Tally) (paths : List Text) : Tally where
  counts := paths.foldl (fun counts p => counts.record (Path.join workingTree p)) t.counts
  walked := t.walked + 1

/-- Whether a bound leaves no comparison to make. -/
def exhausted (bound : Option Nat) : Bool := bound == some 0

/-- The bound after one comparison. -/
def lessOne (bound : Option Nat) : Option Nat := bound.map (· - 1)

/-- The walk along a lineage: what was counted, whether the root was met and the
commit the walk ended at. -/
def walk (workingTree : Text) (bound : Option Nat) (t : Tally) :
    Lineage → Session (Tally × Bool × Commit)
  | .root c =>
    if exhausted bound then return (t, false, c)
    else do
      logLine (processingLine c)
      logLine (rootLine c)
      return (t, true, c)
  | .broken c missing =>
    if exhausted bound then return (t, false, c)
    else do
      logLine (processingLine c)
      Session.fail (.history (.missing missing))
  | .child c older =>
    if exhausted bound then return (t, false, c)
    else do
      logLine (processingLine c)
      let paths ← touched older.head c
      paths.forM fun p => logLine (touchedLine p)
      walk workingTree (lessOne bound) (Tally.add workingTree t paths) older

/-- Logs the end of a walk. A date without a written form ends the run, but only
where the line would be shown. -/
def close (verbosity : Verbosity) (t : Tally) (last : Commit) : Session Unit :=
  match Date.spell last.time with
  | .written date => logLine (closingLine t date)
  | .unknown => logLine (closingLine t "an unknown date".toList)
  | .unwritable => if verbosity.shows .info then throw .unwritableDate else pure ()

/-- Counts the changes of an opened repository. -/
def statistics (verbosity : Verbosity) (r : Repository.Opened) (bound : Option Nat) :
    Session Statistics := do
  logLine (openingLine r.branch bound)
  let (t, reachedRoot, last) ← walk r.workingTree bound ⟨.empty, 0⟩ r.lineage
  close verbosity t last
  return { counts := t.counts, walked := t.walked, reachedRoot }

end History

/-- Counts the changes of the repository that a directory belongs to. -/
def gatherChanges (verbosity : Verbosity) (find : Finder) (directory : Text)
    (bound : Option Nat) : Session Statistics := do
  let opened ← Session.ofExcept (Error.repository directory)
    ((find directory).bind Repository.opened)
  History.statistics verbosity opened bound

end Git

end LoudHeaders
