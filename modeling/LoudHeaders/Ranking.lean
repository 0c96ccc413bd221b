import LoudHeaders.ChangeCounts
import LoudHeaders.HeaderIndex

/-
  Rankings.

  A header scores the number of targets that list it. With change counts it
  scores that number times the changes of the file it names, and a header whose
  file was never changed is left out. A relative header is taken from the
  directory of the first target that lists it. Equal scores stay in the order in
  which the headers were first listed. Scores are words of 64 bits; where one does
  not fit, there is no ranking.
-/

namespace LoudHeaders

/-- A path and its score. -/
structure RankEntry where
  path : Text
  score : Nat
  deriving DecidableEq, Repr

namespace Ranking

/-- The file a header names, taken from the directory of the first target that
lists it. -/
def fileOf (entry : HeaderEntry) : Text :=
  Path.absolutize ((entry.targets.head?.map CompileTarget.directory).getD ['/']) entry.header

/-- The weighted score of a header, if its file was ever changed. -/
def weighted? (changes : ChangeCounts) (entry : HeaderEntry) : Option RankEntry :=
  (changes.get? (fileOf entry)).map fun count =>
    ⟨entry.header, count * entry.targets.length⟩

/-- The score of a header by the number of its targets. -/
def plain (entry : HeaderEntry) : RankEntry := ⟨entry.header, entry.targets.length⟩

/-- The scored headers before they are ordered. -/
def candidates (index : HeaderIndex) : Option ChangeCounts → List RankEntry
  | none => index.sortedItems.map plain
  | some changes => index.items.filterMap (weighted? changes)

/-- Entries by falling score; equal ones stay in order. -/
def order (entries : List RankEntry) : List RankEntry :=
  entries.mergeSort fun a b => decide (b.score ≤ a.score)

/-- Whether all scores are words. -/
def fits (entries : List RankEntry) : Bool := entries.all fun e => e.score < Text.wordBound

/-- The first `n` headers, with change counts or without; none at all if one of the
scores is no word, even that of a header further down. -/
def rank (index : HeaderIndex) (changes : Option ChangeCounts) (n : Nat) :
    Option (List RankEntry) :=
  let entries := candidates index changes
  if fits entries then some ((order entries).take n) else none

/-- The first `n` files by change count. -/
def rankChanges (changes : ChangeCounts) (n : Nat) : List RankEntry :=
  (changes.sortedItems.take n).map fun entry => ⟨entry.path, entry.count⟩

end Ranking

end LoudHeaders
