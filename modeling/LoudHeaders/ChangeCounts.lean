import LoudHeaders.Path.Basic

/-
  How often each file was changed.

  The counts are kept per path, where paths with the same components are one and
  the first spelling stays. Listed, they are ordered by falling count and then
  by path, so the order of counting does not show.
-/

namespace LoudHeaders

/-- A path and its count. -/
structure ChangeCount where
  path : Text
  count : Nat
  deriving DecidableEq, Repr

/-- The counts, one for each path, in the order the paths came up. -/
structure ChangeCounts where
  counts : List ChangeCount
  deriving DecidableEq, Repr

namespace ChangeCounts

/-- No path counted. -/
def empty : ChangeCounts := ⟨[]⟩

/-- Changes the count of a path, which starts at zero, keeping its first
spelling. -/
def update (path : Text) (change : Nat → Nat) : List ChangeCount → List ChangeCount
  | [] => [⟨path, change 0⟩]
  | entry :: rest =>
    if Path.same entry.path path then { entry with count := change entry.count } :: rest
    else entry :: update path change rest

/-- The count of a path, if it was ever counted. -/
def get? (c : ChangeCounts) (path : Text) : Option Nat :=
  (c.counts.find? fun entry => Path.same entry.path path).map ChangeCount.count

/-- Counts one more change of a path. -/
def record (c : ChangeCounts) (path : Text) : ChangeCounts := ⟨update path (· + 1) c.counts⟩

/-- Counts one more change of a path, unless its count is the largest word. -/
def record? (c : ChangeCounts) (path : Text) : Option ChangeCounts :=
  if (c.get? path).any fun count => Text.wordBound ≤ count + 1 then none else some (c.record path)

/-- Sets the count of a path. -/
def set (c : ChangeCounts) (path : Text) (count : Nat) : ChangeCounts :=
  ⟨update path (fun _ => count) c.counts⟩

/-- The counts of a list of pairs; a later count of a path replaces an earlier
one. -/
def ofList (pairs : List (Text × Nat)) : ChangeCounts :=
  pairs.foldl (fun c pair => c.set pair.1 pair.2) empty

/-- The number of paths. -/
def size (c : ChangeCounts) : Nat := c.counts.length

/-- Larger counts come first, equal ones by path. -/
def before (a b : ChangeCount) : Bool :=
  b.count < a.count || (b.count == a.count && (Path.compare a.path b.path).isLE)

/-- The counts in order. -/
def sortedItems (c : ChangeCounts) : List ChangeCount := c.counts.mergeSort before

end ChangeCounts

end LoudHeaders
