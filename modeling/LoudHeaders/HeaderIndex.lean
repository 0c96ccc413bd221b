import Std.Data.HashMap
import LoudHeaders.Extraction

/-
  Which targets include each header.

  The index holds an entry per header, in the order in which the headers were
  first listed, and a table from each header to the place of its entry. Adding a
  target appends it to the entry of every header it lists, once per listing.
-/

namespace LoudHeaders

/-- A header and the targets that list it, in the order they were added. -/
structure HeaderEntry where
  header : Text
  targets : List CompileTarget
  deriving DecidableEq, Repr

/-- Headers are hashed character by character. -/
instance : Hashable Text := @instHashableList Char instHashableChar

/-- The headers seen so far and where the entry of each one is. -/
structure HeaderIndex where
  positions : Std.HashMap Text Nat
  entries : Array HeaderEntry

namespace HeaderIndex

/-- No header at all. -/
def empty : HeaderIndex := ⟨∅, #[]⟩

/-- Appends a target to an entry. -/
def appendTarget (target : CompileTarget) (entry : HeaderEntry) : HeaderEntry :=
  { entry with targets := entry.targets ++ [target] }

/-- Adds a target to the entry of one header, which is made if need be. -/
def list (target : CompileTarget) (index : HeaderIndex) (header : Text) : HeaderIndex :=
  match index.positions[header]? with
  | some place => { index with entries := index.entries.modify place (appendTarget target) }
  | none => {
      positions := index.positions.insert header index.entries.size
      entries := index.entries.push ⟨header, [target]⟩ }

/-- Adds a target to the entry of every header it lists. -/
def add (index : HeaderIndex) (target : CompileTarget) : HeaderIndex :=
  target.dependencies.foldl (list target) index

/-- The index of a list of targets, added one after the other. -/
def ofTargets (targets : List CompileTarget) : HeaderIndex := targets.foldl add empty

/-- The entries in the order in which their headers were first listed. -/
def items (index : HeaderIndex) : List HeaderEntry := index.entries.toList

/-- The entries by falling number of targets; equal ones stay in order. -/
def sortedItems (index : HeaderIndex) : List HeaderEntry :=
  index.items.mergeSort fun a b => decide (b.targets.length ≤ a.targets.length)

/-- The number of headers. -/
def size (index : HeaderIndex) : Nat := index.entries.size

/-- Whether there is no header. -/
def isEmpty (index : HeaderIndex) : Bool := index.size == 0

/-- The targets that list a header. -/
def targetsOf (index : HeaderIndex) (header : Text) : List CompileTarget :=
  match index.positions[header]? with
  | none => []
  | some place => ((index.entries[place]?).map HeaderEntry.targets).getD []

end HeaderIndex

end LoudHeaders
