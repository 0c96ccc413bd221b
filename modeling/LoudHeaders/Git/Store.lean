import LoudHeaders.Git.Tree

/-
  Commits and the first-parent line.

  Commits are numbered, and a commit's parents have smaller numbers. Objects can
  be missing: a lost commit is not found, and a commit can name a tree that is
  not there. The lineage of a commit is what following first parents meets: it
  ends at a commit without parents or at one whose first parent is missing.
-/

namespace LoudHeaders

namespace Git

/-- A commit. Its tree is absent if the tree object is missing. -/
structure Commit where
  id : Text
  parents : List Nat
  tree : Option Tree
  message : Text
  time : Int
  deriving DecidableEq, Repr

/-- The commits of a repository by number, and the numbers of the lost ones. -/
structure Store where
  commits : List Commit
  lost : List Nat
  deriving DecidableEq, Repr

namespace Store

/-- The commit with a number, unless it is missing. -/
def find? (s : Store) (n : Nat) : Option Commit :=
  if s.lost.contains n then none else s.commits[n]?

/-- The id that a commit number stands for, whether the commit is there or
not. -/
def idOf (s : Store) (n : Nat) : Text := ((s.commits[n]?).map Commit.id).getD []

/-- The number of the commit with an id. -/
def number? (s : Store) (id : Text) : Option Nat := s.commits.findIdx? fun c => c.id == id

end Store

/-- A commit and what lies behind it along first parents. -/
inductive Lineage where
  | root (commit : Commit)
  | broken (commit : Commit) (missing : Text)
  | child (commit : Commit) (older : Lineage)
  deriving DecidableEq, Repr

namespace Lineage

/-- The commit the lineage starts with. -/
def head : Lineage → Commit
  | .root c => c
  | .broken c _ => c
  | .child c _ => c

/-- The number of commits along the lineage. -/
def length : Lineage → Nat
  | .root _ => 1
  | .broken _ _ => 1
  | .child _ older => older.length + 1

end Lineage

/-- The lineage of commit number `n`, which is `c`. A parent whose number is not
smaller than its child's is not there. -/
def Store.lineage (s : Store) (n : Nat) (c : Commit) : Lineage :=
  match c.parents with
  | [] => .root c
  | p :: _ =>
    if _h : p < n then
      match s.find? p with
      | some parent => .child c (s.lineage p parent)
      | none => .broken c (s.idOf p)
    else .broken c (s.idOf p)
termination_by n

end Git

end LoudHeaders
