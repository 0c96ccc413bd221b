import LoudHeaders.Git.Reference
import LoudHeaders.Git.Store

/-
  Repositories and their heads.

  A repository has reference files, ids of packed references, and objects. HEAD
  leads, through at most a few further references, to an id; annotated tags lead
  on to the objects they name. What HEAD resolves to has to be a commit that is
  there.
-/

namespace LoudHeaders

namespace Git

/-- The objects of a repository: its commits, and tags by their id and the id they
name. -/
structure Objects where
  store : Store
  tags : List (Text × Text)
  deriving DecidableEq, Repr

namespace Objects

/-- No objects. -/
def empty : Objects := ⟨⟨[], []⟩, []⟩

/-- The object an id leads to through at most `steps` tags. -/
def peel (o : Objects) : Nat → Text → Text
  | 0, id => id
  | steps + 1, id =>
    match o.tags.find? fun tag => tag.1 == id with
    | some tag => o.peel steps tag.2
    | none => id

/-- The commit an id leads to, with its number. -/
def commit? (o : Objects) (id : Text) : Option (Nat × Commit) := do
  let n ← o.store.number? (o.peel o.tags.length id)
  let c ← o.store.find? n
  return (n, c)

end Objects

/-- What is found where the file of a reference should be. -/
inductive ReferenceFile where
  | absent
  | content (text : Text)
  | refused (reason : Text)
  deriving DecidableEq, Repr

/-- A repository: the path of its working tree with a slash at the end, unless it
is bare; its reference files by name; the ids of packed references by name; and its
objects. -/
structure Repository where
  workingTree : Option Text
  file : Text → ReferenceFile
  packed : Text → Except Text (Option Text)
  objects : Objects

/-- The branch a head stands for and the id it holds. -/
structure Head where
  branch : Text
  id : Text
  deriving DecidableEq, Repr

namespace Repository

/-- Reads the reference with a name. Its file comes before what is packed. -/
def lookup (r : Repository) (name : Text) : Except Text Reference :=
  match r.file name with
  | .content text => Reference.ofText name text
  | .refused reason => .error reason
  | .absent =>
    match r.packed name with
    | .error reason => .error reason
    | .ok (some id) => .ok (.direct id)
    | .ok none => .error ("reference '".toList ++ name ++ "' not found".toList)

/-- How many references may follow the one that HEAD names. -/
def maxNesting : Nat := 5

/-- Follows a reference through at most `steps` further ones. -/
def resolve (r : Repository) : Nat → Text → Reference → Except Text Head
  | _, name, .direct id => .ok ⟨ReferenceName.shorthand name, id⟩
  | 0, _, .symbolic _ =>
    .error ("cannot resolve reference (>".toList ++ Text.ofNat maxNesting ++
      " levels deep)".toList)
  | steps + 1, _, .symbolic target => do r.resolve steps target (← r.lookup target)

/-- What HEAD says, or why it says nothing. -/
def readHead (r : Repository) : Except Text Head := do
  match ← r.lookup ReferenceName.head with
  | .direct id => return ⟨ReferenceName.head, id⟩
  | .symbolic target =>
    let name ← ReferenceName.normalized target
    r.resolve maxNesting name (← r.lookup name)

/-- A repository that can be walked: where its files are, the branch, and the
lineage of the head commit. -/
structure Opened where
  workingTree : Text
  branch : Text
  lineage : Lineage

/-- Opens a repository for walking, or says why that cannot be done. -/
def opened (r : Repository) : Except Text Opened :=
  match r.workingTree with
  | none => .error "repository has no working tree".toList
  | some workingTree =>
    match r.readHead with
    | .error reason => .error reason
    | .ok head =>
      match r.objects.commit? head.id with
      | none => .error "HEAD does not point to a commit".toList
      | some (n, c) => .ok ⟨workingTree, head.branch, r.objects.store.lineage n c⟩

end Repository

/-- Finds the repository that a directory belongs to, or says why there is
none. -/
abbrev Finder : Type := Text → Except Text Repository

end Git

end LoudHeaders
