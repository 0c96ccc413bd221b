import LoudHeaders.Text.Basic

/-
  Trees and the difference between two of them.

  A tree lists what it holds by full path: files, which may be executable,
  links and submodules. Directories are not entries of their own. The difference
  names each path whose entry is not the same in both trees: once if the entry
  came, went or changed within its kind, and twice if its kind changed. The
  executable bit is part of a file, so a file that only gains or loses it is
  named. Paths come in the order of their bytes.
-/

namespace LoudHeaders

namespace Git

/-- What a tree can hold at a path. -/
inductive Entry where
  | file (content : Text) (executable : Bool)
  | link (target : Text)
  | submodule (id : Text)
  deriving DecidableEq, Repr

/-- The kinds of entry. -/
inductive Kind where
  | file
  | link
  | submodule
  deriving DecidableEq, Repr

/-- The kind of an entry. -/
def Entry.kind : Entry → Kind
  | .file _ _ => .file
  | .link _ => .link
  | .submodule _ => .submodule

/-- The entries of a tree by path, each path once. -/
abbrev Tree : Type := List (Text × Entry)

namespace Tree

/-- The entry at a path. -/
def get? (t : Tree) (path : Text) : Option Entry := (t.find? fun e => e.1 == path).map (·.2)

/-- The tree without the entry at a path. -/
def remove (t : Tree) (path : Text) : Tree := t.filter fun e => e.1 != path

/-- Whether one path lies below the other, as `a/b` lies below `a`. -/
def below (path above : Text) : Bool := (above ++ ['/']).isPrefixOf path

/-- The tree with an entry at a path. What was there goes, and so does a file
where the path needs a directory and all that lies below the path. -/
def put (t : Tree) (path : Text) (entry : Entry) : Tree :=
  (t.filter fun e => e.1 != path && !below e.1 path && !below path e.1) ++ [(path, entry)]

/-- The paths of a tree. -/
def paths (t : Tree) : List Text := t.map (·.1)

/-- How often the difference names a path with these entries before and after. -/
def touches : Option Entry → Option Entry → Nat
  | none, none => 0
  | none, some _ => 1
  | some _, none => 1
  | some a, some b => if a = b then 0 else if a.kind = b.kind then 1 else 2

/-- The paths of either tree in the order of their bytes, each once. -/
def jointPaths (old new : Tree) : List Text :=
  (old.paths ++ new.paths.filter fun p => (old.get? p).isNone).mergeSort
    fun p q => (Text.compare p q).isLE

/-- The paths the difference names. -/
def diff (old new : Tree) : List Text :=
  (jointPaths old new).flatMap fun p => List.replicate (touches (old.get? p) (new.get? p)) p

end Tree

end Git

end LoudHeaders
