import LoudHeaders.Text.Basic

/-
  Paths as texts and as lists of components.

  A path is kept in the spelling it was given. Its components are what two
  spellings have in common: repeated and trailing slashes disappear, and so does
  every `.` except one at the very front. Paths are equal, and are ordered, by
  their components: the root first, then `.`, then `..`, then names by code
  point, and a path that begins another one before it.
-/

namespace LoudHeaders

/-- One step of a path. -/
inductive Component where
  | root
  | here
  | up
  | name (text : Text)
  deriving DecidableEq, Repr

namespace Component

/-- The component written between two slashes; an empty one and a `.` are
none. -/
def ofPiece? : Text → Option Component
  | [] => none
  | ['.'] => none
  | ['.', '.'] => some .up
  | piece => some (.name piece)

/-- The component as it is written. -/
def text : Component → Text
  | .root => ['/']
  | .here => ['.']
  | .up => ['.', '.']
  | .name s => s

/-- The place of the kinds of component in the order of paths. -/
def kindRank : Component → Nat
  | .root => 0
  | .here => 1
  | .up => 2
  | .name _ => 3

/-- Components compare by kind, names among themselves as texts. -/
def compare : Component → Component → Ordering
  | .name s, .name t => Text.compare s t
  | a, b => Ord.compare a.kindRank b.kindRank

end Component

namespace Path

/-- Whether a path starts at the root. -/
def isAbsolute : Text → Bool
  | '/' :: _ => true
  | _ => false

/-- The pieces of a path between its slashes. -/
def pieces (p : Text) : List Text := Text.pieces (· == '/') p

/-- The components of a path. -/
def components (p : Text) : List Component :=
  let steps := (pieces p).filterMap Component.ofPiece?
  if isAbsolute p then .root :: steps
  else if (pieces p).head? = some ['.'] then .here :: steps
  else steps

/-- Two spellings of the same path. -/
def same (p q : Text) : Bool := components p == components q

/-- The order of component lists: the first difference decides, and a proper
beginning comes first. -/
def compareComponents : List Component → List Component → Ordering
  | [], [] => .eq
  | [], _ :: _ => .lt
  | _ :: _, [] => .gt
  | a :: s, b :: t => (a.compare b).then (compareComponents s t)

/-- The order of paths. -/
def compare (p q : Text) : Ordering := compareComponents (components p) (components q)

/-- The path that `p` means when it is taken from `base`: itself if it starts at
the root, else `base` and `p` with one slash between them unless `base` is empty
or already ends with one. -/
def join (base p : Text) : Text :=
  if isAbsolute p then p
  else if base.isEmpty || base.getLast? = some '/' then base ++ p
  else base ++ '/' :: p

/-- A path up to its last slash. -/
def folder (p : Text) : Text := (p.reverse.dropWhile (· != '/')).reverse

end Path

end LoudHeaders
