import LoudHeaders.Machine.SystemError
import LoudHeaders.Path.Basic
import LoudHeaders.Text.Utf8

/-
  Files and directories.

  A file tree lists what is at each place; whatever lies above something listed
  is a directory. A path is walked piece by piece from a place, and every piece,
  empty ones and `.` included, needs a directory to stand on.
-/

namespace LoudHeaders

namespace Machine

/-- A place in the file system: the names that lead there from the root. -/
abbrev Place : Type := List Text

/-- A place as a path. -/
def Place.path : Place → Text
  | [] => ['/']
  | names => names.flatMap fun name => '/' :: name

/-- What can be at a place. -/
inductive Item where
  | directory
  | file (bytes : List UInt8)
  deriving DecidableEq, Repr

/-- What is listed, by place. -/
abbrev FileTree : Type := List (Place × Item)

namespace FileTree

/-- What is at a place. -/
def item? (t : FileTree) (place : Place) : Option Item :=
  match t.find? fun entry => entry.1 == place with
  | some entry => some entry.2
  | none => if place.isEmpty || t.any fun entry => place.isPrefixOf entry.1 then some .directory
    else none

/-- Whether a place is a directory. -/
def isDirectory (t : FileTree) (place : Place) : Bool := t.item? place == some .directory

/-- The bytes of the file at a place, if there is a file. -/
def bytes? (t : FileTree) (place : Place) : Option (List UInt8) :=
  match t.item? place with
  | some (.file bytes) => some bytes
  | _ => none

/-- The longest name a directory can hold, in bytes. -/
def maxName : Nat := 255

/-- Paths are shorter than this, in bytes. -/
def maxPath : Nat := 4096

/-- The place one piece of a path leads to. -/
def descend (t : FileTree) (place : Place) (piece : Text) : Except SystemError Place :=
  if !t.isDirectory place then .error .notDirectory
  else if piece.isEmpty || piece == ['.'] then .ok place
  else if piece == ['.', '.'] then .ok place.dropLast
  else if maxName < Text.byteSize piece then .error .nameTooLong
  else if (t.item? (place ++ [piece])).isSome then .ok (place ++ [piece])
  else .error .notFound

/-- The place a path of any length leads to from a directory. -/
def follow (t : FileTree) (directory : Place) (path : Text) : Except SystemError Place :=
  if path.isEmpty then .error .notFound
  else (Path.pieces path).foldlM t.descend (if Path.isAbsolute path then [] else directory)

/-- The place a path leads to from a directory. -/
def resolve (t : FileTree) (directory : Place) (path : Text) : Except SystemError Place :=
  if maxPath ≤ Text.byteSize path then .error .nameTooLong else t.follow directory path

/-- The bytes of the file a path leads to. -/
def readBytes (t : FileTree) (directory : Place) (path : Text) :
    Except SystemError (List UInt8) :=
  match t.resolve directory path with
  | .error e => .error e
  | .ok place =>
    match t.item? place with
    | some (.file bytes) => .ok bytes
    | some .directory => .error .isDirectory
    | none => .error .notFound

/-- The text of the file a path leads to. -/
def readText (t : FileTree) (directory : Place) (path : Text) : Except ReadFailure Text :=
  if path.contains '\x00' then .error .zeroInName
  else match t.readBytes directory path with
    | .error e => .error (.refused e)
    | .ok bytes =>
      match Utf8.decode? bytes with
      | some text => .ok text
      | none => .error .notText

end FileTree

end Machine

end LoudHeaders
