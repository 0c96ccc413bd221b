import LoudHeaders.Git.Config
import LoudHeaders.Path.Wildcard

/-
  Conditions in configuration files.

  A file can be read on the condition that the repository is in a certain place or
  on a certain branch. Both are patterns of paths. Small and capital letters can
  count as the same in the pattern of a place. A pattern that ends in a slash stands
  for whatever is below.
-/

namespace LoudHeaders

namespace Git

namespace Config

/-- What conditions are about: the path of the repository's data, and the branch that
HEAD names. -/
structure Surroundings where
  data : Text
  branch : Option Text
  deriving DecidableEq, Repr

/-- The branch that the text of HEAD names. -/
def branchOf? (head : Text) : Option Text :=
  let mark := refMark ++ "refs/heads/".toList
  let text := trimFileEnd head
  if mark.isPrefixOf text then some (beforeZero (text.drop mark.length)) else none

/-- A pattern for everything below, if it ends in a slash. -/
def withEverything (pattern : Text) : Text :=
  if pattern.getLast? = some '/' then pattern ++ ['*', '*'] else pattern

/-- The pattern that a condition in a file puts on the place of a repository. There is
none for what is below a home directory. -/
def placePattern? (path condition : Text) : Option Text :=
  match condition with
  | '.' :: '/' :: rest => some (withEverything (Path.folder path ++ rest))
  | '~' :: '/' :: _ => none
  | _ =>
    if Path.isAbsolute condition then some (withEverything condition)
    else some ("**/".toList ++ withEverything condition)

/-- Whether a condition in the file with a path holds. -/
def Surroundings.satisfy (s : Surroundings) (path condition : Text) : Bool :=
  match Text.cut ':' condition with
  | none => false
  | some (kind, rest) =>
    if kind == "gitdir".toList then
      (placePattern? path rest).any fun pattern => Path.isLike pattern s.data
    else if kind == "gitdir/i".toList then
      (placePattern? path rest).any fun pattern => Path.isLike (lowered pattern) (lowered s.data)
    else if kind == "onbranch".toList then
      s.branch.any fun branch => Path.isLike (withEverything rest) branch
    else false

/-- The condition in the name of a variable that names a file to be read. -/
def condition? (name : Text) : Option Text :=
  let front := "includeif.".toList
  let back := ".path".toList
  if front.isPrefixOf name && back.isSuffixOf name && front.length + back.length ≤ name.length then
    some ((name.drop front.length).take (name.length - front.length - back.length))
  else none

/-- The path of the file that a variable in a file asks to be read, if it asks for
one. -/
def Surroundings.included? (s : Surroundings) (path : Text) (v : Variable) : Option Text :=
  let file := v.value.map fun file => Path.join (Path.folder path) file
  if v.name == "include.path".toList then file
  else match condition? v.name with
    | some condition => if s.satisfy path condition then file else none
    | none => none

end Config

end Git

end LoudHeaders
