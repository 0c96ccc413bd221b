import LoudHeaders.Git.Reference

/-
  Files of grafts.

  On each line of such a file the id of a commit stands in front of the ids of the
  parents it is to have, with single spaces between them. Lines about commits that
  are not there change nothing; here the files are only checked.
-/

namespace LoudHeaders

namespace Git

namespace Grafts

/-- Whether a text is a sequence of ids with a space in front of each; it has at most
`fuel` of them. -/
def areParents : Nat → Text → Bool
  | _, [] => true
  | 0, _ :: _ => false
  | fuel + 1, c :: rest =>
    c == ' ' && startsWithId rest && areParents fuel (rest.drop idLength)

/-- Checks lines, the first one having a number. -/
def checkLines (number : Nat) : List Text → Except Text Unit
  | [] => .ok ()
  | [[]] => .ok ()
  | line :: rest =>
    if !startsWithId line then
      .error ("invalid graft OID at line ".toList ++ Text.ofNat number)
    else if !areParents line.length (line.drop idLength) then
      .error ("invalid parent OID at line ".toList ++ Text.ofNat number)
    else checkLines (number + 1) rest

/-- Checks the text of a file. -/
def check (text : Text) : Except Text Unit := checkLines 1 (Text.pieces (· == '\n') text)

end Grafts

end Git

end LoudHeaders
