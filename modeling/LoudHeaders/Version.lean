import LoudHeaders.Text.Blank

/-
  Version numbers of three parts.

  A version is read from the front of a text: its parts stand between points,
  each part is the run of digits it starts with, and what follows the run is
  ignored. The first part must be there; the second and third count as zero
  when they are missing or do not fit a word.
-/

namespace LoudHeaders

/-- A version, most significant part first. -/
structure Version where
  major : Nat
  minor : Nat
  patch : Nat
  deriving DecidableEq, Repr

namespace Version

/-- The number at the front of one part. -/
def part? (piece : Text) : Option Nat := Text.word? (piece.takeWhile Char.isDigit)

/-- The version at the front of a text, blanks around it ignored. -/
def parse? (s : Text) : Option Version :=
  let parts := (Text.pieces (· == '.') (Text.trim s)).map part?
  match parts with
  | some major :: rest => some {
      major
      minor := (rest.head?.bind id).getD 0
      patch := (rest.tail.head?.bind id).getD 0 }
  | _ => none

/-- Versions are ordered part by part, the most significant first. -/
def atLeast (v least : Version) : Bool :=
  least.major < v.major ||
    (least.major == v.major &&
      (least.minor < v.minor || (least.minor == v.minor && least.patch ≤ v.patch)))

end Version

end LoudHeaders
