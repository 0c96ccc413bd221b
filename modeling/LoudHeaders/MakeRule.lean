import LoudHeaders.Text.Blank

/-
  Make rules as compilers print them.

  A rule is a target, a colon and the files the target depends on. Everything
  up to the first colon is the target. Behind it every backslash counts as a
  space, so that continued lines join up, and the words are the dependencies in
  the order they are listed.
-/

namespace LoudHeaders

/-- A target and what it depends on, duplicates kept. -/
structure MakeRule where
  target : Text
  dependencies : List Text
  deriving DecidableEq, Repr

namespace MakeRule

/-- A backslash read as a space. -/
def plain (c : Char) : Char := if c = '\\' then ' ' else c

/-- The rule written by a text, if there is a colon in it. -/
def parse? (s : Text) : Option MakeRule :=
  (Text.cut ':' s).map fun halves =>
    { target := Text.trim halves.1, dependencies := Text.words (halves.2.map plain) }

end MakeRule

end LoudHeaders
