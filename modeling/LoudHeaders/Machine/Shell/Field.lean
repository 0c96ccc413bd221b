import LoudHeaders.Machine.Shell.State

/-
  Fields of words.

  When a word is used, its parts become pieces: characters that stand for
  themselves, characters that came out of a parameter or a command and may be
  gaps, and boundaries. The pieces between gaps are the fields. A run of blanks is
  one gap; any other separator is a gap of its own, together with the blanks
  around it.

  This serves only the world the program is run in; no theorem is about it (see
  Machine/Shell/Basic).
-/

namespace LoudHeaders

namespace Machine

namespace Shell

/-- A piece of a word that is being used. A `mark` makes a field of nothing else a
field, and `nothing` undoes that where quotes hold no argument at all. -/
inductive Piece where
  | char (m : Mark) (splits : Bool)
  | mark
  | boundary
  | nothing
  deriving DecidableEq, Repr

namespace Piece

/-- The pieces of a value. -/
def ofValue (inQuotes : Bool) (value : Text) : List Piece :=
  value.map fun c => .char ⟨c, inQuotes⟩ (!inQuotes)

/-- The character a piece is, if it is one. -/
def mark? : Piece → Option Mark
  | .char m _ => some m
  | .boundary => some ⟨' ', true⟩
  | _ => none

/-- The characters of pieces that are not split. -/
def marks (pieces : List Piece) : List Mark := pieces.filterMap mark?

/-- The text of pieces that are not split. -/
def text (pieces : List Piece) : Text := textOf (marks pieces)

end Piece

/-- Fields that are being collected: the finished ones, the one under way, and
whether a run of blanks has just ended one. -/
structure Splitter where
  fields : List (List Mark)
  current : Option (List Mark)
  afterBlank : Bool

namespace Splitter

/-- Nothing collected. -/
def start : Splitter := ⟨[], none, false⟩

/-- Ends the field under way. -/
def finish (p : Splitter) : Splitter :=
  { p with fields := p.fields ++ p.current.toList, current := none }

/-- A separator that counts together with its neighbours. -/
def isBlank (c : Char) : Bool := c == ' ' || c == '\t' || c == '\n'

/-- Takes up one piece. -/
def step (separators : Text) (p : Splitter) (piece : Piece) : Splitter :=
  match piece with
  | .mark => { p with current := some (p.current.getD []) }
  | .boundary => { p.finish with afterBlank := false }
  | .nothing => p
  | .char m splits =>
    if splits && separators.contains m.char then
      if isBlank m.char then
        if p.current.isSome then { p.finish with afterBlank := true } else p
      else if p.current.isSome then { p.finish with afterBlank := false }
      else if p.afterBlank then { p with afterBlank := false }
      else { p with fields := p.fields ++ [[]] }
    else { p with current := some (p.current.getD [] ++ [m]), afterBlank := false }

end Splitter

/-- The fields that pieces make. -/
def fieldsOf (separators : Text) (pieces : List Piece) : List (List Mark) :=
  let onlyMarks := pieces.all fun p => p == .mark || p == .nothing
  if onlyMarks && pieces.contains .nothing then []
  else (pieces.foldl (Splitter.step separators) .start).finish.fields

end Shell

end Machine

end LoudHeaders
