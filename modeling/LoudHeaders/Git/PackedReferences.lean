import LoudHeaders.Git.Reference

/-
  References packed into one file.

  The file starts with comments, lines with `#` in front. Every other line has an id
  and the name of a reference, and a line with `^` and an id may follow it. If the
  first comment says that the lines are sorted, a name is looked up by halving, and
  only the lines that are met need to be well-formed. Otherwise all of them do, and
  of several lines about one name the last counts.
-/

namespace LoudHeaders

namespace Git

namespace PackedReferences

/-- What is said about a file that does not follow the rules. -/
def corrupted : Text := "corrupted packed references file".toList

/-- What stands in front of an id that belongs to the line before. -/
def peelMark : Char := '^'

/-- Whether a text contains another one. -/
def mentions (part : Text) : Text → Bool
  | [] => part.isEmpty
  | c :: rest => part.isPrefixOf (c :: rest) || mentions part rest

/-- Whether the text starts with a comment that says the lines are sorted. -/
def isSorted (text : Text) : Bool :=
  let mark := "# pack-refs with:".toList
  match Text.cut '\n' text with
  | some (line, _) =>
    mark.isPrefixOf line && mentions " sorted ".toList (line.drop mark.length)
  | none => false

/-- The lines behind the comments in front. A line feed ends every line, so the last
text is none. -/
def withoutComments (lines : List Text) : Except Text (List Text) :=
  match lines.dropWhile fun line => line.head? == some '#' with
  | [] => .error corrupted
  | rest => .ok rest

/-- The name and the id on a line; a carriage return at its end does not count. -/
def entry? (line : Text) : Option (Text × Text) :=
  match line.drop idLength with
  | ' ' :: name =>
    if !startsWithId line then none
    else
      let name := if name.getLast? = some '\r' then name.dropLast else name
      some (name, line.take idLength)
  | _ => none

/-- The names and ids on lines behind the comments. -/
def entries : List Text → Except Text (List (Text × Text))
  | [] => .ok []
  | [rest] => if rest.isEmpty then .ok [] else .error corrupted
  | line :: mark :: rest =>
    match entry? line with
    | none => .error corrupted
    | some found =>
      if mark.head? = some peelMark then
        if !startsWithId (mark.drop 1) || (rest.isEmpty && mark.length != idLength + 1) then
          .error corrupted
        else (entries rest).map (found :: ·)
      else (entries (mark :: rest)).map (found :: ·)

/-- A line of a sorted file and the marked ones behind it: the text from there on, and
how many characters are its own. -/
abbrev Record : Type := Text × Nat

/-- The records of a text. -/
def records : Text → List Record
  | [] => []
  | c :: rest =>
    match records rest with
    | [] => [(c :: rest, 1)]
    | (text, size) :: more =>
      if c = '\n' && text.head? != some peelMark then (c :: rest, 1) :: (text, size) :: more
      else (c :: rest, size + 1) :: more

/-- The number of records in front of the one that holds a position. -/
def indexAt (position : Nat) : List Record → Nat
  | [] => 0
  | (_, size) :: more => if position < size then 0 else indexAt (position - size) more + 1

/-- The name on the line of a record; too little text has none. -/
def Record.name? (r : Record) : Option Text :=
  if Text.byteSize r.1 < idLength + 3 then none
  else some ((r.1.drop (idLength + 1)).takeWhile (· != '\n'))

/-- The id of a record. Its line has to end, and what is marked behind it has to be
an id. -/
def Record.id (r : Record) : Except Text Text :=
  match Text.cut '\n' (r.1.drop (idLength + 1)) with
  | none => .error corrupted
  | some (_, rest) =>
    if !startsWithId r.1 || (rest.head? == some peelMark && !startsWithId (rest.drop 1)) then
      .error corrupted
    else .ok (r.1.take idLength)

/-- Looks a name up by halving, in at most `steps` steps. -/
def search (name : Text) : Nat → List Record → Except Text (Option Text)
  | 0, _ => .ok none
  | steps + 1, found =>
    let middle := indexAt ((found.map (·.2)).sum / 2) found
    match found.drop middle with
    | [] => .ok none
    | r :: after =>
      match (r.name?.map fun other => Text.compare other name).getD .lt with
      | .lt => search name steps after
      | .gt => search name steps (found.take middle)
      | .eq => r.id.map some

/-- The id of the reference with a name, if the text has it. -/
def lookup? (text name : Text) : Except Text (Option Text) := do
  if text.isEmpty then return none
  let lines ← withoutComments (Text.pieces (· == '\n') text)
  if isSorted text then
    let found := records (Text.joinWith ['\n'] lines)
    search name found.length found
  else if text.contains '\x00' then throw corrupted
  else
    let found ← entries lines
    return (found.reverse.find? fun entry => entry.1 == name).map (·.2)

end PackedReferences

end Git

end LoudHeaders
