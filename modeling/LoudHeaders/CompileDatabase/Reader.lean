import LoudHeaders.CompileDatabase.Basic
import LoudHeaders.Json.Skip

/-
  Reading a compile database.

  The database is a JSON list of entries. An entry is a map with the fields
  `file`, `directory` and `command`, each exactly once and each a text, next to
  any other members; or a list of just these three texts. The first fault ends
  the reading, so a database is read whole or not at all.

  The readers of entries, members and skipped values share one bound, worked out
  from the length of the whole text. What is read shortens the text by more than
  it lowers the bound, so the bound is never the reason to stop.
-/

namespace LoudHeaders

namespace CompileDatabase

open Json

/-- The three fields of an entry. -/
inductive Field where
  | file
  | directory
  | command
  deriving DecidableEq, Repr

namespace Field

/-- The key of a field. -/
def key : Field → Text
  | .file => ['f', 'i', 'l', 'e']
  | .directory => ['d', 'i', 'r', 'e', 'c', 't', 'o', 'r', 'y']
  | .command => ['c', 'o', 'm', 'm', 'a', 'n', 'd']

/-- What a fault says was wanted for the field. -/
def wanted : Field → Text
  | .file => "path string".toList
  | .directory => "path string".toList
  | .command => "a string".toList

/-- The fields in the order of an entry written as a list. -/
def all : List Field := [.file, .directory, .command]

/-- The field with a key. -/
def ofKey? (key : Text) : Option Field := all.find? fun field => field.key == key

end Field

/-- The fields of an entry read so far. -/
structure Entry where
  file : Option Text
  directory : Option Text
  command : Option Text
  deriving DecidableEq, Repr

namespace Entry

/-- No field read. -/
def empty : Entry := ⟨none, none, none⟩

/-- The value of a field. -/
def get? (e : Entry) : Field → Option Text
  | .file => e.file
  | .directory => e.directory
  | .command => e.command

/-- The entry with a field set. -/
def set (e : Entry) (value : Text) : Field → Entry
  | .file => { e with file := some value }
  | .directory => { e with directory := some value }
  | .command => { e with command := some value }

/-- The command of a full entry, or the first field that is missing. -/
def finish (e : Entry) : Except Reason CompileCommand :=
  match e.file, e.directory, e.command with
  | some file, some directory, some command => .ok { file, directory, command }
  | none, _, _ => .error (.missingField Field.file.key)
  | _, none, _ => .error (.missingField Field.directory.key)
  | _, _, none => .error (.missingField Field.command.key)

end Entry

/-- The fault for a value that is not of the wanted kind. Short values are read
to the end first; a value that is malformed itself is reported instead. -/
def mismatch (wanted : Text) : Text → Fault
  | [] => .next [] .endInValue
  | c :: rest =>
    let report (found : Except Fault (Found × Text)) : Fault :=
      match found with
      | .error fault => fault
      | .ok (found, rest) => .here rest (.mismatch found wanted)
    if c = 'n' then report ((readLiteral ['u', 'l', 'l'] rest).map fun rest => (.null, rest))
    else if c = 't' then
      report ((readLiteral ['r', 'u', 'e'] rest).map fun rest => (.boolean true, rest))
    else if c = 'f' then
      report ((readLiteral ['a', 'l', 's', 'e'] rest).map fun rest => (.boolean false, rest))
    else if c = '-' || c.isDigit then
      report do
        let (numeral, rest) ← scanNumeral .endInValue (c :: rest)
        return (← numeral.found rest, rest)
    else if c = '"' then report ((readText 0 rest).map fun found => (.text found.1, found.2))
    else if c = '[' then .here (c :: rest) (.mismatch .list wanted)
    else if c = '\x7b' then .here (c :: rest) (.mismatch .map wanted)
    else .next (c :: rest) .expectedValue

/-- A text where one of the given kind is wanted, and what follows it. -/
def readWanted (wanted s : Text) : Except Fault (Text × Text) :=
  match skipSpace s with
  | '"' :: rest => readText 0 rest
  | other => .error (mismatch wanted other)

/-- What is behind the colon that follows a key. -/
def readColon (s : Text) : Except Fault Text :=
  match skipSpace s with
  | ':' :: rest => .ok rest
  | [] => .error (.next [] .endInObject)
  | other => .error (.next other .expectedColon)

/-- The fault for a field that is given twice. The closing brace is read if it
comes next. -/
def duplicateFault (field : Field) (s : Text) : Fault :=
  match skipSpace s with
  | '\x7d' :: rest => .here rest (.duplicateField field.key)
  | other => .here other (.duplicateField field.key)

/-- The entry with one more member, whose key has been read, and what follows
the member. -/
def readMember (bound : Nat) (e : Entry) (key s : Text) : Except Fault (Entry × Text) :=
  match Field.ofKey? key with
  | none => do
    let rest ← skipValue bound (← readColon s)
    return (e, rest)
  | some field =>
    if (e.get? field).isSome then .error (duplicateFault field s)
    else do
      let (value, rest) ← readWanted field.wanted (← readColon s)
      return (e.set value field, rest)

/-- The start of a member: its key behind the opening quote. -/
def readKey : Text → Except Fault (Text × Text)
  | '"' :: rest => readText 0 rest
  | other => .error (.next other .keyNotText)

/-- The start of a member behind a comma. -/
def readNextKey (s : Text) : Except Fault (Text × Text) :=
  match skipSpace s with
  | [] => .error (.next [] .endInValue)
  | '\x7d' :: rest => .error (.next ('\x7d' :: rest) .trailingComma)
  | other => readKey other

/-- The members of an entry behind those read so far. -/
def readMembers : Nat → Entry → Text → Except Fault (CompileCommand × Text)
  | 0, _, s => .error (.here s .endInObject)
  | bound + 1, e, s =>
    match skipSpace s with
    | [] => .error (.next [] .endInObject)
    | c :: rest =>
      if c = '\x7d' then
        match e.finish with
        | .ok command => .ok (command, rest)
        | .error reason => .error (.here rest reason)
      else if c = ',' then do
        let (key, rest) ← readNextKey rest
        let (e, rest) ← readMember bound e key rest
        readMembers bound e rest
      else .error (.next (c :: rest) .expectedCommaOrBrace)

/-- An entry written as a map, behind its opening brace. -/
def readMap (bound : Nat) (s : Text) : Except Fault (CompileCommand × Text) :=
  match skipSpace s with
  | [] => .error (.next [] .endInObject)
  | '\x7d' :: rest => readMembers bound .empty ('\x7d' :: rest)
  | other => do
    let (key, rest) ← readKey other
    let (e, rest) ← readMember bound .empty key rest
    readMembers bound e rest

/-- What an entry written as a list is wanted to be. -/
def wantedList : Text := "struct CompileCommand with 3 elements".toList

/-- The fields of an entry written as a list, `count` of them read already, up
to the last of `fields`. -/
def readFields (e : Entry) (count : Nat) : List Field → Text → Except Fault (Entry × Text)
  | [], s => .ok (e, s)
  | field :: more, s =>
    match skipSpace s with
    | [] => .error (.next [] .endInList)
    | ']' :: rest => .error (.here rest (.lengthMismatch count wantedList))
    | c :: rest =>
      if count = 0 then do
        let (value, rest) ← readWanted field.wanted (c :: rest)
        readFields (e.set value field) (count + 1) more rest
      else if c = ',' then
        match skipSpace rest with
        | [] => .error (.next [] .endInValue)
        | ']' :: rest => .error (.next (']' :: rest) .trailingComma)
        | other => do
          let (value, rest) ← readWanted field.wanted other
          readFields (e.set value field) (count + 1) more rest
      else .error (.next (c :: rest) .expectedCommaOrBracket)

/-- What is behind the bracket that closes an entry written as a list. -/
def readListEnd (s : Text) : Except Fault Text :=
  match skipSpace s with
  | [] => .error (.next [] .endInList)
  | ']' :: rest => .ok rest
  | ',' :: rest =>
    match skipSpace rest with
    | ']' :: more => .error (.next (']' :: more) .trailingComma)
    | other => .error (.next other .trailingCharacters)
  | other => .error (.next other .trailingCharacters)

/-- An entry written as a list, behind its opening bracket. -/
def readList (s : Text) : Except Fault (CompileCommand × Text) := do
  let (e, rest) ← readFields .empty 0 Field.all s
  let rest ← readListEnd rest
  match e.finish with
  | .ok command => return (command, rest)
  | .error reason => .error (.here rest reason)

/-- An entry, and what follows it. -/
def readEntry (bound : Nat) (s : Text) : Except Fault (CompileCommand × Text) :=
  match skipSpace s with
  | [] => .error (.next [] .endInValue)
  | c :: rest =>
    if c = '\x7b' then readMap bound rest
    else if c = '[' then readList rest
    else .error (mismatch "struct CompileCommand".toList (c :: rest))

/-- The entries behind those read so far, up to the closing bracket. -/
def readMore : Nat → Text → Except Fault (List CompileCommand × Text)
  | 0, s => .error (.here s .endInList)
  | bound + 1, s =>
    match skipSpace s with
    | [] => .error (.next [] .endInList)
    | c :: rest =>
      if c = ']' then .ok ([], rest)
      else if c = ',' then
        match skipSpace rest with
        | [] => .error (.next [] .endInValue)
        | ']' :: rest => .error (.next (']' :: rest) .trailingComma)
        | other => do
          let (entry, rest) ← readEntry bound other
          let (more, rest) ← readMore bound rest
          return (entry :: more, rest)
      else .error (.next (c :: rest) .expectedCommaOrBracket)

/-- The entries behind the opening bracket of the database. -/
def readEntries (bound : Nat) (s : Text) : Except Fault (List CompileCommand × Text) :=
  match skipSpace s with
  | [] => .error (.next [] .endInList)
  | ']' :: rest => .ok ([], rest)
  | other => do
    let (entry, rest) ← readEntry bound other
    let (more, rest) ← readMore bound rest
    return (entry :: more, rest)

/-- The database a whole text is, or its first fault. -/
def readDatabase (bound : Nat) (s : Text) : Except Fault (List CompileCommand) :=
  match skipSpace s with
  | '[' :: rest => do
    let (commands, rest) ← readEntries bound rest
    match skipSpace rest with
    | [] => return commands
    | other => .error (.next other .trailingCharacters)
  | other => .error (mismatch "a sequence".toList other)

/-- The database written by a text. -/
def parse (s : Text) : Except Json.Error (List CompileCommand) :=
  (readDatabase (movesFor s.length) s).mapError (Json.Error.ofFault s)

end CompileDatabase

end LoudHeaders
