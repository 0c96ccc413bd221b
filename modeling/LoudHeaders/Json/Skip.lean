import LoudHeaders.Json.Numeral

/-
  Values that are passed over.

  A value nobody asked for is only checked for its shape, to any depth. The open
  brackets are kept on a stack and `skipStep` moves past one token; every two
  moves read at least one character, which bounds the number of moves.
-/

namespace LoudHeaders

namespace Json

/-- An open bracket. -/
inductive Bracket where
  | list
  | map
  deriving DecidableEq, Repr

namespace Bracket

/-- The character that closes the bracket. -/
def closing : Bracket → Char
  | .list => ']'
  | .map => '\x7d'

/-- The cause when the text ends inside the bracket. -/
def endReason : Bracket → Reason
  | .list => .endInList
  | .map => .endInObject

/-- The cause when two members are not separated. -/
def separatorReason : Bracket → Reason
  | .list => .expectedCommaOrBracket
  | .map => .expectedCommaOrBrace

end Bracket

/-- What comes next: a value, the inside of a bracket just opened, the key of a
member, or what may follow a value. -/
inductive Stage where
  | value
  | opened
  | key
  | after
  deriving DecidableEq, Repr

/-- Where one move leads: to the end of the value, or on. -/
inductive Move where
  | done (rest : Text)
  | more (stage : Stage) (stack : List Bracket) (rest : Text)
  deriving DecidableEq, Repr

/-- The members of a bracket start with a value or with a key. -/
def Bracket.memberStage : Bracket → Stage
  | .list => .value
  | .map => .key

/-- Moves past the beginning of a value. -/
def skipValueStep (stack : List Bracket) : Text → Except Fault Move
  | [] => .error (.next [] .endInValue)
  | c :: rest =>
    if c = '"' then (skipText 0 rest).map (.more .after stack)
    else if c = '[' then .ok (.more .opened (.list :: stack) rest)
    else if c = '\x7b' then .ok (.more .opened (.map :: stack) rest)
    else if c = 'n' then (readLiteral ['u', 'l', 'l'] rest).map (.more .after stack)
    else if c = 't' then (readLiteral ['r', 'u', 'e'] rest).map (.more .after stack)
    else if c = 'f' then (readLiteral ['a', 'l', 's', 'e'] rest).map (.more .after stack)
    else if c = '-' || c.isDigit then
      (scanNumeral .invalidNumber (c :: rest)).map fun found => .more .after stack found.2
    else .error (.next (c :: rest) .expectedValue)

/-- Moves past the key of a member and its colon. -/
def skipKeyStep (stack : List Bracket) : Text → Except Fault Move
  | [] => .error (.next [] .endInObject)
  | c :: rest =>
    if c = '"' then do
      let behind := skipSpace (← skipText 0 rest)
      match behind with
      | [] => .error (.next [] .endInObject)
      | ':' :: rest => return .more .value stack rest
      | other => .error (.next other .expectedColon)
    else .error (.next (c :: rest) .keyNotText)

/-- Moves past what follows a value inside a bracket: the closing bracket or a
comma. -/
def skipAfterStep (bracket : Bracket) (stack : List Bracket) : Text → Except Fault Move
  | [] => .error (.next [] bracket.endReason)
  | c :: rest =>
    if c = bracket.closing then .ok (.more .after stack rest)
    else if c = ',' then .ok (.more bracket.memberStage (bracket :: stack) rest)
    else .error (.next (c :: rest) bracket.separatorReason)

/-- Moves into a bracket just opened, or past it if it closes at once. -/
def skipOpenedStep (bracket : Bracket) (stack : List Bracket) : Text → Except Fault Move
  | [] => .error (.next [] bracket.endReason)
  | c :: rest =>
    if c = bracket.closing then .ok (.more .after stack rest)
    else .ok (.more bracket.memberStage (bracket :: stack) (c :: rest))

/-- One move. -/
def skipStep (stage : Stage) (stack : List Bracket) (s : Text) : Except Fault Move :=
  match stage, stack with
  | .value, _ => skipValueStep stack (skipSpace s)
  | .key, _ => skipKeyStep stack (skipSpace s)
  | .after, [] => .ok (.done s)
  | .after, bracket :: below => skipAfterStep bracket below (skipSpace s)
  | .opened, [] => .ok (.done s)
  | .opened, bracket :: below => skipOpenedStep bracket below (skipSpace s)

/-- At most `moves` moves. -/
def skipMoves : Nat → Stage → List Bracket → Text → Except Fault Text
  | 0, _, _, s => .error (.here s .endInValue)
  | moves + 1, stage, stack, s =>
    match skipStep stage stack s with
    | .error fault => .error fault
    | .ok (.done rest) => .ok rest
    | .ok (.more stage stack rest) => skipMoves moves stage stack rest

/-- A number of moves that is enough for every value in a text of this
length. -/
def movesFor (length : Nat) : Nat := 2 * length + 2

/-- What follows the value a text starts with, found in at most `moves`
moves. -/
def skipValue (moves : Nat) (s : Text) : Except Fault Text := skipMoves moves .value [] s

end Json

end LoudHeaders
