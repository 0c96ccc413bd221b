import LoudHeaders.Text.Quoted
import LoudHeaders.Decimal.Shortest

/-
  What can be wrong with a JSON text, and where.

  A fault names its cause and the number of bytes that were not yet read when it
  was found. Line and column are worked out from that number at the end, so the
  readers carry no position along. Columns count bytes.
-/

namespace LoudHeaders

namespace Json

/-- What stands where a value of another type was wanted. -/
inductive Found where
  | null
  | boolean (value : Bool)
  | integer (negative : Bool) (magnitude : Nat)
  | floating (negative : Bool) (value : Double)
  | text (value : Text)
  | list
  | map
  deriving DecidableEq, Repr

/-- The causes of a fault. -/
inductive Reason where
  | endInValue
  | endInList
  | endInObject
  | endInText
  | expectedColon
  | expectedCommaOrBracket
  | expectedCommaOrBrace
  | expectedIdentifier
  | expectedValue
  | invalidEscape
  | invalidNumber
  | numberOutOfRange
  | controlCharacter
  | keyNotText
  | loneSurrogate
  | unfinishedSurrogate
  | trailingComma
  | trailingCharacters
  | mismatch (found : Found) (wanted : Text)
  | lengthMismatch (length : Nat) (wanted : Text)
  | missingField (name : Text)
  | duplicateField (name : Text)
  deriving DecidableEq, Repr

/-- A cause together with the number of bytes left to read. -/
structure Fault where
  reason : Reason
  left : Nat
  deriving DecidableEq, Repr

namespace Fault

/-- A fault found with `rest` still to be read. -/
def here (rest : Text) (reason : Reason) : Fault := ⟨reason, Text.byteSize rest⟩

/-- A fault found at the first byte of `rest`, which counts as read. -/
def next (rest : Text) (reason : Reason) : Fault := ⟨reason, Text.byteSize rest - 1⟩

end Fault

/-- The text of a signed quantity. -/
def signed (negative : Bool) (digits : Text) : Text :=
  if negative then '-' :: digits else digits

namespace Found

/-- How a value is described in a fault. -/
def describe : Found → Text
  | .null => "null".toList
  | .boolean true => "boolean `true`".toList
  | .boolean false => "boolean `false`".toList
  | .integer negative n =>
    "integer `".toList ++ signed negative (Text.ofNat n) ++ "`".toList
  | .floating negative d => "floating point `".toList ++ signed negative d.text ++ "`".toList
  | .text s => "string ".toList ++ Text.quoted s
  | .list => "sequence".toList
  | .map => "map".toList

end Found

namespace Reason

/-- The wording of a cause. -/
def message : Reason → Text
  | .endInValue => "EOF while parsing a value".toList
  | .endInList => "EOF while parsing a list".toList
  | .endInObject => "EOF while parsing an object".toList
  | .endInText => "EOF while parsing a string".toList
  | .expectedColon => "expected `:`".toList
  | .expectedCommaOrBracket => "expected `,` or `]`".toList
  | .expectedCommaOrBrace => "expected `,` or `\x7d`".toList
  | .expectedIdentifier => "expected ident".toList
  | .expectedValue => "expected value".toList
  | .invalidEscape => "invalid escape".toList
  | .invalidNumber => "invalid number".toList
  | .numberOutOfRange => "number out of range".toList
  | .controlCharacter =>
    "control character (\\u0000-\\u001F) found while parsing a string".toList
  | .keyNotText => "key must be a string".toList
  | .loneSurrogate => "lone leading surrogate in hex escape".toList
  | .unfinishedSurrogate => "unexpected end of hex escape".toList
  | .trailingComma => "trailing comma".toList
  | .trailingCharacters => "trailing characters".toList
  | .mismatch found wanted =>
    "invalid type: ".toList ++ found.describe ++ ", expected ".toList ++ wanted
  | .lengthMismatch n wanted =>
    "invalid length ".toList ++ Text.ofNat n ++ ", expected ".toList ++ wanted
  | .missingField name => "missing field `".toList ++ name ++ "`".toList
  | .duplicateField name => "duplicate field `".toList ++ name ++ "`".toList

end Reason

/-- Line and column after the first `count` bytes of a text, counted on from the
given line and column. -/
def advance : Text → Nat → Nat → Nat → Nat × Nat
  | [], _, line, column => (line, column)
  | c :: rest, count, line, column =>
    if count < c.utf8Size then (line, column + count)
    else if c = '\n' then advance rest (count - 1) (line + 1) 0
    else advance rest (count - c.utf8Size) line (column + c.utf8Size)

/-- A cause at a line and a column of the text that was read. -/
structure Error where
  reason : Reason
  line : Nat
  column : Nat
  deriving DecidableEq, Repr

namespace Error

/-- The fault placed in the text it was found in. -/
def ofFault (s : Text) (fault : Fault) : Error :=
  let place := advance s (Text.byteSize s - fault.left) 1 0
  { reason := fault.reason, line := place.1, column := place.2 }

/-- The wording of an error. -/
def message (e : Error) : Text :=
  e.reason.message ++ " at line ".toList ++ Text.ofNat e.line ++ " column ".toList ++
    Text.ofNat e.column

end Error

end Json

end LoudHeaders
