import LoudHeaders.Text.Alphanumeric
import LoudHeaders.Text.Blank

/-
  Regular expressions inside log filters: characters, escapes and flags.

  The expressions are read without tables of characters. While they are about all
  characters, nothing that needs such a table can be used: no letters in either
  case, no classes of letters or digits, and no edges of words. While they are
  about bytes, nothing can be used that matches bytes outside ASCII.

  A field ends at the first closing brace and a directive at the first comma, so an
  expression holds neither, and counted repetitions and escapes with braces are
  never complete.
-/

namespace LoudHeaders

namespace RegularExpression

/-- How an expression is read: whether blanks and comments are skipped, whether
letters stand for either case, and whether it is about characters, not bytes. -/
structure Mode where
  spaced : Bool
  caseless : Bool
  characters : Bool
  deriving DecidableEq, Repr

/-- How an expression is read at its start. -/
def Mode.start : Mode := ⟨false, false, true⟩

/-- Where a reader stands: what is left, how it is read, and the names of groups so
far. -/
structure Reader where
  rest : Text
  mode : Mode
  names : List Text
  deriving DecidableEq, Repr

/-- A step of a reader, which fails where the expression cannot be used. -/
abbrev Step (α : Type) : Type := StateT Reader Option α

/-- A text behind the blanks and comments in front of it; `inComment` holds inside
a comment. -/
def skipped (inComment : Bool) : Text → Text
  | [] => []
  | c :: rest =>
    if inComment then skipped (c != '\n') rest
    else if Text.isBlank c then skipped false rest
    else if c = '#' then skipped true rest
    else c :: rest

/-- Skips blanks and comments, if they are to be skipped. -/
def skip : Step Unit :=
  modify fun r => if r.mode.spaced then { r with rest := skipped false r.rest } else r

/-- The next character, if there is one. -/
def peek : Step (Option Char) := do return (← get).rest.head?

/-- Passes the next character. -/
def next : Step Char := do
  match (← get).rest with
  | [] => failure
  | c :: rest =>
    modify fun r => { r with rest }
    return c

/-- Skips what is to be skipped; fails at the end. -/
def skipToMore : Step Unit := do
  skip
  if (← peek).isNone then failure

/-- Passes a text, if it is next; says whether it was. -/
def accept (s : Text) : Step Bool := do
  let r ← get
  if s.isPrefixOf r.rest then
    set { r with rest := r.rest.drop s.length }
    return true
  else return false

/-- What a character or an escape stands for: a character, possibly written as a
byte; a class by one letter; or a place, possibly at the edge of a word. -/
inductive Atom where
  | character (c : Char) (isByte : Bool)
  | letterClass (negated : Bool)
  | place (atWord : Bool)
  deriving DecidableEq, Repr

/-- The value of a hexadecimal digit. -/
def hexValue? (c : Char) : Option Nat :=
  if c.isDigit then some (c.toNat - '0'.toNat)
  else if 'a' ≤ c && c ≤ 'f' then some (c.toNat - 'a'.toNat + 10)
  else if 'A' ≤ c && c ≤ 'F' then some (c.toNat - 'A'.toNat + 10)
  else none

/-- Reads a number of hexadecimal digits behind a value. -/
def hexDigits (value : Nat) : Nat → Step Nat
  | 0 => return value
  | count + 1 => do
    skipToMore
    match hexValue? (← next) with
    | some d => hexDigits (16 * value + d) count
    | none => failure

/-- Reads a character by the digits of its code. -/
def coded (digits : Nat) : Step Atom := do
  let n ← hexDigits 0 digits
  skip
  if n.isValidChar then return .character (Char.ofNat n) (digits == 2) else failure

/-- Whether a character stands for itself behind a backslash. -/
def isEscapable (c : Char) : Bool :=
  c.toNat < 128 && !c.isAlphanum && c != '<' && c != '>'

/-- Reads what a backslash stands for, from behind it. -/
def escape : Step Atom := do
  let c ← next
  match c with
  | 'x' => coded 2
  | 'u' => coded 4
  | 'U' => coded 8
  | 'd' => return .letterClass false
  | 's' => return .letterClass false
  | 'w' => return .letterClass false
  | 'D' => return .letterClass true
  | 'S' => return .letterClass true
  | 'W' => return .letterClass true
  | 'a' => return .character '\x07' false
  | 'f' => return .character '\x0c' false
  | 't' => return .character '\t' false
  | 'n' => return .character '\n' false
  | 'r' => return .character '\r' false
  | 'v' => return .character '\x0b' false
  | 'A' => return .place false
  | 'z' => return .place false
  | 'b' => return .place true
  | 'B' => return .place true
  | '<' => return .place true
  | '>' => return .place true
  | _ => if isEscapable c then return .character c false else failure

/-- Whether a character can be used outside a class. -/
def Mode.allows (m : Mode) (c : Char) (isByte : Bool) : Bool :=
  if m.characters then !m.caseless else !isByte || c.toNat < 128

/-- Whether a character can be used inside a class. -/
def Mode.allowsInside (m : Mode) (c : Char) : Bool :=
  if m.characters then !m.caseless else c.toNat < 128

/-- Whether what an atom stands for can be used outside a class. -/
def Mode.allowsAtom (m : Mode) : Atom → Bool
  | .character c isByte => m.allows c isByte
  | .letterClass negated => !m.characters && !negated
  | .place atWord => !m.characters || !atWord

/-- The letters of flags. -/
def flagLetters : Text := ['i', 'm', 's', 'U', 'u', 'R', 'x']

/-- Reads flags up to the colon or bracket behind them: those read so far, last
first, and whether they are being turned off. -/
def flags : Nat → List (Char × Bool) → Option Bool → Step (List (Char × Bool))
  | 0, _, _ => failure
  | fuel + 1, found, turned => do
    match ← peek with
    | none => failure
    | some c =>
      if c = ':' || c = ')' then
        if turned = some false then failure else return found
      else if c = '-' then do
        if turned.isSome then failure
        let _ ← next
        flags fuel found (some false)
      else do
        if !flagLetters.contains c || found.any (·.1 == c) then failure
        let _ ← next
        flags fuel ((c, turned.isNone) :: found) (turned.map fun _ => true)

/-- A mode with flags turned on or off. -/
def Mode.with (m : Mode) (found : List (Char × Bool)) : Mode :=
  let setting (c : Char) (given : Bool) : Bool :=
    ((found.find? fun f => f.1 == c).map (·.2)).getD given
  ⟨setting 'x' m.spaced, setting 'i' m.caseless, setting 'u' m.characters⟩

end RegularExpression

end LoudHeaders
