import LoudHeaders.Text.Utf8

/-
  File names in what utilities say.

  A name that a shell would take apart is quoted so that a shell reads it as one
  word. Bytes other than printable ASCII are written as escapes in quotes of their
  own, opened by a dollar sign. A name whose only peculiarity is a single quote
  stands between double quotes, any other one between single quotes.

  This serves only the world the program is run in; no theorem is about it.
-/

namespace LoudHeaders

namespace Machine

namespace QuotedName

/-- How a byte stands between single quotes: as it is, or as an escape that needs
quotes of its own. -/
inductive Spelling where
  | plain (c : Char)
  | escape (s : Text)
  deriving DecidableEq, Repr

/-- The escapes that have a letter. -/
def letterEscapes : List (Nat × Char) :=
  [(7, 'a'), (8, 'b'), (9, 't'), (10, 'n'), (11, 'v'), (12, 'f'), (13, 'r')]

/-- Three octal digits of a byte. -/
def octal (n : Nat) : Text :=
  [n / 64, n / 8 % 8, n % 8].map fun d => Char.ofNat ('0'.toNat + d)

/-- How a byte is spelled. -/
def spelling (b : UInt8) : Spelling :=
  let n := b.toNat
  if 32 ≤ n && n < 127 then .plain (Char.ofNat n)
  else match letterEscapes.find? fun entry => entry.1 == n with
    | some entry => .escape ['\\', entry.2]
    | none => .escape ('\\' :: octal n)

/-- Whether a byte is written as an escape. -/
def isEscaped (b : UInt8) : Bool :=
  match spelling b with
  | .plain _ => false
  | .escape _ => true

/-- Punctuation that means nothing to a shell. -/
def harmless : Text := "%+,-./]_@".toList

/-- Whether a character never needs quotes. -/
def isHarmless (c : Char) : Bool := c.isAlphanum || harmless.contains c

/-- Whether a printable name can stand without quotes. A brace means something to a
shell if it stands alone, a hash sign or a tilde if it stands in front. -/
def standsBare (name : Text) : Bool :=
  let inside (c : Char) : Bool := isHarmless c || c == '\x7b' || c == '\x7d'
  match name with
  | [] => false
  | [c] => isHarmless c
  | c :: rest => inside c && rest.all fun d => inside d || d == '#' || d == '~'

/-- Whether a printable name with a single quote can stand between double
quotes. -/
def suitsDouble (name : Text) : Bool :=
  let inside (c : Char) : Bool := isHarmless c || [':', ' ', '\x27'].contains c
  match name with
  | [] => true
  | c :: rest => (inside c || c == '#' || c == '~') && rest.all inside

/-- The inside of single quotes; `escaping` holds where the quotes of an escape are
open. -/
def inside : Bool → List UInt8 → Text
  | _, [] => []
  | escaping, b :: rest =>
    match spelling b with
    | .plain c =>
      if c = '\x27' then ['\x27', '\\', '\x27', '\x27'] ++ inside false rest
      else if escaping then '\x27' :: '\x27' :: c :: inside false rest
      else c :: inside false rest
    | .escape s =>
      if escaping then s ++ inside true rest
      else ['\x27', '$', '\x27'] ++ s ++ inside true rest

/-- A name as it is said. A name with a single quote that ends in an escape opens
as if an escape came before it. -/
def spell (name : Text) : Text :=
  let bytes := Utf8.encode name
  let isPrintable := bytes.all fun b => !isEscaped b
  let hasQuote := name.contains '\x27'
  if isPrintable && standsBare name then name
  else if isPrintable && hasQuote && suitsDouble name then '"' :: name ++ ['"']
  else '\x27' :: inside (hasQuote && bytes.getLast?.any isEscaped) bytes ++ ['\x27']

end QuotedName

end Machine

end LoudHeaders
