import LoudHeaders.Text.Basic
import LoudHeaders.Text.Unprintable

/-
  Quoted texts.

  A text quoted for a message stands between double quotes. A backslash comes
  before each quote and backslash inside, four control characters have short
  escapes, and any other unprintable character is written as its code point in
  hexadecimal between braces. The single quote needs no escape.
-/

namespace LoudHeaders

namespace Text

/-- The hexadecimal digits of a number, in lower case and without leading
zeros. -/
def hexDigits (n : Nat) : Text := Nat.toDigits 16 n

/-- The escape of a character by its code point. -/
def escapeCode (c : Char) : Text :=
  ['\\', 'u', '\x7b'] ++ hexDigits c.toNat ++ ['\x7d']

/-- A character as it stands inside double quotes. -/
def quoteChar (c : Char) : Text :=
  if c = '\x00' then ['\\', '0']
  else if c = '\t' then ['\\', 't']
  else if c = '\r' then ['\\', 'r']
  else if c = '\n' then ['\\', 'n']
  else if c = '"' || c = '\\' then ['\\', c]
  else if isPrintable c then [c]
  else escapeCode c

/-- A text between double quotes. -/
def quoted (s : Text) : Text :=
  '"' :: s.flatMap quoteChar ++ ['"']

/-- A list of quoted texts between square brackets. -/
def quotedList (items : List Text) : Text :=
  '[' :: joinWith [',', ' '] (items.map quoted) ++ [']']

end Text

end LoudHeaders
