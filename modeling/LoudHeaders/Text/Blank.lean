import LoudHeaders.Text.Basic

/-
  Blank characters, words and lines.

  A character is blank when it has the Unicode property White_Space, twenty-five
  characters in all. Trimming and splitting into words go by this property;
  splitting into lines goes by the line feed alone, with one carriage return
  directly before it dropped.
-/

namespace LoudHeaders

namespace Text

/-- The characters with the Unicode property White_Space. -/
def isBlank (c : Char) : Bool :=
  let n := c.toNat
  (9 ≤ n && n ≤ 13) || n == 0x20 || n == 0x85 || n == 0xA0 || n == 0x1680 ||
    (0x2000 ≤ n && n ≤ 0x200A) || n == 0x2028 || n == 0x2029 || n == 0x202F ||
    n == 0x205F || n == 0x3000

/-- The text without the blanks it starts with. -/
def trimStart (s : Text) : Text := s.dropWhile isBlank

/-- The text without the blanks it ends with. -/
def trimEnd (s : Text) : Text := (s.reverse.dropWhile isBlank).reverse

/-- The text without the blanks around it. -/
def trim (s : Text) : Text := trimEnd (trimStart s)

/-- The words of a text: the maximal runs of characters that are not blank. -/
def words (s : Text) : List Text := (pieces isBlank s).filter fun piece => !piece.isEmpty

/-- A line without the carriage return at its end, if it has one. -/
def dropReturn (line : Text) : Text :=
  match line.getLast? with
  | some '\r' => line.dropLast
  | _ => line

/-- The lines of a text. A line feed ends a line, so nothing follows the last
one; a carriage return directly before the line feed is not part of the line. -/
def lines (s : Text) : List Text :=
  let parts := pieces (· == '\n') s
  match parts.getLast? with
  | none => []
  | some [] => parts.dropLast.map dropReturn
  | some last => parts.dropLast.map dropReturn ++ [last]

end Text

end LoudHeaders
