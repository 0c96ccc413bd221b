import LoudHeaders.Machine.Shell.Arithmetic
import LoudHeaders.Machine.Files

/-
  Conditions that a shell tests.

  A condition is a list of words: a text alone, an operator before a word or
  between two, `!` for the opposite, `-a` and `-o` for both and either, and round
  brackets. A word that could be an operator counts as an operand where an
  operator between two words follows it.

  This serves only the world the program is run in; no theorem is about it (see
  Machine/Shell/Basic).
-/

namespace LoudHeaders

namespace Machine

namespace Shell

namespace Condition

/-- The operators before a word. -/
def unary : List Text :=
  ["-n".toList, "-z".toList, "-e".toList, "-f".toList, "-d".toList, "-r".toList, "-w".toList,
    "-x".toList, "-s".toList, "-h".toList, "-L".toList, "-p".toList, "-b".toList, "-c".toList,
    "-S".toList, "-t".toList, "-u".toList, "-g".toList, "-k".toList, "-O".toList, "-G".toList]

/-- The operators between two words. -/
def binary : List Text :=
  ["=".toList, "!=".toList, "<".toList, ">".toList, "-eq".toList, "-ne".toList, "-lt".toList,
    "-le".toList, "-gt".toList, "-ge".toList, "-nt".toList, "-ot".toList, "-ef".toList]

/-- What a condition is tested against: the files, and the directory that paths
are taken from. -/
structure Setting where
  files : FileTree
  directory : Place

/-- The item at a path. -/
def Setting.item? (g : Setting) (path : Text) : Option Item :=
  match g.files.resolve g.directory path with
  | .ok place => g.files.item? place
  | .error _ => none

/-- What an operator before a word says. -/
def one (g : Setting) (operator word : Text) : Bool :=
  let item := g.item? word
  let isFile := item.any fun
    | .file _ => true
    | .directory => false
  match operator with
  | ['-', 'n'] => !word.isEmpty
  | ['-', 'z'] => word.isEmpty
  | ['-', 'f'] => isFile
  | ['-', 'd'] => item == some .directory
  | ['-', 'x'] => item == some .directory
  | ['-', 's'] => item.any fun
    | .file bytes => !bytes.isEmpty
    | .directory => true
  | ['-', c] => item.isSome && (c == 'e' || c == 'r' || c == 'w' || c == 'O' || c == 'G')
  | _ => false

/-- The number a word stands for. -/
def number (word : Text) : Except Text Int :=
  let s := Text.trim word
  let digits :=
    match s with
    | '-' :: rest => rest
    | '+' :: rest => rest
    | _ => s
  if digits.isEmpty || !digits.all Char.isDigit then
    .error ("Illegal number: ".toList ++ word)
  else
    let n : Int := Arithmetic.valueOf 10 digits
    .ok (if s.head? = some '-' then -n else n)

/-- What an operator between two words says. -/
def two (g : Setting) (a operator b : Text) : Except Text Bool :=
  let compared (f : Int → Int → Bool) : Except Text Bool := do return f (← number a) (← number b)
  if operator = "=".toList then .ok (a == b)
  else if operator = "!=".toList then .ok (a != b)
  else if operator = "<".toList then .ok (Text.compare a b == .lt)
  else if operator = ">".toList then .ok (Text.compare a b == .gt)
  else if operator = "-eq".toList then compared fun m n => m == n
  else if operator = "-ne".toList then compared fun m n => m != n
  else if operator = "-lt".toList then compared fun m n => m < n
  else if operator = "-le".toList then compared fun m n => m ≤ n
  else if operator = "-gt".toList then compared fun m n => n < m
  else if operator = "-ge".toList then compared fun m n => n ≤ m
  else if operator = "-ef".toList then
    .ok ((g.files.resolve g.directory a).toOption == (g.files.resolve g.directory b).toOption)
  else .ok false

/-- A word that cannot stand where it does. -/
def misplaced (word : Text) : Text := word ++ ": unexpected operator".toList

mutual

/-- Either of some conditions. -/
def either (g : Setting) : Nat → List Text → Except Text (Bool × List Text)
  | 0, ws => .ok (false, ws)
  | fuel + 1, ws => do
    let (a, rest) ← both g fuel ws
    match rest with
    | ['-', 'o'] :: rest =>
      let (b, rest) ← either g fuel rest
      return (a || b, rest)
    | _ => return (a, rest)

/-- All of some conditions. -/
def both (g : Setting) : Nat → List Text → Except Text (Bool × List Text)
  | 0, ws => .ok (false, ws)
  | fuel + 1, ws => do
    let (a, rest) ← single g fuel ws
    match rest with
    | ['-', 'a'] :: rest =>
      let (b, rest) ← both g fuel rest
      return (a && b, rest)
    | _ => return (a, rest)

/-- One condition. -/
def single (g : Setting) : Nat → List Text → Except Text (Bool × List Text)
  | 0, ws => .ok (false, ws)
  | fuel + 1, ws => do
    match ws with
    | [] => return (false, [])
    | a :: rest =>
      let joined := rest.head?.any binary.contains && 2 ≤ rest.length
      match rest with
      | operator :: b :: behind =>
        if joined then return (← two g a operator b, behind)
      | _ => pure ()
      let alone := a != ['!'] && a != ['('] && !unary.contains a
      match rest with
      | [operator] =>
        if alone && binary.contains operator then
          throw (operator ++ ": argument expected".toList)
      | _ => pure ()
      if a = ['!'] && !rest.isEmpty then
        let (b, rest) ← single g fuel rest
        return (!b, rest)
      else if a = ['('] && !rest.isEmpty then
        let (b, rest) ← either g fuel rest
        match rest with
        | [')'] :: rest => return (b, rest)
        | _ => throw "closing paren expected".toList
      else if unary.contains a then
        match rest with
        | b :: rest => return (one g a b, rest)
        | [] => return (true, [])
      else return (!a.isEmpty, rest)

end

/-- Whether a condition holds, or what is wrong with it. -/
def holds (g : Setting) (ws : List Text) : Except Text Bool :=
  match ws with
  | [] => .ok false
  | _ => do
    let (b, rest) ← either g (4 * ws.length + 4) ws
    match rest with
    | [] => return b
    | _ => throw (misplaced ((ws.take (ws.length - rest.length)).getLastD []))

end Condition

end Shell

end Machine

end LoudHeaders
