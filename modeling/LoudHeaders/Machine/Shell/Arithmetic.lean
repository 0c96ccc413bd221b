import LoudHeaders.Text.Blank

/-
  Arithmetic of a shell.

  Expressions are over whole numbers of 64 bits, which wrap around. They have
  variables, assignments, and the operators of arithmetic, comparison, bits and
  logic. Division goes toward zero, and one by zero is a fault.

  This serves only the world the program is run in; no theorem is about it (see
  Machine/Shell/Basic).
-/

namespace LoudHeaders

namespace Machine

namespace Shell

namespace Arithmetic

/-- An operator between two values. -/
inductive Operation where
  | or
  | and
  | bitOr
  | bitXor
  | bitAnd
  | equal
  | unequal
  | atMost
  | atLeast
  | less
  | greater
  | shiftLeft
  | shiftRight
  | plus
  | minus
  | times
  | over
  | modulo
  deriving DecidableEq, Repr

/-- An operator before a value. -/
inductive Sign where
  | keep
  | negate
  | not
  | complement
  deriving DecidableEq, Repr

/-- An expression. -/
inductive Expression where
  | number (n : Int)
  | value (name : Text)
  | signed (sign : Sign) (e : Expression)
  | operation (o : Operation) (a b : Expression)
  | choice (c a b : Expression)
  | assign (name : Text) (o : Option Operation) (e : Expression)

/-- A number brought into the range of 64 bits. -/
def wrapped (n : Int) : Int := Int.bmod n (Nat.pow 2 64)

/-- A number brought to the nearest one of 64 bits, and whether that changed it. -/
def clamped (n : Int) : Int × Bool :=
  let bound : Int := Nat.pow 2 63
  if n < -bound then (-bound, true) else if bound ≤ n then (bound - 1, true) else (n, false)

/-- The operators as they are written, with how tightly they bind; a longer one
comes before one that begins it. -/
def operations : List (Text × Nat × Operation) :=
  [("||".toList, 1, .or), ("&&".toList, 2, .and), ("<<".toList, 8, .shiftLeft),
    (">>".toList, 8, .shiftRight), ("<=".toList, 7, .atMost), (">=".toList, 7, .atLeast),
    ("==".toList, 6, .equal), ("!=".toList, 6, .unequal), ("|".toList, 3, .bitOr),
    ("^".toList, 4, .bitXor), ("&".toList, 5, .bitAnd), ("<".toList, 7, .less),
    (">".toList, 7, .greater), ("+".toList, 9, .plus), ("-".toList, 9, .minus),
    ("*".toList, 10, .times), ("/".toList, 10, .over), ("%".toList, 10, .modulo)]

/-- The operator a text starts with, how tightly it binds, and what is behind
it. -/
def operation? (s : Text) : Option (Operation × Nat × Text) :=
  (operations.find? fun entry => entry.1.isPrefixOf s).map fun entry =>
    (entry.2.2, entry.2.1, s.drop entry.1.length)

/-- The operator of an assignment that a text starts with, and what is behind
it. -/
def assignment? (s : Text) : Option (Option Operation × Text) :=
  match s with
  | '=' :: '=' :: _ => none
  | '=' :: rest => some (none, rest)
  | _ =>
    match operation? s with
    | some (o, tightness, '=' :: rest) =>
      if tightness = 6 || tightness = 7 || tightness ≤ 2 then none else some (some o, rest)
    | _ => none

/-- The value of a digit. -/
def digitValue (c : Char) : Nat :=
  if c.isDigit then c.toNat - '0'.toNat else c.toLower.toNat - 'a'.toNat + 10

/-- The number that digits stand for. -/
def valueOf (base : Nat) (digits : Text) : Nat :=
  digits.foldl (fun n c => base * n + digitValue c) 0

/-- A digit below eight. -/
def isOctal (c : Char) : Bool := '0' ≤ c && c ≤ '7'

/-- A hexadecimal digit. -/
def isHexadecimal (c : Char) : Bool :=
  c.isDigit || ('a' ≤ c && c ≤ 'f') || ('A' ≤ c && c ≤ 'F')

/-- The number at the front of a text that starts with a digit, and what is behind
it: hexadecimal behind `0x`, octal behind `0`, decimal otherwise. -/
def natural (s : Text) : Nat × Text :=
  match s with
  | '0' :: x :: d :: rest =>
    if (x == 'x' || x == 'X') && isHexadecimal d then
      (valueOf 16 ((d :: rest).takeWhile isHexadecimal), (d :: rest).dropWhile isHexadecimal)
    else (valueOf 8 (s.takeWhile isOctal), s.dropWhile isOctal)
  | '0' :: _ => (valueOf 8 (s.takeWhile isOctal), s.dropWhile isOctal)
  | _ => (valueOf 10 (s.takeWhile Char.isDigit), s.dropWhile Char.isDigit)

/-- The number a whole text stands for, blanks around it and a sign being
allowed. -/
def integer? (s : Text) : Option Int :=
  let unsigned (s : Text) : Option Nat :=
    match s with
    | c :: _ =>
      if c.isDigit then
        let read := natural s
        if read.2.isEmpty then some read.1 else none
      else none
    | [] => none
  match Text.trim s with
  | '-' :: rest => (unsigned rest).map fun n => -(n : Int)
  | '+' :: rest => (unsigned rest).map Int.ofNat
  | rest => (unsigned rest).map Int.ofNat

/-- What is missing where an operand should be. -/
def noOperand : Text := "expecting primary".toList

/-- What is missing where an expression should end. -/
def noEnd : Text := "expecting EOF".toList

mutual

/-- Reads an expression with its assignments and choices. -/
def expression : Nat → Text → Except Text (Expression × Text)
  | 0, _ => .error noOperand
  | fuel + 1, s => do
    let start := Text.trimStart s
    let isFirst := start.head?.any fun c => c.isAlpha || c == '_'
    let isNameChar (c : Char) : Bool := c.isAlphanum || c == '_'
    let name := if isFirst then start.takeWhile isNameChar else []
    match if name.isEmpty then none else assignment? (Text.trimStart (start.drop name.length)) with
    | some (o, rest) =>
      let (e, rest) ← expression fuel rest
      return (.assign name o e, rest)
    | none =>
      let (c, rest) ← binary fuel 1 start
      match Text.trimStart rest with
      | '?' :: rest =>
        let (a, rest) ← expression fuel rest
        match Text.trimStart rest with
        | ':' :: rest =>
          let (b, rest) ← expression fuel rest
          return (.choice c a b, rest)
        | _ => throw "expecting ':'".toList
      | _ => return (c, rest)

/-- Reads operands joined by operators that bind at least as tightly as `least`. -/
def binary : Nat → Nat → Text → Except Text (Expression × Text)
  | 0, _, _ => .error noOperand
  | fuel + 1, least, s => do
    let (a, rest) ← operand fuel s
    more fuel least a rest

/-- Reads what is joined to an operand. -/
def more : Nat → Nat → Expression → Text → Except Text (Expression × Text)
  | 0, _, a, s => .ok (a, s)
  | fuel + 1, least, a, s =>
    match operation? (Text.trimStart s) with
    | some (o, tightness, rest) =>
      if tightness < least then .ok (a, s)
      else do
        let (b, rest) ← binary fuel (tightness + 1) rest
        more fuel least (.operation o a b) rest
    | none => .ok (a, s)

/-- Reads an operand. -/
def operand : Nat → Text → Except Text (Expression × Text)
  | 0, _ => .error noOperand
  | fuel + 1, s =>
    let signed (sign : Sign) (rest : Text) : Except Text (Expression × Text) := do
      let (e, rest) ← operand fuel rest
      return (.signed sign e, rest)
    match Text.trimStart s with
    | '-' :: rest => signed .negate rest
    | '+' :: rest => signed .keep rest
    | '!' :: rest => signed .not rest
    | '~' :: rest => signed .complement rest
    | '(' :: rest => do
      let (e, rest) ← expression fuel rest
      match Text.trimStart rest with
      | ')' :: rest => return (e, rest)
      | _ => throw "expecting ')'".toList
    | c :: rest =>
      if c.isDigit then
        let read := natural (c :: rest)
        .ok (.number (clamped read.1).1, read.2)
      else if c.isAlpha || c == '_' then
        let isNameChar (c : Char) : Bool := c.isAlphanum || c == '_'
        .ok (.value ((c :: rest).takeWhile isNameChar), (c :: rest).dropWhile isNameChar)
      else .error noOperand
    | [] => .error noOperand

end

/-- Reads a whole expression. -/
def parse (s : Text) : Except Text Expression := do
  let (e, rest) ← expression (6 * s.length + 6) s
  if (Text.trim rest).isEmpty then return e else throw noEnd

/-- One or zero. -/
def truth (b : Bool) : Int := if b then 1 else 0

/-- What an operator gives, except for logic. -/
def apply (o : Operation) (a b : Int) : Except Text Int :=
  let bits (f : Nat → Nat → Nat) : Int :=
    let bound : Int := Nat.pow 2 64
    wrapped (f (a % bound).toNat (b % bound).toNat)
  match o with
  | .or => .ok (truth (a != 0 || b != 0))
  | .and => .ok (truth (a != 0 && b != 0))
  | .bitOr => .ok (bits (· ||| ·))
  | .bitXor => .ok (bits (· ^^^ ·))
  | .bitAnd => .ok (bits (· &&& ·))
  | .equal => .ok (truth (a == b))
  | .unequal => .ok (truth (a != b))
  | .atMost => .ok (truth (a ≤ b))
  | .atLeast => .ok (truth (b ≤ a))
  | .less => .ok (truth (a < b))
  | .greater => .ok (truth (b < a))
  | .shiftLeft => .ok (wrapped (a * Nat.pow 2 (b % 64).toNat))
  | .shiftRight => .ok (a / Nat.pow 2 (b % 64).toNat)
  | .plus => .ok (wrapped (a + b))
  | .minus => .ok (wrapped (a - b))
  | .times => .ok (wrapped (a * b))
  | .over => if b = 0 then .error "division by zero".toList else .ok (wrapped (Int.tdiv a b))
  | .modulo => if b = 0 then .error "division by zero".toList else .ok (Int.tmod a b)

/-- Why an expression has no value. -/
inductive Fault where
  | expression (message : Text)
  | number (text : Text)
  deriving DecidableEq, Repr

/-- The value of an expression and of the variables it has assigned so far, the
latest first. `given` are the variables from before. -/
def evaluate (given : Text → Text) (assigned : List (Text × Int)) :
    Expression → Except Fault (Int × List (Text × Int))
  | .number n => .ok (n, assigned)
  | .value name =>
    match assigned.find? fun entry => entry.1 == name with
    | some entry => .ok (entry.2, assigned)
    | none =>
      let text := given name
      if text.isEmpty then .ok (0, assigned)
      else match integer? text with
        | some n => if (clamped n).2 then .error (.number text) else .ok (n, assigned)
        | none => .error (.number text)
  | .signed sign e => do
    let (n, assigned) ← evaluate given assigned e
    match sign with
    | .keep => return (n, assigned)
    | .negate => return (wrapped (-n), assigned)
    | .not => return (truth (n == 0), assigned)
    | .complement => return (-n - 1, assigned)
  | .operation o a b => do
    let (m, assigned) ← evaluate given assigned a
    if o = .and && m = 0 then return (0, assigned)
    if o = .or && m != 0 then return (1, assigned)
    let (n, assigned) ← evaluate given assigned b
    return (← (apply o m n).mapError .expression, assigned)
  | .choice c a b => do
    let (n, assigned) ← evaluate given assigned c
    if n != 0 then evaluate given assigned a else evaluate given assigned b
  | .assign name o e => do
    let (n, assigned) ← evaluate given assigned e
    match o with
    | none => return (n, (name, n) :: assigned)
    | some o =>
      let (m, _) ← evaluate given assigned (.value name)
      let n ← (apply o m n).mapError .expression
      return (n, (name, n) :: assigned)

end Arithmetic

end Shell

end Machine

end LoudHeaders
