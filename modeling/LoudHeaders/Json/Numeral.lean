import LoudHeaders.Json.Quotation

/-
  Numbers in JSON texts.

  `scanNumeral` takes the number a text starts with apart into its digits.
  `Numeral.found` works out what it stands for: an integer if it has neither
  fraction nor exponent and fits a word of 64 bits (a signed one below zero), a
  double otherwise. Of the digits of a double as many count as fit a word;
  further ones in front of the point only scale the number.
-/

namespace LoudHeaders

namespace Json

/-- A number by its digits. A fraction or an exponent that is written has at
least one digit. -/
structure Numeral where
  negative : Bool
  whole : Text
  fraction : Option Text
  exponent : Option (Bool × Text)
  deriving DecidableEq, Repr

/-- The digits a text starts with. -/
def leadingDigits (s : Text) : Text := s.takeWhile Char.isDigit

/-- The text behind the digits it starts with. -/
def afterDigits (s : Text) : Text := s.dropWhile Char.isDigit

/-- The digits in front of the point. A zero stands alone. -/
def scanWhole (atEnd : Reason) : Text → Except Fault (Text × Text)
  | [] => .error (.here [] atEnd)
  | '0' :: rest =>
    if (leadingDigits rest).isEmpty then .ok (['0'], rest)
    else .error (.next rest .invalidNumber)
  | c :: rest =>
    if c.isDigit then .ok (c :: leadingDigits rest, afterDigits rest)
    else .error (.next (c :: rest) .invalidNumber)

/-- The digits behind the point, if there is a point. -/
def scanFraction (atEnd : Reason) : Text → Except Fault (Option Text × Text)
  | '.' :: rest =>
    match rest with
    | [] => .error (.here [] atEnd)
    | c :: more =>
      if c.isDigit then .ok (some (leadingDigits rest), afterDigits rest)
      else .error (.next (c :: more) .invalidNumber)
  | s => .ok (none, s)

/-- The sign an exponent starts with; it is negative only with a minus. -/
def scanSign : Text → Bool × Text
  | '+' :: rest => (false, rest)
  | '-' :: rest => (true, rest)
  | s => (false, s)

/-- The exponent, if there is one. -/
def scanExponent (atEnd : Reason) : Text → Except Fault (Option (Bool × Text) × Text)
  | [] => .ok (none, [])
  | c :: rest =>
    if c = 'e' || c = 'E' then
      match scanSign rest with
      | (_, []) => .error (.here [] atEnd)
      | (negative, d :: more) =>
        if d.isDigit then
          .ok (some (negative, leadingDigits (d :: more)), afterDigits (d :: more))
        else .error (.next (d :: more) .invalidNumber)
    else .ok (none, c :: rest)

/-- The number a text starts with, and what follows it; `atEnd` is the cause to
give when the text ends too early. -/
def scanNumeral (atEnd : Reason) (s : Text) : Except Fault (Numeral × Text) := do
  let negative := s.head? == some '-'
  let (whole, s) ← scanWhole atEnd (if negative then s.drop 1 else s)
  let (fraction, s) ← scanFraction atEnd s
  let (exponent, s) ← scanExponent atEnd s
  return ({ negative, whole, fraction, exponent }, s)

/-- The value of a digit. -/
def digitValue (c : Char) : Nat := c.toNat - '0'.toNat

/-- A significant number of at most 64 bits and how many digits were read
beyond it. -/
structure Significand where
  value : Nat
  dropped : Nat
  deriving DecidableEq, Repr

namespace Significand

/-- Takes up one digit before the point; once one did not fit, all later ones
are dropped. -/
def addWhole (s : Significand) (c : Char) : Significand :=
  if s.dropped = 0 && 10 * s.value + digitValue c < Text.wordBound then
    ⟨10 * s.value + digitValue c, 0⟩
  else ⟨s.value, s.dropped + 1⟩

/-- The digits before the point. -/
def ofWhole (digits : Text) : Significand := digits.foldl addWhole ⟨0, 0⟩

/-- Takes up digits behind the point while they fit; the answer counts them. -/
def addFraction (value : Nat) : Text → Nat × Nat
  | [] => (value, 0)
  | c :: rest =>
    if 10 * value + digitValue c < Text.wordBound then
      let more := addFraction (10 * value + digitValue c) rest
      (more.1, more.2 + 1)
    else (value, 0)

end Significand

/-- The largest exponent that is read as a number. -/
def maxExponentDigits : Nat := Nat.pow 2 31 - 1

/-- The value of an exponent, or how many of its digits were read when it grew
too large. -/
def exponentValue (value count : Nat) : Text → Nat ⊕ Nat
  | [] => .inl value
  | c :: rest =>
    let more := 10 * value + digitValue c
    if more ≤ maxExponentDigits then exponentValue more (count + 1) rest else .inr (count + 1)

namespace Numeral

/-- Whether the number is written without fraction and exponent. -/
def isWhole (n : Numeral) : Bool := n.fraction.isNone && n.exponent.isNone

/-- The integer the number stands for, if it is one that fits a word. -/
def integer? (n : Numeral) : Option Found :=
  let s := Significand.ofWhole n.whole
  if !n.isWhole || s.dropped != 0 then none
  else if !n.negative then some (.integer false s.value)
  else if 0 < s.value && s.value ≤ Nat.pow 2 63 then some (.integer true s.value)
  else none

/-- The double the number stands for. `rest` is what follows the number; a number
beyond the doubles is a fault where reading it stopped. -/
def double (n : Numeral) (rest : Text) : Except Fault Double :=
  let whole := Significand.ofWhole n.whole
  let fraction := Significand.addFraction whole.value (n.fraction.getD [])
  let scale : Int := (whole.dropped : Int) - (fraction.2 : Int)
  let beyond : Except Fault Double := .error (.here rest .numberOutOfRange)
  let make (exponent : Int) : Except Fault Double :=
    match Double.ofDecimal fraction.1 exponent with
    | some d => .ok d
    | none => beyond
  match n.exponent with
  | none => make scale
  | some (negative, digits) =>
    match exponentValue 0 0 digits with
    | .inl e => make (if negative then scale - e else scale + e)
    | .inr count =>
      if fraction.1 = 0 || negative then .ok Double.zero
      else .error (.here (digits.drop count ++ rest) .numberOutOfRange)

/-- What the number stands for. -/
def found (n : Numeral) (rest : Text) : Except Fault Found :=
  match n.integer? with
  | some integer => .ok integer
  | none => (n.double rest).map fun d => .floating n.negative d

end Numeral

end Json

end LoudHeaders
