/-
  Binary numbers of double precision.

  A double is a mantissa of at most 53 bits times a power of two. Every
  operation here is exact arithmetic on natural numbers followed by one
  rounding, `nearest`: to the closest double, and to the even mantissa when two
  are equally close. Signs are kept by whoever uses the number.
-/

namespace LoudHeaders

/-- The number `mantissa * 2 ^ exponent`. -/
structure Double where
  mantissa : Nat
  exponent : Int
  deriving DecidableEq, Repr

namespace Double

/-- The smallest exponent of a double. -/
def minExponent : Int := -1074

/-- The largest exponent of a double. -/
def maxExponent : Int := 971

/-- The quotient of two numbers, rounded to the nearest, to the even one of two. -/
def divideToEven (num den : Nat) : Nat :=
  let q := num / den
  let r := num % den
  if 2 * r < den then q else if den < 2 * r then q + 1 else q + q % 2

/-- Numerator and denominator of `num / den` measured in units of `2 ^ e`. -/
def inUnits (num den : Nat) (e : Int) : Nat × Nat :=
  (num * Nat.pow 2 (-e).toNat, den * Nat.pow 2 e.toNat)

/-- The exponent at which `num / den` has a mantissa of 53 bits, or the smallest
exponent where that one would be smaller still. -/
def unitExponent (num den : Nat) : Int :=
  let guess : Int := (num.log2 : Int) - (den.log2 : Int) - 53
  let scaled := inUnits num den guess
  max minExponent (if scaled.1 / scaled.2 < Nat.pow 2 53 then guess else guess + 1)

/-- The double nearest to `num / den`, or nothing if it is beyond the largest. -/
def nearest (num den : Nat) : Option Double :=
  let e := unitExponent num den
  let scaled := inUnits num den e
  let m := divideToEven scaled.1 scaled.2
  let d : Double := if m = Nat.pow 2 53 then ⟨Nat.pow 2 52, e + 1⟩ else ⟨m, e⟩
  if maxExponent < d.exponent then none else some d

/-- Zero. -/
def zero : Double := ⟨0, minExponent⟩

/-- The power of ten with exponent `n`, rounded. -/
def powerOfTen (n : Nat) : Option Double := nearest (Nat.pow 10 n) 1

/-- The rounded product. -/
def mul (a b : Double) : Option Double :=
  let e := a.exponent + b.exponent
  nearest (a.mantissa * b.mantissa * Nat.pow 2 e.toNat) (Nat.pow 2 (-e).toNat)

/-- The rounded quotient. -/
def div (a b : Double) : Option Double :=
  let e := a.exponent - b.exponent
  nearest (a.mantissa * Nat.pow 2 e.toNat) (b.mantissa * Nat.pow 2 (-e).toNat)

/-- The largest exponent of a power of ten that is a double. -/
def maxPower : Nat := 308

/-- The number divided by the largest power of ten `blocks` times over, one
rounding each time. -/
def divideBlocks : Nat → Double → Option Double
  | 0, d => some d
  | blocks + 1, d =>
    if d.mantissa = 0 then some d
    else ((powerOfTen maxPower).bind d.div).bind (divideBlocks blocks)

/-- The number divided by ten to the `n`, one rounding for each `maxPower`
places. -/
def shiftDown (d : Double) (n : Nat) : Option Double :=
  let blocks := (n - 1) / maxPower
  (divideBlocks blocks d).bind fun smaller =>
    (powerOfTen (n - blocks * maxPower)).bind smaller.div

/-- The number times ten to the `n`, or nothing if it is beyond the largest. -/
def shiftUp (d : Double) (n : Nat) : Option Double :=
  if n ≤ maxPower then (powerOfTen n).bind d.mul
  else if d.mantissa = 0 then some d
  else none

/-- The number `digits * 10 ^ exponent`, the digits rounded first. -/
def ofDecimal (digits : Nat) (exponent : Int) : Option Double :=
  (nearest digits 1).bind fun d =>
    if 0 ≤ exponent then d.shiftUp exponent.toNat else d.shiftDown (-exponent).toNat

end Double

end LoudHeaders
