import LoudHeaders.Text.Basic
import LoudHeaders.Decimal.Double

/-
  The shortest decimal that reads back.

  A double stands for every real that rounds to it. Of the multiples of powers
  of ten among those reals, the one with the largest power is the shortest
  decimal; of two neighbours on one grid the nearer is taken, and the even one if
  both are equally near. The search runs over the grids from coarse to fine in
  exact arithmetic.
-/

namespace LoudHeaders

namespace Double

/-- The interval of a double in quarters of its unit: its lower end, the number
itself and its upper end. Below a power of two the doubles lie twice as close. -/
def quarters (d : Double) : Nat × Nat × Nat :=
  let low :=
    if d.mantissa = Nat.pow 2 52 && d.exponent != minExponent then 4 * d.mantissa - 1
    else 4 * d.mantissa - 2
  (low, 4 * d.mantissa, 4 * d.mantissa + 2)

/-- The multiple of `10 ^ k` that reads back as the double, if there is one. -/
def onGrid? (d : Double) (k : Int) : Option Nat :=
  let ends := d.quarters
  let e := d.exponent - 2
  let unit := Nat.pow 2 e.toNat * Nat.pow 10 (-k).toNat
  let cell := Nat.pow 2 (-e).toNat * Nat.pow 10 k.toNat
  let low := ends.1 * unit
  let mid := ends.2.1 * unit
  let high := ends.2.2 * unit
  let q := mid / cell
  let closed := d.mantissa % 2 == 0
  let belowFits := low < q * cell || (closed && low == q * cell)
  let aboveFits := (q + 1) * cell < high || (closed && (q + 1) * cell == high)
  if belowFits && aboveFits then some (divideToEven mid cell)
  else if belowFits then some q
  else if aboveFits then some (q + 1)
  else none

/-- The first grid, from `10 ^ k` down, with a multiple that reads back. -/
def searchGrid (d : Double) : Nat → Int → Nat × Int
  | 0, k => (0, k)
  | steps + 1, k =>
    match d.onGrid? k with
    | some digits => (digits, k)
    | none => searchGrid d steps (k - 1)

/-- Digits and power of ten of the shortest decimal of a positive double. -/
def shortest (d : Double) : Nat × Int := searchGrid d 700 309

/-- The decimal text of `digits * 10 ^ k`. Numbers from `1e-5` up to `1e16` are
written out, with at least one digit on either side of the point; others with an
exponent that carries its sign. -/
def spell (digits : Text) (k : Int) : Text :=
  let point := (digits.length : Int) + k
  if 0 ≤ k && point ≤ 16 then digits ++ List.replicate k.toNat '0' ++ ['.', '0']
  else if 0 < point && point ≤ 16 then
    digits.take point.toNat ++ ['.'] ++ digits.drop point.toNat
  else if -5 < point && point ≤ 0 then
    ['0', '.'] ++ List.replicate (-point).toNat '0' ++ digits
  else
    let fraction := if digits.length ≤ 1 then [] else '.' :: digits.drop 1
    let sign := if point < 1 then '-' else '+'
    digits.take 1 ++ fraction ++ ['e', sign] ++ Text.ofNat (point - 1).natAbs

/-- The shortest text of a double. -/
def text (d : Double) : Text :=
  if d.mantissa = 0 then ['0', '.', '0']
  else
    let decimal := d.shortest
    spell (Text.ofNat decimal.1) decimal.2

end Double

end LoudHeaders
