import Persistence.Number.Binary64

/-!
# Shortest decimals

The shortest decimal of a finite number is the one with the fewest digits among those that read
back as the number, and of these the nearest to it.

The reals that read back as `m * 2 ^ q` form an interval around it, whose ends belong to it when
`m` is even.  On the grid of decimals with `n` significant digits only the two neighbours of the
number have to be tested: if any point of the grid lies in the interval, one of them does.
-/

namespace Persistence

/-- The decimal number `coefficient * 10 ^ exponent`. -/
structure Decimal where
  coefficient : Nat
  exponent : Int
deriving DecidableEq, Inhabited

namespace Decimal

/-- Which of two equally near neighbours is taken. -/
inductive Tie
  | even
  | up
deriving DecidableEq

/-- Move trailing zeros of the coefficient into the exponent, at most `limit` of them. -/
def stripZeros : Nat → Decimal → Decimal
  | 0, d => d
  | limit + 1, d =>
      if d.coefficient != 0 && d.coefficient % 10 = 0 then
        stripZeros limit ⟨d.coefficient / 10, d.exponent + 1⟩
      else d

/-- The interval of reals that read back as a positive number, in units of `unit / unitDen`. -/
structure Interval where
  low : Nat
  value : Nat
  high : Nat
  closed : Bool
  unit : Nat
  unitDen : Nat

/-- The interval of `significand * 2 ^ scale`: half a step to each side, a quarter of a step
downwards from a power of two, where the numbers below stand twice as close. -/
def Interval.of (significand : Nat) (scale : Int) : Interval :=
  let (unit, unitDen) := Binary64.powerOfTwo (scale - 2)
  let atPower := significand = Binary64.fractionCount && decide (-1074 < scale)
  { low := 4 * significand - (if atPower then 1 else 2)
    value := 4 * significand
    high := 4 * significand + 2
    closed := significand % 2 = 0
    unit
    unitDen }

/-- The grid point `c * 10 ^ exponent` for a number that is `c` grid steps of size `b` against a
unit of size `a` lies in the interval. -/
def Interval.contains (i : Interval) (a b c : Nat) : Bool :=
  if i.closed then i.low * a ≤ c * b && c * b ≤ i.high * a
  else i.low * a < c * b && c * b < i.high * a

/-- The best point of the interval on the grid of multiples of `10 ^ exponent`, if there is one. -/
def Interval.pick? (tie : Tie) (i : Interval) (exponent : Int) : Option Decimal :=
  let a := i.unit * Nat.pow 10 (-exponent).toNat
  let b := i.unitDen * Nat.pow 10 exponent.toNat
  let floor := i.value * a / b
  let below := i.value * a - floor * b
  let above := (floor + 1) * b - i.value * a
  match i.contains a b floor, i.contains a b (floor + 1) with
  | true, true =>
      let roundUp := above < below ||
        (above = below && (match tie with | .up => true | .even => floor % 2 = 1))
      some ⟨if roundUp then floor + 1 else floor, exponent⟩
  | true, false => some ⟨floor, exponent⟩
  | false, true => some ⟨floor + 1, exponent⟩
  | false, false => none

/-- The number of decimal digits of a natural; `0` has one. -/
def digitCount (n : Nat) : Nat := (Nat.toDigits 10 n).length

/-- The exponent of the first digit of `significand * 2 ^ scale`.  The factor `10 ^ 400` makes
every positive number of the format larger than one. -/
def leadingExponent (significand : Nat) (scale : Int) : Int :=
  let (up, down) := Binary64.powerOfTwo scale
  (digitCount (significand * up * Nat.pow 10 400 / down) : Int) - 401

/-- The shortest decimal of the positive number `significand * 2 ^ scale`. -/
def shortestOf (tie : Tie) (significand : Nat) (scale : Int) : Decimal :=
  let interval := Interval.of significand scale
  let lead := leadingExponent significand scale
  let found := (List.range 17).findSome? fun (n : Nat) => interval.pick? tie (lead - n)
  stripZeros 17 (found.getD ⟨0, 0⟩)

/-- The shortest decimal of the magnitude of a finite number. -/
def shortest (tie : Tie) (x : Binary64) : Decimal :=
  if x.significand = 0 then ⟨0, 0⟩ else shortestOf tie x.significand x.scale

end Decimal

end Persistence
