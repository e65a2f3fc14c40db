import Persistence.Number.Range

/-!
# Binary floating-point numbers of 64 bits

A number is its bit pattern: a sign, a biased exponent of 11 bits and a fraction of 52 bits.  The
magnitude of a finite number is `significand * 2 ^ scale`.  All arithmetic goes through `ofRatio`,
which rounds an exact quotient of naturals to the nearest number, ties to the even significand.

Main definitions:

- `Binary64.ofRatio`: the number nearest to a quotient.
- `Binary64.mul`, `Binary64.div`: the exact product or quotient, rounded once.
- `Binary64.same`: the equality of numbers, where both zeros agree and nothing equals a NaN.
-/

namespace Persistence

/-- A number of the IEEE 754 binary64 format, given by its bits. -/
structure Binary64 where
  bits : UInt64
deriving DecidableEq, Inhabited

namespace Binary64

/-! ## Fields -/

/-- The number of fractions. -/
def fractionCount : Nat := wordCount 52

/-- The number of biased exponents. -/
def exponentCount : Nat := wordCount 11

/-- The number of magnitudes, which are the bits without the sign. -/
def magnitudeCount : Nat := wordCount 63

/-- The sign bit. -/
def negative (x : Binary64) : Bool := magnitudeCount ≤ x.bits.toNat

/-- The biased exponent. -/
def exponentField (x : Binary64) : Nat := x.bits.toNat / fractionCount % exponentCount

/-- The fraction. -/
def fraction (x : Binary64) : Nat := x.bits.toNat % fractionCount

/-- An exponent field of ones marks the infinities and the NaNs; all else is finite. -/
def isFinite (x : Binary64) : Bool := x.exponentField != exponentCount - 1

/-- A number that is not finite and has a fraction is no number. -/
def isNaN (x : Binary64) : Bool := !x.isFinite && x.fraction != 0

/-- The significand of a finite number, with the leading bit that normal numbers leave out. -/
def significand (x : Binary64) : Nat :=
  if x.exponentField = 0 then x.fraction else x.fraction + fractionCount

/-- The power of two that the significand is counted in. -/
def scale (x : Binary64) : Int := (max x.exponentField 1 : Nat) - 1075

/-- A finite number of magnitude zero. -/
def isZero (x : Binary64) : Bool := x.bits.toNat % magnitudeCount = 0

/-! ## Construction -/

/-- The number with the given sign and the given lower 63 bits. -/
def ofMagnitude (negative : Bool) (magnitude : Nat) : Binary64 :=
  ⟨UInt64.ofNat ((if negative then magnitudeCount else 0) + magnitude % magnitudeCount)⟩

/-- Zero with a sign. -/
def zero (negative : Bool) : Binary64 := ofMagnitude negative 0

/-- The lower 63 bits of the infinities. -/
def infinityMagnitude : Nat := (exponentCount - 1) * fractionCount

/-- Infinity with a sign. -/
def infinity (negative : Bool) : Binary64 := ofMagnitude negative infinityMagnitude

/-- A quiet NaN. -/
def nan : Binary64 := ofMagnitude false (infinityMagnitude + fractionCount / 2)

/-- Powers of two with an integer exponent, as a quotient of naturals. -/
def powerOfTwo (e : Int) : Nat × Nat := (Nat.pow 2 e.toNat, Nat.pow 2 (-e).toNat)

/-- The natural nearest to `num / den`, a tie going to the even neighbour. -/
def roundHalfEven (num den : Nat) : Nat :=
  let floor := num / den
  let rest := 2 * (num % den)
  if den < rest || (rest = den && floor % 2 = 1) then floor + 1 else floor

/-- The integer `e` with `2 ^ e ≤ num / den < 2 ^ (e + 1)`, for positive `num` and `den`. -/
def ratioLog2 (num den : Nat) : Int :=
  let e : Int := (num.log2 : Int) - den.log2
  let (up, down) := powerOfTwo e
  if num * down < den * up then e - 1 else e

/-- The number nearest to `num / den` with the given sign: ties go to the even significand, what
lies past the largest finite number is an infinity. -/
def ofRatio (negative : Bool) (num den : Nat) : Binary64 :=
  if num = 0 then zero negative
  else
    let scale : Int := max (ratioLog2 num den - 52) (-1074)
    let (up, down) := powerOfTwo scale
    let significand := roundHalfEven (num * down) (den * up)
    let magnitude := (scale + 1074).toNat * fractionCount + significand
    ofMagnitude negative (min magnitude infinityMagnitude)

/-- The number nearest to a natural. -/
def ofNat (n : Nat) : Binary64 := ofRatio false n 1

/-- The number nearest to `coefficient * 10 ^ exponent`. -/
def ofDecimal (negative : Bool) (coefficient : Nat) (exponent : Int) : Binary64 :=
  ofRatio negative (coefficient * Nat.pow 10 exponent.toNat) (Nat.pow 10 (-exponent).toNat)

/-! ## Arithmetic -/

/-- The number with the sign turned round. -/
def neg (x : Binary64) : Binary64 := ofMagnitude (!x.negative) (x.bits.toNat % magnitudeCount)

/-- The product of two finite numbers, rounded once. -/
def mul (x y : Binary64) : Binary64 :=
  let (up, down) := powerOfTwo (x.scale + y.scale)
  ofRatio (x.negative != y.negative) (x.significand * y.significand * up) down

/-- The quotient of two finite numbers with a divisor other than zero, rounded once. -/
def div (x y : Binary64) : Binary64 :=
  let (up, down) := powerOfTwo (x.scale - y.scale)
  ofRatio (x.negative != y.negative) (x.significand * up) (y.significand * down)

/-- Equality of numbers: the two zeros are equal, and a NaN equals nothing. -/
def same (x y : Binary64) : Bool :=
  (x == y && !x.isNaN) || (x.isZero && y.isZero)

end Binary64

end Persistence
