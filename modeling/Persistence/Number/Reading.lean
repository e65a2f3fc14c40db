import Persistence.Number.Binary64

/-!
# Reading numbers

Integers are an optional sign and decimal digits within a range.  Floating-point numbers are an
optional sign and a decimal with optional fraction and exponent, or one of the words `inf`,
`infinity` and `nan` in any case; the decimal is rounded to the nearest number.
-/

namespace Persistence

/-- The value of a decimal digit. -/
def digitValue (c : Char) : Nat := c.toNat - '0'.toNat

/-- The natural that a list of decimal digits spells; other characters have no meaning here. -/
def digitsValue (digits : List Char) : Nat :=
  digits.foldl (fun n c => n * 10 + digitValue c) 0

/-- The natural that a nonempty text of decimal digits spells. -/
def readNat? (text : List Char) : Option Nat :=
  if text.isEmpty || !text.all Char.isDigit then none else some (digitsValue text)

/-- A signed integer of 64 bits: an optional `+` or `-`, then digits. -/
def readInt64? (text : List Char) : Option Int := do
  let n ← match text with
    | '-' :: digits => (readNat? digits).map fun n => -(n : Int)
    | '+' :: digits => (readNat? digits).map fun n => (n : Int)
    | digits => (readNat? digits).map fun n => (n : Int)
  if minInt64 ≤ n && n ≤ maxInt64 then some n else none

/-- An unsigned integer of 64 bits: an optional `+`, then digits. -/
def readUInt64? (text : List Char) : Option Nat := do
  let n ← match text with
    | '+' :: digits => readNat? digits
    | digits => readNat? digits
  if n < UInt64.size then some n else none

/-- An exponent: an optional sign, then digits. -/
def readExponent? (text : List Char) : Option Int :=
  match text with
  | '-' :: digits => (readNat? digits).map fun n => -(n : Int)
  | '+' :: digits => (readNat? digits).map fun n => (n : Int)
  | digits => (readNat? digits).map fun n => (n : Int)

namespace Binary64

/-- The number nearest to a decimal.  A decimal so far out that it must round to zero or to an
infinity is not written out in full. -/
def ofDigits (negative : Bool) (digits : List Char) (exponent : Int) : Binary64 :=
  let digits := digits.dropWhile (· == '0')
  let lead : Int := digits.length + exponent
  if digits.isEmpty || lead < -400 then zero negative
  else if 400 < lead then infinity negative
  else ofDecimal negative (digitsValue digits) exponent

/-- An unsigned decimal: digits with an optional point among or beside them, at least one digit,
and an optional exponent. -/
def readMagnitude? (negative : Bool) (text : List Char) : Option Binary64 := do
  let whole := text.takeWhile Char.isDigit
  let rest := text.dropWhile Char.isDigit
  let (fraction, rest) := match rest with
    | '.' :: rest => (rest.takeWhile Char.isDigit, rest.dropWhile Char.isDigit)
    | rest => ([], rest)
  if whole.isEmpty && fraction.isEmpty then none
  else
    let exponent ← match rest with
      | [] => some 0
      | c :: rest => if c = 'e' || c = 'E' then readExponent? rest else none
    some (ofDigits negative (whole ++ fraction) (exponent - fraction.length))

/-- The number that a text spells. -/
def read? (text : String) : Option Binary64 :=
  let (negative, body) := match text.toList with
    | '-' :: rest => (true, rest)
    | '+' :: rest => (false, rest)
    | rest => (false, rest)
  let word := String.ofList (body.map Char.toLower)
  if word = "inf" || word = "infinity" then some (infinity negative)
  else if word = "nan" then some (if negative then neg nan else nan)
  else readMagnitude? negative body

end Binary64

end Persistence
