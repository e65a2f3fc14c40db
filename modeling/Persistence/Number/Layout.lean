import Persistence.Number.Shortest

/-!
# Layouts of decimal numbers

A layout fixes what the shortest digits leave open: when an exponent is written, whether a whole
number keeps a fraction, and how an exponent looks.  The library writes floating-point numbers in
three layouts: `plain` in SQL text, `json` in JSON text and `inspected` in structural dumps.
-/

namespace Persistence.Decimal

/-- How a decimal number is laid out. -/
structure Layout where
  /-- Which of two equally near shortest decimals is written. -/
  tie : Tie
  /-- Whether a number whose first digit has this exponent is written without an exponent. -/
  positional : Int → Bool
  /-- Whether a whole number without exponent ends in `.0`. -/
  wholePoint : Bool
  /-- Whether a positive exponent has a sign. -/
  exponentPlus : Bool

/-- SQL text never has an exponent, and whole numbers have no fraction. -/
def Layout.plain : Layout := ⟨.up, fun _ => true, false, false⟩

/-- JSON text is positional from `1e-5` up to `1e16`, and an exponent always has a sign. -/
def Layout.json : Layout := ⟨.even, fun e => -5 ≤ e && e < 16, true, true⟩

/-- Structural dumps are positional from `1e-4` up to `1e16`. -/
def Layout.inspected : Layout := ⟨.up, fun e => -4 ≤ e && e < 16, true, false⟩

/-- A number of zeros. -/
def zeros (n : Nat) : List Char := List.replicate n '0'

/-- The digits with a decimal point `point` digits after their start. -/
def positionalText (wholePoint : Bool) (digits : List Char) (point : Int) : List Char :=
  if point ≤ 0 then '0' :: '.' :: zeros (-point).toNat ++ digits
  else if (digits.length : Int) ≤ point then
    digits ++ zeros (point.toNat - digits.length) ++ (if wholePoint then ['.', '0'] else [])
  else digits.take point.toNat ++ '.' :: digits.drop point.toNat

/-- The digits with a decimal point after the first of them, and the exponent of that digit. -/
def exponentText (plus : Bool) (digits : List Char) (exponent : Int) : List Char :=
  let tail := digits.drop 1
  digits.take 1 ++ (if tail.isEmpty then [] else '.' :: tail) ++ 'e' ::
    ((if plus && 0 ≤ exponent then ['+'] else []) ++ (toString exponent).toList)

/-- A decimal number in a layout. -/
def text (layout : Layout) (d : Decimal) : List Char :=
  if d.coefficient = 0 then '0' :: (if layout.wholePoint then ['.', '0'] else [])
  else
    let digits := Nat.toDigits 10 d.coefficient
    let point : Int := digits.length + d.exponent
    if layout.positional (point - 1) then positionalText layout.wholePoint digits point
    else exponentText layout.exponentPlus digits (point - 1)

end Persistence.Decimal

namespace Persistence.Binary64

/-- The text of a number in a layout: the shortest digits behind a sign, or `NaN`, `inf`, `-inf`. -/
def text (layout : Decimal.Layout) (x : Binary64) : String :=
  if x.isNaN then "NaN"
  else
    let magnitude :=
      if x.isFinite then Decimal.text layout (Decimal.shortest layout.tie x) else ['i', 'n', 'f']
    String.ofList (if x.negative then '-' :: magnitude else magnitude)

end Persistence.Binary64
