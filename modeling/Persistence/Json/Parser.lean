import Persistence.Json.Basic
import Persistence.Number.Reading

/-!
# Reading JSON text

A document is one value with JSON blanks around it and between its tokens.  Arrays and objects
nest at most `nestingLimit` deep; a field that is written twice keeps its first place and its last
value.

A number without fraction and exponent is an integer if it lies in the 64-bit ranges (`-0` does
not count as one).  Every other number is read in steps: a significand of at most 64 bits is taken
from the front of its digits, what does not fit is dropped, and the significand is multiplied or
divided by a power of ten with one rounding per step.  A number past the largest finite one is
refused.
-/

namespace Persistence.Json

/-- How many arrays and objects may be open at once. -/
def nestingLimit : Nat := 127

/-- The blanks of JSON. -/
def isSpace (c : Char) : Bool := c = ' ' || c = '\n' || c = '\t' || c = '\x0d'

/-- The text without the blanks at its front. -/
def skipSpace (text : List Char) : List Char := text.dropWhile isSpace

/-! ## Numbers -/

/-- Digits taken into a significand as long as it stays below `2 ^ 64`; the digits that are left
start with one that does not fit. -/
def takeSignificand (significand : Nat) : List Char → Nat × List Char
  | [] => (significand, [])
  | c :: digits =>
      let next := significand * 10 + digitValue c
      if next < UInt64.size then takeSignificand next digits else (significand, c :: digits)

/-- The largest power of ten that is divided by in one step. -/
def largestPower : Nat := 308

/-- The number nearest to a power of ten. -/
def powerOfTen (n : Nat) : Binary64 := Binary64.ofNat (Nat.pow 10 n)

/-- Divide by `10 ^ n` in steps of at most `10 ^ largestPower`. -/
def dividePower (x : Binary64) (n : Nat) : Binary64 :=
  if x.isZero then x
  else if n ≤ largestPower then x.div (powerOfTen n)
  else dividePower (x.div (powerOfTen largestPower)) (n - largestPower)
termination_by n
decreasing_by
  have : 0 < largestPower := by decide
  omega

/-- The number read for `significand * 10 ^ exponent`; one past the finite numbers is refused. -/
def scaled? (significand : Nat) (exponent : Int) : Option Binary64 :=
  let x := Binary64.ofNat significand
  if exponent < 0 then some (dividePower x exponent.natAbs)
  else if significand = 0 then some x
  else if largestPower < exponent.toNat then none
  else
    let product := x.mul (powerOfTen exponent.toNat)
    if product.isFinite then some product else none

/-- A floating-point number with the given sign. -/
def signed (negative : Bool) (x : Binary64) : Binary64 := if negative then x.neg else x

/-- The exponent that follows a significand, if there is one, and the rest of the text. -/
def takeExponent? (text : List Char) : Option (Int × List Char) :=
  match text with
  | c :: rest =>
      if c = 'e' || c = 'E' then
        let (negative, rest) := match rest with
          | '+' :: rest => (false, rest)
          | '-' :: rest => (true, rest)
          | rest => (false, rest)
        let digits := rest.takeWhile Char.isDigit
        if digits.isEmpty then none
        else
          let n : Int := digitsValue digits
          some (if negative then -n else n, rest.dropWhile Char.isDigit)
      else some (0, text)
  | [] => some (0, [])

/-- The floating-point number whose digits before the point filled `significand` and left
`surplus` digits over. -/
def takeFloat? (negative : Bool) (significand surplus : Nat) (text : List Char) :
    Option (Number × List Char) := do
  let (significand, fraction, rest) ← match text with
    | '.' :: rest =>
        let digits := rest.takeWhile Char.isDigit
        if digits.isEmpty then none
        else
          let (significand, left) := takeSignificand significand digits
          some (significand, digits.length - left.length, rest.dropWhile Char.isDigit)
    | rest => some (significand, 0, rest)
  let (exponent, rest) ← takeExponent? rest
  let x ← scaled? significand ((surplus : Int) - fraction + exponent)
  let number ← Number.ofFloat? (signed negative x)
  some (number, rest)

/-- The integer with the given magnitude; `-0` and integers outside the 64-bit ranges are
floating-point numbers. -/
def integer? (negative : Bool) (magnitude : Nat) : Option Number :=
  let float := Number.ofFloat? (signed negative (Binary64.ofNat magnitude))
  if !negative then Number.ofInt? magnitude
  else if magnitude = 0 || -(magnitude : Int) < minInt64 then float
  else Number.ofInt? (-magnitude)

/-- The number at the front of a text, behind its sign. -/
def takeMagnitude? (negative : Bool) (text : List Char) : Option (Number × List Char) :=
  let digits := text.takeWhile Char.isDigit
  let rest := text.dropWhile Char.isDigit
  if digits.isEmpty || (digits.head? = some '0' && digits.length ≠ 1) then none
  else
    let (significand, left) := takeSignificand 0 digits
    let whole := match rest with
      | c :: _ => c ≠ '.' && c ≠ 'e' && c ≠ 'E'
      | [] => true
    if whole && left.isEmpty then (integer? negative significand).map fun n => (n, rest)
    else takeFloat? negative significand left.length rest

/-- The number at the front of a text. -/
def takeNumber? : List Char → Option (Number × List Char)
  | '-' :: rest => takeMagnitude? true rest
  | text => takeMagnitude? false text

/-! ## Strings -/

/-- The value of a hexadecimal digit. -/
def hexValue? (c : Char) : Option Nat :=
  if c.isDigit then some (digitValue c)
  else if 'a' ≤ c && c ≤ 'f' then some (c.toNat - 'a'.toNat + 10)
  else if 'A' ≤ c && c ≤ 'F' then some (c.toNat - 'A'.toNat + 10)
  else none

/-- The code unit of four hexadecimal digits. -/
def codeUnit? (a b c d : Char) : Option Nat := do
  some ((((← hexValue? a) * 16 + (← hexValue? b)) * 16 + (← hexValue? c)) * 16 + (← hexValue? d))

/-- A unit of the upper surrogate range, the first half of a pair. -/
def isHighSurrogate (unit : Nat) : Bool := 0xd800 ≤ unit && unit < 0xdc00

/-- A unit of the lower surrogate range, the second half of a pair. -/
def isLowSurrogate (unit : Nat) : Bool := 0xdc00 ≤ unit && unit < 0xe000

/-- The character of an escape with one letter. -/
def escapeLetter? (c : Char) : Option Char :=
  if c = '"' || c = '\\' || c = '/' then some c
  else if c = 'b' then some '\x08'
  else if c = 'f' then some '\x0c'
  else if c = 'n' then some '\n'
  else if c = 'r' then some '\x0d'
  else if c = 't' then some '\t'
  else none

/-- The character of two units of four hexadecimal digits, if they are a surrogate pair. -/
def pairChar? (high : Nat) (a b c d : Char) : Option Char := do
  let low ← codeUnit? a b c d
  if isLowSurrogate low then
    some (Char.ofNat (0x10000 + (high - 0xd800) * 0x400 + (low - 0xdc00)))
  else none

/-- The text behind an opening quote, up to the closing one, and what follows it. -/
def takeString? : List Char → Option (List Char × List Char)
  | [] => none
  | '"' :: rest => some ([], rest)
  | '\\' :: 'u' :: a :: b :: c :: d :: rest =>
      match codeUnit? a b c d with
      | none => none
      | some unit =>
          if isHighSurrogate unit then
            match rest with
            | '\\' :: 'u' :: a :: b :: c :: d :: rest =>
                match pairChar? unit a b c d, takeString? rest with
                | some char, some (s, rest) => some (char :: s, rest)
                | _, _ => none
            | _ => none
          else if isLowSurrogate unit then none
          else (takeString? rest).map fun (s, rest) => (Char.ofNat unit :: s, rest)
  | '\\' :: c :: rest =>
      match escapeLetter? c with
      | none => none
      | some letter => (takeString? rest).map fun (s, rest) => (letter :: s, rest)
  | c :: rest =>
      if c = '\\' || c.toNat < 0x20 then none
      else (takeString? rest).map fun (s, rest) => (c :: s, rest)
termination_by structural text => text

/-! ## Values -/

/-- The text behind a word that it starts with. -/
def takeWord? (word text : List Char) : Option (List Char) :=
  if word.isPrefixOf text then some (text.drop word.length) else none

mutual

/-- The value at the front of a text and what follows it.  `fuel` bounds the number of steps,
`depth` the number of arrays and objects that may still be opened. -/
def takeValue? : Nat → Nat → List Char → Option (Json × List Char)
  | 0, _, _ => none
  | fuel + 1, depth, text =>
      match skipSpace text with
      | [] => none
      | 'n' :: rest => (takeWord? ['u', 'l', 'l'] rest).map fun rest => (null, rest)
      | 't' :: rest => (takeWord? ['r', 'u', 'e'] rest).map fun rest => (bool true, rest)
      | 'f' :: rest => (takeWord? ['a', 'l', 's', 'e'] rest).map fun rest => (bool false, rest)
      | '"' :: rest => (takeString? rest).map fun (s, rest) => (str (String.ofList s), rest)
      | '[' :: rest =>
          match depth with
          | 0 => none
          | depth + 1 =>
              match skipSpace rest with
              | ']' :: rest => some (arr [], rest)
              | rest => (takeItems? fuel depth [] rest).map fun (items, rest) => (arr items, rest)
      | '{' :: rest =>
          match depth with
          | 0 => none
          | depth + 1 =>
              match skipSpace rest with
              | '}' :: rest => some (obj [], rest)
              | rest =>
                  (takeFields? fuel depth [] rest).map fun (fields, rest) => (obj fields, rest)
      | rest => (takeNumber? rest).map fun (n, rest) => (num n, rest)

/-- The items of an array up to its closing bracket, behind the items already taken. -/
def takeItems? : Nat → Nat → List Json → List Char → Option (List Json × List Char)
  | 0, _, _, _ => none
  | fuel + 1, depth, taken, text => do
      let (item, rest) ← takeValue? fuel depth text
      match skipSpace rest with
      | ',' :: rest => takeItems? fuel depth (taken ++ [item]) rest
      | ']' :: rest => some (taken ++ [item], rest)
      | _ => none

/-- The fields of an object up to its closing brace, behind the fields already taken. -/
def takeFields? : Nat → Nat → Fields → List Char → Option (Fields × List Char)
  | 0, _, _, _ => none
  | fuel + 1, depth, taken, text =>
      match skipSpace text with
      | '"' :: rest => do
          let (key, rest) ← takeString? rest
          match skipSpace rest with
          | ':' :: rest => do
              let (value, rest) ← takeValue? fuel depth rest
              let taken := Keyed.put (String.ofList key) value taken
              match skipSpace rest with
              | ',' :: rest => takeFields? fuel depth taken rest
              | '}' :: rest => some (taken, rest)
              | _ => none
          | _ => none
      | _ => none

end

/-- The value that a list of characters spells.  Every two steps take a character off the text, so
the fuel is never the reason for a refusal. -/
def parseChars? (text : List Char) : Option Json := do
  let (value, rest) ← takeValue? (2 * text.length + 2) nestingLimit text
  if (skipSpace rest).isEmpty then some value else none

/-- The value that a text spells, if it is a JSON document. -/
def parse? (text : String) : Option Json := parseChars? text.toList

end Persistence.Json
