import Persistence.Text.Utf8

/-!
# Percent escapes

A percent sign with two hexadecimal digits behind it stands for one byte; everything else stands
for its own bytes in UTF-8.
-/

namespace Persistence.Text

/-- The value of a hexadecimal digit. -/
def hexValue? (c : Char) : Option Nat :=
  if '0' ≤ c ∧ c ≤ '9' then some (c.toNat - '0'.toNat)
  else if 'a' ≤ c ∧ c ≤ 'f' then some (c.toNat - 'a'.toNat + 10)
  else if 'A' ≤ c ∧ c ≤ 'F' then some (c.toNat - 'A'.toNat + 10)
  else none

/-- The byte that two hexadecimal digits spell. -/
def hexByte? (high low : Char) : Option UInt8 := do
  some (UInt8.ofNat ((← hexValue? high) * 16 + (← hexValue? low)))

/-- The bytes of a character. -/
def charBytes (c : Char) : List UInt8 := (String.singleton c).toUTF8.toList

/-- The bytes that a text with percent escapes stands for. -/
def percentBytes : List Char → List UInt8
  | [] => []
  | '%' :: high :: low :: text =>
      match hexByte? high low with
      | some byte => byte :: percentBytes text
      | none => charBytes '%' ++ percentBytes (high :: low :: text)
  | c :: text => charBytes c ++ percentBytes text

/-- The escape of a byte, with capital digits. -/
def percentEscape (byte : UInt8) : List Char :=
  '%' :: (Nat.toDigits 16 (byte.toNat / 16) ++ Nat.toDigits 16 (byte.toNat % 16)).map Char.toUpper

/-- A text with escapes for the control characters and for everything beyond ASCII. -/
def percentPrintable (text : List Char) : List Char :=
  text.flatMap fun c =>
    if 0x20 ≤ c.toNat ∧ c.toNat < 0x7f then [c] else (charBytes c).flatMap percentEscape

end Persistence.Text
