/-!
# Reading UTF-8

A byte sequence is cut into units: well-formed characters, and malformed subsequences that are as
long as possible without being a character.  Strict reading refuses every malformed unit, lenient
reading puts the replacement character in its place.
-/

namespace Persistence.Text

/-- The byte values that may stand directly after a given lead byte, and the number of
continuation bytes that the lead byte announces; `none` for a byte that leads nothing. -/
def continuation (lead : UInt8) : Option (Nat × UInt8 × UInt8) :=
  if 0xc2 ≤ lead && lead ≤ 0xdf then some (1, 0x80, 0xbf)
  else if lead == 0xe0 then some (2, 0xa0, 0xbf)
  else if lead == 0xed then some (2, 0x80, 0x9f)
  else if 0xe1 ≤ lead && lead ≤ 0xef then some (2, 0x80, 0xbf)
  else if lead == 0xf0 then some (3, 0x90, 0xbf)
  else if lead == 0xf4 then some (3, 0x80, 0x8f)
  else if 0xf1 ≤ lead && lead ≤ 0xf3 then some (3, 0x80, 0xbf)
  else none

/-- The payload of a lead byte that announces `count` continuation bytes. -/
def leadPayload (count : Nat) (lead : UInt8) : Nat :=
  lead.toNat % Nat.pow 2 (6 - count)

/-- Take `count` continuation bytes off the front of `bytes`, the first of them between `low` and
`high` and the others between `0x80` and `0xbf`.  The result is the code point built on top of
`payload`, or nothing where a byte does not fit, together with the bytes that are left; a byte
that does not fit is left. -/
def takeContinuation : Nat → UInt8 → UInt8 → Nat → List UInt8 → Option Nat × List UInt8
  | 0, _, _, payload, bytes => (some payload, bytes)
  | _ + 1, _, _, _, [] => (none, [])
  | count + 1, low, high, payload, byte :: bytes =>
      if low ≤ byte && byte ≤ high then
        takeContinuation count 0x80 0xbf (payload * 64 + byte.toNat % 64) bytes
      else (none, byte :: bytes)

/-- The unit that starts with `lead`: a character, or nothing for a malformed unit, and the bytes
that follow it. -/
def takeUnit (lead : UInt8) (bytes : List UInt8) : Option Char × List UInt8 :=
  if lead < 0x80 then (some (Char.ofNat lead.toNat), bytes)
  else match continuation lead with
    | none => (none, bytes)
    | some (count, low, high) =>
        let (point, rest) := takeContinuation count low high (leadPayload count lead) bytes
        (point.map Char.ofNat, rest)

theorem length_takeContinuation (count : Nat) (low high : UInt8) (payload : Nat)
    (bytes : List UInt8) :
    (takeContinuation count low high payload bytes).2.length ≤ bytes.length := by
  induction count generalizing low high payload bytes with
  | zero => simp [takeContinuation]
  | succ count ih =>
      cases bytes with
      | nil => simp [takeContinuation]
      | cons byte bytes =>
          simp only [takeContinuation]
          split
          · exact Nat.le_trans (ih _ _ _ _) (by simp)
          · simp

theorem length_takeUnit (lead : UInt8) (bytes : List UInt8) :
    (takeUnit lead bytes).2.length ≤ bytes.length := by
  simp only [takeUnit]
  split
  · simp
  · split
    · simp
    · exact length_takeContinuation _ _ _ _ _

/-- The units of a byte sequence, in order; a malformed unit is `none`. -/
def utf8Units : List UInt8 → List (Option Char)
  | [] => []
  | lead :: bytes => (takeUnit lead bytes).1 :: utf8Units (takeUnit lead bytes).2
termination_by bytes => bytes.length
decreasing_by
  have := length_takeUnit lead bytes
  simp only [List.length_cons]
  omega

/-- The text that the bytes spell, if every unit is a character. -/
def utf8Strict? (bytes : List UInt8) : Option String :=
  ((utf8Units bytes).mapM id).map String.ofList

/-- The text that the bytes spell, with U+FFFD for each malformed unit. -/
def utf8Lenient (bytes : List UInt8) : String :=
  String.ofList ((utf8Units bytes).map fun unit => unit.getD '\uFFFD')

end Persistence.Text
