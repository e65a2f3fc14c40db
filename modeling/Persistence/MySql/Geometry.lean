import Persistence.Value.Point

/-!
# Points in binary form

A geometry is stored as the number of its reference system in four bytes, least significant byte
first, and a body.  The body of a point is a byte that fixes the byte order, the word 1, and the
two coordinates.
-/

namespace Persistence.MySql

/-- The natural number of some bytes, least significant byte first. -/
def littleEndian : List UInt8 → Nat
  | [] => 0
  | byte :: bytes => byte.toNat + 256 * littleEndian bytes

/-- The natural number of some bytes in one of the two orders. -/
def wordOf (leastFirst : Bool) (bytes : List UInt8) : Nat :=
  littleEndian (if leastFirst then bytes else bytes.reverse)

/-- The floating-point number of eight bytes. -/
def floatOf (leastFirst : Bool) (bytes : List UInt8) : Binary64 :=
  ⟨UInt64.ofNat (wordOf leastFirst bytes)⟩

/-- The byte order that a byte stands for: whether the least significant byte comes first. -/
def byteOrder? (byte : UInt8) : Option Bool :=
  if byte = 0 then some false else if byte = 1 then some true else none

/-- The word that marks the body of a point. -/
def pointMark : Nat := 1

/-- The size of a point: reference system, byte order, mark and coordinates. -/
def pointSize : Nat := 25

/-- The point that some bytes begin with. -/
def readPoint? (bytes : List UInt8) : Option Point := do
  if bytes.length < pointSize then none
  else
    let leastFirst ← byteOrder? (← bytes[4]?)
    if wordOf leastFirst ((bytes.drop 5).take 4) = pointMark then
      some
        { longitude := floatOf leastFirst ((bytes.drop 9).take 8)
          latitude := floatOf leastFirst ((bytes.drop 17).take 8)
          srid := littleEndian (bytes.take 4) }
    else none

end Persistence.MySql
