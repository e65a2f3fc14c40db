/-!
# Ranges of integers

The number of words of a width in bits, and the ends of the ranges of integers of 64 bits.
-/

namespace Persistence

/-- The number of words of a width in bits. -/
def wordCount (bits : Nat) : Nat := Nat.pow 2 bits

/-- The least signed integer of 64 bits. -/
abbrev minInt64 : Int := -9223372036854775808

/-- The greatest signed integer of 64 bits. -/
abbrev maxInt64 : Int := 9223372036854775807

/-- The greatest unsigned integer of 64 bits. -/
abbrev maxUInt64 : Int := 18446744073709551615

end Persistence
