import Mathlib
import Persistence.Text.Utf8

/-!
# UTF-8 reads back

The bytes of a character are one well-formed unit, whatever bytes follow.  Strict and lenient
reading therefore both give the text back whose bytes they read.

Main results:

- `Text.utf8Units_encode`: the units of the bytes of a text are its characters.
- `Text.utf8Strict?_toUTF8`, `Text.utf8Lenient_toUTF8`: the bytes of a text spell that text.
-/

namespace Persistence.Text

/-- A byte that is not the first of its character. -/
def tailByte (n : Nat) : UInt8 := UInt8.ofNat (n % 64 + 128)

theorem toNat_tailByte (n : Nat) : (tailByte n).toNat = n % 64 + 128 := by
  rw [tailByte, UInt8.toNat_ofNat', Nat.mod_eq_of_lt (by omega)]

/-- A byte that fits is taken into the code point. -/
theorem takeContinuation_tailByte {low high : UInt8} {n : Nat} (hlow : low.toNat ≤ n % 64 + 128)
    (hhigh : n % 64 + 128 ≤ high.toNat) (count payload : Nat) (bytes : List UInt8) :
    takeContinuation (count + 1) low high payload (tailByte n :: bytes) =
      takeContinuation count 0x80 0xbf (payload * 64 + n % 64) bytes := by
  have hlow : low ≤ tailByte n := by rwa [UInt8.le_iff_toNat_le, toNat_tailByte]
  have hhigh : tailByte n ≤ high := by rwa [UInt8.le_iff_toNat_le, toNat_tailByte]
  have hmod : (n % 64 + 128) % 64 = n % 64 := by omega
  rw [takeContinuation, if_pos (by simp [hlow, hhigh]), toNat_tailByte, hmod]

/-- The last byte of a character completes its code point. -/
theorem takeContinuation_lastByte {low high : UInt8} {n : Nat} (hlow : low.toNat ≤ n % 64 + 128)
    (hhigh : n % 64 + 128 ≤ high.toNat) (payload : Nat) (bytes : List UInt8) :
    takeContinuation 1 low high payload (tailByte n :: bytes) =
      (some (payload * 64 + n % 64), bytes) := by
  rw [takeContinuation_tailByte hlow hhigh, takeContinuation]

/-- What a lead byte announces, by its number. -/
theorem continuation_ofNat {n : Nat} (h : n < 256) :
    continuation (UInt8.ofNat n) =
      if 194 ≤ n ∧ n ≤ 223 then some (1, 0x80, 0xbf)
      else if n = 224 then some (2, 0xa0, 0xbf)
      else if n = 237 then some (2, 0x80, 0x9f)
      else if 225 ≤ n ∧ n ≤ 239 then some (2, 0x80, 0xbf)
      else if n = 240 then some (3, 0x90, 0xbf)
      else if n = 244 then some (3, 0x80, 0x8f)
      else if 241 ≤ n ∧ n ≤ 243 then some (3, 0x80, 0xbf)
      else none := by
  have hn : (UInt8.ofNat n).toNat = n := by rw [UInt8.toNat_ofNat', Nat.mod_eq_of_lt h]
  simp [continuation, UInt8.le_iff_toNat_le, ← UInt8.toNat_inj, hn]

/-- A lead byte and the bytes that it announces are the character of their code point. -/
theorem takeUnit_ofNat {n count payload point : Nat} {low high : UInt8} {bytes rest : List UInt8}
    (hleast : 128 ≤ n) (h : n < 256)
    (hlead : continuation (UInt8.ofNat n) = some (count, low, high))
    (hpayload : n % Nat.pow 2 (6 - count) = payload)
    (htail : takeContinuation count low high payload bytes = (some point, rest)) :
    takeUnit (UInt8.ofNat n) bytes = (some (Char.ofNat point), rest) := by
  have hn : (UInt8.ofNat n).toNat = n := by rw [UInt8.toNat_ofNat', Nat.mod_eq_of_lt h]
  have hnot : ¬UInt8.ofNat n < 0x80 := by
    rw [UInt8.lt_iff_toNat_lt, hn]
    simpa using hleast
  rw [takeUnit, if_neg hnot, hlead]
  dsimp only
  rw [leadPayload, hn, hpayload, htail]
  rfl

variable {v : Nat} (rest : List UInt8)

/-- A character of one byte. -/
theorem takeUnit_one (hhigh : v ≤ 127) :
    takeUnit (UInt8.ofNat v) rest = (some (Char.ofNat v), rest) := by
  have hv : (UInt8.ofNat v).toNat = v := by rw [UInt8.toNat_ofNat', Nat.mod_eq_of_lt (by omega)]
  have hlt : UInt8.ofNat v < 0x80 := by
    rw [UInt8.lt_iff_toNat_lt, hv]
    simp
    omega
  rw [takeUnit, if_pos hlt, hv]

/-- A character of two bytes. -/
theorem takeUnit_two (hlow : 127 < v) (hhigh : v ≤ 2047) :
    takeUnit (UInt8.ofNat (v / 64 % 32 + 192)) (tailByte v :: rest) =
      (some (Char.ofNat v), rest) := by
  have hlead := continuation_ofNat (n := v / 64 % 32 + 192) (by omega)
  rw [if_pos (by omega)] at hlead
  have hpoint : v / 64 * 64 + v % 64 = v := by omega
  have htail : takeContinuation 1 0x80 0xbf (v / 64) (tailByte v :: rest) = (some v, rest) := by
    rw [takeContinuation_lastByte (by simp) (by simp; omega), hpoint]
  refine takeUnit_ofNat (by omega) (by omega) hlead ?_ htail
  simp
  omega

/-- A character of three bytes; the second one keeps it out of the shorter forms and out of the
surrogates. -/
theorem takeUnit_three (hlow : 2047 < v) (hhigh : v ≤ 65535) (hvalid : v < 55296 ∨ 57343 < v) :
    takeUnit (UInt8.ofNat (v / 4096 % 16 + 224)) (tailByte (v / 64) :: tailByte v :: rest) =
      (some (Char.ofNat v), rest) := by
  have hpayload : (v / 4096 % 16 + 224) % Nat.pow 2 (6 - 2) = v / 4096 := by
    simp
    omega
  have htail : ∀ low high : UInt8, low.toNat ≤ v / 64 % 64 + 128 →
      v / 64 % 64 + 128 ≤ high.toNat →
      takeContinuation 2 low high (v / 4096) (tailByte (v / 64) :: tailByte v :: rest) =
        (some v, rest) := by
    intro low high hlow hhigh
    have hpoint : (v / 4096 * 64 + v / 64 % 64) * 64 + v % 64 = v := by omega
    rw [takeContinuation_tailByte hlow hhigh, takeContinuation_lastByte (by simp) (by simp; omega),
      hpoint]
  have hlead := continuation_ofNat (n := v / 4096 % 16 + 224) (by omega)
  rw [if_neg (by omega)] at hlead
  -- two lead bytes narrow the second byte: that of the shorter forms and that of the surrogates
  by_cases hshort : v / 4096 % 16 + 224 = 224
  · rw [if_pos hshort] at hlead
    refine takeUnit_ofNat (by omega) (by omega) hlead hpayload (htail _ _ ?_ ?_)
    · simp
      omega
    · simp
      omega
  · rw [if_neg hshort] at hlead
    by_cases hsurrogate : v / 4096 % 16 + 224 = 237
    · rw [if_pos hsurrogate] at hlead
      refine takeUnit_ofNat (by omega) (by omega) hlead hpayload (htail _ _ ?_ ?_)
      · simp
      · simp
        omega
    · rw [if_neg hsurrogate, if_pos (by omega)] at hlead
      refine takeUnit_ofNat (by omega) (by omega) hlead hpayload (htail _ _ ?_ ?_)
      · simp
      · simp
        omega

/-- A character of four bytes; the second one keeps it out of the shorter forms and below the end
of the code points. -/
theorem takeUnit_four (hlow : 65535 < v) (hhigh : v < 1114112) :
    takeUnit (UInt8.ofNat (v / 262144 % 8 + 240))
        (tailByte (v / 4096) :: tailByte (v / 64) :: tailByte v :: rest) =
      (some (Char.ofNat v), rest) := by
  have hpayload : (v / 262144 % 8 + 240) % Nat.pow 2 (6 - 3) = v / 262144 := by
    simp
    omega
  have htail : ∀ low high : UInt8, low.toNat ≤ v / 4096 % 64 + 128 →
      v / 4096 % 64 + 128 ≤ high.toNat →
      takeContinuation 3 low high (v / 262144)
          (tailByte (v / 4096) :: tailByte (v / 64) :: tailByte v :: rest) =
        (some v, rest) := by
    intro low high hlow hhigh
    have hpoint : ((v / 262144 * 64 + v / 4096 % 64) * 64 + v / 64 % 64) * 64 + v % 64 = v := by
      omega
    rw [takeContinuation_tailByte hlow hhigh, takeContinuation_tailByte (by simp) (by simp; omega),
      takeContinuation_lastByte (by simp) (by simp; omega), hpoint]
  have hlead := continuation_ofNat (n := v / 262144 % 8 + 240) (by omega)
  rw [if_neg (by omega), if_neg (by omega), if_neg (by omega), if_neg (by omega)] at hlead
  -- two lead bytes narrow the second byte: that of the shorter forms and the last one
  by_cases hshort : v / 262144 % 8 + 240 = 240
  · rw [if_pos hshort] at hlead
    refine takeUnit_ofNat (by omega) (by omega) hlead hpayload (htail _ _ ?_ ?_)
    · simp
      omega
    · simp
      omega
  · rw [if_neg hshort] at hlead
    by_cases hlast : v / 262144 % 8 + 240 = 244
    · rw [if_pos hlast] at hlead
      refine takeUnit_ofNat (by omega) (by omega) hlead hpayload (htail _ _ ?_ ?_)
      · simp
      · simp
        omega
    · rw [if_neg hlast, if_pos (by omega)] at hlead
      refine takeUnit_ofNat (by omega) (by omega) hlead hpayload (htail _ _ ?_ ?_)
      · simp
      · simp
        omega

/-- The bytes of a character are one unit, whatever follows. -/
theorem exists_takeUnit_utf8EncodeChar (c : Char) :
    ∃ lead bytes, String.utf8EncodeChar c = lead :: bytes ∧
      takeUnit lead (bytes ++ rest) = (some c, rest) := by
  have hvalid : c.val.toNat < 0xd800 ∨ 0xdfff < c.val.toNat ∧ c.val.toNat < 0x110000 := c.valid
  have hchar : Char.ofNat c.val.toNat = c := Char.ofNat_toNat c
  rw [String.utf8EncodeChar]
  generalize c.val.toNat = v at hvalid hchar
  rw [← hchar]
  split
  · exact ⟨_, _, rfl, takeUnit_one rest (by omega)⟩
  · split
    · exact ⟨_, _, rfl, takeUnit_two rest (by omega) (by omega)⟩
    · split
      · exact ⟨_, _, rfl, takeUnit_three rest (by omega) (by omega) (by omega)⟩
      · exact ⟨_, _, rfl, takeUnit_four rest (by omega) (by omega)⟩

/-- The units of the bytes of a text are its characters. -/
theorem utf8Units_flatMap (s : List Char) :
    utf8Units (s.flatMap String.utf8EncodeChar) = s.map some := by
  induction s with
  | nil => rw [List.flatMap_nil, utf8Units, List.map_nil]
  | cons c s ih =>
      obtain ⟨lead, bytes, hencode, hunit⟩ :=
        exists_takeUnit_utf8EncodeChar (s.flatMap String.utf8EncodeChar) c
      rw [List.flatMap_cons, hencode, List.cons_append, utf8Units, hunit, ih, List.map_cons]

/-- The bytes of a text. -/
theorem toList_data_toUTF8 (s : String) :
    s.toUTF8.data.toList = s.toList.flatMap String.utf8EncodeChar := by
  rw [String.toUTF8, ← String.utf8Encode_toList, List.utf8Encode, List.toList_data_toByteArray]

/-- Strict reading gives a text back from its bytes. -/
theorem utf8Strict?_toUTF8 (s : String) : utf8Strict? s.toUTF8.data.toList = some s := by
  have hunits : (s.toList.map some).mapM id = some s.toList := by
    have hpure := List.mapM_pure (m := Option) (l := s.toList) (f := id)
    simpa [List.mapM_map] using hpure
  rw [utf8Strict?, toList_data_toUTF8, utf8Units_flatMap, hunits]
  simp

/-- Lenient reading gives a text back from its bytes. -/
theorem utf8Lenient_toUTF8 (s : String) : utf8Lenient s.toUTF8.data.toList = s := by
  rw [utf8Lenient, toList_data_toUTF8, utf8Units_flatMap]
  simp

end Persistence.Text
