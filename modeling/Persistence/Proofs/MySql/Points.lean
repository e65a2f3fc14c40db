import Mathlib
import Persistence.MySql.Column

/-!
# Points that are read from bytes

A number stands in a row of bytes as its digits to the base 256.  The first byte of the body of a
point says in which order the digits of the body stand; those of the reference system in front of
it always stand in one order.  The reader takes every row of bytes that is long enough and marked
as a point, and no other one, and it makes the same of a point in both orders.

Main results:

- `littleEndian_digitBytes`, `digitBytes_littleEndian`: digits and numbers correspond.
- `readPoint?_eq_some_iff`: what is read, by the places of its bytes.
- `readPoint?_eq_some_iff_written`: the bytes that are read are written points.
- `point_value?_exact`: what a column of points is read as.
-/

namespace Persistence.MySql

/-! ## Numbers in bytes -/

/-- The first digits of a number to the base 256, the last significant one first. -/
def digitBytes : (count : Nat) → Nat → List UInt8
  | 0, _ => []
  | count + 1, n => UInt8.ofNat n :: digitBytes count (n / 256)

/-- The bytes of a number in one of the two orders. -/
def wordBytes (leastFirst : Bool) (count n : Nat) : List UInt8 :=
  if leastFirst then digitBytes count n else (digitBytes count n).reverse

/-- The number whose digits to the base 256 are the given bytes in one of the two orders. -/
def byteValue (leastFirst : Bool) (bytes : List UInt8) : Nat :=
  Nat.ofDigits 256 ((if leastFirst then bytes else bytes.reverse).map UInt8.toNat)

theorem littleEndian_eq_ofDigits (bytes : List UInt8) :
    littleEndian bytes = Nat.ofDigits 256 (bytes.map UInt8.toNat) := by
  induction bytes with
  | nil => rfl
  | cons byte bytes ih => rw [littleEndian, ih, List.map_cons, Nat.ofDigits_cons]

theorem wordOf_eq_byteValue (leastFirst : Bool) (bytes : List UInt8) :
    wordOf leastFirst bytes = byteValue leastFirst bytes :=
  littleEndian_eq_ofDigits _

@[simp]
theorem length_digitBytes (count n : Nat) : (digitBytes count n).length = count := by
  induction count generalizing n with
  | zero => rfl
  | succ count ih => rw [digitBytes, List.length_cons, ih]

@[simp]
theorem length_wordBytes (leastFirst : Bool) (count n : Nat) :
    (wordBytes leastFirst count n).length = count := by
  cases leastFirst <;> simp [wordBytes]

/-- A number is read from its digits if there are enough of them. -/
theorem littleEndian_digitBytes {count n : Nat} (h : n < 256 ^ count) :
    littleEndian (digitBytes count n) = n := by
  induction count generalizing n with
  | zero =>
      rw [pow_zero, Nat.lt_one_iff] at h
      exact h.symm
  | succ count ih =>
      have hrest : n / 256 < 256 ^ count := by
        rw [pow_succ] at h
        exact Nat.div_lt_of_lt_mul (by rwa [mul_comm])
      rw [digitBytes, littleEndian, ih hrest, UInt8.toNat_ofNat']
      omega

/-- The digits of the number that some bytes stand for are these bytes. -/
theorem digitBytes_littleEndian (bytes : List UInt8) :
    digitBytes bytes.length (littleEndian bytes) = bytes := by
  induction bytes with
  | nil => rfl
  | cons byte bytes ih =>
      have hbyte : byte.toNat < 256 := byte.toNat_lt
      have hfirst : UInt8.ofNat (byte.toNat + 256 * littleEndian bytes) = byte := by
        apply UInt8.toNat_inj.1
        rw [UInt8.toNat_ofNat']
        omega
      have hrest : (byte.toNat + 256 * littleEndian bytes) / 256 = littleEndian bytes := by omega
      rw [List.length_cons, littleEndian, digitBytes, hfirst, hrest, ih]

theorem littleEndian_lt (bytes : List UInt8) : littleEndian bytes < 256 ^ bytes.length := by
  induction bytes with
  | nil => exact Nat.one_pos
  | cons byte bytes ih =>
      have hbyte : byte.toNat < 256 := byte.toNat_lt
      rw [littleEndian, List.length_cons, pow_succ]
      omega

theorem wordOf_wordBytes (leastFirst : Bool) {count n : Nat} (h : n < 256 ^ count) :
    wordOf leastFirst (wordBytes leastFirst count n) = n := by
  cases leastFirst <;> simp [wordOf, wordBytes, littleEndian_digitBytes h]

theorem wordBytes_wordOf (leastFirst : Bool) (bytes : List UInt8) :
    wordBytes leastFirst bytes.length (wordOf leastFirst bytes) = bytes := by
  cases leastFirst with
  | true => exact digitBytes_littleEndian bytes
  | false =>
      have hreverse := digitBytes_littleEndian bytes.reverse
      rw [List.length_reverse] at hreverse
      simp [wordOf, wordBytes, hreverse]

theorem wordOf_lt (leastFirst : Bool) (bytes : List UInt8) :
    wordOf leastFirst bytes < 256 ^ bytes.length := by
  cases leastFirst with
  | true => exact littleEndian_lt bytes
  | false => simpa [wordOf] using littleEndian_lt bytes.reverse

/-! ## Points in bytes -/

/-- The byte that stands for an order. -/
def orderByte (leastFirst : Bool) : UInt8 := if leastFirst then 1 else 0

theorem byteOrder?_eq_some_iff {byte : UInt8} {leastFirst : Bool} :
    byteOrder? byte = some leastFirst ↔ byte = orderByte leastFirst := by
  unfold byteOrder? orderByte
  split
  · next h => subst h; cases leastFirst <;> simp
  · next h =>
    split
    · next h' => subst h'; cases leastFirst <;> simp
    · next h' => cases leastFirst <;> simp [h, h']

/-- What is read as a point, by the places of its bytes. -/
theorem readPoint?_eq_some_iff {bytes : List UInt8} {p : Point} :
    readPoint? bytes = some p ↔ pointSize ≤ bytes.length ∧ ∃ leastFirst,
      bytes[4]? = some (orderByte leastFirst) ∧
        wordOf leastFirst (bytes.extract 5 9) = pointMark ∧
        p = ⟨floatOf leastFirst (bytes.extract 9 17), floatOf leastFirst (bytes.extract 17 25),
          littleEndian (bytes.extract 0 4)⟩ := by
  by_cases hsize : bytes.length < pointSize
  · rw [readPoint?, if_pos hsize]
    simp [Nat.not_le.2 hsize]
  · have hsize' := Nat.not_lt.1 hsize
    have hmark : 4 < bytes.length := Nat.lt_of_lt_of_le (by decide) hsize'
    rw [readPoint?, if_neg hsize, List.getElem?_eq_getElem hmark]
    simp only [Option.bind_eq_bind, Option.bind_some, Option.bind_eq_some_iff,
      byteOrder?_eq_some_iff, Option.some.injEq, hsize', true_and]
    refine exists_congr fun leastFirst => and_congr_right fun _ => ?_
    by_cases hword : wordOf leastFirst (bytes.extract 5 9) = pointMark
    · have hword' : wordOf leastFirst ((bytes.drop 5).take 4) = pointMark := hword
      rw [if_pos hword', Option.some.injEq]
      exact ⟨fun h => ⟨hword, h.symm⟩, fun h => h.2.symm⟩
    · have hword' : wordOf leastFirst ((bytes.drop 5).take 4) ≠ pointMark := hword
      rw [if_neg hword']
      simp [hword]

/-- The bytes of a point whose body is in one of the two orders. -/
def writePoint (leastFirst : Bool) (p : Point) : List UInt8 :=
  wordBytes true 4 p.srid ++ orderByte leastFirst :: wordBytes leastFirst 4 pointMark ++
    wordBytes leastFirst 8 p.longitude.bits.toNat ++ wordBytes leastFirst 8 p.latitude.bits.toNat

theorem toNat_bits_floatOf {leastFirst : Bool} {bytes : List UInt8} (h : bytes.length = 8) :
    (floatOf leastFirst bytes).bits.toNat = wordOf leastFirst bytes := by
  have hlt := wordOf_lt leastFirst bytes
  rw [h] at hlt
  exact UInt64.toNat_ofNat_of_lt hlt

theorem eq_floatOf {leastFirst : Bool} {bytes : List UInt8} {x : Binary64} (h : bytes.length = 8)
    (hbits : x.bits.toNat = wordOf leastFirst bytes) : x = floatOf leastFirst bytes := by
  rw [← toNat_bits_floatOf h, UInt64.toNat_inj] at hbits
  exact Binary64.mk.injEq .. |>.mpr hbits

theorem floatOf_wordBytes (leastFirst : Bool) (x : Binary64) :
    floatOf leastFirst (wordBytes leastFirst 8 x.bits.toNat) = x := by
  have hlt : x.bits.toNat < 256 ^ 8 := x.bits.toNat_lt
  rw [floatOf, wordOf_wordBytes leastFirst hlt, UInt64.ofNat_toNat]

/-- A row of bytes is what its parts are, one behind the other. -/
theorem eq_append_extract {bytes : List UInt8} {byte : UInt8} (hbyte : bytes[4]? = some byte) :
    bytes = bytes.extract 0 4 ++ byte :: bytes.extract 5 9 ++ bytes.extract 9 17 ++
      bytes.extract 17 25 ++ bytes.drop 25 := by
  have hparts : ∀ start count, bytes.extract start (start + count) ++ bytes.drop (start + count) =
      bytes.drop start := by
    intro start count
    rw [List.extract_eq_take_drop, Nat.add_sub_cancel_left, ← List.drop_drop,
      List.take_append_drop]
  have hmark : byte :: bytes.drop 5 = bytes.drop 4 := by
    obtain ⟨hlt, rfl⟩ := List.getElem?_eq_some_iff.1 hbyte
    exact (List.drop_eq_getElem_cons hlt).symm
  simp only [List.append_assoc, List.cons_append, hparts 17 8, hparts 9 8, hparts 5 4, hmark,
    hparts 0 4, List.drop_zero]

/-- The part of a row of bytes between two places. -/
theorem extract_middle {front part back : List UInt8} {start stop : Nat}
    (hfront : front.length = start) (hpart : start + part.length = stop) :
    (front ++ (part ++ back)).extract start stop = part := by
  subst hfront hpart
  rw [List.extract_eq_take_drop, List.drop_left, Nat.add_sub_cancel_left, List.take_left]

theorem length_extract {bytes : List UInt8} {start stop : Nat} (h : stop ≤ bytes.length) :
    (bytes.extract start stop).length = stop - start := by
  rw [List.extract_eq_take_drop, List.length_take, List.length_drop]
  omega

/-- The parts of a written point, by their places. -/
theorem parts_writePoint (leastFirst : Bool) (p : Point) (rest : List UInt8) :
    (writePoint leastFirst p ++ rest).extract 0 4 = wordBytes true 4 p.srid ∧
      (writePoint leastFirst p ++ rest)[4]? = some (orderByte leastFirst) ∧
      (writePoint leastFirst p ++ rest).extract 5 9 = wordBytes leastFirst 4 pointMark ∧
      (writePoint leastFirst p ++ rest).extract 9 17 =
        wordBytes leastFirst 8 p.longitude.bits.toNat ∧
      (writePoint leastFirst p ++ rest).extract 17 25 =
        wordBytes leastFirst 8 p.latitude.bits.toNat := by
  have hassoc : writePoint leastFirst p ++ rest = wordBytes true 4 p.srid ++
      ([orderByte leastFirst] ++ (wordBytes leastFirst 4 pointMark ++
        (wordBytes leastFirst 8 p.longitude.bits.toNat ++
          (wordBytes leastFirst 8 p.latitude.bits.toNat ++ rest)))) := by
    simp [writePoint]
  rw [hassoc]
  refine ⟨?_, ?_, ?_, ?_, ?_⟩
  · exact @extract_middle [] _ _ 0 4 rfl (Nat.zero_add _ |>.trans (length_wordBytes true 4 _))
  · rw [List.getElem?_append_right (by simp), length_wordBytes]
    rfl
  · rw [← List.append_assoc]
    exact extract_middle (by simp) (by simp)
  · rw [← List.append_assoc, ← List.append_assoc]
    exact extract_middle (by simp) (by simp)
  · rw [← List.append_assoc, ← List.append_assoc, ← List.append_assoc]
    exact extract_middle (by simp) (by simp)

/-- The bytes that are read as a point are the point in one of the two orders, with any bytes behind
it. -/
theorem readPoint?_eq_some_iff_written {bytes : List UInt8} {p : Point} :
    readPoint? bytes = some p ↔ p.srid < UInt32.size ∧
      ∃ leastFirst rest, bytes = writePoint leastFirst p ++ rest := by
  rw [readPoint?_eq_some_iff]
  constructor
  · rintro ⟨hsize, leastFirst, hbyte, hmark, rfl⟩
    have hlength : ∀ start stop, stop ≤ 25 → (bytes.extract start stop).length = stop - start :=
      fun start stop hstop => length_extract (hstop.trans hsize)
    have hword : ∀ leastFirst start stop, stop ≤ 25 →
        wordBytes leastFirst (stop - start) (wordOf leastFirst (bytes.extract start stop)) =
          bytes.extract start stop := by
      intro leastFirst start stop hstop
      rw [← hlength start stop hstop, wordBytes_wordOf]
    refine ⟨?_, leastFirst, bytes.drop 25, ?_⟩
    · have hlt := littleEndian_lt (bytes.extract 0 4)
      rwa [hlength 0 4 (by decide)] at hlt
    · rw [writePoint, ← hmark, toNat_bits_floatOf (hlength 9 17 (by decide)),
        toNat_bits_floatOf (hlength 17 25 (by decide)), hword leastFirst 5 9 (by decide),
        hword leastFirst 9 17 (by decide), hword leastFirst 17 25 (by decide)]
      have hsrid : wordBytes true 4 (littleEndian (bytes.extract 0 4)) = bytes.extract 0 4 :=
        hword true 0 4 (by decide)
      rw [hsrid]
      exact eq_append_extract hbyte
  · rintro ⟨hsrid, leastFirst, rest, rfl⟩
    obtain ⟨hreference, hbyte, hmark, hlongitude, hlatitude⟩ :=
      parts_writePoint leastFirst p rest
    refine ⟨?_, leastFirst, hbyte, ?_, ?_⟩
    · simp only [writePoint, pointSize, List.length_append, List.length_cons, length_wordBytes]
      omega
    · rw [hmark, wordOf_wordBytes leastFirst (by decide)]
    · rw [hlongitude, hlatitude, hreference, floatOf_wordBytes, floatOf_wordBytes]
      have hword : p.srid < 256 ^ 4 := hsrid
      exact congrArg (Point.mk _ _) (wordOf_wordBytes true hword).symm

/-! ## Points in columns -/

/-- What stands for a coordinate in JSON: its number, or null where it is not finite. -/
inductive StandsForCoordinate (x : Binary64) : Json → Prop
  | number (h : x.isFinite = true) : StandsForCoordinate x (.num (.float x h))
  | null (h : x.isFinite = false) : StandsForCoordinate x .null

theorem ofFloat_of_isFinite {x : Binary64} (h : x.isFinite = true) :
    Json.ofFloat x = .num (.float x h) := by
  rw [Json.ofFloat, Json.Number.ofFloat?, dif_pos h]

theorem ofFloat_of_not_isFinite {x : Binary64} (h : x.isFinite = false) :
    Json.ofFloat x = .null := by
  rw [Json.ofFloat, Json.Number.ofFloat?, dif_neg (by simp [h])]

theorem standsForCoordinate_iff {x : Binary64} {j : Json} :
    StandsForCoordinate x j ↔ j = Json.ofFloat x := by
  constructor
  · rintro (h | h)
    · exact (ofFloat_of_isFinite h).symm
    · exact (ofFloat_of_not_isFinite h).symm
  · rintro rfl
    cases h : x.isFinite with
    | true => exact ofFloat_of_isFinite h ▸ .number h
    | false => exact ofFloat_of_not_isFinite h ▸ .null h

/-- The bytes hold a point that is `j` in JSON.  The fifth byte says how the numbers behind it are
to be read; the number in front of it has its least significant byte first. -/
inductive HoldsPoint (bytes : List UInt8) : Json → Prop
  | intro (leastFirst : Bool) {longitude latitude : Binary64} {x y : Json} {srid : Nat}
      (fits : minInt64 ≤ srid ∧ (srid : Int) ≤ maxUInt64)
      (size : 25 ≤ bytes.length)
      (order : bytes[4]? = some (orderByte leastFirst))
      (mark : byteValue leastFirst (bytes.extract 5 9) = 1)
      (reference : srid = byteValue true (bytes.extract 0 4))
      (first : longitude.bits.toNat = byteValue leastFirst (bytes.extract 9 17))
      (second : latitude.bits.toNat = byteValue leastFirst (bytes.extract 17 25))
      (horizontal : StandsForCoordinate longitude x)
      (vertical : StandsForCoordinate latitude y) :
      HoldsPoint bytes (.obj [("longitude", x), ("latitude", y), ("srid", .num (.int srid fits))])

theorem ofInt_eq {n : Nat} (fits : minInt64 ≤ n ∧ (n : Int) ≤ maxUInt64) :
    Json.ofInt n = .num (.int n fits) := by
  rw [Json.ofInt, Json.Number.ofInt?, dif_pos fits]

theorem fits_of_lt {n : Nat} (h : n < UInt32.size) : minInt64 ≤ n ∧ (n : Int) ≤ maxUInt64 := by
  have hsize : UInt32.size = 4294967296 := rfl
  have hmin : minInt64 ≤ 0 := by decide
  have hmax : (4294967296 : Int) ≤ maxUInt64 := by decide
  omega

/-- What a column of points is read as is what its bytes hold. -/
theorem holdsPoint_iff {bytes : List UInt8} {j : Json} :
    HoldsPoint bytes j ↔ ∃ p, readPoint? bytes = some p ∧ p.toJson = j := by
  have hlength : pointSize ≤ bytes.length → ∀ start stop, stop ≤ pointSize →
      (bytes.extract start stop).length = stop - start :=
    fun hsize start stop hstop => length_extract (hstop.trans hsize)
  constructor
  · intro h
    cases h with
    | @intro leastFirst longitude latitude x y srid fits size order mark reference first second
        horizontal vertical =>
        rw [standsForCoordinate_iff] at horizontal vertical
        rw [← wordOf_eq_byteValue] at mark first second
        refine ⟨⟨longitude, latitude, srid⟩,
          readPoint?_eq_some_iff.2 ⟨size, leastFirst, order, mark, ?_⟩, ?_⟩
        · rw [Point.mk.injEq]
          exact ⟨eq_floatOf (hlength size 9 17 (by decide)) first,
            eq_floatOf (hlength size 17 25 (by decide)) second,
            reference.trans (littleEndian_eq_ofDigits _).symm⟩
        · rw [Point.toJson, horizontal, vertical, ofInt_eq fits]
  · rintro ⟨p, hp, rfl⟩
    have hsrid := (readPoint?_eq_some_iff_written.1 hp).1
    obtain ⟨hsize, leastFirst, horder, hmark, rfl⟩ := readPoint?_eq_some_iff.1 hp
    rw [wordOf_eq_byteValue] at hmark
    rw [Point.toJson, ofInt_eq (fits_of_lt hsrid)]
    refine .intro leastFirst (fits_of_lt hsrid) hsize horder hmark
      (littleEndian_eq_ofDigits _) ?_ ?_ (standsForCoordinate_iff.2 rfl)
      (standsForCoordinate_iff.2 rfl)
    · rw [toNat_bits_floatOf (hlength hsize 9 17 (by decide)), wordOf_eq_byteValue]
    · rw [toNat_bits_floatOf (hlength hsize 17 25 (by decide)), wordOf_eq_byteValue]

/-- A point with finite coordinates is read back from its JSON form. -/
theorem ofJson?_toJson {p : Point} (hsrid : p.srid < UInt32.size)
    (hlongitude : p.longitude.isFinite = true) (hlatitude : p.latitude.isFinite = true) :
    Point.ofJson? p.toJson = some p := by
  rw [Point.toJson, ofFloat_of_isFinite hlongitude, ofFloat_of_isFinite hlatitude,
    ofInt_eq (fits_of_lt hsrid)]
  generalize hfields : [("longitude", Json.num (.float p.longitude hlongitude)),
    ("latitude", Json.num (.float p.latitude hlatitude)),
    ("srid", Json.num (.int p.srid (fits_of_lt hsrid)))] = fields
  have hfirst : Json.required? Json.binary64? fields "longitude" = some p.longitude := by
    rw [← hfields]
    rfl
  have hsecond : Json.required? Json.binary64? fields "latitude" = some p.latitude := by
    rw [← hfields]
    rfl
  have hreference : Json.withDefault? Point.defaultSrid (Json.natBelow? UInt32.size) fields "srid" =
      some p.srid := by
    rw [← hfields]
    show ((Json.num (.int p.srid (fits_of_lt hsrid))).uint64?.bind fun n =>
      if n < UInt32.size then some n else none) = some p.srid
    simp [Json.uint64?, Json.Number.toUInt64?, hsrid]
  simp only [Point.ofJson?, Json.record?, hfirst, hsecond, hreference, Option.bind_eq_bind,
    Option.bind_some]

/-- A column of points is read exactly where its bytes hold a point, which are the written points in
either order of bytes with any bytes behind them; both orders of a point are read alike, and finite
coordinates come back. -/
theorem point_value?_exact (bytes rest : List UInt8) (longitude latitude : Binary64)
    (srid : UInt32) :
    (∀ j, Reading.point.value? bytes = some j ↔ HoldsPoint bytes j) ∧
    (∀ j, Reading.point.value? bytes = some j ↔ ∃ p : Point, p.srid < UInt32.size ∧
      j = p.toJson ∧ ∃ leastFirst rest, bytes = writePoint leastFirst p ++ rest) ∧
    (∀ leastFirst, Reading.point.value?
        (writePoint leastFirst ⟨longitude, latitude, srid.toNat⟩ ++ rest) =
      some (Point.toJson ⟨longitude, latitude, srid.toNat⟩)) ∧
    (longitude.isFinite = true → latitude.isFinite = true →
      Point.ofJson? (Point.toJson ⟨longitude, latitude, srid.toNat⟩) =
        some ⟨longitude, latitude, srid.toNat⟩) := by
  have hvalue : ∀ bytes, Reading.point.value? bytes = (readPoint? bytes).map Point.toJson :=
    fun bytes => rfl
  refine ⟨fun j => ?_, fun j => ?_, fun leastFirst => ?_, fun hlongitude hlatitude => ?_⟩
  · rw [hvalue, Option.map_eq_some_iff, holdsPoint_iff]
  · rw [hvalue, Option.map_eq_some_iff]
    refine exists_congr fun p => ?_
    rw [readPoint?_eq_some_iff_written]
    tauto
  · rw [hvalue, readPoint?_eq_some_iff_written.2 ⟨srid.toNat_lt, leastFirst, rest, rfl⟩,
      Option.map_some]
  · exact ofJson?_toJson srid.toNat_lt hlongitude hlatitude

/-- The point at -1.25 and 2.5 in the reference system 3857. -/
def mercator : Point := ⟨⟨0xBFF4000000000000⟩, ⟨0x4004000000000000⟩, 3857⟩

/-- A point with its most significant bytes first, and what is made of it. -/
theorem point_value?_mercator :
    mercator.longitude.isFinite = true ∧ mercator.latitude.isFinite = true ∧
      HoldsPoint [17, 15, 0, 0, 0, 0, 0, 0, 1, 0xBF, 0xF4, 0, 0, 0, 0, 0, 0, 0x40, 0x04, 0, 0, 0, 0,
        0, 0] mercator.toJson ∧
      Point.ofJson? mercator.toJson = some mercator := by
  have hlongitude : mercator.longitude.isFinite = true := by decide +kernel
  have hlatitude : mercator.latitude.isFinite = true := by decide +kernel
  obtain ⟨hholds, -, hread, hback⟩ := point_value?_exact
    [17, 15, 0, 0, 0, 0, 0, 0, 1, 0xBF, 0xF4, 0, 0, 0, 0, 0, 0, 0x40, 0x04, 0, 0, 0, 0, 0, 0] []
    mercator.longitude mercator.latitude 3857
  exact ⟨hlongitude, hlatitude, (hholds _).1 (hread false), hback hlongitude hlatitude⟩

end Persistence.MySql
