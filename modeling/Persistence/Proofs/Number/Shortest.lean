import Persistence.Proofs.Number.Spelling

/-!
# Shortest decimals tell numbers apart

The shortest decimal of a positive number lies among the reals that read back as the number:
seventeen digits are always enough to find one there.  The intervals of two different numbers have
nothing in common, since where they touch one of them is open.  So the texts of finite numbers are
as different as the numbers.

Main results:

- `Decimal.shortestOf_has`: the shortest decimal lies in the interval of the number.
- `Decimal.Interval.unique`: a real lies in the interval of one number.
- `Binary64.eq_of_text_eq`: finite numbers with the same text are the same.
-/

namespace Persistence

/-- A power of two as a quotient of naturals. -/
theorem Binary64.powerOfTwo_eq (e : ℤ) :
    ((powerOfTwo e).1 : ℚ) / (powerOfTwo e).2 = 2 ^ e := by
  rw [powerOfTwo]
  rcases le_total 0 e with h | h
  · have hzero : (-e).toNat = 0 := by omega
    rw [hzero]
    have hcast : ((2 ^ e.toNat : Nat) : ℚ) = 2 ^ e := by
      rw [Nat.cast_pow, ← zpow_natCast, Int.toNat_of_nonneg h, Nat.cast_ofNat]
    show ((2 ^ e.toNat : Nat) : ℚ) / ((2 ^ 0 : Nat) : ℚ) = 2 ^ e
    rw [hcast]
    simp
  · have hzero : e.toNat = 0 := by omega
    rw [hzero]
    have hcast : ((2 ^ (-e).toNat : Nat) : ℚ) = 2 ^ (-e) := by
      rw [Nat.cast_pow, ← zpow_natCast, Int.toNat_of_nonneg (neg_nonneg.2 h), Nat.cast_ofNat]
    show ((2 ^ 0 : Nat) : ℚ) / ((2 ^ (-e).toNat : Nat) : ℚ) = 2 ^ e
    rw [hcast, zpow_neg]
    simp

theorem Binary64.powerOfTwo_snd_pos (e : ℤ) : 0 < (powerOfTwo e).2 := Nat.pow_pos (by decide)

namespace Decimal

/-- A power of ten as a quotient of naturals. -/
theorem powerOfTen_eq (e : ℤ) :
    (10 : ℚ) ^ e = (Nat.pow 10 e.toNat : Nat) / (Nat.pow 10 (-e).toNat : Nat) := by
  rcases le_total 0 e with h | h
  · have hzero : (-e).toNat = 0 := by omega
    rw [hzero]
    conv_lhs => rw [← Int.toNat_of_nonneg h, zpow_natCast]
    simp
  · have hzero : e.toNat = 0 := by omega
    rw [hzero, ← neg_neg e, zpow_neg, neg_neg]
    conv_lhs => rw [← Int.toNat_of_nonneg (neg_nonneg.2 h), zpow_natCast]
    simp

/-! ## Intervals -/

namespace Interval

/-- The size of a unit. -/
def size (i : Interval) : ℚ := i.unit / i.unitDen

/-- A real belongs to an interval; its ends do if it is closed. -/
def Has (i : Interval) (v : ℚ) : Prop :=
  if i.closed then i.low * i.size ≤ v ∧ v ≤ i.high * i.size
  else i.low * i.size < v ∧ v < i.high * i.size

theorem Has.le {i : Interval} {v : ℚ} (h : i.Has v) :
    i.low * i.size ≤ v ∧ v ≤ i.high * i.size := by
  rw [Has] at h
  split at h
  · exact h
  · exact ⟨h.1.le, h.2.le⟩

theorem Has.lt {i : Interval} {v : ℚ} (h : i.Has v) (hopen : i.closed = false) :
    i.low * i.size < v ∧ v < i.high * i.size := by
  rw [Has, if_neg (by simp [hopen])] at h
  exact h

/-- What lies between the ends belongs to an interval. -/
theorem has_of_lt {i : Interval} {v : ℚ} (hlow : i.low * i.size < v) (hhigh : v < i.high * i.size) :
    i.Has v := by
  rw [Has]
  split
  · exact ⟨hlow.le, hhigh.le⟩
  · exact ⟨hlow, hhigh⟩

variable (i : Interval) (hden : 0 < i.unitDen) (e : ℤ)

include hden

/-- The size of a unit and of a grid step, as naturals that are scaled alike. -/
theorem exists_scale : ∃ k : ℚ, 0 < k ∧
    ((i.unit * Nat.pow 10 (-e).toNat : Nat) : ℚ) = i.size * k ∧
    ((i.unitDen * Nat.pow 10 e.toNat : Nat) : ℚ) = 10 ^ e * k := by
  have hden' : (0 : ℚ) < i.unitDen := by exact_mod_cast hden
  have hpow : (0 : ℚ) < (Nat.pow 10 (-e).toNat : Nat) := by
    exact_mod_cast Nat.pow_pos (by decide)
  refine ⟨i.unitDen * (Nat.pow 10 (-e).toNat : Nat), by positivity, ?_, ?_⟩
  · rw [size, Nat.cast_mul]
    field_simp
  · rw [powerOfTen_eq, Nat.cast_mul]
    field_simp

/-- The test for a point of the grid says whether it belongs to the interval. -/
theorem contains_iff (c : Nat) :
    i.contains (i.unit * Nat.pow 10 (-e).toNat) (i.unitDen * Nat.pow 10 e.toNat) c = true ↔
      i.Has (c * 10 ^ e) := by
  obtain ⟨k, hk, hunit, hstep⟩ := exists_scale i hden e
  generalize i.unit * Nat.pow 10 (-e).toNat = a at hunit
  generalize i.unitDen * Nat.pow 10 e.toNat = b at hstep
  have hle : ∀ x : Nat, x * a ≤ c * b ↔ (x : ℚ) * i.size ≤ c * 10 ^ e := by
    intro x
    rw [← mul_le_mul_iff_of_pos_right hk, mul_assoc, mul_assoc, ← hunit, ← hstep]
    exact_mod_cast Iff.rfl
  have hge : ∀ x : Nat, c * b ≤ x * a ↔ (c : ℚ) * 10 ^ e ≤ x * i.size := by
    intro x
    rw [← mul_le_mul_iff_of_pos_right hk, mul_assoc, mul_assoc, ← hunit, ← hstep]
    exact_mod_cast Iff.rfl
  rw [contains, Has]
  split
  · rw [Bool.and_eq_true, decide_eq_true_eq, decide_eq_true_eq, hle, hge]
  · rw [Bool.and_eq_true, decide_eq_true_eq, decide_eq_true_eq, ← not_le, ← not_le, hge, hle,
      not_le, not_le]

/-- A point that is picked belongs to the interval. -/
theorem has_of_pick? {tie : Tie} {d : Decimal} (h : i.pick? tie e = some d) : i.Has d.value := by
  unfold pick? at h
  dsimp only at h
  generalize hfloor : i.value * (i.unit * Nat.pow 10 (-e).toNat) /
    (i.unitDen * Nat.pow 10 e.toNat) = floor at h
  have hhas := contains_iff i hden e
  split at h
  · next hbelow habove =>
      have hboth : ∀ roundUp : Bool,
          i.Has (Decimal.value ⟨if roundUp then floor + 1 else floor, e⟩) := by
        intro roundUp
        cases roundUp with
        | true => exact (hhas _).1 habove
        | false => exact (hhas _).1 hbelow
      obtain rfl := Option.some.inj h
      exact hboth _
  · next hbelow _ =>
      obtain rfl := Option.some.inj h
      exact (hhas _).1 hbelow
  · next _ habove =>
      obtain rfl := Option.some.inj h
      exact (hhas _).1 habove
  · simp at h

/-- If the grid is finer than the interval is wide, a point is picked. -/
theorem isSome_pick? (tie : Tie) (hlow : i.low < i.value) (hhigh : i.value < i.high)
    (hfine : (10 : ℚ) ^ e < i.high * i.size - i.low * i.size) : (i.pick? tie e).isSome := by
  obtain ⟨k, hk, hunit, hstep⟩ := exists_scale i hden e
  have hhas := contains_iff i hden e
  unfold pick?
  dsimp only
  generalize hfloor : i.value * (i.unit * Nat.pow 10 (-e).toNat) /
    (i.unitDen * Nat.pow 10 e.toNat) = floor
  generalize ha : i.unit * Nat.pow 10 (-e).toNat = a at hunit hhas hfloor ⊢
  generalize hb : i.unitDen * Nat.pow 10 e.toNat = b at hstep hhas hfloor ⊢
  have hsize : 0 < i.size := by
    have hwide : 0 < ((i.high : ℚ) - i.low) * i.size := by
      have hpos : (0 : ℚ) < 10 ^ e := by positivity
      linarith
    have hless : (0 : ℚ) < (i.high : ℚ) - i.low := by
      rw [sub_pos]
      exact_mod_cast hlow.trans hhigh
    exact (mul_pos_iff_of_pos_left hless).1 hwide
  have hbpos : 0 < b := by
    rw [← hb]
    exact Nat.mul_pos hden (Nat.pow_pos (by decide))
  have hbelow : (floor : ℚ) * 10 ^ e ≤ i.value * i.size := by
    have hnat : floor * b ≤ i.value * a := by
      rw [← hfloor]
      exact Nat.div_mul_le_self _ _
    rw [← mul_le_mul_iff_of_pos_right hk, mul_assoc, mul_assoc, ← hunit, ← hstep]
    exact_mod_cast hnat
  have habove : (i.value : ℚ) * i.size < (floor + 1 : Nat) * 10 ^ e := by
    have hnat : i.value * a < (floor + 1) * b := by
      rw [← hfloor]
      exact Nat.lt_mul_of_div_lt (Nat.lt_succ_self _) hbpos
    rw [← mul_lt_mul_iff_of_pos_right hk, mul_assoc, mul_assoc, ← hunit, ← hstep]
    exact_mod_cast hnat
  have hlow' : (i.low : ℚ) * i.size < i.value * i.size := by
    have hcast : (i.low : ℚ) < i.value := by exact_mod_cast hlow
    exact mul_lt_mul_of_pos_right hcast hsize
  have hhigh' : (i.value : ℚ) * i.size < i.high * i.size := by
    have hcast : (i.value : ℚ) < i.high := by exact_mod_cast hhigh
    exact mul_lt_mul_of_pos_right hcast hsize
  by_cases hfirst : (i.low : ℚ) * i.size < floor * 10 ^ e
  · have hin := (hhas floor).2 (has_of_lt hfirst (hbelow.trans_lt hhigh'))
    rw [hin]
    cases i.contains a b (floor + 1) <;> rfl
  · -- The neighbour below is outside, so the one above is not.
    have hsecond : ((floor + 1 : Nat) : ℚ) * 10 ^ e < i.high * i.size := by
      push_cast
      linarith
    have hin := (hhas (floor + 1)).2 (has_of_lt (hlow'.trans habove) hsecond)
    rw [hin]
    cases i.contains a b floor <;> rfl

end Interval

/-! ## Significands and scales -/

/-- A significand and a scale that a positive number of the format has. -/
structure Canonical (significand : Nat) (scale : ℤ) : Prop where
  pos : 0 < significand
  lt : significand < 9007199254740992
  least : -1074 ≤ scale
  normal : scale = -1074 ∨ 4503599627370496 ≤ significand

/-- The distance of the lower end of the interval from the number, in units. -/
def lowGap (significand : Nat) (scale : ℤ) : Nat :=
  if significand = 4503599627370496 ∧ -1074 < scale then 1 else 2

theorem lowGap_le (significand : Nat) (scale : ℤ) : lowGap significand scale ≤ 2 := by
  rw [lowGap]
  split <;> omega

variable {s t : Nat} {q r : ℤ}

theorem Interval.of_low (s : Nat) (q : ℤ) : (Interval.of s q).low = 4 * s - lowGap s q := by
  have hcount : Binary64.fractionCount = 4503599627370496 := by decide
  unfold Interval.of lowGap
  simp [hcount]

theorem Interval.of_size (s : Nat) (q : ℤ) : (Interval.of s q).size = 2 ^ (q - 2) :=
  Binary64.powerOfTwo_eq (q - 2)

theorem Interval.of_unitDen_pos (s : Nat) (q : ℤ) : 0 < (Interval.of s q).unitDen :=
  Binary64.powerOfTwo_snd_pos (q - 2)

/-- The lower end of the interval, as a rational. -/
theorem Interval.cast_low (h : Canonical s q) :
    ((Interval.of s q).low : ℚ) = 4 * s - lowGap s q := by
  have hgap := lowGap_le s q
  have hpos := h.pos
  rw [Interval.of_low, Nat.cast_sub (by omega)]
  push_cast
  ring

theorem Interval.cast_high (s : Nat) (q : ℤ) : ((Interval.of s q).high : ℚ) = 4 * s + 2 := by
  show ((4 * s + 2 : Nat) : ℚ) = 4 * s + 2
  push_cast
  ring

/-! ## Seventeen digits -/

theorem two_pow_le_ten_pow {n k m : Nat} (h : n ≤ 27 * k) (hm : 10 * k ≤ m) :
    Nat.pow 2 n ≤ Nat.pow 10 m := by
  calc 2 ^ n ≤ 2 ^ (27 * k) := Nat.pow_le_pow_right (by decide) h
    _ = (2 ^ 27) ^ k := pow_mul _ _ _
    _ ≤ (10 ^ 10) ^ k := Nat.pow_le_pow_left (by decide) k
    _ = 10 ^ (10 * k) := (pow_mul _ _ _).symm
    _ ≤ 10 ^ m := Nat.pow_le_pow_right (by decide) hm

/-- The first digit of a number is not zero. -/
theorem pow_digitCount_le {n : Nat} (h : 0 < n) : 10 ^ (digitCount n - 1) ≤ n := by
  by_contra hlt
  have hone : 0 < digitCount n := Nat.length_toDigits_pos
  by_cases hsingle : digitCount n = 1
  · rw [hsingle, Nat.sub_self, Nat.pow_zero] at hlt
    omega
  · have hshort := (Nat.length_toDigits_le_iff (n := n) (by decide : 1 < 10)
      (by omega : 0 < digitCount n - 1)).2 (not_le.1 hlt)
    rw [digitCount] at hshort hone
    omega

/-- The first digit of a number stands at its leading exponent or in front of it. -/
theorem pow_leadingExponent_le (h : Canonical s q) :
    (10 : ℚ) ^ leadingExponent s q ≤ s * 2 ^ q := by
  have hdown := Binary64.powerOfTwo_snd_pos q
  have hpower := Binary64.powerOfTwo_eq q
  have hup : 0 < (Binary64.powerOfTwo q).1 := Nat.pow_pos (by decide)
  have hsmall : (Binary64.powerOfTwo q).2 ≤ Nat.pow 10 400 := by
    have hle : (-q).toNat ≤ 27 * 40 := by
      have hleast := h.least
      omega
    exact two_pow_le_ten_pow hle (by decide)
  unfold leadingExponent
  dsimp only
  generalize (Binary64.powerOfTwo q).1 = up at hpower hup ⊢
  generalize (Binary64.powerOfTwo q).2 = down at hpower hdown hsmall ⊢
  generalize hfloor : s * up * Nat.pow 10 400 / down = floor
  have hfloorPos : 0 < floor := by
    rw [← hfloor]
    refine Nat.div_pos (hsmall.trans ?_) hdown
    exact Nat.le_mul_of_pos_left _ (Nat.mul_pos h.pos hup)
  have hdigits := pow_digitCount_le hfloorPos
  have hone : 0 < digitCount floor := Nat.length_toDigits_pos
  have hbound : (10 : ℚ) ^ (digitCount floor - 1) ≤ s * 2 ^ q * 10 ^ 400 := by
    have hmul : floor * down ≤ s * up * 10 ^ 400 := by
      rw [← hfloor]
      exact Nat.div_mul_le_self _ _
    have hdown' : (0 : ℚ) < down := by exact_mod_cast hdown
    calc (10 : ℚ) ^ (digitCount floor - 1) ≤ floor := by exact_mod_cast hdigits
      _ ≤ s * up * 10 ^ 400 / down := by
          rw [le_div_iff₀ hdown']
          exact_mod_cast hmul
      _ = s * 2 ^ q * 10 ^ 400 := by
          rw [← hpower]
          ring
  have hsplit : (10 : ℚ) ^ ((digitCount floor : ℤ) - 401) =
      10 ^ (digitCount floor - 1) / 10 ^ 400 := by
    have hexponent : (digitCount floor : ℤ) - 401 =
        ((digitCount floor - 1 : Nat) : ℤ) - (400 : Nat) := by
      omega
    rw [hexponent, zpow_sub₀ (by norm_num), zpow_natCast, zpow_natCast]
  rw [hsplit, div_le_iff₀ (by positivity)]
  exact hbound

/-- The grid of seventeen digits is finer than the interval is wide. -/
theorem pow_lt_width (h : Canonical s q) :
    (10 : ℚ) ^ (leadingExponent s q - 16) < (Interval.of s q).high * (Interval.of s q).size -
      (Interval.of s q).low * (Interval.of s q).size := by
  have hlead := pow_leadingExponent_le h
  have hunit : (0 : ℚ) < 2 ^ (q - 2) := by positivity
  have hscale : (2 : ℚ) ^ q = 4 * 2 ^ (q - 2) := by
    rw [zpow_sub₀ (by norm_num)]
    norm_num
    ring
  have hgrid : (10 : ℚ) ^ (leadingExponent s q - 16) * 10 ^ 16 = 10 ^ leadingExponent s q := by
    rw [zpow_sub₀ (by norm_num)]
    field_simp
  have hgap : (4 : ℚ) * s < (2 + lowGap s q) * 10 ^ 16 := by
    have hnat : 4 * s < (2 + lowGap s q) * 10 ^ 16 := by
      have hlt := h.lt
      rw [lowGap]
      split
      · next hpower =>
          rw [hpower.1]
          norm_num
      · omega
    exact_mod_cast hnat
  rw [Interval.cast_low h, Interval.cast_high, Interval.of_size]
  rw [hscale] at hlead
  have hwide : (4 : ℚ) * s * 2 ^ (q - 2) < (2 + lowGap s q) * 10 ^ 16 * 2 ^ (q - 2) :=
    mul_lt_mul_of_pos_right hgap hunit
  nlinarith

theorem value_stripZeros (limit : Nat) (d : Decimal) : (stripZeros limit d).value = d.value := by
  induction limit generalizing d with
  | zero => rfl
  | succ limit ih =>
      rw [stripZeros]
      split
      · next hzero =>
          rw [Bool.and_eq_true, decide_eq_true_eq] at hzero
          have hsplit : d.coefficient = d.coefficient / 10 * 10 := by omega
          rw [ih, value, value, zpow_add₀ (by norm_num), zpow_one]
          conv_rhs => rw [hsplit]
          push_cast
          ring
      · rfl

/-- The shortest decimal lies in the interval of the number. -/
theorem shortestOf_has (tie : Tie) (h : Canonical s q) :
    (Interval.of s q).Has (shortestOf tie s q).value := by
  have hden := Interval.of_unitDen_pos s q
  have hlow : (Interval.of s q).low < (Interval.of s q).value := by
    have hpos := h.pos
    rw [Interval.of_low]
    show 4 * s - lowGap s q < 4 * s
    have hgap : 0 < lowGap s q := by
      rw [lowGap]
      split <;> omega
    omega
  have hhigh : (Interval.of s q).value < (Interval.of s q).high := by
    show 4 * s < 4 * s + 2
    omega
  have hsome := Interval.isSome_pick? _ hden _ tie hlow hhigh (pow_lt_width h)
  rw [shortestOf, value_stripZeros]
  cases hfound : (List.range 17).findSome? fun (n : Nat) =>
      (Interval.of s q).pick? tie (leadingExponent s q - n) with
  | none =>
      have hnone := List.findSome?_eq_none_iff.1 hfound 16 (by simp)
      rw [Nat.cast_ofNat] at hnone
      rw [hnone] at hsome
      simp at hsome
  | some d =>
      obtain ⟨n, -, hpick⟩ := List.exists_of_findSome?_eq_some hfound
      exact Interval.has_of_pick? _ hden _ hpick

/-! ## Intervals of different numbers -/

/-- The ends of the intervals of two numbers of the same scale. -/
theorem ends_of_significand_lt (hlt : s < t) :
    (4 * s + 2 : ℚ) ≤ 4 * t - lowGap t q ∧
      (s % 2 = 0 → t % 2 = 0 → (4 * s + 2 : ℚ) < 4 * t - lowGap t q) := by
  have hgap := lowGap_le t q
  constructor
  · have hnat : 4 * s + 2 + lowGap t q ≤ 4 * t := by omega
    rw [le_sub_iff_add_le]
    exact_mod_cast hnat
  · intro heven heven'
    have hnat : 4 * s + 2 + lowGap t q < 4 * t := by omega
    rw [lt_sub_iff_add_lt]
    exact_mod_cast hnat

/-- The ends of the intervals of a number and of one of a greater scale.  The latter is normal, so
its lower end is at least that of a power of two. -/
theorem ends_of_scale_lt (hs : Canonical s q) (ht : Canonical t r) (hlt : q < r) :
    (4 * s + 2 : ℚ) * 2 ^ (q - 2) ≤ (4 * t - lowGap t r) * 2 ^ (r - 2) ∧
      (s % 2 = 0 → (4 * s + 2 : ℚ) * 2 ^ (q - 2) < (4 * t - lowGap t r) * 2 ^ (r - 2)) := by
  have hunit : (0 : ℚ) < 2 ^ (q - 2) := by positivity
  have hleast := hs.least
  have hnormal : 4503599627370496 ≤ t := by
    rcases ht.normal with hr | hr
    · omega
    · exact hr
  have hsteps : 18014398509481983 + lowGap t r ≤ 4 * t := by
    rw [lowGap]
    split
    · omega
    · omega
  have hlow : (18014398509481983 : ℚ) ≤ 4 * t - lowGap t r := by
    rw [le_sub_iff_add_le]
    exact_mod_cast hsteps
  have hdouble : 2 * (2 : ℚ) ^ (q - 2) ≤ 2 ^ (r - 2) := by
    have hsucc : 2 * (2 : ℚ) ^ (q - 2) = 2 ^ (q - 2 + 1) := by
      rw [zpow_add₀ (by norm_num), zpow_one, mul_comm]
    rw [hsucc]
    exact zpow_le_zpow_right₀ (by norm_num) (by omega)
  have hend : (18014398509481983 : ℚ) * (2 * 2 ^ (q - 2)) ≤
      (4 * t - lowGap t r) * 2 ^ (r - 2) :=
    mul_le_mul hlow hdouble (by positivity) (le_trans (by norm_num) hlow)
  have hlt' := hs.lt
  constructor
  · have hhigh : (4 * s + 2 : ℚ) ≤ 36028797018963966 := by
      have hnat : 4 * s + 2 ≤ 36028797018963966 := by omega
      exact_mod_cast hnat
    nlinarith
  · intro heven
    have hhigh : (4 * s + 2 : ℚ) < 36028797018963966 := by
      have hnat : 4 * s + 2 < 36028797018963966 := by omega
      exact_mod_cast hnat
    nlinarith

/-- The upper end of an interval is not above the lower end of the interval of a greater number, and
where they meet one of the intervals is open. -/
theorem Interval.high_le_low (hs : Canonical s q) (ht : Canonical t r)
    (hlt : q = r ∧ s < t ∨ q < r) :
    (Interval.of s q).high * (Interval.of s q).size ≤
        (Interval.of t r).low * (Interval.of t r).size ∧
      ((Interval.of s q).closed = true → (Interval.of t r).closed = true →
        (Interval.of s q).high * (Interval.of s q).size <
          (Interval.of t r).low * (Interval.of t r).size) := by
  have hclosed : ∀ s q, (Interval.of s q).closed = decide (s % 2 = 0) := fun _ _ => rfl
  rw [Interval.cast_high, Interval.cast_low ht, Interval.of_size, Interval.of_size, hclosed,
    hclosed, decide_eq_true_eq, decide_eq_true_eq]
  rcases hlt with ⟨rfl, hlt⟩ | hlt
  · have hunit : (0 : ℚ) < 2 ^ (q - 2) := by positivity
    obtain ⟨hle, hless⟩ := ends_of_significand_lt (q := q) hlt
    refine ⟨mul_le_mul_of_nonneg_right hle hunit.le, fun heven heven' => ?_⟩
    exact mul_lt_mul_of_pos_right (hless heven heven') hunit
  · obtain ⟨hle, hless⟩ := ends_of_scale_lt hs ht hlt
    exact ⟨hle, fun heven _ => hless heven⟩

/-- A real does not lie in the intervals of a number and of a greater one. -/
theorem Interval.not_has_of_lt (hs : Canonical s q) (ht : Canonical t r)
    (hlt : q = r ∧ s < t ∨ q < r) {v : ℚ} (h : (Interval.of s q).Has v) :
    ¬(Interval.of t r).Has v := by
  intro h'
  obtain ⟨hle, hless⟩ := Interval.high_le_low hs ht hlt
  have habove := h.le.2
  have hbelow := h'.le.1
  cases hcs : (Interval.of s q).closed with
  | false => linarith [(h.lt hcs).2]
  | true =>
      cases hct : (Interval.of t r).closed with
      | false => linarith [(h'.lt hct).1]
      | true => linarith [hless hcs hct]

/-- A real lies in the interval of one number only. -/
theorem Interval.unique (hs : Canonical s q) (ht : Canonical t r) {v : ℚ}
    (h : (Interval.of s q).Has v) (h' : (Interval.of t r).Has v) : s = t ∧ q = r := by
  rcases lt_trichotomy q r with hlt | rfl | hlt
  · exact absurd h' (Interval.not_has_of_lt hs ht (.inr hlt) h)
  · rcases lt_trichotomy s t with hlt | rfl | hlt
    · exact absurd h' (Interval.not_has_of_lt hs ht (.inl ⟨rfl, hlt⟩) h)
    · exact ⟨rfl, rfl⟩
    · exact absurd h (Interval.not_has_of_lt ht hs (.inl ⟨rfl, hlt⟩) h')
  · exact absurd h (Interval.not_has_of_lt ht hs (.inr hlt) h')

/-- What lies in the interval of a number is positive. -/
theorem Interval.pos_of_has (h : Canonical s q) {v : ℚ} (hv : (Interval.of s q).Has v) : 0 < v := by
  have hlow : (0 : ℚ) < (Interval.of s q).low := by
    have hgap := lowGap_le s q
    have hpos := h.pos
    rw [Interval.of_low]
    exact_mod_cast (by omega : 0 < 4 * s - lowGap s q)
  have hsize : 0 < (Interval.of s q).size := by
    rw [Interval.of_size]
    positivity
  exact (mul_pos hlow hsize).trans_le hv.le.1

end Decimal

/-! ## Texts of numbers -/

namespace Binary64

theorem significand_canonical {x : Binary64} (h : x.significand ≠ 0) :
    Decimal.Canonical x.significand x.scale := by
  have hcount : fractionCount = 4503599627370496 := by decide
  have hfraction : x.fraction < fractionCount := Nat.mod_lt _ (by decide)
  rw [significand] at h ⊢
  rw [scale]
  split at h
  · next hzero =>
      rw [if_pos hzero, hzero]
      exact ⟨Nat.pos_of_ne_zero h, by omega, by decide, .inl (by decide)⟩
  · next hzero =>
      rw [if_neg hzero]
      exact ⟨Nat.pos_of_ne_zero h, by omega, by omega, .inr (by omega)⟩

/-- A number is its sign, its significand and its scale. -/
theorem ext_significand {x y : Binary64} (hnegative : x.negative = y.negative)
    (hsignificand : x.significand = y.significand) (hscale : x.scale = y.scale) : x = y := by
  have hcount : fractionCount = 4503599627370496 := by decide
  have hexponents : exponentCount = 2048 := by decide
  have hmagnitudes : magnitudeCount = 9223372036854775808 := by decide
  have hx : x.bits.toNat < 18446744073709551616 := x.bits.toNat_lt
  have hy : y.bits.toNat < 18446744073709551616 := y.bits.toNat_lt
  have hbits : x.bits.toNat = y.bits.toNat := by
    rw [negative, negative, hmagnitudes, decide_eq_decide] at hnegative
    rw [significand, significand, exponentField, exponentField, fraction, fraction, hcount,
      hexponents] at hsignificand
    rw [scale, scale, exponentField, exponentField, hcount, hexponents] at hscale
    split at hsignificand <;> split at hsignificand <;> omega
  rw [Binary64.mk.injEq]
  exact UInt64.toNat_inj.1 hbits

/-- Zero has the least scale. -/
theorem scale_of_significand_eq_zero {x : Binary64} (h : x.significand = 0) : x.scale = -1074 := by
  have hcount : fractionCount = 4503599627370496 := by decide
  rw [significand] at h
  split at h
  · next hzero =>
      rw [scale, hzero]
      decide
  · omega

/-- Numbers whose shortest decimals have the same value have the same magnitude. -/
theorem significand_eq_of_value_eq {tie : Decimal.Tie} {x y : Binary64}
    (h : (Decimal.shortest tie x).value = (Decimal.shortest tie y).value) :
    x.significand = y.significand ∧ x.scale = y.scale := by
  have hhas : ∀ z : Binary64, z.significand ≠ 0 →
      (Decimal.Interval.of z.significand z.scale).Has (Decimal.shortest tie z).value := by
    intro z hz
    rw [Decimal.shortest, if_neg hz]
    exact Decimal.shortestOf_has tie (significand_canonical hz)
  have hzero : ∀ z : Binary64, z.significand = 0 → (Decimal.shortest tie z).value = 0 := by
    intro z hz
    rw [Decimal.shortest, if_pos hz]
    simp [Decimal.value]
  by_cases hx : x.significand = 0
  · by_cases hy : y.significand = 0
    · rw [scale_of_significand_eq_zero hx, scale_of_significand_eq_zero hy, hx, hy]
      exact ⟨rfl, rfl⟩
    · have hpos := Decimal.Interval.pos_of_has (significand_canonical hy) (hhas y hy)
      rw [← h, hzero x hx] at hpos
      exact absurd hpos (lt_irrefl 0)
  · by_cases hy : y.significand = 0
    · have hpos := Decimal.Interval.pos_of_has (significand_canonical hx) (hhas x hx)
      rw [h, hzero y hy] at hpos
      exact absurd hpos (lt_irrefl 0)
    · have hboth := hhas x hx
      rw [h] at hboth
      exact Decimal.Interval.unique (significand_canonical hx) (significand_canonical hy) hboth
        (hhas y hy)

/-- A finite number is written as its shortest decimal behind its sign. -/
theorem toList_text {x : Binary64} (h : x.isFinite = true) (layout : Decimal.Layout) :
    (x.text layout).toList = (if x.negative then ['-'] else []) ++
      (Decimal.shortest layout.tie x).text layout := by
  have hnan : x.isNaN = false := by simp [isNaN, h]
  rw [text, hnan, if_neg (by simp), h, if_pos rfl]
  cases x.negative <;> simp

/-- A finite number is written with the characters of numbers. -/
theorem isNumberChar_of_mem_text {layout : Decimal.Layout} {x : Binary64} (h : x.isFinite = true)
    {c : Char} (hc : c ∈ (x.text layout).toList) : Decimal.IsNumberChar c := by
  rw [toList_text h] at hc
  rcases List.mem_append.1 hc with hc | hc
  · split at hc
    · rw [List.mem_singleton.1 hc]
      exact .inr (.inr (.inr (.inr rfl)))
    · simp at hc
  · exact Decimal.isNumberChar_of_mem_text hc

/-- Finite numbers with the same text are the same. -/
theorem eq_of_text_eq {layout : Decimal.Layout} {x y : Binary64} (hx : x.isFinite = true)
    (hy : y.isFinite = true) (h : x.text layout = y.text layout) : x = y := by
  have hlist := congrArg String.toList h
  rw [toList_text hx, toList_text hy] at hlist
  obtain ⟨c, rest, hcons, hdigit⟩ :=
    Decimal.exists_text_eq layout (Decimal.shortest layout.tie x)
  obtain ⟨c', rest', hcons', hdigit'⟩ :=
    Decimal.exists_text_eq layout (Decimal.shortest layout.tie y)
  have hsign : x.negative = y.negative := by
    have hminus : ∀ c : Char, c.isDigit = true → c ≠ '-' := by
      rintro c hc rfl
      simp at hc
    rw [hcons, hcons'] at hlist
    cases hnx : x.negative with
    | true =>
        cases hny : y.negative with
        | true => rfl
        | false =>
            rw [hnx, hny] at hlist
            exact absurd (List.cons.inj hlist).1.symm (hminus c' hdigit')
    | false =>
        cases hny : y.negative with
        | true =>
            rw [hnx, hny] at hlist
            exact absurd (List.cons.inj hlist).1 (hminus c hdigit)
        | false => rfl
  rw [hsign] at hlist
  have hvalue := congrArg spelled (List.append_cancel_left hlist)
  rw [Decimal.spelled_text, Decimal.spelled_text] at hvalue
  obtain ⟨hsignificand, hscale⟩ := significand_eq_of_value_eq hvalue
  exact ext_significand hsign hsignificand hscale

end Binary64

end Persistence
