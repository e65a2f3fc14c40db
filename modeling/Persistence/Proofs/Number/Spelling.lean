import Mathlib
import Persistence.Number.Layout
import Persistence.Number.Reading

/-!
# What decimal texts spell

Every layout writes a decimal number in such a way that its value can be read off the text: the
digits in front of an exponent, scaled by the digits behind a point and by the exponent.  Two
decimals with the same text have the same value.

Main results:

- `Decimal.spelled_text`: the text of a decimal in any layout spells its value.
- `Decimal.exists_text_eq`, `Decimal.isNumberChar_of_mem_text`: a text starts with a digit and has
  only characters of numbers.
-/

namespace Persistence

/-- The value of a decimal number. -/
def Decimal.value (d : Decimal) : ℚ := d.coefficient * 10 ^ d.exponent

/-! ## Reading -/

/-- The number that digits with a sign in front of them spell. -/
def spelledInt (text : List Char) : ℤ :=
  if text.head? = some '-' then -(Nat.ofDigitChars 10 text.tail 0)
  else if text.head? = some '+' then Nat.ofDigitChars 10 text.tail 0
  else Nat.ofDigitChars 10 text 0

/-- The number that digits with a point among them spell. -/
def spelledMantissa (text : List Char) : ℚ :=
  let whole := text.takeWhile Char.isDigit
  let fraction := (text.dropWhile Char.isDigit).tail
  Nat.ofDigitChars 10 (whole ++ fraction) 0 * 10 ^ (-(fraction.length : ℤ))

/-- The number that a mantissa and an exponent spell. -/
def spelled (text : List Char) : ℚ :=
  spelledMantissa (text.takeWhile (· != 'e')) *
    10 ^ spelledInt (text.dropWhile (· != 'e')).tail

/-- Whether all characters are digits. -/
def AllDigits (text : List Char) : Prop := ∀ c ∈ text, c.isDigit = true

variable {digits front back : List Char}

theorem AllDigits.append (h : AllDigits front) (h' : AllDigits back) :
    AllDigits (front ++ back) := by
  intro c hc
  rcases List.mem_append.1 hc with hc | hc
  · exact h c hc
  · exact h' c hc

theorem AllDigits.ne_e (h : AllDigits digits) {c : Char} (hc : c ∈ digits) : (c != 'e') = true := by
  have hdigit := h c hc
  rw [bne_iff_ne]
  rintro rfl
  simp at hdigit

theorem allDigits_toDigits (n : Nat) : AllDigits (Nat.toDigits 10 n) :=
  fun _ hc => Nat.isDigit_of_mem_toDigits (by decide) (by decide) hc

theorem allDigits_zeros (n : Nat) : AllDigits (Decimal.zeros n) := by
  intro c hc
  rw [Decimal.zeros, List.mem_replicate] at hc
  rw [hc.2]
  rfl

/-- The value that digits are read with is the number that they spell. -/
theorem digitsValue_eq_ofDigitChars (digits : List Char) :
    digitsValue digits = Nat.ofDigitChars 10 digits 0 := by
  rw [digitsValue, Nat.ofDigitChars]
  congr 1
  funext n c
  rw [digitValue, Nat.mul_comm]

/-- The digits of a natural are read as that natural. -/
theorem digitsValue_toDigits (n : Nat) : digitsValue (Nat.toDigits 10 n) = n := by
  rw [digitsValue_eq_ofDigitChars, Nat.ofDigitChars_ten_toDigits]

/-- Digits alone spell a whole number. -/
theorem spelledMantissa_whole (h : AllDigits digits) :
    spelledMantissa digits = Nat.ofDigitChars 10 digits 0 := by
  have hdrop : digits.dropWhile Char.isDigit = [] := by
    rw [List.dropWhile_eq_nil_iff]
    exact h
  simp [spelledMantissa, List.takeWhile_eq_self_iff.2 h, hdrop]

/-- Digits around a point spell a fraction. -/
theorem spelledMantissa_point (h : AllDigits front) :
    spelledMantissa (front ++ '.' :: back) =
      Nat.ofDigitChars 10 (front ++ back) 0 * 10 ^ (-(back.length : ℤ)) := by
  have htake : (front ++ '.' :: back).takeWhile Char.isDigit = front := by
    rw [List.takeWhile_append_of_pos h]
    simp
  have hdrop : (front ++ '.' :: back).dropWhile Char.isDigit = '.' :: back := by
    rw [List.dropWhile_append_of_pos h]
    simp
  rw [spelledMantissa, htake, hdrop, List.tail_cons]

/-- Without an exponent a text spells its mantissa. -/
theorem spelled_mantissa {text : List Char} (h : ∀ c ∈ text, (c != 'e') = true) :
    spelled text = spelledMantissa text := by
  have hdrop : text.dropWhile (· != 'e') = [] := by
    rw [List.dropWhile_eq_nil_iff]
    exact h
  simp [spelled, List.takeWhile_eq_self_iff.2 h, hdrop, spelledInt]

/-- An exponent scales its mantissa. -/
theorem spelled_exponent {text : List Char} (h : ∀ c ∈ text, (c != 'e') = true)
    (exponent : List Char) :
    spelled (text ++ 'e' :: exponent) = spelledMantissa text * 10 ^ spelledInt exponent := by
  have htake : (text ++ 'e' :: exponent).takeWhile (· != 'e') = text := by
    rw [List.takeWhile_append_of_pos h]
    simp
  have hdrop : (text ++ 'e' :: exponent).dropWhile (· != 'e') = 'e' :: exponent := by
    rw [List.dropWhile_append_of_pos h]
    simp
  rw [spelled, htake, hdrop, List.tail_cons]

theorem toList_toString_ofNat (n : Nat) :
    (toString (Int.ofNat n)).toList = Nat.toDigits 10 n :=
  Nat.toList_repr

theorem toList_toString_negSucc (n : Nat) :
    (toString (Int.negSucc n)).toList = '-' :: Nat.toDigits 10 (n + 1) := by
  show ("-" ++ Nat.repr (n + 1)).toList = _
  rw [String.toList_append, Nat.toList_repr]
  rfl

/-- The text of an integer spells it, with or without a sign in front of a positive one. -/
theorem spelledInt_toString (plus : Bool) (n : ℤ) :
    spelledInt ((if plus && 0 ≤ n then ['+'] else []) ++ (toString n).toList) = n := by
  cases n with
  | ofNat n =>
      rw [toList_toString_ofNat]
      cases hplus : plus with
      | true => simp [spelledInt, Nat.ofDigitChars_ten_toDigits]
      | false =>
          have hhead : ∀ c, (Nat.toDigits 10 n).head? = some c → c.isDigit = true :=
            fun c hc => allDigits_toDigits n c (List.mem_of_mem_head? hc)
          have hminus : (Nat.toDigits 10 n).head? ≠ some '-' := fun h => by simpa using hhead _ h
          have hplus' : (Nat.toDigits 10 n).head? ≠ some '+' := fun h => by simpa using hhead _ h
          simp [spelledInt, hminus, hplus', Nat.ofDigitChars_ten_toDigits]
  | negSucc n =>
      have hsign : (plus && decide (0 ≤ Int.negSucc n)) = false := by
        rw [decide_eq_false (by omega), Bool.and_false]
      rw [toList_toString_negSucc, hsign]
      simp [spelledInt, Nat.ofDigitChars_ten_toDigits, Int.negSucc_eq]

/-! ## Layouts -/

namespace Decimal

theorem ofDigitChars_zeros_append (n : Nat) (digits : List Char) :
    Nat.ofDigitChars 10 (zeros n ++ digits) 0 = Nat.ofDigitChars 10 digits 0 := by
  rw [Nat.ofDigitChars_append, zeros, Nat.ofDigitChars_replicate_zero, Nat.mul_zero]

theorem ofDigitChars_append_zeros (digits : List Char) (n : Nat) :
    Nat.ofDigitChars 10 (digits ++ zeros n) 0 = 10 ^ n * Nat.ofDigitChars 10 digits 0 := by
  rw [Nat.ofDigitChars_append, zeros, Nat.ofDigitChars_replicate_zero]

/-- A text that has its digits around a point, or in front of zeros, spells the digits scaled by
the place of the point. -/
theorem spelledMantissa_positionalText (wholePoint : Bool) (h : AllDigits digits) (point : ℤ) :
    spelledMantissa (positionalText wholePoint digits point) =
      Nat.ofDigitChars 10 digits 0 * 10 ^ (point - digits.length) := by
  rw [positionalText]
  split
  · next hpoint =>
      have hlength : ((zeros (-point).toNat ++ digits).length : ℤ) = digits.length - point := by
        rw [List.length_append, zeros, List.length_replicate]
        omega
      have htext : '0' :: '.' :: zeros (-point).toNat ++ digits =
          zeros 1 ++ '.' :: (zeros (-point).toNat ++ digits) := rfl
      rw [htext, spelledMantissa_point (allDigits_zeros 1), hlength, ofDigitChars_zeros_append,
        ofDigitChars_zeros_append, neg_sub]
  · split
    · next hpoint hlength =>
        have hwhole := h.append (allDigits_zeros (point.toNat - digits.length))
        have hexponent : point - digits.length = ((point.toNat - digits.length : Nat) : ℤ) := by
          omega
        have hvalue : ((Nat.ofDigitChars 10 (digits ++ zeros (point.toNat - digits.length)) 0 :
            Nat) : ℚ) = Nat.ofDigitChars 10 digits 0 * 10 ^ (point - digits.length) := by
          rw [ofDigitChars_append_zeros, hexponent, zpow_natCast]
          push_cast
          ring
        cases wholePoint with
        | true =>
            have hzero : Nat.ofDigitChars 10
                (digits ++ zeros (point.toNat - digits.length) ++ ['0']) 0 =
                10 ^ 1 * Nat.ofDigitChars 10 (digits ++ zeros (point.toNat - digits.length)) 0 :=
              ofDigitChars_append_zeros _ 1
            rw [if_pos rfl, spelledMantissa_point hwhole, hzero, ← hvalue]
            push_cast
            rw [List.length_singleton, Nat.cast_one, zpow_neg_one]
            ring
        | false =>
            rw [if_neg (by simp), List.append_nil, spelledMantissa_whole hwhole, hvalue]
    · next hpoint hlength =>
        have hfront : AllDigits (digits.take point.toNat) :=
          fun c hc => h c (List.mem_of_mem_take hc)
        have hback : ((digits.drop point.toNat).length : ℤ) = digits.length - point := by
          rw [List.length_drop]
          omega
        rw [spelledMantissa_point hfront, List.take_append_drop, hback, neg_sub]

/-- Digits with a point behind the first of them spell a number between one and ten times their
first place. -/
theorem spelledMantissa_firstPoint (h : AllDigits digits) (hne : digits ≠ []) :
    spelledMantissa
        (digits.take 1 ++ if (digits.drop 1).isEmpty then [] else '.' :: digits.drop 1) =
      Nat.ofDigitChars 10 digits 0 * 10 ^ (1 - (digits.length : ℤ)) := by
  have hfront : AllDigits (digits.take 1) := fun c hc => h c (List.mem_of_mem_take hc)
  have hpos := List.length_pos_of_ne_nil hne
  split
  · next hnone =>
      have hlength : digits.length = 1 := by
        rw [List.isEmpty_iff, List.drop_eq_nil_iff] at hnone
        omega
      rw [List.append_nil, List.take_of_length_le (by omega), spelledMantissa_whole h, hlength]
      simp
  · have hback : ((digits.drop 1).length : ℤ) = digits.length - 1 := by
      rw [List.length_drop]
      omega
    rw [spelledMantissa_point hfront, List.take_append_drop, hback, neg_sub]

/-- Digits around a point are written with digits and a point. -/
theorem mem_positionalText {wholePoint : Bool} (h : AllDigits digits) {point : ℤ} {c : Char}
    (hc : c ∈ positionalText wholePoint digits point) : c.isDigit = true ∨ c = '.' := by
  rw [positionalText] at hc
  split at hc
  · rcases List.mem_append.1 hc with hc | hc
    · rcases List.mem_cons.1 hc with rfl | hc
      · exact .inl rfl
      · rcases List.mem_cons.1 hc with rfl | hc
        · exact .inr rfl
        · exact .inl (allDigits_zeros _ c hc)
    · exact .inl (h c hc)
  · split at hc
    · rcases List.mem_append.1 hc with hc | hc
      · exact .inl (h.append (allDigits_zeros _) c hc)
      · split at hc
        · rcases List.mem_cons.1 hc with rfl | hc
          · exact .inr rfl
          · rw [List.mem_singleton.1 hc]
            exact .inl rfl
        · simp at hc
    · rcases List.mem_append.1 hc with hc | hc
      · exact .inl (h c (List.mem_of_mem_take hc))
      · rcases List.mem_cons.1 hc with rfl | hc
        · exact .inr rfl
        · exact .inl (h c (List.mem_of_mem_drop hc))

/-- No character of a mantissa is mistaken for the mark of an exponent. -/
theorem ne_e_of_mem_positionalText {wholePoint : Bool} (h : AllDigits digits) {point : ℤ} {c : Char}
    (hc : c ∈ positionalText wholePoint digits point) : (c != 'e') = true := by
  have hdigit := mem_positionalText h hc
  rw [bne_iff_ne]
  rintro rfl
  simp at hdigit

/-- The text of a decimal in any layout spells its value. -/
theorem spelled_text (layout : Layout) (d : Decimal) : spelled (d.text layout) = d.value := by
  rw [text, value]
  split
  · next hzero =>
      have hspell : ∀ c ∈ '0' :: (if layout.wholePoint then ['.', '0'] else []),
          (c != 'e') = true := by
        split <;> simp
      rw [spelled_mantissa hspell, hzero]
      split <;> simp [spelledMantissa, Nat.ofDigitChars_cons]
  · have hdigits := allDigits_toDigits d.coefficient
    have hread : Nat.ofDigitChars 10 (Nat.toDigits 10 d.coefficient) 0 = d.coefficient :=
      Nat.ofDigitChars_ten_toDigits
    dsimp only
    split
    · rw [spelled_mantissa fun c hc => ne_e_of_mem_positionalText hdigits hc,
        spelledMantissa_positionalText _ hdigits, hread]
      congr 2
      omega
    · have hmantissa : ∀ c ∈ (Nat.toDigits 10 d.coefficient).take 1 ++
          (if ((Nat.toDigits 10 d.coefficient).drop 1).isEmpty then []
            else '.' :: (Nat.toDigits 10 d.coefficient).drop 1), (c != 'e') = true := by
        intro c hc
        rcases List.mem_append.1 hc with hc | hc
        · exact hdigits.ne_e (List.mem_of_mem_take hc)
        · split at hc
          · simp at hc
          · rcases List.mem_cons.1 hc with rfl | hc
            · rfl
            · exact hdigits.ne_e (List.mem_of_mem_drop hc)
      rw [exponentText, spelled_exponent hmantissa, spelledInt_toString,
        spelledMantissa_firstPoint hdigits Nat.toDigits_ne_nil, hread, mul_assoc,
        ← zpow_add₀ (by norm_num)]
      congr 2
      omega

/-! ## Characters -/

/-- The characters that texts of numbers are made of. -/
def IsNumberChar (c : Char) : Prop :=
  c.isDigit = true ∨ c = '.' ∨ c = 'e' ∨ c = '+' ∨ c = '-'

/-- An integer is written with digits and a sign. -/
theorem mem_toString {n : ℤ} {c : Char} (hc : c ∈ (toString n).toList) :
    c.isDigit = true ∨ c = '-' := by
  cases n with
  | ofNat n =>
      rw [toList_toString_ofNat] at hc
      exact .inl (allDigits_toDigits n c hc)
  | negSucc n =>
      rw [toList_toString_negSucc] at hc
      rcases List.mem_cons.1 hc with rfl | hc
      · exact .inr rfl
      · exact .inl (allDigits_toDigits _ c hc)

/-- A decimal is written with the characters of numbers. -/
theorem isNumberChar_of_mem_text {layout : Layout} {d : Decimal} {c : Char}
    (hc : c ∈ d.text layout) : IsNumberChar c := by
  have hdigits := allDigits_toDigits d.coefficient
  rw [text] at hc
  dsimp only at hc
  split at hc
  · rcases List.mem_cons.1 hc with rfl | hc
    · exact .inl rfl
    · split at hc
      · rcases List.mem_cons.1 hc with rfl | hc
        · exact .inr (.inl rfl)
        · rw [List.mem_singleton.1 hc]
          exact .inl rfl
      · simp at hc
  · split at hc
    · rcases mem_positionalText hdigits hc with hc | hc
      · exact .inl hc
      · exact .inr (.inl hc)
    · rw [exponentText] at hc
      rcases List.mem_append.1 hc with hc | hc
      · rcases List.mem_append.1 hc with hc | hc
        · exact .inl (hdigits c (List.mem_of_mem_take hc))
        · split at hc
          · simp at hc
          · rcases List.mem_cons.1 hc with rfl | hc
            · exact .inr (.inl rfl)
            · exact .inl (hdigits c (List.mem_of_mem_drop hc))
      · rcases List.mem_cons.1 hc with rfl | hc
        · exact .inr (.inr (.inl rfl))
        · rcases List.mem_append.1 hc with hc | hc
          · split at hc
            · rw [List.mem_singleton.1 hc]
              exact .inr (.inr (.inr (.inl rfl)))
            · simp at hc
          · rcases mem_toString hc with hc | hc
            · exact .inl hc
            · exact .inr (.inr (.inr (.inr hc)))

/-- The text of a decimal starts with a digit. -/
theorem exists_text_eq (layout : Layout) (d : Decimal) :
    ∃ c rest, d.text layout = c :: rest ∧ c.isDigit = true := by
  obtain ⟨c, rest, hcons⟩ := List.exists_cons_of_ne_nil (Nat.toDigits_ne_nil (n := d.coefficient))
  have hdigit : c.isDigit = true := by
    refine allDigits_toDigits d.coefficient c ?_
    rw [hcons]
    exact List.mem_cons_self
  rw [text]
  dsimp only
  split
  · exact ⟨'0', _, rfl, rfl⟩
  · rw [hcons]
    split
    · rw [positionalText]
      split
      · exact ⟨'0', _, rfl, rfl⟩
      · split
        · exact ⟨c, _, rfl, hdigit⟩
        · next hpoint hlength =>
            obtain ⟨n, hn⟩ : ∃ n, Int.toNat (((c :: rest).length : ℤ) + d.exponent) = n + 1 :=
              ⟨Int.toNat (((c :: rest).length : ℤ) + d.exponent) - 1, by omega⟩
            rw [hn]
            exact ⟨c, _, rfl, hdigit⟩
    · exact ⟨c, _, rfl, hdigit⟩

/-- A layout that writes whole numbers with a fraction always writes a point or an exponent. -/
theorem exists_mem_text {layout : Layout} (h : layout.wholePoint = true) (d : Decimal) :
    ∃ c ∈ d.text layout, c = '.' ∨ c = 'e' := by
  rw [text, h]
  dsimp only
  split
  · exact ⟨'.', by simp, .inl rfl⟩
  · split
    · refine ⟨'.', ?_, .inl rfl⟩
      rw [positionalText]
      split
      · simp
      · split <;> simp
    · refine ⟨'e', ?_, .inr rfl⟩
      simp [exponentText]

end Decimal

end Persistence
