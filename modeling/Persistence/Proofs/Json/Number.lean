import Persistence.Proofs.Json.Text

/-!
# Reading the texts of numbers

The reader of numbers takes the whole text of a number and nothing of what closes or separates it.
An integer comes back as it was.  A floating-point number comes back as the number that the reader
computes from its shortest digits, which need not be the number itself: every step of that
computation rounds.

Main results:

- `Json.exists_takeNumber?`: what is read from the text of a number does not depend on what
  follows it.
- `Json.reread?_int`: an integer is read back.
-/

namespace Persistence.Json

/-! ## Runs of digits -/

/-- A text that a run of digits does not go on in. -/
def EndsDigits (rest : List Char) : Prop := ∀ c, rest.head? = some c → c.isDigit = false

/-- What may follow a value inside of a document, or nothing. -/
def Closes (rest : List Char) : Prop := ∀ c, rest.head? = some c → c = ',' ∨ c = ']' ∨ c = '}'

variable {digits rest : List Char}

theorem closes_nil : Closes [] := by
  intro c hc
  simp at hc

theorem closes_cons {c : Char} (hc : c = ',' ∨ c = ']' ∨ c = '}') (rest : List Char) :
    Closes (c :: rest) := by
  intro d hd
  obtain rfl : c = d := by simpa using hd
  exact hc

theorem Closes.endsDigits (hrest : Closes rest) : EndsDigits rest := by
  intro c hc
  rcases hrest c hc with rfl | rfl | rfl <;> rfl

theorem endsDigits_cons {c : Char} (hc : c.isDigit = false) (rest : List Char) :
    EndsDigits (c :: rest) := by
  intro d hd
  obtain rfl : c = d := by simpa using hd
  exact hc

theorem EndsDigits.takeWhile_append (hrest : EndsDigits rest) (hdigits : AllDigits digits) :
    (digits ++ rest).takeWhile Char.isDigit = digits := by
  rw [List.takeWhile_append_of_pos hdigits]
  cases rest with
  | nil => simp
  | cons c rest =>
      have hc := hrest c rfl
      rw [List.takeWhile_cons_of_neg (by simp [hc]), List.append_nil]

theorem EndsDigits.dropWhile_append (hrest : EndsDigits rest) (hdigits : AllDigits digits) :
    (digits ++ rest).dropWhile Char.isDigit = rest := by
  rw [List.dropWhile_append_of_pos hdigits]
  cases rest with
  | nil => simp
  | cons c rest =>
      have hc := hrest c rfl
      rw [List.dropWhile_cons_of_neg (by simp [hc])]

/-! ## Shapes -/

/-- The digits behind a point, with the point, or nothing. -/
inductive IsFraction : List Char → Prop
  | none : IsFraction []
  | point {digits : List Char} (hdigits : AllDigits digits) (hne : digits ≠ []) :
      IsFraction ('.' :: digits)

/-- An exponent with its mark and its sign, or nothing. -/
inductive IsExponent : List Char → Prop
  | none : IsExponent []
  | mark (n : Int) : IsExponent ('e' :: ((if 0 ≤ n then ['+'] else []) ++ (toString n).toList))

/-- The text of a decimal is a run of digits, a fraction and an exponent. -/
theorem exists_text_shape {layout : Decimal.Layout} (hplus : layout.exponentPlus = true)
    (d : Decimal) :
    ∃ whole fraction exponent, d.text layout = whole ++ (fraction ++ exponent) ∧
      AllDigits whole ∧ IsFraction fraction ∧ IsExponent exponent := by
  have hdigits := allDigits_toDigits d.coefficient
  have hzero : AllDigits ['0'] := allDigits_zeros 1
  have hpoint : ∀ b : Bool, IsFraction (if b then ['.', '0'] else []) := by
    intro b
    cases b with
    | true => exact .point hzero (by simp)
    | false => exact .none
  rw [Decimal.text]
  dsimp only
  split
  · refine ⟨['0'], _, [], ?_, hzero, hpoint layout.wholePoint, .none⟩
    rw [List.append_nil]
    rfl
  · have hne : Nat.toDigits 10 d.coefficient ≠ [] := Nat.toDigits_ne_nil
    generalize Nat.toDigits 10 d.coefficient = digits at hdigits hne
    generalize hplace : (digits.length : Int) + d.exponent = place
    split
    · rw [Decimal.positionalText]
      split
      · have hfraction := (allDigits_zeros (-place).toNat).append hdigits
        refine ⟨['0'], _, [], ?_, hzero, .point hfraction ?_, .none⟩
        · simp
        · simp [hne]
      · split
        · refine ⟨_, _, [], ?_, hdigits.append (allDigits_zeros (place.toNat - digits.length)),
            hpoint layout.wholePoint, .none⟩
          rw [List.append_nil]
        · refine ⟨digits.take place.toNat, '.' :: digits.drop place.toNat, [], ?_, ?_, .point ?_ ?_,
            .none⟩
          · rw [List.append_nil]
          · exact fun c hc => hdigits c (List.mem_of_mem_take hc)
          · exact fun c hc => hdigits c (List.mem_of_mem_drop hc)
          · intro hnil
            have hshort := List.drop_eq_nil_iff.1 hnil
            omega
    · rw [Decimal.exponentText, hplus]
      simp only [Bool.true_and, decide_eq_true_eq]
      refine ⟨digits.take 1, _, _, List.append_assoc _ _ _, ?_, ?_, .mark (place - 1)⟩
      · exact fun c hc => hdigits c (List.mem_of_mem_take hc)
      · split
        · exact .none
        · next hmore =>
            refine .point (fun c hc => hdigits c (List.mem_of_mem_drop hc)) ?_
            simpa [List.isEmpty_iff] using hmore

/-! ## Reading -/

/-- Digits that fit are all taken. -/
theorem takeSignificand_of_lt {significand : Nat}
    (h : digits.foldl (fun n c => n * 10 + digitValue c) significand < UInt64.size) :
    takeSignificand significand digits =
      (digits.foldl (fun n c => n * 10 + digitValue c) significand, []) := by
  induction digits generalizing significand with
  | nil => rfl
  | cons c digits ih =>
      have hle : ∀ (ds : List Char) (n : Nat),
          n ≤ ds.foldl (fun n c => n * 10 + digitValue c) n := by
        intro ds
        induction ds with
        | nil => exact fun n => le_refl n
        | cons d ds ihds => exact fun n => le_trans (by omega) (ihds (n * 10 + digitValue d))
      rw [List.foldl_cons] at h ⊢
      have hnext := lt_of_le_of_lt (hle digits (significand * 10 + digitValue c)) h
      rw [takeSignificand, if_pos hnext, ih h]

/-- An exponent is read whatever closes or separates its number. -/
theorem exists_takeExponent? {exponent : List Char} (h : IsExponent exponent) :
    ∃ e, ∀ rest, Closes rest → takeExponent? (exponent ++ rest) = some (e, rest) := by
  cases h with
  | none =>
      refine ⟨0, fun rest hrest => ?_⟩
      cases rest with
      | nil => rfl
      | cons c rest => rcases hrest c rfl with rfl | rfl | rfl <;> rfl
  | mark n =>
      have hrun : ∀ (m : Nat) (rest : List Char), Closes rest →
          (Nat.toDigits 10 m ++ rest).takeWhile Char.isDigit = Nat.toDigits 10 m ∧
            (Nat.toDigits 10 m ++ rest).dropWhile Char.isDigit = rest ∧
            Nat.toDigits 10 m ≠ [] := by
        intro m rest hrest
        have hdigits := allDigits_toDigits m
        exact ⟨hrest.endsDigits.takeWhile_append hdigits,
          hrest.endsDigits.dropWhile_append hdigits, Nat.toDigits_ne_nil⟩
      refine ⟨n, fun rest hrest => ?_⟩
      cases n with
      | negSucc n =>
          obtain ⟨htake, hdrop, hne⟩ := hrun (n + 1) rest hrest
          rw [toList_toString_negSucc, if_neg (by omega)]
          simp [takeExponent?, htake, hdrop, hne, digitsValue_toDigits, Int.negSucc_eq]
      | ofNat n =>
          obtain ⟨htake, hdrop, hne⟩ := hrun n rest hrest
          rw [toList_toString_ofNat, if_pos (show 0 ≤ Int.ofNat n from Int.natCast_nonneg n)]
          simp [takeExponent?, htake, hdrop, hne, digitsValue_toDigits]

/-- The number that is read for a significand with a sign and an exponent. -/
def readFloat? (negative : Bool) (significand : Nat) (exponent : Int) : Option Number :=
  (scaled? significand exponent).bind fun x => Number.ofFloat? (signed negative x)

theorem map_readFloat? (negative : Bool) (significand : Nat) (exponent : Int) (rest : List Char) :
    ((scaled? significand exponent).bind fun x =>
      (Number.ofFloat? (signed negative x)).bind fun n => some (n, rest)) =
      (readFloat? negative significand exponent).map fun n => (n, rest) := by
  simp [readFloat?, Option.map_eq_bind, Option.bind_assoc]

theorem takeFloat?_whole {text : List Char} (htext : text.head? ≠ some '.') {e : Int}
    (he : takeExponent? text = some (e, rest)) (negative : Bool) (significand surplus : Nat) :
    takeFloat? negative significand surplus text =
      (readFloat? negative significand (surplus - (0 : Nat) + e)).map fun n => (n, rest) := by
  rw [← map_readFloat?]
  simp only [takeFloat?]
  split
  · simp at htext
  · simp [he]

theorem takeFloat?_point {fraction : List Char} (hfraction : AllDigits fraction)
    (hne : fraction ≠ []) {text : List Char} (htext : EndsDigits text) {e : Int}
    (he : takeExponent? text = some (e, rest)) (negative : Bool) (significand surplus : Nat) :
    takeFloat? negative significand surplus ('.' :: (fraction ++ text)) =
      (readFloat? negative (takeSignificand significand fraction).1
        (surplus - (fraction.length - (takeSignificand significand fraction).2.length : Nat) +
          e)).map fun n => (n, rest) := by
  rw [← map_readFloat?]
  simp only [takeFloat?, htext.takeWhile_append hfraction, htext.dropWhile_append hfraction]
  simp [hne, he]

/-- Behind its sign and its whole digits, a number is read or refused whatever closes or separates
it. -/
theorem exists_takeFloat? (negative : Bool) (significand surplus : Nat)
    {fraction exponent : List Char} (hfraction : IsFraction fraction)
    (hexponent : IsExponent exponent) :
    ∃ n : Option Number, ∀ rest, Closes rest →
      takeFloat? negative significand surplus (fraction ++ (exponent ++ rest)) =
        n.map fun n => (n, rest) := by
  obtain ⟨e, he⟩ := exists_takeExponent? hexponent
  cases hfraction with
  | none =>
      refine ⟨_, fun rest hrest => takeFloat?_whole ?_ (he rest hrest) negative significand surplus⟩
      cases hexponent with
      | none =>
          intro hpoint
          rcases hrest _ hpoint with h | h | h <;> simp at h
      | mark n => simp
  | point hdigits hne =>
      have hends : ∀ rest, Closes rest → EndsDigits (exponent ++ rest) := by
        intro rest hrest
        cases hexponent with
        | none => exact hrest.endsDigits
        | mark n => exact endsDigits_cons rfl _
      exact ⟨_, fun rest hrest => takeFloat?_point hdigits hne (hends rest hrest) (he rest hrest)
        negative significand surplus⟩

/-- Behind its sign, a number is read or refused whatever closes or separates it. -/
theorem exists_takeMagnitude? (negative : Bool) {whole fraction exponent : List Char}
    (hwhole : AllDigits whole) (hfraction : IsFraction fraction)
    (hexponent : IsExponent exponent) :
    ∃ n : Option Number, ∀ rest, Closes rest →
      takeMagnitude? negative (whole ++ (fraction ++ (exponent ++ rest))) =
        n.map fun n => (n, rest) := by
  have hends : ∀ rest, Closes rest → EndsDigits (fraction ++ (exponent ++ rest)) := by
    intro rest hrest
    cases hfraction with
    | none =>
        cases hexponent with
        | none => exact hrest.endsDigits
        | mark n => exact endsDigits_cons rfl _
    | point _ _ => exact endsDigits_cons rfl _
  obtain ⟨n, hn⟩ := exists_takeFloat? negative (takeSignificand 0 whole).1
    (takeSignificand 0 whole).2.length hfraction hexponent
  by_cases hbad : (whole.isEmpty || (whole.head? = some '0' && whole.length ≠ 1)) = true
  · refine ⟨none, fun rest hrest => ?_⟩
    simp only [takeMagnitude?, (hends rest hrest).takeWhile_append hwhole]
    rw [if_pos hbad]
    rfl
  · by_cases hinteger : fraction = [] ∧ exponent = [] ∧ (takeSignificand 0 whole).2 = []
    · obtain ⟨rfl, rfl, hleft⟩ := hinteger
      refine ⟨integer? negative (takeSignificand 0 whole).1, fun rest hrest => ?_⟩
      simp only [takeMagnitude?, (hends rest hrest).takeWhile_append hwhole,
        (hends rest hrest).dropWhile_append hwhole]
      rw [if_neg hbad, if_pos]
      · rfl
      · cases rest with
        | nil => simp [hleft]
        | cons c rest => rcases hrest c rfl with rfl | rfl | rfl <;> simp [hleft]
    · refine ⟨n, fun rest hrest => ?_⟩
      simp only [takeMagnitude?, (hends rest hrest).takeWhile_append hwhole,
        (hends rest hrest).dropWhile_append hwhole]
      rw [if_neg hbad, if_neg, hn rest hrest]
      cases hfraction with
      | none =>
          cases hexponent with
          | none => simp_all
          | mark n => simp
      | point _ _ => simp

/-- A number without a sign is its magnitude. -/
theorem takeNumber?_of_isDigit {c : Char} (hc : c.isDigit = true) (text : List Char) :
    takeNumber? (c :: text) = takeMagnitude? false (c :: text) := by
  rw [takeNumber?.eq_def]
  split
  · next h =>
      obtain rfl : c = '-' := (List.cons.inj h).1
      simp at hc
  · rfl

/-- What is read from the text of a floating-point number does not depend on what follows it. -/
theorem exists_takeNumber? {x : Binary64} (hx : x.isFinite = true) :
    ∃ n : Option Number, ∀ rest, Closes rest →
      takeNumber? ((Number.float x hx).text ++ rest) = n.map fun n => (n, rest) := by
  obtain ⟨whole, fraction, exponent, htext, hwhole, hfraction, hexponent⟩ :=
    exists_text_shape (rfl : Decimal.Layout.json.exponentPlus = true)
      (Decimal.shortest Decimal.Layout.json.tie x)
  obtain ⟨n, hn⟩ := exists_takeMagnitude? x.negative hwhole hfraction hexponent
  refine ⟨n, fun rest hrest => ?_⟩
  obtain ⟨c, cs, hcons, hdigit⟩ := Decimal.exists_text_eq Decimal.Layout.json
    (Decimal.shortest Decimal.Layout.json.tie x)
  have hassoc : c :: (cs ++ rest) = whole ++ (fraction ++ (exponent ++ rest)) := by
    rw [← List.cons_append, ← hcons, htext, List.append_assoc, List.append_assoc]
  rw [Number.text, Binary64.toList_text hx, hcons, ← hn rest hrest, ← hassoc]
  cases x.negative with
  | true => rfl
  | false => exact takeNumber?_of_isDigit hdigit _

/-! ## Integers -/

/-- Only zero starts with a zero. -/
theorem head?_toDigits {n : Nat} (h : n ≠ 0) : (Nat.toDigits 10 n).head? ≠ some '0' := by
  induction n using Nat.strong_induction_on with
  | _ n ih =>
      by_cases hlt : n < 10
      · rw [Nat.toDigits_of_lt_base hlt]
        interval_cases n <;> simp_all
      · have hne : Nat.toDigits 10 (n / 10) ≠ [] := Nat.toDigits_ne_nil
        rw [Nat.toDigits_of_base_le (by decide) (by omega), List.head?_append_of_ne_nil _ hne]
        exact ih (n / 10) (by omega) (by omega)

/-- The digits of a natural of 64 bits are read as that natural. -/
theorem takeMagnitude?_toDigits (negative : Bool) {n : Nat} (hn : n < UInt64.size)
    (hrest : Closes rest) :
    takeMagnitude? negative (Nat.toDigits 10 n ++ rest) =
      (integer? negative n).map fun n => (n, rest) := by
  have hdigits := allDigits_toDigits n
  have hvalue := digitsValue_toDigits n
  have hne : Nat.toDigits 10 n ≠ [] := Nat.toDigits_ne_nil
  have hsignificand : takeSignificand 0 (Nat.toDigits 10 n) = (n, []) := by
    rw [digitsValue] at hvalue
    rw [takeSignificand_of_lt (by rwa [hvalue]), hvalue]
  have hstart : ¬((Nat.toDigits 10 n).head? = some '0' ∧ (Nat.toDigits 10 n).length ≠ 1) := by
    rintro ⟨hhead, hlength⟩
    by_cases hzero : n = 0
    · rw [hzero] at hlength
      exact hlength rfl
    · exact head?_toDigits hzero hhead
  simp only [takeMagnitude?, hrest.endsDigits.takeWhile_append hdigits,
    hrest.endsDigits.dropWhile_append hdigits, hsignificand]
  rw [if_neg (by simpa [hne] using hstart), if_pos]
  cases rest with
  | nil => rfl
  | cons c rest => rcases hrest c rfl with rfl | rfl | rfl <;> rfl

/-- A natural of 64 bits is the integer that it was. -/
theorem integer?_ofNat {n : Nat} (hn : minInt64 ≤ (n : Int) ∧ (n : Int) ≤ maxUInt64) :
    integer? false n = some (.int n hn) := by
  rw [integer?, if_pos (by rfl), Number.ofInt?, dif_pos hn]

/-- A negative integer of 64 bits is the integer that it was. -/
theorem integer?_negSucc {n : Nat} (hn : minInt64 ≤ Int.negSucc n ∧ Int.negSucc n ≤ maxUInt64) :
    integer? true (n + 1) = some (.int (Int.negSucc n) hn) := by
  have hneg : -((n + 1 : Nat) : Int) = Int.negSucc n := rfl
  have hsmall : ¬Int.negSucc n < minInt64 := not_lt.2 hn.1
  have hrange : ¬(decide (n + 1 = 0) || decide (-((n + 1 : Nat) : Int) < minInt64)) = true := by
    rw [hneg, decide_eq_false (Nat.succ_ne_zero n), decide_eq_false hsmall]
    exact Bool.false_ne_true
  rw [integer?, if_neg (show ¬(!true) = true from Bool.false_ne_true), if_neg hrange, hneg,
    Number.ofInt?, dif_pos hn]

/-- An integer is read back, whatever closes or separates it. -/
theorem takeNumber?_int {n : Int} (hn : minInt64 ≤ n ∧ n ≤ maxUInt64) (hrest : Closes rest) :
    takeNumber? ((Number.int n hn).text ++ rest) = some (.int n hn, rest) := by
  have hsize : UInt64.size = 18446744073709551616 := rfl
  cases n with
  | ofNat n =>
      have hn' : minInt64 ≤ (n : Int) ∧ (n : Int) ≤ maxUInt64 := hn
      have hmost : (n : Int) ≤ 18446744073709551615 := hn.2
      have hne : Nat.toDigits 10 n ≠ [] := Nat.toDigits_ne_nil
      obtain ⟨c, cs, hcons⟩ := List.exists_cons_of_ne_nil hne
      have hdigit : c.isDigit = true :=
        allDigits_toDigits n c (hcons ▸ List.mem_cons_self)
      have hread := takeMagnitude?_toDigits false (n := n) (by omega) hrest
      rw [hcons, integer?_ofNat hn'] at hread
      rw [Number.text, toList_toString_ofNat, hcons]
      exact (takeNumber?_of_isDigit hdigit _).trans hread
  | negSucc n =>
      have hleast : -9223372036854775808 ≤ Int.negSucc n := hn.1
      have hread := takeMagnitude?_toDigits true (n := n + 1) (by omega) hrest
      rw [integer?_negSucc hn] at hread
      rw [Number.text, toList_toString_negSucc]
      exact hread

/-! ## All numbers -/

/-- The number that the reader makes of the text of a number. -/
def Number.reread? (n : Number) : Option Number := (takeNumber? n.text).map Prod.fst

/-- An integer is read back. -/
theorem Number.reread?_int {n : Int} (hn : minInt64 ≤ n ∧ n ≤ maxUInt64) :
    (Number.int n hn).reread? = some (.int n hn) := by
  have hread := takeNumber?_int hn closes_nil
  rw [List.append_nil] at hread
  rw [reread?, hread]
  rfl

/-- The text of a number is read as a whole, whatever closes or separates it. -/
theorem takeNumber?_text (n : Number) (hrest : Closes rest) :
    takeNumber? (n.text ++ rest) = n.reread?.map fun n => (n, rest) := by
  cases n with
  | int n hn => rw [takeNumber?_int hn hrest, Number.reread?_int, Option.map_some]
  | float x hx =>
      obtain ⟨m, hm⟩ := exists_takeNumber? hx
      have hnil := hm [] closes_nil
      rw [List.append_nil] at hnil
      rw [hm rest hrest, Number.reread?, hnil]
      cases m <;> rfl

end Persistence.Json
