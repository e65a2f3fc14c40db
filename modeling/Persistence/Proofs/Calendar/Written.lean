import Persistence.Calendar.Reading
import Persistence.Calendar.Text
import Persistence.Proofs.Number.Spelling

/-!
# Moments as they are written

Dates and times are written with digits and a few marks.  A moment as SQL has it has no `T` and no
offset, so that neither of the grammars for moments in JSON reads it.

Main results:

- `DateTime.clocked_sqlText`: the characters that a moment is written with.
- `DateTime.read_sqlText`: a moment as SQL has it is read by no grammar for moments in JSON.
-/

namespace Persistence

/-! ## Writing -/

/-- A character that dates and times are written with. -/
def IsClockChar (c : Char) : Prop := c.isDigit = true ∨ c ∈ ['-', '+', ' ', ':', '.']

/-- A text that dates and times are written with. -/
def Clocked (text : String) : Prop := ∀ c ∈ text.toList, IsClockChar c

theorem Clocked.append {front back : String} (h : Clocked front) (h' : Clocked back) :
    Clocked (front ++ back) := by
  rw [Clocked, String.toList_append]
  exact List.forall_mem_append.2 ⟨h, h'⟩

theorem isDigit_of_mem_padded {width n : Nat} {c : Char} (hc : c ∈ (padded width n).toList) :
    c.isDigit = true := by
  rw [padded, String.toList_append, String.toList_ofList, List.mem_append] at hc
  rcases hc with hc | hc
  · rw [(List.mem_replicate.1 hc).2]
    rfl
  · rw [show (toString n).toList = Nat.toDigits 10 n from Nat.toList_repr] at hc
    exact allDigits_toDigits n c hc

theorem clocked_padded (width n : Nat) : Clocked (padded width n) := fun _ hc =>
  .inl (isDigit_of_mem_padded hc)

theorem clocked_marks : Clocked "-" ∧ Clocked "+" ∧ Clocked " " ∧ Clocked ":" ∧ Clocked "." := by
  simp [Clocked, IsClockChar]

theorem clocked_yearText (year : Int) : Clocked (yearText year) := by
  obtain ⟨hminus, hplus, -⟩ := clocked_marks
  rw [yearText]
  split
  · exact hminus.append (clocked_padded _ _)
  · split
    · exact hplus.append (clocked_padded _ _)
    · exact clocked_padded _ _

theorem Date.clocked_text (d : Date) : Clocked d.text := by
  obtain ⟨hdash, -⟩ := clocked_marks
  exact ((((clocked_yearText _).append hdash).append (clocked_padded _ _)).append hdash).append
    (clocked_padded _ _)

theorem TimeOfDay.clocked_clockText (t : TimeOfDay) : Clocked t.clockText := by
  obtain ⟨-, -, -, hcolon, -⟩ := clocked_marks
  exact ((((clocked_padded _ _).append hcolon).append (clocked_padded _ _)).append hcolon).append
    (clocked_padded _ _)

theorem TimeOfDay.clocked_milliText (t : TimeOfDay) : Clocked t.milliText := by
  obtain ⟨-, -, -, -, hpoint⟩ := clocked_marks
  exact (t.clocked_clockText.append hpoint).append (clocked_padded _ _)

/-- A moment as SQL has it is written with digits and marks. -/
theorem DateTime.clocked_sqlText (t : DateTime) : Clocked t.sqlText := by
  obtain ⟨-, -, hblank, -⟩ := clocked_marks
  exact ((t.date.clocked_text).append hblank).append t.time.clocked_milliText

theorem count_colon_padded (width n : Nat) : (padded width n).toList.count ':' = 0 :=
  List.count_eq_zero.2 fun hmem => absurd (isDigit_of_mem_padded hmem) (by decide)

theorem count_colon_yearText (year : Int) : (yearText year).toList.count ':' = 0 := by
  rw [yearText]
  split
  · simp [count_colon_padded]
  · split <;> simp [count_colon_padded]

/-- A moment as SQL has it has two colons. -/
theorem DateTime.count_colon_sqlText (t : DateTime) : t.sqlText.toList.count ':' = 2 := by
  simp [sqlText, Date.text, TimeOfDay.milliText, TimeOfDay.clockText, count_colon_padded,
    count_colon_yearText]

/-! ## Reading -/

namespace Calendar

open Persistence.Text (dropBlank)

variable {text rest : List Char}

theorem takeNumber?_suffix {least most n : Nat} (h : takeNumber? least most text = some (n, rest)) :
    rest <:+ text := by
  rw [takeNumber?] at h
  split at h
  · cases h
  · cases h
    exact List.drop_suffix _ _

theorem takeChar?_eq_some {c : Char} (h : takeChar? c text = some rest) : text = c :: rest := by
  cases text with
  | nil => cases h
  | cons d text =>
      rw [takeChar?] at h
      split at h
      · next heq =>
        cases h
        rw [heq]
      · cases h

theorem takeChar?_suffix {c : Char} (h : takeChar? c text = some rest) : rest <:+ text :=
  takeChar?_eq_some h ▸ List.suffix_cons _ _

theorem takeSeparator?_suffix (h : takeSeparator? text = some rest) : rest <:+ text := by
  cases text with
  | nil => cases h
  | cons c text =>
      rw [takeSeparator?] at h
      split at h
      · cases h
        exact List.suffix_cons _ _
      · cases h

theorem takeOptionalFraction?_suffix {n : Nat} (h : takeOptionalFraction? text = some (n, rest)) :
    rest <:+ text := by
  unfold takeOptionalFraction? at h
  split at h
  · next fraction =>
    rw [takeFraction?] at h
    split at h
    · cases h
    · cases h
      exact ((List.dropWhile_suffix _).trans (List.drop_suffix _ _)).trans (List.suffix_cons _ _)
  · cases h
    exact List.suffix_rfl

theorem takeYear?_suffix {n : Int} (h : takeYear? text = some (n, rest)) : rest <:+ text := by
  unfold takeYear? at h
  split at h
  all_goals
    obtain ⟨⟨m, rest'⟩, hnumber, heq⟩ := Option.map_eq_some_iff.1 h
    cases heq
  · exact (takeNumber?_suffix hnumber).trans (List.suffix_cons _ _)
  · exact (takeNumber?_suffix hnumber).trans (List.suffix_cons _ _)
  · exact takeNumber?_suffix hnumber

/-- An item of a pattern is read off the front. -/
theorem Item.take?_suffix {item : Item} {p p' : Parts} (h : item.take? p text = some (p', rest)) :
    rest <:+ text := by
  have hblank : dropBlank text <:+ text := List.dropWhile_suffix _
  cases item with
  | blank =>
      cases h
      exact hblank
  | year =>
      obtain ⟨⟨n, rest'⟩, hread, heq⟩ := Option.map_eq_some_iff.1 h
      cases heq
      exact (takeYear?_suffix hread).trans hblank
  | slot s =>
      obtain ⟨⟨n, rest'⟩, hread, heq⟩ := Option.map_eq_some_iff.1 h
      cases heq
      exact (takeNumber?_suffix hread).trans hblank
  | char c =>
      obtain ⟨rest', hread, heq⟩ := Option.map_eq_some_iff.1 h
      cases heq
      exact takeChar?_suffix hread
  | fraction =>
      obtain ⟨⟨n, rest'⟩, hread, heq⟩ := Option.map_eq_some_iff.1 h
      cases heq
      exact takeOptionalFraction?_suffix hread

/-- A text that is read by a pattern has the characters of the pattern. -/
theorem mem_of_takeParts? {items : List Item} {p p' : Parts} {c : Char} (hc : .char c ∈ items)
    (h : takeParts? items p text = some (p', rest)) : c ∈ text := by
  induction items generalizing p text with
  | nil => cases hc
  | cons item items ih =>
      rw [takeParts?] at h
      split at h
      · cases h
      · next p₁ text₁ hitem =>
        rcases List.mem_cons.1 hc with rfl | hc
        · obtain ⟨rest', hread, -⟩ := Option.map_eq_some_iff.1 hitem
          rw [takeChar?_eq_some hread]
          exact List.mem_cons_self
        · exact (Item.take?_suffix hitem).subset (ih hc h)

/-- An offset is a `Z` or has a colon. -/
theorem mem_of_takeOffset? {n : Int} (h : takeOffset? (takeChar? ':') text = some (n, rest)) :
    'Z' ∈ text ∨ 'z' ∈ text ∨ 0 < text.count ':' := by
  cases text with
  | nil => cases h
  | cons c text =>
      rw [takeOffset?] at h
      split at h
      · next hutc =>
        rw [Bool.or_eq_true, decide_eq_true_eq, decide_eq_true_eq] at hutc
        rcases hutc with rfl | rfl <;> simp
      · have hmem : ':' ∈ text := by
          -- the hours and the colon follow whatever the sign is
          repeat' split at h
          all_goals
            obtain ⟨negative, -, h⟩ := Option.bind_eq_some_iff.1 h
            obtain ⟨⟨hours, text₁⟩, hhours, h⟩ := Option.bind_eq_some_iff.1 h
            obtain ⟨text₂, hcolon, -⟩ := Option.bind_eq_some_iff.1 h
            exact (takeNumber?_suffix hhours).subset (takeChar?_eq_some hcolon ▸ List.mem_cons_self)
        exact .inr (.inr (List.count_pos_iff.2 (List.mem_cons_of_mem c hmem)))

/-- A text that is read as a moment with an offset has a `Z` or three colons. -/
theorem mem_of_readZoned? {t : DateTime} (h : readZoned? text = some t) :
    'Z' ∈ text ∨ 'z' ∈ text ∨ 3 ≤ text.count ':' := by
  rw [readZoned?] at h
  obtain ⟨⟨year, text₁⟩, hyear, h⟩ := Option.bind_eq_some_iff.1 h
  obtain ⟨text₂, hdash, h⟩ := Option.bind_eq_some_iff.1 h
  obtain ⟨⟨month, text₃⟩, hmonth, h⟩ := Option.bind_eq_some_iff.1 h
  obtain ⟨text₄, hdash', h⟩ := Option.bind_eq_some_iff.1 h
  obtain ⟨⟨day, text₅⟩, hday, h⟩ := Option.bind_eq_some_iff.1 h
  obtain ⟨text₆, hseparator, h⟩ := Option.bind_eq_some_iff.1 h
  obtain ⟨⟨hour, text₇⟩, hhour, h⟩ := Option.bind_eq_some_iff.1 h
  obtain ⟨text₈, hcolon, h⟩ := Option.bind_eq_some_iff.1 h
  obtain ⟨⟨minute, text₉⟩, hminute, h⟩ := Option.bind_eq_some_iff.1 h
  obtain ⟨text₁₀, hcolon', h⟩ := Option.bind_eq_some_iff.1 h
  obtain ⟨⟨second, text₁₁⟩, hsecond, h⟩ := Option.bind_eq_some_iff.1 h
  obtain ⟨⟨nano, text₁₂⟩, hfraction, h⟩ := Option.bind_eq_some_iff.1 h
  obtain ⟨⟨offset, text₁₃⟩, hoffset, -⟩ := Option.bind_eq_some_iff.1 h
  have hdate : text₅ <:+ text :=
    (takeNumber?_suffix hday).trans <| (takeChar?_suffix hdash').trans <|
      (takeNumber?_suffix hmonth).trans <| (takeChar?_suffix hdash).trans (takeNumber?_suffix hyear)
  have hhours : text₇ <:+ text :=
    (takeNumber?_suffix hhour).trans <| (takeSeparator?_suffix hseparator).trans hdate
  have hseconds : text₁₂ <:+ text₁₀ :=
    (takeOptionalFraction?_suffix hfraction).trans (takeNumber?_suffix hsecond)
  have hrest : text₁₂ <:+ text :=
    hseconds.trans <| (takeChar?_suffix hcolon').trans <| (takeNumber?_suffix hminute).trans <|
      (takeChar?_suffix hcolon).trans hhours
  rcases mem_of_takeOffset? hoffset with hmem | hmem | hpos
  · exact .inl (hrest.subset hmem)
  · exact .inr (.inl (hrest.subset hmem))
  · -- one colon in front of the minutes, one in front of the seconds, one in the offset
    have hcount : ∀ {front back : List Char}, back <:+ front → back.count ':' ≤ front.count ':' :=
      fun hsuffix => hsuffix.sublist.count_le _
    have hfront := hcount hhours
    have hmiddle := hcount (takeNumber?_suffix hminute)
    have hback := hcount hseconds
    rw [takeChar?_eq_some hcolon, List.count_cons_self] at hfront
    rw [takeChar?_eq_some hcolon', List.count_cons_self] at hmiddle
    omega

end Calendar

/-! ## What is written is not read -/

/-- A moment as SQL has it has neither the `T` nor the offset of a moment in JSON. -/
theorem DateTime.read_sqlText (t : DateTime) :
    readZoned? t.sqlText = none ∧ readIso? t.sqlText = none := by
  have hletter : ∀ {c : Char}, ¬IsClockChar c → c ∉ t.sqlText.toList := fun hc hmem =>
    hc (t.clocked_sqlText _ hmem)
  constructor
  · by_contra hread
    obtain ⟨t', hread⟩ := Option.ne_none_iff_exists'.1 hread
    rcases Calendar.mem_of_readZoned? hread with hmem | hmem | hcolons
    · exact hletter (by simp [IsClockChar]) hmem
    · exact hletter (by simp [IsClockChar]) hmem
    · rw [t.count_colon_sqlText] at hcolons
      omega
  · by_contra hread
    obtain ⟨t', hread⟩ := Option.ne_none_iff_exists'.1 hread
    obtain ⟨p, hparts, -⟩ := Option.bind_eq_some_iff.1 hread
    rw [Calendar.readParts?] at hparts
    split at hparts
    · next p' htake =>
      have hmem := Calendar.mem_of_takeParts? (c := 'T') (by simp [Calendar.isoPattern]) htake
      exact hletter (by simp [IsClockChar]) hmem
    · cases hparts

end Persistence
