import Persistence.Proofs.Calendar.Written
import Persistence.Proofs.Number.Shortest
import Persistence.Proofs.Sql.Clauses
import Persistence.Sql.Literal

/-!
# The literals of values in statements

Whatever a value is, its literal has no part in the clauses of the statement that it stands in:
numbers are words, and everything else is in quotes.

Main results:

- `Value.calm_literal`: the literal of a value is calm.
-/

namespace Persistence

open Sql

/-! ## Quoted text -/

namespace Sql

/-- An escaped character can stand between quotes. -/
theorem enclosed_escapeChar (c : Char) : Enclosed (escapeChar c) := by
  unfold escapeChar
  cases hletter : escapeLetter? c with
  | some letter => exact .escaped .nil
  | none =>
      obtain ⟨hslash, hquote⟩ := ne_of_escapeLetter hletter
      exact .char hslash hquote .nil

/-- The literal of a string is calm, whatever the string is. -/
theorem calm_stringLiteral (s : String) : Calm (stringLiteral s) := by
  refine Calm.of_enclosed ?_
  induction s.toList with
  | nil => exact .nil
  | cons c text ih =>
      rw [List.flatMap_cons]
      exact (enclosed_escapeChar c).append ih

/-- Text that can be put between quotes as it is. -/
def Quotable (text : String) : Prop := ∀ c ∈ text.toList, c ≠ '\\' ∧ c ≠ '\''

theorem Quotable.append {front back : String} (h : Quotable front) (h' : Quotable back) :
    Quotable (front ++ back) := by
  rw [Quotable, String.toList_append]
  exact List.forall_mem_append.2 ⟨h, h'⟩

theorem Quotable.calm_quoted {text : String} (h : Quotable text) : Calm (Value.quoted text) := by
  have hquoted : Value.quoted text = String.ofList ('\'' :: (text.toList ++ ['\''])) := by
    apply String.toList_injective
    simp [Value.quoted]
  rw [hquoted]
  exact .of_enclosed (enclosed_of_forall h)

/-! ## Numbers -/

theorem ne_of_isDigit {c d : Char} (hc : c.isDigit = true) (hd : d.isDigit = false) : c ≠ d := by
  rintro rfl
  simp [hd] at hc

/-- Digits and points, with a digit in front of them and perhaps a sign, are a word. -/
theorem calm_number {c : Char} {rest : List Char} (hc : c.isDigit = true)
    (hrest : ∀ d ∈ rest, d.isDigit = true ∨ d = '.') :
    Calm (String.ofList (c :: rest)) ∧ Calm (String.ofList ('-' :: c :: rest)) := by
  have hopen : ∀ d ∈ c :: rest, isOpenChar d = true ∧ isWordChar d = true := by
    rw [List.forall_mem_cons]
    refine ⟨by simp [isOpenChar, isWordChar, isNameChar, hc], fun d hd => ?_⟩
    rcases hrest d hd with hd | rfl
    · simp [isOpenChar, isWordChar, isNameChar, hd]
    · decide
  have hbalanced : Balanced (c :: rest) (c :: rest) := .of_forall fun d hd => (hopen d hd).1
  have hword : ∀ d text, (d.isDigit = true ∨ d = '-') → Balanced (d :: text) (d :: text) →
      (∀ x ∈ d :: text, isWordChar x = true) → Calm (String.ofList (d :: text)) := by
    intro d text hd hbalanced hchars
    refine ⟨_, ⟨d :: text, by rwa [String.toList_ofList], rfl⟩, ?_⟩
    rw [words_word hchars, wordOf, if_neg (by simp), clauseWord?_number hd]
    simp [Word.isCalm]
  have hchars : ∀ d ∈ c :: rest, isWordChar d = true := fun d hd => (hopen d hd).2
  exact ⟨hword c rest (.inl hc) hbalanced hchars,
    hword '-' _ (.inr rfl) (.sign hc hbalanced) (List.forall_mem_cons.2 ⟨by decide, hchars⟩)⟩

/-- A number that is written in digits is a word. -/
theorem calm_digits (n : Nat) :
    Calm (String.ofList (Nat.toDigits 10 n)) ∧ Calm (String.ofList ('-' :: Nat.toDigits 10 n)) := by
  have hdigits := allDigits_toDigits n
  obtain ⟨c, rest, hcons⟩ := List.exists_cons_of_ne_nil (Nat.toDigits_ne_nil (n := n))
  rw [hcons] at hdigits ⊢
  obtain ⟨hc, hrest⟩ := List.forall_mem_cons.1 hdigits
  exact calm_number hc fun d hd => .inl (hrest d hd)

theorem calm_int (n : Int) : Calm (toString n) := by
  rw [← String.ofList_toList (s := toString n)]
  cases n with
  | ofNat n =>
      rw [toList_toString_ofNat]
      exact (calm_digits n).1
  | negSucc n =>
      rw [toList_toString_negSucc]
      exact (calm_digits (n + 1)).2

theorem calm_nat (n : Nat) : Calm (toString n) := calm_int n

/-- An integer starts with a character of numbers. -/
theorem exists_toString_eq (n : Int) :
    ∃ c rest, (toString n).toList = c :: rest ∧ Decimal.IsNumberChar c := by
  have hne : (toString n).toList ≠ [] := by
    cases n with
    | ofNat n =>
        rw [toList_toString_ofNat]
        exact Nat.toDigits_ne_nil
    | negSucc n =>
        rw [toList_toString_negSucc]
        simp
  obtain ⟨c, rest, hcons⟩ := List.exists_cons_of_ne_nil hne
  have hmem : c ∈ (toString n).toList := hcons ▸ List.mem_cons_self
  refine ⟨c, rest, hcons, ?_⟩
  rcases Decimal.mem_toString hmem with hc | hc
  · exact .inl hc
  · exact .inr (.inr (.inr (.inr hc)))

/-- A finite number starts with a character of numbers. -/
theorem exists_floatLiteral_eq {x : Binary64} (h : x.isFinite = true) :
    ∃ c rest, (Value.floatLiteral x).toList = c :: rest ∧ Decimal.IsNumberChar c := by
  have hne : (x.text Decimal.Layout.plain).toList ≠ [] := by
    obtain ⟨c, rest, hcons, -⟩ := Decimal.exists_text_eq Decimal.Layout.plain
      (Decimal.shortest Decimal.Layout.plain.tie x)
    rw [Binary64.toList_text h, hcons]
    simp
  obtain ⟨c, rest, hcons⟩ := List.exists_cons_of_ne_nil hne
  rw [Value.floatLiteral, if_pos h]
  exact ⟨c, rest, hcons, Binary64.isNumberChar_of_mem_text h (hcons ▸ List.mem_cons_self)⟩

/-- In plain layout a decimal is written without an exponent. -/
theorem mem_text_plain {d : Decimal} {c : Char} (hc : c ∈ d.text Decimal.Layout.plain) :
    c.isDigit = true ∨ c = '.' := by
  rw [Decimal.text] at hc
  dsimp only at hc
  split at hc
  · have hzero : c = '0' := by simpa [Decimal.Layout.plain] using hc
    rw [hzero]
    exact .inl rfl
  · split at hc
    · exact Decimal.mem_positionalText (allDigits_toDigits _) hc
    · next hexponent => exact absurd rfl hexponent

theorem calm_null : Calm "NULL" := ⟨_, .of_words rfl rfl, List.all_eq_true.1 rfl⟩

theorem calm_floatLiteral (x : Binary64) : Calm (Value.floatLiteral x) := by
  rw [Value.floatLiteral]
  split
  · next hfinite =>
    have hnumber : x.isNaN = false := by simp [Binary64.isNaN, hfinite]
    obtain ⟨c, rest, htext, hc⟩ := Decimal.exists_text_eq Decimal.Layout.plain
      (Decimal.shortest Decimal.Layout.plain.tie x)
    have hrest : ∀ d ∈ rest, d.isDigit = true ∨ d = '.' := fun d hd =>
      mem_text_plain (htext ▸ List.mem_cons_of_mem _ hd)
    obtain ⟨hplain, hsigned⟩ := calm_number hc hrest
    rw [Binary64.text, hnumber, hfinite]
    simp only [Bool.false_eq_true, if_false, if_true, htext]
    split
    · exact hsigned
    · exact hplain
  · exact calm_null

/-! ## Moments and points -/

/-- What dates and times are written with can stand between quotes. -/
theorem quotable_clocked {text : String} (h : Clocked text) : Quotable text := fun c hc => by
  rcases h c hc with hdigit | hmark
  · exact ⟨ne_of_isDigit hdigit (by decide), ne_of_isDigit hdigit (by decide)⟩
  · constructor <;> rintro rfl <;> simp at hmark

/-- What dates and times are written with has nothing to escape. -/
theorem stringLiteral_clocked {text : String} (h : Clocked text) :
    stringLiteral text = Value.quoted text := by
  have hplain : ∀ c, IsClockChar c → escapeChar c = [c] := by
    intro c hc
    have hletter : escapeLetter? c = none := by
      unfold escapeLetter?
      rcases hc with hdigit | hmark
      · split_ifs <;> simp_all
      · simp only [List.mem_cons, List.not_mem_nil, or_false] at hmark
        rcases hmark with rfl | rfl | rfl | rfl | rfl <;> rfl
    rw [escapeChar, hletter]
  apply String.toList_injective
  rw [stringLiteral, String.toList_ofList, List.flatMap_congr fun c hc => hplain c (h c hc),
    List.flatMap_singleton']
  simp [Value.quoted]

/-- A number has no quotes, finite or not. -/
theorem quotable_float (x : Binary64) : Quotable (x.text Decimal.Layout.plain) := by
  have hmagnitude : ∀ c ∈ (if x.isFinite then
      Decimal.text Decimal.Layout.plain (Decimal.shortest Decimal.Layout.plain.tie x)
      else ['i', 'n', 'f']), c ≠ '\\' ∧ c ≠ '\'' := by
    split
    · intro c hc
      rcases mem_text_plain hc with hdigit | rfl
      · exact ⟨ne_of_isDigit hdigit (by decide), ne_of_isDigit hdigit (by decide)⟩
      · decide
    · simp
  rw [Binary64.text]
  split
  · simp [Quotable]
  · dsimp only
    rw [Quotable, String.toList_ofList]
    split
    · exact List.forall_mem_cons.2 ⟨by decide, hmagnitude⟩
    · exact hmagnitude

theorem head?_point (p : Point) : p.literal.toList.head? = some 's' := by
  have happend : ∀ longitude latitude srid : String,
      ("st_geomfromtext('point(" ++ longitude ++ " " ++ latitude ++ ")', " ++ srid ++
        ")").toList.head? = some 's' := by simp
  exact happend _ _ _

/-- The well-known text of a point. -/
def wellKnownText (p : Point) : String :=
  "point(" ++ p.longitude.text Decimal.Layout.plain ++ " " ++
    p.latitude.text Decimal.Layout.plain ++ ")"

theorem quotable_wellKnownText (p : Point) : Quotable (wellKnownText p) := by
  have hwords : Quotable "point(" ∧ Quotable " " ∧ Quotable ")" := by simp [Quotable]
  obtain ⟨hopening, hblank, hclosing⟩ := hwords
  exact (((hopening.append (quotable_float p.longitude)).append hblank).append
    (quotable_float p.latitude)).append hclosing

/-- A point is made by a call with its well-known text and its reference system. -/
theorem literal_eq_call (p : Point) :
    p.literal = "st_geomfromtext" ++ "(" ++
      (Value.quoted (wellKnownText p) ++ ", " ++ toString p.srid) ++ ")" := by
  have happend : ∀ longitude latitude srid : String,
      "st_geomfromtext('point(" ++ longitude ++ " " ++ latitude ++ ")', " ++ srid ++ ")" =
        "st_geomfromtext" ++ "(" ++
          (Value.quoted ("point(" ++ longitude ++ " " ++ latitude ++ ")") ++ ", " ++ srid) ++
            ")" := by
    intro longitude latitude srid
    apply String.toList_injective
    simp [Value.quoted]
  exact happend _ _ _

/-- The expression that makes a point is calm. -/
theorem calm_point (p : Point) : Calm p.literal := by
  have hname : Calm "st_geomfromtext" := .of_name rfl
  have harguments := (quotable_wellKnownText p).calm_quoted.comma_blank (calm_nat p.srid)
  rw [literal_eq_call]
  exact hname.append_parens harguments.isBalanced

end Sql

/-! ## Values -/

namespace Value

mutual

/-- The literal of a value has no part in the clauses of a statement. -/
theorem calm_literal : ∀ v : Value, Calm v.literal
  | null => calm_null
  | bool b => by
      rw [literal, boolText]
      cases b with
      | true => exact ⟨_, .of_words rfl rfl, List.all_eq_true.1 rfl⟩
      | false => exact ⟨_, .of_words rfl rfl, List.all_eq_true.1 rfl⟩
  | int n => by
      rw [literal]
      exact calm_int n
  | uint n => by
      rw [literal]
      exact calm_nat n
  | float x => by
      rw [literal]
      exact calm_floatLiteral x
  | string s => by
      rw [literal]
      exact calm_stringLiteral s
  | datetime t => by
      rw [literal]
      exact (quotable_clocked t.clocked_sqlText).calm_quoted
  | date d => by
      rw [literal]
      exact (quotable_clocked d.clocked_text).calm_quoted
  | time t => by
      rw [literal]
      exact (quotable_clocked t.clocked_milliText).calm_quoted
  | json j => by
      rw [literal]
      exact calm_stringLiteral j.text
  | point p => by
      rw [literal]
      exact calm_point p
  | list items => by
      rw [literal]
      exact .intercalate (fun _ _ h h' => h.comma_blank h') (calm_itemLiterals items)

/-- So have the literals of the items of a list. -/
theorem calm_itemLiterals : ∀ items : List Value, ∀ text ∈ itemLiterals items, Calm text
  | [] => by simp [itemLiterals]
  | item :: rest => by
      have hrest := calm_itemLiterals rest
      have hitem := calm_literal item
      cases item with
      | list items =>
          rw [itemLiterals, List.forall_mem_cons]
          rw [literal] at hitem
          exact ⟨.parens hitem.isBalanced, hrest⟩
      | _ =>
          rw [itemLiterals, List.forall_mem_cons]
          · exact ⟨hitem, hrest⟩
          · simp

end

end Value

end Persistence
