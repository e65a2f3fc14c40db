import Mathlib
import Persistence.Sql.Quoted

/-!
# Reading quoted text

A string literal and a quoted name are written in one way: a text stands between two quotes,
character by character, and each character is written so that it ends nothing.  They are read in one
way, too: up to a quote that is not written twice.  What is said here of both kinds follows from how
single characters are written and read.

Main results:

- `ReadsBack.take?_inQuotes_iff`: a text between quotes is read as itself, with what stands behind it
  left over, exactly if no further quote stands behind it.
- `ReadsBack.unfinished`: where the front of such a text can be read, a quote follows.
- `stringLiteral_append_inj`: no string literal is the front of another one.
- `quoted_reads_back`: string literals and quoted names with any text behind them.
-/

namespace Persistence.Sql

/-! ## Readers -/

/-- A text between two quotes. -/
def inQuotes (quote : Char) (write : Char → List Char) (s : List Char) : List Char :=
  quote :: (s.flatMap write ++ [quote])

/-- What a reader takes behind an opening quote, and what stands behind the closing one. -/
def takeInQuotes? (quote : Char) (take? : List Char → Option (List Char × List Char)) :
    List Char → Option (List Char × List Char)
  | [] => none
  | c :: text => if c = quote then take? text else none

/-- A reader, which starts behind an opening quote, reads characters as they are written, up to a
quote that is not written twice. -/
structure ReadsBack (quote : Char) (write : Char → List Char)
    (take? : List Char → Option (List Char × List Char)) : Prop where
  nothing : take? [] = none
  char : ∀ c text, take? (write c ++ text) = (take? text).map fun (s, rest) => (c :: s, rest)
  closing : ∀ rest, rest.head? ≠ some quote → take? (quote :: rest) = some ([], rest)
  twice : ∀ text, take? (quote :: quote :: text) =
    (take? text).map fun (s, rest) => (quote :: s, rest)

namespace ReadsBack

variable {quote : Char} {write : Char → List Char}
  {take? : List Char → Option (List Char × List Char)} (h : ReadsBack quote write take?)

include h

/-- Characters that are written one after the other are read so. -/
theorem take?_flatMap (s text : List Char) :
    take? (s.flatMap write ++ text) = (take? text).map fun (t, rest) => (s ++ t, rest) := by
  induction s with
  | nil => simp
  | cons c s ih =>
      rw [List.flatMap_cons, List.append_assoc, h.char, ih, Option.map_map]
      rfl

/-- A text is read as itself up to its closing quote exactly if no further quote follows. -/
theorem take?_flatMap_iff (s rest : List Char) :
    take? (s.flatMap write ++ quote :: rest) = some (s, rest) ↔ rest.head? ≠ some quote := by
  rw [h.take?_flatMap]
  constructor
  · intro hread hquote
    obtain ⟨text, rfl⟩ := List.head?_eq_some_iff.1 hquote
    -- With a further quote the text that is read goes on.
    rw [h.twice, Option.map_map, Option.map_eq_some_iff] at hread
    obtain ⟨⟨t, behind⟩, -, heq⟩ := hread
    simp at heq
  · intro hrest
    simp [h.closing rest hrest]

/-- A text between quotes is read as itself exactly if no further quote stands behind it. -/
theorem take?_inQuotes_iff (s rest : List Char) :
    takeInQuotes? quote take? (inQuotes quote write s ++ rest) = some (s, rest) ↔
      rest.head? ≠ some quote := by
  have htext : inQuotes quote write s ++ rest = quote :: (s.flatMap write ++ quote :: rest) := by
    simp [inQuotes]
  rw [htext, takeInQuotes?, if_pos rfl]
  exact h.take?_flatMap_iff s rest

/-- Where no further quotes stand behind them, equal quoted texts have equal texts. -/
theorem inQuotes_append_inj {s s' rest rest' : List Char} (hrest : rest.head? ≠ some quote)
    (hrest' : rest'.head? ≠ some quote)
    (heq : inQuotes quote write s ++ rest = inQuotes quote write s' ++ rest') :
    s = s' ∧ rest = rest' := by
  have hread := (h.take?_inQuotes_iff s rest).2 hrest
  rw [heq, (h.take?_inQuotes_iff s' rest').2 hrest'] at hread
  simpa [eq_comm] using hread

section Fronts

variable {P : List Char → Prop} (hchar : ∀ c front back, write c = front ++ back → back ≠ [] →
  (take? front).isSome → ∀ text, P (back ++ text))

include hchar

/-- If something holds of what is left of a character behind each of its fronts that can be read, it
holds of what is left of a text and its closing quote. -/
theorem unfinished_flatMap {s front back : List Char}
    (heq : s.flatMap write ++ [quote] = front ++ back) (hback : back ≠ [])
    (hread : (take? front).isSome) : P back := by
  induction s generalizing front with
  | nil =>
      have hfront : front = [] := by
        have hlength := congrArg List.length heq
        have hpos := List.length_pos_iff.2 hback
        simp only [List.flatMap_nil, List.nil_append, List.length_cons, List.length_nil,
          List.length_append] at hlength
        exact List.eq_nil_of_length_eq_zero (by omega)
      rw [hfront, h.nothing] at hread
      cases hread
  | cons c s ih =>
      rw [List.flatMap_cons, List.append_assoc] at heq
      -- The front ends behind the first character or inside of it.
      rcases List.append_eq_append_iff.1 heq with ⟨more, rfl, hmore⟩ | ⟨more, hwrite, rfl⟩
      · rw [h.char, Option.isSome_map] at hread
        exact ih hmore hread
      · by_cases hnil : more = []
        · rw [hnil, List.append_nil] at hwrite
          rw [← hwrite, ← List.append_nil (write c), h.char, h.nothing] at hread
          cases hread
        · exact hchar c front more hwrite hnil hread _

/-- The same holds of what is left of a text between quotes. -/
theorem unfinished {s front back : List Char} (heq : inQuotes quote write s = front ++ back)
    (hback : back ≠ []) (hread : (takeInQuotes? quote take? front).isSome) : P back := by
  cases front with
  | nil => cases hread
  | cons d front =>
      rw [inQuotes, List.cons_append] at heq
      obtain ⟨rfl, htail⟩ := List.cons.inj heq
      rw [takeInQuotes?, if_pos rfl] at hread
      exact h.unfinished_flatMap hchar htail hback hread

end Fronts

end ReadsBack

/-! ## String literals -/

/-- The character that an escaped one stands for; most stand for themselves. -/
def escapedChar (c : Char) : Char :=
  if c = '0' then '\x00'
  else if c = 'b' then '\x08'
  else if c = 't' then '\t'
  else if c = 'n' then '\n'
  else if c = 'r' then '\x0d'
  else if c = 'Z' then '\x1a'
  else c

/-- The text of a string literal behind its opening quote, and what stands behind the closing one.
A backslash escapes the character behind it, and a quote that is written twice is one. -/
def takeText? : List Char → Option (List Char × List Char)
  | '\\' :: c :: text => (takeText? text).map fun (s, rest) => (escapedChar c :: s, rest)
  | '\'' :: '\'' :: text => (takeText? text).map fun (s, rest) => ('\'' :: s, rest)
  | '\'' :: rest => some ([], rest)
  | c :: text => (takeText? text).map fun (s, rest) => (c :: s, rest)
  | [] => none

/-- The string literal in front of a text, and what stands behind it. -/
def takeLiteral? : List Char → Option (List Char × List Char) := takeInQuotes? '\'' takeText?

example : takeLiteral? "'it''s \\'\\%\\n\\\\' or".toList = some ("it's '%\n\\".toList, " or".toList) := by
  decide

theorem toList_stringLiteral (s : String) :
    (stringLiteral s).toList = inQuotes '\'' escapeChar s.toList := by
  rw [stringLiteral, String.toList_ofList]
  rfl

theorem escapedChar_escapeLetter {c letter : Char} (h : escapeLetter? c = some letter) :
    escapedChar letter = c := by
  unfold escapeLetter? at h
  split_ifs at h <;> cases h <;> simp_all [escapedChar]

/-- A character without an escape is neither a quote nor a backslash. -/
theorem ne_of_escapeLetter {c : Char} (h : escapeLetter? c = none) : c ≠ '\\' ∧ c ≠ '\'' := by
  unfold escapeLetter? at h
  split_ifs at h
  exact ⟨by assumption, by assumption⟩

/-- String literals are read as they are written. -/
theorem readsBack_takeText : ReadsBack '\'' escapeChar takeText? where
  nothing := rfl
  char c text := by
    unfold escapeChar
    cases hletter : escapeLetter? c with
    | some letter =>
        rw [← escapedChar_escapeLetter hletter]
        rfl
    | none =>
        obtain ⟨hslash, hquote⟩ := ne_of_escapeLetter hletter
        rw [List.singleton_append, takeText?]
        · exact fun _ _ heq _ => hslash heq
        · exact fun _ heq _ => hquote heq
        · exact hquote
  closing rest hrest := by
    rw [takeText?]
    rintro text rfl
    exact hrest rfl
  twice _ := rfl

/-- No escape is finished before its last character. -/
theorem takeText?_eq_none {c : Char} {front back : List Char} (heq : escapeChar c = front ++ back)
    (hback : back ≠ []) : takeText? front = none := by
  unfold escapeChar at heq
  cases hletter : escapeLetter? c with
  | some letter =>
      rw [hletter] at heq
      cases front with
      | nil => rfl
      | cons d front =>
          obtain ⟨rfl, htail⟩ := List.cons.inj heq
          cases front with
          | nil => rfl
          | cons _ front => simp [hback] at htail
  | none =>
      rw [hletter] at heq
      cases front with
      | nil => rfl
      | cons d front => simp [hback] at heq

/-- No string literal can be read before its end. -/
theorem takeLiteral?_eq_none {s : String} {front back : List Char}
    (heq : (stringLiteral s).toList = front ++ back) (hback : back ≠ []) :
    takeLiteral? front = none := by
  rw [toList_stringLiteral] at heq
  rw [← Option.not_isSome_iff_eq_none]
  refine readsBack_takeText.unfinished (P := fun _ => False) ?_ heq hback
  intro c front more hwrite hmore hread
  rw [takeText?_eq_none hwrite hmore] at hread
  cases hread

/-- A string literal is read as its string exactly if no further quote stands behind it. -/
theorem takeLiteral?_stringLiteral_iff (s : String) (rest : List Char) :
    takeLiteral? ((stringLiteral s).toList ++ rest) = some (s.toList, rest) ↔
      rest.head? ≠ some '\'' := by
  rw [toList_stringLiteral]
  exact readsBack_takeText.take?_inQuotes_iff s.toList rest

/-- No string literal is the front of another one. -/
theorem eq_nil_of_stringLiteral_append {s s' : String} {rest : List Char}
    (h : (stringLiteral s).toList ++ rest = (stringLiteral s').toList) : rest = [] := by
  by_contra hrest
  have hread := (takeLiteral?_stringLiteral_iff s []).2 (by simp)
  rw [List.append_nil, takeLiteral?_eq_none h.symm hrest] at hread
  cases hread

theorem stringLiteral_injective : Function.Injective stringLiteral := by
  intro s s' h
  have hread := (takeLiteral?_stringLiteral_iff s []).2 (by simp)
  rw [h, (takeLiteral?_stringLiteral_iff s' []).2 (by simp)] at hread
  simpa [String.toList_inj, eq_comm] using hread

/-- A string literal ends where its string does. -/
theorem stringLiteral_append_inj {s s' rest rest' : String}
    (h : stringLiteral s ++ rest = stringLiteral s' ++ rest') : s = s' ∧ rest = rest' := by
  have hlist := congrArg String.toList h
  rw [String.toList_append, String.toList_append] at hlist
  have hsame : stringLiteral s = stringLiteral s' := by
    rw [← String.toList_inj]
    rcases List.append_eq_append_iff.1 hlist with ⟨more, hmore, -⟩ | ⟨more, hmore, -⟩
    · rw [hmore, eq_nil_of_stringLiteral_append hmore.symm, List.append_nil]
    · rw [hmore, eq_nil_of_stringLiteral_append hmore.symm, List.append_nil]
  rw [hsame] at h
  exact ⟨stringLiteral_injective hsame, (String.append_right_inj _).1 h⟩

/-! ## Quoted names -/

/-- The name behind an opening backtick, and what stands behind the closing one. -/
def takeQuoted? : List Char → Option (List Char × List Char)
  | '\x60' :: '\x60' :: text => (takeQuoted? text).map fun (s, rest) => ('\x60' :: s, rest)
  | '\x60' :: rest => some ([], rest)
  | c :: text => (takeQuoted? text).map fun (s, rest) => (c :: s, rest)
  | [] => none

/-- The quoted name in front of a text, and what stands behind it. -/
def takeIdentifier? : List Char → Option (List Char × List Char) := takeInQuotes? '\x60' takeQuoted?

theorem toList_identifier (name : String) :
    (identifier name).toList = inQuotes '\x60' identifierChar name.toList := by
  rw [identifier, String.toList_ofList]
  rfl

/-- Quoted names are read as they are written. -/
theorem readsBack_takeQuoted : ReadsBack '\x60' identifierChar takeQuoted? where
  nothing := rfl
  char c text := by
    unfold identifierChar
    by_cases hc : c = '\x60'
    · rw [if_pos hc, hc]
      rfl
    · rw [if_neg hc, List.singleton_append, takeQuoted?]
      · exact fun _ heq _ => hc heq
      · exact hc
  closing rest hrest := by
    rw [takeQuoted?]
    rintro text rfl
    exact hrest rfl
  twice _ := rfl

/-- What is left behind a front of a character that can be read is a backtick. -/
theorem head?_of_isSome_takeQuoted {c : Char} {front back : List Char}
    (heq : identifierChar c = front ++ back) (hback : back ≠ []) (hread : (takeQuoted? front).isSome)
    (text : List Char) : (back ++ text).head? = some '\x60' := by
  unfold identifierChar at heq
  by_cases hc : c = '\x60'
  · rw [if_pos hc] at heq
    cases front with
    | nil => cases hread
    | cons d front =>
        obtain ⟨rfl, htail⟩ := List.cons.inj heq
        cases front with
        | nil =>
            obtain rfl : ['\x60'] = back := htail
            rfl
        | cons _ front => simp [hback] at htail
  · rw [if_neg hc] at heq
    cases front with
    | nil => cases hread
    | cons d front => simp [hback] at heq

/-- Where the front of a quoted name can be read, a backtick follows. -/
theorem head?_of_isSome_takeIdentifier {name : String} {front back : List Char}
    (heq : (identifier name).toList = front ++ back) (hback : back ≠ [])
    (hread : (takeIdentifier? front).isSome) : back.head? = some '\x60' := by
  rw [toList_identifier] at heq
  exact readsBack_takeQuoted.unfinished (P := fun back => back.head? = some '\x60')
    (fun c front more => head?_of_isSome_takeQuoted) heq hback hread

/-- A quoted name is read as its name exactly if no further backtick stands behind it. -/
theorem takeIdentifier?_identifier_iff (name : String) (rest : List Char) :
    takeIdentifier? ((identifier name).toList ++ rest) = some (name.toList, rest) ↔
      rest.head? ≠ some '\x60' := by
  rw [toList_identifier]
  exact readsBack_takeQuoted.take?_inQuotes_iff name.toList rest

/-- A quoted name ends where its name does, if no further backtick stands behind it. -/
theorem identifier_append_inj {name name' rest rest' : String}
    (hrest : rest.toList.head? ≠ some '\x60') (hrest' : rest'.toList.head? ≠ some '\x60')
    (h : identifier name ++ rest = identifier name' ++ rest') : name = name' ∧ rest = rest' := by
  have hlist := congrArg String.toList h
  rw [String.toList_append, String.toList_append, toList_identifier, toList_identifier] at hlist
  obtain ⟨hname, htail⟩ := readsBack_takeQuoted.inQuotes_append_inj hrest hrest' hlist
  exact ⟨String.toList_inj.1 hname, String.toList_inj.1 htail⟩

/-! ## Both kinds -/

/-- String literals and quoted names are read back.  Of a string literal with any text behind it,
exactly its string is read and exactly the text behind it is left over, unless this starts with a
further quote; of a quoted name the same holds unless the text starts with a backtick.  Quoted texts
that are equal, with what stands behind them, have equal strings and equal texts behind them; for
names, if no backtick stands there.  So different strings have different literals, and no content
ends its own literal: no front of a string literal but the whole of it can be read, and where a
front of a quoted name can be read, a backtick goes on with the name. -/
theorem quoted_reads_back :
    (∀ (s : String) (rest : List Char),
      takeLiteral? ((stringLiteral s).toList ++ rest) = some (s.toList, rest) ↔
        rest.head? ≠ some '\'') ∧
    (∀ (name : String) (rest : List Char),
      takeIdentifier? ((identifier name).toList ++ rest) = some (name.toList, rest) ↔
        rest.head? ≠ some '\x60') ∧
    (∀ s s' rest rest' : String,
      stringLiteral s ++ rest = stringLiteral s' ++ rest' → s = s' ∧ rest = rest') ∧
    (∀ name name' rest rest' : String, rest.toList.head? ≠ some '\x60' →
      rest'.toList.head? ≠ some '\x60' →
      identifier name ++ rest = identifier name' ++ rest' → name = name' ∧ rest = rest') ∧
    (∀ (s : String) (front back : List Char),
      (stringLiteral s).toList = front ++ back → back ≠ [] → takeLiteral? front = none) ∧
    (∀ (name : String) (front back : List Char),
      (identifier name).toList = front ++ back → back ≠ [] → (takeIdentifier? front).isSome →
        back.head? = some '\x60') :=
  ⟨takeLiteral?_stringLiteral_iff, takeIdentifier?_identifier_iff,
    fun _ _ _ _ => stringLiteral_append_inj, fun _ _ _ _ => identifier_append_inj,
    fun _ _ _ => takeLiteral?_eq_none, fun _ _ _ => head?_of_isSome_takeIdentifier⟩

/-- A string that ends in a quote and a backslash, and a name of backticks only. -/
theorem quoted_reads_back_ends :
    takeLiteral? ((stringLiteral "it's '\\").toList ++ " or 1".toList) =
        some ("it's '\\".toList, " or 1".toList) ∧
      takeLiteral? "'it\\'s \\'".toList = none ∧
      takeIdentifier? ((identifier "\x60\x60").toList ++ ".a".toList) =
        some ("\x60\x60".toList, ".a".toList) ∧
      (takeIdentifier? "\x60\x60".toList).isSome ∧
      "\x60\x60\x60\x60".toList.head? = some '\x60' := by
  obtain ⟨hliteral, hname, -, -, hfront, hgoes⟩ := quoted_reads_back
  have hbacktick : (takeIdentifier? "\x60\x60".toList).isSome := by decide
  refine ⟨(hliteral _ _).2 (by decide), hfront "it's '\\" _ "\\\\'".toList (by decide) (by decide),
    (hname _ _).2 (by decide), hbacktick, ?_⟩
  exact hgoes "\x60\x60" _ _ (by decide) (by decide) hbacktick

end Persistence.Sql
