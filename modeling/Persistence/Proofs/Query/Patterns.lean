import Persistence.Proofs.Query.Building
import Persistence.Proofs.Sql.Literal

/-!
# Patterns

A condition on a pattern wraps the bare text of its operand, and writes the result as a string
literal.  The bare text of a string is the string, and that of a number or a truth value is its
literal.  A moment or a document has quotes in its literal already, and these stay in the pattern:
such an operand is quoted twice.

Main results:

- `Sql.count_quote_stringLiteral`: the quotes of a string literal.
- `Value.rawText_eq`: the bare text of a value.
- `Query.like_wraps_iff`: the operands whose text is all that a pattern wraps.
-/

namespace Persistence

open Sql

/-! ## What literals say -/

namespace Sql

/-- A string literal has two quotes more than its string. -/
theorem count_quote_stringLiteral (s : String) :
    (stringLiteral s).toList.count '\'' = s.toList.count '\'' + 2 := by
  have hchar : ∀ c, (escapeChar c).count '\'' = [c].count '\'' := by
    intro c
    unfold escapeChar
    cases hletter : escapeLetter? c with
    | none => rfl
    | some letter =>
        unfold escapeLetter? at hletter
        split_ifs at hletter <;> cases hletter <;> simp_all
  have hbody : ∀ text : List Char, (text.flatMap escapeChar).count '\'' = text.count '\'' := by
    intro text
    induction text with
    | nil => rfl
    | cons c text ih =>
        rw [List.flatMap_cons, List.count_append, hchar, ih, ← List.count_append]
        rfl
  rw [stringLiteral, String.toList_ofList, List.count_append, List.count_cons_self, hbody]
  rfl

theorem head?_stringLiteral (s : String) : (stringLiteral s).toList.head? = some '\'' := by
  simp [stringLiteral]

/-- What a literal says: the string between its quotes as it is read, or the literal itself if it
has no quotes. -/
def contentOf (literal : String) : String :=
  if literal.toList.head? = some '\'' then
    match tokens? literal with
    | some [.literal (.text s)] => s
    | _ => literal
  else literal

theorem contentOf_stringLiteral (s : String) : contentOf (stringLiteral s) = s := by
  rw [contentOf, if_pos (head?_stringLiteral s), tokens?_stringLiteral]

/-- A literal without quotes says itself. -/
theorem contentOf_of_head? {literal : String} (h : literal.toList.head? ≠ some '\'') :
    contentOf literal = literal :=
  if_neg h

/-- A text that starts like a number has no quotes around it. -/
theorem contentOf_number {literal : String}
    (h : ∃ c rest, literal.toList = c :: rest ∧ Decimal.IsNumberChar c) :
    contentOf literal = literal := by
  refine contentOf_of_head? ?_
  obtain ⟨c, rest, htext, hc⟩ := h
  rw [htext]
  rintro heq
  obtain rfl := Option.some.inj heq
  simp [Decimal.IsNumberChar] at hc

end Sql

/-! ## Operands -/

namespace Value

/-- Whether a value is a single one that patterns are made of: no null, no point and no list. -/
def isAtom : Value → Bool
  | null => false
  | point _ => false
  | list _ => false
  | _ => true

/-- The text of a moment or a document, which stands between quotes in the literal. -/
def quotedText? : Value → Option String
  | datetime t => some t.sqlText
  | date d => some d.text
  | time t => some t.milliText
  | json j => some j.text
  | _ => none

/-- The text that a value denotes: a string itself, and any other value what is said by the literal
that a comparison has for it. -/
def denoted : Value → String
  | string s => s
  | v => contentOf v.literal

variable {v : Value}

theorem isNull_of_isAtom (h : v.isAtom = true) : v.isNull = false := by
  cases v with
  | null => cases h
  | _ => rfl

/-- A moment or a document is written as the string literal of its text. -/
theorem literal_of_quotedText? {text : String} (h : v.quotedText? = some text) :
    v.literal = stringLiteral text := by
  cases v with
  | datetime t =>
      obtain rfl := Option.some.inj h
      rw [literal, stringLiteral_clocked t.clocked_sqlText]
  | date d =>
      obtain rfl := Option.some.inj h
      rw [literal, stringLiteral_clocked d.clocked_text]
  | time t =>
      obtain rfl := Option.some.inj h
      rw [literal, stringLiteral_clocked t.clocked_milliText]
  | json j =>
      obtain rfl := Option.some.inj h
      rw [literal]
  | _ => cases h

/-- A moment or a document denotes its text. -/
theorem denoted_of_quotedText? {text : String} (h : v.quotedText? = some text) :
    v.denoted = text := by
  have hliteral : v.denoted = contentOf v.literal := by
    cases v with
    | string s => cases h
    | _ => rfl
  rw [hliteral, literal_of_quotedText? h, contentOf_stringLiteral]

/-- Any other single value denotes its bare text. -/
theorem denoted_of_quotedText?_eq_none (hatom : v.isAtom = true) (h : v.quotedText? = none) :
    v.denoted = v.rawText := by
  cases v with
  | bool b => cases b <;> rfl
  | int n => exact contentOf_number (exists_toString_eq n)
  | uint n => exact contentOf_number (exists_toString_eq n)
  | float x =>
      show contentOf (literal (float x)) = literal (float x)
      rw [literal]
      by_cases hfinite : x.isFinite = true
      · exact contentOf_number (exists_floatLiteral_eq hfinite)
      · exact contentOf_of_head? (by simp [floatLiteral, hfinite])
  | string s => rfl
  | null | point p | list items => cases hatom
  | datetime t | date d | time t | json j => cases h

/-- The bare text of a moment or a document still has the quotes of its literal. -/
theorem rawText_of_quotedText? {text : String} (h : v.quotedText? = some text) :
    v.rawText = stringLiteral text := by
  rw [← literal_of_quotedText? h]
  cases v with
  | string s => cases h
  | _ => rfl

end Value

/-! ## Patterns -/

/-- The sides on which a pattern is open add none of the other characters. -/
theorem Openness.count_pattern (openness : Openness) (text : String) {c : Char} (hc : c ≠ '%') :
    (openness.pattern text).toList.count c = text.toList.count c := by
  cases openness <;> simp [pattern, hc.symm]

namespace Query

/-- A condition on a pattern has one string literal.  The pattern that it is read as wraps the text
that the operand denotes, with no quotes or backslashes but those of the text, exactly if the
operand is no moment and no document; of these it wraps the literal. -/
theorem like_wraps_iff (q : Query) (m : Mapping) (negated : Bool) (openness : Openness)
    (field : String) {v : Value} (hatom : v.isAtom = true) :
    ∃ c literal pattern,
      (q.like negated openness field v).links = q.links ++ [.condition c, .connector .and] ∧
      c.text m = m.columnName field ++ " " ++ negation negated ++ "like binary " ++ literal ∧
      tokens? literal = some [.literal (.text pattern)] ∧
      (pattern = openness.pattern v.denoted ↔ v.quotedText? = none) ∧
      ((∀ mark ∈ ['\'', '\\'], pattern.toList.count mark = v.denoted.toList.count mark) ↔
        v.quotedText? = none) ∧
      (v.quotedText? ≠ none → pattern = openness.pattern v.literal) := by
  have hlinks : (q.like negated openness field v).links =
      q.links ++ [.condition (.like negated openness field v), .connector .and] := by
    simp [like, appendUnlessNull, Value.isNull_of_isAtom hatom, appendCondition, append]
  refine ⟨.like negated openness field v, stringLiteral (openness.pattern v.rawText),
    openness.pattern v.rawText, hlinks, rfl, tokens?_stringLiteral _, ?_⟩
  have hmarks : ∀ mark ∈ ['\'', '\\'],
      (openness.pattern v.rawText).toList.count mark = v.rawText.toList.count mark := by
    intro mark hmark
    refine openness.count_pattern _ ?_
    rintro rfl
    simp at hmark
  cases htext : v.quotedText? with
  | none =>
      rw [Value.denoted_of_quotedText?_eq_none hatom htext]
      exact ⟨iff_of_true rfl rfl, iff_of_true hmarks rfl, fun h => absurd rfl h⟩
  | some text =>
      have hraw := Value.rawText_of_quotedText? htext
      have hquotes : (openness.pattern v.rawText).toList.count '\'' =
          v.denoted.toList.count '\'' + 2 := by
        rw [hmarks _ (by simp), hraw, count_quote_stringLiteral,
          Value.denoted_of_quotedText? htext]
      refine ⟨iff_of_false (fun heq => ?_) (by simp), iff_of_false (fun hcount => ?_) (by simp),
        fun _ => ?_⟩
      · rw [heq, openness.count_pattern _ (by decide)] at hquotes
        omega
      · have hsame := hcount '\'' (by simp)
        omega
      · rw [hraw, Value.literal_of_quotedText? htext]

/-- A text with a quote and an open side of its own is looked for as it is. -/
theorem like_wraps_title :
    ∃ c literal pattern,
      (empty.like true .right "title" (.string "it's 5%")).links =
        [.condition c, .connector .and] ∧
      c.text Mapping.empty = "title not like binary " ++ literal ∧
      tokens? literal = some [.literal (.text pattern)] ∧ pattern = "it's 5%%" := by
  obtain ⟨c, literal, pattern, hlinks, htext, htokens, hiff, -⟩ :=
    empty.like_wraps_iff Mapping.empty true .right "title" (v := .string "it's 5%") rfl
  exact ⟨c, literal, pattern, hlinks, htext, htokens, hiff.2 rfl⟩

/-- A day of January. -/
def winterDay : Date := ⟨2024, 1, 2, by decide⟩

/-- A day is looked for with quotes around it, which no text that starts with the day has. -/
theorem like_quotes_day :
    (empty.eq "day" (.date winterDay)).whereText Mapping.empty = "day = '2024-01-02'" ∧
    (empty.like false .right "day" (.date winterDay)).whereText Mapping.empty =
      "day like binary '\\'2024-01-02\\'%'" ∧
    tokens? "'\\'2024-01-02\\'%'" = some [.literal (.text "'2024-01-02'%")] ∧
    (Value.date winterDay).denoted = "2024-01-02" ∧
    "'2024-01-02'%" ≠ Openness.right.pattern "2024-01-02" := by
  refine ⟨by cbv, by cbv, by decide +kernel, ?_, by decide⟩
  exact (Value.denoted_of_quotedText? rfl).trans (by decide +kernel)

end Query

end Persistence
