import Persistence.Proofs.Query.Scoping
import Persistence.Proofs.Store.Expressions
import Persistence.Proofs.Store.Meaning

/-!
# The rows that a condition is true of

How a database reads the condition of a statement, and of which rows it takes it to be true.  `and`
binds tighter than `or`, and parentheses hold a condition of their own.  A test is about a column
with a bare name and about constants; other conditions are not read.  How a cell compares with a
constant expression is left open, as far as the database goes by the text of the expression.

The condition of a query is read as one that is true of the rows that the query selects, whatever
its operands are.

Main results:

- `Condition.writesPart`, `Condition.holds_test`: the text of a condition is read as a test of its
  column, which is true of the rows that the condition is true of.
- `writtenAlike_fragments`, `map_truthOf_filters`: so it is with the links of a chain.
- `exists_lexes_where`: parts in a row are read as one condition behind `where`.
-/

namespace Persistence

open Sql

namespace Sql

/-! ## Conditions in statements -/

/-- A test of a column, or a constant. -/
inductive RowTest
  | compare (op : Comparison) (column : String) (operand : List Lexeme)
  | between (negated : Bool) (column : String) (low high : List Lexeme)
  | like (negated : Bool) (column pattern : String)
  | isNull (negated : Bool) (column : String)
  | among (negated : Bool) (column : String) (items : List (List Lexeme))
  | includes (column document : String)
  | constant (truth : Bool)

/-- A condition of a statement. -/
inductive RowFilter
  /-- What is true of every row. -/
  | all
  | test (t : RowTest)
  | and (f g : RowFilter)
  | or (f g : RowFilter)

/-! ## Readers -/

/-- A comparison. -/
def comparison? : List Lexeme → Option (Comparison × List Lexeme)
  | .mark '<' :: .mark '>' :: rest => some (.ne, rest)
  | .mark '<' :: .mark '=' :: rest => some (.le, rest)
  | .mark '<' :: rest => some (.lt, rest)
  | .mark '>' :: .mark '=' :: rest => some (.ge, rest)
  | .mark '>' :: rest => some (.gt, rest)
  | .mark '=' :: rest => some (.eq, rest)
  | _ => none

/-- The items of a list, up to the closing parenthesis.  The number bounds them. -/
def listed? : Nat → List Lexeme → Option (List (List Lexeme) × List Lexeme)
  | 0, _ => none
  | n + 1, ls =>
      match takeConstant? endsItem ls with
      | some (item, .mark ',' :: rest) =>
          (listed? n rest).map fun more => (item :: more.1, more.2)
      | some (item, .mark ')' :: rest) => some ([item], rest)
      | _ => none

/-- A test that may be negated, behind its column and the `not`. -/
def negatableTest? (negated : Bool) (column : String) : List Lexeme → Option (RowTest × List Lexeme)
  | .word "between" :: rest =>
      match takeConstant? endsOperand rest with
      | some (low, .word "and" :: rest) =>
          (takeConstant? endsOperand rest).map fun high =>
            (.between negated column low high.1, high.2)
      | _ => none
  | .word "like" :: .word "binary" :: .text pattern :: rest =>
      some (.like negated column pattern, rest)
  | .word "in" :: .mark '(' :: rest =>
      (listed? rest.length rest).map fun items => (.among negated column items.1, items.2)
  | _ => none

/-- A test, behind its column. -/
def testOf? (column : String) (ls : List Lexeme) : Option (RowTest × List Lexeme) :=
  match comparison? ls with
  | some (op, rest) =>
      (takeConstant? endsOperand rest).map fun operand =>
        (.compare op column operand.1, operand.2)
  | none =>
      match ls with
      | .word "is" :: .word "null" :: rest => some (.isNull false column, rest)
      | .word "is" :: .word "not" :: .word "null" :: rest => some (.isNull true column, rest)
      | .word "not" :: rest => negatableTest? true column rest
      | rest => negatableTest? false column rest

/-- A test. -/
def test? : List Lexeme → Option (RowTest × List Lexeme)
  | .word "1" :: .mark '=' :: .word "1" :: rest => some (.constant true, rest)
  | .word "1" :: .mark '=' :: .word "0" :: rest => some (.constant false, rest)
  | .word "json_contains" :: .mark '(' :: .word column :: .mark ',' :: .text document ::
      .mark ')' :: rest =>
        if isBareName column then some (.includes column document, rest) else none
  | .word column :: rest => if isBareName column then testOf? column rest else none
  | _ => none

/-- A test, or a condition in parentheses, where `chain` reads the inside of these. -/
def factor? (chain : List Lexeme → Option (RowFilter × List Lexeme)) :
    List Lexeme → Option (RowFilter × List Lexeme)
  | .mark '(' :: rest =>
      match chain rest with
      | some (f, .mark ')' :: rest) => some (f, rest)
      | _ => none
  | ls => (test? ls).map fun read => (.test read.1, read.2)

/-- A condition; `join` says how its first part goes with what is in front of it.  The number bounds
the parts in a row and the parentheses inside of each other. -/
def chainOf? : Nat → (join : RowFilter → RowFilter) → List Lexeme → Option (RowFilter × List Lexeme)
  | 0, _, _ => none
  | n + 1, join, ls => do
      let (f, rest) ← factor? (chainOf? n id) ls
      match rest with
      | .word "and" :: rest => chainOf? n (.and (join f)) rest
      | .word "or" :: rest => do
          let (more, rest) ← chainOf? n id rest
          some (.or (join f) more, rest)
      | rest => some (join f, rest)

/-- The condition of a statement behind the table; without one it is about all rows. -/
def where? : List Lexeme → Option RowFilter
  | [] => some .all
  | .word "where" :: rest =>
      match chainOf? rest.length id rest with
      | some (f, []) => some f
      | _ => none
  | _ => none

end Sql

/-! ## Truth -/

/-- How a database compares cells with expressions and keeps what is written into them.  It goes by
the lexemes of an expression. -/
structure Reckoning where
  /-- How a cell compares with an expression, unless that is unknown. -/
  order : Json → List Lexeme → Option Ordering
  /-- Whether a cell matches a pattern, unless that is unknown. -/
  like : Json → String → Option Bool
  /-- Whether a cell includes the document with a text, unless that is unknown. -/
  includes : Json → String → Option Bool
  /-- What a cell holds after an expression was written into it. -/
  stored : List Lexeme → Json
  /-- Nothing is known of how a null compares. -/
  order_null : ∀ e, order .null e = none
  /-- Parentheses around an expression make no difference. -/
  order_parens : ∀ cell {e}, Matched e →
    order cell (.mark '(' :: (e ++ [.mark ')'])) = order cell e
  /-- Literals of values that are the same compare alike. -/
  order_same : ∀ cell {v w : Value}, v.same w = true → order cell v.lexemes = order cell w.lexemes
  /-- A cell that one was written into does not equal zero. -/
  order_flag : order (stored [.word "1"]) [.word "0"] ≠ some .eq

/-- What a database makes of the literals of values. -/
def Reckoning.collation (r : Reckoning) : Collation where
  order cell v := r.order cell v.lexemes
  like := r.like
  includes cell document := r.includes cell document.text
  stored v := r.stored v.lexemes
  order_null v := r.order_null v.lexemes
  order_same := r.order_same
  order_flag := r.order_flag

namespace Sql

/-- Whether a test is true of a row. -/
def RowTest.holds (r : Reckoning) (row : Row) : RowTest → Bool
  | compare op column operand => (r.order (row.cell column) operand).any op.accepts
  | between false column low high =>
      (r.order (row.cell column) low).any Comparison.ge.accepts &&
        (r.order (row.cell column) high).any Comparison.le.accepts
  | between true column low high =>
      (r.order (row.cell column) low).any Comparison.lt.accepts ||
        (r.order (row.cell column) high).any Comparison.gt.accepts
  | like negated column pattern => r.like (row.cell column) pattern == some (!negated)
  | isNull negated column => (row.cell column).isNull != negated
  | among false column items =>
      items.any fun item => (r.order (row.cell column) item).any Comparison.eq.accepts
  | among true column items =>
      items.all fun item => (r.order (row.cell column) item).any Comparison.ne.accepts
  | includes column document => r.includes (row.cell column) document == some true
  | constant truth => truth

/-- Whether a condition is true of a row. -/
def RowFilter.holds (r : Reckoning) (row : Row) : RowFilter → Bool
  | all => true
  | test t => t.holds r row
  | and f g => f.holds r row && g.holds r row
  | or f g => f.holds r row || g.holds r row

end Sql

/-! ## What conditions are read as -/

/-- A value has the lexemes of its members in a row. -/
theorem Value.lexemes_eq_intercalate (v : Value) :
    v.lexemes = [Lexeme.mark ','].intercalate (Value.itemLexemes v.members) := by
  rcases v.eq_list_or_constant? with ⟨items, rfl⟩ | ⟨k, hk⟩
  · rw [Value.lexemes]
    rfl
  · have hmembers : v.members = [v] := by
      cases v with
      | list items => cases hk
      | _ => rfl
    rw [hmembers, Value.itemLexemes_of_constant? hk, Value.lexemes_of_constant? hk,
      Value.itemLexemes, List.intercalate_singleton]

namespace Condition

variable {m : Mapping}

/-- The test that a condition is read as.  To be among no values is a constant. -/
def test (m : Mapping) : Condition → RowTest
  | compare op field value => .compare op (m.columnName field) value.lexemes
  | between negated field low high =>
      .between negated (m.columnName field) low.lexemes high.lexemes
  | like negated openness field value =>
      .like negated (m.columnName field) (openness.pattern value.rawText)
  | isNull negated field => .isNull negated (m.columnName field)
  | among negated field values =>
      if values.members = [] then .constant negated
      else .among negated (m.columnName field) (Value.itemLexemes values.members)
  | includes field document => .includes (m.columnName field) document.text

/-- In a list a value compares like on its own. -/
theorem map_order_itemLexemes (r : Reckoning) (cell : Json) (items : List Value) :
    (Value.itemLexemes items).map (r.order cell) = items.map (r.collation.order cell) := by
  induction items with
  | nil => rfl
  | cons v items ih =>
      rcases v.eq_list_or_constant? with ⟨inner, rfl⟩ | ⟨k, hk⟩
      · have hinner := Value.keptByLiterals_matched.lexemes (.list inner)
        rw [Value.lexemes] at hinner
        rw [Value.itemLexemes, List.map_cons, List.map_cons, ih, r.order_parens cell hinner]
        show _ = r.order cell (Value.lexemes (.list inner)) :: _
        rw [Value.lexemes]
      · rw [Value.itemLexemes_of_constant? hk, List.map_cons, List.map_cons, ih,
          ← Value.lexemes_of_constant? hk]
        rfl

theorem any_accepts_eq (o : Option Ordering) (x : Ordering) : o.any (· == x) = (o == some x) := by
  cases o <;> rfl

/-- The test that a condition is read as is true of the rows that the condition is true of. -/
theorem holds_test (r : Reckoning) (row : Row) (c : Condition) :
    (c.test m).holds r row = c.holds r.collation m row := by
  cases c with
  | compare op field value => rfl
  | between negated field low high =>
      cases negated with
      | false => rfl
      | true =>
          simp only [test, RowTest.holds, holds, if_true, ← any_accepts_eq]
          rfl
  | like negated openness field value => rfl
  | isNull negated field => rfl
  | among negated field values =>
      have hitems := map_order_itemLexemes r (row.cell (m.columnName field)) values.members
      by_cases hnone : values.members = []
      · cases negated <;> simp [test, RowTest.holds, holds, hnone]
      · rw [test, if_neg hnone]
        cases negated with
        | false =>
            have hany := congrArg (List.any · (Option.any Comparison.eq.accepts)) hitems
            simp only [List.any_map] at hany
            refine hany.trans ?_
            congr 1
            funext v
            exact any_accepts_eq _ .eq
        | true =>
            have hall := congrArg (List.all · (Option.any Comparison.ne.accepts)) hitems
            simp only [List.all_map] at hall
            exact hall
  | includes field document => rfl

end Condition

/-! ## Reading tests -/

namespace Sql

/-- Behind a part of a condition there is nothing, a connector or a parenthesis. -/
def EndsPart (rest : List Lexeme) : Prop := rest = [] ∨ endsOperand rest = true

theorem EndsPart.ne_mark {rest : List Lexeme} (h : EndsPart rest) {c : Char} (hc : c ≠ ')') :
    ∀ more, rest ≠ .mark c :: more := by
  rintro more rfl
  rcases h with h | h
  · cases h
  · simp [endsOperand, hc] at h

theorem isWord_of_isBareName {s : String} (h : isBareName s = true) : isWord s = true := by
  obtain ⟨hwords, hchars⟩ := words_name h
  rw [isWord, Bool.and_eq_true, bne_iff_ne, List.all_eq_true]
  constructor
  · rintro rfl
    simp [words, wordsFrom, wordOf] at hwords
  · intro c hc
    simp [isPartChar, hchars c hc]

/-- A bare name is not a number. -/
theorem ne_one_of_isBareName {s : String} (h : isBareName s = true) : s ≠ "1" := by
  rintro rfl
  exact absurd h (by decide)

/-- What stands behind a bare name is read as a test of that column, if it is no call. -/
theorem test?_column {column : String} (h : isBareName column = true) {ls : List Lexeme}
    (hls : ∀ more, ls ≠ .mark '(' :: more) : test? (.word column :: ls) = testOf? column ls := by
  unfold test?
  split
  · next heq => exact absurd (Lexeme.word.inj (List.cons.inj heq).1) (ne_one_of_isBareName h)
  · next heq => exact absurd (Lexeme.word.inj (List.cons.inj heq).1) (ne_one_of_isBareName h)
  · next heq => exact absurd (List.cons.inj heq).2 (hls _)
  · next heq =>
      cases heq
      exact if_pos h
  · next hnone => exact absurd rfl (hnone _ _)

/-- A comparison in front of a literal. -/
theorem comparison?_lexemes (op : Comparison) (v : Value) {rest : List Lexeme}
    (hrest : EndsPart rest) :
    comparison? (gapLexemes op.text.toList ++ (v.lexemes ++ rest)) =
      some (op, v.lexemes ++ rest) := by
  have hgreater := v.lexemes_append_ne_mark (c := '>') (by decide) (hrest.ne_mark (by decide))
  have hequals := v.lexemes_append_ne_mark (c := '=') (by decide) (hrest.ne_mark (by decide))
  generalize v.lexemes ++ rest = ls at hgreater hequals
  cases op with
  | lt =>
      show comparison? (.mark '<' :: ls) = _
      unfold comparison?
      split <;> simp_all
  | gt =>
      show comparison? (.mark '>' :: ls) = _
      unfold comparison?
      split <;> simp_all
  | _ => rfl

/-- Some items of a list are read up to the parenthesis behind them. -/
theorem listed?_intercalate {items : List Value} {chunks : List (List Lexeme)}
    (hchunks : chunks ⊆ Value.itemLexemes items) (hne : chunks ≠ []) (rest : List Lexeme) {n : Nat}
    (hn : chunks.length ≤ n) :
    listed? n ([Lexeme.mark ','].intercalate chunks ++ .mark ')' :: rest) =
      some (chunks, rest) := by
  induction chunks generalizing n with
  | nil => exact absurd rfl hne
  | cons chunk chunks ih =>
      obtain ⟨hchunk, hmore⟩ := List.cons_subset.1 hchunks
      cases n with
      | zero => simp at hn
      | succ n =>
          cases chunks with
          | nil =>
              rw [List.intercalate_singleton, listed?, Value.takeConstant?_item hchunk rfl]
              rfl
          | cons next chunks =>
              rw [List.intercalate_cons_cons, List.append_assoc, List.append_assoc, listed?]
              rw [Value.takeConstant?_item hchunk rfl]
              have hnext := ih hmore (by simp) (Nat.le_of_succ_le_succ hn)
              simp only [List.cons_append, List.nil_append, hnext]
              rfl

theorem length_le_intercalate (chunks : List (List Lexeme)) :
    chunks.length ≤ ([Lexeme.mark ','].intercalate chunks).length + 1 := by
  induction chunks with
  | nil => simp
  | cons chunk chunks ih =>
      cases chunks with
      | nil => simp
      | cons next chunks =>
          rw [List.intercalate_cons_cons]
          simp only [List.length_append, List.length_cons, List.length_nil] at ih ⊢
          omega

/-- A text is read as a part of a condition up to its end, whatever ends the part there. -/
def WritesPart (text : String) (f : RowFilter) : Prop :=
  ∃ ls, Lexes text ls ∧ ls ≠ [] ∧
    ∀ n, ls.length ≤ n + 1 → ∀ rest, EndsPart rest →
      factor? (chainOf? n id) (ls ++ rest) = some (f, rest)

/-- The text of a test. -/
theorem WritesPart.of_test {text word : String} {ls : List Lexeme} {t : RowTest}
    (hlexes : Lexes text (.word word :: ls))
    (hread : ∀ rest, EndsPart rest → test? (.word word :: (ls ++ rest)) = some (t, rest)) :
    WritesPart text (.test t) := by
  refine ⟨_, hlexes, by simp, fun n _ rest hrest => ?_⟩
  show (test? (.word word :: (ls ++ rest))).map _ = _
  rw [hread rest hrest]
  rfl

end Sql

namespace Condition

variable {m : Mapping} {field : String}

theorem writesPart_compare (h : isBareName (m.columnName field) = true) (op : Comparison)
    (v : Value) :
    WritesPart ((compare op field v).text m) (.test ((compare op field v).test m)) := by
  have hgap : isGap (" " ++ op.text ++ " ") = true := by cases op <;> rfl
  have hmarks : gapLexemes (" " ++ op.text ++ " ").toList = gapLexemes op.text.toList := by
    cases op <;> rfl
  have hlexes := Lexes.across _ hgap (.word _ (isWord_of_isBareName h)) v.lexes
  rw [hmarks, List.singleton_append] at hlexes
  refine .of_test (hlexes.of_eq ?_ rfl) fun rest hrest => ?_
  · simp only [text, String.append_assoc]
  · have hcomparison := comparison?_lexemes op v hrest
    rw [List.append_assoc, test?_column h]
    · unfold testOf?
      simp only [hcomparison, v.takeConstant?_operand hrest]
      rfl
    · cases op <;> simp [gapLexemes, Comparison.text, isMark]

/-- The lexemes of `not`, if it is there. -/
def notLexemes (negated : Bool) : List Lexeme := if negated then [.word "not"] else []

/-- A word behind a `not` that may be left out. -/
theorem lexes_negation (negated : Bool) {words : String} {ls : List Lexeme} (h : Lexes words ls) :
    Lexes (negation negated ++ words) (notLexemes negated ++ ls) := by
  cases negated with
  | false => exact h.of_eq (String.empty_append) rfl
  | true => exact (Lexes.blank (.word "not" rfl) h).of_eq rfl rfl

/-- The `and` between the bounds belongs to the condition and joins nothing. -/
theorem writesPart_between (h : isBareName (m.columnName field) = true) (negated : Bool)
    (low high : Value) :
    WritesPart ((between negated field low high).text m)
      (.test ((between negated field low high).test m)) := by
  have hbetween := lexes_negation negated (.word "between" rfl)
  have hlexes := Lexes.blank (.word _ (isWord_of_isBareName h))
    (Lexes.blank hbetween (Lexes.blank low.lexes (Lexes.blank (.word "and" rfl) high.lexes)))
  rw [List.singleton_append] at hlexes
  refine .of_test (hlexes.of_eq ?_ rfl) fun rest hrest => ?_
  · have hword : "between " = "between" ++ " " := rfl
    have hand : " and " = " " ++ "and" ++ " " := rfl
    simp only [text, hword, hand, String.append_assoc]
  · have hand : endsOperand (.word "and" :: (high.lexemes ++ rest)) = true := rfl
    have hlow := low.takeConstant?_operand (.inr hand)
    have hhigh := high.takeConstant?_operand hrest
    have hread : negatableTest? negated (m.columnName field)
        (.word "between" :: (low.lexemes ++ .word "and" :: (high.lexemes ++ rest))) =
          some (.between negated (m.columnName field) low.lexemes high.lexemes, rest) := by
      simp only [negatableTest?, hlow, hhigh, Option.map_some]
    have htest : testOf? (m.columnName field) (notLexemes negated ++
        .word "between" :: (low.lexemes ++ .word "and" :: (high.lexemes ++ rest))) =
          some (.between negated (m.columnName field) low.lexemes high.lexemes, rest) := by
      cases negated <;> exact hread
    simp only [List.append_assoc, List.cons_append, List.nil_append]
    rw [test?_column h, htest]
    · rfl
    · cases negated <;> simp [notLexemes]

theorem writesPart_like (h : isBareName (m.columnName field) = true) (negated : Bool)
    (openness : Openness) (v : Value) :
    WritesPart ((like negated openness field v).text m)
      (.test ((like negated openness field v).test m)) := by
  have hlike := lexes_negation negated (Lexes.blank (.word "like" rfl) (.word "binary" rfl))
  have hlexes := Lexes.blank (.word _ (isWord_of_isBareName h))
    (Lexes.blank hlike (.stringLiteral (openness.pattern v.rawText)))
  rw [List.singleton_append] at hlexes
  refine .of_test (hlexes.of_eq ?_ rfl) fun rest hrest => ?_
  · have hword : "like binary " = "like" ++ " " ++ "binary" ++ " " := rfl
    simp only [text, hword, String.append_assoc]
  · simp only [List.append_assoc, List.singleton_append]
    rw [test?_column h]
    · cases negated <;> rfl
    · cases negated <;> simp [notLexemes]

theorem writesPart_isNull (h : isBareName (m.columnName field) = true) (negated : Bool) :
    WritesPart ((isNull negated field).text m) (.test ((isNull negated field).test m)) := by
  have hlexes := Lexes.blank (.word _ (isWord_of_isBareName h))
    (Lexes.blank (.word "is" rfl) (lexes_negation negated (.word "null" rfl)))
  rw [List.singleton_append] at hlexes
  refine .of_test (hlexes.of_eq ?_ rfl) fun rest hrest => ?_
  · have hword : " is " = " " ++ "is" ++ " " := rfl
    simp only [text, hword, String.append_assoc]
  · rw [List.singleton_append]
    rw [test?_column h]
    · cases negated <;> rfl
    · simp

theorem writesPart_among (h : isBareName (m.columnName field) = true) (negated : Bool)
    (values : Value) :
    WritesPart ((among negated field values).text m)
      (.test ((among negated field values).test m)) := by
  by_cases hnone : values.members = []
  · have hlist : values = .list [] := by
      cases values <;> simp_all [Value.members]
    have hlexes : ∀ truth : Bool, Lexes (if truth then "1 = 1" else "1 = 0")
        [.word "1", .mark '=', .word (if truth then "1" else "0")] := by
      intro truth
      cases truth with
      | false => exact Lexes.across " = " rfl (.word "1" rfl) (.word "0" rfl)
      | true => exact Lexes.across " = " rfl (.word "1" rfl) (.word "1" rfl)
    rw [hlist]
    refine .of_test ((hlexes negated).of_eq rfl rfl) fun rest _ => ?_
    cases negated <;> rfl
  · have hin := lexes_negation negated (.word "in" rfl)
    have hlexes := Lexes.blank (.word _ (isWord_of_isBareName h))
      (Lexes.across " (" rfl hin (Lexes.across ")" rfl values.lexes .empty))
    rw [List.singleton_append, values.lexemes_eq_intercalate] at hlexes
    have hchunks : Value.itemLexemes values.members ≠ [] := by
      rw [← List.length_pos_iff, Value.length_itemLexemes]
      exact List.length_pos_iff.2 hnone
    refine .of_test (hlexes.of_eq ?_ rfl) fun rest _ => ?_
    · have hword : " (" = " " ++ "(" := rfl
      rw [text_among hnone]
      simp only [hword, String.append_assoc, String.append_empty]
    · have hlength := length_le_intercalate (Value.itemLexemes values.members)
      have hread : negatableTest? negated (m.columnName field) (.word "in" :: .mark '(' ::
          ([Lexeme.mark ','].intercalate (Value.itemLexemes values.members) ++
            .mark ')' :: rest)) = some ((among negated field values).test m, rest) := by
        rw [negatableTest?, listed?_intercalate (List.Subset.refl _) hchunks, test, if_neg hnone]
        · rfl
        · simp only [List.length_append, List.length_cons]
          omega
      have hgap : gapLexemes " (".toList = [.mark '('] ∧ gapLexemes ")".toList = [.mark ')'] :=
        ⟨rfl, rfl⟩
      simp only [hgap, List.append_assoc, List.cons_append, List.nil_append]
      rw [test?_column h]
      · cases negated <;> exact hread
      · cases negated <;> simp [notLexemes]

theorem writesPart_includes (h : isBareName (m.columnName field) = true) (document : Json) :
    WritesPart ((includes field document).text m) (.test ((includes field document).test m)) := by
  have hcall := Lexes.across "(" rfl (.word "json_contains" rfl)
    (Lexes.across ", " rfl (.word _ (isWord_of_isBareName h))
      (Lexes.across ")" rfl (.stringLiteral document.text) .empty))
  rw [List.singleton_append] at hcall
  refine .of_test (hcall.of_eq ?_ rfl) fun rest hrest => if_pos h
  have hword : "json_contains(" = "json_contains" ++ "(" := rfl
  simp only [text, hword, String.append_assoc, String.append_empty]

/-- The text of a condition is read as a test of its column. -/
theorem writesPart {c : Condition} (h : isBareName (m.columnName c.field) = true) :
    WritesPart (c.text m) (.test (c.test m)) := by
  cases c with
  | compare op field value => exact writesPart_compare h op value
  | between negated field low high => exact writesPart_between h negated low high
  | like negated openness field value => exact writesPart_like h negated openness value
  | isNull negated field => exact writesPart_isNull h negated
  | among negated field values => exact writesPart_among h negated values
  | includes field document => exact writesPart_includes h document

end Condition

/-! ## Chains -/

/-- The condition that parts in a row make, each behind its connector, where `current` is what
those joined by `and` so far make. -/
def gatherFilters (current : RowFilter) : List (Connector × RowFilter) → RowFilter
  | [] => current
  | (.and, f) :: rest => gatherFilters (.and current f) rest
  | (.or, f) :: rest => .or current (gatherFilters f rest)

/-- The condition that parts in a row make, each behind its connector, the first without one. -/
def joinFilters : List (Connector × RowFilter) → RowFilter
  | [] => .all
  | (_, f) :: rest => gatherFilters f rest

/-- What the links of a chain are read as; `c` is the connector in force in front of it. -/
def filters (m : Mapping) (c : Connector) : List Link → List (Connector × RowFilter)
  | [] => []
  | .connector next :: links => filters m next links
  | .condition condition :: links => (c, .test (condition.test m)) :: filters m .and links
  | .group sub :: links =>
      match filters m .and sub with
      | [] => filters m c links
      | inner => (c, joinFilters inner) :: filters m .and links

section Truth

variable (r : Reckoning) (row : Row)

/-- The truth of a part behind its connector. -/
def truthOf (part : Connector × RowFilter) : Connector × Bool := (part.1, part.2.holds r row)

theorem holds_gatherFilters (current : RowFilter) (parts : List (Connector × RowFilter)) :
    (gatherFilters current parts).holds r row =
      anyGroup (current.holds r row) (parts.map (truthOf r row)) := by
  fun_induction gatherFilters current parts with
  | case1 current => rfl
  | case2 current f rest ih => exact ih
  | case3 current f rest ih =>
      rw [RowFilter.holds, ih]
      rfl

theorem holds_joinFilters (parts : List (Connector × RowFilter)) :
    (joinFilters parts).holds r row = joinTruths (parts.map (truthOf r row)) := by
  cases parts with
  | nil => rfl
  | cons part parts => exact holds_gatherFilters r row part.2 parts

/-- The links of a chain are read as what they say about a row. -/
theorem map_truthOf_filters (m : Mapping) (c : Connector) (links : List Link) :
    (filters m c links).map (truthOf r row) = truths r.collation m row c links := by
  fun_induction filters m c links with
  | case1 c => rw [truths, List.map_nil]
  | case2 c next links ih => rw [truths, ih]
  | case3 c condition links ih =>
      rw [List.map_cons, ih, truths, truthOf, RowFilter.holds, condition.holds_test]
  | case4 c sub links hsub ihsub ih =>
      rw [hsub, List.map_nil] at ihsub
      rw [truths, ← ihsub, ih]
  | case5 c sub links hsub ihsub ih =>
      have hne : truths r.collation m row .and sub ≠ [] := by
        rw [← ihsub]
        simpa using hsub
      rw [List.map_cons, ih, truthOf, holds_joinFilters, ihsub, truths]
      split
      · next hnone => exact absurd hnone hne
      · rfl

end Truth

/-- A part of a text and what it is read as have the same connector. -/
def WrittenAlike (fragment : Connector × String) (part : Connector × RowFilter) : Prop :=
  fragment.1 = part.1 ∧ WritesPart fragment.2 part.2

/-- Behind a condition there is nothing or the parenthesis that closes it. -/
def EndsChain (rest : List Lexeme) : Prop := rest = [] ∨ ∃ more, rest = .mark ')' :: more

/-- Parts in a row are read one after the other. -/
theorem exists_lexes_joinFragments {fragments : List (Connector × String)}
    {parts : List (Connector × RowFilter)} (h : List.Forall₂ WrittenAlike fragments parts)
    {text : String} {f : RowFilter} (hfirst : WritesPart text f) (c : Connector) :
    ∃ ls, Lexes (joinFragments ((c, text) :: fragments)) ls ∧ ls ≠ [] ∧
      ∀ n, ls.length ≤ n → ∀ join rest, EndsChain rest →
        chainOf? n join (ls ++ rest) = some (gatherFilters (join f) parts, rest) := by
  induction h generalizing text f c with
  | nil =>
      obtain ⟨ls, hlexes, hne, hread⟩ := hfirst
      refine ⟨ls, hlexes, hne, fun n hn join rest hrest => ?_⟩
      have hpos := List.length_pos_iff.2 hne
      cases n with
      | zero => omega
      | succ n =>
          have hends : EndsPart rest := by
            rcases hrest with rfl | ⟨more, rfl⟩
            · exact .inl rfl
            · exact .inr rfl
          rw [chainOf?, hread n hn rest hends]
          rcases hrest with rfl | ⟨more, rfl⟩ <;> rfl
  | @cons fragment part fragments parts hnext hrest ih =>
      obtain ⟨d, nextText⟩ := fragment
      obtain ⟨d', g⟩ := part
      obtain ⟨hconnector, hwrites⟩ := hnext
      obtain rfl : d = d' := hconnector
      obtain ⟨ls, hlexes, hne, hread⟩ := hfirst
      obtain ⟨ms, hmore, -, hchain⟩ := ih hwrites d
      have hword : isWord d.text = true := by cases d <;> rfl
      refine ⟨ls ++ .word d.text :: ms, ?_, by simp, fun n hn join rest hrest => ?_⟩
      · have hall := Lexes.blank (Lexes.blank hlexes (.word _ hword)) hmore
        exact hall.of_eq rfl (by simp)
      · simp only [List.length_append, List.length_cons] at hn
        cases n with
        | zero => omega
        | succ n =>
            have hpart := hread n (by omega) (.word d.text :: (ms ++ rest)) (by
              cases d <;> exact .inr rfl)
            rw [List.append_assoc, List.cons_append, chainOf?, hpart]
            cases d with
            | and =>
                show chainOf? n (RowFilter.and (join f)) (ms ++ rest) = _
                exact hchain n (by omega) _ rest hrest
            | or =>
                show (chainOf? n id (ms ++ rest)).bind _ = _
                rw [hchain n (by omega) id rest hrest]
                rfl

/-- Parts in a row, in parentheses, are read as one part. -/
theorem writesPart_group {fragments : List (Connector × String)}
    {parts : List (Connector × RowFilter)} (h : List.Forall₂ WrittenAlike fragments parts)
    (hne : fragments ≠ []) :
    WritesPart ("(" ++ joinFragments fragments ++ ")") (joinFilters parts) := by
  cases h with
  | nil => exact absurd rfl hne
  | @cons fragment part fragments parts hfirst hrest =>
      obtain ⟨ls, hlexes, -, hread⟩ := exists_lexes_joinFragments hrest hfirst.2 fragment.1
      have hgroup := (Lexes.behind "(" rfl (Lexes.across ")" rfl hlexes .empty)).lexes
      rw [String.append_empty, ← String.append_assoc] at hgroup
      refine ⟨.mark '(' :: (ls ++ [.mark ')']), hgroup.of_eq rfl rfl, by simp, ?_⟩
      intro n hn rest _
      simp only [List.length_cons, List.length_append, List.length_nil] at hn
      have hchain := hread n (by omega) id (.mark ')' :: rest) (.inr ⟨rest, rfl⟩)
      rw [List.cons_append, List.append_assoc, List.singleton_append, factor?, hchain]
      rfl

/-- The fragments of a chain over bare names are read as what its links are read as. -/
theorem writtenAlike_fragments {m : Mapping} {c : Connector} {links : List Link}
    (h : ∀ condition ∈ conditions links, isBareName (m.columnName condition.field) = true) :
    List.Forall₂ WrittenAlike (fragments m c links) (filters m c links) := by
  fun_induction fragments m c links with
  | case1 c =>
      rw [filters]
      exact .nil
  | case2 c next links ih =>
      rw [conditions] at h
      rw [filters]
      exact ih h
  | case3 c condition links ih =>
      rw [conditions, List.forall_mem_cons] at h
      rw [filters]
      exact .cons ⟨rfl, condition.writesPart h.1⟩ (ih h.2)
  | case4 c sub links hsub ihsub ih =>
      rw [conditions, List.forall_mem_append] at h
      have hinner := ihsub h.1
      rw [hsub, List.forall₂_nil_left_iff] at hinner
      rw [filters, hinner]
      exact ih h.2
  | case5 c sub links hsub ihsub ih =>
      rw [conditions, List.forall_mem_append] at h
      have hinner := ihsub h.1
      rw [filters]
      split
      · next hnone =>
        rw [hnone, List.forall₂_nil_right_iff] at hinner
        exact absurd hinner hsub
      · exact .cons ⟨rfl, writesPart_group hinner hsub⟩ (ih h.2)

/-! ## Clauses -/

/-- Parts in a row stand behind `where`, if there are any. -/
theorem exists_lexes_where {fragments : List (Connector × String)}
    {parts : List (Connector × RowFilter)} (h : List.Forall₂ WrittenAlike fragments parts) :
    ∃ ls, LexesApart (Query.introduced " where " (joinFragments fragments)) ls ∧
      where? ls = some (joinFilters parts) := by
  cases h with
  | nil => exact ⟨[], .empty, rfl⟩
  | @cons fragment part fragments parts hfirst hrest =>
      obtain ⟨ls, hlexes, hne, hread⟩ := exists_lexes_joinFragments hrest hfirst.2 fragment.1
      have hsome : (joinFragments (fragment :: fragments)).isEmpty = false := by
        rw [Bool.eq_false_iff, ne_eq, String.isEmpty_iff]
        intro hempty
        have hnil := hlexes.lexemes?_eq
        rw [hempty] at hnil
        exact hne (Option.some.inj hnil).symm
      refine ⟨.word "where" :: ls, ?_, ?_⟩
      · rw [Query.introduced, hsome]
        exact Lexes.behind " " rfl (Lexes.blank (.word "where" rfl) hlexes)
      · have hchain := hread ls.length le_rfl id [] (.inl rfl)
        rw [List.append_nil] at hchain
        rw [where?, hchain]
        rfl

end Persistence
