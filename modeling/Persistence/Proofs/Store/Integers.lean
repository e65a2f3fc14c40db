import Persistence.Proofs.Number.Spelling
import Persistence.Proofs.Store.Filters
import Persistence.Proofs.Store.Reference

/-!
# A reckoning by numbers

A database that takes an expression for an integer if it is the text of one, with or without
parentheses around it, and that compares cells with nothing else.  So there is a way to go by texts
alone, and it compares literals of integers as the numbers that they stand for.

Main results:

- `Value.integers_same`: the literals of values that are the same spell the same integers, whatever
  signs their zeros have.
- `Reckoning.isNumeric_numeric`: integers are compared as numbers.
-/

namespace Persistence

open Sql Decimal

/-! ## Integers in expressions -/

namespace Sql

/-- The integer that a lexeme spells. -/
def Lexeme.integer? : Lexeme → Option Int
  | .word w =>
      if w.toList.all fun c => c.isDigit || c = '-' then some (spelledInt w.toList) else none
  | _ => none

/-- The integers that the lexemes of an expression spell; parentheses do not count. -/
def integers (e : List Lexeme) : List (Option Int) :=
  e.filterMap fun l => if l.isParen then none else some l.integer?

/-- The integer that an expression is. -/
def integerOf? (e : List Lexeme) : Option Int :=
  match integers e with
  | [n] => n
  | _ => none

theorem integers_parens (e : List Lexeme) :
    integers (.mark '(' :: (e ++ [.mark ')'])) = integers e := by
  simp [integers, Lexeme.isParen]

theorem integers_intercalate (chunks : List (List Lexeme)) :
    integers ([Lexeme.mark ','].intercalate chunks) =
      [none].intercalate (chunks.map integers) := by
  induction chunks with
  | nil => rfl
  | cons chunk chunks ih =>
      cases chunks with
      | nil => simp
      | cons next chunks =>
          rw [List.intercalate_cons_cons, integers, List.filterMap_append, List.filterMap_append,
            ← integers, ← integers, ← integers, ih]
          simp only [List.map_cons, List.intercalate_cons_cons]
          rfl

theorem integer?_toString (n : Int) : Lexeme.integer? (.word (toString n)) = some n := by
  have hall : ((toString n).toList.all fun c => c.isDigit || c = '-') = true := by
    rw [List.all_eq_true]
    intro c hc
    simpa using mem_toString hc
  rw [Lexeme.integer?, if_pos hall]
  exact congrArg some (spelledInt_toString false n)

/-- The literal of an integer is that integer. -/
theorem integerOf?_int (n : Int) : integerOf? (Value.int n).lexemes = some n := by
  rw [Value.lexemes_of_constant? rfl]
  exact integer?_toString n

end Sql

/-! ## Values that are the same -/

theorem Binary64.eq_zero_of_isZero {x : Binary64} (h : x.isZero = true) :
    x = .zero false ∨ x = .zero true := by
  obtain ⟨bits⟩ := x
  have hmod : bits.toNat % 2 ^ 63 = 0 := of_decide_eq_true h
  have hlt := bits.toNat_lt
  have hbits : bits.toNat = 0 ∨ bits.toNat = 2 ^ 63 := by omega
  rcases hbits with hbits | hbits
  · exact .inl (congrArg _ (UInt64.toNat_inj.1 (hbits.trans rfl)))
  · exact .inr (congrArg _ (UInt64.toNat_inj.1 (hbits.trans rfl)))

namespace Value

/-- Both zeros are written as zero. -/
theorem integer?_floatLiteral {x y : Binary64} (h : x.same y = true) :
    Lexeme.integer? (.word (floatLiteral x)) = Lexeme.integer? (.word (floatLiteral y)) := by
  have hzero : ∀ sign, Lexeme.integer? (.word (floatLiteral (.zero sign))) = some 0 := by
    decide +kernel
  simp only [Binary64.same, Bool.or_eq_true, Bool.and_eq_true, beq_iff_eq] at h
  rcases h with ⟨rfl, -⟩ | ⟨hx, hy⟩
  · rfl
  · rcases Binary64.eq_zero_of_isZero hx with rfl | rfl <;>
      rcases Binary64.eq_zero_of_isZero hy with rfl | rfl <;> simp only [hzero]

/-- Constants that are the same spell the same integers. -/
theorem integers_constant {v w : Value} (h : v.same w = true) {k k' : Constant}
    (hv : v.constant? = some k) (hw : w.constant? = some k') :
    integers k.lexemes = integers k'.lexemes := by
  have htext : ∀ s, integers (Constant.text s).lexemes = [none] := fun _ => rfl
  have hword : ∀ s, integers (Constant.word s).lexemes = [Lexeme.integer? (.word s)] := fun _ => rfl
  have hpoint : ∀ s n, integers (Constant.point s n).lexemes =
      [Lexeme.integer? (.word Constant.pointFunction), none, none,
        Lexeme.integer? (.word (toString n))] := fun _ _ => rfl
  cases v <;> cases w <;> simp only [same, Bool.false_eq_true, beq_iff_eq] at h <;>
    cases hv <;> cases hw <;> simp only [htext, hword, hpoint]
  · rw [h]
  · rw [h]
  · rw [h]
  · rw [integer?_floatLiteral h]
  · simp only [Point.same, Bool.and_eq_true, beq_iff_eq] at h
    rw [h.2]

/-- An item of a list spells what it spells on its own. -/
theorem map_integers_itemLexemes (items : List Value) :
    (itemLexemes items).map integers = items.map fun v => integers v.lexemes := by
  induction items with
  | nil => rfl
  | cons v items ih =>
      rcases v.eq_list_or_constant? with ⟨inner, rfl⟩ | ⟨k, hk⟩
      · rw [itemLexemes, List.map_cons, List.map_cons, ih, integers_parens, lexemes]
      · rw [itemLexemes_of_constant? hk, List.map_cons, List.map_cons, ih,
          lexemes_of_constant? hk]

mutual

/-- Values that are the same spell the same integers. -/
theorem integers_same (v : Value) {w : Value} (h : v.same w = true) :
    integers v.lexemes = integers w.lexemes := by
  rcases w.eq_list_or_constant? with ⟨ys, rfl⟩ | ⟨k, hk⟩
  · cases v with
    | list xs =>
        rw [same] at h
        rw [lexemes, lexemes, integers_intercalate, integers_intercalate,
          map_integers_itemLexemes, map_integers_itemLexemes, map_integers_same xs h]
    | _ => simp [same] at h
  · rw [lexemes_of_constant? hk]
    cases v with
    | list xs => cases w <;> simp [same, constant?] at h hk
    | _ =>
        rw [lexemes_of_constant? rfl]
        exact integers_constant h rfl hk

theorem map_integers_same : ∀ (xs : List Value) {ys : List Value}, sameItems xs ys = true →
    (xs.map fun v => integers v.lexemes) = ys.map fun v => integers v.lexemes
  | [], [], _ => rfl
  | x :: xs, y :: ys, h => by
    rw [sameItems, Bool.and_eq_true] at h
    rw [List.map_cons, List.map_cons, integers_same x h.1, map_integers_same xs h.2]

end

end Value

/-! ## The reckoning -/

/-- How a cell that is an integer compares with an integer. -/
def integerOrder : Json → Option Int → Option Ordering
  | .num (.int n _), some m => some (compare n m)
  | _, _ => none

/-- The comparison of integers with integers, by their texts. -/
def Reckoning.numeric : Reckoning where
  order cell e := integerOrder cell (integerOf? e)
  like _ _ := none
  includes _ _ := none
  stored e := ((integerOf? e).map Json.ofInt).getD .null
  order_null e := by
    cases integerOf? e <;> rfl
  order_parens cell e _ := by
    rw [integerOf?, integers_parens]
    rfl
  order_same cell v w h := by
    rw [integerOf?, v.integers_same h]
    rfl
  order_flag := by decide

/-- Literals of integers are compared as the numbers that they are. -/
theorem Reckoning.isNumeric_numeric : numeric.collation.IsNumeric := by
  intro n h m
  show integerOrder _ (integerOf? (Value.int m).lexemes) = _
  rw [integerOf?_int]
  rfl

end Persistence
