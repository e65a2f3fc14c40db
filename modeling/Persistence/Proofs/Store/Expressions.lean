import Persistence.Proofs.Schema.Written

/-!
# Expressions in statements

What a statement compares a column with, or writes into one, is an expression: it goes up to the
place at which the statement goes on, which is the next connector of a condition, the next item of
a list or the next assignment.  What stands in parentheses belongs to it, whatever it is.  Only
constant expressions are read, which speak of no column.  What they stand for is a matter of the
database; here they are only told from what is behind them.

The literal of a value is a constant expression wherever it stands, also if the value is a list of
lists.

Main results:

- `Value.lexes`: the lexemes of the literals of all values.
- `Value.takeConstant?_lexemes`: a literal is read up to its end.
-/

namespace Persistence

open Sql

namespace Sql

/-! ## Reading -/

/-- The number of open parentheses behind a lexeme. -/
def Lexeme.depthAfter (depth : Nat) : Lexeme → Nat
  | mark '(' => depth + 1
  | mark ')' => depth - 1
  | _ => depth

/-- The lexemes in front of the first place outside of parentheses at which an expression ends, and
those from there on.  The number counts the open parentheses. -/
def takeExpression (ends : List Lexeme → Bool) : Nat → List Lexeme → List Lexeme × List Lexeme
  | _, [] => ([], [])
  | depth, l :: ls =>
      if depth = 0 ∧ ends (l :: ls) = true then ([], l :: ls)
      else
        let taken := takeExpression ends (l.depthAfter depth) ls
        (l :: taken.1, taken.2)

/-- Whether a word is made of the characters of numbers. -/
def isNumeral (s : String) : Bool := s.toList.all fun c => c.isDigit || c = '.' || c = '-'

/-- The words that constants are written with, besides numbers. -/
def constantWords : List String := ["NULL", "true", "false", Constant.pointFunction]

/-- Whether a lexeme may stand in a constant expression.  The name of a column may not. -/
def Lexeme.isConstant : Lexeme → Bool
  | word s => isNumeral s || constantWords.contains s
  | name _ => false
  | text _ => true
  | mark c => c = '(' || c = ')' || c = ','

/-- A constant expression and what is behind it. -/
def takeConstant? (ends : List Lexeme → Bool) (ls : List Lexeme) :
    Option (List Lexeme × List Lexeme) :=
  let taken := takeExpression ends 0 ls
  if taken.1.all Lexeme.isConstant then some taken else none

/-- The words and marks that end an operand of a condition. -/
def endsOperand : List Lexeme → Bool
  | .word s :: _ => s = "and" || s = "or"
  | .mark c :: _ => c = ')'
  | _ => false

/-- The marks that end an item of a list. -/
def endsItem : List Lexeme → Bool
  | .mark c :: _ => c = ',' || c = ')'
  | _ => false

/-- What ends the value of an assignment: the condition of the statement, or the next
assignment. -/
def endsAssignment : List Lexeme → Bool
  | .word s :: _ => s = "where"
  | .mark ',' :: .word _ :: .mark '=' :: _ => true
  | _ => false

/-! ## Expressions -/

/-- Whether a lexeme is a parenthesis. -/
def Lexeme.isParen (l : Lexeme) : Bool := l = mark '(' || l = mark ')'

theorem Lexeme.depthAfter_of_not_isParen {l : Lexeme} (h : l.isParen = false) (depth : Nat) :
    l.depthAfter depth = depth := by
  rw [isParen, Bool.or_eq_false_iff, decide_eq_false_iff_not, decide_eq_false_iff_not] at h
  unfold depthAfter
  split
  · exact absurd rfl h.1
  · exact absurd rfl h.2
  · rfl

/-- Lexemes in which every parenthesis has its counterpart. -/
inductive Matched : List Lexeme → Prop
  | nil : Matched []
  | cons {l : Lexeme} {ls : List Lexeme} : l.isParen = false → Matched ls → Matched (l :: ls)
  | group {inner ls : List Lexeme} : Matched inner → Matched ls →
      Matched (.mark '(' :: (inner ++ .mark ')' :: ls))

namespace Matched

variable {ls ms : List Lexeme}

theorem append (h : Matched ls) (h' : Matched ms) : Matched (ls ++ ms) := by
  induction h with
  | nil => exact h'
  | cons hl _ ih => exact .cons hl ih
  | group hinner _ _ ih =>
      rw [List.cons_append, List.append_assoc, List.cons_append]
      exact .group hinner ih

theorem intercalate {items : List (List Lexeme)} (h : ∀ item ∈ items, Matched item) :
    Matched ([Lexeme.mark ','].intercalate items) := by
  induction items with
  | nil => exact nil
  | cons item items ih =>
      obtain ⟨hitem, hitems⟩ := List.forall_mem_cons.1 h
      cases items with
      | nil =>
          rw [List.intercalate_singleton]
          exact hitem
      | cons next items =>
          rw [List.intercalate_cons_cons, List.append_assoc]
          exact hitem.append (.cons rfl (ih hitems))

/-- Nothing ends inside of parentheses. -/
theorem takeExpression (h : Matched ls) (ends : List Lexeme → Bool) (depth : Nat)
    (rest : List Lexeme) :
    Sql.takeExpression ends (depth + 1) (ls ++ rest) =
      (ls ++ (Sql.takeExpression ends (depth + 1) rest).1,
        (Sql.takeExpression ends (depth + 1) rest).2) := by
  induction h generalizing depth rest with
  | nil => rfl
  | @cons l ls hl _ ih =>
      rw [List.cons_append, Sql.takeExpression, if_neg (by simp),
        Lexeme.depthAfter_of_not_isParen hl, ih]
      rfl
  | @group inner ls _ _ ihinner ih =>
      have hopen : (Lexeme.mark '(').depthAfter (depth + 1) = depth + 1 + 1 := rfl
      have hclose : (Lexeme.mark ')').depthAfter (depth + 1 + 1) = depth + 1 := rfl
      rw [List.cons_append, List.append_assoc, List.cons_append, Sql.takeExpression,
        if_neg (by simp), hopen, ihinner, Sql.takeExpression, if_neg (by simp), hclose, ih]
      simp

end Matched

/-- An expression in front of `rest`: outside of its parentheses it ends nowhere before. -/
inductive Spans (ends : List Lexeme → Bool) (rest : List Lexeme) : List Lexeme → Prop
  | done : rest = [] ∨ ends rest = true → Spans ends rest []
  | cons {l : Lexeme} {ls : List Lexeme} : l.isParen = false → ends (l :: (ls ++ rest)) = false →
      Spans ends rest ls → Spans ends rest (l :: ls)
  | group {inner ls : List Lexeme} : Matched inner → (∀ more, ends (.mark '(' :: more) = false) →
      Spans ends rest ls → Spans ends rest (.mark '(' :: (inner ++ .mark ')' :: ls))

/-- An expression is read up to its end. -/
theorem Spans.takeExpression {ends : List Lexeme → Bool} {rest ls : List Lexeme}
    (h : Spans ends rest ls) : Sql.takeExpression ends 0 (ls ++ rest) = (ls, rest) := by
  induction h with
  | done hrest =>
      cases rest with
      | nil => rfl
      | cons l rest =>
          rw [List.nil_append, Sql.takeExpression, if_pos ⟨rfl, hrest.resolve_left (by simp)⟩]
  | @cons l ls hl hends _ ih =>
      rw [List.cons_append, Sql.takeExpression, if_neg (by simp [hends]),
        Lexeme.depthAfter_of_not_isParen hl, ih]
  | @group inner ls hinner hopening _ ih =>
      have hopen : (Lexeme.mark '(').depthAfter 0 = 0 + 1 := rfl
      have hclose : (Lexeme.mark ')').depthAfter (0 + 1) = 0 := rfl
      rw [List.cons_append, List.append_assoc, List.cons_append, Sql.takeExpression,
        if_neg (by simp [hopening]), hopen, hinner.takeExpression, Sql.takeExpression,
        if_neg (by simp), hclose, ih]

/-- A constant expression is read up to its end. -/
theorem Spans.takeConstant? {ends : List Lexeme → Bool} {rest ls : List Lexeme}
    (h : Spans ends rest ls) (hconstant : ∀ l ∈ ls, l.isConstant = true) :
    Sql.takeConstant? ends (ls ++ rest) = some (ls, rest) := by
  rw [Sql.takeConstant?, h.takeExpression]
  exact if_pos (List.all_eq_true.2 hconstant)

/-- What stands in a list stands in one of its items or is a comma. -/
theorem mem_intercalate {l : Lexeme} {items : List (List Lexeme)}
    (h : l ∈ [Lexeme.mark ','].intercalate items) : l = .mark ',' ∨ ∃ item ∈ items, l ∈ item := by
  induction items with
  | nil => simp at h
  | cons item items ih =>
      cases items with
      | nil => exact .inr ⟨item, List.mem_cons_self, by simpa using h⟩
      | cons next items =>
          rw [List.intercalate_cons_cons, List.append_assoc, List.singleton_append,
            List.mem_append, List.mem_cons] at h
          rcases h with h | rfl | h
          · exact .inr ⟨item, List.mem_cons_self, h⟩
          · exact .inl rfl
          · exact (ih h).imp_right fun ⟨other, hother, hl⟩ =>
              ⟨other, List.mem_cons_of_mem _ hother, hl⟩

end Sql

/-! ## Lexemes of literals -/

namespace Value

mutual

/-- The lexemes of the literal of a value. -/
def lexemes : Value → List Lexeme
  | list items => [Lexeme.mark ','].intercalate (itemLexemes items)
  | v => (v.constant?.map Constant.lexemes).getD []

/-- The lexemes of the items of a list; an item that is a list itself is in parentheses. -/
def itemLexemes : List Value → List (List Lexeme)
  | [] => []
  | list items :: rest =>
      (.mark '(' :: ([Lexeme.mark ','].intercalate (itemLexemes items) ++ [.mark ')'])) ::
        itemLexemes rest
  | item :: rest => lexemes item :: itemLexemes rest

end

theorem lexemes_of_constant? {v : Value} {k : Constant} (h : v.constant? = some k) :
    v.lexemes = k.lexemes := by
  cases v with
  | list items => cases h
  | _ => rw [lexemes, h] <;> simp

/-- Only lists are no constants. -/
theorem eq_list_or_constant? (v : Value) :
    (∃ items, v = list items) ∨ ∃ k, v.constant? = some k := by
  cases v with
  | list items => exact .inl ⟨items, rfl⟩
  | _ => exact .inr ⟨_, rfl⟩

theorem itemLexemes_of_constant? {v : Value} {k : Constant} (h : v.constant? = some k)
    (rest : List Value) : itemLexemes (v :: rest) = k.lexemes :: itemLexemes rest := by
  rw [← lexemes_of_constant? h]
  cases v with
  | list items => cases h
  | _ =>
      rw [itemLexemes]
      simp

theorem length_itemLexemes (items : List Value) : (itemLexemes items).length = items.length := by
  induction items with
  | nil => rfl
  | cons v items ih =>
      rcases v.eq_list_or_constant? with ⟨inner, rfl⟩ | ⟨k, hk⟩
      · rw [itemLexemes, List.length_cons, List.length_cons, ih]
      · rw [itemLexemes_of_constant? hk, List.length_cons, List.length_cons, ih]

mutual

/-- The literal of a value has its lexemes. -/
theorem lexes (v : Value) : Lexes v.literal v.lexemes := by
  cases v with
  | list items =>
      rw [literal, lexemes]
      exact Lexes.intercalate ", " rfl (lexes_items items)
  | _ =>
      rw [lexemes_of_constant? rfl]
      exact lexes_literal rfl

/-- So have the literals of the items of a list. -/
theorem lexes_items : ∀ items : List Value,
    List.Forall₂ Lexes (itemLiterals items) (itemLexemes items)
  | [] => .nil
  | item :: rest => by
      have hrest := lexes_items rest
      have hitem := lexes item
      cases item with
      | list items =>
          have hgroup := (Lexes.behind "(" rfl (Lexes.across ")" rfl hitem .empty)).lexes
          rw [literal, lexemes, String.append_empty, ← String.append_assoc] at hgroup
          rw [itemLiterals, itemLexemes]
          exact .cons hgroup hrest
      | _ =>
          rw [itemLiterals, itemLexemes]
          · exact .cons hitem hrest
          · simp
          · simp

end

/-! ## Literals as expressions -/

/-- What is true of constants, and stays true in lists and in parentheses. -/
structure KeptByLiterals (P : List Lexeme → Prop) : Prop where
  constant : ∀ {v : Value} {k : Constant}, v.constant? = some k → P k.lexemes
  list : ∀ {items : List (List Lexeme)}, (∀ item ∈ items, P item) →
    P ([Lexeme.mark ','].intercalate items)
  parens : ∀ {ls : List Lexeme}, P ls → P (.mark '(' :: (ls ++ [.mark ')']))

mutual

/-- It is true of all literals. -/
theorem KeptByLiterals.lexemes {P : List Lexeme → Prop} (h : KeptByLiterals P) (v : Value) :
    P v.lexemes := by
  cases hk : v.constant? with
  | some k =>
      rw [lexemes_of_constant? hk]
      exact h.constant hk
  | none =>
      cases v with
      | list items =>
          rw [Value.lexemes]
          exact h.list (h.itemLexemes items)
      | _ => cases hk

theorem KeptByLiterals.itemLexemes {P : List Lexeme → Prop} (h : KeptByLiterals P) :
    ∀ items : List Value, ∀ item ∈ Value.itemLexemes items, P item
  | [] => by simp [Value.itemLexemes]
  | item :: rest => by
      have hrest := h.itemLexemes rest
      have hitem := h.lexemes item
      cases item with
      | list items =>
          rw [Value.lexemes] at hitem
          rw [Value.itemLexemes, List.forall_mem_cons]
          exact ⟨h.parens hitem, hrest⟩
      | _ =>
          rw [Value.itemLexemes]
          · exact List.forall_mem_cons.2 ⟨hitem, hrest⟩
          · simp

end

/-- The parentheses in a literal match. -/
theorem keptByLiterals_matched : KeptByLiterals Matched where
  constant {v k} _ := by
    cases k with
    | point wellKnown srid => exact .cons rfl (.group (.cons rfl (.cons rfl (.cons rfl .nil))) .nil)
    | _ => exact .cons rfl .nil
  list := .intercalate
  parens h := .group h .nil

theorem isNumeral_toString (n : Int) : isNumeral (toString n) = true := by
  rw [isNumeral, List.all_eq_true]
  intro c hc
  rcases Decimal.mem_toString hc with hc | rfl
  · simp [hc]
  · rfl

theorem isConstant_toString (n : Int) : (Lexeme.word (toString n)).isConstant = true := by
  rw [Lexeme.isConstant, isNumeral_toString, Bool.true_or]

theorem isConstant_floatLiteral (x : Binary64) :
    (Lexeme.word (floatLiteral x)).isConstant = true := by
  rw [floatLiteral]
  split
  · next hfinite =>
      have hnumeral : isNumeral (x.text Decimal.Layout.plain) = true := by
        rw [isNumeral, List.all_eq_true]
        intro c hc
        rw [Binary64.toList_text hfinite, List.mem_append] at hc
        rcases hc with hc | hc
        · have hsign : c = '-' := by
            split at hc <;> simp_all
          rw [hsign]
          rfl
        · rcases mem_text_plain hc with hc | rfl
          · simp [hc]
          · rfl
      rw [Lexeme.isConstant, hnumeral, Bool.true_or]
  · rfl

/-- A constant has no name of a column in it. -/
theorem isConstant_constant {v : Value} {k : Constant} (h : v.constant? = some k) :
    ∀ l ∈ k.lexemes, l.isConstant = true := by
  have hword : ∀ {s : String}, (Lexeme.word s).isConstant = true →
      ∀ l ∈ (Constant.word s).lexemes, l.isConstant = true := by
    intro s hs l hl
    rwa [List.mem_singleton.1 hl]
  cases v with
  | list items => cases h
  | null =>
      cases h
      exact hword rfl
  | bool b =>
      cases h
      cases b <;> exact hword rfl
  | int n =>
      cases h
      exact hword (isConstant_toString n)
  | uint n =>
      cases h
      exact hword (isConstant_toString n)
  | float x =>
      cases h
      exact hword (isConstant_floatLiteral x)
  | point p =>
      cases h
      simp only [Constant.lexemes, List.forall_mem_cons]
      exact ⟨rfl, rfl, rfl, rfl, isConstant_toString p.srid, rfl, by simp⟩
  | _ =>
      cases h
      exact List.forall_mem_singleton.2 rfl

/-- A literal has no name of a column in it. -/
theorem keptByLiterals_isConstant :
    KeptByLiterals fun ls => ∀ l ∈ ls, l.isConstant = true where
  constant := isConstant_constant
  list h := by
    intro l hl
    rcases mem_intercalate hl with rfl | ⟨item, hitem, hl⟩
    · rfl
    · exact h item hitem l hl
  parens h := by
    rw [List.forall_mem_cons, List.forall_mem_append, List.forall_mem_singleton]
    exact ⟨rfl, h, rfl⟩

/-- What ends an expression if no word or text of a constant does, and no parenthesis. -/
structure PassesLiterals (ends : List Lexeme → Bool) : Prop where
  word : ∀ s more, (Lexeme.word s).isConstant = true → ends (.word s :: more) = false
  text : ∀ s more, ends (.text s :: more) = false
  opening : ∀ more, ends (.mark '(' :: more) = false

variable {ends : List Lexeme → Bool} {rest ls : List Lexeme}

/-- A constant goes on with what is behind it. -/
theorem spans_constant (h : PassesLiterals ends) {v : Value} {k : Constant}
    (hk : v.constant? = some k) (hls : Spans ends rest ls) :
    Spans ends rest (k.lexemes ++ ls) := by
  have hconstant := isConstant_constant hk
  cases k with
  | word s => exact .cons rfl (h.word s _ (hconstant _ List.mem_cons_self)) hls
  | text s => exact .cons rfl (h.text s _) hls
  | point wellKnown srid =>
      refine .cons rfl (h.word _ _ (hconstant _ List.mem_cons_self)) ?_
      exact .group (.cons rfl (.cons rfl (.cons rfl .nil))) h.opening hls

/-- An item of a list goes on with what is behind it. -/
theorem spans_item (h : PassesLiterals ends) {item : List Lexeme} {items : List Value}
    (hitem : item ∈ itemLexemes items) (hls : Spans ends rest ls) :
    Spans ends rest (item ++ ls) := by
  induction items with
  | nil => simp [itemLexemes] at hitem
  | cons v items ih =>
      rcases v.eq_list_or_constant? with ⟨inner, rfl⟩ | ⟨k, hk⟩
      · rw [itemLexemes, List.mem_cons] at hitem
        rcases hitem with rfl | hitem
        · rw [List.cons_append, List.append_assoc]
          exact .group (.intercalate (keptByLiterals_matched.itemLexemes inner)) h.opening hls
        · exact ih hitem
      · rw [itemLexemes_of_constant? hk, List.mem_cons] at hitem
        rcases hitem with rfl | hitem
        · exact spans_constant h hk hls
        · exact ih hitem

/-- Lexemes that start no assignment: they are not a word with an equals sign behind it. -/
def Unassigned (ls : List Lexeme) : Prop := ∀ s more, ls ≠ .word s :: .mark '=' :: more

/-- An item starts no assignment, unless an equals sign follows. -/
theorem unassigned_item {item : List Lexeme} {items : List Value}
    (hitem : item ∈ itemLexemes items) (hls : ∀ more, ls ≠ .mark '=' :: more) :
    Unassigned (item ++ ls) := by
  induction items with
  | nil => simp [itemLexemes] at hitem
  | cons v items ih =>
      rcases v.eq_list_or_constant? with ⟨inner, rfl⟩ | ⟨k, hk⟩
      · rw [itemLexemes, List.mem_cons] at hitem
        rcases hitem with rfl | hitem
        · intro s more h
          simp at h
        · exact ih hitem
      · rw [itemLexemes_of_constant? hk, List.mem_cons] at hitem
        rcases hitem with rfl | hitem
        · intro s more h
          cases k with
          | word w => exact hls more (List.cons.inj h).2
          | text w => simp [Constant.lexemes] at h
          | point wellKnown srid => simp [Constant.lexemes] at h
        · exact ih hitem

/-- Items with commas between them are one expression where a comma ends none, and they start no
assignment. -/
theorem spans_intercalate (h : PassesLiterals ends)
    (hcomma : ∀ more, Unassigned more → ends (.mark ',' :: more) = false)
    (hrest : rest = [] ∨ ends rest = true) (hequals : ∀ more, rest ≠ .mark '=' :: more)
    {items : List Value} {chunks : List (List Lexeme)} (hchunks : chunks ⊆ itemLexemes items) :
    Spans ends rest ([Lexeme.mark ','].intercalate chunks) ∧
      (chunks ≠ [] → Unassigned ([Lexeme.mark ','].intercalate chunks ++ rest)) := by
  induction chunks with
  | nil => exact ⟨.done hrest, fun hne => absurd rfl hne⟩
  | cons chunk chunks ih =>
      obtain ⟨hchunk, hmore⟩ := List.cons_subset.1 hchunks
      obtain ⟨hspans, hunassigned⟩ := ih hmore
      cases chunks with
      | nil =>
          rw [List.intercalate_singleton]
          have hlast := spans_item h hchunk (.done hrest)
          rw [List.append_nil] at hlast
          exact ⟨hlast, fun _ => unassigned_item hchunk hequals⟩
      | cons next chunks =>
          have hnext := hcomma _ (hunassigned (by simp))
          rw [List.intercalate_cons_cons, List.append_assoc, List.singleton_append]
          refine ⟨spans_item h hchunk (.cons rfl hnext hspans), fun _ => ?_⟩
          rw [List.append_assoc, List.cons_append]
          exact unassigned_item hchunk (by simp)

/-- A literal starts with no mark but a parenthesis. -/
theorem lexemes_append_ne_mark (v : Value) {c : Char} (hc : c ≠ '(')
    (hrest : ∀ more, rest ≠ .mark c :: more) : ∀ more, v.lexemes ++ rest ≠ .mark c :: more := by
  have hconstant : ∀ (k : Constant) (rest more : List Lexeme),
      k.lexemes ++ rest ≠ .mark c :: more := by
    intro k rest more
    cases k <;> simp [Constant.lexemes]
  rcases v.eq_list_or_constant? with ⟨items, rfl⟩ | ⟨k, hk⟩
  · rw [lexemes]
    cases items with
    | nil => exact hrest
    | cons item items =>
        -- what stands first in a list is what stands first in its first item
        have hfirst : ∀ (first : List Lexeme) (chunks : List (List Lexeme)),
            ∃ tail, [Lexeme.mark ','].intercalate (first :: chunks) = first ++ tail := by
          intro first chunks
          cases chunks with
          | nil => exact ⟨[], by simp⟩
          | cons next chunks => exact ⟨_, by rw [List.intercalate_cons_cons, List.append_assoc]⟩
        rcases item.eq_list_or_constant? with ⟨inner, rfl⟩ | ⟨k, hk⟩
        · rw [itemLexemes]
          obtain ⟨tail, htail⟩ := hfirst (.mark '(' ::
            ([Lexeme.mark ','].intercalate (itemLexemes inner) ++ [.mark ')'])) (itemLexemes items)
          rw [htail]
          simp [Ne.symm hc]
        · rw [itemLexemes_of_constant? hk]
          obtain ⟨tail, htail⟩ := hfirst k.lexemes (itemLexemes items)
          rw [htail, List.append_assoc]
          exact hconstant k _
  · rw [lexemes_of_constant? hk]
    exact hconstant k rest

/-- A literal is read up to its end where a comma ends no expression. -/
theorem takeConstant?_lexemes (h : PassesLiterals ends)
    (hcomma : ∀ more, Unassigned more → ends (.mark ',' :: more) = false)
    (hrest : rest = [] ∨ ends rest = true) (hequals : ∀ more, rest ≠ .mark '=' :: more)
    (v : Value) : takeConstant? ends (v.lexemes ++ rest) = some (v.lexemes, rest) := by
  refine Spans.takeConstant? ?_ (keptByLiterals_isConstant.lexemes v)
  rcases v.eq_list_or_constant? with ⟨items, rfl⟩ | ⟨k, hk⟩
  · rw [lexemes]
    exact (spans_intercalate h hcomma hrest hequals (List.Subset.refl _)).1
  · rw [lexemes_of_constant? hk, ← List.append_nil k.lexemes]
    exact spans_constant h hk (.done hrest)

/-- No connector and no `where` is a word of a constant. -/
theorem ne_of_isConstant {s : String} (h : (Lexeme.word s).isConstant = true) :
    s ≠ "and" ∧ s ≠ "or" ∧ s ≠ "where" := by
  refine ⟨?_, ?_, ?_⟩ <;> rintro rfl <;> exact absurd h (by decide)

/-- The literal of a value is read up to its end as an operand. -/
theorem takeConstant?_operand (v : Value) (hrest : rest = [] ∨ endsOperand rest = true) :
    takeConstant? endsOperand (v.lexemes ++ rest) = some (v.lexemes, rest) := by
  refine takeConstant?_lexemes ⟨fun s more hs => ?_, fun _ _ => rfl, fun _ => rfl⟩
    (fun _ _ => rfl) hrest ?_ v
  · obtain ⟨hand, hor, -⟩ := ne_of_isConstant hs
    simp [endsOperand, hand, hor]
  · rintro more rfl
    rcases hrest with hrest | hrest <;> cases hrest

/-- The literal of a value is read up to its end as the value of an assignment. -/
theorem takeConstant?_assigned (v : Value) (hrest : rest = [] ∨ endsAssignment rest = true) :
    takeConstant? endsAssignment (v.lexemes ++ rest) = some (v.lexemes, rest) := by
  refine takeConstant?_lexemes ⟨fun s more hs => ?_, fun _ _ => rfl, fun _ => rfl⟩
    (fun more hmore => ?_) hrest ?_ v
  · simp [endsAssignment, (ne_of_isConstant hs).2.2]
  · unfold endsAssignment
    split
    · next heq => cases heq
    · next heq => exact absurd (List.cons.inj heq).2 (hmore _ _)
    · rfl
  · rintro more rfl
    rcases hrest with hrest | hrest <;> cases hrest

/-- An item of a list is read up to the comma or the parenthesis behind it. -/
theorem takeConstant?_item {item : List Lexeme} {items : List Value}
    (hitem : item ∈ itemLexemes items) (hrest : endsItem rest = true) :
    takeConstant? endsItem (item ++ rest) = some (item, rest) := by
  refine Spans.takeConstant? ?_ (keptByLiterals_isConstant.itemLexemes items item hitem)
  rw [← List.append_nil item]
  exact spans_item ⟨fun _ _ _ => rfl, fun _ _ => rfl, fun _ => rfl⟩ hitem (.done (.inr hrest))

end Value

end Persistence
