import Persistence.Proofs.Sql.Conditions
import Persistence.Proofs.Store.Meaning

/-!
# What a query reads as

The condition of a query is a text, and a reader of SQL takes it apart again.  Here the formulas
that a query stands for are built from its links, and the text of the query is shown to be read as
exactly these: every condition with its column, operator and operands, joined by the connector that
stands last in front of it, every group that has a condition in parentheses of its own, and nothing
else.

Columns have to be plain names and operands scalars; nothing is asked of the characters of strings.

Main results:

- `Condition.writes`: the text of a condition is read as that condition.
- `Query.Built.read?_whereText`: the condition of every query that was built from scalars is read
  as what the query stands for.
-/

namespace Persistence

open Sql (Scalar Predicate Formula Token tokens? Writes WritesChain joinFormula)

/-! ## Operands -/

namespace Value

/-- Whether a value is a truth value, an integer or a string. -/
def isScalar : Value → Bool
  | bool _ => true
  | int _ => true
  | uint _ => true
  | string _ => true
  | _ => false

/-- The scalar that a value is; any other value counts as its text. -/
def scalar : Value → Scalar
  | bool b => .bool b
  | int n => .int n
  | uint n => .int n
  | string s => .text s
  | v => .text v.rawText

/-- The literal of a scalar is one token. -/
theorem tokens?_literal {v : Value} (h : v.isScalar = true) :
    tokens? v.literal = some [.literal v.scalar] := by
  cases v with
  | bool b => cases b <;> decide +kernel
  | int n => exact Sql.tokens?_toString n
  | uint n => exact Sql.tokens?_toString n
  | string s => exact Sql.tokens?_stringLiteral s
  | _ => simp [isScalar] at h

/-- A scalar in a list is written like on its own. -/
theorem itemLiterals_cons {v : Value} (h : v.isScalar = true) (rest : List Value) :
    itemLiterals (v :: rest) = v.literal :: itemLiterals rest := by
  cases v with
  | list items => simp [isScalar] at h
  | _ => rfl

/-- The literals of scalars in a row have commas between them. -/
theorem tokens?_itemLiterals {items : List Value} (h : ∀ v ∈ items, v.isScalar = true) :
    tokens? (", ".intercalate (itemLiterals items)) =
      some (((items.map scalar).map Token.literal).intersperse .comma) := by
  induction items with
  | nil => rfl
  | cons v items ih =>
      have hv : v.isScalar = true := h v List.mem_cons_self
      have hitems := ih fun w hw => h w (List.mem_cons_of_mem _ hw)
      cases items with
      | nil =>
          rw [itemLiterals_cons hv, itemLiterals, String.intercalate_singleton]
          exact tokens?_literal hv
      | cons w items =>
          have hw : w.isScalar = true := h w (by simp)
          rw [itemLiterals_cons hv, itemLiterals_cons hw, String.intercalate_cons_cons,
            ← itemLiterals_cons hw]
          exact Sql.tokens?_comma (tokens?_literal hv) hitems

/-- The list that scalars spell is their literals in a row. -/
theorem tokens?_literal_members {v : Value} (h : ∀ w ∈ v.members, w.isScalar = true) :
    tokens? v.literal = some (((v.members.map scalar).map Token.literal).intersperse .comma) := by
  cases v with
  | list items => exact tokens?_itemLiterals h
  | _ => exact tokens?_literal (h _ (List.mem_singleton_self _))

end Value

/-! ## Conditions -/

namespace Condition

/-- Whether a condition is on a plain name and has scalars for its operands. -/
def isReadable (m : Mapping) : Condition → Bool
  | compare _ field value => Sql.isPlainName (m.columnName field) && value.isScalar
  | between _ field low high =>
      Sql.isPlainName (m.columnName field) && low.isScalar && high.isScalar
  | like _ _ field _ => Sql.isPlainName (m.columnName field)
  | isNull _ field => Sql.isPlainName (m.columnName field)
  | among _ field values =>
      Sql.isPlainName (m.columnName field) && values.members.all Value.isScalar
  | includes field _ => Sql.isPlainName (m.columnName field)

/-- What a condition reads as.  A pattern has the `%` of its open sides in it, and to be among no
values is a constant. -/
def reading (m : Mapping) : Condition → Predicate
  | compare op field value => .compare op (m.columnName field) value.scalar
  | between negated field low high =>
      .between negated (m.columnName field) low.scalar high.scalar
  | like negated openness field value =>
      .like negated (m.columnName field) (openness.pattern value.rawText)
  | isNull negated field => .isNull negated (m.columnName field)
  | among negated field values =>
      if values.members.isEmpty then .constant negated
      else .among negated (m.columnName field) (values.members.map Value.scalar)
  | includes field document => .includes (m.columnName field) document.text

/-- The tokens of `not`, if it is there. -/
def notTokens (negated : Bool) : List Token := if negated then [.keyword .not] else []

theorem tokens?_negation_between (negated : Bool) :
    tokens? (negation negated ++ "between") = some (notTokens negated ++ [.keyword .between]) := by
  cases negated <;> decide +kernel

theorem tokens?_negation_like (negated : Bool) :
    tokens? (negation negated ++ "like binary") =
      some (notTokens negated ++ [.keyword .like, .keyword .binary]) := by
  cases negated <;> decide +kernel

theorem tokens?_negation_among (negated : Bool) :
    tokens? (negation negated ++ "in") = some (notTokens negated ++ [.keyword .among]) := by
  cases negated <;> decide +kernel

theorem tokens?_negation_null (negated : Bool) :
    tokens? ("is " ++ negation negated ++ "null") =
      some (.keyword .is :: notTokens negated ++ [.keyword .null]) := by
  cases negated <;> decide +kernel

theorem tokens?_comparison (op : Comparison) : tokens? op.text = some [.comparison op] := by
  cases op <;> decide +kernel

theorem tokens?_constant (truth : Bool) :
    tokens? (if truth then "1 = 1" else "1 = 0") =
      some [.literal (.int 1), .comparison .eq, .literal (.int (if truth then 1 else 0))] := by
  cases truth <;> decide +kernel

variable {m : Mapping} {field : String}

theorem writes_compare {value : Value} (hname : Sql.isPlainName (m.columnName field) = true)
    (hvalue : value.isScalar = true) (op : Comparison) :
    Writes ((compare op field value).text m) (.predicate ((compare op field value).reading m)) := by
  have htokens := Sql.tokens?_blank (Sql.tokens?_blank (Sql.tokens?_name hname)
    (tokens?_comparison op)) (Value.tokens?_literal hvalue)
  exact Writes.of_predicate? htokens fun _ => rfl

/-- The `and` between the bounds belongs to the condition and joins nothing. -/
theorem writes_between {low high : Value} (hname : Sql.isPlainName (m.columnName field) = true)
    (hlow : low.isScalar = true) (hhigh : high.isScalar = true) (negated : Bool) :
    Writes ((between negated field low high).text m)
      (.predicate ((between negated field low high).reading m)) := by
  have htext : (between negated field low high).text m =
      m.columnName field ++ " " ++ (negation negated ++ "between") ++ " " ++ low.literal ++ " " ++
        "and" ++ " " ++ high.literal := by
    have hword : "between " = "between" ++ " " := rfl
    have hand : " and " = " " ++ "and" ++ " " := rfl
    simp only [text, hword, hand, String.append_assoc]
  have hand : tokens? "and" = some [.keyword .and] := by decide +kernel
  have htokens := Sql.tokens?_blank (Sql.tokens?_blank (Sql.tokens?_blank (Sql.tokens?_blank
    (Sql.tokens?_name hname) (tokens?_negation_between negated)) (Value.tokens?_literal hlow))
    hand) (Value.tokens?_literal hhigh)
  rw [htext]
  apply Writes.of_predicate? htokens
  intro rest
  cases negated <;> rfl

theorem writes_like (hname : Sql.isPlainName (m.columnName field) = true) (negated : Bool)
    (openness : Openness) (value : Value) :
    Writes ((like negated openness field value).text m)
      (.predicate ((like negated openness field value).reading m)) := by
  have htext : (like negated openness field value).text m =
      m.columnName field ++ " " ++ (negation negated ++ "like binary") ++ " " ++
        Sql.stringLiteral (openness.pattern value.rawText) := by
    have hword : "like binary " = "like binary" ++ " " := rfl
    simp only [text, hword, String.append_assoc]
  have htokens := Sql.tokens?_blank (Sql.tokens?_blank (Sql.tokens?_name hname)
    (tokens?_negation_like negated))
    (Sql.tokens?_stringLiteral (openness.pattern value.rawText))
  rw [htext]
  apply Writes.of_predicate? htokens
  intro rest
  cases negated <;> rfl

theorem writes_isNull (hname : Sql.isPlainName (m.columnName field) = true) (negated : Bool) :
    Writes ((isNull negated field).text m) (.predicate ((isNull negated field).reading m)) := by
  have htext : (isNull negated field).text m =
      m.columnName field ++ " " ++ ("is " ++ negation negated ++ "null") := by
    have hword : " is " = " " ++ "is " := rfl
    simp only [text, hword, String.append_assoc]
  have htokens := Sql.tokens?_blank (Sql.tokens?_name hname) (tokens?_negation_null negated)
  rw [htext]
  apply Writes.of_predicate? htokens
  intro rest
  cases negated <;> rfl

/-- A value that is no empty list has a list in the text. -/
theorem text_among {values : Value} (h : values.members ≠ []) (negated : Bool) :
    (among negated field values).text m =
      m.columnName field ++ " " ++ (negation negated ++ "in") ++ " " ++
        ("(" ++ values.literal ++ ")") := by
  have hlist : listText? values = some values.literal := by
    cases values with
    | list items => cases items <;> simp_all [listText?, Value.members]
    | _ => rfl
  have hword : "in (" = "in" ++ " " ++ "(" := rfl
  simp only [text, hlist, hword, String.append_assoc]

theorem writes_among {values : Value} (hname : Sql.isPlainName (m.columnName field) = true)
    (hvalues : ∀ v ∈ values.members, v.isScalar = true) (negated : Bool) :
    Writes ((among negated field values).text m)
      (.predicate ((among negated field values).reading m)) := by
  by_cases hempty : values.members = []
  · have hlist : values = .list [] := by
      cases values <;> simp_all [Value.members]
    have hreading : (among negated field values).reading m = .constant negated := by
      simp [reading, hempty]
    rw [hreading, hlist]
    apply Writes.of_predicate? (tokens?_constant negated)
    intro rest
    cases negated <;> rfl
  · have hreading : (among negated field values).reading m =
        .among negated (m.columnName field) (values.members.map Value.scalar) := by
      simp [reading, hempty]
    have hscalars : values.members.map Value.scalar ≠ [] := by simpa using hempty
    have htokens := Sql.tokens?_blank (Sql.tokens?_blank (Sql.tokens?_name hname)
      (tokens?_negation_among negated)) (Sql.tokens?_parens (Value.tokens?_literal_members hvalues)).1
    rw [text_among hempty, hreading]
    apply Writes.of_predicate? htokens
    intro rest
    have hitems := Sql.items?_intersperse hscalars rest
    cases negated <;> simp [-List.map_map, notTokens, Sql.predicate?, Sql.negatable?, hitems]

theorem writes_includes (hname : Sql.isPlainName (m.columnName field) = true) (document : Json) :
    Writes ((includes field document).text m)
      (.predicate ((includes field document).reading m)) := by
  have htext : (includes field document).text m =
      Sql.includesName ++
        ("(" ++ (m.columnName field ++ ", " ++ Sql.stringLiteral document.text) ++ ")") := by
    have hword : "json_contains(" = Sql.includesName ++ "(" := rfl
    simp only [text, hword, String.append_assoc]
  have hfunction : tokens? Sql.includesName = some [.name Sql.includesName] := by decide +kernel
  obtain ⟨hparens, hapart⟩ := Sql.tokens?_parens
    (Sql.tokens?_comma (Sql.tokens?_name hname) (Sql.tokens?_stringLiteral document.text))
  rw [htext]
  exact Writes.of_predicate? (Sql.tokens?_append hfunction hparens hapart) fun _ => rfl

/-- The text of a condition is read as that condition. -/
theorem writes {c : Condition} (h : c.isReadable m = true) :
    Writes (c.text m) (.predicate (c.reading m)) := by
  cases c with
  | compare op field value =>
      simp only [isReadable, Bool.and_eq_true] at h
      exact writes_compare h.1 h.2 op
  | between negated field low high =>
      simp only [isReadable, Bool.and_eq_true] at h
      exact writes_between h.1.1 h.1.2 h.2 negated
  | like negated openness field value => exact writes_like h negated openness value
  | isNull negated field => exact writes_isNull h negated
  | among negated field values =>
      simp only [isReadable, Bool.and_eq_true, List.all_eq_true] at h
      exact writes_among h.1 h.2 negated
  | includes field document => exact writes_includes h document

end Condition

/-! ## Chains -/

/-- The conditions of a chain and of the groups in it, from left to right. -/
def conditions : List Link → List Condition
  | [] => []
  | .connector _ :: links => conditions links
  | .condition c :: links => c :: conditions links
  | .group sub :: links => conditions sub ++ conditions links

/-- The alternatives that formulas in a row make, each behind its connector, the first without
one. -/
def joinFormulas : List (Connector × Formula) → List (List Formula)
  | [] => []
  | [(_, f)] => [[f]]
  | (_, f) :: (c, next) :: rest => joinFormula f c (joinFormulas ((c, next) :: rest))

/-- What the links of a chain read as, each formula behind the connector that stands last in front
of it; `c` is the connector in force in front of the chain.  A group without a condition reads as
nothing. -/
def formulas (m : Mapping) (c : Connector) : List Link → List (Connector × Formula)
  | [] => []
  | .connector next :: links => formulas m next links
  | .condition condition :: links =>
      (c, .predicate (condition.reading m)) :: formulas m .and links
  | .group sub :: links =>
      match formulas m .and sub with
      | [] => formulas m c links
      | inner => (c, .group (joinFormulas inner)) :: formulas m .and links

/-- A fragment of a text and the formula that it is read as have the same connector. -/
def Alike (fragment : Connector × String) (formula : Connector × Formula) : Prop :=
  fragment.1 = formula.1 ∧ Writes fragment.2 formula.2

/-- The text of formulas in a row is read as the alternatives that they make. -/
theorem writesChain_join {fragments : List (Connector × String)}
    {formulas : List (Connector × Formula)} (h : List.Forall₂ Alike fragments formulas)
    (hne : fragments ≠ []) : WritesChain (joinFragments fragments) (joinFormulas formulas) := by
  induction h with
  | nil => exact absurd rfl hne
  | @cons fragment formula fragments formulas hfirst hrest ih =>
      obtain ⟨c, text⟩ := fragment
      obtain ⟨c', f⟩ := formula
      cases hrest with
      | nil => exact hfirst.2.chain
      | @cons next nextFormula fragments formulas hnext hrest =>
          obtain ⟨d, nextText⟩ := next
          obtain ⟨d', g⟩ := nextFormula
          obtain rfl : d = d' := hnext.1
          exact hfirst.2.join d (ih (by simp))

/-- The fragments of a chain are read as its formulas. -/
theorem alike_fragments {m : Mapping} {c : Connector} {links : List Link}
    (h : ∀ condition ∈ conditions links, condition.isReadable m = true) :
    List.Forall₂ Alike (fragments m c links) (formulas m c links) := by
  fun_induction fragments m c links with
  | case1 c => simp [formulas]
  | case2 c next links ih =>
      rw [conditions] at h
      rw [formulas]
      exact ih h
  | case3 c condition links ih =>
      simp only [conditions, List.forall_mem_cons] at h
      rw [formulas]
      exact .cons ⟨rfl, Condition.writes h.1⟩ (ih h.2)
  | case4 c sub links hsub ihsub ih =>
      simp only [conditions, List.forall_mem_append] at h
      have hinner := ihsub h.1
      rw [hsub, List.forall₂_nil_left_iff] at hinner
      rw [formulas, hinner]
      exact ih h.2
  | case5 c sub links hsub ihsub ih =>
      simp only [conditions, List.forall_mem_append] at h
      have hinner := ihsub h.1
      have hgroup := (writesChain_join hinner (by simpa using hsub)).group
      rw [formulas]
      split
      · next hnone =>
        rw [hnone, List.forall₂_nil_right_iff] at hinner
        exact absurd hinner hsub
      · exact .cons ⟨rfl, hgroup⟩ (ih h.2)

/-! ## Operands and structure -/

/-- A condition without what its operands hold; of a list the length is left. -/
def Condition.outline : Condition → Condition
  | compare op field _ => compare op field .null
  | between negated field _ _ => between negated field .null .null
  | like negated openness field _ => like negated openness field .null
  | isNull negated field => isNull negated field
  | among negated field values =>
      among negated field (.list (List.replicate values.members.length .null))
  | includes field _ => includes field .null

/-- Links that differ in what the operands of conditions hold at most. -/
inductive Link.Similar : Link → Link → Prop
  | condition {c c' : Condition} (h : c.outline = c'.outline) :
      Similar (.condition c) (.condition c')
  | connector (c : Connector) : Similar (.connector c) (.connector c)
  | group {links links' : List Link} (h : List.Forall₂ Similar links links') :
      Similar (.group links) (.group links')

/-- What a condition reads as has the structure of the condition. -/
theorem Condition.outline_reading {c c' : Condition} (h : c.outline = c'.outline) (m : Mapping) :
    (c.reading m).outline = (c'.reading m).outline := by
  cases c with
  | among negated field values =>
      cases c' with
      | among negated' field' values' =>
          simp only [outline, among.injEq, Value.list.injEq, List.replicate_inj] at h
          obtain ⟨rfl, rfl, hlength, -⟩ := h
          have hempty : values.members = [] ↔ values'.members = [] := by
            rw [← List.length_eq_zero_iff, ← List.length_eq_zero_iff, hlength]
          by_cases hnil : values'.members = []
          · simp [reading, hempty.2 hnil, hnil]
          · simp [reading, mt hempty.1 hnil, hnil, Predicate.outline, hlength]
      | _ => simp [outline] at h
  | _ => cases c' <;> simp_all [outline, reading, Predicate.outline]

/-- Similar formulas in a row make similar alternatives. -/
theorem similar_joinFormulas {formulas formulas' : List (Connector × Formula)}
    (h : List.Forall₂ (fun a b => a.1 = b.1 ∧ a.2.Similar b.2) formulas formulas') :
    Sql.Similar (joinFormulas formulas) (joinFormulas formulas') := by
  induction h with
  | nil => exact .nil
  | @cons formula formula' formulas formulas' hfirst hrest ih =>
      obtain ⟨c, f⟩ := formula
      obtain ⟨c', f'⟩ := formula'
      cases hrest with
      | nil => exact .cons (.cons hfirst.2 .nil) .nil
      | @cons next next' formulas formulas' hnext hrest =>
          obtain ⟨d, g⟩ := next
          obtain ⟨d', g'⟩ := next'
          obtain rfl : d = d' := hnext.1
          exact Sql.Similar.joinFormula hfirst.2 d ih

/-- What similar chains read as is similar. -/
theorem similar_formulas {m : Mapping} {c : Connector} {links links' : List Link}
    (h : List.Forall₂ Link.Similar links links') :
    List.Forall₂ (fun a b => a.1 = b.1 ∧ a.2.Similar b.2) (formulas m c links)
      (formulas m c links') := by
  fun_induction formulas m c links generalizing links' with
  | case1 c =>
      cases h
      simp [formulas]
  | case2 c next links ih =>
      cases h with
      | cons hfirst hrest =>
          cases hfirst
          rw [formulas]
          exact ih hrest
  | case3 c condition links ih =>
      cases h with
      | cons hfirst hrest =>
          cases hfirst with
          | condition hcondition =>
              rw [formulas]
              exact .cons ⟨rfl, .predicate (Condition.outline_reading hcondition m)⟩ (ih hrest)
  | case4 c sub links hsub ihsub ih =>
      cases h with
      | cons hfirst hrest =>
          cases hfirst with
          | group hgroup =>
              have hinner := ihsub hgroup
              rw [hsub, List.forall₂_nil_left_iff] at hinner
              rw [formulas, hinner]
              exact ih hrest
  | case5 c sub links hsub ihsub ih =>
      cases h with
      | cons hfirst hrest =>
          cases hfirst with
          | group hgroup =>
              have hinner := ihsub hgroup
              rw [formulas]
              split
              · next hnone =>
                rw [hnone, List.forall₂_nil_right_iff] at hinner
                exact absurd hinner hsub
              · exact .cons ⟨rfl, .group (similar_joinFormulas hinner)⟩ (ih hrest)

namespace Query

/-- What the condition of a query reads as; a query without a condition has no alternatives. -/
def reading (m : Mapping) (q : Query) : List (List Formula) := joinFormulas (formulas m .and q.links)

/-- The condition of a query is read as what the query stands for, if all conditions in it are on
plain names and have scalars for their operands. -/
theorem read?_whereText_of_isReadable {m : Mapping} {q : Query}
    (h : ∀ condition ∈ conditions q.links, condition.isReadable m = true) :
    Sql.read? (q.whereText m) = some (q.reading m) := by
  have halike : List.Forall₂ Alike (fragments m .and q.links) (formulas m .and q.links) :=
    alike_fragments h
  rw [whereText, reading]
  by_cases hempty : fragments m .and q.links = []
  · rw [hempty, List.forall₂_nil_left_iff] at halike
    rw [hempty, halike]
    rfl
  · exact (writesChain_join halike hempty).read?

/-- Queries that differ in what the operands of conditions hold at most. -/
def Similar (q q' : Query) : Prop := List.Forall₂ Link.Similar q.links q'.links

/-! ## Built queries -/

/-- The queries that calls of the builder make when every field is kept in a column with a plain
name and every operand is a scalar or null.  Patterns may be made from any value, and documents
are encoded. -/
inductive Built (m : Mapping) : Query → Prop
  | empty : Built m .empty
  | compare {q : Query} {field : String} {value : Value} (h : Built m q) (op : Comparison)
      (hname : Sql.isPlainName (m.columnName field) = true)
      (hvalue : value.isNull = true ∨ value.isScalar = true) : Built m (q.compare op field value)
  | between {q : Query} {field : String} {low high : Value} (h : Built m q) (negated : Bool)
      (hname : Sql.isPlainName (m.columnName field) = true)
      (hlow : low.isNull = true ∨ low.isScalar = true)
      (hhigh : high.isNull = true ∨ high.isScalar = true) :
      Built m (q.between negated field low high)
  | like {q : Query} {field : String} (h : Built m q) (negated : Bool) (openness : Openness)
      (value : Value) (hname : Sql.isPlainName (m.columnName field) = true) :
      Built m (q.like negated openness field value)
  | isNull {q : Query} {field : String} (h : Built m q) (negated : Bool)
      (hname : Sql.isPlainName (m.columnName field) = true) : Built m (q.isNull negated field)
  | among {q : Query} {field : String} {values : Value} (h : Built m q) (negated : Bool)
      (hname : Sql.isPlainName (m.columnName field) = true)
      (hvalues : values.isNull = true ∨ ∀ v ∈ values.members, v.isScalar = true) :
      Built m (q.among negated field values)
  | includes {q : Query} {field : String} (h : Built m q) (document : Json)
      (hname : Sql.isPlainName (m.columnName field) = true) : Built m (q.includes field document)
  | nested {q sub : Query} (h : Built m q) (hsub : Built m sub) : Built m (q.nested sub)
  | connect {q : Query} (h : Built m q) (c : Connector) : Built m (q.connect c)
  | withGroupBy {q : Query} (h : Built m q) (fields : List String) : Built m (q.withGroupBy fields)
  | withOrderBy {q : Query} (h : Built m q) (order : Order) (fields : List String) :
      Built m (q.withOrderBy order fields)

theorem conditions_append (links more : List Link) :
    conditions (links ++ more) = conditions links ++ conditions more := by
  induction links with
  | nil => simp [conditions]
  | cons link links ih => cases link <;> simp [conditions, ih]

/-- Connectors hold no conditions. -/
theorem conditions_dropConnector (links : List Link) :
    conditions (dropConnector links) = conditions links := by
  unfold dropConnector
  split
  · next link hlast =>
    split
    · next hconnector =>
      obtain ⟨front, rfl⟩ := List.getLast?_eq_some_iff.1 hlast
      cases link with
      | connector c => simp [conditions_append, conditions]
      | _ => simp [Link.isConnector] at hconnector
    · rfl
  · rfl

/-- Appending a link adds the conditions in it. -/
theorem isReadable_append {m : Mapping} {q : Query} {link : Link}
    (h : ∀ condition ∈ conditions q.links, condition.isReadable m = true)
    (hlink : ∀ condition ∈ conditions [link], condition.isReadable m = true) :
    ∀ condition ∈ conditions (q.append link).links, condition.isReadable m = true := by
  have hlinks : conditions (q.append link).links = conditions q.links ++ conditions [link] := by
    have happend : (q.append link).links = q.links ++ [link] ++ [.connector .and] := by
      simp [append]
    rw [happend, conditions_append, conditions_append]
    simp [conditions]
  rw [hlinks, List.forall_mem_append]
  exact ⟨h, hlink⟩

/-- A built query has readable conditions only. -/
theorem Built.isReadable {m : Mapping} {q : Query} (h : q.Built m) :
    ∀ condition ∈ conditions q.links, condition.isReadable m = true := by
  induction h with
  | empty => simp [Query.empty, conditions]
  | @compare q field value _ op hname hvalue ih =>
      rw [Query.compare, appendUnlessNull]
      split
      · exact ih
      · next hnull =>
        apply isReadable_append ih
        simp [conditions, Condition.isReadable, hname, hvalue.resolve_left hnull]
  | @between q field low high _ negated hname hlow hhigh ih =>
      rw [Query.between]
      split
      · exact ih
      · next hnull =>
        rw [Bool.or_eq_true, not_or] at hnull
        have hlow := hlow.resolve_left hnull.1
        have hhigh := hhigh.resolve_left hnull.2
        apply isReadable_append ih
        simp [conditions, Condition.isReadable, hname, hlow, hhigh]
  | @like q field _ negated openness value hname ih =>
      rw [Query.like, appendUnlessNull]
      split
      · exact ih
      · apply isReadable_append ih
        simpa [conditions, Condition.isReadable] using hname
  | @isNull q field _ negated hname ih =>
      apply isReadable_append ih
      simpa [conditions, Condition.isReadable] using hname
  | @among q field values _ negated hname hvalues ih =>
      rw [Query.among, appendUnlessNull]
      split
      · exact ih
      · next hnull =>
        apply isReadable_append ih
        simpa [conditions, Condition.isReadable, hname] using hvalues.resolve_left hnull
  | @includes q field _ document hname ih =>
      rw [Query.includes]
      split
      · exact ih
      · apply isReadable_append ih
        simpa [conditions, Condition.isReadable] using hname
  | @nested q sub _ _ ih ihsub =>
      apply isReadable_append ih
      simpa [conditions] using ihsub
  | @connect q _ c ih =>
      have hlinks : conditions (q.connect c).links = conditions q.links := by
        rw [← conditions_dropConnector q.links]
        by_cases hdrop : dropConnector q.links = []
        · simp [Query.connect, hdrop]
        · have hconnect : (q.connect c).links = dropConnector q.links ++ [.connector c] := by
            simp [Query.connect, hdrop]
          rw [hconnect, conditions_append]
          simp [conditions]
      rwa [hlinks]
  | withGroupBy _ _ ih => exact ih
  | withOrderBy _ _ _ ih => exact ih

/-- The groups that ask for all fields of an object or for some of them are built from
comparisons. -/
theorem Built.everyEq {m : Mapping} {q : Query} (h : q.Built m) {object : Json}
    {fields : List (String × Value)} (hfields : objectFields object = .ok fields)
    (hplain : ∀ f ∈ fields, Sql.isPlainName (m.columnName f.1) = true ∧ f.2.isScalar = true) :
    ∃ every any, q.everyEq object = .ok every ∧ q.someEq object = .ok any ∧
      every.Built m ∧ any.Built m := by
  have hfold : ∀ sub : Query, sub.Built m →
      (fields.foldl (fun sub f => sub.eq f.1 f.2) sub).Built m ∧
        (fields.foldl (fun sub f => sub.or.eq f.1 f.2) sub).Built m := by
    clear hfields
    induction fields with
    | nil => exact fun sub hsub => ⟨hsub, hsub⟩
    | cons f fields ih =>
        intro sub hsub
        rw [List.forall_mem_cons] at hplain
        obtain ⟨⟨hname, hvalue⟩, hrest⟩ := hplain
        constructor
        · exact (ih hrest _ (hsub.compare .eq hname (.inr hvalue))).1
        · exact (ih hrest _ ((hsub.connect .or).compare .eq hname (.inr hvalue))).2
  refine ⟨_, _, ?_, ?_, h.nested (hfold _ .empty).1, h.nested (hfold _ .empty).2⟩
  · rw [Query.everyEq, hfields]
    rfl
  · rw [Query.someEq, hfields]
    rfl

/-- The condition of a built query is read to its end, as what the query stands for; and no operand
has a part in the structure of what is read. -/
theorem Built.read?_whereText {m : Mapping} {q : Query} (h : q.Built m) :
    Sql.read? (q.whereText m) = some (q.reading m) ∧
      ∀ q' : Query, q'.Built m → q.Similar q' →
        ∃ alternatives, Sql.read? (q'.whereText m) = some alternatives ∧
          Sql.Similar (q.reading m) alternatives := by
  constructor
  · exact read?_whereText_of_isReadable h.isReadable
  · intro q' h' hsimilar
    exact ⟨q'.reading m, read?_whereText_of_isReadable h'.isReadable,
      similar_joinFormulas (similar_formulas hsimilar)⟩

/-- A mapping with a property that is kept in a column of another name. -/
def titles : Mapping := Mapping.empty.withColumn "title" "post_title"

/-- A query whose operands look like SQL, with a group and with an empty group behind it. -/
def guarded : Query :=
  let sub := (empty.like false .both "note" (.string "50%\n")).or
  let sub := sub.among true "kind" (.list [.int (-3), .bool true, .string ") or ("])
  let q := ((empty.compare .eq "title" (.string "a' or 1 = 1 \\")).or.nested sub).nested empty
  (q.isNull true "parent").between false "rank" (.uint 1) (.string "1 and 2")

/-- The guarded query is built from scalars, and it is read as what it stands for. -/
theorem read?_whereText_guarded :
    guarded.Built titles ∧
      Sql.read? (guarded.whereText titles) =
        some [[.predicate (.compare .eq "post_title" (.text "a' or 1 = 1 \\"))],
          [.group [[.predicate (.like false "note" "%50%\n%")],
            [.predicate (.among true "kind" [.int (-3), .bool true, .text ") or ("])]],
          .predicate (.isNull true "parent"),
          .predicate (.between false "rank" (.int 1) (.text "1 and 2"))]] := by
  have hsub : ((((empty.like false .both "note" (.string "50%\n")).or).among true "kind"
      (.list [.int (-3), .bool true, .string ") or ("])).Built titles) :=
    ((Built.empty.like false .both _ (by decide +kernel)).connect .or).among true
      (by decide +kernel) (.inr (by decide +kernel))
  have hbuilt : guarded.Built titles :=
    (((((Built.empty.compare .eq (by decide +kernel) (.inr rfl)).connect .or).nested hsub).nested
      .empty).isNull true (by decide +kernel)).between false (by decide +kernel) (.inr rfl) (.inr rfl)
  refine ⟨hbuilt, (Built.read?_whereText hbuilt).1.trans (congrArg some ?_)⟩
  have hlinks : guarded.links =
      [.condition (.compare .eq "title" (.string "a' or 1 = 1 \\")), .connector .or,
        .group [.condition (.like false .both "note" (.string "50%\n")), .connector .or,
          .condition (.among true "kind" (.list [.int (-3), .bool true, .string ") or ("])),
          .connector .and],
        .connector .and, .group [], .connector .and, .condition (.isNull true "parent"),
        .connector .and, .condition (.between false "rank" (.uint 1) (.string "1 and 2")),
        .connector .and] := by
    rfl
  have hcolumns : titles.columnName "title" = "post_title" ∧ titles.columnName "note" = "note" ∧
      titles.columnName "kind" = "kind" ∧ titles.columnName "parent" = "parent" ∧
      titles.columnName "rank" = "rank" := by
    decide +kernel
  obtain ⟨htitle, hnote, hkind, hparent, hrank⟩ := hcolumns
  simp [reading, hlinks, formulas, joinFormulas, joinFormula, Condition.reading, htitle, hnote,
    hkind, hparent, hrank, Value.scalar, Value.members, Openness.pattern, Value.rawText]

end Query

end Persistence
