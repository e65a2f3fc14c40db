import Persistence.Proofs.Sql.Tokens

/-!
# Reading SQL conditions

The grammar of conditions over tokens, by recursive descent.  Each reader returns what it has read
and the tokens behind it.  A chain is one or more formulas with connectors between them, and `and`
binds tighter than `or`: a chain is read as the alternatives that `or` separates, each of which is
a row of formulas that `and` joins.  A parenthesis opens a chain of its own.

Two relations say that a text is read as something.  `Writes` is about single formulas and
`WritesChain` about chains; both hold with any tokens behind the text, as far as a chain does not
go on there.

Main results:

- `Writes.chain`, `Writes.join`, `WritesChain.group`: the text of a chain is read from the texts of
  its formulas, and a chain in parentheses is read as one formula.
- `WritesChain.read?`: a text of a chain is read to its end.
-/

namespace Persistence.Sql

/-- A condition as it is read.  A negated one has `not` in it; a comparison of two integers is a
constant. -/
inductive Predicate
  | compare (op : Comparison) (column : String) (value : Scalar)
  | between (negated : Bool) (column : String) (low high : Scalar)
  | like (negated : Bool) (column : String) (pattern : String)
  | isNull (negated : Bool) (column : String)
  | among (negated : Bool) (column : String) (values : List Scalar)
  | includes (column : String) (document : String)
  | constant (truth : Bool)
deriving DecidableEq

/-- A condition or a group in parentheses, with the alternatives of the group. -/
inductive Formula
  | predicate (p : Predicate)
  | group (alternatives : List (List Formula))

/-- Put a formula and a connector in front of alternatives: `and` joins the formula to the first
alternative, `or` makes it one of its own. -/
def joinFormula (f : Formula) : Connector → List (List Formula) → List (List Formula)
  | .and, first :: others => (f :: first) :: others
  | .and, [] => [[f]]
  | .or, alternatives => [f] :: alternatives

/-! ## Structure -/

/-- A condition without what its operands hold; of a list the length is left. -/
def Predicate.outline : Predicate → Predicate
  | compare op column _ => compare op column (.bool true)
  | between negated column _ _ => between negated column (.bool true) (.bool true)
  | like negated column _ => like negated column ""
  | isNull negated column => isNull negated column
  | among negated column values => among negated column (List.replicate values.length (.bool true))
  | includes column _ => includes column ""
  | constant truth => constant truth

/-- Formulas that differ in what the operands hold at most. -/
inductive Formula.Similar : Formula → Formula → Prop
  | predicate {p p' : Predicate} (h : p.outline = p'.outline) : Similar (.predicate p) (.predicate p')
  | group {alternatives alternatives' : List (List Formula)}
      (h : List.Forall₂ (List.Forall₂ Similar) alternatives alternatives') :
      Similar (.group alternatives) (.group alternatives')

/-- Alternatives that differ in what the operands hold at most. -/
def Similar : List (List Formula) → List (List Formula) → Prop :=
  List.Forall₂ (List.Forall₂ Formula.Similar)

theorem Similar.joinFormula {f f' : Formula} {alternatives alternatives' : List (List Formula)}
    (hf : f.Similar f') (c : Connector) (h : Similar alternatives alternatives') :
    Similar (joinFormula f c alternatives) (joinFormula f' c alternatives') := by
  cases c with
  | or => exact .cons (.cons hf .nil) h
  | and =>
      cases h with
      | nil => exact .cons (.cons hf .nil) .nil
      | cons hfirst hothers => exact .cons (.cons hf hfirst) hothers

/-! ## Readers -/

/-- The name of the function that looks for a document. -/
def includesName : String := "json_contains"

/-- The literals of a list, up to the closing parenthesis. -/
def items? : List Token → Option (List Scalar × List Token)
  | .literal v :: .closing :: rest => some ([v], rest)
  | .literal v :: .comma :: rest => (items? rest).map fun (vs, rest) => (v :: vs, rest)
  | _ => none

/-- A condition that may be negated, behind its column and the `not`. -/
def negatable? (negated : Bool) (column : String) : List Token → Option (Predicate × List Token)
  | .keyword .between :: .literal low :: .keyword .and :: .literal high :: rest =>
      some (.between negated column low high, rest)
  | .keyword .like :: .keyword .binary :: .literal (.text pattern) :: rest =>
      some (.like negated column pattern, rest)
  | .keyword .among :: .opening :: rest =>
      (items? rest).map fun (vs, rest) => (.among negated column vs, rest)
  | _ => none

/-- A condition. -/
def predicate? : List Token → Option (Predicate × List Token)
  | .literal (.int a) :: .comparison .eq :: .literal (.int b) :: rest =>
      some (.constant (a == b), rest)
  | .name f :: .opening :: .name column :: .comma :: .literal (.text document) :: .closing ::
      rest => if f = includesName then some (.includes column document, rest) else none
  | .name column :: .comparison op :: .literal v :: rest => some (.compare op column v, rest)
  | .name column :: .keyword .is :: .keyword .null :: rest => some (.isNull false column, rest)
  | .name column :: .keyword .is :: .keyword .not :: .keyword .null :: rest =>
      some (.isNull true column, rest)
  | .name column :: .keyword .not :: rest => negatable? true column rest
  | .name column :: rest => negatable? false column rest
  | _ => none

/-- A connector. -/
def connector? : List Token → Option (Connector × List Token)
  | .keyword .and :: rest => some (.and, rest)
  | .keyword .or :: rest => some (.or, rest)
  | _ => none

/-- A condition or a group, where `chain` reads the inside of a group. -/
def formula? (chain : List Token → Option (List (List Formula) × List Token)) :
    List Token → Option (Formula × List Token)
  | .opening :: rest =>
      match chain rest with
      | some (alternatives, .closing :: rest) => some (.group alternatives, rest)
      | _ => none
  | ts => (predicate? ts).map fun (p, rest) => (.predicate p, rest)

/-- The alternatives of a chain.  The number bounds the formulas in a row and the groups inside of
each other; there are no more of either than tokens. -/
def chain? : Nat → List Token → Option (List (List Formula) × List Token)
  | 0, _ => none
  | n + 1, ts => do
      let (f, rest) ← formula? (chain? n) ts
      match connector? rest with
      | none => some ([[f]], rest)
      | some (c, rest) => do
          let (alternatives, rest) ← chain? n rest
          some (joinFormula f c alternatives, rest)

/-- The alternatives that a text is read as, from its beginning to its end; the empty text has
none. -/
def read? (text : String) : Option (List (List Formula)) := do
  let ts ← tokens? text
  if ts.isEmpty then some []
  else
    match chain? ts.length ts with
    | some (alternatives, []) => some alternatives
    | _ => none

/-! ## Texts of formulas and of chains -/

/-- A text is read as a formula, whatever follows. -/
def Writes (text : String) (f : Formula) : Prop :=
  ∃ ts, tokens? text = some ts ∧
    ∀ n, ts.length ≤ n + 1 → ∀ rest, formula? (chain? n) (ts ++ rest) = some (f, rest)

/-- A text is read as a chain, if no connector follows. -/
def WritesChain (text : String) (alternatives : List (List Formula)) : Prop :=
  ∃ ts, tokens? text = some ts ∧
    ∀ n, ts.length ≤ n → ∀ rest, connector? rest = none →
      chain? n (ts ++ rest) = some (alternatives, rest)

variable {text more : String} {f : Formula} {alternatives : List (List Formula)}

/-- The text of a condition. -/
theorem Writes.of_predicate? {p : Predicate} {ts : List Token} (htext : tokens? text = some ts)
    (hread : ∀ rest, predicate? (ts ++ rest) = some (p, rest)) : Writes text (.predicate p) := by
  refine ⟨ts, htext, ?_⟩
  intro n _ rest
  have hnot : ∀ us, ts ++ rest ≠ .opening :: us := by
    intro us hus
    have hnone := hread rest
    rw [hus] at hnone
    exact absurd hnone (by simp [predicate?])
  rw [formula?.eq_def]
  split
  · next us hus => exact absurd hus (hnot us)
  · rw [hread rest]
    rfl

/-- Literals with commas between them are read as a list, up to the closing parenthesis. -/
theorem items?_intersperse {vs : List Scalar} (h : vs ≠ []) (rest : List Token) :
    items? ((vs.map Token.literal).intersperse .comma ++ .closing :: rest) = some (vs, rest) := by
  induction vs with
  | nil => exact absurd rfl h
  | cons v vs ih =>
      cases vs with
      | nil => rfl
      | cons w vs =>
          simp only [List.map_cons, List.intersperse_cons_cons, List.cons_append] at ih ⊢
          simp [items?, ih]

/-- No formula is read from no tokens. -/
theorem length_pos_of_formula? {ts : List Token}
    (h : ∀ n, ts.length ≤ n + 1 → ∀ rest, formula? (chain? n) (ts ++ rest) = some (f, rest)) :
    0 < ts.length := by
  cases ts with
  | nil => simpa [formula?, predicate?] using h 0 (by simp) []
  | cons t ts => simp

/-- A formula is a chain by itself. -/
theorem Writes.chain (h : Writes text f) : WritesChain text [[f]] := by
  obtain ⟨ts, htext, hread⟩ := h
  refine ⟨ts, htext, ?_⟩
  intro n hn rest hrest
  cases n with
  | zero => exact absurd (length_pos_of_formula? hread) (by omega)
  | succ n => simp [chain?, hread n hn rest, hrest]

theorem tokens?_connector (c : Connector) :
    ∃ ts, tokens? c.text = some ts ∧ ts.length = 1 ∧
      ∀ rest, connector? (ts ++ rest) = some (c, rest) := by
  cases c with
  | and => exact ⟨[.keyword .and], by decide +kernel, rfl, fun _ => rfl⟩
  | or => exact ⟨[.keyword .or], by decide +kernel, rfl, fun _ => rfl⟩

/-- A formula, a connector and a chain in a row are a chain. -/
theorem Writes.join (h : Writes text f) (c : Connector) (hmore : WritesChain more alternatives) :
    WritesChain (text ++ " " ++ c.text ++ " " ++ more) (joinFormula f c alternatives) := by
  obtain ⟨ts, htext, hread⟩ := h
  obtain ⟨us, hus, hlength, hconnector⟩ := tokens?_connector c
  obtain ⟨vs, hvs, hchain⟩ := hmore
  refine ⟨ts ++ us ++ vs, tokens?_blank (tokens?_blank htext hus) hvs, ?_⟩
  intro n hn rest hrest
  have hpos := length_pos_of_formula? hread
  simp only [List.length_append, hlength] at hn
  cases n with
  | zero => omega
  | succ n =>
      have hformula := hread n (by omega) (us ++ (vs ++ rest))
      simp only [List.append_assoc]
      simp [chain?, hformula, hconnector, hchain n (by omega) rest hrest]

/-- A chain in parentheses is a formula. -/
theorem WritesChain.group (h : WritesChain text alternatives) :
    Writes ("(" ++ text ++ ")") (.group alternatives) := by
  obtain ⟨ts, htext, hread⟩ := h
  refine ⟨.opening :: ts ++ [.closing], (tokens?_parens htext).1, ?_⟩
  intro n hn rest
  simp only [List.cons_append, List.length_cons, List.length_append, List.length_nil] at hn
  have hchain := hread n (by omega) (.closing :: rest) rfl
  simp only [List.cons_append, List.append_assoc, List.nil_append]
  simp [formula?, hchain]

/-- The text of a chain is read to its end. -/
theorem WritesChain.read? (h : WritesChain text alternatives) : read? text = some alternatives := by
  obtain ⟨ts, htext, hread⟩ := h
  have hchain := hread ts.length le_rfl [] rfl
  rw [List.append_nil] at hchain
  cases ts with
  | nil => simp [chain?] at hchain
  | cons t ts =>
      simp only [Sql.read?, htext, Option.bind_eq_bind, Option.bind_some, hchain]
      rfl

end Persistence.Sql
