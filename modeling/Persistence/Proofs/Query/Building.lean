import Persistence.Proofs.Query.Reading

/-!
# Building queries

The calls that build a query are values here.  Whatever a call is made with, it comes down to a few
edits of the links: a link is appended with an `and` behind it, or a connector is put in the place
of the one at the end.  What is true of every chain that calls can build is proved of the edits.

Main results:

- `BuilderCall.map_links_apply`, `BuilderCall.map_links_applyAll`: what calls do to the links.
- `Query.Made.alternates`: in a chain that was built, every item has a connector behind it.
-/

namespace Persistence

/-! ## Edits -/

/-- A change at the end of a chain. -/
inductive Edit
  /-- Append a link and an `and` behind it. -/
  | append (link : Link)
  /-- Put a connector in place of the one at the end; an empty chain takes none. -/
  | connect (c : Connector)

namespace Edit

/-- A chain behind an edit. -/
def apply (links : List Link) : Edit → List Link
  | append link => links ++ [link, .connector .and]
  | connect c =>
      if (Query.dropConnector links).isEmpty then []
      else Query.dropConnector links ++ [.connector c]

/-- A chain behind some edits. -/
def run (edits : List Edit) (links : List Link) : List Link := edits.foldl apply links

@[simp] theorem run_nil (links : List Link) : run [] links = links := rfl

@[simp] theorem run_cons (e : Edit) (edits : List Edit) (links : List Link) :
    run (e :: edits) links = run edits (e.apply links) := rfl

@[simp] theorem run_append (edits more : List Edit) (links : List Link) :
    run (edits ++ more) links = run more (run edits links) := List.foldl_append

theorem apply_connect_concat {front : List Link} (hne : front ≠ []) (k c : Connector) :
    (connect c).apply (front ++ [.connector k]) = front ++ [.connector c] := by
  have hdrop : Query.dropConnector (front ++ [.connector k]) = front := by
    simp [Query.dropConnector, Link.isConnector]
  simp [apply, hdrop, hne]

end Edit

/-! ## Calls -/

/-- Only a null stands for a null. -/
theorem Value.isNull_ofJson (j : Json) : (Value.ofJson j).isNull = j.isNull := by
  cases j with
  | num n =>
      rcases n with ⟨n, _⟩ | ⟨x, _⟩
      · rw [ofJson, ofNumber]
        split <;> rfl
      · rfl
  | _ => rfl

namespace Query

/-- The query for the values of several properties. -/
def allEq (pairs : List (String × Value)) : Query :=
  pairs.foldl (fun q pair => q.eq pair.1 pair.2) empty

/-- The query for one of the values of several properties. -/
def anyEq (pairs : List (String × Value)) : Query :=
  pairs.foldl (fun q pair => q.or.eq pair.1 pair.2) empty

/-- The links that ask for the values of several properties. -/
def eqLinks (pairs : List (String × Value)) : List Link :=
  pairs.flatMap fun pair => [.condition (.compare .eq pair.1 pair.2), .connector .and]

theorem eqLinks_cons (pair : String × Value) (pairs : List (String × Value)) :
    eqLinks (pair :: pairs) =
      .condition (.compare .eq pair.1 pair.2) :: .connector .and :: eqLinks pairs := rfl

/-- The condition on one value of a property. -/
def keyText (column : String) (v : Value) : String := column ++ " = " ++ v.literal

theorem text_compare_eq (m : Mapping) (field : String) (v : Value) :
    (Condition.compare .eq field v).text m = keyText (m.columnName field) v := by
  have hequals : " = " = " " ++ Comparison.eq.text ++ " " := rfl
  rw [keyText, hequals, ← String.append_assoc, ← String.append_assoc]
  rfl

theorem eq_of_isNull_eq_false (q : Query) (field : String) {v : Value} (h : v.isNull = false) :
    q.eq field v =
      { q with links := q.links ++ [.condition (.compare .eq field v), .connector .and] } := by
  simp [Query.eq, compare, appendUnlessNull, h, appendCondition, append]

theorem foldl_eq (q : Query) (pairs : List (String × Value))
    (h : ∀ pair ∈ pairs, pair.2.isNull = false) :
    pairs.foldl (fun q pair => q.eq pair.1 pair.2) q =
      { q with links := q.links ++ eqLinks pairs } := by
  induction pairs generalizing q with
  | nil => simp [eqLinks]
  | cons pair pairs ih =>
      obtain ⟨hv, hpairs⟩ := List.forall_mem_cons.1 h
      rw [List.foldl_cons, ih _ hpairs, eq_of_isNull_eq_false q pair.1 hv]
      simp [eqLinks]

theorem allEq_eq (pairs : List (String × Value)) (h : ∀ pair ∈ pairs, pair.2.isNull = false) :
    allEq pairs = { empty with links := eqLinks pairs } := by
  rw [allEq, foldl_eq empty pairs h]
  rfl

end Query

/-- A call that builds a query. -/
inductive BuilderCall
  | compare (op : Comparison) (field : String) (value : Value)
  | between (negated : Bool) (field : String) (low high : Value)
  | like (negated : Bool) (openness : Openness) (field : String) (value : Value)
  | isNull (negated : Bool) (field : String)
  | among (negated : Bool) (field : String) (values : Value)
  | includes (field : String) (document : Json)
  | connect (c : Connector)
  | nested (sub : Query)
  /-- Append a group behind the given connector. -/
  | connectNested (c : Connector) (sub : Query)
  | everyEq (object : Json)
  | someEq (object : Json)
  | groupBy (fields : List String)
  | orderBy (order : Order) (fields : List String)

namespace BuilderCall

/-- Make a call on a query. -/
def apply (q : Query) : BuilderCall → Except DbError Query
  | compare op field value => .ok (q.compare op field value)
  | between negated field low high => .ok (q.between negated field low high)
  | like negated openness field value => .ok (q.like negated openness field value)
  | isNull negated field => .ok (q.isNull negated field)
  | among negated field values => .ok (q.among negated field values)
  | includes field document => .ok (q.includes field document)
  | connect c => .ok (q.connect c)
  | nested sub => .ok (q.nested sub)
  | connectNested c sub => .ok ((q.connect c).nested sub)
  | everyEq object => q.everyEq object
  | someEq object => q.someEq object
  | groupBy fields => .ok (q.withGroupBy fields)
  | orderBy order fields => .ok (q.withOrderBy order fields)

/-- Make calls one after the other, up to the first that fails. -/
def applyAll : List BuilderCall → Query → Except DbError Query
  | [], q => .ok q
  | c :: calls, q => c.apply q >>= applyAll calls

/-- The query in the arguments of a call. -/
def sub? : BuilderCall → Option Query
  | nested sub => some sub
  | connectNested _ sub => some sub
  | _ => none

/-- Whether a call is a condition that is left open, since an operand of it is null. -/
def isOpen : BuilderCall → Bool
  | compare _ _ value => value.isNull
  | between _ _ low high => low.isNull || high.isNull
  | like _ _ _ value => value.isNull
  | among _ _ values => values.isNull
  | includes _ document => document.isNull
  | _ => false

/-- The condition that a call appends, unless it is left open. -/
def condition? : BuilderCall → Option Condition
  | compare op field value => some (.compare op field value)
  | between negated field low high => some (.between negated field low high)
  | like negated openness field value => some (.like negated openness field value)
  | isNull negated field => some (.isNull negated field)
  | among negated field values => some (.among negated field values)
  | includes field document => some (.includes field document)
  | _ => none

/-- The edits that a call comes down to. -/
def edits (call : BuilderCall) : Except DbError (List Edit) :=
  match call with
  | connect c => .ok [.connect c]
  | nested sub => .ok [.append (.group sub.links)]
  | connectNested c sub => .ok [.connect c, .append (.group sub.links)]
  | everyEq object =>
      (Query.objectFields object).map fun pairs => [.append (.group (Query.allEq pairs).links)]
  | someEq object =>
      (Query.objectFields object).map fun pairs => [.append (.group (Query.anyEq pairs).links)]
  | groupBy _ => .ok []
  | orderBy _ _ => .ok []
  | call =>
      .ok (if call.isOpen then [] else (call.condition?.map fun c => .append (.condition c)).toList)

/-- The edits that calls come down to. -/
def allEdits : List BuilderCall → Except DbError (List Edit)
  | [] => .ok []
  | c :: calls => do return (← c.edits) ++ (← allEdits calls)

section Conditions

variable {c : BuilderCall} {condition : Condition}

theorem apply_of_condition? (h : c.condition? = some condition) (q : Query) :
    c.apply q = .ok (if c.isOpen then q else q.appendCondition condition) := by
  cases c <;> cases h <;> rfl

theorem edits_of_condition? (h : c.condition? = some condition) :
    c.edits = .ok (if c.isOpen then [] else [.append (.condition condition)]) := by
  cases c <;> cases h <;> rfl

/-- A condition that is left open leaves the query as it is. -/
theorem apply_of_isOpen (h : c.isOpen = true) (q : Query) : c.apply q = .ok q := by
  cases hcondition : c.condition? with
  | some condition => rw [apply_of_condition? hcondition, if_pos h]
  | none => cases c <;> simp_all [isOpen, condition?]

end Conditions

/-- What a call does to the links of a query. -/
theorem map_links_apply (c : BuilderCall) (q : Query) :
    Query.links <$> c.apply q = (Edit.run · q.links) <$> c.edits := by
  cases hcondition : c.condition? with
  | some condition =>
      rw [apply_of_condition? hcondition, edits_of_condition? hcondition]
      by_cases hopen : c.isOpen = true
      · simp [hopen]
      · simp [hopen, Query.appendCondition, Query.append, Edit.apply]
  | none =>
      cases c with
      | everyEq object | someEq object =>
          simp only [apply, Query.everyEq, Query.someEq, edits]
          cases Query.objectFields object <;> rfl
      | connect c | nested sub | connectNested c sub | groupBy fields | orderBy order fields => rfl
      | _ => cases hcondition

/-- What calls do to the links of a query. -/
theorem map_links_applyAll (calls : List BuilderCall) (q : Query) :
    Query.links <$> applyAll calls q = (Edit.run · q.links) <$> allEdits calls := by
  induction calls generalizing q with
  | nil => rfl
  | cons c calls ih =>
      calc Query.links <$> applyAll (c :: calls) q
          = c.apply q >>= fun q' => Query.links <$> applyAll calls q' := by
            rw [applyAll, map_bind]
        _ = (Query.links <$> c.apply q) >>= fun links =>
              (Edit.run · links) <$> allEdits calls := by
            simp only [ih, bind_map_left]
        _ = c.edits >>= fun edits =>
              (Edit.run · (Edit.run edits q.links)) <$> allEdits calls := by
            rw [map_links_apply, bind_map_left]
        _ = (Edit.run · q.links) <$> allEdits (c :: calls) := by
            simp only [allEdits, map_bind, bind_pure_comp, Functor.map_map, Edit.run_append]

end BuilderCall

/-! ## Chains -/

/-- Chains in which every item has a connector behind it, and so in their groups. -/
inductive Alternates : List Link → Prop
  | nil : Alternates []
  | condition {links : List Link} (condition : Condition) (c : Connector) :
      Alternates links → Alternates (.condition condition :: .connector c :: links)
  | group {sub links : List Link} (c : Connector) :
      Alternates sub → Alternates links → Alternates (.group sub :: .connector c :: links)

namespace Alternates

variable {links front back : List Link}

theorem append (h : Alternates front) (h' : Alternates back) : Alternates (front ++ back) := by
  induction h with
  | nil => exact h'
  | condition condition c _ ih => exact .condition condition c ih
  | group c hsub _ _ ih => exact .group c hsub ih

/-- A chain with items ends with a connector, which may be another one. -/
theorem exists_concat (h : Alternates links) (hne : links ≠ []) :
    ∃ front c, front ≠ [] ∧ links = front ++ [.connector c] ∧
      ∀ c', Alternates (front ++ [.connector c']) := by
  induction h with
  | nil => exact absurd rfl hne
  | @condition links condition c hlinks ih =>
      by_cases hempty : links = []
      · subst hempty
        exact ⟨[.condition condition], c, by simp, rfl, fun c' => .condition condition c' .nil⟩
      · obtain ⟨front, c', -, rfl, hfront⟩ := ih hempty
        exact ⟨.condition condition :: .connector c :: front, c', by simp, rfl,
          fun c' => .condition condition c (hfront c')⟩
  | @group sub links c hsub hlinks _ ih =>
      by_cases hempty : links = []
      · subst hempty
        exact ⟨[.group sub], c, by simp, rfl, fun c' => .group c' hsub .nil⟩
      · obtain ⟨front, c', -, rfl, hfront⟩ := ih hempty
        exact ⟨.group sub :: .connector c :: front, c', by simp, rfl,
          fun c' => .group c hsub (hfront c')⟩

end Alternates

/-- Edits that append items only, no connectors, with groups in which every item has a connector
behind it. -/
def Edit.AppendsItem : Edit → Prop
  | append (.condition _) => True
  | append (.group sub) => Alternates sub
  | append (.connector _) => False
  | connect _ => True

/-- An edit keeps a connector behind every item. -/
theorem Alternates.edit {links : List Link} (h : Alternates links) {e : Edit}
    (he : e.AppendsItem) : Alternates (e.apply links) := by
  cases e with
  | append link =>
      cases link with
      | condition c => exact h.append (.condition c .and .nil)
      | group sub => exact h.append (.group .and he .nil)
      | connector c => exact he.elim
  | connect c =>
      by_cases hempty : links = []
      · subst hempty
        exact .nil
      · obtain ⟨front, c', hne, rfl, hfront⟩ := h.exists_concat hempty
        rw [Edit.apply_connect_concat hne]
        exact hfront c

theorem Alternates.run {links : List Link} (h : Alternates links) {edits : List Edit}
    (hedits : ∀ e ∈ edits, e.AppendsItem) : Alternates (Edit.run edits links) :=
  List.foldlRecOn edits Edit.apply h fun _ hlinks e he => hlinks.edit (hedits e he)

namespace BuilderCall

/-- A call keeps a connector behind every item, if its edits do. -/
theorem alternates_apply {c : BuilderCall} {q q' : Query} (h : c.apply q = .ok q')
    (hq : Alternates q.links) (hc : ∀ edits, c.edits = .ok edits → ∀ e ∈ edits, e.AppendsItem) :
    Alternates q'.links := by
  have hlinks := c.map_links_apply q
  rw [h] at hlinks
  cases hedits : c.edits with
  | error e =>
      rw [hedits] at hlinks
      cases hlinks
  | ok edits =>
      rw [hedits] at hlinks
      rw [show q'.links = Edit.run edits q.links from Except.ok.inj hlinks]
      exact hq.run (hc edits hedits)

theorem appendsItem_of_condition? {c : BuilderCall} {condition : Condition}
    (h : c.condition? = some condition) {edits : List Edit} (hedits : c.edits = .ok edits) :
    ∀ e ∈ edits, e.AppendsItem := by
  obtain rfl := Except.ok.inj ((edits_of_condition? h).symm.trans hedits)
  intro e he
  split at he
  · cases he
  · obtain rfl := List.mem_singleton.1 he
    trivial

end BuilderCall

namespace Query

/-- A comparison keeps a connector behind every item. -/
theorem alternates_eq {q : Query} (h : Alternates q.links) (field : String) (v : Value) :
    Alternates (q.eq field v).links :=
  BuilderCall.alternates_apply (c := .compare .eq field v) rfl h fun _ =>
    BuilderCall.appendsItem_of_condition? rfl

theorem alternates_allEq (pairs : List (String × Value)) : Alternates (allEq pairs).links :=
  List.foldlRecOn pairs _ (motive := fun q : Query => Alternates q.links) .nil fun _ hq pair _ =>
    alternates_eq hq pair.1 pair.2

theorem alternates_anyEq (pairs : List (String × Value)) : Alternates (anyEq pairs).links :=
  List.foldlRecOn pairs _ (motive := fun q : Query => Alternates q.links) .nil fun _ hq pair _ =>
    alternates_eq (hq.edit (e := .connect .or) trivial) pair.1 pair.2

end Query

/-- The edits of a call append items, if a query in its arguments has connectors behind them. -/
theorem BuilderCall.appendsItem {c : BuilderCall}
    (hsub : ∀ sub, c.sub? = some sub → Alternates sub.links) {edits : List Edit}
    (hedits : c.edits = .ok edits) : ∀ e ∈ edits, e.AppendsItem := by
  have hgroup : ∀ (group : List (String × Value) → Query) (object : Json),
      (∀ pairs, Alternates (group pairs).links) →
      ((Query.objectFields object).map fun pairs => [.append (.group (group pairs).links)]) =
        .ok edits → ∀ e ∈ edits, e.AppendsItem := by
    intro group object hgroup hedits
    cases hfields : Query.objectFields object with
    | error e =>
        rw [hfields] at hedits
        cases hedits
    | ok pairs =>
        rw [hfields] at hedits
        obtain rfl := Except.ok.inj hedits
        simpa [Edit.AppendsItem] using hgroup pairs
  cases hcondition : c.condition? with
  | some condition => exact appendsItem_of_condition? hcondition hedits
  | none =>
      cases c with
      | connect c | groupBy fields | orderBy order fields =>
          obtain rfl := Except.ok.inj hedits
          simp [Edit.AppendsItem]
      | nested sub | connectNested c sub =>
          obtain rfl := Except.ok.inj hedits
          simpa [Edit.AppendsItem] using hsub sub rfl
      | everyEq object => exact hgroup Query.allEq object Query.alternates_allEq hedits
      | someEq object => exact hgroup Query.anyEq object Query.alternates_anyEq hedits
      | _ => cases hcondition

namespace Query

/-- The queries that calls build, with queries in their arguments that were built as well. -/
inductive Made : Query → Prop
  | empty : Made .empty
  | apply {q q' : Query} (c : BuilderCall) :
      Made q → (∀ sub, c.sub? = some sub → Made sub) → c.apply q = .ok q' → Made q'

/-- Calls one after the other build a query. -/
theorem Made.applyAll {calls : List BuilderCall} {q q' : Query} (h : q.Made)
    (hsub : ∀ c ∈ calls, ∀ sub, c.sub? = some sub → Made sub)
    (happly : BuilderCall.applyAll calls q = .ok q') : q'.Made := by
  induction calls generalizing q with
  | nil =>
      obtain rfl := Except.ok.inj happly
      exact h
  | cons c calls ih =>
      obtain ⟨hc, hcalls⟩ := List.forall_mem_cons.1 hsub
      rw [BuilderCall.applyAll] at happly
      cases hfirst : c.apply q with
      | error e =>
          rw [hfirst] at happly
          cases happly
      | ok next =>
          rw [hfirst] at happly
          exact ih (.apply c h hc hfirst) hcalls happly

/-- In a chain that was built, every item has a connector behind it. -/
theorem Made.alternates {q : Query} (h : q.Made) : Alternates q.links := by
  induction h with
  | empty => exact .nil
  | apply c _ _ happly ih ihsub =>
      exact c.alternates_apply happly ih fun _ hedits => c.appendsItem ihsub hedits

end Query

end Persistence
