import Persistence.Proofs.Query.Chaining
import Persistence.Proofs.Query.Scoping
import Persistence.Proofs.Sql.Names

/-!
# The names in queries

A query as a row of parts.  Its clauses name columns and nothing else; everything around the names
is words, operators and literals.  The parts follow the clauses: a condition has one name unless it
is a constant, a group stands in parentheses, and the flag of deleted rows is the first name of a
restricted query.

Main results:

- `Query.textOf_parts`: the clauses of a query are its parts.
- `Query.namesOf_parts`: the names in the clauses of a query.
-/

namespace Persistence

open Sql

variable {m : Mapping}

/-! ## Conditions -/

namespace Condition

/-- A condition by parts. -/
def parts (m : Mapping) : Condition → List Part
  | compare op field value =>
      [.name (m.columnName field), .fixed " ", .fixed (op.text ++ " " ++ value.literal)]
  | between negated field low high =>
      [.name (m.columnName field), .fixed " ",
       .fixed (negation negated ++ "between " ++ low.literal ++ " and " ++ high.literal)]
  | like negated openness field value =>
      [.name (m.columnName field), .fixed " ",
       .fixed (negation negated ++ "like binary " ++
        stringLiteral (openness.pattern value.rawText))]
  | isNull negated field =>
      [.name (m.columnName field), .fixed " is ", .fixed (negation negated ++ "null")]
  | among negated field values =>
      match listText? values with
      | some texts =>
          [.name (m.columnName field), .fixed " ",
           .fixed (negation negated ++ "in (" ++ texts ++ ")")]
      | none => [.fixed (if negated then "1 = 1" else "1 = 0")]
  | includes field document =>
      [.fixed "json_contains(", .name (m.columnName field), .fixed ", ",
       .fixed (stringLiteral document.text ++ ")")]

theorem textOf_parts (c : Condition) : textOf id (c.parts m) = c.text m := by
  cases c with
  | among negated field values =>
      cases hlist : listText? values <;>
        simp [parts, text, hlist, Part.text, String.append_assoc]
  | _ => simp [parts, text, Part.text, String.append_assoc]

/-- The column that a condition names, if it is no constant. -/
def named? (m : Mapping) : Condition → Option String
  | among _ field values => (listText? values).map fun _ => m.columnName field
  | c => some (m.columnName c.field)

theorem namesOf_parts (c : Condition) : namesOf (c.parts m) = (c.named? m).toList := by
  cases c with
  | among negated field values => cases hlist : listText? values <;> simp [parts, named?, hlist]
  | _ => rfl

theorem endsNames_parts (c : Condition) : endsNames false (c.parts m) = true := by
  cases c with
  | among negated field values => cases hlist : listText? values <;> simp [parts, hlist] <;> rfl
  | _ => rfl

theorem eq_of_named? {c : Condition} {name : String} (h : c.named? m = some name) :
    name = m.columnName c.field := by
  cases c with
  | among negated field values =>
      obtain ⟨_, -, rfl⟩ := Option.map_eq_some_iff.1 h
      rfl
  | _ => exact (Option.some.inj h).symm

end Condition

/-! ## Fragments -/

/-- The fragments of a chain in a row, by parts. -/
def joinParts : List (Connector × List Part) → List Part
  | [] => []
  | [(_, parts)] => parts
  | (_, parts) :: (c, next) :: rest =>
      parts ++ .fixed " " :: .fixed (c.text ++ " ") :: joinParts ((c, next) :: rest)

/-- The fragments of a chain, by parts. -/
def fragmentParts (m : Mapping) (c : Connector) : List Link → List (Connector × List Part)
  | [] => []
  | .connector next :: links => fragmentParts m next links
  | .condition condition :: links => (c, condition.parts m) :: fragmentParts m .and links
  | .group sub :: links =>
      match fragmentParts m .and sub with
      | [] => fragmentParts m c links
      | inner => (c, .fixed "(" :: (joinParts inner ++ [.fixed ")"])) :: fragmentParts m .and links

/-- A fragment as text. -/
def fragmentOf (fragment : Connector × List Part) : Connector × String :=
  (fragment.1, textOf id fragment.2)

theorem textOf_joinParts (rows : List (Connector × List Part)) :
    textOf id (joinParts rows) = joinFragments (rows.map fragmentOf) := by
  fun_induction joinParts rows with
  | case1 => rfl
  | case2 => rfl
  | case3 _ parts c next rest ih =>
      rw [textOf_append, textOf_cons, textOf_cons, ih]
      simp [joinFragments, fragmentOf, Part.text, String.append_assoc]

theorem namesOf_joinParts (rows : List (Connector × List Part)) :
    namesOf (joinParts rows) = rows.flatMap fun row => namesOf row.2 := by
  fun_induction joinParts rows with
  | case1 => rfl
  | case2 => simp
  | case3 _ parts c next rest ih => simp [namesOf_append, ih]

theorem endsNames_joinParts {rows : List (Connector × List Part)}
    (h : ∀ row ∈ rows, endsNames false row.2 = true) : endsNames false (joinParts rows) = true := by
  fun_induction joinParts rows with
  | case1 => rfl
  | case2 _ parts => exact h _ List.mem_cons_self
  | case3 _ parts c next rest ih =>
      obtain ⟨hparts, hrest⟩ := List.forall_mem_cons.1 h
      exact endsNames_append hparts (ih hrest)

/-- The fragments of a chain are their parts. -/
theorem fragments_eq (m : Mapping) (c : Connector) (links : List Link) :
    fragments m c links = (fragmentParts m c links).map fragmentOf := by
  fun_induction fragmentParts m c links with
  | case1 c => rw [fragments, List.map_nil]
  | case2 c next links ih => rw [fragments, ih]
  | case3 c condition links ih =>
      rw [fragments, ih, List.map_cons, fragmentOf, condition.textOf_parts]
  | case4 c sub links hsub ihsub ih =>
      rw [fragments, ihsub, hsub]
      exact ih
  | case5 c sub links hsub ihsub ih =>
      rw [fragments, ihsub, ih, List.map_cons]
      split
      · next hnil => exact absurd (List.map_eq_nil_iff.1 hnil) hsub
      · next inner hinner =>
          rw [fragmentOf, textOf_cons, textOf_append, textOf_joinParts]
          simp [Part.text, String.append_assoc]

/-- The names in the fragments of a chain are those of its conditions. -/
theorem namesOf_fragmentParts (m : Mapping) (c : Connector) (links : List Link) :
    ((fragmentParts m c links).flatMap fun row => namesOf row.2) =
      (conditions links).filterMap (Condition.named? m) := by
  fun_induction fragmentParts m c links with
  | case1 c => simp [conditions]
  | case2 c next links ih => rw [ih, conditions]
  | case3 c condition links ih =>
      rw [List.flatMap_cons, ih, condition.namesOf_parts, conditions]
      cases hnamed : condition.named? m <;> simp [hnamed]
  | case4 c sub links hsub ihsub ih =>
      rw [hsub] at ihsub
      rw [ih, conditions, List.filterMap_append, ← ihsub]
      rfl
  | case5 c sub links hsub ihsub ih =>
      rw [List.flatMap_cons, ih, conditions, List.filterMap_append, ← ihsub]
      simp [namesOf_append, namesOf_joinParts]

theorem endsNames_fragmentParts (m : Mapping) (c : Connector) (links : List Link) :
    ∀ row ∈ fragmentParts m c links, endsNames false row.2 = true := by
  fun_induction fragmentParts m c links with
  | case1 c => simp
  | case2 c next links ih => exact ih
  | case3 c condition links ih => exact List.forall_mem_cons.2 ⟨condition.endsNames_parts, ih⟩
  | case4 c sub links hsub ihsub ih => exact ih
  | case5 c sub links hsub ihsub ih =>
      exact List.forall_mem_cons.2 ⟨endsNames_append (endsNames_joinParts ihsub) rfl, ih⟩

/-! ## Queries -/

namespace Query

variable {q : Query}

/-- The condition of a query by parts. -/
def conditionParts (q : Query) (m : Mapping) : List Part :=
  joinParts (fragmentParts m .and q.links)

/-- The condition of a query behind its word, by parts. -/
def whereParts (q : Query) (m : Mapping) (softDelete : Bool) : List Part :=
  if softDelete then
    .fixed " where " :: .name softDeleteColumn ::
      if (q.whereText m).isEmpty then [.fixed " = 0"]
      else .fixed " = 0 and (" :: (q.conditionParts m ++ [.fixed ")"])
  else if (q.whereText m).isEmpty then []
  else .fixed " where " :: q.conditionParts m

/-- The grouping of a query by parts. -/
def groupParts (q : Query) (m : Mapping) : List Part :=
  if q.groupBy.isEmpty then []
  else .fixed " group by " ::
    joined "," (q.groupBy.map fun field => [.name (m.columnName field)])

/-- The ordering of a query by parts. -/
def orderParts (q : Query) (m : Mapping) : List Part :=
  if q.orderBy.isEmpty then []
  else .fixed " order by " ::
    joined "," (q.orderBy.map fun field =>
      [.name (m.columnName field), .fixed " ", .fixed q.order.text])

/-- The clauses of a query by parts. -/
def parts (q : Query) (m : Mapping) (softDelete : Bool) : List Part :=
  q.whereParts m softDelete ++ q.groupParts m ++ q.orderParts m

theorem textOf_conditionParts : textOf id (q.conditionParts m) = q.whereText m := by
  rw [conditionParts, textOf_joinParts, ← fragments_eq, whereText]

theorem textOf_whereParts (softDelete : Bool) :
    textOf id (q.whereParts m softDelete) =
      introduced " where " (if softDelete then liveText (q.whereText m) else q.whereText m) := by
  rw [whereParts]
  split
  · rw [introduced_of_ne_empty _ (liveText_ne_empty _), liveText]
    split <;> simp [textOf_append, Part.text, textOf_conditionParts, String.append_assoc]
  · rw [introduced]
    split
    · rfl
    · rw [textOf_cons, textOf_conditionParts, Part.text]

/-- The clauses of a query are its parts. -/
theorem textOf_parts (q : Query) (m : Mapping) (softDelete : Bool) :
    textOf id (q.parts m softDelete) = q.clauseText m softDelete := by
  have hgroup : textOf id (q.groupParts m) =
      if q.groupBy.isEmpty then "" else " group by " ++ q.groupText m := by
    rw [groupParts]
    split
    · rfl
    · rw [textOf_cons, textOf_joined, List.map_map, groupText]
      simp [Function.comp_def, Part.text]
  have horder : textOf id (q.orderParts m) =
      if q.orderBy.isEmpty then "" else " order by " ++ q.orderText m := by
    rw [orderParts]
    split
    · rfl
    · rw [textOf_cons, textOf_joined, List.map_map, orderText]
      simp [Function.comp_def, Part.text, String.append_assoc]
  rw [parts, textOf_append, textOf_append, textOf_whereParts, hgroup, horder, clauseText]

/-- The columns that the clauses of a query name: the flag of deleted rows if they are left out, and
those of the conditions, of the grouping and of the ordering. -/
def namedColumns (q : Query) (m : Mapping) (softDelete : Bool) : List String :=
  (if softDelete then [softDeleteColumn] else []) ++
    (conditions q.links).filterMap (Condition.named? m) ++ q.groupBy.map m.columnName ++
      q.orderBy.map m.columnName

/-- The names in the clauses of a query are these columns, in this order. -/
theorem namesOf_parts (q : Query) (m : Mapping) (softDelete : Bool) :
    namesOf (q.parts m softDelete) = q.namedColumns m softDelete := by
  have hcondition : namesOf (q.conditionParts m) =
      (conditions q.links).filterMap (Condition.named? m) := by
    rw [conditionParts, namesOf_joinParts, namesOf_fragmentParts]
  have hempty : (q.whereText m).isEmpty = true → conditions q.links = [] := by
    rw [String.isEmpty_iff, whereText_eq_empty_iff]
    exact id
  have hwhere : namesOf (q.whereParts m softDelete) =
      (if softDelete then [softDeleteColumn] else []) ++
        (conditions q.links).filterMap (Condition.named? m) := by
    rw [whereParts]
    split <;> split <;> simp_all [namesOf_append]
  have hgroup : namesOf (q.groupParts m) = q.groupBy.map m.columnName := by
    rw [groupParts]
    split
    · simp_all
    · simp [namesOf_joined, List.flatMap_map, ← List.map_eq_flatMap]
  have horder : namesOf (q.orderParts m) = q.orderBy.map m.columnName := by
    rw [orderParts]
    split
    · simp_all
    · simp [namesOf_joined, List.flatMap_map, ← List.map_eq_flatMap]
  rw [parts, namesOf_append, namesOf_append, hwhere, hgroup, horder, namedColumns]

/-- All names in the clauses of a query have an end. -/
theorem endsNames_parts (q : Query) (m : Mapping) (softDelete : Bool) :
    endsNames true (q.parts m softDelete) = true := by
  have hcondition : endsNames false (q.conditionParts m) = true :=
    endsNames_joinParts (endsNames_fragmentParts m .and q.links)
  refine endsNames_append (endsNames_append ?_ ?_) ?_
  · rw [whereParts]
    split <;> split
    · rfl
    · exact endsNames_append hcondition rfl
    · rfl
    · exact hcondition
  · rw [groupParts]
    split
    · rfl
    · exact endsNames_joined rfl (List.forall_mem_map.2 fun _ _ => rfl)
  · rw [orderParts]
    split
    · rfl
    · exact endsNames_joined rfl (List.forall_mem_map.2 fun _ _ => rfl)

/-- A query whose fields are kept in some columns. -/
def KeptIn (m : Mapping) (names : List String) (q : Query) : Prop :=
  ∀ field ∈ q.fields, m.columnName field ∈ names

/-- The clauses of a query over some columns name no others. -/
theorem isOver_parts {names : List String} {q : Query} (h : q.KeptIn m names) {softDelete : Bool}
    (hsoft : softDelete = true → softDeleteColumn ∈ names) :
    IsOver names true (q.parts m softDelete) where
  ends := q.endsNames_parts m softDelete
  mem := by
    have hfields : (∀ condition ∈ conditions q.links, m.columnName condition.field ∈ names) ∧
        (∀ field ∈ q.groupBy, m.columnName field ∈ names) ∧
          ∀ field ∈ q.orderBy, m.columnName field ∈ names := by
      simpa [KeptIn, fields, or_imp, forall_and] using h
    obtain ⟨hconditions, hgroup, horder⟩ := hfields
    rw [namesOf_parts, namedColumns, List.forall_mem_append, List.forall_mem_append,
      List.forall_mem_append, List.forall_mem_map, List.forall_mem_map]
    refine ⟨⟨⟨fun name hname => ?_, fun name hname => ?_⟩, hgroup⟩, horder⟩
    · split at hname
      · next hsoftDelete => exact List.mem_singleton.1 hname ▸ hsoft hsoftDelete
      · cases hname
    · obtain ⟨condition, hcondition, hnamed⟩ := List.mem_filterMap.1 hname
      exact Condition.eq_of_named? hnamed ▸ hconditions condition hcondition

end Query

end Persistence
