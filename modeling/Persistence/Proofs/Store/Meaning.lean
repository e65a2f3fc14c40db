import Mathlib
import Persistence.Statement

/-!
# The meaning of queries

What a query says about a row.  How a database compares the cells of its columns with literals is
left open: a `Collation` answers for single cells, and everything built from conditions is settled
here.  `and` binds tighter than `or`, a group counts as one condition, a group without conditions
does not count at all, and a query without conditions holds of every row.

No condition negates a compound one, so it is enough to follow which conditions are true; one that
is unknown is not true.

Main results:

- `Query.holds_eq`, `Query.holds_among`: the queries for one value and for some values of a property
  hold of the rows that have one of them.
-/

namespace Persistence

/-- How a database compares cells with literals and keeps what is written into them. -/
structure Collation where
  /-- How a cell compares with a literal, unless that is unknown. -/
  order : Json → Value → Option Ordering
  /-- Whether a cell matches a pattern, unless that is unknown. -/
  like : Json → String → Option Bool
  /-- Whether a cell includes a document, unless that is unknown. -/
  includes : Json → Json → Option Bool
  /-- What a cell holds after a literal was written into it. -/
  stored : Value → Json
  /-- Nothing is known of how a null compares. -/
  order_null : ∀ v, order .null v = none
  /-- Literals of values that are the same compare alike. -/
  order_same : ∀ cell {v w}, v.same w = true → order cell v = order cell w
  /-- A cell that one was written into does not equal zero. -/
  order_flag : order (stored (.int 1)) (.int 0) ≠ some .eq

/-- The cell of a row in a column; a column that the row lacks counts as null. -/
def Row.cell (row : Row) (column : String) : Json := (row.lookup column).getD .null

namespace Collation

/-- Whether a cell equals a literal. -/
def equal (k : Collation) (cell : Json) (v : Value) : Bool := k.order cell v == some .eq

@[simp]
theorem equal_null (k : Collation) (v : Value) : k.equal .null v = false := by
  simp [equal, k.order_null]

/-- What equals something is not null. -/
theorem isNull_of_equal {k : Collation} {cell : Json} {v : Value} (h : k.equal cell v = true) :
    cell.isNull = false := by
  cases cell with
  | null => simp at h
  | _ => rfl

theorem equal_same (k : Collation) (cell : Json) {v w : Value} (h : v.same w = true) :
    k.equal cell v = k.equal cell w := by
  rw [equal, equal, k.order_same cell h]

end Collation

/-- Whether a comparison accepts the way in which two things compare. -/
def Comparison.accepts : Comparison → Ordering → Bool
  | eq, o => o == .eq
  | ne, o => o != .eq
  | gt, o => o == .gt
  | ge, o => o != .lt
  | lt, o => o == .lt
  | le, o => o != .gt

/-- The values among which a cell is looked for. -/
def Value.members : Value → List Value
  | list items => items
  | v => [v]

/-- Whether a condition is true of a row. -/
def Condition.holds (k : Collation) (m : Mapping) (row : Row) : Condition → Bool
  | compare op field value => (k.order (row.cell (m.columnName field)) value).any op.accepts
  | between negated field low high =>
      let cell := row.cell (m.columnName field)
      if negated then k.order cell low == some .lt || k.order cell high == some .gt
      else (k.order cell low).any (· != .lt) && (k.order cell high).any (· != .gt)
  | like negated openness field value =>
      k.like (row.cell (m.columnName field)) (openness.pattern value.rawText) == some (!negated)
  | isNull negated field => (row.cell (m.columnName field)).isNull != negated
  | among negated field values =>
      let cell := row.cell (m.columnName field)
      if negated then values.members.all fun v => (k.order cell v).any (· != .eq)
      else values.members.any fun v => k.equal cell v
  | includes field document =>
      k.includes (row.cell (m.columnName field)) document == some true

/-! ## Chains -/

/-- Whether one of the conditions joined by `or` is true, where `current` is the truth of those
joined by `and` so far. -/
def anyGroup (current : Bool) : List (Connector × Bool) → Bool
  | [] => current
  | (.and, truth) :: rest => anyGroup (current && truth) rest
  | (.or, truth) :: rest => current || anyGroup truth rest

/-- The truth of conditions in a row, each behind its connector, the first without one. -/
def joinTruths : List (Connector × Bool) → Bool
  | [] => true
  | (_, truth) :: rest => anyGroup truth rest

/-- The truths of the conditions of a chain; `c` is the connector in force in front of it. -/
def truths (k : Collation) (m : Mapping) (row : Row) (c : Connector) :
    List Link → List (Connector × Bool)
  | [] => []
  | .connector next :: links => truths k m row next links
  | .condition condition :: links => (c, condition.holds k m row) :: truths k m row .and links
  | .group sub :: links =>
      match truths k m row .and sub with
      | [] => truths k m row c links
      | inner => (c, joinTruths inner) :: truths k m row .and links

namespace Query

/-- Whether a query selects a row, by its conditions. -/
def holds (k : Collation) (m : Mapping) (q : Query) (row : Row) : Bool :=
  joinTruths (truths k m row .and q.links)

/-- A query that is made of conditions only. -/
structure Plain (q : Query) : Prop where
  groupBy : q.groupBy = []
  orderBy : q.orderBy = []

theorem plain_empty : Plain empty := ⟨rfl, rfl⟩

theorem Plain.eq {q : Query} (h : Plain q) (field : String) (v : Value) : Plain (q.eq field v) := by
  rw [Query.eq, compare, appendUnlessNull]
  split
  · exact h
  · exact ⟨h.groupBy, h.orderBy⟩

theorem Plain.among {q : Query} (h : Plain q) (negated : Bool) (field : String) (v : Value) :
    Plain (q.among negated field v) := by
  rw [Query.among, appendUnlessNull]
  split
  · exact h
  · exact ⟨h.groupBy, h.orderBy⟩

@[simp]
theorem holds_empty (k : Collation) (m : Mapping) (row : Row) : empty.holds k m row = true := by
  simp [holds, empty, truths, joinTruths]

/-- A query with one comparison holds of the rows whose cell compares like that, unless the value
is null. -/
theorem holds_compare (k : Collation) (m : Mapping) (row : Row) (op : Comparison) (field : String)
    {v : Value} (h : v.isNull = false) :
    (empty.compare op field v).holds k m row =
      (k.order (row.cell (m.columnName field)) v).any op.accepts := by
  have hlinks : (empty.compare op field v).links =
      [.condition (.compare op field v), .connector .and] := by
    simp [compare, appendUnlessNull, h, appendCondition, append, empty]
  simp [holds, hlinks, truths, joinTruths, anyGroup, Condition.holds]

/-- A query for one value of a property holds of the rows that have it, unless the value is
null. -/
theorem holds_eq (k : Collation) (m : Mapping) (row : Row) (field : String) {v : Value}
    (h : v.isNull = false) :
    (empty.eq field v).holds k m row = k.equal (row.cell (m.columnName field)) v := by
  rw [Query.eq, holds_compare k m row .eq field h, Collation.equal]
  cases hcmp : k.order (row.cell (m.columnName field)) v <;> simp [Comparison.accepts]

/-- A query for a null value holds of every row. -/
theorem holds_eq_null (k : Collation) (m : Mapping) (row : Row) (field : String) :
    (empty.eq field .null).holds k m row = true :=
  holds_empty k m row

/-- A query for some values of a property holds of the rows that have one of them. -/
theorem holds_among (k : Collation) (m : Mapping) (row : Row) (field : String)
    (values : List Value) :
    (empty.among false field (.list values)).holds k m row =
      values.any fun v => k.equal (row.cell (m.columnName field)) v := by
  have hlinks : (empty.among false field (.list values)).links =
      [.condition (.among false field (.list values)), .connector .and] := rfl
  simp [holds, hlinks, truths, joinTruths, anyGroup, Condition.holds, Value.members]

end Query

end Persistence
