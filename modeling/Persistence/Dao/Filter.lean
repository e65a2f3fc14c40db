import Persistence.Sql.Param

/-!
# Filters and pages

How the callers of a data access object say which rows they mean: by a query, or by an object of
which all or some fields have to be equal; and which part of a long list they want.
-/

namespace Persistence

/-- Which rows are meant. -/
inductive Filter
  | query (q : Query)
  /-- The rows that have all fields of an object. -/
  | everyEq (fields : Json)
  /-- The rows that have some field of an object. -/
  | someEq (fields : Json)

/-- The query that selects the rows of a filter. -/
def Filter.toQuery : Filter → Except DbError Query
  | query q => .ok q
  | everyEq fields => Query.empty.everyEq fields
  | someEq fields => Query.empty.someEq fields

/-- A page of a list, counted from zero. -/
structure Page where
  number : Nat
  size : Nat
deriving DecidableEq

namespace Page

/-- The largest number of rows that a statement can skip. -/
def maxOffset : Nat := UInt64.size - 1

/-- The number of rows in front of a page. -/
def offset (p : Page) : Nat := min (p.number * p.size) maxOffset

/-- The arguments of a page: how many rows are skipped and how many are taken. -/
def arguments (p : Page) : List Param := [.literal (.uint p.offset), .literal (.uint p.size)]

end Page

end Persistence
