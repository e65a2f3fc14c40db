import Persistence.Table.Basic

/-!
# Creation order

Tables in an order in which they can be created: round by round, first the tables whose foreign
keys name only tables that are created already, tables outside the list, or themselves.  When no
table is ready, the rest wait for each other in a cycle and are created as they come.
-/

namespace Persistence.Table

/-- Whether all tables that the foreign keys of a table name are there when `done` are, of the
tables `listed`. -/
def isReady (listed done : List String) (t : Table) : Bool :=
  t.foreignKeys.all fun (_, key) =>
    key.table = t.name || key.table ∉ listed || key.table ∈ done

/-- The order of the tables that are still `pending` when `done` are created.  Each round creates
a table, so as many rounds as pending tables are enough. -/
def orderRounds (listed : List String) : Nat → List String → List Table → List Table
  | 0, _, pending => pending
  | rounds + 1, done, pending =>
      let ready := pending.filter (isReady listed done)
      let blocked := pending.filter fun t => !isReady listed done t
      if ready.isEmpty then blocked
      else ready ++ orderRounds listed rounds (done ++ ready.map Table.name) blocked

/-- The tables in the order of their creation. -/
def creationOrder (tables : List Table) : List Table :=
  orderRounds (tables.map Table.name) tables.length [] tables

end Persistence.Table
