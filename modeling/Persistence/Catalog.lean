import Persistence.Table.Basic

/-!
# The catalog

The catalog holds the registered entity types, their tables, and for each table the tables that
depend on it through a foreign key with the action `CASCADE`.

Registering a type makes its table, and makes the tables of the types that refer to it anew, so
that types can be registered in any order.
-/

namespace Persistence

/-- A foreign key with the action `CASCADE`, seen from the table that it names. -/
structure Dependent where
  /-- The entity type whose table depends on the other one. -/
  entity : String
  table : String
  /-- The property that the foreign key is on. -/
  property : String
  targetProperty : String
  targetColumn : String
deriving DecidableEq

/-- The registered entity types with their tables and dependents. -/
structure Catalog where
  entities : List (String × Entity)
  /-- Tables by name, in ascending order. -/
  tables : List (String × Table)
  /-- Dependents by the table that they depend on. -/
  dependents : List (String × List Dependent)

namespace Catalog

/-- The catalog without entity types. -/
def empty : Catalog := ⟨[], [], []⟩

/-- The entity type with a name. -/
def entity? (c : Catalog) (name : String) : Option Entity := c.entities.lookup name

/-- The table with a name. -/
def table? (c : Catalog) (name : String) : Option Table := c.tables.lookup name

/-- The table of an entity type. -/
def tableOf? (c : Catalog) (entity : String) : Option Table := do
  c.table? (← (← c.entity? entity).tableName?)

/-- All tables in ascending order of their names. -/
def allTables (c : Catalog) : List Table := Keyed.values c.tables

/-- The tables that depend on a table. -/
def dependentsOf (c : Catalog) (table : String) : List Dependent :=
  (c.dependents.lookup table).getD []

/-- Note a dependent of a table.  A property that is noted already for the same tables is left as
it is. -/
def addDependent (target : String) (d : Dependent) (c : Catalog) : Catalog :=
  let edges := c.dependentsOf target
  let known := edges.any fun e => e.table = d.table && e.property = d.property
  { c with dependents := Keyed.put target (if known then edges else edges ++ [d]) c.dependents }

/-- The dependents that an entity type with the given table makes, each with the table that it
depends on. -/
def cascades (e : Entity) (t : Table) : List (String × Dependent) :=
  e.columnProperties.filterMap fun (p, c) => do
    let ref ← c.foreignKey
    let key ← t.foreignKeys.lookup c.name
    if key.action = .cascade then
      some (key.table, ⟨e.name, t.name, p.key, ref.property, key.column⟩)
    else none

/-- Make the table of an entity type and note what it depends on. -/
def derive (c : Catalog) (e : Entity) : Catalog × Option Table :=
  match Table.ofEntity? e c.entity? with
  | none => (c, none)
  | some t =>
      let c := { c with tables := Keyed.putSorted t.name t c.tables }
      ((cascades e t).foldl (fun c (target, d) => c.addDependent target d) c, some t)

/-- Whether a property of an entity type refers to another entity type. -/
def refersTo (e : Entity) (name : String) : Bool :=
  e.columnProperties.any fun (_, c) => c.foreignKey.any fun ref => ref.entity = name

/-- Register an entity type; the result is its table, if it has one. -/
def register (c : Catalog) (e : Entity) : Catalog × Option Table :=
  let c := { c with entities := Keyed.put e.name e c.entities }
  let (c, table) := c.derive e
  let referring := (Keyed.values c.entities).filter fun t => t.name ≠ e.name && refersTo t e.name
  (referring.foldl (fun c t => (c.derive t).1) c, table)

end Catalog

end Persistence
