import Persistence.Entity.Basic
import Persistence.Keyed
import Persistence.Mapping
import Persistence.Query.Clause

/-!
# Tables

The table of an entity type.  It is made from the type in one step; foreign keys are resolved to
tables and columns through the other entity types, and one whose target cannot be resolved is left
out.  A table with soft deletion has one column more, which flags the deleted rows.
-/

namespace Persistence

/-- A column of a table. -/
structure Column where
  name : String
  /-- The property that the column keeps; a column that the library adds keeps none. -/
  property : Option String
  type : ColumnType
  length : Option Nat
  precision : Option Nat
  notNull : Bool
  autoIncrement : Bool
  defaultValue : Option Value
  deleteValue : Option DeleteValue

/-- The column of another table that a column refers to. -/
structure ForeignKey where
  table : String
  column : String
  action : ForeignAction
deriving DecidableEq

/-- A table.  Unique groups are in ascending order of their names, foreign keys in ascending order
of their columns. -/
structure Table where
  name : String
  charset : String
  collate : String
  engine : String
  softDelete : Bool
  columns : List Column
  primaryKeys : List String
  uniqueKeys : List (String × List String)
  foreignKeys : List (String × ForeignKey)

/-- A column that statements write: the property that it is written from, its type, and the value
in place of a missing one. -/
structure ValueColumn where
  property : String
  type : ColumnType
  defaultValue : Option Value

def Table.defaultCharset : String := "utf8"

def Table.defaultCollate : String := "utf8_general_ci"

def Table.defaultEngine : String := "InnoDB"

/-- The column that flags deleted rows: zero in a live row, one in a deleted row. -/
def Column.softDeleteFlag : Column where
  name := softDeleteColumn
  property := none
  type := .tinyint
  length := some 1
  precision := none
  notNull := true
  autoIncrement := false
  defaultValue := some (.int 0)
  deleteValue := some (.literal (.int 1))

/-- The column that keeps a property. -/
def Column.ofSpec (p : Property) (c : ColumnSpec) : Column where
  name := c.name
  property := some p.key
  type := c.type.getD p.kind.columnType
  length := c.length
  precision := c.precision
  notNull := c.notNull
  autoIncrement := c.autoIncrement
  defaultValue := c.defaultValue
  deleteValue := c.deleteValue

/-- The table and the column that a reference names, if the entity type has them.  A type finds
itself without help. -/
def ForeignRef.resolve? (ref : ForeignRef) (e : Entity) (lookup : String → Option Entity) :
    Option ForeignKey := do
  let target ← if ref.entity = e.name then some e else lookup ref.entity
  let table ← target.tableName?
  let column ← (← target.property? ref.property).columnName?
  some ⟨table, column, ref.action⟩

namespace Table

/-- The columns of each unique group. -/
def uniqueGroups (columns : List ColumnSpec) : List (String × List String) :=
  columns.foldl
    (fun groups c =>
      c.uniqueKeys.foldl
        (fun groups group =>
          Keyed.putSorted group ((groups.lookup group).getD [] ++ [c.name]) groups)
        groups)
    []

/-- The foreign keys of an entity type that can be resolved. -/
def resolvedKeys (e : Entity) (lookup : String → Option Entity) : List (String × ForeignKey) :=
  e.columnProperties.foldl
    (fun keys (_, c) =>
      match c.foreignKey.bind fun ref => ref.resolve? e lookup with
      | some key => Keyed.putSorted c.name key keys
      | none => keys)
    []

/-- The table of an entity type, if it has one. -/
def ofEntity? (e : Entity) (lookup : String → Option Entity) : Option Table :=
  e.table.map fun spec =>
    { name := spec.name
      charset := spec.charset.getD defaultCharset
      collate := spec.collate.getD defaultCollate
      engine := spec.engine.getD defaultEngine
      softDelete := spec.softDelete
      columns :=
        e.columnProperties.map (fun (p, c) => Column.ofSpec p c) ++
          if spec.softDelete then [Column.softDeleteFlag] else []
      primaryKeys := (e.columnProperties.filter fun (_, c) => c.primaryKey).map fun (_, c) => c.name
      uniqueKeys := uniqueGroups (e.columnProperties.map Prod.snd)
      foreignKeys := resolvedKeys e lookup }

/-- The first column with a name. -/
def column? (t : Table) (name : String) : Option Column := t.columns.find? fun c => c.name = name

/-- The first column that keeps a property. -/
def columnOf? (t : Table) (property : String) : Option Column :=
  t.columns.find? fun c => c.property = some property

/-- The names of the columns. -/
def columnNames (t : Table) : List String := t.columns.map Column.name

/-- The columns that keep properties; these are written by inserts and full updates. -/
def propertyColumns (t : Table) : List Column := t.columns.filter fun c => c.property.isSome

end Table

/-- The columns among the given ones that statements write. -/
def ValueColumn.ofColumns (columns : List Column) : List ValueColumn :=
  columns.filterMap fun c => c.property.map fun property => ⟨property, c.type, c.defaultValue⟩

/-! ## Identifiers of registered operations -/

/-- The id of the select that finds one row by a column. -/
def findId (entity : String) : String := "__INNER__FIND__BY__" ++ entity

/-- The id of the select that finds all rows by a column. -/
def findListId (entity : String) : String := "__INNER__FIND__LIST__BY__" ++ entity

/-- The id of the select that lists the rows of a query. -/
def listQueryId (entity : String) : String := "__INNER__LIST__QUERY__" ++ entity

/-- The id of the delete of the rows of a query. -/
def deleteQueryId (entity : String) : String := "__INNER__DELETE__QUERY__" ++ entity

/-- The mapping of an entity type with a table: a column for each property that has one, and the
select of the related type for each relation. -/
def Mapping.ofEntity (e : Entity) (t : Table) : Mapping :=
  let columns := t.propertyColumns.foldl
    (fun (m : Mapping) c =>
      match c.property with
      | some property => m.withColumn property c.name
      | none => m)
    Mapping.empty
  e.properties.foldl
    (fun m p =>
      match p.relation with
      | some r =>
          let select := if r.many then findListId r.entity else findId r.entity
          m.withLookup p.key ⟨r.source, some r.target, select⟩
      | none => m)
    columns

end Persistence
