import Persistence.Document.Entity
import Persistence.Table.Basic

/-!
# Documents of tables

Options that a document leaves out have their defaults, and groups of unique columns and foreign
keys come in ascending order of their keys.
-/

namespace Persistence

open Document

/-- A column; `tag` tells the producers of its table from those of all others. -/
def Column.ofDocument (tag : String) (j : Json) : Decoded Column := do
  let name ← textField j "name"
  return {
    name
    property := ← textField? j "property"
    type := ← ColumnType.ofDocument (← field j "type")
    length := ← naturalField? j "length"
    precision := ← naturalField? j "precision"
    notNull := flag j "not_null"
    autoIncrement := flag j "auto_increment"
    defaultValue := ← given Value.ofDocument j "default"
    deleteValue := ← given (DeleteValue.ofDocument (tag ++ "." ++ name)) j "delete_value" }

def ForeignKey.ofDocument (j : Json) : Decoded ForeignKey := do
  return {
    table := ← textField j "table"
    column := ← textField j "column"
    action := ← withDefault .cascade ForeignAction.ofDocument j "action" }

/-- The entries of an object in ascending order of their keys; without an object there are none. -/
def Document.sorted {α : Type} (read : Json → Decoded α) (j : Json) (key : String) :
    Decoded (List (String × α)) :=
  match (present? j key).bind Json.obj? with
  | none => .ok []
  | some fields =>
      fields.foldlM (fun l (name, j) => do return Keyed.putSorted name (← read j) l) []

def Table.ofDocument (tag : String) (j : Json) : Decoded Table := do
  return {
    name := ← textField j "name"
    charset := ← withDefault Table.defaultCharset readText j "charset"
    collate := ← withDefault Table.defaultCollate readText j "collate"
    engine := ← withDefault Table.defaultEngine readText j "engine"
    softDelete := flag j "soft_delete"
    columns := ← list (Column.ofDocument tag) j "columns"
    primaryKeys := ← texts j "primary_keys"
    uniqueKeys := ← sorted (listOf readText) j "unique_keys"
    foreignKeys := ← sorted ForeignKey.ofDocument j "foreign_keys" }

def ValueColumn.ofDocument (j : Json) : Decoded ValueColumn := do
  return {
    property := ← textField j "property"
    type := ← ColumnType.ofDocument (← field j "type")
    defaultValue := ← given Value.ofDocument j "default" }

/-! ## Writing -/

def Column.toDocument (c : Column) : Json :=
  .obj
    [("name", .str c.name), ("property", ofText? c.property), ("type", c.type.toDocument),
     ("length", ofNat? c.length), ("precision", ofNat? c.precision),
     ("not_null", .bool c.notNull), ("auto_increment", .bool c.autoIncrement),
     ("default", Value.toDocument? c.defaultValue),
     ("delete_value", Json.ofOption DeleteValue.toDocument c.deleteValue)]

/-- A foreign key with the column that has it. -/
def ForeignKey.toDocument (column : String) (key : ForeignKey) : Json :=
  ofTexts [column, key.table, key.column, key.action.name]

def Table.toDocument (t : Table) : Json :=
  .obj
    [("name", .str t.name), ("charset", .str t.charset), ("collate", .str t.collate),
     ("engine", .str t.engine), ("soft_delete", .bool t.softDelete),
     ("columns", .arr (t.columns.map Column.toDocument)), ("column_names", ofTexts t.columnNames),
     ("property_columns", ofTexts (t.propertyColumns.map Column.name)),
     ("primary_keys", ofTexts t.primaryKeys),
     ("unique_keys",
       .arr (t.uniqueKeys.map fun (group, columns) => .arr [.str group, ofTexts columns])),
     ("foreign_keys", .arr (t.foreignKeys.map fun (column, key) => key.toDocument column))]

def ValueColumn.toDocument (c : ValueColumn) : Json :=
  .arr [.str c.property, c.type.toDocument, Value.toDocument? c.defaultValue]

end Persistence
