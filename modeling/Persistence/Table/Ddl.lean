import Persistence.Sql.Literal
import Persistence.Table.Basic

/-!
# Definitions in SQL

The definitions of columns, keys and tables.  Every identifier is quoted.  Unique keys and foreign
keys get names of their own: `names` is a supply from which the keys of one statement take one
name each, unique keys first.
-/

namespace Persistence

open Sql

/-- A supply of names for the constraints of one statement. -/
abbrev Names := Nat → String

/-- The length of a column and its decimal places, if it has any length. -/
def Column.sizeText (c : Column) : String :=
  match c.length <|> c.type.defaultLength? with
  | none => ""
  | some length =>
      match c.precision <|> c.type.defaultPrecision? with
      | some precision => "(" ++ toString length ++ ", " ++ toString precision ++ ")"
      | none => "(" ++ toString length ++ ")"

/-- The default clause of a column; a default of null needs none. -/
def Column.defaultText (c : Column) : String :=
  match c.defaultValue with
  | some v => if v.isNull then "" else " default " ++ v.literal
  | none => ""

/-- The definition of a column. -/
def Column.definition (c : Column) : String :=
  identifier c.name ++ " " ++ c.type.name ++ c.sizeText ++
    (if c.notNull then " not null" else " null") ++ c.defaultText ++
    (if c.autoIncrement then " auto_increment" else "")

/-- Quoted identifiers in a row. -/
def identifierList (names : List String) : String := ", ".intercalate (names.map identifier)

/-- The definition of a primary key; a key without columns has none. -/
def primaryKeyDefinition (columns : List String) : String :=
  if columns.isEmpty then "" else "primary key (" ++ identifierList columns ++ ")"

/-- The definition of a unique key. -/
def uniqueKeyDefinition (name : String) (columns : List String) : String :=
  "unique key " ++ identifier name ++ " (" ++ identifierList columns ++ ")"

/-- The definition of a foreign key on a column. -/
def ForeignKey.definition (name column : String) (key : ForeignKey) : String :=
  "constraint " ++ identifier name ++ " foreign key (" ++ identifier column ++ ") references " ++
    identifier key.table ++ " (" ++ identifier key.column ++ ") on delete " ++ key.action.name ++
    " on update " ++ key.action.name

/-- A text for each item of a list, made with the names of the supply from `start` on. -/
def withNames {α : Type} (names : Names) (start : Nat) (f : String → α → String) :
    List α → List String
  | [] => []
  | item :: items => f (names start) item :: withNames names (start + 1) f items

namespace Table

/-- The definitions of a table: columns, primary key, unique keys and foreign keys. -/
def definitions (t : Table) (names : Names) : List String :=
  t.columns.map Column.definition ++
    (if t.primaryKeys.isEmpty then [] else [primaryKeyDefinition t.primaryKeys]) ++
    withNames names 0 (fun name (_, columns) => uniqueKeyDefinition name columns) t.uniqueKeys ++
    withNames names t.uniqueKeys.length
      (fun name (column, key) => ForeignKey.definition name column key) t.foreignKeys

/-- The statement that creates a table. -/
def createStatement (t : Table) (names : Names) : String :=
  "create table " ++ identifier t.name ++ " (\n  " ++ ",\n  ".intercalate (t.definitions names) ++
    "\n) engine=" ++ t.engine ++ " charset=" ++ t.charset ++ " collate=" ++ t.collate

end Table

/-- The statement that drops a table. -/
def dropStatement (name : String) : String := "drop table " ++ identifier name

end Persistence
