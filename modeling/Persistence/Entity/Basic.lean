import Persistence.Error
import Persistence.Value.Basic

/-!
# Entity types

An entity type describes a kind of object that is kept in a table: the options of the table, and
for each property its kind and either a column that keeps it or a relation through which it is
found.  A type without table options is not kept anywhere.
-/

namespace Persistence

/-- The types of columns. -/
inductive ColumnType
  | int
  | bigint
  | double
  | float
  | varchar
  | text
  | json
  | datetime
  | date
  | time
  | tinyint
  | geometry
deriving DecidableEq

/-- What happens to a row when the row that its foreign key names is removed. -/
inductive ForeignAction
  | cascade
  | setNull
  | noAction
deriving DecidableEq

/-- The kind of values that a property has. -/
inductive PropertyKind
  | string
  | number
  | boolean
  | date
  | array
  | object
  | named (name : String)
deriving DecidableEq

/-- What a deleted row has in a column: a fixed value, or one that a named producer makes anew for
every statement. -/
inductive DeleteValue
  | literal (v : Value)
  | producer (name : String)

namespace ColumnType

/-- All types of columns. -/
def all : List ColumnType :=
  [int, bigint, double, float, varchar, text, json, datetime, date, time, tinyint, geometry]

/-- The name of a type in SQL. -/
def name : ColumnType → String
  | int => "int"
  | bigint => "bigint"
  | double => "double"
  | float => "float"
  | varchar => "varchar"
  | text => "text"
  | json => "json"
  | datetime => "datetime"
  | date => "date"
  | time => "time"
  | tinyint => "tinyint"
  | geometry => "geometry"

/-- The type with a name, in upper or lower case. -/
def read (s : String) : Except DbError ColumnType :=
  match all.find? fun type => type.name = s.toLower with
  | some type => .ok type
  | none => .error (.validation (.columnType s.toLower))

/-- The length of a column that declares none. -/
def defaultLength? : ColumnType → Option Nat
  | varchar => some 255
  | tinyint => some 1
  | datetime => some 3
  | bigint => some 30
  | _ => none

/-- The number of decimal places of a column that declares none. -/
def defaultPrecision? : ColumnType → Option Nat
  | double => some 4
  | float => some 2
  | _ => none

end ColumnType

/-- The name of the kind whose values are points. -/
def Point.kindName : String := "GeometryPoint"

/-- The type of a column that declares none, by the kind of its property. -/
def PropertyKind.columnType : PropertyKind → ColumnType
  | string => .varchar
  | number => .int
  | boolean => .tinyint
  | date => .datetime
  | array => .json
  | object => .json
  | named name => if name = Point.kindName then .geometry else .json

namespace ForeignAction

/-- The action in SQL. -/
def name : ForeignAction → String
  | cascade => "CASCADE"
  | setNull => "SET NULL"
  | noAction => "NO ACTION"

/-- The action with a name, in upper or lower case and with blanks or underscores. -/
def read (s : String) : Except DbError ForeignAction :=
  let name := s.toUpper.map fun c => if c = '_' then ' ' else c
  if name = "CASCADE" then .ok cascade
  else if name = "SET NULL" then .ok setNull
  else if name = "NO ACTION" then .ok noAction
  else .error (.validation (.foreignAction name))

end ForeignAction

/-- The property of another entity type that a property refers to. -/
structure ForeignRef where
  entity : String
  property : String
  action : ForeignAction

/-- How a property is kept in a column. -/
structure ColumnSpec where
  name : String
  type : Option ColumnType
  primaryKey : Bool
  /-- The groups of columns that are unique together to which this one belongs. -/
  uniqueKeys : List String
  foreignKey : Option ForeignRef
  notNull : Bool
  defaultValue : Option Value
  deleteValue : Option DeleteValue
  autoIncrement : Bool
  length : Option Nat
  precision : Option Nat

/-- A column with a name and nothing else. -/
def ColumnSpec.named (name : String) : ColumnSpec where
  name
  type := none
  primaryKey := false
  uniqueKeys := []
  foreignKey := none
  notNull := false
  defaultValue := none
  deleteValue := none
  autoIncrement := false
  length := none
  precision := none

/-- A column of the primary key; it is never null. -/
def ColumnSpec.key (name : String) : ColumnSpec :=
  { ColumnSpec.named name with primaryKey := true, notNull := true }

/-- How a property is found in another table: the rows whose column `target` has the value that
the current row has in column `source`. -/
structure Relation where
  entity : String
  source : String
  target : String
  /-- Whether the property is the list of all rows found or the first of them. -/
  many : Bool
deriving DecidableEq

/-- A property of an entity type. -/
structure Property where
  key : String
  kind : PropertyKind
  column : Option ColumnSpec
  relation : Option Relation

/-- The options of the table of an entity type. -/
structure TableSpec where
  name : String
  charset : Option String
  collate : Option String
  engine : Option String
  softDelete : Bool
deriving DecidableEq

/-- A kind of objects and how they are kept. -/
structure Entity where
  name : String
  table : Option TableSpec
  properties : List Property

namespace Entity

/-- The name of the table. -/
def tableName? (e : Entity) : Option String := e.table.map TableSpec.name

/-- Whether deleted rows stay in the table and are flagged. -/
def softDelete (e : Entity) : Bool := e.table.any TableSpec.softDelete

/-- The first property with a key. -/
def property? (e : Entity) (key : String) : Option Property :=
  e.properties.find? fun p => p.key = key

/-- The properties that are kept in columns, with the columns. -/
def columnProperties (e : Entity) : List (Property × ColumnSpec) :=
  e.properties.filterMap fun p => p.column.map fun c => (p, c)

/-- The first property of the primary key, with its column. -/
def primaryKey? (e : Entity) : Option (Property × ColumnSpec) :=
  e.columnProperties.find? fun (_, c) => c.primaryKey

end Entity

/-- The name of the column of a property. -/
def Property.columnName? (p : Property) : Option String := p.column.map ColumnSpec.name

end Persistence
