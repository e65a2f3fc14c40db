import Persistence.Entity.Codec
import Persistence.Operation.Basic

/-!
# Data access objects

A data access object has everything that the operations on one entity type need, and makes the
operations out of it.  Where an entity type is deleted softly, every template that reads or
changes rows is restricted to the rows that are not deleted: those with a condition of their own by
the words added here, those that take a query by the clause that the query becomes.
-/

namespace Persistence

/-- The property of a primary key and its column. -/
structure KeyColumn where
  property : String
  column : String
deriving DecidableEq

/-- Access to the objects of one entity type. -/
structure Dao where
  entity : String
  table : Table
  target : Target
  primaryKey : Option KeyColumn
  /-- The columns that keep properties, in the order of their declaration. -/
  columns : List ValueColumn
  codec : Codec

/-- A delete that can be reached by an id: a statement, or the delete of an entity type with its
dependents. -/
inductive DeleteOperation
  | statement (d : Delete)
  | dao (d : Dao)

namespace Dao

/-- The access object of an entity type whose table is known. -/
def ofEntity (e : Entity) (t : Table) (codec : Codec) : Dao where
  entity := e.name
  table := t
  target := ⟨Mapping.ofEntity e t, t.softDelete⟩
  primaryKey := e.primaryKey?.map fun (p, c) => ⟨p.key, c.name⟩
  columns := ValueColumn.ofColumns t.propertyColumns
  codec := codec

/-- The name of the table. -/
def tableName (d : Dao) : String := d.table.name

/-- The condition on a select without a query that leaves out deleted rows. -/
def liveWhere (d : Dao) : String :=
  if d.table.softDelete then " where " ++ softDeleteColumn ++ " = 0" else ""

/-- The condition behind another one that leaves out deleted rows. -/
def liveAnd (d : Dao) : String :=
  if d.table.softDelete then " and " ++ softDeleteColumn ++ " = 0" else ""

/-- A select on the table of the object. -/
def select (d : Dao) (shape : SelectShape) (template : String) (rawPositions : List Nat) :
    Select :=
  ⟨template, some d.target, shape, defaultDepth, rawPositions⟩

/-! ## Reading -/

/-- Count all rows. -/
def countAll (d : Dao) : Select :=
  d.select .count ("select count(*) from " ++ d.tableName ++ d.liveWhere) []

/-- Count the rows of a query. -/
def countQuery (d : Dao) : Select :=
  d.select .count ("select count(*) from " ++ d.tableName ++ " ?") [0]

/-- List all rows. -/
def listAll (d : Dao) : Select :=
  d.select .list ("select * from " ++ d.tableName ++ d.liveWhere) []

/-- List the rows of a query. -/
def listQuery (d : Dao) : Select :=
  d.select .list ("select * from " ++ d.tableName ++ " ?") [0]

/-- List a page of all rows. -/
def pageAll (d : Dao) : Select :=
  d.select .list ("select * from " ++ d.tableName ++ d.liveWhere ++ " limit ?, ?") []

/-- List a page of the rows of a query. -/
def pageQuery (d : Dao) : Select :=
  d.select .list ("select * from " ++ d.tableName ++ " ? limit ?, ?") [0]

/-- Find the row with a primary key. -/
def findKey (d : Dao) (key : KeyColumn) : Select :=
  d.select .one
    ("select * from " ++ d.tableName ++ " where " ++ key.column ++ " = ?" ++ d.liveAnd ++
      " limit 0, 1") []

/-- Find the first row of a query. -/
def findQuery (d : Dao) : Select :=
  d.select .one ("select * from " ++ d.tableName ++ " ? limit 0, 1") [0]

/-- Find a row by the value of a column. -/
def findBy (d : Dao) : Select :=
  d.select .one ("select * from " ++ d.tableName ++ " where ? = ?" ++ d.liveAnd) [0]

/-- Find all rows by the value of a column. -/
def findListBy (d : Dao) : Select :=
  d.select .list ("select * from " ++ d.tableName ++ " where ? = ?" ++ d.liveAnd) [0]

/-- The selects that other operations reach by id. -/
def registeredSelects (d : Dao) : List (String × Select) :=
  [(listQueryId d.entity, d.listQuery), (findId d.entity, d.findBy),
   (findListId d.entity, d.findListBy)]

/-! ## Writing -/

/-- The names of the columns that an insert lists. -/
def listedColumns (d : Dao) : List String := d.table.propertyColumns.map Column.name

/-- The list of the columns that are written. -/
def columnList (d : Dao) : String := ",".intercalate d.listedColumns

/-- Insert rows. -/
def insert (d : Dao) : Insert :=
  ⟨"insert into " ++ d.tableName ++ " (" ++ d.columnList ++ ") values ?", d.columns⟩

/-- Insert rows in place of those with the same keys. -/
def replace (d : Dao) : Insert :=
  ⟨"replace into " ++ d.tableName ++ " (" ++ d.columnList ++ ") values ?", d.columns⟩

/-- Whether a column keeps the property of the primary key. -/
def isKeyColumn (d : Dao) (c : ValueColumn) : Bool :=
  d.primaryKey.any fun key => key.property = c.property

/-- The columns other than the primary key. -/
def nonKeyColumns (d : Dao) : List ValueColumn := d.columns.filter fun c => !d.isKeyColumn c

/-- The columns of the primary key. -/
def keyColumns (d : Dao) : List ValueColumn := d.columns.filter d.isKeyColumn

/-- The columns other than the primary key that keep some properties. -/
def partColumns (d : Dao) (part : List String) : List ValueColumn :=
  d.nonKeyColumns.filter fun c => c.property ∈ part

/-- An assignment with a placeholder for each column. -/
def setClause (d : Dao) (columns : List ValueColumn) : String :=
  ",".intercalate
    ((columns.filterMap fun c => d.table.columnOf? c.property).map fun c => c.name ++ " = ?")

/-- Write some columns of the row with the primary key of the entity written. -/
def updateKey (d : Dao) (key : KeyColumn) (columns : List ValueColumn) : Update :=
  { template :=
      "update " ++ d.tableName ++ " set " ++ d.setClause columns ++ " where " ++ key.column ++
        " = ?" ++ d.liveAnd
    columns := columns ++ d.keyColumns
    target := none
    rawPositions := [] }

/-- Write some columns of the rows of a query. -/
def updateQuery (d : Dao) (columns : List ValueColumn) : Update :=
  { template := "update " ++ d.tableName ++ " set " ++ d.setClause columns ++ " ?"
    columns := columns
    target := some d.target
    rawPositions := [1] }

end Dao

end Persistence
