import Persistence.Operation.Basic
import Persistence.Table.Ddl

/-!
# Statements

What is sent to the database.  Statements of operations are finished text.  The statements of a
cascading delete and of the schema synchronizer keep their meaning beside their text, so that a
store which knows nothing of SQL can answer them: a scope names the rows that a statement is
about, and an alteration is a list of clauses.
-/

namespace Persistence

/-- The rows of a table that a query selects. -/
structure Scope where
  table : String
  target : Target
  query : Query

/-- The clause of a scope. -/
def Scope.clause (s : Scope) : String := s.query.clauseText s.target.mapping s.target.softDelete

/-- A change of a table. -/
inductive Alteration
  | dropColumn (name : String)
  | modifyColumn (c : Column)
  | addColumn (c : Column)
  | dropPrimaryKey
  | addPrimaryKey (columns : List String)
  | dropIndex (name : String)
  | addUnique (name : String) (columns : List String)
  | dropForeignKey (name : String)
  | addForeignKey (name column : String) (key : ForeignKey)
  | options (engine charset collate : String)

/-- A change in SQL. -/
def Alteration.text : Alteration → String
  | dropColumn name => "drop column " ++ Sql.identifier name
  | modifyColumn c => "modify column " ++ c.definition
  | addColumn c => "add column " ++ c.definition
  | dropPrimaryKey => "drop primary key"
  | addPrimaryKey columns => "add " ++ primaryKeyDefinition columns
  | dropIndex name => "drop index " ++ Sql.identifier name
  | addUnique name columns =>
      "add unique index " ++ Sql.identifier name ++ "(" ++ identifierList columns ++ ")"
  | dropForeignKey name => "drop foreign key " ++ Sql.identifier name
  | addForeignKey name column key => "add " ++ key.definition name column
  | options engine charset collate =>
      "engine = " ++ engine ++ ", character set = " ++ charset ++ ", collate = " ++ collate

/-- A statement for the database. -/
inductive Statement
  /-- Finished text. -/
  | text (sql : String)
  /-- Read the rows of a scope. -/
  | rows (s : Scope)
  /-- Remove the rows of a scope. -/
  | remove (s : Scope)
  /-- Set columns of the rows of a scope to the values of deleted rows. -/
  | flag (s : Scope) (sets : List (String × Value))
  /-- Read the names of all tables. -/
  | tableNames
  /-- Read the columns of a table. -/
  | columns (table : String)
  /-- Read the indexes of a table. -/
  | indexes (table : String)
  /-- Read the names of the foreign keys of a table. -/
  | foreignKeys (table : String)
  /-- Read the statement that creates a table. -/
  | definition (table : String)
  | createTable (t : Table) (names : Names)
  | dropTable (name : String)
  | alterTable (name : String) (changes : List Alteration)

/-- An assignment of a value to a column. -/
def assignmentText (column : String) (v : Value) : String := column ++ " = " ++ v.literal

/-- A statement in SQL. -/
def Statement.sql : Statement → String
  | text sql => sql
  | rows s => Sql.fill ("select * from " ++ s.table ++ " ?") [s.clause]
  | remove s => Sql.fill ("delete from " ++ s.table ++ " ?") [s.clause]
  | flag s sets =>
      Sql.fill
        ("update " ++ s.table ++ " set " ++
          ",".intercalate (sets.map fun (column, v) => assignmentText column v) ++ " ?")
        [s.clause]
  | tableNames => "show tables"
  | columns table => "desc " ++ Sql.identifier table
  | indexes table => "show index from " ++ Sql.identifier table
  | foreignKeys table =>
      "select constraint_name as name from information_schema.table_constraints " ++
        "where table_schema = database() and table_name = " ++ Sql.stringLiteral table ++
        " and constraint_type = 'FOREIGN KEY'"
  | definition table => "show create table " ++ Sql.identifier table
  | createTable t names => t.createStatement names
  | dropTable name => dropStatement name
  | alterTable name changes =>
      "alter table " ++ Sql.identifier name ++ "\n" ++
        ",\n".intercalate (changes.map Alteration.text)

end Persistence
