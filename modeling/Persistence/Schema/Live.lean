import Persistence.Statement

/-!
# Live tables

A table as the database describes it: its columns, whether it has a primary key, its unique
indexes and its foreign keys, by name.  Each list is read from the rows that one statement
answers; a row without the expected text says nothing.  From a live table and the wanted one
follow the changes that turn the first into the second.
-/

namespace Persistence

/-- The text in a column of a row. -/
def textIn? (row : Row) (column : String) : Option String := (row.lookup column).bind Json.str?

/-- The values without repetitions, in the order of their first occurrences after `seen`. -/
def distinctNames (seen : List String) : List String → List String
  | [] => []
  | name :: names =>
      if name ∈ seen then distinctNames seen names
      else name :: distinctNames (seen ++ [name]) names

/-- The name that the index of a primary key has. -/
def primaryIndexName : String := "PRIMARY"

/-- Whether a row describes a unique index.  Zero in `Non_unique` says so, as a number or as text;
a boolean is taken at its word. -/
def isUniqueIndex (row : Row) : Bool :=
  match row.lookup "Non_unique" with
  | some (.num n) => n.toUInt64? == some 0
  | some (.str s) => s == "0"
  | some (.bool b) => !b
  | _ => false

/-- A table as the database describes it. -/
structure LiveTable where
  columns : List String
  hasPrimaryKey : Bool
  /-- The unique indexes other than the primary key. -/
  uniqueIndexes : List String
  foreignKeys : List String
deriving DecidableEq

namespace LiveTable

/-- The columns that the rows of a description name. -/
def columnsIn (rows : List Row) : List String := rows.filterMap fun row => textIn? row "Field"

/-- Whether the rows of the indexes name a primary key. -/
def hasPrimaryKeyIn (rows : List Row) : Bool :=
  rows.any fun row => textIn? row "Key_name" == some primaryIndexName

/-- The unique indexes that the rows of the indexes name, each once. -/
def uniqueIndexesIn (rows : List Row) : List String :=
  distinctNames []
    (((rows.filter isUniqueIndex).filterMap fun row => textIn? row "Key_name").filter fun name =>
      name ≠ primaryIndexName)

/-- The foreign keys that the rows of the constraints name. -/
def foreignKeysIn (rows : List Row) : List String := rows.filterMap fun row => textIn? row "name"

end LiveTable

/-- A change for each item of a list, made with the names of the supply from `start` on. -/
def namedChanges {α : Type} (names : Names) (start : Nat) (change : String → α → Alteration) :
    List α → List Alteration
  | [] => []
  | item :: items => change (names start) item :: namedChanges names (start + 1) change items

namespace Table

/-- The changes of the columns: surplus ones are dropped, shared ones take their definition, and
missing ones are added. -/
def columnChanges (t : Table) (live : List String) : List Alteration :=
  ((live.filter fun name => name ∉ t.columnNames).map Alteration.dropColumn) ++
    ((t.columns.filter fun c => c.name ∈ live).map Alteration.modifyColumn) ++
    ((t.columns.filter fun c => c.name ∉ live).map Alteration.addColumn)

/-- The changes of the keys: whatever is there is dropped and whatever is wanted is added. -/
def keyChanges (t : Table) (live : LiveTable) (names : Names) : List Alteration :=
  (if live.hasPrimaryKey then [.dropPrimaryKey] else []) ++
    (if t.primaryKeys.isEmpty then [] else [.addPrimaryKey t.primaryKeys]) ++
    live.uniqueIndexes.map Alteration.dropIndex ++
    namedChanges names 0 (fun name (_, columns) => .addUnique name columns) t.uniqueKeys ++
    live.foreignKeys.map Alteration.dropForeignKey ++
    namedChanges names t.uniqueKeys.length
      (fun name (column, key) => .addForeignKey name column key) t.foreignKeys

/-- The changes that turn a live table into the wanted one. -/
def changes (t : Table) (live : LiveTable) (names : Names) : List Alteration :=
  t.columnChanges live.columns ++ t.keyChanges live names ++
    [.options t.engine t.charset t.collate]

end Table

end Persistence
