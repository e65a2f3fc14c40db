import Persistence.Number.Reading
import Persistence.Sql.Param
import Persistence.Table.Basic

/-!
# Operations

An operation is a statement template together with what its arguments mean: the mapping under
which queries are written out, the positions at which values are spliced in as bare SQL, and for
reading the shape of the result.  Operations are plain values; running them is described
elsewhere.
-/

namespace Persistence

/-- A row of a result: the values of its columns in order. -/
abbrev Row := Json.Fields

/-- What the database answers to a statement. -/
structure Output where
  rows : List Row
  affectedRows : Nat
  lastInsertId : Option Nat
  /-- The number of columns of the result; a statement that writes has none. -/
  fieldCount : Nat

namespace Output

/-- The answer to a statement that returns rows. -/
def ofRows (rows : List Row) : Output := ⟨rows, 0, none, (rows.head?.map List.length).getD 0⟩

/-- The answer to a statement that writes. -/
def affected (n : Nat) : Output := ⟨[], n, none, 0⟩

/-- A statement that writes succeeded when its answer has no columns. -/
def isSuccess (o : Output) : Bool := o.fieldCount == 0

end Output

/-- The entity that an operation works on. -/
structure Target where
  mapping : Mapping
  softDelete : Bool

/-- What a select makes of the rows of its result. -/
inductive SelectShape
  /-- The first row. -/
  | one
  /-- All rows. -/
  | list
  /-- The number in the column `count(*)`, or in the first column. -/
  | count
  /-- The value in the first column. -/
  | aggregation
deriving DecidableEq

/-- The number of levels of relations that are followed unless a caller says otherwise. -/
def defaultDepth : Nat := 2

/-- A statement that reads. -/
structure Select where
  template : String
  target : Option Target
  shape : SelectShape
  /-- How many levels of relations are followed. -/
  depth : Nat
  rawPositions : List Nat

/-- A statement that writes one row for each item; its one placeholder takes all rows. -/
structure Insert where
  template : String
  columns : List ValueColumn

/-- A statement that changes rows; its first placeholders take the values of the columns. -/
structure Update where
  template : String
  columns : List ValueColumn
  target : Option Target
  rawPositions : List Nat

/-- A statement that removes rows. -/
structure Delete where
  template : String
  target : Option Target
  rawPositions : List Nat

/-! ## Results -/

/-- The result of a select. -/
inductive Selection
  | scalar (value : Json)
  | one (value : Option Json)
  | list (values : List Json)

namespace Selection

/-- The result as one value: the first of a list. -/
def first? : Selection → Option Json
  | scalar value => some value
  | one value => value
  | list values => values.head?

/-- The result as a list. -/
def toList : Selection → List Json
  | scalar value => [value]
  | one value => value.toList
  | list values => values

/-- The number that a value stands for; anything but a natural number or its text is zero. -/
def countOf : Json → Nat
  | .num n => n.toUInt64?.getD 0
  | .str s => (readUInt64? s.toList).getD 0
  | _ => 0

/-- The result as a number: the number of values of a list. -/
def count : Selection → Nat
  | scalar value => countOf value
  | one (some value) => countOf value
  | one none => 0
  | list values => values.length

/-- The result as the value of a relation; a scalar that is null is none. -/
def related? : Selection → Option Json
  | scalar value => if value.isNull then none else some value
  | one value => value
  | list values => some (.arr values)

end Selection

/-- The result of a statement that writes. -/
structure WriteResult where
  success : Bool
  affectedRows : Nat
  insertId : Option Nat
deriving DecidableEq

/-- The result that an answer of the database amounts to. -/
def WriteResult.ofOutput (o : Output) : WriteResult := ⟨o.isSuccess, o.affectedRows, o.lastInsertId⟩

/-- How many rows of a dependent table a delete takes with it. -/
structure RelationCount where
  table : String
  count : Nat
deriving DecidableEq

/-- The result of a delete.  It is no success when there are dependent rows and the delete was not
forced; then nothing is removed, and `relations` lists rows that would have been. -/
structure DeleteResult where
  success : Bool
  count : Nat
  relations : List RelationCount
deriving DecidableEq

namespace DeleteResult

/-- The result of a delete without dependents. -/
def ofWrite (r : WriteResult) : DeleteResult := ⟨r.success, r.affectedRows, []⟩

/-- The number of rows of dependent tables. -/
def relationCount (r : DeleteResult) : Nat := r.relations.foldl (fun n c => n + c.count) 0

end DeleteResult

/-! ## Arguments -/

/-- An argument at position `index` as it goes into the template: a query as its clause, and at
the raw positions a value as bare SQL. -/
def Param.prepared (target : Option Target) (rawPositions : List Nat) (index : Nat) :
    Param → Param
  | query q =>
      match target with
      | some t => raw (q.clauseText t.mapping t.softDelete)
      | none => raw (q.clauseText Mapping.empty false)
  | literal v => if index ∈ rawPositions then raw v.rawText else literal v
  | raw sql => raw sql

/-- Arguments as they go into the template; the first of them has position `offset`. -/
def prepareParams (target : Option Target) (rawPositions : List Nat) :
    (offset : Nat) → List Param → List Param
  | _, [] => []
  | offset, p :: params =>
      p.prepared target rawPositions offset :: prepareParams target rawPositions (offset + 1) params

/-- The statement of a select with its arguments. -/
def Select.statementText (s : Select) (args : List Param) : String :=
  Sql.format s.template (prepareParams s.target s.rawPositions 0 args)

/-- The statement of a delete with its arguments. -/
def Delete.statementText (d : Delete) (args : List Param) : String :=
  Sql.format d.template (prepareParams d.target d.rawPositions 0 args)

end Persistence
