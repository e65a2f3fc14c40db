import Persistence.Dao.Read

/-!
# Cascading deletes

Deleting rows takes the rows of dependent tables with it.  A level of a cascade reads the rows
that it is about to remove, claims those that no other level has claimed, lets the delete of every
dependent table remove the rows that refer to them, and then removes its own.  Claims are the
local state of the task, so a row that a cycle of foreign keys reaches again is left to the level
that claimed it.

Unless it is forced, a level with dependent rows undoes everything and reports what would have
been removed.  How deep a cascade may go is given by its caller; a cascade that needs more levels
fails.
-/

namespace Persistence

/-- The rows that a cascade has claimed, by table and row key. -/
abbrev Claims := List (String × String)

/-- Claim a row; the result is whether it was not claimed before. -/
def claim (table key : String) : Task Claims Bool := do
  let claims ← Task.localState
  if (table, key) ∈ claims then return false
  else
    Task.setLocal ((table, key) :: claims)
    return true

/-- The query for the rows in which a property has one of some values. -/
def scopeQuery (property : String) : List Value → Query
  | [v] => Query.empty.eq property v
  | values => Query.empty.among false property (.list values)

/-- The values without repetitions, in the order of their first occurrences after `seen`. -/
def distinctValues (seen : List Value) : List Value → List Value
  | [] => []
  | v :: values =>
      if v.isAmong seen then distinctValues seen values
      else v :: distinctValues (seen ++ [v]) values

/-- The values by which a dependent table refers to some rows. -/
def Dependent.references (dep : Dependent) (rows : List Row) : List Value :=
  let values := rows.filterMap fun row => presentValue? row dep.targetColumn
  distinctValues [] (values.map Value.ofJson)

/-- What dependent tables did: the rows removed in them, or that one of them refused. -/
structure Removal where
  complete : Bool
  relations : List RelationCount

/-- How a level starts the delete of a dependent table. -/
abbrev CascadeStep := DeleteOperation → Query → Task Claims DeleteResult

/-- The counts that a dependent adds to the result. -/
def Dependent.counts (dep : Dependent) (r : DeleteResult) : List RelationCount :=
  (if 0 < r.count then [⟨dep.table, r.count⟩] else []) ++ r.relations

/-- Delete what refers to some rows, dependent by dependent, up to the first that refuses.
Dependents without a registered delete are passed over. -/
def removeDependents (step : CascadeStep) (rows : List Row) :
    List Dependent → Task Claims Removal
  | [] => return ⟨true, []⟩
  | dep :: deps => do
      let references := dep.references rows
      if references.isEmpty then removeDependents step rows deps
      else
        match (← Task.state).deletes.lookup (deleteQueryId dep.entity) with
        | none => removeDependents step rows deps
        | some delete =>
            let r ← step delete (scopeQuery dep.property references)
            if r.success then
              let rest ← removeDependents step rows deps
              return ⟨rest.complete, dep.counts r ++ rest.relations⟩
            else return ⟨false, ⟨dep.table, r.count⟩ :: r.relations⟩

namespace Dao

/-- The rows of the table that a query selects. -/
def scope (d : Dao) (q : Query) : Scope := ⟨d.tableName, d.target, q⟩

/-- What tells the rows of a table apart: the primary key, or the whole row. -/
def rowKey (d : Dao) (row : Row) : String :=
  match d.primaryKey.bind fun key => row.lookup key.column with
  | some key => key.text
  | none => (Json.obj row).text

/-- The rows among the given ones that could be claimed. -/
def claimRows (d : Dao) : List Row → Task Claims (List Row)
  | [] => return []
  | row :: rows => do
      let fresh ← claim d.tableName (d.rowKey row)
      let rest ← d.claimRows rows
      return if fresh then row :: rest else rest

/-- The query for rows by their primary keys. -/
def keyScope? (d : Dao) (rows : List Row) : Option Query :=
  d.primaryKey.map fun key =>
    scopeQuery key.property ((rows.filterMap fun row => row.lookup key.column).map Value.ofJson)

/-- The values that the columns of deleted rows take. -/
def deleteValues : List Column → Task Claims (List (String × Value))
  | [] => return []
  | c :: columns =>
      match c.deleteValue with
      | none => deleteValues columns
      | some (.literal v) => do return (c.name, v) :: (← deleteValues columns)
      | some (.producer name) => do
          let v ← Task.ask (.produce name)
          return (c.name, v) :: (← deleteValues columns)

/-- The statement that deletes the rows of a query: it removes them, or it flags them where
deletion is soft. -/
def deleteStatement (d : Dao) (q : Query) : Task Claims Statement :=
  if d.table.softDelete then do return .flag (d.scope q) (← deleteValues d.table.columns)
  else return .remove (d.scope q)

/-- Delete the rows of a query once the dependent tables are done.  Without force, rows removed in
them undo the delete. -/
def deleteRows (d : Dao) (q : Query) (force : Bool) (relations : List RelationCount)
    (tx : Context) : Task Claims DeleteResult := do
  let statement ← d.deleteStatement q
  let written := WriteResult.ofOutput (← execute statement (some tx))
  if !force && relations.any (fun r => 0 < r.count) then
    tx.rollback
    return ⟨false, written.affectedRows, relations⟩
  else return ⟨written.success, written.affectedRows, relations⟩

/-- One level of a cascade. -/
def deleteLevel (d : Dao) (step : CascadeStep) (q : Query) (force : Bool) (tx : Context) :
    Task Claims DeleteResult := do
  let dependents := (← Task.state).catalog.dependentsOf d.tableName
  if dependents.isEmpty then d.deleteRows q force [] tx
  else
    let doomed := (← execute (.rows (d.scope q)) (some tx)).rows
    let rows ← d.claimRows doomed
    let allClaimed := rows.length = doomed.length
    if !allClaimed && rows.isEmpty then return ⟨true, 0, []⟩
    else
      let q := if allClaimed then q else (d.keyScope? rows).getD q
      let removal ← removeDependents step rows dependents
      if removal.complete then d.deleteRows q force removal.relations tx
      else return ⟨false, 0, removal.relations⟩

end Dao

/-- Run a delete with its dependents, at most `levels` levels of them.  A statement has no
dependents of its own. -/
def DeleteOperation.cascade : (levels : Nat) → DeleteOperation → Query → (force : Bool) →
    Option Context → Task Claims DeleteResult
  | _, .statement d, q, _, ctx => do return DeleteResult.ofWrite (← d.call [.query q] ctx)
  | 0, .dao _, _, _, _ => Task.fail .cascadeTooDeep
  | levels + 1, .dao d, q, force, ctx =>
      transaction ctx fun tx =>
        d.deleteLevel (fun delete q => delete.cascade levels q force (some tx)) q force tx

namespace Dao

variable {σ : Type}

/-- Delete the rows of a query and everything that depends on them. -/
def deleteQuery (d : Dao) (levels : Nat) (q : Query) (force : Bool) (ctx : Option Context) :
    Task σ DeleteResult :=
  Task.withLocal ([] : Claims) ((DeleteOperation.dao d).cascade levels q force ctx)

/-- Delete the entities that a filter selects. -/
def deleteWhere (d : Dao) (levels : Nat) (f : Filter) (force : Bool) (ctx : Option Context) :
    Task σ DeleteResult := do
  let q ← Task.ofExcept f.toQuery
  d.deleteQuery levels q force ctx

/-- Delete the entity with a primary key. -/
def deleteByKey (d : Dao) (levels : Nat) (key : Value) (force : Bool) (ctx : Option Context) :
    Task σ DeleteResult := do
  let column ← Task.ofExcept d.requireKey
  d.deleteQuery levels (Query.empty.eq column.property key) force ctx

end Dao

end Persistence
