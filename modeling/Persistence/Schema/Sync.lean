import Persistence.Program.Transaction
import Persistence.Schema.Live
import Persistence.Schema.Plan

/-!
# Schema synchronization

The statements about whole tables, and the synchronizer, which carries out its plan inside one
transaction: first all drops, then all creates, then all alterations.
-/

namespace Persistence

variable {σ : Type}

namespace Schema

/-- The names of all tables of the database. -/
def tableNames (ctx : Option Context) : Task σ (List String) := do
  let output ← execute .tableNames ctx
  return (output.rows.filterMap fun row => row.head?).filterMap fun (_, name) => name.str?

/-- Create a table. -/
def create (t : Table) (ctx : Option Context) : Task σ Output := do
  let names ← Task.ask .constraintNames
  execute (.createTable t names) ctx

/-- Drop a table. -/
def drop (name : String) (ctx : Option Context) : Task σ Output := execute (.dropTable name) ctx

/-- The statement with which the database itself would create a table. -/
def definition (name : String) (ctx : Option Context) : Task σ String := do
  let output ← execute (.definition name) ctx
  match output.rows.head?.bind fun row => textIn? row "Create Table" with
  | some sql => return sql
  | none => Task.fail (.noCreateStatement name)

/-- The description of a table by the database. -/
def describe (name : String) (ctx : Option Context) : Task σ LiveTable := do
  let columns := (← execute (.columns name) ctx).rows
  let indexes := (← execute (.indexes name) ctx).rows
  let foreignKeys := (← execute (.foreignKeys name) ctx).rows
  return {
    columns := LiveTable.columnsIn columns
    hasPrimaryKey := LiveTable.hasPrimaryKeyIn indexes
    uniqueIndexes := LiveTable.uniqueIndexesIn indexes
    foreignKeys := LiveTable.foreignKeysIn foreignKeys }

/-- Bring a table of the database into the form that is declared for it. -/
def update (t : Table) (ctx : Option Context) : Task σ Output := do
  let live ← describe t.name ctx
  let names ← Task.ask .constraintNames
  execute (.alterTable t.name (t.changes live names)) ctx

/-- Drop tables one after the other. -/
def dropAll (ctx : Option Context) : List String → Task σ Unit
  | [] => return ()
  | name :: names => do
      let _ ← drop name ctx
      dropAll ctx names

/-- Create tables one after the other. -/
def createAll (ctx : Option Context) : List Table → Task σ Unit
  | [] => return ()
  | t :: tables => do
      let _ ← create t ctx
      createAll ctx tables

/-- Alter tables one after the other. -/
def updateAll (ctx : Option Context) : List Table → Task σ Unit
  | [] => return ()
  | t :: tables => do
      let _ ← update t ctx
      updateAll ctx tables

/-- Carry out a plan. -/
def carryOut (p : SyncPlan) (ctx : Option Context) : Task σ SyncReport := do
  dropAll ctx p.drop
  createAll ctx p.create
  updateAll ctx p.alter
  return p.report

/-- The configuration of the synchronizer that is in force. -/
def syncConfig : Task σ SyncConfig := do
  let state ← Task.state
  return state.sync.withExceptions state.exceptTables

/-- Reconcile the database with the registered tables. -/
def synchronize (ctx : Option Context) : Task σ SyncReport :=
  transaction ctx fun tx => do
    let config ← syncConfig
    let live ← tableNames (some tx)
    let declared := (← Task.state).catalog.allTables
    carryOut (SyncPlan.make config live declared) (some tx)

/-- Replace the tables that are excepted everywhere. -/
def setExceptions (tables : List String) : Task σ Unit :=
  Task.modify fun state => { state with exceptTables := tables }

/-- Except more tables everywhere. -/
def addExceptions (tables : List String) : Task σ Unit :=
  Task.modify fun state => { state with exceptTables := state.exceptTables ++ tables }

end Schema

end Persistence
