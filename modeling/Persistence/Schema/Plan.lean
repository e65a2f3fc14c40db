import Persistence.Config
import Persistence.Table.Creation

/-!
# Synchronization plans

What the synchronizer does about the tables of a database: drop what is live and not declared,
create what is declared and not live, and alter what is both.  Excepted tables appear nowhere;
dropping and altering have to be allowed.
-/

namespace Persistence

/-- The configuration in force: the tables that are excepted everywhere join those of the
configuration itself. -/
def SyncConfig.withExceptions (c : SyncConfig) (tables : List String) : SyncConfig :=
  { c with
    exceptTables :=
      tables.foldl (fun listed t => if t ∈ listed then listed else listed ++ [t]) c.exceptTables }

/-- The tables to drop, by name, to create and to alter, in this order. -/
structure SyncPlan where
  drop : List String
  create : List Table
  alter : List Table

/-- The tables that a synchronization has dropped, created and altered. -/
structure SyncReport where
  deleted : List String
  created : List String
  updated : List String
deriving DecidableEq

namespace SyncPlan

/-- The plan for the declared tables and the names of the live ones. -/
def make (c : SyncConfig) (live : List String) (declared : List Table) : SyncPlan :=
  let surplus := live.filter fun name => name ∉ declared.map Table.name
  let missing := declared.filter fun t => t.name ∉ live
  let shared := declared.filter fun t => t.name ∈ live
  let touched (name : String) : Bool := name ∉ c.exceptTables
  { drop := if c.deleteTables then surplus.filter touched else []
    create := (Table.creationOrder missing).filter fun t => touched t.name
    alter := if c.updateTables then shared.filter fun t => touched t.name else [] }

/-- What the plan reports once it is carried out. -/
def report (p : SyncPlan) : SyncReport := ⟨p.drop, p.create.map Table.name, p.alter.map Table.name⟩

end SyncPlan

end Persistence
