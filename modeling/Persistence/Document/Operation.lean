import Persistence.Config
import Persistence.Document.Query
import Persistence.Document.Table
import Persistence.Operation.Basic
import Persistence.Program.Basic

/-!
# Documents of operations

Operations, the options of a connect, and the positions of hooks.
-/

namespace Persistence

open Document

def Target.ofDocument (j : Json) : Decoded Target := do
  return ⟨← withDefault Mapping.empty Mapping.ofDocument j "mapping", flag j "soft_delete"⟩

def SelectShape.ofDocument (j : Json) : Decoded SelectShape := do
  match ← readText j with
  | "list" => return .list
  | "count" => return .count
  | "aggregation" => return .aggregation
  | _ => .error .malformed

/-- A select; one without a shape reads the first row. -/
def Select.ofDocument (j : Json) : Decoded Select := do
  return {
    template := ← textField j "sql"
    target := ← optional Target.ofDocument j "target"
    shape := ← withDefault .one SelectShape.ofDocument j "shape"
    depth := ← withDefault defaultDepth readNatural j "depth"
    rawPositions := ← list readNatural j "raw_positions" }

def Insert.ofDocument (j : Json) : Decoded Insert := do
  return ⟨← textField j "sql", ← list ValueColumn.ofDocument j "columns"⟩

def Update.ofDocument (j : Json) : Decoded Update := do
  return {
    template := ← textField j "sql"
    columns := ← list ValueColumn.ofDocument j "columns"
    target := ← optional Target.ofDocument j "target"
    rawPositions := ← list readNatural j "raw_positions" }

def Delete.ofDocument (j : Json) : Decoded Delete := do
  return {
    template := ← textField j "sql"
    target := ← optional Target.ofDocument j "target"
    rawPositions := ← list readNatural j "raw_positions" }

def SyncConfig.ofDocument (j : Json) : Decoded SyncConfig := need (SyncConfig.ofJson? j)

/-- The options of a connect to a given place. -/
def ConnectOptions.ofDocument (connection : ConnectionConfig) (j : Json) :
    Decoded ConnectOptions := do
  let base := ConnectOptions.of connection
  return { base with
    maxConnections := ← withDefault base.maxConnections readNatural j "max_connections"
    sync := ← withDefault base.sync SyncConfig.ofDocument j "auto_sync" }

def HookPosition.ofDocument (j : Json) : Decoded HookPosition := do
  match ← readText j with
  | "before" => return .before
  | "after" => return .after
  | _ => .error .malformed

def Dependent.toDocument (d : Dependent) : Json :=
  ofTexts [d.entity, d.table, d.property, d.targetProperty, d.targetColumn]

end Persistence
