import Persistence.Document.Value
import Persistence.Operation.Basic
import Persistence.Schema.Plan

/-!
# Documents of failures and results
-/

namespace Persistence

open Document

/-! ## Failures -/

/-- The kind of a failure. -/
def DbError.kind : DbError → String
  | .connection _ | .alreadyConnected => "Connection"
  | .database _ | .noCreateStatement _ => "Database"
  | .validation _ => "Validation"
  | .serialization => "Serialization"
  | .deserialization => "Deserialization"
  | .notConnected => "NotConnected"
  | .poolClosed => "PoolClosed"
  | .contextClosed => "ContextClosed"
  | .notRegistered _ => "NotRegistered"
  | .cascadeTooDeep => "CascadeTooDeep"

/-- A failure that a driver or a hook reports, by its kind. -/
def DbError.ofDocument (j : Json) : Decoded DbError := do
  let message ← withDefault "" readText j "message"
  match ← textField j "kind" with
  | "Connection" => return .connection message
  | "Database" => return .database message
  | "Validation" => return .validation (.reported message)
  | "Serialization" => return .serialization
  | "Deserialization" => return .deserialization
  | "NotConnected" => return .notConnected
  | "PoolClosed" => return .poolClosed
  | "ContextClosed" => return .contextClosed
  | "NotRegistered" => return .notRegistered (.reported message)
  | _ => .error .malformed

/-- The fields that report a failure.  Where the wording is that of the JSON reader it is left
out. -/
def DbError.toFields (e : DbError) : Json.Fields :=
  let kind := ("error", .str e.kind)
  match e with
  | .serialization | .deserialization => [kind]
  | e => [kind, ("message", .str e.message)]

/-! ## Answers of the database -/

def Row.ofDocument (j : Json) : Decoded Row := need j.obj?

def Output.ofDocument (j : Json) : Decoded Output := do
  return {
    rows := ← list Row.ofDocument j "rows"
    affectedRows := ← withDefault 0 readNatural j "affected_rows"
    lastInsertId := ← naturalField? j "last_insert_id"
    fieldCount := ← withDefault 0 readNatural j "field_count" }

def Output.toDocument (o : Output) : Json :=
  .obj
    [("rows", .arr (o.rows.map Json.obj)), ("affected_rows", ofNat o.affectedRows),
     ("last_insert_id", ofNat? o.lastInsertId), ("field_count", ofNat o.fieldCount),
     ("success", .bool o.isSuccess)]

/-! ## Results of operations -/

def WriteResult.toDocument (r : WriteResult) : Json :=
  .obj
    [("success", .bool r.success), ("affected_rows", ofNat r.affectedRows),
     ("insert_id", ofNat? r.insertId)]

def RelationCount.toDocument (c : RelationCount) : Json := .arr [.str c.table, ofNat c.count]

def DeleteResult.toDocument (r : DeleteResult) : Json :=
  .obj
    [("success", .bool r.success), ("count", ofNat r.count),
     ("relations", .arr (r.relations.map RelationCount.toDocument)),
     ("relation_count", ofNat r.relationCount)]

def Selection.ofDocument : Json → Decoded Selection
  | .arr [.str "scalar", v] => .ok (.scalar v)
  | .arr [.str "one", v] => .ok (.one (some v))
  | .arr [.str "none"] => .ok (.one none)
  | .arr [.str "list", .arr vs] => .ok (.list vs)
  | _ => .error .malformed

def Selection.toDocument : Selection → Json
  | .scalar v => .arr [.str "scalar", v]
  | .one (some v) => .arr [.str "one", v]
  | .one none => .arr [.str "none"]
  | .list vs => .arr [.str "list", .arr vs]

def SyncReport.toDocument (r : SyncReport) : Json :=
  .obj
    [("deleted", ofTexts r.deleted), ("created", ofTexts r.created),
     ("updated", ofTexts r.updated)]

end Persistence
