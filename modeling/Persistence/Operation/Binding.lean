import Persistence.Calendar.Reading
import Persistence.Json.Printer
import Persistence.Operation.Basic
import Persistence.Value.Point

/-!
# Values of columns

How the properties of an entity become the values of columns.  A property that is missing or null
takes the default of its column.  Points and moments are read from their JSON forms, other objects
and arrays are kept as JSON text, and scalars are kept as they are.
-/

namespace Persistence

/-- The moment that a JSON string names; anything else stays as it is. -/
def momentOrValue (j : Json) : Value :=
  match j with
  | .str s =>
      match DateTime.readZoned? s <|> DateTime.readIso? s with
      | some t => .datetime t
      | none => .string s
  | other => Value.ofJson other

namespace ValueColumn

/-- The value of a column for a property that is there and not null. -/
def convert (c : ValueColumn) (j : Json) : Except DbError Value :=
  match c.type with
  | .geometry =>
      match Point.ofJson? j with
      | some p => .ok (.point p)
      | none => .error .serialization
  | .datetime => .ok (momentOrValue j)
  | _ =>
      match j with
      | .obj fields => .ok (.string (Json.obj fields).text)
      | .arr items => .ok (.string (Json.arr items).text)
      | other => .ok (Value.ofJson other)

/-- The value of a column for an entity with the given fields. -/
def value (c : ValueColumn) (fields : Json.Fields) : Except DbError Value :=
  match fields.lookup c.property with
  | none => .ok (c.defaultValue.getD .null)
  | some j => if j.isNull then .ok (c.defaultValue.getD .null) else c.convert j

end ValueColumn

/-- The fields of an entity. -/
def entityFields : Json → Except DbError Json.Fields
  | .obj fields => .ok fields
  | other => .error (.validation (.entityExpected other))

/-- The values of columns for the fields of an entity, up to the first that has none. -/
def rowValues (columns : List ValueColumn) (fields : Json.Fields) : Except DbError (List Value) :=
  columns.mapM fun c => c.value fields

/-- The values of columns for an entity. -/
def entityValues (columns : List ValueColumn) (entity : Json) : Except DbError (List Value) := do
  rowValues columns (← entityFields entity)

/-- The statement of an insert of some entities. -/
def Insert.statementText (i : Insert) (entities : List Json) : Except DbError String := do
  let rows ← entities.mapM (entityValues i.columns)
  .ok (Sql.format i.template [.literal (.list (rows.map Value.list))])

/-- The statement of an update to the values of an entity; the entity counts as the argument at
position zero. -/
def Update.statementText (u : Update) (entity : Json) (args : List Param) :
    Except DbError String := do
  let values ← entityValues u.columns entity
  .ok (Sql.format u.template
    (values.map Param.literal ++ prepareParams u.target u.rawPositions 1 args))

end Persistence
