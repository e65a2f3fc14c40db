import Persistence.Json.Record
import Persistence.Value.Basic

/-!
# Points in JSON

A point is a record of `longitude`, `latitude` and `srid`, of which the last may be missing.
-/

namespace Persistence.Point

/-- The fields of a point. -/
def fieldNames : List String := ["longitude", "latitude", "srid"]

/-- The point that a JSON value describes. -/
def ofJson? (j : Json) : Option Point := do
  let fields ← j.record? fieldNames
  let longitude ← Json.required? Json.binary64? fields "longitude"
  let latitude ← Json.required? Json.binary64? fields "latitude"
  let srid ← Json.withDefault? defaultSrid (Json.natBelow? UInt32.size) fields "srid"
  some ⟨longitude, latitude, srid⟩

/-- A point as a JSON object; a coordinate that is not finite is `null`. -/
def toJson (p : Point) : Json :=
  .obj [("longitude", Json.ofFloat p.longitude), ("latitude", Json.ofFloat p.latitude),
    ("srid", Json.ofInt p.srid)]

end Persistence.Point
