import Persistence.Calendar.Reading
import Persistence.Calendar.Text
import Persistence.Document.Basic
import Persistence.Number.Reading
import Persistence.Value.Point

/-!
# Documents of values

Plain JSON stands for the value that it becomes as a whole.  The other values are objects with one
field whose key says what they are.  Written values are tagged lists, so that no two values look
alike.
-/

namespace Persistence

open Document

/-- A floating-point number from its text. -/
def Binary64.ofDocument (j : Json) : Decoded Binary64 := do need (Binary64.read? (← readText j))

def DateTime.ofDocument (j : Json) : Decoded DateTime := do need (DateTime.readIso? (← readText j))

def Date.ofDocument (j : Json) : Decoded Date := do need (Date.readLoose? (← readText j))

def TimeOfDay.ofDocument (j : Json) : Decoded TimeOfDay := do
  need (TimeOfDay.readLoose? (← readText j))

def Point.ofDocument (j : Json) : Decoded Point :=
  match Point.ofJson? j with
  | some p => .ok p
  | none => .error (.refused .serialization)

namespace Value

/-- The value of an object with one field; a key that says nothing leaves plain JSON. -/
def ofTagged (key : String) (j : Json) : Decoded Value :=
  match key with
  | "$float" => do return .float (← Binary64.ofDocument j)
  | "$uint" => do return .uint (← readNatural j)
  | "$datetime" => do return .datetime (← DateTime.ofDocument j)
  | "$date" => do return .date (← Date.ofDocument j)
  | "$time" => do return .time (← TimeOfDay.ofDocument j)
  | "$json" => .ok (.json j)
  | "$point" => do return .point (← Point.ofDocument j)
  | "$list" => .error .malformed
  | _ => .ok (Value.ofJson (.obj [(key, j)]))

mutual

/-- The value of a document. -/
def ofDocument : Json → Decoded Value
  | .obj [("$list", .arr items)] => do return .list (← ofDocuments items)
  | .obj [(key, j)] => ofTagged key j
  | j => .ok (Value.ofJson j)

/-- The values of some documents. -/
def ofDocuments : List Json → Decoded (List Value)
  | [] => .ok []
  | j :: items => do
      let value ← ofDocument j
      return value :: (← ofDocuments items)

end

end Value

/-- The number as text, in the notation of statements. -/
def Binary64.toDocument (x : Binary64) : Json := .str (x.text .plain)

namespace Value

mutual

/-- The tagged list of a value. -/
def toDocument : Value → Json
  | .null => .arr [.str "null"]
  | .bool b => .arr [.str "bool", .bool b]
  | .int n => .arr [.str "int", Json.ofInt n]
  | .uint n => .arr [.str "uint", ofNat n]
  | .float x => .arr [.str "float", x.toDocument]
  | .string s => .arr [.str "string", .str s]
  | .datetime t => .arr [.str "datetime", .str t.nanoText]
  | .date d => .arr [.str "date", .str d.text]
  | .time t => .arr [.str "time", .str t.nanoText]
  | .json j => .arr [.str "json", .str j.text]
  | .point p => .arr [.str "point", p.longitude.toDocument, p.latitude.toDocument, ofNat p.srid]
  | .list items => .arr [.str "list", .arr (toDocuments items)]

/-- The tagged lists of some values. -/
def toDocuments : List Value → List Json
  | [] => []
  | v :: values => v.toDocument :: toDocuments values

end

/-- The tagged list of a value, or null for none. -/
def toDocument? (v : Option Value) : Json := Json.ofOption toDocument v

end Value

end Persistence
