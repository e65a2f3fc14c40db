import Persistence.Calendar.Reading
import Persistence.Calendar.Text
import Persistence.Entity.Codec
import Persistence.Keyed
import Persistence.Value.Point

/-!
# Shapes

A shape describes the values of a property by the JSON that they are read from.  Reading brings a
value into a normal form: every field of a record is there, numbers have the kind that the shape
asks for, and moments are written in one way.  Records go by name, so that they may contain each
other.
-/

namespace Persistence

/-- What values a property has. -/
inductive Shape
  | any
  | bool
  | int (low high : Int)
  | float
  | text
  | character
  | date
  /-- A moment without a time zone. -/
  | moment
  /-- A moment in UTC. -/
  | instant
  | point
  | optional (s : Shape)
  | list (s : Shape)
  /-- Integers without repetitions, in ascending order. -/
  | set (s : Shape)
  /-- Values by text, in ascending order of the texts. -/
  | map (s : Shape)
  /-- Texts by pairs of integers, read from a list of triples.  Only the empty map can be written,
  because JSON has no such keys. -/
  | cells
  | record (name : String)

/-- A field of a record. -/
structure Shape.Field where
  name : String
  shape : Shape
  /-- The value in place of a missing one. -/
  fallback : Option Json

/-- A record: its fields, and whether it refuses fields that it does not know. -/
structure Shape.Record where
  fields : List Shape.Field
  closed : Bool

mutual

/-- The number of arrays and objects around the innermost scalar of a value. -/
def Json.depth : Json → Nat
  | .arr items => Json.itemsDepth items + 1
  | .obj fields => Json.fieldsDepth fields + 1
  | _ => 0

/-- The largest depth of the items of an array. -/
def Json.itemsDepth : List Json → Nat
  | [] => 0
  | item :: items => max item.depth (Json.itemsDepth items)

/-- The largest depth of the fields of an object. -/
def Json.fieldsDepth : List (String × Json) → Nat
  | [] => 0
  | (_, value) :: fields => max value.depth (Json.fieldsDepth fields)

end

namespace Shape

/-! ## Scalars -/

/-- The integers of a number of bits with a sign. -/
def signed (bits : Nat) : Shape := int (-wordCount (bits - 1)) (wordCount (bits - 1) - 1)

/-- The natural numbers of a number of bits. -/
def unsigned (bits : Nat) : Shape := int 0 (wordCount bits - 1)

/-- An integer between two others. -/
def readInt? (low high : Int) : Json → Option Json
  | .num (.int n fits) => if low ≤ n && n ≤ high then some (.num (.int n fits)) else none
  | _ => none

/-- A text of one character. -/
def readCharacter? (j : Json) : Option Json := do
  let s ← j.str?
  if s.length = 1 then some (.str s) else none

/-- The integer of a value that is one. -/
def intOf (j : Json) : Int :=
  match j with
  | .num (.int n _) => n
  | _ => 0

/-- Put an integer into a list of integers that ascend. -/
def insertInt (j : Json) : List Json → List Json
  | [] => [j]
  | k :: items =>
      if intOf j = intOf k then k :: items
      else if intOf j < intOf k then j :: k :: items
      else k :: insertInt j items

/-- A cell of a map by pairs: two integers and a text. -/
def readCell? (j : Json) : Option Json := do
  match ← j.arr? with
  | [x, y, s] => do
      let _ ← x.int64?
      let _ ← y.int64?
      let _ ← s.str?
      some (.arr [x, y, s])
  | _ => none

/-! ## Reading -/

/-- The fields of a record in their order: each as it was read, or its fallback. -/
def readFields? (read : Shape → Json → Option Json) (given : Json.Fields) :
    List Field → Option Json.Fields
  | [] => some []
  | f :: fields => do
      let value ←
        match given.lookup f.name with
        | some j => read f.shape j
        | none => f.fallback
      some ((f.name, value) :: (← readFields? read given fields))

/-- The names of the fields of a record. -/
def Record.names (r : Record) : List String := r.fields.map Field.name

/-- The fields that are given for a record: those of an object, unless the record refuses some of
them, or the items of an array that has one for each field. -/
def givenFields? (r : Record) : Json → Option Json.Fields
  | .obj given => if r.closed && given.any fun (key, _) => key ∉ r.names then none else some given
  | .arr items => if items.length = r.fields.length then some (r.names.zip items) else none
  | _ => none

/-- Read a value in which at most `depth` records lie inside each other. -/
def readAt? (records : List (String × Record)) : (depth : Nat) → Shape → Json → Option Json
  | _, any, j => some j
  | _, bool, j => j.bool?.map Json.bool
  | _, int low high, j => readInt? low high j
  | _, float, j => (Json.binary64? j).map Json.ofFloat
  | _, text, j => j.str?.map Json.str
  | _, character, j => readCharacter? j
  | _, date, j => do some (.str (← Date.readLoose? (← j.str?)).text)
  | _, moment, j => do some (.str (← DateTime.readIso? (← j.str?)).isoText)
  | _, instant, j => do some (.str ((← DateTime.readLooseZoned? (← j.str?)).isoText ++ "Z"))
  | _, point, j => (Point.ofJson? j).map Point.toJson
  | depth, optional s, j => if j.isNull then some .null else readAt? records depth s j
  | depth, list s, j => do some (.arr (← (← j.arr?).mapM (readAt? records depth s)))
  | depth, set s, j => do
      let items ← (← j.arr?).mapM (readAt? records depth s)
      some (.arr (items.foldl (fun sorted item => insertInt item sorted) []))
  | depth, map s, j => do
      let values ← (← j.obj?).mapM fun (key, value) =>
        (readAt? records depth s value).map fun value => (key, value)
      some (.obj (values.foldl (fun sorted (key, value) => Keyed.putSorted key value sorted) []))
  | _, cells, j => do some (.arr (← (← j.arr?).mapM readCell?))
  | 0, record _, _ => none
  | depth + 1, record name, j => do
      let r ← records.lookup name
      some (.obj (← readFields? (readAt? records depth) (← givenFields? r j) r.fields))
termination_by depth s => (depth, sizeOf s)

/-- Read a value and bring it into its normal form. -/
def read? (records : List (String × Record)) (s : Shape) (j : Json) : Option Json :=
  readAt? records j.depth s j

/-! ## Writing -/

/-- Write the cells of a map by pairs. -/
def writeCells? (j : Json) : Option Json :=
  match j with
  | .arr [] => some (.obj [])
  | _ => none

/-- Write the fields of a record from their normal forms. -/
def writeFields? (write : Shape → Json → Option Json) (values : Json.Fields) :
    List Field → Option Json.Fields
  | [] => some []
  | f :: fields => do
      let value ← write f.shape ((values.lookup f.name).getD .null)
      some ((f.name, value) :: (← writeFields? write values fields))

/-- Write a value from its normal form, in which at most `depth` records lie inside each other. -/
def writeAt? (records : List (String × Record)) : (depth : Nat) → Shape → Json → Option Json
  | depth, optional s, j => if j.isNull then some .null else writeAt? records depth s j
  | depth, list s, j => do some (.arr (← (← j.arr?).mapM (writeAt? records depth s)))
  | _, cells, j => writeCells? j
  | depth + 1, record name, j => do
      let r ← records.lookup name
      some (.obj (← writeFields? (writeAt? records depth) (← j.obj?) r.fields))
  | _, _, j => some j
termination_by depth s => (depth, sizeOf s)

/-- Write a value from its normal form. -/
def write? (records : List (String × Record)) (s : Shape) (j : Json) : Option Json :=
  writeAt? records j.depth s j

end Shape

/-- The codec of the objects that have the shape of a record. -/
def Codec.ofRecord (records : List (String × Shape.Record)) (name : String) : Codec where
  decode j :=
    match Shape.read? records (.record name) j with
    | some value => .ok value
    | none => .error .deserialization
  encode j :=
    match Shape.write? records (.record name) j with
    | some value => .ok value
    | none => .error .serialization

end Persistence
