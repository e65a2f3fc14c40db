import Persistence.Calendar.Reading
import Persistence.Calendar.Text
import Persistence.Json.Parser
import Persistence.MySql.Geometry
import Persistence.Number.Reading
import Persistence.Text.Utf8

/-!
# Columns of results

The server sends every value as text, together with a description of its column.  The description
decides how the text is read: as a boolean, a number, a moment, a document, a point or a text.
-/

namespace Persistence.MySql

/-- The types of columns in results. -/
inductive WireType
  | tiny
  | short
  | int24
  | long
  | longlong
  | year
  | float
  | double
  | decimal
  | datetime
  | timestamp
  | date
  | time
  | json
  | geometry
  | blob
  | text
deriving DecidableEq

/-- The description of a column. -/
structure ColumnInfo where
  name : String
  type : WireType
  length : Nat
  unsigned : Bool

/-- How the values of a column are read. -/
inductive Reading
  | flag
  | integer
  | natural
  | float
  | decimal
  | moment
  | date
  | document
  | point
  /-- Bytes that may spell a text, which may be a document. -/
  | bytes
  | text
deriving DecidableEq

/-- Whether the values of a column are integers. -/
def WireType.isInteger : WireType → Bool
  | tiny | short | int24 | long | longlong => true
  | _ => false

/-- How the values of a column are read.  An integer of one digit is a boolean. -/
def ColumnInfo.reading (c : ColumnInfo) : Reading :=
  if c.type = .tiny ∧ c.length = 1 then .flag
  else if c.type.isInteger then if c.unsigned then .natural else .integer
  else
    match c.type with
    | .year => .integer
    | .float | .double => .float
    | .decimal => .decimal
    | .datetime | .timestamp => .moment
    | .date => .date
    | .json => .document
    | .geometry => .point
    | .blob => .bytes
    | _ => .text

/-! ## Values -/

/-- A document, or the text itself where it is none. -/
def documentOrText (s : String) : Json := (Json.parse? s).getD (.str s)

/-- The value of a text column: the document that it holds, if it starts as an object or an array,
else the text. -/
def textValue (s : String) : Json :=
  match (Text.dropBlank s.toList).head? with
  | some c => if c = '{' || c = '[' then documentOrText s else .str s
  | none => .str s

/-- A number of decimal digits, or the text itself where it stands for no finite number. -/
def decimalValue (s : String) : Json :=
  match Binary64.read? s with
  | some x => if x.isFinite then Json.ofFloat x else .str s
  | none => .str s

/-- An integer of eight bits that tells a boolean. -/
def readFlag? (s : String) : Option Json := do
  let n ← readInt64? s.toList
  if -128 ≤ n ∧ n < 128 then some (.bool (n ≠ 0)) else none

/-- Whether the bytes of a moment or a date stand for none at all. -/
def isZeroDate (bytes : List UInt8) : Bool := bytes.head? == some 0

/-- The value that a text stands for. -/
def Reading.ofText? (s : String) : Reading → Option Json
  | flag => readFlag? s
  | integer => (readInt64? s.toList).map Json.ofInt
  | natural => (readUInt64? s.toList).map fun n => Json.ofInt n
  | float => (Binary64.read? s).map Json.ofFloat
  | decimal => some (decimalValue s)
  | moment => (DateTime.readSql? s).map fun t => .str t.isoText
  | date => (Date.read? s).map fun d => .str d.text
  | document => some (documentOrText s)
  | _ => some (.str s)

/-- The value that some bytes stand for. -/
def Reading.value? (bytes : List UInt8) : Reading → Option Json
  | point => (readPoint? bytes).map Point.toJson
  | .bytes => some (textValue (Text.utf8Lenient bytes))
  | moment => if isZeroDate bytes then some .null else ofText bytes moment
  | date => if isZeroDate bytes then some .null else ofText bytes date
  | reading => ofText bytes reading
where
  /-- The value of bytes that have to be a text. -/
  ofText (bytes : List UInt8) (reading : Reading) : Option Json :=
    (Text.utf8Strict? bytes).bind fun s => reading.ofText? s

/-- A cell of a result; a null has no bytes. -/
abbrev Cell := Option (List UInt8)

/-- The value of a cell. -/
def ColumnInfo.value? (c : ColumnInfo) : Cell → Option Json
  | none => some .null
  | some bytes => c.reading.value? bytes

end Persistence.MySql
