import Persistence.Calendar.Text
import Persistence.Json.Printer
import Persistence.Text.Marked
import Persistence.Value.Basic

/-!
# Structural dumps

A dump shows how a value is built: the name of its kind and its parts in parentheses.  Texts stand
between double quotes, with an escape for every character that cannot be seen as it is.
-/

namespace Persistence

namespace Inspect

/-- A character inside the quotes of a dump. -/
def escaped (c : Char) : List Char :=
  if c = '\x00' then ['\\', '0']
  else if c = '\t' then ['\\', 't']
  else if c = '\n' then ['\\', 'n']
  else if c = '\r' then ['\\', 'r']
  else if c = '"' || c = '\\' then ['\\', c]
  else if Text.isMarked c then
    '\\' :: 'u' :: '{' :: (Nat.toDigits 16 c.toNat ++ ['}'])
  else [c]

/-- A text between quotes. -/
def quoted (s : String) : String :=
  "\"" ++ String.ofList (s.toList.flatMap escaped) ++ "\""

/-- Parts behind the name of their kind. -/
def tagged (name body : String) : String := name ++ "(" ++ body ++ ")"

/-- Parts in a row between brackets. -/
def bracketed (parts : List String) : String := "[" ++ ", ".intercalate parts ++ "]"

end Inspect

open Inspect

mutual

/-- The dump of a JSON value. -/
def Json.inspect : Json → String
  | .null => "Null"
  | .bool b => tagged "Bool" (toString b)
  | .num n => tagged "Number" (Json.text (.num n))
  | .str s => tagged "String" (quoted s)
  | .arr items => "Array " ++ bracketed (inspectItems items)
  | .obj fields => "Object \x7b" ++ ", ".intercalate (inspectFields fields) ++ "\x7d"

/-- The dumps of the items of an array. -/
def Json.inspectItems : List Json → List String
  | [] => []
  | item :: items => item.inspect :: Json.inspectItems items

/-- The dumps of the fields of an object. -/
def Json.inspectFields : List (String × Json) → List String
  | [] => []
  | (key, value) :: fields => (quoted key ++ ": " ++ value.inspect) :: Json.inspectFields fields

end

/-- The dump of a point. -/
def Point.inspect (p : Point) : String :=
  "GeometryPoint \x7b longitude: " ++ p.longitude.text .inspected ++ ", latitude: " ++
    p.latitude.text .inspected ++ ", srid: " ++ toString p.srid ++ " \x7d"

mutual

/-- The dump of a value. -/
def Value.inspect : Value → String
  | .null => "Null"
  | .bool b => tagged "Bool" (toString b)
  | .int n => tagged "Int" (toString n)
  | .uint n => tagged "UInt" (toString n)
  | .float x => tagged "Float" (x.text .inspected)
  | .string s => tagged "String" (quoted s)
  | .datetime t => tagged "Datetime" t.isoText
  | .date d => tagged "Date" d.text
  | .time t => tagged "Time" t.groupedText
  | .json j => tagged "Json" j.inspect
  | .point p => tagged "Point" p.inspect
  | .list items => tagged "List" (bracketed (inspectItems items))

/-- The dumps of the items of a list. -/
def Value.inspectItems : List Value → List String
  | [] => []
  | item :: items => item.inspect :: Value.inspectItems items

end

end Persistence
