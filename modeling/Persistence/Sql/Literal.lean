import Persistence.Calendar.Text
import Persistence.Json.Printer
import Persistence.Sql.Quoted
import Persistence.Value.Basic

/-!
# Values as SQL

The literal of a value is what stands for it in a statement.  A list is its literals in a row,
with the lists among them in parentheses, so that a list of rows reads `(a, b), (c, d)`.
-/

namespace Persistence

/-- The expression that makes a point. -/
def Point.literal (p : Point) : String :=
  "st_geomfromtext('point(" ++ p.longitude.text Decimal.Layout.plain ++ " " ++
    p.latitude.text Decimal.Layout.plain ++ ")', " ++ toString p.srid ++ ")"

namespace Value

/-- The text of a truth value. -/
def boolText (b : Bool) : String := if b then "true" else "false"

/-- The literal of a floating-point number; one that is not finite is `NULL`. -/
def floatLiteral (x : Binary64) : String :=
  if x.isFinite then x.text Decimal.Layout.plain else "NULL"

/-- A text between single quotes, as it is. -/
def quoted (s : String) : String := "'" ++ s ++ "'"

mutual

/-- The SQL literal of a value. -/
def literal : Value → String
  | null => "NULL"
  | bool b => boolText b
  | int n => toString n
  | uint n => toString n
  | float x => floatLiteral x
  | string s => Sql.stringLiteral s
  | datetime t => quoted t.sqlText
  | date d => quoted d.text
  | time t => quoted t.milliText
  | json j => Sql.stringLiteral j.text
  | point p => p.literal
  | list items => ", ".intercalate (itemLiterals items)

/-- The literals of the items of a list; an item that is a list itself is in parentheses. -/
def itemLiterals : List Value → List String
  | [] => []
  | list items :: rest => ("(" ++ ", ".intercalate (itemLiterals items) ++ ")") :: itemLiterals rest
  | item :: rest => literal item :: itemLiterals rest

end

/-- The value as bare SQL: a string without quotes, everything else as its literal. -/
def rawText : Value → String
  | string s => s
  | v => v.literal

end Value

end Persistence
