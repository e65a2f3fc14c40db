import Persistence.Mapping
import Persistence.Query.Basic
import Persistence.Sql.Literal

/-!
# Queries as SQL

The clause of a query under a mapping.  A chain is first cut into fragments, each with the
connector that stands before it: a condition is a fragment, a group is one in parentheses unless
it is empty, and connectors without a fragment on either side vanish.  An empty group does not
count as a fragment, so the connector in front of it stays in force.
-/

namespace Persistence

/-- The column that flags the deleted rows of a table with soft deletion. -/
def softDeleteColumn : String := "_is_delete"

def Connector.text : Connector → String
  | and => "and"
  | or => "or"

def Order.text : Order → String
  | asc => "ASC"
  | desc => "DESC"

def Comparison.text : Comparison → String
  | eq => "="
  | ne => "<>"
  | gt => ">"
  | ge => ">="
  | lt => "<"
  | le => "<="

/-- A word in front of what a negated condition negates. -/
def negation (negated : Bool) : String := if negated then "not " else ""

/-- The pattern that is open on the given sides of a text. -/
def Openness.pattern (text : String) : Openness → String
  | both => "%" ++ text ++ "%"
  | left => "%" ++ text
  | right => text ++ "%"

/-- The list that a value spells; the empty list has no text. -/
def listText? : Value → Option String
  | .list [] => none
  | v => some v.literal

namespace Condition

/-- A condition as SQL.  Nothing is among no values: the condition is a constant then. -/
def text (m : Mapping) : Condition → String
  | compare op field value => m.columnName field ++ " " ++ op.text ++ " " ++ value.literal
  | between negated field low high =>
      m.columnName field ++ " " ++ negation negated ++ "between " ++ low.literal ++ " and " ++
        high.literal
  | like negated openness field value =>
      m.columnName field ++ " " ++ negation negated ++ "like binary " ++
        Sql.stringLiteral (openness.pattern value.rawText)
  | isNull negated field => m.columnName field ++ " is " ++ negation negated ++ "null"
  | among negated field values =>
      match listText? values with
      | some texts => m.columnName field ++ " " ++ negation negated ++ "in (" ++ texts ++ ")"
      | none => if negated then "1 = 1" else "1 = 0"
  | includes field document =>
      "json_contains(" ++ m.columnName field ++ ", " ++ Sql.stringLiteral document.text ++ ")"

end Condition

/-! ## Fragments -/

/-- The fragments of a chain in a row, each behind its connector, the first without one. -/
def joinFragments : List (Connector × String) → String
  | [] => ""
  | [(_, fragment)] => fragment
  | (_, fragment) :: (c, next) :: rest =>
      fragment ++ " " ++ c.text ++ " " ++ joinFragments ((c, next) :: rest)

/-- The fragments of a chain; `c` is the connector in force in front of it. -/
def fragments (m : Mapping) (c : Connector) : List Link → List (Connector × String)
  | [] => []
  | .connector next :: links => fragments m next links
  | .condition condition :: links => (c, condition.text m) :: fragments m .and links
  | .group sub :: links =>
      match fragments m .and sub with
      | [] => fragments m c links
      | inner => (c, "(" ++ joinFragments inner ++ ")") :: fragments m .and links

namespace Query

/-- The condition of a query, without the word `where`. -/
def whereText (q : Query) (m : Mapping) : String := joinFragments (fragments m .and q.links)

/-- Whether a query has no condition. -/
def isEmpty (q : Query) : Bool := (q.whereText Mapping.empty).isEmpty

/-- A condition restricted to the rows that are not deleted. -/
def liveText (condition : String) : String :=
  if condition.isEmpty then softDeleteColumn ++ " = 0"
  else softDeleteColumn ++ " = 0 and (" ++ condition ++ ")"

/-- Some words and what they introduce, or nothing if that is empty. -/
def introduced (words body : String) : String := if body.isEmpty then "" else words ++ body

/-- The columns that a query groups by. -/
def groupText (q : Query) (m : Mapping) : String :=
  ",".intercalate (q.groupBy.map m.columnName)

/-- The columns that a query orders by, each with the direction. -/
def orderText (q : Query) (m : Mapping) : String :=
  ",".intercalate (q.orderBy.map fun field => m.columnName field ++ " " ++ q.order.text)

/-- The clauses of a query, each behind a blank.  With `softDelete` the condition is restricted to
the rows that are not deleted. -/
def clauseText (q : Query) (m : Mapping) (softDelete : Bool) : String :=
  let condition := q.whereText m
  introduced " where " (if softDelete then liveText condition else condition) ++
    (if q.groupBy.isEmpty then "" else " group by " ++ q.groupText m) ++
    (if q.orderBy.isEmpty then "" else " order by " ++ q.orderText m)

end Query

end Persistence
