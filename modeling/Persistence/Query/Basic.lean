import Persistence.Error
import Persistence.Value.Basic

/-!
# Queries

A query is a chain of conditions and of groups of conditions with connectors between them, plus
grouping and ordering.  It is built link by link: a condition or a group is appended together with
a trailing `and`, and `or` and `and` replace the connector at the end of the chain.

A condition whose operand is null is not appended, so that a filter may be left open.
-/

namespace Persistence

/-- A comparison of a column with a value. -/
inductive Comparison
  | eq
  | ne
  | gt
  | ge
  | lt
  | le
deriving DecidableEq

/-- The sides of a text on which a pattern is open. -/
inductive Openness
  | both
  | left
  | right
deriving DecidableEq

/-- A condition on one field. -/
inductive Condition
  | compare (op : Comparison) (field : String) (value : Value)
  | between (negated : Bool) (field : String) (low high : Value)
  | like (negated : Bool) (openness : Openness) (field : String) (value : Value)
  | isNull (negated : Bool) (field : String)
  | among (negated : Bool) (field : String) (values : Value)
  | includes (field : String) (document : Json)

/-- How two conditions are joined. -/
inductive Connector
  | and
  | or
deriving DecidableEq

/-- A link of a chain of conditions. -/
inductive Link
  | condition (c : Condition)
  | connector (c : Connector)
  | group (links : List Link)

/-- The direction of an ordering. -/
inductive Order
  | asc
  | desc
deriving DecidableEq

/-- A chain of conditions with grouping and ordering. -/
structure Query where
  links : List Link
  groupBy : List String
  orderBy : List String
  order : Order

/-- Whether a link is a connector. -/
def Link.isConnector : Link → Bool
  | connector _ => true
  | _ => false

namespace Query

/-- The query that selects everything. -/
def empty : Query := ⟨[], [], [], .asc⟩

/-! ## Links -/

/-- Append a link and an `and` behind it. -/
def append (q : Query) (link : Link) : Query :=
  { q with links := q.links ++ [link, .connector .and] }

/-- Append a condition. -/
def appendCondition (q : Query) (c : Condition) : Query := q.append (.condition c)

/-- Append a condition on one operand, unless the operand is null. -/
def appendUnlessNull (q : Query) (value : Value) (c : Condition) : Query :=
  if value.isNull then q else q.appendCondition c

/-- Append a group of conditions. -/
def nested (q : Query) (sub : Query) : Query := q.append (.group sub.links)

/-- The links without a connector at their end. -/
def dropConnector (links : List Link) : List Link :=
  match links.getLast? with
  | some link => if link.isConnector then links.dropLast else links
  | none => links

/-- Put a connector in place of the one at the end of the chain; an empty chain takes none. -/
def connect (q : Query) (c : Connector) : Query :=
  let links := dropConnector q.links
  { q with links := if links.isEmpty then [] else links ++ [.connector c] }

/-- Join what follows with `or`. -/
def or (q : Query) : Query := q.connect .or

/-- Join what follows with `and`. -/
def and (q : Query) : Query := q.connect .and

/-! ## Conditions -/

/-- Compare a field with a value. -/
def compare (q : Query) (op : Comparison) (field : String) (value : Value) : Query :=
  q.appendUnlessNull value (.compare op field value)

/-- A field equals a value. -/
def eq (q : Query) (field : String) (value : Value) : Query := q.compare .eq field value

/-- A field lies between two values, or not. -/
def between (q : Query) (negated : Bool) (field : String) (low high : Value) : Query :=
  if low.isNull || high.isNull then q else q.appendCondition (.between negated field low high)

/-- A field contains a text, ends with it or starts with it, or not. -/
def like (q : Query) (negated : Bool) (openness : Openness) (field : String) (value : Value) :
    Query :=
  q.appendUnlessNull value (.like negated openness field value)

/-- A field is null, or not. -/
def isNull (q : Query) (negated : Bool) (field : String) : Query :=
  q.appendCondition (.isNull negated field)

/-- A field is one of some values, or not. -/
def among (q : Query) (negated : Bool) (field : String) (values : Value) : Query :=
  q.appendUnlessNull values (.among negated field values)

/-- A document field includes a document. -/
def includes (q : Query) (field : String) (document : Json) : Query :=
  if document.isNull then q else q.appendCondition (.includes field document)

/-! ## Conditions from objects -/

/-- The fields of an object that are not null; `null` has none. -/
def objectFields (partialObject : Json) : Except DbError (List (String × Value)) :=
  match partialObject with
  | .obj fields =>
      .ok ((fields.filter fun (_, v) => !v.isNull).map fun (k, v) => (k, Value.ofJson v))
  | .null => .ok []
  | other => .error (.validation (.fieldsExpected other))

/-- A group that asks for all fields of an object. -/
def everyEq (q : Query) (partialObject : Json) : Except DbError Query := do
  let fields ← objectFields partialObject
  .ok (q.nested (fields.foldl (fun sub (k, v) => sub.eq k v) empty))

/-- A group that asks for some field of an object. -/
def someEq (q : Query) (partialObject : Json) : Except DbError Query := do
  let fields ← objectFields partialObject
  .ok (q.nested (fields.foldl (fun sub (k, v) => sub.or.eq k v) empty))

/-! ## Grouping and ordering -/

/-- Append the fields that are not there yet. -/
def addFields (fields : List String) (more : List String) : List String :=
  more.foldl (fun fields field => if field ∈ fields then fields else fields ++ [field]) fields

/-- Group by fields. -/
def withGroupBy (q : Query) (fields : List String) : Query :=
  { q with groupBy := addFields q.groupBy fields }

/-- Order by fields; the last direction given holds for all of them. -/
def withOrderBy (q : Query) (order : Order) (fields : List String) : Query :=
  { q with order, orderBy := addFields q.orderBy fields }

end Query

end Persistence
