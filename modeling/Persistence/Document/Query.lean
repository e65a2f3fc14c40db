import Persistence.Document.Value
import Persistence.Mapping
import Persistence.Query.Basic
import Persistence.Sql.Param

/-!
# Documents of queries

A query is the list of the calls that build it, each a list of a name and its arguments.
Parameters are tagged, and a mapping is an object from properties to columns or look-ups.
-/

namespace Persistence

open Document

def Order.ofDocument : Json → Decoded Order
  | .str "asc" => .ok .asc
  | .str "desc" => .ok .desc
  | _ => .error .malformed

namespace Query

/-- Append a comparison. -/
def compareDocument (q : Query) (op : Comparison) (name value : Json) : Decoded Query := do
  return q.compare op (← readText name) (← Value.ofDocument value)

/-- Append a comparison with a pattern. -/
def likeDocument (q : Query) (negated : Bool) (openness : Openness) (name value : Json) :
    Decoded Query := do
  return q.like negated openness (← readText name) (← Value.ofDocument value)

/-- Append a comparison with a range. -/
def betweenDocument (q : Query) (negated : Bool) (name low high : Json) : Decoded Query := do
  return q.between negated (← readText name) (← Value.ofDocument low) (← Value.ofDocument high)

/-- Make a call that has no query in its arguments. -/
def ofPlainCall (q : Query) (call : String) (args : List Json) : Decoded Query :=
  match call, args with
  | "eq", [f, v] => q.compareDocument .eq f v
  | "ne", [f, v] => q.compareDocument .ne f v
  | "gt", [f, v] => q.compareDocument .gt f v
  | "ge", [f, v] => q.compareDocument .ge f v
  | "lt", [f, v] => q.compareDocument .lt f v
  | "le", [f, v] => q.compareDocument .le f v
  | "like", [f, v] => q.likeDocument false .both f v
  | "not_like", [f, v] => q.likeDocument true .both f v
  | "like_left", [f, v] => q.likeDocument false .left f v
  | "like_right", [f, v] => q.likeDocument false .right f v
  | "not_like_left", [f, v] => q.likeDocument true .left f v
  | "not_like_right", [f, v] => q.likeDocument true .right f v
  | "in", [f, v] => do return q.among false (← readText f) (← Value.ofDocument v)
  | "not_in", [f, v] => do return q.among true (← readText f) (← Value.ofDocument v)
  | "includes", [f, v] => do return q.includes (← readText f) v
  | "between", [f, low, high] => q.betweenDocument false f low high
  | "not_between", [f, low, high] => q.betweenDocument true f low high
  | "is_null", [f] => do return q.isNull false (← readText f)
  | "is_not_null", [f] => do return q.isNull true (← readText f)
  | "or", [] => .ok q.or
  | "and", [] => .ok q.and
  | "every_eq", [fields] => accepted (q.everyEq fields)
  | "some_eq", [fields] => accepted (q.someEq fields)
  | "group_by", [fields] => do return q.withGroupBy (← listOf readText fields)
  | "order_by", [o, fields] => do
      return q.withOrderBy (← Order.ofDocument o) (← listOf readText fields)
  | _, _ => .error .malformed

mutual

/-- Make a call. -/
def ofCall (q : Query) : Json → Decoded Query
  | .arr [.str "nested", .arr calls] => do return q.nested (← ofCalls Query.empty calls)
  | .arr [.str "or_nested", .arr calls] => do return q.or.nested (← ofCalls Query.empty calls)
  | .arr [.str "and_nested", .arr calls] => do return q.and.nested (← ofCalls Query.empty calls)
  | .arr (.str call :: args) => q.ofPlainCall call args
  | _ => .error .malformed

/-- Make calls one after the other. -/
def ofCalls (q : Query) : List Json → Decoded Query
  | [] => .ok q
  | call :: calls => do (← ofCall q call).ofCalls calls

end

/-- The query that a list of calls builds. -/
def ofDocument (j : Json) : Decoded Query := do ofCalls Query.empty (← readArray j)

end Query

def Param.ofDocument : Json → Decoded Param
  | .obj [("lit", v)] => do return .literal (← Value.ofDocument v)
  | .obj [("raw", s)] => do return .raw (← readText s)
  | .obj [("query", calls)] => do return .query (← Query.ofDocument calls)
  | _ => .error .malformed

namespace Mapping

/-- A look-up with its source, its target and the select that it runs. -/
def Lookup.ofDocument (j : Json) : Decoded Lookup := do
  return ⟨← textField j "source", ← textField? j "target", ← textField j "select"⟩

/-- Add an entry: a column by its name, or a look-up. -/
def addDocument (m : Mapping) (property : String) : Json → Decoded Mapping
  | .str column => .ok (m.withColumn property column)
  | j => do return m.withLookup property (← Lookup.ofDocument j)

def ofDocument (j : Json) : Decoded Mapping := do
  (← need j.obj?).foldlM (fun m (property, j) => m.addDocument property j) Mapping.empty

def Lookup.toDocuments (l : Lookup) : List Json := [.str l.source, ofText? l.target, .str l.select]

/-- What a property is kept in: the name of a column, or the parts of a look-up. -/
def Target.toDocument : Target → Json
  | .column name => .str name
  | .lookup l => .arr l.toDocuments

/-- A property with what it is kept in. -/
def entryToDocument (property : String) : Target → Json
  | .column name => ofTexts [property, name]
  | .lookup l => .arr (.str property :: l.toDocuments)

def toDocument (m : Mapping) : Json :=
  .arr (m.entries.map fun (property, target) => entryToDocument property target)

end Mapping

end Persistence
