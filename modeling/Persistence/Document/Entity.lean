import Persistence.Document.Value
import Persistence.Entity.Basic

/-!
# Documents of entity types

A producer of a document counts: it yields the integers from a given one on.  Its name is made
from this integer and a tag that tells it from all other producers.
-/

namespace Persistence

open Document

/-! ## Producers that count -/

/-- The mark between the two parts of the name of a counting producer. -/
def countingMark : Char := '@'

/-- The name of the producer of the integers from `start` on. -/
def countingProducer (start : Int) (tag : String) : String :=
  toString start ++ String.singleton countingMark ++ tag

/-- The integer at which a counting producer starts. -/
def countingStart? (producer : String) : Option Int :=
  readInt64? (producer.toList.takeWhile fun c => c ≠ countingMark)

/-! ## Reading -/

/-- A delete value: a counting producer, or a fixed value. -/
def DeleteValue.ofDocument (tag : String) : Json → Decoded DeleteValue
  | .obj [("$producer", start)] => do return .producer (countingProducer (← readInteger start) tag)
  | j => do return .literal (← Value.ofDocument j)

def PropertyKind.ofDocument : Json → Decoded PropertyKind
  | .str "String" => .ok .string
  | .str "Number" => .ok .number
  | .str "Boolean" => .ok .boolean
  | .str "Date" => .ok .date
  | .str "Array" => .ok .array
  | .str "Object" => .ok .object
  | .obj [("Named", name)] => do return .named (← readText name)
  | _ => .error .malformed

def ColumnType.ofDocument (j : Json) : Decoded ColumnType := do
  accepted (ColumnType.read (← readText j))

def ForeignAction.ofDocument (j : Json) : Decoded ForeignAction := do
  accepted (ForeignAction.read (← readText j))

def ForeignRef.ofDocument (j : Json) : Decoded ForeignRef := do
  return {
    entity := ← textField j "entity"
    property := ← textField j "property"
    action := ← withDefault .cascade ForeignAction.ofDocument j "action" }

/-- A column; a default value that is null is one. -/
def ColumnSpec.ofDocument (tag : String) (j : Json) : Decoded ColumnSpec := do
  let name ← textField j "db_name"
  let base := if flag j "primary_key" then ColumnSpec.key name else ColumnSpec.named name
  return { base with
    type := ← optional ColumnType.ofDocument j "type"
    length := ← naturalField? j "length"
    precision := ← naturalField? j "precision"
    notNull := base.notNull || flag j "not_null"
    autoIncrement := flag j "auto_increment"
    defaultValue := ← given Value.ofDocument j "default"
    deleteValue := ← given (DeleteValue.ofDocument tag) j "delete_value"
    uniqueKeys := ← texts j "unique_keys"
    foreignKey := ← optional ForeignRef.ofDocument j "foreign_key" }

def Relation.ofDocument (j : Json) : Decoded Relation := do
  return {
    entity := ← textField j "entity"
    source := ← textField j "source"
    target := ← textField j "target"
    many := flag j "many" }

/-- A property; one with a relation and no column is an object. -/
def Property.ofDocument (tag : String) (j : Json) : Decoded Property := do
  let key ← textField j "key"
  let kind ← withDefault .string PropertyKind.ofDocument j "kind"
  let column ← optional (ColumnSpec.ofDocument tag) j "column"
  let relation ← optional Relation.ofDocument j "relation"
  let kind := if column.isNone && relation.isSome then .object else kind
  return { key, kind, column, relation }

def TableSpec.ofDocument (j : Json) : Decoded TableSpec := do
  return {
    name := ← textField j "name"
    charset := ← textField? j "charset"
    collate := ← textField? j "collate"
    engine := ← textField? j "engine"
    softDelete := flag j "soft_delete" }

/-- The properties of an entity type; the producers of each have a tag of their own. -/
def Property.ofDocuments (tag : String) : List Json → Decoded (List Property)
  | [] => .ok []
  | j :: items => do
      let property ← Property.ofDocument (tag ++ "." ++ toString items.length) j
      return property :: (← ofDocuments tag items)

/-- An entity type; `tag` tells its producers from those of all others. -/
def Entity.ofDocument (tag : String) (j : Json) : Decoded Entity := do
  return {
    name := ← textField j "name"
    table := ← optional TableSpec.ofDocument j "table"
    properties := ← Property.ofDocuments tag (← list .ok j "properties") }

/-! ## Writing -/

def DeleteValue.toDocument : DeleteValue → Json
  | .literal v => v.toDocument
  | .producer _ => .arr [.str "producer"]

def PropertyKind.toDocument : PropertyKind → Json
  | .string => .str "String"
  | .number => .str "Number"
  | .boolean => .str "Boolean"
  | .date => .str "Date"
  | .array => .str "Array"
  | .object => .str "Object"
  | .named name => .obj [("Named", .str name)]

def ColumnType.toDocument (type : ColumnType) : Json := .str type.name

def ForeignRef.toDocument (f : ForeignRef) : Json :=
  .obj [("entity", .str f.entity), ("property", .str f.property), ("action", .str f.action.name)]

def ColumnSpec.toDocument (c : ColumnSpec) : Json :=
  .obj
    [("db_name", .str c.name), ("type", Json.ofOption ColumnType.toDocument c.type),
     ("primary_key", .bool c.primaryKey), ("unique_keys", ofTexts c.uniqueKeys),
     ("foreign_key", Json.ofOption ForeignRef.toDocument c.foreignKey),
     ("not_null", .bool c.notNull), ("default", Value.toDocument? c.defaultValue),
     ("delete_value", Json.ofOption DeleteValue.toDocument c.deleteValue),
     ("auto_increment", .bool c.autoIncrement), ("length", ofNat? c.length),
     ("precision", ofNat? c.precision)]

def Relation.toDocument (r : Relation) : Json :=
  .obj
    [("entity", .str r.entity), ("source", .str r.source), ("target", .str r.target),
     ("many", .bool r.many)]

def Property.toDocument (p : Property) : Json :=
  .obj
    [("key", .str p.key), ("kind", p.kind.toDocument), ("db_name", ofText? p.columnName?),
     ("column", Json.ofOption ColumnSpec.toDocument p.column),
     ("relation", Json.ofOption Relation.toDocument p.relation)]

def TableSpec.toDocument (t : TableSpec) : Json :=
  .arr [.str t.name, ofText? t.charset, ofText? t.collate, ofText? t.engine, .bool t.softDelete]

/-- The key of a property with the name of its column. -/
def columnPairToDocument (p : Property × ColumnSpec) : Json := ofTexts [p.1.key, p.2.name]

/-- The fields of the document of an entity type. -/
def Entity.toFields (e : Entity) : Json.Fields :=
  [("name", .str e.name), ("table_name", ofText? e.tableName?),
   ("soft_delete", .bool e.softDelete), ("meta", Json.ofOption TableSpec.toDocument e.table),
   ("properties", .arr (e.properties.map Property.toDocument)),
   ("column_properties", .arr (e.columnProperties.map columnPairToDocument)),
   ("primary_key", Json.ofOption columnPairToDocument e.primaryKey?)]

def Entity.toDocument (e : Entity) : Json := .obj e.toFields

end Persistence
