import Persistence.Declaration.Basic
import Persistence.Declaration.Naming
import Persistence.Entity.Basic

/-!
# Attributes

What the attributes of a declaration say.  The items of an attribute are read from left to right,
a later item of the same name replaces an earlier one, and the first mistake ends the reading.
-/

namespace Persistence

/-! ## Items -/

namespace AttributeItem

def name : AttributeItem → String
  | flag name => name
  | assign name _ => name
  | nested name _ => name

/-- The literal that an item is assigned. -/
def value : AttributeItem → Except DeclarationError Literal
  | assign _ value => .ok value
  | _ => .error .malformed

/-- The text that an item is assigned. -/
def text (item : AttributeItem) : Except DeclarationError String := do
  match ← item.value with
  | .text s => .ok s
  | _ => .error .malformed

/-- The natural number of 32 bits that an item is assigned. -/
def size (item : AttributeItem) : Except DeclarationError Nat := do
  match ← item.value with
  | .integer n => if 0 ≤ n ∧ n.toNat < UInt32.size then .ok n.toNat else .error .malformed
  | _ => .error .malformed

/-- An item that stands alone. -/
def alone : AttributeItem → Except DeclarationError Unit
  | flag _ => .ok ()
  | _ => .error .malformed

end AttributeItem

/-- The items of an attribute, which has to have a list of them. -/
def Attribute.requiredItems (a : Attribute) : Except DeclarationError (List AttributeItem) :=
  match a.items with
  | some items => .ok items
  | none => .error .malformed

/-- What some items say, on top of what is said already. -/
def readItems {α : Type} (read : α → AttributeItem → Except DeclarationError α) (a : α)
    (items : List AttributeItem) : Except DeclarationError α := items.foldlM read a

/-- The first attribute with a name. -/
def findAttribute? (name : String) (attributes : List Attribute) : Option Attribute :=
  attributes.find? fun a => a.name = name

/-! ## Tables -/

/-- The options of a table while its attribute is read. -/
structure TableDraft where
  name : Option String
  charset : Option String
  collate : Option String
  engine : Option String
  softDelete : Bool

/-- The draft before anything is read. -/
def TableDraft.empty : TableDraft := ⟨none, none, none, none, false⟩

/-- Read an item of a table attribute. -/
def TableDraft.read (t : TableDraft) (item : AttributeItem) :
    Except DeclarationError TableDraft :=
  match item.name with
  | "name" => do return { t with name := some (← item.text) }
  | "charset" => do return { t with charset := some (← item.text) }
  | "collate" => do return { t with collate := some (← item.text) }
  | "engine" => do return { t with engine := some (← item.text) }
  | "soft_delete" => do item.alone; return { t with softDelete := true }
  | _ => .error (.unknownItem .table)

/-- The table that the first table attribute describes. -/
def tableAttribute (attributes : List Attribute) : Except DeclarationError (Option TableSpec) :=
  match findAttribute? "table" attributes with
  | none => .ok none
  | some a => do
      let t ← readItems TableDraft.read TableDraft.empty (← a.requiredItems)
      match t.name with
      | none => .error .tableWithoutName
      | some name =>
          return some
            { name, charset := t.charset, collate := t.collate, engine := t.engine
              softDelete := t.softDelete }

/-! ## Names in JSON -/

/-- The name of the attribute that says how JSON is read and written. -/
def jsonAttributeName : String := "serde"

/-- The naming rule of the fields, as the last item that gives one says. -/
def readRenameAll (rule : Option String) (item : AttributeItem) :
    Except DeclarationError (Option String) :=
  if item.name = "rename_all" then do return some (← item.text) else .ok rule

/-- The naming rule that the attributes of a record give. -/
def renameAllRule (attributes : List Attribute) : Except DeclarationError (Option String) :=
  (attributes.filter fun a => a.name = jsonAttributeName).foldlM
    (fun rule a => do readItems readRenameAll rule (← a.requiredItems))
    none

/-- The name of a field, as the last item that gives one says. -/
def readRename (given : Option String) : AttributeItem → Except DeclarationError (Option String)
  | .assign "rename" (.text s) => .ok (some s)
  | .assign "rename" _ => .error .malformed
  | _ => .ok given

/-- The name that the first attribute with one gives. -/
def renamed : List Attribute → Except DeclarationError (Option String)
  | [] => .ok none
  | a :: attributes => do
      match ← readItems readRename none (← a.requiredItems) with
      | some name => return some name
      | none => renamed attributes

/-- The key of the property that a field becomes. -/
def propertyKey (rule : Option String) (f : FieldDeclaration) : Except DeclarationError String := do
  match ← renamed (f.attributes.filter fun a => a.name = jsonAttributeName) with
  | some name => return name
  | none =>
      let name := Naming.plain f.name
      return if rule = some "camelCase" then Naming.camelCase name else name

/-! ## Relations and foreign keys -/

/-- A relation while its attribute is read. -/
structure RelationDraft where
  entity : Option String
  source : Option String
  target : Option String
  many : Bool

/-- Read an item of a relation attribute. -/
def RelationDraft.read (r : RelationDraft) (item : AttributeItem) :
    Except DeclarationError RelationDraft :=
  match item.name with
  | "entity" => do return { r with entity := some (← item.text) }
  | "source" => do return { r with source := some (← item.text) }
  | "target" => do return { r with target := some (← item.text) }
  | "many" => do item.alone; return { r with many := true }
  | _ => .error (.unknownItem .relation)

/-- The relation that the first relation attribute describes. -/
def relationAttribute (attributes : List Attribute) : Except DeclarationError (Option Relation) :=
  match findAttribute? AttributeGroup.relation.name attributes with
  | none => .ok none
  | some a => do
      let r ← readItems RelationDraft.read ⟨none, none, none, false⟩ (← a.requiredItems)
      match r.entity, r.source, r.target with
      | some entity, some source, some target => return some ⟨entity, source, target, r.many⟩
      | _, _, _ => .error .incompleteRelation

/-- The action that a declaration names: in any case, with blanks or underscores. -/
def declaredAction (name : String) : Except DeclarationError ForeignAction :=
  let word := name.toLower.map fun c => if c = ' ' then '_' else c
  if word = "cascade" then .ok .cascade
  else if word = "set_null" then .ok .setNull
  else if word = "no_action" then .ok .noAction
  else .error (.foreignAction word)

/-- The type that a declaration names, in any case. -/
def declaredType (name : String) : Except DeclarationError ColumnType :=
  match name.toLower with
  | "int" => .ok .int
  | "bigint" => .ok .bigint
  | "double" => .ok .double
  | "float" => .ok .float
  | "varchar" => .ok .varchar
  | "text" => .ok .text
  | "json" => .ok .json
  | "datetime" => .ok .datetime
  | "date" => .ok .date
  | "time" => .ok .time
  | "tinyint" => .ok .tinyint
  | "geometry" => .ok .geometry
  | word => .error (.columnType word)

/-- A foreign key while its attribute is read. -/
structure ForeignDraft where
  entity : Option String
  property : Option String
  action : ForeignAction

/-- Read an item of a foreign key attribute. -/
def ForeignDraft.read (f : ForeignDraft) (item : AttributeItem) :
    Except DeclarationError ForeignDraft :=
  match item.name with
  | "entity" => do return { f with entity := some (← item.text) }
  | "property" => do return { f with property := some (← item.text) }
  | "action" => do return { f with action := ← declaredAction (← item.text) }
  | _ => .error (.unknownItem .foreignKey)

/-- The reference that the first foreign key attribute describes. -/
def foreignKeyAttribute (attributes : List Attribute) :
    Except DeclarationError (Option ForeignRef) :=
  match findAttribute? AttributeGroup.foreignKey.name attributes with
  | none => .ok none
  | some a => do
      let f ← readItems ForeignDraft.read ⟨none, none, .cascade⟩ (← a.requiredItems)
      match f.entity, f.property with
      | some entity, some property => return some ⟨entity, property, f.action⟩
      | _, _ => .error .incompleteForeignKey

/-! ## Columns -/

/-- A column while its attributes are read. -/
structure ColumnDraft where
  present : Bool
  primaryKey : Bool
  name : Option String
  typeName : Option String
  length : Option Nat
  precision : Option Nat
  notNull : Bool
  autoIncrement : Bool
  defaultValue : Option Literal
  deleteValue : Option Literal
  deleteProducer : Option String
  uniqueKeys : List String

/-- The draft before anything is read. -/
def ColumnDraft.empty : ColumnDraft :=
  ⟨false, false, none, none, none, none, false, false, none, none, none, []⟩

/-- The path of a function that an item is assigned. -/
def AttributeItem.functionPath (item : AttributeItem) : Except DeclarationError String := do
  let path ← item.text
  if Naming.isFunctionPath path then .ok path else .error .malformed

/-- Read an item of a column attribute. -/
def ColumnDraft.read (c : ColumnDraft) (item : AttributeItem) :
    Except DeclarationError ColumnDraft :=
  match item.name with
  | "name" => do return { c with name := some (← item.text) }
  | "column_type" => do return { c with typeName := some (← item.text) }
  | "length" => do return { c with length := some (← item.size) }
  | "precision" => do return { c with precision := some (← item.size) }
  | "not_null" => do item.alone; return { c with notNull := true }
  | "auto_increment" => do item.alone; return { c with autoIncrement := true }
  | "default" => do return { c with defaultValue := some (← item.value) }
  | "delete_value" => do return { c with deleteValue := some (← item.value) }
  | "delete_value_fn" => do return { c with deleteProducer := some (← item.functionPath) }
  | "unique_key" => do return { c with uniqueKeys := c.uniqueKeys ++ [← item.text] }
  | _ => .error (.unknownItem .column)

/-- The name of the attribute of a primary key. -/
def primaryKeyAttributeName : String := "primary_key"

/-- Read an attribute of a column; it may come without items. -/
def ColumnDraft.readAttribute (c : ColumnDraft) (a : Attribute) :
    Except DeclarationError ColumnDraft :=
  let c :=
    { c with present := true, primaryKey := c.primaryKey || a.name = primaryKeyAttributeName }
  readItems ColumnDraft.read c (a.items.getD [])

/-- What all column attributes of a field say together. -/
def columnAttributes (attributes : List Attribute) : Except DeclarationError ColumnDraft :=
  (attributes.filter fun a =>
    a.name = primaryKeyAttributeName || a.name = AttributeGroup.column.name).foldlM
    ColumnDraft.readAttribute ColumnDraft.empty

end Persistence
