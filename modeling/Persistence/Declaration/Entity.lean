import Persistence.Declaration.Attribute
import Persistence.Declaration.TypeText

/-!
# Entity types from declarations

`Declaration.toEntity` is the entity type that a declaration describes.  Its parts are checked in
a fixed order: the shape, the table, the naming rule, and then field by field the name, the
relation, the column and the foreign key; the first mistake is the one that is reported.
-/

namespace Persistence

/-- The value that a literal denotes; there are no values for single characters. -/
def Literal.toValue : Literal → Except DeclarationError Value
  | text s => .ok (.string s)
  | integer n => if minInt64 ≤ n ∧ n ≤ maxInt64 then .ok (.int n) else .error .malformed
  | float x => .ok (.float x)
  | bool b => .ok (.bool b)
  | character _ => .error .literalKind

/-- What deleted rows have in a column; a producer goes before a fixed value. -/
def ColumnDraft.toDeleteValue (c : ColumnDraft) : Except DeclarationError (Option DeleteValue) :=
  match c.deleteProducer with
  | some path => .ok (some (.producer path))
  | none => do return (← c.deleteValue.mapM Literal.toValue).map DeleteValue.literal

/-- The column of a field.  Fields of optional types can be null, all others cannot. -/
def ColumnDraft.toSpec (c : ColumnDraft) (f : FieldDeclaration)
    (foreignKey : Option ForeignRef) : Except DeclarationError ColumnSpec := do
  let type ← c.typeName.mapM declaredType
  let defaultValue ← c.defaultValue.mapM Literal.toValue
  let deleteValue ← c.toDeleteValue
  return {
    name := c.name.getD (Naming.plain f.name)
    type
    primaryKey := c.primaryKey
    uniqueKeys := c.uniqueKeys
    foreignKey
    notNull := c.primaryKey || c.notNull || !TypeText.isOptional f.typeText
    defaultValue
    deleteValue
    autoIncrement := c.autoIncrement
    length := c.length
    precision := c.precision }

/-- The property that a field describes. -/
def FieldDeclaration.toProperty (rule : Option String) (f : FieldDeclaration) :
    Except DeclarationError Property := do
  let key ← propertyKey rule f
  match ← relationAttribute f.attributes with
  | some relation => return ⟨key, .object, none, some relation⟩
  | none =>
      let draft ← columnAttributes f.attributes
      let foreignKey ← foreignKeyAttribute f.attributes
      let kind := TypeText.kind f.typeText
      if draft.present || foreignKey.isSome then
        let column ← draft.toSpec f foreignKey
        return ⟨key, kind, some column, none⟩
      else return ⟨key, kind, none, none⟩

/-- The entity type that a declaration describes. -/
def Declaration.toEntity (d : Declaration) : Except DeclarationError Entity :=
  match d.shape with
  | .other => .error .notRecord
  | .unnamed => .error .unnamedFields
  | .record => do
      let table ← tableAttribute d.attributes
      let rule ← renameAllRule d.attributes
      let properties ← d.fields.mapM (FieldDeclaration.toProperty rule)
      return ⟨Naming.plain d.name, table, properties⟩

end Persistence
