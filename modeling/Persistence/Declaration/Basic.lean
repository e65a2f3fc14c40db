import Persistence.Number.Binary64

/-!
# Declarations

An entity type can be declared as a record with attributes: attributes of the record describe its
table, attributes of its fields describe the columns.  A declaration is the source text of that,
already split into names, literals and lists, and nothing has been checked yet.

`DeclarationError` has all ways in which a declaration can be wrong.
-/

namespace Persistence

/-- A literal. -/
inductive Literal
  | text (s : String)
  | integer (n : Int)
  | float (x : Binary64)
  | bool (b : Bool)
  | character (c : String)
deriving DecidableEq

/-- An item of an attribute: a name, alone, with a literal, or with items of its own. -/
inductive AttributeItem
  | flag (name : String)
  | assign (name : String) (value : Literal)
  | nested (name : String) (items : List AttributeItem)

/-- An attribute, with or without a list of items. -/
structure Attribute where
  name : String
  items : Option (List AttributeItem)

/-- A field of a record: its name, the text of its type, and its attributes. -/
structure FieldDeclaration where
  name : String
  typeText : String
  attributes : List Attribute

/-- What is declared. -/
inductive DeclarationShape
  /-- A record with named fields. -/
  | record
  /-- A record whose fields have no names. -/
  | unnamed
  /-- Not a record at all. -/
  | other
deriving DecidableEq

/-- A declaration of an entity type. -/
structure Declaration where
  name : String
  shape : DeclarationShape
  attributes : List Attribute
  fields : List FieldDeclaration

/-- The attributes whose items are all known. -/
inductive AttributeGroup
  | table
  | column
  | foreignKey
  | relation
deriving DecidableEq

/-- What is wrong with a declaration. -/
inductive DeclarationError
  | notRecord
  | unnamedFields
  | tableWithoutName
  | unknownItem (group : AttributeGroup)
  /-- A column type that does not exist, in lower case. -/
  | columnType (name : String)
  /-- A foreign key action that does not exist, in lower case with underscores. -/
  | foreignAction (name : String)
  | incompleteForeignKey
  | incompleteRelation
  /-- A literal of a kind that no column has. -/
  | literalKind
  /-- An attribute that is not formed as it should be. -/
  | malformed
deriving DecidableEq

/-- The name of an attribute. -/
def AttributeGroup.name : AttributeGroup → String
  | table => "table"
  | column => "column"
  | foreignKey => "foreign_key"
  | relation => "relation"

/-- A word between backticks. -/
def ticked (word : String) : String := "\x60" ++ word ++ "\x60"

/-- The wording of what is wrong; a malformed attribute has none of its own. -/
def DeclarationError.message? : DeclarationError → Option String
  | notRecord => some "Entity can only be derived for structs"
  | unnamedFields => some "Entity can only be derived for structs with named fields"
  | tableWithoutName => some ("table requires " ++ ticked "name")
  | unknownItem group => some ("unknown " ++ group.name ++ " attribute")
  | columnType name => some ("unknown column type " ++ ticked name)
  | foreignAction name => some ("unknown foreign key action " ++ ticked name)
  | incompleteForeignKey =>
      some ("foreign_key requires " ++ ticked "entity" ++ " and " ++ ticked "property")
  | incompleteRelation =>
      some ("relation requires " ++ ticked "entity" ++ ", " ++ ticked "source" ++ " and " ++
        ticked "target")
  | literalKind => some "unsupported literal"
  | malformed => none

end Persistence
