import Persistence.Declaration.Entity
import Persistence.Entity.Shape

/-!
# Records from declarations

`Declaration.toRecord` is the JSON form of the values of a declared type.  The types of the fields
give their shapes, and the attributes that are about JSON give their names, what stands in for a
missing field, and whether unknown fields are refused.
-/

namespace Persistence

/-! ## Shapes of types -/

namespace Shape

/-- What an empty value of a shape is. -/
def initial : Shape → Json
  | bool => .bool false
  | int _ _ => Json.ofInt 0
  | float => Json.ofFloat (Binary64.ofRatio false 0 1)
  | text => .str ""
  | list _ => .arr []
  | set _ => .arr []
  | cells => .arr []
  | map _ => .obj []
  | _ => .null

/-- What stands in for a missing value: null for an optional one, and nothing for any other. -/
def absent? : Shape → Option Json
  | optional _ => some .null
  | _ => none

end Shape

namespace TypeText

/-- The shapes of types without parameters. -/
def scalarShapes : List (String × Shape) :=
  [("String", .text), ("str", .text), ("char", .character), ("bool", .bool),
   ("i8", .signed 8), ("i16", .signed 16), ("i32", .signed 32), ("i64", .signed 64),
   ("isize", .signed 64), ("u8", .unsigned 8), ("u16", .unsigned 16), ("u32", .unsigned 32),
   ("u64", .unsigned 64), ("usize", .unsigned 64), ("f32", .float), ("f64", .float),
   ("NaiveDate", .date), ("NaiveDateTime", .moment), ("DateTime", .instant), ("Value", .any),
   (Point.kindName, .point)]

/-- The shape of a type by its name and the shape of its last parameter.  Any other name is that
of a record. -/
def shapeNamed (name : String) (last : Shape) : Shape :=
  match name with
  | "Option" => .optional last
  | "Box" => last
  | "Vec" => .list last
  | "HashSet" | "BTreeSet" => .set last
  | "HashMap" | "BTreeMap" => .map last
  | _ => (scalarShapes.lookup name).getD (.record name)

/-- The text between the brackets of a type with parameters. -/
def parameters (text : List Char) : List Char :=
  let behind := (text.dropWhile fun c => c ≠ '<').drop 1
  (dropClosing? behind).getD behind

/-- What stands behind the first comma outside of brackets; `nesting` is the number of brackets
that are open. -/
def behindComma? (nesting : Nat) : List Char → Option (List Char)
  | [] => none
  | c :: text =>
      if c = ',' && nesting = 0 then some text
      else if c = '<' || c = '(' then behindComma? (nesting + 1) text
      else if c = '>' || c = ')' then behindComma? (nesting - 1) text
      else behindComma? nesting text

/-- The second of two parameters, or the only one. -/
def secondParameter (text : List Char) : List Char := (behindComma? 0 text).getD text

/-- The shape of a type whose brackets nest at most `depth` deep. -/
def shapeAt : (depth : Nat) → List Char → Shape
  | 0, text => shapeNamed (baseName text) .any
  | depth + 1, text =>
      shapeNamed (baseName text) (shapeAt depth (secondParameter (parameters text)))

/-- The shape of the values of a type. -/
def shape (typeText : String) : Shape :=
  let text := compact typeText
  shapeAt (text.count '<') text

end TypeText

/-! ## Attributes about JSON -/

/-- The items of the attributes about JSON. -/
def jsonItems (attributes : List Attribute) : List AttributeItem :=
  (attributes.filter fun a => a.name = jsonAttributeName).flatMap fun a => a.items.getD []

/-- Whether an item stands alone among the items about JSON. -/
def hasJsonFlag (name : String) (attributes : List Attribute) : Bool :=
  (jsonItems attributes).any fun item =>
    match item with
    | .flag flag => flag = name
    | _ => false

/-- The text that an item about JSON is assigned. -/
def jsonText? (name : String) (attributes : List Attribute) : Option String :=
  (jsonItems attributes).findSome? fun item =>
    match item with
    | .assign key (.text s) => if key = name then some s else none
    | _ => none

/-! ## Records -/

/-- The name of a field in JSON.  Under the camel-case rule it starts with a small letter. -/
def FieldDeclaration.jsonName (rule : Option String) (f : FieldDeclaration) : String :=
  match jsonText? "rename" f.attributes with
  | some name => name
  | none =>
      let name := Naming.plain f.name
      if rule = some "camelCase" then Naming.lowerCamelCase name else name

/-- The field of a record that a declared field is.  `readers` are the shapes of the fields that
name a reader of their own. -/
def FieldDeclaration.toShapeField (rule : Option String) (readers : List (String × Shape))
    (f : FieldDeclaration) : Shape.Field :=
  let shape :=
    ((jsonText? "deserialize_with" f.attributes).bind fun reader => readers.lookup reader).getD
      (TypeText.shape f.typeText)
  let fallback :=
    match shape.absent? with
    | some value => some value
    | none => if hasJsonFlag "default" f.attributes then some shape.initial else none
  ⟨f.jsonName rule, shape, fallback⟩

/-- The record of the values of a declared type. -/
def Declaration.toRecord (readers : List (String × Shape)) (d : Declaration) : Shape.Record :=
  let rule := jsonText? "rename_all" d.attributes
  ⟨d.fields.map (FieldDeclaration.toShapeField rule readers),
    hasJsonFlag "deny_unknown_fields" d.attributes⟩

end Persistence
