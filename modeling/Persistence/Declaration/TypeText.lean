import Persistence.Entity.Basic
import Persistence.Text.Blank

/-!
# Type texts

The kind of a property follows from the text of its declared type.  Blanks do not count, an
optional type has the kind of what it wraps, and of a path only the last name counts, without
parameters.
-/

namespace Persistence.TypeText

open Persistence.Text

/-- The text without blanks. -/
def compact (text : String) : List Char := text.toList.filter fun c => !isBlank c

/-- The text behind some characters that it has to start with. -/
def dropFront? : List Char → List Char → Option (List Char)
  | [], text => some text
  | _ :: _, [] => none
  | c :: front, d :: text => if c = d then dropFront? front text else none

/-- The starts of optional types. -/
def optionFronts : List (List Char) := ["std::option::Option<".toList, "Option<".toList]

/-- Whether a type is optional. -/
def isOptional (text : String) : Bool :=
  optionFronts.any fun front => (dropFront? front (compact text)).isSome

/-- The text in front of a closing bracket at the end. -/
def dropClosing? (text : List Char) : Option (List Char) :=
  if text.getLast? = some '>' then some text.dropLast else none

/-- What an optional type wraps; any other type is left as it is. -/
def unwrapped (text : List Char) : List Char :=
  (optionFronts.findSome? fun front => (dropFront? front text).bind dropClosing?).getD text

/-- The front of a text up to a double colon. -/
def untilDoubleColon : List Char → List Char
  | [] => []
  | ':' :: ':' :: _ => []
  | c :: text => c :: untilDoubleColon text

/-- What stands behind the last double colon. -/
def lastName (text : List Char) : List Char := (untilDoubleColon text.reverse).reverse

/-- The last name of the path of a type, without parameters. -/
def baseName (text : List Char) : String :=
  String.ofList (lastName (text.takeWhile fun c => c ≠ '<'))

/-- The names of the types of each kind. -/
def kinds : List (PropertyKind × List String) :=
  [(.string, ["String", "str", "char"]),
   (.number,
    ["i8", "i16", "i32", "i64", "i128", "isize", "u8", "u16", "u32", "u64", "u128", "usize", "f32",
     "f64"]),
   (.boolean, ["bool"]),
   (.date, ["NaiveDateTime", "DateTime", "NaiveDate"]),
   (.array, ["Vec", "HashSet", "BTreeSet"]),
   (.object, ["Value", "Map", "HashMap", "BTreeMap"])]

/-- The kind of the properties that have a type. -/
def kind (text : String) : PropertyKind :=
  let name := baseName (unwrapped (compact text))
  match kinds.find? fun (_, names) => name ∈ names with
  | some (kind, _) => kind
  | none => .named name

end Persistence.TypeText
