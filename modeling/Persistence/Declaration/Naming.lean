import Persistence.Text.Blank

/-!
# Names in declarations

A name may be written raw, with `r#` in front of it, which is not part of the name.  Under the
camel-case rule the underscores of a field name vanish and the letters behind them become
capitals; everything else, the first letter included, stays as it is.
-/

namespace Persistence.Naming

open Persistence.Text

/-- A name without the mark of a raw name. -/
def plain (name : String) : String :=
  match name.toList with
  | 'r' :: '#' :: rest => String.ofList rest
  | _ => name

/-- The characters of a name in camel case; `capital` says that an underscore came before. -/
def camelChars (capital : Bool) : List Char → List Char
  | [] => []
  | c :: text =>
      if c = '_' then camelChars true text
      else (if capital then c.toUpper else c) :: camelChars false text

/-- A name in camel case. -/
def camelCase (name : String) : String := String.ofList (camelChars false name.toList)

/-- A name in camel case that starts with a small letter. -/
def lowerCamelCase (name : String) : String :=
  match camelChars true name.toList with
  | c :: text => String.ofList (c.toLower :: text)
  | [] => ""

/-! ## Paths of functions -/

/-- The words that cannot be names. -/
def reserved : List String :=
  ["_", "abstract", "as", "async", "await", "become", "box", "break", "const", "continue", "do",
   "dyn", "else", "enum", "extern", "false", "final", "fn", "for", "if", "impl", "in", "let",
   "loop", "macro", "match", "mod", "move", "mut", "override", "priv", "pub", "ref", "return",
   "static", "struct", "trait", "true", "type", "typeof", "unsafe", "unsized", "use", "virtual",
   "where", "while", "yield"]

/-- A character that a name can have.  Beyond ASCII every character counts as one. -/
def isNameChar (c : Char) : Bool := c.isAlphanum || c = '_' || 127 < c.toNat

/-- Whether a text is a name of a function or of a module on the way to it. -/
def isPathName (text : List Char) : Bool :=
  let isWord := !text.isEmpty && text.all isNameChar && !(text.head?.any Char.isDigit)
  match text with
  | 'r' :: '#' :: rest => !rest.isEmpty && rest.all isNameChar && !(rest.head?.any Char.isDigit)
  | _ => isWord && String.ofList text ∉ reserved

/-- A text without the blanks around it. -/
def trimmed (text : List Char) : List Char := (dropBlank (dropBlank text).reverse).reverse

/-- The texts between double colons. -/
def splitPath (word : List Char) : List Char → List (List Char)
  | [] => [word.reverse]
  | ':' :: ':' :: text => word.reverse :: splitPath [] text
  | c :: text => splitPath (c :: word) text

/-- Whether a text is the path of a function: names between double colons, with or without double
colons in front. -/
def isFunctionPath (text : String) : Bool :=
  match (splitPath [] text.toList).map trimmed with
  | [] :: name :: names => (name :: names).all isPathName
  | names => names.all isPathName

end Persistence.Naming
