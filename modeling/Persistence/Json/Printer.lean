import Persistence.Json.Basic
import Persistence.Number.Layout

/-!
# JSON text

The compact text of a JSON value: no blanks, fields in their order, integers in decimal and
floating-point numbers in `Decimal.Layout.json`.  In strings the quote, the backslash and the
characters below U+0020 are escaped, everything else is written as it is.
-/

namespace Persistence.Json

/-- A hexadecimal digit in lower case. -/
def hexDigit (n : Nat) : Char := Nat.digitChar (n % 16)

/-- A character inside a JSON string. -/
def quoteChar (c : Char) : List Char :=
  if c = '"' then ['\\', '"']
  else if c = '\\' then ['\\', '\\']
  else if c = '\x08' then ['\\', 'b']
  else if c = '\x0c' then ['\\', 'f']
  else if c = '\n' then ['\\', 'n']
  else if c = '\x0d' then ['\\', 'r']
  else if c = '\t' then ['\\', 't']
  else if c.toNat < 0x20 then
    ['\\', 'u', '0', '0', hexDigit (c.toNat / 16), hexDigit c.toNat]
  else [c]

/-- A JSON string literal. -/
def quote (s : List Char) : List Char := '"' :: s.flatMap quoteChar ++ ['"']

/-- The text of a number. -/
def Number.text : Number → List Char
  | .int n _ => (toString n).toList
  | .float x _ => (x.text Decimal.Layout.json).toList

mutual

/-- The compact text of a value. -/
def render : Json → List Char
  | null => ['n', 'u', 'l', 'l']
  | bool b => if b then ['t', 'r', 'u', 'e'] else ['f', 'a', 'l', 's', 'e']
  | num n => n.text
  | str s => quote s.toList
  | arr items => '[' :: renderItems items
  | obj fields => '{' :: renderFields fields

/-- The items of an array and its closing bracket. -/
def renderItems : List Json → List Char
  | [] => [']']
  | [item] => render item ++ [']']
  | item :: items => render item ++ ',' :: renderItems items

/-- The fields of an object and its closing brace. -/
def renderFields : List (String × Json) → List Char
  | [] => ['}']
  | [(key, value)] => quote key.toList ++ ':' :: render value ++ ['}']
  | (key, value) :: fields => quote key.toList ++ ':' :: render value ++ ',' :: renderFields fields

end

/-- The compact text of a value. -/
def text (j : Json) : String := String.ofList (render j)

end Persistence.Json
