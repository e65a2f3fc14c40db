import Persistence.Declaration.Basic
import Persistence.Document.Basic

/-!
# Documents of declarations

An attribute has a path and, where it has items, a list of them.  An item is a list of its name
and what is assigned to it: nothing, a literal, or items of its own.
-/

namespace Persistence

open Document

def Literal.ofDocument : Json → Decoded Literal
  | .str s => .ok (.text s)
  | .bool b => .ok (.bool b)
  | .num (.int n _) => .ok (.integer n)
  | .num (.float x _) => .ok (.float x)
  | .obj [("char", .str c)] => .ok (.character c)
  | _ => .error .malformed

namespace AttributeItem

mutual

def ofDocument : Json → Decoded AttributeItem
  | .arr [.str name] => .ok (.flag name)
  | .arr [.str name, .arr items] => do return .nested name (← ofDocuments items)
  | .arr [.str name, value] => do return .assign name (← Literal.ofDocument value)
  | _ => .error .malformed

def ofDocuments : List Json → Decoded (List AttributeItem)
  | [] => .ok []
  | j :: items => do
      let item ← ofDocument j
      return item :: (← ofDocuments items)

end

end AttributeItem

def Attribute.ofDocument (j : Json) : Decoded Attribute := do
  return ⟨← textField j "path", ← optional (listOf AttributeItem.ofDocument) j "args"⟩

def FieldDeclaration.ofDocument (j : Json) : Decoded FieldDeclaration := do
  return ⟨← textField j "name", ← textField j "type", ← list Attribute.ofDocument j "attrs"⟩

/-- The shape of a declaration; one that is left out is a record. -/
def DeclarationShape.ofDocument (j : Json) : Decoded DeclarationShape := do
  match ← readText j with
  | "struct" => return .record
  | "tuple" | "unit" => return .unnamed
  | "enum" | "union" => return .other
  | _ => .error .malformed

def Declaration.ofDocument (j : Json) : Decoded Declaration := do
  return {
    name := ← textField j "name"
    shape := ← withDefault .record DeclarationShape.ofDocument j "shape"
    attributes := ← list Attribute.ofDocument j "attrs"
    fields := ← list FieldDeclaration.ofDocument j "fields" }

end Persistence
