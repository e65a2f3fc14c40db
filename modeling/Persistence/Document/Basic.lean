import Persistence.Error

/-!
# Documents

The types of the library have forms in JSON, their documents: `ofDocument` reads one and
`toDocument` writes one.  Reading ends at the first part that does not have its form, or that the
library refuses.
-/

namespace Persistence

/-- Why a document could not be read. -/
inductive DocumentError
  /-- A part of it does not have its form. -/
  | malformed
  /-- A part of it has its form and stands for nothing that the library accepts. -/
  | refused (e : DbError)

instance : Inhabited DocumentError := ⟨.malformed⟩

/-- What is read from a document. -/
abbrev Decoded := Except DocumentError

namespace Document

variable {α β : Type}

/-! ## Reading -/

/-- A value that has to be there. -/
def need : Option α → Decoded α
  | some a => .ok a
  | none => .error .malformed

/-- A value that the library has to accept. -/
def accepted : Except DbError α → Decoded α
  | .ok a => .ok a
  | .error e => .error (.refused e)

def readText (j : Json) : Decoded String := need j.str?

def readArray (j : Json) : Decoded (List Json) := need j.arr?

def readNatural (j : Json) : Decoded Nat := need j.uint64?

def readInteger (j : Json) : Decoded Int := need j.int64?

def readFloat (j : Json) : Decoded Binary64 :=
  match j with
  | .num n => .ok n.toBinary64
  | _ => .error .malformed

/-- A list, item by item. -/
def listOf (read : Json → Decoded α) (j : Json) : Decoded (List α) := do (← readArray j).mapM read

/-- A field that has to be there. -/
def field (j : Json) (key : String) : Decoded Json := need (j.field? key)

/-- A field that is there and not null. -/
def present? (j : Json) (key : String) : Option Json :=
  (j.field? key).filter fun value => !value.isNull

/-- A field that may be missing or null. -/
def optional (read : Json → Decoded α) (j : Json) (key : String) : Decoded (Option α) :=
  match present? j key with
  | some value => do return some (← read value)
  | none => .ok none

/-- A field that may be missing, and that may be null only if null has a meaning of its own. -/
def given (read : Json → Decoded α) (j : Json) (key : String) : Decoded (Option α) :=
  match j.field? key with
  | some value => do return some (← read value)
  | none => .ok none

/-- A field with a value in place of a missing one. -/
def withDefault (value : α) (read : Json → Decoded α) (j : Json) (key : String) : Decoded α := do
  return (← optional read j key).getD value

def textField (j : Json) (key : String) : Decoded String := do readText (← field j key)

def textField? (j : Json) (key : String) : Decoded (Option String) := optional readText j key

def naturalField? (j : Json) (key : String) : Decoded (Option Nat) := optional readNatural j key

/-- A switch; it is off when it is missing. -/
def flag (j : Json) (key : String) : Bool :=
  match j.field? key with
  | some (.bool b) => b
  | _ => false

/-- A list that is empty when it is missing. -/
def list (read : Json → Decoded α) (j : Json) (key : String) : Decoded (List α) :=
  withDefault [] (listOf read) j key

def texts (j : Json) (key : String) : Decoded (List String) := list readText j key

/-! ## Writing -/

def ofNat (n : Nat) : Json := Json.ofInt n

def ofNat? (n : Option Nat) : Json := Json.ofOption ofNat n

def ofText? (s : Option String) : Json := Json.ofOption Json.str s

def ofTexts (l : List String) : Json := .arr (l.map Json.str)

end Document

end Persistence
