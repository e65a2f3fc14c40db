import Persistence.Json.Basic

/-!
# Records in JSON

A record is written as an object, or as an array of its fields in their order in which fields at
the end may be missing.  Fields that a record does not know are passed over.
-/

namespace Persistence.Json

/-- The fields of a record whose fields have the given names. -/
def record? (names : List String) : Json → Option Fields
  | obj fields => some fields
  | arr items => if items.length ≤ names.length then some (names.zip items) else none
  | _ => none

/-- A field that must be there. -/
def required? {α : Type} (read : Json → Option α) (fields : Fields) (name : String) : Option α :=
  (fields.lookup name).bind read

/-- A field with a value in place of a missing one. -/
def withDefault? {α : Type} (value : α) (read : Json → Option α) (fields : Fields)
    (name : String) : Option α :=
  match fields.lookup name with
  | some j => read j
  | none => some value

/-- A field that may be missing or null. -/
def optional? {α : Type} (read : Json → Option α) (fields : Fields) (name : String) :
    Option (Option α) :=
  match fields.lookup name with
  | none => some none
  | some null => some none
  | some j => (read j).map some

/-- An unsigned integer below a bound. -/
def natBelow? (bound : Nat) (j : Json) : Option Nat :=
  j.uint64?.bind fun n => if n < bound then some n else none

/-- A number of either kind as a floating-point number. -/
def binary64? : Json → Option Binary64
  | num n => some n.toBinary64
  | _ => none

/-- A list of strings. -/
def strings? (j : Json) : Option (List String) := j.arr?.bind fun items => items.mapM str?

end Persistence.Json
