import Persistence.Keyed
import Persistence.Number.Binary64
import Persistence.Number.Range

/-!
# JSON values

Objects keep their fields in the order of first arrival and hold each key once.  A number is an
integer of the signed or the unsigned 64-bit range, or a finite floating-point number; the two
kinds stay apart, so `1` and `1.0` are different values.
-/

namespace Persistence

/-- A JSON number. -/
inductive Json.Number
  | int (n : Int) (fits : minInt64 ≤ n ∧ n ≤ maxUInt64)
  | float (x : Binary64) (finite : x.isFinite = true)
deriving DecidableEq

/-- A JSON value. -/
inductive Json
  | null
  | bool (b : Bool)
  | num (n : Json.Number)
  | str (s : String)
  | arr (items : List Json)
  | obj (fields : List (String × Json))
deriving Inhabited

namespace Json

/-- The fields of an object, in the order of first arrival of their keys. -/
abbrev Fields := List (String × Json)

namespace Number

/-- The number for an integer of the 64-bit ranges. -/
def ofInt? (n : Int) : Option Number :=
  if h : minInt64 ≤ n ∧ n ≤ maxUInt64 then some (int n h) else none

/-- The number for a finite floating-point number. -/
def ofFloat? (x : Binary64) : Option Number :=
  if h : x.isFinite = true then some (float x h) else none

/-- Numbers of one kind are compared as numbers, numbers of different kinds are different. -/
def same : Number → Number → Bool
  | int a _, int b _ => a == b
  | float a _, float b _ => a.same b
  | _, _ => false

/-- The number rounded to the nearest floating-point number. -/
def toBinary64 : Number → Binary64
  | int n _ => Binary64.ofRatio (n < 0) n.natAbs 1
  | float x _ => x

/-- The number as a signed 64-bit integer, if it is one. -/
def toInt64? : Number → Option Int
  | int n _ => if n ≤ maxInt64 then some n else none
  | float _ _ => none

/-- The number as an unsigned 64-bit integer, if it is one. -/
def toUInt64? : Number → Option Nat
  | int n _ => if 0 ≤ n then some n.toNat else none
  | float _ _ => none

end Number

/-- The JSON value of an integer; one beyond the 64-bit ranges has none and becomes `null`. -/
def ofInt (n : Int) : Json :=
  match Number.ofInt? n with
  | some number => num number
  | none => null

/-- The JSON value of a floating-point number; a number that is not finite becomes `null`. -/
def ofFloat (x : Binary64) : Json :=
  match Number.ofFloat? x with
  | some number => num number
  | none => null

/-- The JSON value of an optional value, `null` for none. -/
def ofOption {α : Type} (f : α → Json) : Option α → Json
  | none => null
  | some a => f a

def isNull : Json → Bool
  | null => true
  | _ => false

/-- The text of a string value. -/
def str? : Json → Option String
  | str s => some s
  | _ => none

/-- The items of an array value. -/
def arr? : Json → Option (List Json)
  | arr items => some items
  | _ => none

/-- The fields of an object value. -/
def obj? : Json → Option Fields
  | obj fields => some fields
  | _ => none

/-- The value of a boolean. -/
def bool? : Json → Option Bool
  | bool b => some b
  | _ => none

/-- The value of a signed 64-bit integer. -/
def int64? : Json → Option Int
  | num n => n.toInt64?
  | _ => none

/-- The value of an unsigned 64-bit integer. -/
def uint64? : Json → Option Nat
  | num n => n.toUInt64?
  | _ => none

/-- The field of an object that has the given key. -/
def field? (key : String) : Json → Option Json
  | obj fields => fields.lookup key
  | _ => none

mutual

/-- Equality of values: arrays item by item, objects whatever the order of their fields. -/
def same : Json → Json → Bool
  | null, null => true
  | bool a, bool b => a == b
  | num a, num b => a.same b
  | str a, str b => a == b
  | arr xs, arr ys => sameItems xs ys
  | obj fs, obj gs => fs.length == gs.length && sameFields fs gs
  | _, _ => false

/-- Item by item equality. -/
def sameItems : List Json → List Json → Bool
  | [], [] => true
  | x :: xs, y :: ys => same x y && sameItems xs ys
  | _, _ => false

/-- Every field of the first list has an equal partner in the second. -/
def sameFields : List (String × Json) → List (String × Json) → Bool
  | [], _ => true
  | (key, value) :: fs, gs =>
      (match gs.lookup key with
        | some other => same value other
        | none => false) && sameFields fs gs

end

end Json

end Persistence
