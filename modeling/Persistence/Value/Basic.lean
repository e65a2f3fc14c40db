import Persistence.Calendar.Basic
import Persistence.Json.Basic

/-!
# Values

A value is a literal that statements are made with: a scalar, a moment, a document, a point on the
globe, or a list of values.  Every JSON value is read as one: scalars stay scalars, arrays become
lists, and objects stay documents.
-/

namespace Persistence

/-- A geographic point in the reference system `srid`. -/
structure Point where
  longitude : Binary64
  latitude : Binary64
  srid : Nat
deriving DecidableEq

/-- The reference system of points that name none. -/
def Point.defaultSrid : Nat := 4326

/-- The point at two coordinates in the default reference system. -/
def Point.at (longitude latitude : Binary64) : Point := ⟨longitude, latitude, defaultSrid⟩

/-- The point where both coordinates are zero. -/
def Point.origin : Point := Point.at (Binary64.zero false) (Binary64.zero false)

/-- Equality of points coordinate by coordinate. -/
def Point.same (p q : Point) : Bool :=
  p.longitude.same q.longitude && p.latitude.same q.latitude && p.srid == q.srid

/-- A value that can stand in a statement. -/
inductive Value
  | null
  | bool (b : Bool)
  | int (n : Int)
  | uint (n : Nat)
  | float (x : Binary64)
  | string (s : String)
  | datetime (t : DateTime)
  | date (d : Date)
  | time (t : TimeOfDay)
  | json (j : Json)
  | point (p : Point)
  | list (items : List Value)
deriving Inhabited

namespace Value

def isNull : Value → Bool
  | null => true
  | _ => false

/-- The value of a JSON number: a signed integer if it fits, else an unsigned one, else a
floating-point number. -/
def ofNumber : Json.Number → Value
  | .int n _ => if n ≤ maxInt64 then int n else uint n.toNat
  | .float x _ => float x

mutual

/-- The value that a JSON value stands for. -/
def ofJson : Json → Value
  | .null => null
  | .bool b => bool b
  | .num n => ofNumber n
  | .str s => string s
  | .arr items => list (ofJsonItems items)
  | .obj fields => json (.obj fields)

/-- The values of the items of a JSON array. -/
def ofJsonItems : List Json → List Value
  | [] => []
  | item :: items => ofJson item :: ofJsonItems items

end

mutual

/-- Equality of values of one kind; numbers are compared as numbers. -/
def same : Value → Value → Bool
  | null, null => true
  | bool a, bool b => a == b
  | int a, int b => a == b
  | uint a, uint b => a == b
  | float a, float b => a.same b
  | string a, string b => a == b
  | datetime a, datetime b => a == b
  | date a, date b => a == b
  | time a, time b => a == b
  | json a, json b => a.same b
  | point a, point b => a.same b
  | list xs, list ys => sameItems xs ys
  | _, _ => false

/-- Item by item equality. -/
def sameItems : List Value → List Value → Bool
  | [], [] => true
  | x :: xs, y :: ys => same x y && sameItems xs ys
  | _, _ => false

end

/-- Whether some value of a list is the same as the given one. -/
def isAmong (v : Value) (values : List Value) : Bool := values.any fun w => w.same v

end Value

end Persistence
