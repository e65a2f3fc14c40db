import Persistence.Proofs.Store.Session

/-!
# A driver made of a store

The driver whose state is a session and that answers every statement with a scope by its meaning.
There is such a driver for every collation, so what is proved of all drivers that answer for a
store is proved of something.

Main results:

- `Collation.scalar`: integers are compared as numbers, and texts as texts.
- `Store.driver_answersAsStore`: the driver made of a store answers for it.
-/

namespace Persistence

/-! ## Scalars -/

/-- The number that an integer value of either kind stands for. -/
def Value.integer? : Value → Option Int
  | .int n => some n
  | .uint n => some n
  | _ => none

/-- How a cell with an integer or a text compares with an integer or a text. -/
def scalarOrder : Json → Value → Option Ordering
  | .num (.int n _), v => v.integer?.map fun m => compare n m
  | .str s, .string t => some (compare s t)
  | _, _ => none

/-- Values that are the same stand for the same integer. -/
theorem Value.integer?_same {v w : Value} (h : v.same w = true) : v.integer? = w.integer? := by
  cases v <;> cases w <;> simp_all [Value.same, Value.integer?]

/-- The comparison of integers with integers and of texts with texts. -/
def Collation.scalar : Collation where
  order := scalarOrder
  like _ _ := none
  includes _ _ := none
  stored
    | .int n => Json.ofInt n
    | .string s => .str s
    | _ => .null
  order_null _ := rfl
  order_same := by
    intro cell v w h
    cases cell with
    | num n =>
        cases n with
        | int n _ => simp only [scalarOrder, Value.integer?_same h]
        | float => rfl
    | str s =>
        cases v <;> cases w <;> simp_all [Value.same, scalarOrder]
    | _ => rfl
  order_flag := by decide

/-- A collation compares integers as numbers. -/
def Collation.IsNumeric (k : Collation) : Prop :=
  ∀ n h (m : Int), k.order (.num (.int n h)) (.int m) = some (compare n m)

theorem Collation.isNumeric_scalar : scalar.IsNumeric := fun _ _ _ => rfl

/-! ## The driver -/

namespace Store

/-- The answer of a session to a statement; one without a scope is refused. -/
def respond (k : Collation) (s : Session) : Statement → Except DbError Output × Session
  | .rows scope => (.ok (Output.ofRows (s.current.select k scope)), s)
  | .remove scope =>
      (.ok (Output.affected (s.current.select k scope).length),
        { s with current := s.current.remove k scope })
  | .flag scope sets =>
      (.ok (Output.affected (s.current.select k scope).length),
        { s with current := s.current.flag k scope sets })
  | _ => (.error (.database "not a statement of a scope"), s)

/-- The answer of a session to a request.  There is one connection, and producers make nothing. -/
def answer (k : Collation) : (r : Request) → Session → r.Answer × Session
  | .createPool _, s => (.ok 0, s)
  | .closePool _, s => (.ok (), s)
  | .poolQuery _ statement, s => respond k s statement
  | .acquire _, s => (.ok 0, s)
  | .begin _, s => (.ok (), s.settled)
  | .commit _, s => (.ok (), s.settled)
  | .rollback _, s => (.ok (), s.restored)
  | .release _, s => (.ok (), s)
  | .query _ statement, s => respond k s statement
  | .hook _ _, s => (.ok (), s)
  | .produce _, s => (.null, s)
  | .constraintNames, s => (fun _ => "", s)

/-- The driver made of a store. -/
def driver (k : Collation) : Driver Session := ⟨answer k⟩

/-- The driver made of a store answers for it. -/
theorem driver_answersAsStore (k : Collation) : AnswersAsStore k (driver k) id where
  acquire _ s := ⟨0, s, rfl, rfl⟩
  begin _ s := ⟨s.settled, rfl, rfl⟩
  commit _ s := ⟨s.settled, rfl, rfl⟩
  rollback _ s := ⟨s.restored, rfl, rfl⟩
  release _ s := ⟨s, rfl, rfl⟩
  produce _ _ := rfl
  rows _ _ s _ := ⟨_, s, rfl, rfl, List.Perm.refl _⟩
  remove _ _ _ _ := ⟨_, _, rfl, rfl, ⟨rfl, rfl⟩⟩
  flag _ _ _ _ _ := ⟨_, _, rfl, rfl, ⟨rfl, rfl⟩⟩

end Store

end Persistence
