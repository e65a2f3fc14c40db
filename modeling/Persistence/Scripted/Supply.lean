import Persistence.Keyed
import Persistence.Program.Basic

/-!
# Supplies

Programs ask for values of producers and for names of constraints.  A supply answers by number:
what a producer yields when it is asked for the n-th time, and the names for the n-th statement
that needs some.
-/

namespace Persistence.Scripted

/-- The values of producers and the names of constraints, each by number. -/
structure Supply where
  value : (producer : String) → (asked : Nat) → Value
  names : (statement : Nat) → Names

/-- How much of a supply has been taken. -/
structure Taken where
  values : List (String × Nat)
  names : Nat

/-- Nothing has been taken. -/
def Taken.nothing : Taken := ⟨[], 0⟩

namespace Supply

/-- The next value of a producer. -/
def takeValue (s : Supply) (producer : String) (t : Taken) : Value × Taken :=
  let asked := (t.values.lookup producer).getD 0
  (s.value producer asked, { t with values := Keyed.put producer (asked + 1) t.values })

/-- The names for the next statement. -/
def takeNames (s : Supply) (t : Taken) : Names × Taken :=
  (s.names t.names, { t with names := t.names + 1 })

end Supply

end Persistence.Scripted
