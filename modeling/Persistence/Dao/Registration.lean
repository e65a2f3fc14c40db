import Persistence.Operation.Run

/-!
# Registration

Registering an entity type makes its table known.  Opening its data access object also registers
the operations that other entity types reach by id: the selects that find related objects and the
delete that a cascade goes through.
-/

namespace Persistence

variable {σ : Type}

/-- Register an entity type; the result is its table, if it has one. -/
def registerEntity (e : Entity) : Task σ (Option Table) := do
  let (catalog, table) := (← Task.state).catalog.register e
  Task.modify fun state => { state with catalog }
  return table

/-- Register selects under their ids. -/
def registerSelects : List (String × Select) → Task σ Unit
  | [] => return ()
  | (id, s) :: selects => do
      registerSelect id s
      registerSelects selects

/-- Register an entity type and open the access to its objects.  There is none to a type without a
table. -/
def openDao (e : Entity) (codec : Codec) : Task σ (Option Dao) := do
  match ← registerEntity e with
  | none => return none
  | some table =>
      let d := Dao.ofEntity e table codec
      registerSelects d.registeredSelects
      registerDelete (deleteQueryId e.name) (.dao d)
      return some d

end Persistence
