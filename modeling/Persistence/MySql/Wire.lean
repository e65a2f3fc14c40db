import Persistence.Program.Basic

/-!
# Requests on the wire

Every statement is finished text when it is sent, and transactions are controlled by statements as
well.  Reserving a connection and giving it back are matters of the pool and send nothing.
-/

namespace Persistence.MySql

/-- The statement that begins a transaction. -/
def beginText : String := "START TRANSACTION"

/-- The statement that makes a transaction last. -/
def commitText : String := "COMMIT"

/-- The statement that undoes a transaction. -/
def rollbackText : String := "ROLLBACK"

/-- What the server receives of a request. -/
def sentText? : Request → Option String
  | .poolQuery _ s => some s.sql
  | .query _ s => some s.sql
  | .begin _ => some beginText
  | .commit _ => some commitText
  | .rollback _ => some rollbackText
  | _ => none

end Persistence.MySql
