import Persistence.Program.Task

/-!
# Transactions

A transaction context holds a reserved connection until it is ended; the connection is then given
back, and every later use of the context is refused without reaching the database.

`transaction` brackets a task: it commits when the task succeeds, rolls back when the task or the
commit fails, and always ends the context.  Inside another transaction it only runs the task, and
the outcome is left to the owner of the other one.
-/

namespace Persistence

variable {σ α : Type}

/-- A transaction context; all copies of it share one connection. -/
structure Context where
  index : Nat
deriving DecidableEq

/-- The connection of a context, unless it has ended. -/
def State.connection? (s : State) (c : Context) : Option Nat :=
  (s.contexts[c.index]?).join

/-- The state with a new context on a connection. -/
def State.addContext (conn : Nat) (s : State) : State :=
  { s with contexts := s.contexts ++ [some conn] }

/-- The state after the end of a context. -/
def State.endContext (c : Context) (s : State) : State :=
  { s with contexts := s.contexts.set c.index none }

namespace Task

/-- The pool, if it is open. -/
def pool : Task σ Nat := do
  match (← state).pool with
  | .pending => fail .notConnected
  | .open pool => pure pool
  | .closed => fail .poolClosed

end Task

namespace Context

/-- The connection of a context that has not ended. -/
def connection (c : Context) : Task σ Nat := do
  match (← Task.state).connection? c with
  | some conn => pure conn
  | none => Task.fail .contextClosed

/-- Run a statement on the connection of the context. -/
def query (c : Context) (s : Statement) : Task σ Output := do
  let conn ← c.connection
  Task.ofExcept (← Task.ask (.query conn s))

/-- Make the changes of the transaction last. -/
def commit (c : Context) : Task σ Unit := do
  let conn ← c.connection
  Task.ofExcept (← Task.ask (.commit conn))

/-- Undo the changes of the transaction. -/
def rollback (c : Context) : Task σ Unit := do
  let conn ← c.connection
  Task.ofExcept (← Task.ask (.rollback conn))

/-- End the context and give its connection back. -/
def finish (c : Context) : Task σ Unit := do
  let conn ← c.connection
  Task.modify (State.endContext c)
  Task.ofExcept (← Task.ask (.release conn))

/-- Whether the context has ended. -/
def isEnded (c : Context) : Task σ Bool := do
  return ((← Task.state).connection? c).isNone

end Context

/-- Reserve a connection and begin a transaction on it.  A connection on which none can be begun
is given back. -/
def startTransaction : Task σ Context := do
  let pool ← Task.pool
  let conn ← Task.ofExcept (← Task.ask (.acquire pool))
  match ← Task.ask (.begin conn) with
  | .error e =>
      let _ ← Task.ask (.release conn)
      Task.fail e
  | .ok () =>
      let index := (← Task.state).contexts.length
      Task.modify (State.addContext conn)
      return ⟨index⟩

/-- The outcome of a bracket: a failure of the work counts before a failure at the end. -/
def bracketOutcome (result : Except DbError α) (ended : Except DbError Unit) : Except DbError α :=
  match result, ended with
  | .ok a, .ok () => .ok a
  | .ok _, .error e => .error e
  | .error e, _ => .error e

/-- The context of a bracket: the one of `parent`, or a new one. -/
def openBracket (parent : Option Context) : Task σ Context :=
  match parent with
  | some parent => pure parent
  | none => startTransaction

/-- Commit a transaction whose work succeeded, roll it back if the work or the commit failed, and
end its context. -/
def settle (ctx : Context) (worked : Except DbError α) : Task σ α := do
  let result ← match worked with
    | .ok a => do
        let committed ← Task.attempt ctx.commit
        pure (committed.map fun () => a)
    | .error e => pure (.error e)
  match result with
  | .ok _ => pure ()
  | .error _ => let _ ← Task.attempt ctx.rollback
  let ended ← Task.attempt ctx.finish
  Task.ofExcept (bracketOutcome result ended)

/-- The end of a bracket whose work went as given.  The transaction of `parent` goes on. -/
def closeBracket (parent : Option Context) (ctx : Context) (worked : Except DbError α) :
    Task σ α :=
  match parent with
  | some _ => Task.ofExcept worked
  | none => settle ctx worked

/-- Run a task in a transaction of its own, or in the one of `parent`. -/
def transaction (parent : Option Context) (work : Context → Task σ α) : Task σ α := do
  let ctx ← openBracket parent
  let worked ← Task.attempt (work ctx)
  closeBracket parent ctx worked

/-- Run a statement, on the connection of a context if one is given. -/
def execute (s : Statement) (ctx : Option Context) : Task σ Output := do
  match ctx with
  | some ctx => ctx.query s
  | none =>
      let pool ← Task.pool
      Task.ofExcept (← Task.ask (.poolQuery pool s))

/-- Run a template with arguments. -/
def query (template : String) (params : List Param) (ctx : Option Context) : Task σ Output :=
  execute (.text (Sql.format template params)) ctx

end Persistence
