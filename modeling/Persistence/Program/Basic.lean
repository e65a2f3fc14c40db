import Persistence.Catalog
import Persistence.Config
import Persistence.Dao.Basic
import Persistence.Statement

/-!
# Programs

A program is a tree of requests to the surroundings of the library: the database driver, the
connect hooks, the producers of delete values and the supply of constraint names.  Between two
requests a program may look at the state that all programs share, and replace it.

Nothing is assumed of the surroundings: whatever holds of every answer to every request holds of
every driver.

Main definitions:

- `Request`, `Request.Answer`: what is asked, and the type of the answer.
- `Program`: the tree, with `Program.bind`.
- `Driver`, `Program.run`: answers to all requests, and the run of a program against them.
-/

namespace Persistence

/-! ## State -/

/-- The pool of connections, from before the first connect to after the end. -/
inductive PoolState
  | pending
  | open (pool : Nat)
  | closed
deriving DecidableEq

/-- Whether a hook runs before or after the pool is created. -/
inductive HookPosition
  | before
  | after
deriving DecidableEq

/-- What a hook does: run the schema synchronizer, or something from outside of the library. -/
inductive HookBody
  | synchronize
  | custom (id : Nat)
deriving DecidableEq

/-- A hook of the connect. -/
structure Hook where
  position : HookPosition
  priority : Int
  body : HookBody
deriving DecidableEq

/-- What all programs of one process share. -/
structure State where
  pool : PoolState
  catalog : Catalog
  selects : List (String × Select)
  deletes : List (String × DeleteOperation)
  /-- Hooks in the order of their registration. -/
  hooks : List Hook
  sync : SyncConfig
  /-- Tables that the synchronizer never touches, whatever its configuration says. -/
  exceptTables : List String
  /-- The reserved connection of each transaction context; an ended context has none. -/
  contexts : List (Option Nat)

/-- The state before anything happened: the synchronizer is the first hook after the connect. -/
def State.initial : State where
  pool := .pending
  catalog := Catalog.empty
  selects := []
  deletes := []
  hooks := [⟨.after, 0, .synchronize⟩]
  sync := SyncConfig.off
  exceptTables := []
  contexts := []

/-! ## Requests -/

/-- A request to the surroundings. -/
inductive Request
  | createPool (options : ConnectOptions)
  | closePool (pool : Nat)
  /-- Run a statement on any connection of a pool. -/
  | poolQuery (pool : Nat) (s : Statement)
  /-- Reserve a connection of a pool. -/
  | acquire (pool : Nat)
  | begin (conn : Nat)
  | commit (conn : Nat)
  | rollback (conn : Nat)
  /-- Give a reserved connection back. -/
  | release (conn : Nat)
  /-- Run a statement on a reserved connection. -/
  | query (conn : Nat) (s : Statement)
  /-- The part of a hook that is not the library's; a hook is told whether the pool is open. -/
  | hook (id : Nat) (connected : Bool)
  /-- A value of a producer. -/
  | produce (producer : String)
  /-- Names for the constraints of one statement. -/
  | constraintNames

/-- What a request is answered with. -/
@[reducible]
def Request.Answer : Request → Type
  | createPool _ => Except DbError Nat
  | closePool _ => Except DbError Unit
  | poolQuery _ _ => Except DbError Output
  | acquire _ => Except DbError Nat
  | begin _ => Except DbError Unit
  | commit _ => Except DbError Unit
  | rollback _ => Except DbError Unit
  | release _ => Except DbError Unit
  | query _ _ => Except DbError Output
  | hook _ _ => Except DbError Unit
  | produce _ => Value
  | constraintNames => Names

/-! ## Programs -/

/-- A program with a result in `α`. -/
inductive Program (α : Type)
  | done (a : α)
  | read (next : State → Program α)
  | write (s : State) (next : Program α)
  | call (r : Request) (next : r.Answer → Program α)

namespace Program

variable {α β γ : Type}

/-- Run one program and then one that depends on its result. -/
def bind : Program α → (α → Program β) → Program β
  | done a, f => f a
  | read next, f => read fun s => (next s).bind f
  | write s next, f => write s (next.bind f)
  | call r next, f => call r fun answer => (next answer).bind f

@[simp] theorem bind_done (p : Program α) : p.bind done = p := by
  induction p with
  | done a => rfl
  | read next ih => simp [bind, ih]
  | write s next ih => simp [bind, ih]
  | call r next ih => simp [bind, ih]

theorem bind_assoc (p : Program α) (f : α → Program β) (g : β → Program γ) :
    (p.bind f).bind g = p.bind fun a => (f a).bind g := by
  induction p with
  | done a => rfl
  | read next ih => simp [bind, ih]
  | write s next ih => simp [bind, ih]
  | call r next ih => simp [bind, ih]

/-! ## Running programs -/

end Program

/-- Answers to all requests, from a state of the driver. -/
structure Driver (δ : Type) where
  answer : (r : Request) → δ → r.Answer × δ

namespace Program

variable {α β δ : Type}

/-- Run a program against a driver: its result, the shared state and the driver's state. -/
def run (driver : Driver δ) : Program α → State → δ → α × State × δ
  | done a, s, d => (a, s, d)
  | read next, s, d => (next s).run driver s d
  | write s next, _, d => next.run driver s d
  | call r next, s, d =>
      let (answer, d) := driver.answer r d
      (next answer).run driver s d

/-- A run of two programs is a run of the second from where the first ended. -/
theorem run_bind (driver : Driver δ) (p : Program α) (f : α → Program β) (s : State) (d : δ) :
    (p.bind f).run driver s d =
      (f (p.run driver s d).1).run driver (p.run driver s d).2.1 (p.run driver s d).2.2 := by
  induction p generalizing s d with
  | done a => rfl
  | read next ih => simp [bind, run, ih]
  | write s next ih => simp [bind, run, ih]
  | call r next ih => simp [bind, run, ih]

end Program

end Persistence
