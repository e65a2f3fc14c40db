import Persistence.Program.Basic

/-!
# Tasks

A task is a program that may fail, with a local state that survives its failures.  Most tasks have
no use for the local state; a cascading delete keeps in it the rows that it has claimed.
-/

namespace Persistence

/-- A program with a result in `α` or a failure, over a local state in `σ`. -/
def Task (σ α : Type) : Type := σ → Program (Except DbError α × σ)

namespace Task

variable {σ α β : Type}

/-- The task that does nothing. -/
def pure (a : α) : Task σ α := fun l => .done (.ok a, l)

/-- The task that fails. -/
def fail (e : DbError) : Task σ α := fun l => .done (.error e, l)

/-- What follows the outcome of a task: a failure ends everything. -/
def proceed (f : α → Task σ β) : Except DbError α × σ → Program (Except DbError β × σ)
  | (.ok a, l) => f a l
  | (.error e, l) => .done (.error e, l)

/-- Run one task and, unless it fails, one that depends on its result. -/
def bind (t : Task σ α) (f : α → Task σ β) : Task σ β := fun l => (t l).bind (proceed f)

instance : Monad (Task σ) where
  pure := Task.pure
  bind := Task.bind

/-- Run a task and look at how it went. -/
def attempt (t : Task σ α) : Task σ (Except DbError α) := fun l =>
  (t l).bind fun (result, l) => .done (.ok result, l)

/-- The task that succeeds or fails as a result says. -/
def ofExcept : Except DbError α → Task σ α
  | .ok a => pure a
  | .error e => fail e

/-- Ask the surroundings. -/
def ask (r : Request) : Task σ r.Answer := fun l => .call r fun answer => .done (.ok answer, l)

/-- Look at the shared state. -/
def state : Task σ State := fun l => .read fun s => .done (.ok s, l)

/-- Change the shared state. -/
def modify (f : State → State) : Task σ Unit := fun l =>
  .read fun s => .write (f s) (.done (.ok (), l))

/-- Look at the local state. -/
def localState : Task σ σ := fun l => .done (.ok l, l)

/-- Replace the local state. -/
def setLocal (l : σ) : Task σ Unit := fun _ => .done (.ok (), l)

/-- The task that was run with a local state of its own, which is dropped at the end. -/
def withLocal {τ : Type} (l : τ) (t : Task τ α) : Task σ α := fun outer =>
  (t l).bind fun (result, _) => .done (result, outer)

theorem proceed_pure : proceed (Task.pure : α → Task σ α) = Program.done := by
  funext x
  rcases x with ⟨_ | _, _⟩ <;> rfl

theorem proceed_bind {γ : Type} (f : α → Task σ β) (g : β → Task σ γ) :
    (fun x => (proceed f x).bind (proceed g)) = proceed fun a => Task.bind (f a) g := by
  funext x
  rcases x with ⟨_ | _, _⟩ <;> rfl

instance : LawfulMonad (Task σ) :=
  LawfulMonad.mk' (Task σ)
    (fun t => by
      funext l
      show (t l).bind (proceed Task.pure) = t l
      rw [proceed_pure, Program.bind_done])
    (fun _ _ => rfl)
    (fun t f g => by
      funext l
      show ((t l).bind (proceed f)).bind (proceed g) = (t l).bind (proceed fun a => (f a).bind g)
      rw [Program.bind_assoc, proceed_bind])

end Task

end Persistence
