import Persistence.Schema.Sync

/-!
# The life of the pool

The pool is created by the first connect and closed for good by a destroy.  A connect runs hooks
before and after it creates the pool, those of one position in ascending order of priority and
otherwise in the order of their registration; the first failure ends it.  The synchronizer is the
hook that is registered first.
-/

namespace Persistence

variable {σ : Type}

/-- What the hooks that are not the library's do with it, by id. -/
abbrev HookActions (σ : Type) := Nat → Task σ Unit

/-- Whether the pool is open. -/
def PoolState.isOpen : PoolState → Bool
  | .open _ => true
  | _ => false

/-- Whether the pool is open. -/
def isConnected : Task σ Bool := do
  return (← Task.state).pool.isOpen

/-- Register a hook. -/
def addHook (h : Hook) : Task σ Unit :=
  Task.modify fun state => { state with hooks := state.hooks ++ [h] }

/-- The hooks of a position in the order in which they run. -/
def hooksAt (position : HookPosition) (hooks : List Hook) : List Hook :=
  (hooks.filter fun h => h.position = position).mergeSort fun a b => a.priority ≤ b.priority

/-- Run the body of a hook.  The synchronizer does nothing unless it is enabled; a hook from
outside is announced before it acts. -/
def HookBody.run (actions : HookActions σ) : HookBody → Task σ Unit
  | synchronize => do
      if (← Schema.syncConfig).enable then
        let _ ← Schema.synchronize none
        return ()
      else return ()
  | custom id => do
      Task.ofExcept (← Task.ask (.hook id (← isConnected)))
      actions id

/-- Run hooks one after the other. -/
def runHooks (actions : HookActions σ) : List Hook → Task σ Unit
  | [] => return ()
  | h :: hooks => do
      h.body.run actions
      runHooks actions hooks

/-- Run the hooks that are registered for a position. -/
def runHooksAt (actions : HookActions σ) (position : HookPosition) : Task σ Unit := do
  runHooks actions (hooksAt position (← Task.state).hooks)

/-- Refuse a connect unless none was made before. -/
def requirePending : Task σ Unit := do
  match (← Task.state).pool with
  | .pending => return ()
  | .open _ => Task.fail .alreadyConnected
  | .closed => Task.fail .poolClosed

/-- Create the pool between the hooks before and after it. -/
def connect (actions : HookActions σ) (options : ConnectOptions) : Task σ Unit := do
  requirePending
  Task.modify fun state => { state with sync := options.sync }
  runHooksAt actions .before
  let pool ← Task.ofExcept (← Task.ask (.createPool options))
  Task.modify fun state => { state with pool := .open pool }
  runHooksAt actions .after

/-- Close the pool for good and forget the registered operations and hooks. -/
def destroy : Task σ Unit := do
  let before := (← Task.state).pool
  Task.modify fun state => { state with pool := .closed, selects := [], deletes := [], hooks := [] }
  match before with
  | .open pool => Task.ofExcept (← Task.ask (.closePool pool))
  | .pending | .closed => return ()

end Persistence
