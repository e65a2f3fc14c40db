import Mathlib
import Persistence.Program.Transaction

/-!
# Running tasks

A run of a task against a driver has an outcome, a local state, a shared state and a state of the
driver.  Each way of building a task has one equation here, so that a run is followed step by step
without opening the programs behind the tasks.

Main results:

- `Task.run_bind`: a sequence runs its first task and, unless that fails, its second.
- `Context.run_query`, `Context.run_rollback`: what goes over the connection of a context.
- `Task.exists_of_run_bind`, `answer_of_run_execute`: what has been run where a task succeeds.
- `run_transaction_of_ok`: the bracket around work that succeeds begins, works, commits and
  releases.
-/

namespace Persistence

variable {σ α β δ : Type}

namespace Task

/-- The run of a task against a driver. -/
def run (driver : Driver δ) (t : Task σ α) (l : σ) (s : State) (d : δ) :
    (Except DbError α × σ) × State × δ :=
  (t l).run driver s d

variable {driver : Driver δ} {l : σ} {s : State} {d : δ}

@[simp]
theorem run_pure (a : α) : (Pure.pure a : Task σ α).run driver l s d = ((.ok a, l), s, d) := rfl

@[simp]
theorem run_state : (state : Task σ State).run driver l s d = ((.ok s, l), s, d) := rfl

@[simp]
theorem run_modify (f : State → State) :
    (modify f : Task σ Unit).run driver l s d = ((.ok (), l), f s, d) := rfl

@[simp]
theorem run_localState : (localState : Task σ σ).run driver l s d = ((.ok l, l), s, d) := rfl

@[simp]
theorem run_setLocal (l' : σ) :
    (setLocal l' : Task σ Unit).run driver l s d = ((.ok (), l'), s, d) := rfl

@[simp]
theorem run_ask (r : Request) :
    (ask r : Task σ r.Answer).run driver l s d =
      ((.ok (driver.answer r d).1, l), s, (driver.answer r d).2) := rfl

@[simp]
theorem run_ofExcept (x : Except DbError α) :
    (ofExcept x : Task σ α).run driver l s d = ((x, l), s, d) := by
  cases x <;> rfl

/-- A sequence runs its first task and, unless that fails, its second. -/
theorem run_bind (t : Task σ α) (f : α → Task σ β) :
    (t >>= f).run driver l s d =
      match t.run driver l s d with
      | ((.ok a, l'), s', d') => (f a).run driver l' s' d'
      | ((.error e, l'), s', d') => ((.error e, l'), s', d') := by
  show ((t l).bind (proceed f)).run driver s d = _
  rw [Program.run_bind, run]
  rcases (t l).run driver s d with ⟨⟨_ | _, _⟩, _, _⟩ <;> rfl

/-- A sequence whose first task succeeds goes on with its result. -/
theorem run_bind_of_ok {t : Task σ α} {f : α → Task σ β} {a : α} {l' : σ} {s' : State} {d' : δ}
    (h : t.run driver l s d = ((.ok a, l'), s', d')) :
    (t >>= f).run driver l s d = (f a).run driver l' s' d' := by
  rw [run_bind, h]

/-- A sequence succeeds only if its first task does, and the second one behind it. -/
theorem exists_of_run_bind {t : Task σ α} {f : α → Task σ β} {b : β}
    (h : ((t >>= f).run driver l s d).1.1 = .ok b) :
    ∃ a l' s' d', t.run driver l s d = ((.ok a, l'), s', d') ∧
      ((f a).run driver l' s' d').1.1 = .ok b := by
  rw [run_bind] at h
  rcases hrun : t.run driver l s d with ⟨⟨result, l'⟩, s', d'⟩
  rw [hrun] at h
  cases result with
  | error e => cases h
  | ok a => exact ⟨a, l', s', d', rfl, h⟩

/-- Sequences run alike if their first tasks do, and their second ones behind the first. -/
theorem run_bind_congr {t t' : Task σ α} {f f' : α → Task σ β}
    (ht : t.run driver l s d = t'.run driver l s d)
    (hf : ∀ a l' s' d', t'.run driver l s d = ((.ok a, l'), s', d') →
      (f a).run driver l' s' d' = (f' a).run driver l' s' d') :
    (t >>= f).run driver l s d = (t' >>= f').run driver l s d := by
  rw [run_bind, run_bind, ht]
  rcases hrun : t'.run driver l s d with ⟨⟨result, l'⟩, s', d'⟩
  cases result with
  | error e => rfl
  | ok a => exact hf a l' s' d' hrun

/-- An attempt succeeds with the outcome of the task. -/
theorem run_attempt (t : Task σ α) :
    (attempt t).run driver l s d =
      ((.ok (t.run driver l s d).1.1, (t.run driver l s d).1.2), (t.run driver l s d).2) := by
  show ((t l).bind _).run driver s d = _
  rw [Program.run_bind]
  rfl

/-- A task with a local state of its own leaves the outer one alone. -/
theorem run_withLocal {τ : Type} (inner : τ) (t : Task τ α) :
    (withLocal inner t : Task σ α).run driver l s d =
      (((t.run driver inner s d).1.1, l), (t.run driver inner s d).2) := by
  show ((t inner).bind _).run driver s d = _
  rw [Program.run_bind]
  rfl

end Task

/-! ## Contexts -/

namespace Context

variable {driver : Driver δ} {l : σ} {s : State} {d : δ} {c : Context} {conn : Nat}

/-- The connection of a context that has not ended. -/
theorem run_connection (h : s.connection? c = some conn) :
    (c.connection : Task σ Nat).run driver l s d = ((.ok conn, l), s, d) := by
  rw [connection, Task.run_bind_of_ok Task.run_state, h]
  rfl

/-- A request over the connection of a context that has not ended. -/
theorem run_connection_bind (h : s.connection? c = some conn) (f : Nat → Task σ β) :
    ((c.connection : Task σ Nat) >>= f).run driver l s d = (f conn).run driver l s d :=
  Task.run_bind_of_ok (run_connection h)

/-- A statement goes over the connection of its context. -/
theorem run_query (h : s.connection? c = some conn) (q : Statement) :
    (c.query q : Task σ Output).run driver l s d =
      (((driver.answer (.query conn q) d).1, l), s, (driver.answer (.query conn q) d).2) := by
  rw [query, run_connection_bind h, Task.run_bind_of_ok (Task.run_ask _), Task.run_ofExcept]

/-- A commit goes over the connection of its context. -/
theorem run_commit (h : s.connection? c = some conn) :
    (c.commit : Task σ Unit).run driver l s d =
      (((driver.answer (.commit conn) d).1, l), s, (driver.answer (.commit conn) d).2) := by
  rw [commit, run_connection_bind h, Task.run_bind_of_ok (Task.run_ask _), Task.run_ofExcept]

/-- A rollback goes over the connection of its context. -/
theorem run_rollback (h : s.connection? c = some conn) :
    (c.rollback : Task σ Unit).run driver l s d =
      (((driver.answer (.rollback conn) d).1, l), s, (driver.answer (.rollback conn) d).2) := by
  rw [rollback, run_connection_bind h, Task.run_bind_of_ok (Task.run_ask _), Task.run_ofExcept]

/-- The end of a context gives its connection back. -/
theorem run_finish (h : s.connection? c = some conn) :
    (c.finish : Task σ Unit).run driver l s d =
      (((driver.answer (.release conn) d).1, l), s.endContext c,
        (driver.answer (.release conn) d).2) := by
  rw [finish, run_connection_bind h, Task.run_bind_of_ok (Task.run_modify _),
    Task.run_bind_of_ok (Task.run_ask _), Task.run_ofExcept]

end Context

/-- A new context stands for the connection that it was made with. -/
theorem State.connection?_addContext (s : State) (conn : Nat) :
    (s.addContext conn).connection? ⟨s.contexts.length⟩ = some conn := by
  simp [State.connection?, State.addContext]

/-- A statement in a context goes over its connection. -/
theorem run_execute {driver : Driver δ} {l : σ} {s : State} {d : δ} {c : Context} {conn : Nat}
    (h : s.connection? c = some conn) (q : Statement) :
    (execute q (some c) : Task σ Output).run driver l s d =
      (((driver.answer (.query conn q) d).1, l), s, (driver.answer (.query conn q) d).2) :=
  Context.run_query h q

/-- A statement in a context that is answered goes over its connection, and changes neither the
local nor the shared state. -/
theorem answer_of_run_execute {driver : Driver δ} {l l' : σ} {s s' : State} {d d' : δ} {c : Context}
    {q : Statement} {o : Output}
    (h : (execute q (some c) : Task σ Output).run driver l s d = ((.ok o, l'), s', d')) :
    l' = l ∧ s' = s ∧ ∃ conn, s.connection? c = some conn ∧
      (driver.answer (.query conn q) d).1 = .ok o := by
  cases hconn : s.connection? c with
  | none =>
      have hclosed : (c.connection : Task σ Nat).run driver l s d =
          ((.error .contextClosed, l), s, d) := by
        rw [Context.connection, Task.run_bind_of_ok Task.run_state, hconn]
        rfl
      rw [execute, Context.query, Task.run_bind, hclosed] at h
      cases h
  | some conn =>
      rw [run_execute hconn] at h
      simp only [Prod.mk.injEq] at h
      exact ⟨h.1.2.symm, h.2.1.symm, conn, rfl, h.1.1⟩

/-! ## Brackets -/

/-- A bracket inside of another one is its work. -/
theorem transaction_some (tx : Context) (work : Context → Task σ α) :
    transaction (some tx) work = work tx := by
  have hattempt : ∀ t : Task σ α, (Task.attempt t >>= fun worked => Task.ofExcept worked) = t := by
    intro t
    funext l
    show ((t l).bind fun x => .done (.ok x.1, x.2)).bind (Task.proceed Task.ofExcept) = t l
    rw [Program.bind_assoc]
    have hdone : (fun x : Except DbError α × σ => (Program.done (.ok x.1, x.2)).bind
        (Task.proceed Task.ofExcept)) = Program.done := by
      funext x
      rcases x with ⟨_ | _, _⟩ <;> rfl
    rw [hdone, Program.bind_done]
  exact hattempt (work tx)

variable {driver : Driver δ} {l : σ} {s : State} {d : δ}

/-- A transaction starts on a connection of the open pool. -/
theorem run_startTransaction {pool conn : Nat} {d₁ d₂ : δ} (hpool : s.pool = .open pool)
    (hacquire : driver.answer (.acquire pool) d = (.ok conn, d₁))
    (hbegin : driver.answer (.begin conn) d₁ = (.ok (), d₂)) :
    (startTransaction : Task σ Context).run driver l s d =
      ((.ok ⟨s.contexts.length⟩, l), s.addContext conn, d₂) := by
  have hp : (Task.pool : Task σ Nat).run driver l s d = ((.ok pool, l), s, d) := by
    rw [Task.pool, Task.run_bind_of_ok Task.run_state, hpool]
    rfl
  rw [startTransaction, Task.run_bind_of_ok hp, Task.run_bind_of_ok (Task.run_ask _), hacquire,
    Task.run_bind_of_ok (Task.run_ofExcept _), Task.run_bind_of_ok (Task.run_ask _), hbegin,
    Task.run_bind_of_ok Task.run_state, Task.run_bind_of_ok (Task.run_modify _), Task.run_pure]

/-- The bracket around work that succeeds begins, works, commits and releases. -/
theorem run_transaction_of_ok {pool conn : Nat} {d₁ d₂ d₃ d₄ d₅ : δ} {work : Context → Task σ α}
    {a : α} {l' : σ} (hpool : s.pool = .open pool)
    (hacquire : driver.answer (.acquire pool) d = (.ok conn, d₁))
    (hbegin : driver.answer (.begin conn) d₁ = (.ok (), d₂))
    (hwork : (work ⟨s.contexts.length⟩).run driver l (s.addContext conn) d₂ =
      ((.ok a, l'), s.addContext conn, d₃))
    (hcommit : driver.answer (.commit conn) d₃ = (.ok (), d₄))
    (hrelease : driver.answer (.release conn) d₄ = (.ok (), d₅)) :
    (transaction none work).run driver l s d =
      ((.ok a, l'), (s.addContext conn).endContext ⟨s.contexts.length⟩, d₅) := by
  have hconn := s.connection?_addContext conn
  rw [transaction, openBracket, Task.run_bind_of_ok (run_startTransaction hpool hacquire hbegin),
    Task.run_bind_of_ok (Task.run_attempt _), hwork]
  simp only [closeBracket, settle, Task.run_bind, Task.run_attempt, Context.run_commit hconn,
    hcommit, Task.run_pure, Except.map, Context.run_finish hconn, hrelease, Task.run_ofExcept,
    bracketOutcome]

end Persistence
