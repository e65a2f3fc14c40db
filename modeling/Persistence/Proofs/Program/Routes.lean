import Persistence.Proofs.Program.Exchanges

/-!
# Where statements go

A statement goes over the connection of its context, or to the pool if it has none.  Where the
context has ended or the pool is not open it goes nowhere, and its task fails.

Main results:

- `execute_directed`: a statement is sent once along its route, or it goes nowhere.
-/

namespace Persistence

variable {σ β : Type}

/-- Where statements go: to the pool, or over the connection of a context. -/
inductive Route
  | pool (n : Nat)
  | connection (n : Nat)

/-- A statement with its answer. -/
def Route.exchange : Route → Statement → Except DbError Output → Exchange
  | pool n, st, answer => ⟨.poolQuery n st, answer⟩
  | connection n, st, answer => ⟨.query n st, answer⟩

/-- The answer to a statement. -/
def Exchange.answered? : Exchange → Option (Statement × Except DbError Output)
  | ⟨.poolQuery _ st, answer⟩ => some (st, answer)
  | ⟨.query _ st, answer⟩ => some (st, answer)
  | _ => none

@[simp]
theorem Route.answered?_exchange (route : Route) (st : Statement)
    (answer : Except DbError Output) :
    (route.exchange st answer).answered? = some (st, answer) := by
  cases route <;> rfl

namespace State

/-- Work can start: in a context that has its connection, or without a context while the pool is
open. -/
def Admits (s : State) : Option Context → Prop
  | none => ∃ pool, s.pool = .open pool
  | some tx => ∃ conn, s.connection? tx = some conn

/-- The route of the statements of a context, or of those without one. -/
def route? (s : State) : Option Context → Option Route
  | none =>
      match s.pool with
      | .open pool => some (.pool pool)
      | _ => none
  | some tx => (s.connection? tx).map .connection

theorem Admits.exists_route {s : State} {ctx : Option Context} (h : s.Admits ctx) :
    ∃ route, s.route? ctx = some route := by
  cases ctx with
  | none =>
      obtain ⟨pool, hpool⟩ := h
      exact ⟨.pool pool, by rw [route?, hpool]⟩
  | some tx =>
      obtain ⟨conn, hconn⟩ := h
      exact ⟨.connection conn, by rw [route?, hconn]; rfl⟩

end State

/-- What becomes of a statement: it is sent once along its route and the answer is the outcome, or
it has no route and its task fails. -/
inductive Directed (s : State) (ctx : Option Context) (st : Statement) :
    List Exchange → Except DbError Output → Prop
  | sent (route : Route) (answer : Except DbError Output) : s.route? ctx = some route →
      Directed s ctx st [route.exchange st answer] answer
  | refused (e : DbError) : s.route? ctx = none → Directed s ctx st [] (.error e)

/-- A statement is sent once along its route, or it goes nowhere. -/
theorem execute_directed (s : State) (ctx : Option Context) (st : Statement) :
    (execute st ctx : Task σ Output).Ensures (· = s) (Directed s ctx st) := by
  cases ctx with
  | none =>
      show ((Task.state >>= fun s => _) >>= _ : Task σ Output).Ensures _ _
      rw [bind_assoc]
      refine .state_bind fun s' hs' => ?_
      obtain rfl := hs'
      cases hpool : s'.pool with
      | «open» pool =>
          exact .ask_bind fun answer => .ofExcept
            (.sent (.pool pool) answer (by rw [State.route?, hpool]))
      | pending => exact .fail (.refused _ (by rw [State.route?, hpool]))
      | closed => exact .fail (.refused _ (by rw [State.route?, hpool]))
  | some tx =>
      show ((Task.state >>= fun s => _) >>= _ : Task σ Output).Ensures _ _
      rw [bind_assoc]
      refine .state_bind fun s' hs' => ?_
      obtain rfl := hs'
      cases hconn : s'.connection? tx with
      | some conn =>
          exact .ask_bind fun answer => .ofExcept
            (.sent (.connection conn) answer (by rw [State.route?, hconn]; rfl))
      | none => exact .fail (.refused _ (by rw [State.route?, hconn]; rfl))

/-- A statement with a route is one exchange, and its answer is the outcome. -/
theorem execute_ensures_of_route {s : State} {ctx : Option Context} {route : Route}
    (h : s.route? ctx = some route) {st : Statement}
    {Q : List Exchange → Except DbError Output → Prop}
    (hQ : ∀ answer, Q [route.exchange st answer] answer) :
    (execute st ctx : Task σ Output).Ensures (· = s) Q := by
  apply (execute_directed s ctx st).mono
  rintro trace result hdirected
  cases hdirected with
  | sent route' _ hroute =>
      obtain rfl := Option.some.inj (h.symm.trans hroute)
      exact hQ result
  | refused e hroute => cases h.symm.trans hroute

/-- What follows a statement with a route comes behind its one exchange. -/
theorem execute_bind_ensures_of_route {s : State} {ctx : Option Context} {route : Route}
    (h : s.route? ctx = some route) {st : Statement} {f : Output → Task σ β}
    {Q : List Exchange → Except DbError β → Prop}
    (herror : ∀ e, Q [route.exchange st (.error e)] (.error e))
    (hok : ∀ output, (f output).Ensures (· = s) fun trace result =>
      Q (route.exchange st (.ok output) :: trace) result) :
    (execute st ctx >>= f).Ensures (· = s) Q := by
  refine Task.Ensures.bind (execute_ensures_of_route h fun answer => ?_)
  cases answer with
  | error e => exact herror e
  | ok output => exact hok output

end Persistence
