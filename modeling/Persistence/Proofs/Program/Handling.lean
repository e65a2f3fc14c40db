import Persistence.Proofs.Program.Exchanges

/-!
# What a caller does in a transaction

The work of a transaction is given by its caller, who may use the context in any way: run
statements, commit, roll back, end it, and join further work to it.  Such work is a finite program
over the context here, and it is followed over the connection of the context: the work stays on the
connection, gives it back at most once, and is refused from then on.

With the start and the end around the work, one transaction is one bracket on one connection, for
every driver.  Its outcome is that of the work, the commit and the release taken together: a
transaction that was committed fails if its connection is not given back.

Main results:

- `Handler.course`: what the work leaves of its context.
- `Handler.transaction_brackets`: the calls of a transaction, from its begin to its release.
- `Handler.transaction_outcome`: the outcome of a transaction against its commit and its release.
-/

namespace Persistence

variable {σ α β δ : Type}

/-! ## Attempts -/

namespace Task

variable {driver : Driver δ} {l : σ} {s : State} {d : δ}

/-- What follows an attempt runs with the outcome. -/
theorem run_attempt_bind (t : Task σ α) (f : Except DbError α → Task σ β) :
    (attempt t >>= f).run driver l s d =
      (f (t.run driver l s d).1.1).run driver (t.run driver l s d).1.2 (t.run driver l s d).2.1
        (t.run driver l s d).2.2 := by
  rw [run_bind_of_ok (run_attempt t)]

/-- What follows an attempt has its exchanges behind those of the attempt. -/
theorem exchanges_attempt_bind (t : Task σ α) (f : Except DbError α → Task σ β) :
    (attempt t >>= f).exchanges driver l s d =
      t.exchanges driver l s d ++
        (f (t.run driver l s d).1.1).exchanges driver (t.run driver l s d).1.2
          (t.run driver l s d).2.1 (t.run driver l s d).2.2 := by
  rw [exchanges_bind_of_ok (run_attempt t), exchanges_attempt]

end Task

/-! ## Contexts that have ended -/

/-- A context that was ended: it is there and has no connection any more. -/
def State.HasEnded (s : State) (tx : Context) : Prop := s.contexts[tx.index]? = some none

theorem State.HasEnded.connection? {s : State} {tx : Context} (h : s.HasEnded tx) :
    s.connection? tx = none := by
  rw [State.connection?, h]
  rfl

/-- A use of a context that is refused, and never gets to the database. -/
structure Refused (driver : Driver δ) (t : Task σ α) (l : σ) (s : State) (d : δ) : Prop where
  run : t.run driver l s d = ((.error .contextClosed, l), s, d)
  exchanges : t.exchanges driver l s d = []

namespace Refused

variable {driver : Driver δ} {l : σ} {s : State} {d : δ}

theorem bind {t : Task σ α} (h : Refused driver t l s d) (f : α → Task σ β) :
    Refused driver (t >>= f) l s d where
  run := by rw [Task.run_bind, h.run]
  exchanges := by rw [Task.exchanges_bind_of_error h.run, h.exchanges]

theorem connection {tx : Context} (h : s.connection? tx = none) :
    Refused driver (tx.connection : Task σ Nat) l s d where
  run := by
    rw [Context.connection, Task.run_bind_of_ok Task.run_state, h]
    rfl
  exchanges := by
    rw [Context.connection, Task.exchanges_bind_of_ok Task.run_state, h]
    rfl

theorem query {tx : Context} (h : s.connection? tx = none) (st : Statement) :
    Refused driver (tx.query st : Task σ Output) l s d :=
  (connection h).bind _

theorem commit {tx : Context} (h : s.connection? tx = none) :
    Refused driver (tx.commit : Task σ Unit) l s d :=
  (connection h).bind _

theorem rollback {tx : Context} (h : s.connection? tx = none) :
    Refused driver (tx.rollback : Task σ Unit) l s d :=
  (connection h).bind _

theorem finish {tx : Context} (h : s.connection? tx = none) :
    Refused driver (tx.finish : Task σ Unit) l s d :=
  (connection h).bind _

end Refused

/-- A run that has no exchange and leaves the shared state as it is. -/
structure Unheard (driver : Driver δ) (t : Task σ α) (l : σ) (s : State) (d : δ) : Prop where
  state : (t.run driver l s d).2 = (s, d)
  exchanges : t.exchanges driver l s d = []

theorem Refused.unheard {driver : Driver δ} {t : Task σ α} {l : σ} {s : State} {d : δ}
    (h : Refused driver t l s d) : Unheard driver t l s d :=
  ⟨by rw [h.run], h.exchanges⟩

theorem Unheard.ofExcept {driver : Driver δ} {l : σ} {s : State} {d : δ} (x : Except DbError α) :
    Unheard driver (Task.ofExcept x : Task σ α) l s d :=
  ⟨by rw [Task.run_ofExcept], Task.exchanges_ofExcept x⟩

/-- What follows an attempt that was not heard starts where the attempt did. -/
theorem Unheard.attempt_bind {driver : Driver δ} {t : Task σ α} {f : Except DbError α → Task σ β}
    {l : σ} {s : State} {d : δ} (h : Unheard driver t l s d)
    (hf : ∀ result l', Unheard driver (f result) l' s d) :
    Unheard driver (Task.attempt t >>= f) l s d where
  state := by
    rw [Task.run_attempt_bind, h.state]
    exact (hf _ _).state
  exchanges := by
    rw [Task.exchanges_attempt_bind, h.exchanges, h.state]
    exact (hf _ _).exchanges

/-- A context that has its connection has none once it was ended. -/
theorem State.hasEnded_endContext {s : State} {tx : Context} {conn : Nat} (h : Holds tx conn s) :
    (s.endContext tx).HasEnded tx := by
  have hindex : tx.index < s.contexts.length := by
    by_contra hout
    simp [Holds, State.connection?, List.getElem?_eq_none (Nat.le_of_not_lt hout)] at h
  simp [State.HasEnded, State.endContext, hindex]

/-- No other transaction brings an ended context back. -/
theorem State.HasEnded.addContext {s : State} {tx : Context} (h : s.HasEnded tx) (conn : Nat) :
    (s.addContext conn).HasEnded tx := by
  have hindex : tx.index < s.contexts.length := (List.getElem?_eq_some_iff.1 h).1
  rw [State.HasEnded, State.addContext, List.getElem?_append_left hindex]
  exact h

theorem State.HasEnded.endContext {s : State} {tx : Context} (h : s.HasEnded tx)
    (other : Context) : (s.endContext other).HasEnded tx := by
  rw [State.HasEnded, State.endContext, List.getElem?_set]
  split
  · next hsame =>
    rw [if_pos]
    rw [hsame]
    exact (List.getElem?_eq_some_iff.1 h).1
  · exact h

/-! ## Handlers -/

/-- What a caller does in a transaction: a finite program of uses of the context, each of which may
look at the outcomes of those before it. -/
inductive Handler : Type → Type 1
  | done {α : Type} (result : Except DbError α) : Handler α
  | query {α : Type} (st : Statement) (next : Except DbError Output → Handler α) : Handler α
  | commit {α : Type} (next : Except DbError Unit → Handler α) : Handler α
  | rollback {α : Type} (next : Except DbError Unit → Handler α) : Handler α
  | finish {α : Type} (next : Except DbError Unit → Handler α) : Handler α
  | isEnded {α : Type} (next : Bool → Handler α) : Handler α
  /-- A transaction inside of this one. -/
  | joined {α β : Type} (inner : Handler β) (next : Except DbError β → Handler α) : Handler α

namespace Handler

/-- The task that a handler is in a context. -/
def task {α : Type} : Handler α → Context → Task σ α
  | done result, _ => Task.ofExcept result
  | query st next, tx => Task.attempt (tx.query st) >>= fun o => (next o).task tx
  | commit next, tx => Task.attempt tx.commit >>= fun o => (next o).task tx
  | rollback next, tx => Task.attempt tx.rollback >>= fun o => (next o).task tx
  | finish next, tx => Task.attempt tx.finish >>= fun o => (next o).task tx
  | isEnded next, tx => tx.isEnded >>= fun ended => (next ended).task tx
  | joined inner next, tx =>
      Task.attempt (transaction (some tx) inner.task) >>= fun o => (next o).task tx

variable {driver : Driver δ} {l : σ} {s : State} {d : δ} {tx : Context} {conn : Nat}

/-- Work in a context that has ended gets to the database no more, and changes nothing. -/
theorem unheard {α : Type} (h : Handler α) (hs : s.connection? tx = none) (l : σ) :
    Unheard driver (h.task tx) l s d := by
  induction h generalizing l with
  | done result => exact .ofExcept result
  | query st next ih => exact (Refused.query hs st).unheard.attempt_bind ih
  | commit next ih => exact (Refused.commit hs).unheard.attempt_bind ih
  | rollback next ih => exact (Refused.rollback hs).unheard.attempt_bind ih
  | finish next ih => exact (Refused.finish hs).unheard.attempt_bind ih
  | isEnded next ih =>
      rw [task]
      exact ⟨(ih _ l).state, (ih _ l).exchanges⟩
  | joined inner next ihinner ih =>
      rw [task, transaction_some]
      exact (ihinner l).attempt_bind ih

end Handler

/-! ## What work leaves of its context -/

/-- A request of a transaction, between its begin and its end. -/
inductive OverConnection (conn : Nat) : Request → Prop
  | query (st : Statement) : OverConnection conn (.query conn st)
  | commit : OverConnection conn (.commit conn)
  | rollback : OverConnection conn (.rollback conn)

/-- What work in a transaction exchanges, and the state that it leaves: either the context has its
connection as before, or it was ended, and then its release is the last exchange. -/
inductive Course (tx : Context) (conn : Nat) (s : State) : List Exchange → State → Prop
  | opened {calls : List Exchange} (h : ∀ x ∈ calls, OverConnection conn x.request) :
      Course tx conn s calls s
  | ended {calls : List Exchange} (h : ∀ x ∈ calls, OverConnection conn x.request)
      (released : Except DbError Unit) :
      Course tx conn s (calls ++ [⟨.release conn, released⟩]) (s.endContext tx)

section Courses

variable {driver : Driver δ} {l : σ} {s : State} {d : δ} {tx : Context} {conn : Nat}

theorem Course.prepend {front trace : List Exchange} {s' : State}
    (hfront : ∀ x ∈ front, OverConnection conn x.request) (h : Course tx conn s trace s') :
    Course tx conn s (front ++ trace) s' := by
  cases h with
  | opened hcalls => exact .opened (List.forall_mem_append.2 ⟨hfront, hcalls⟩)
  | ended hcalls released =>
      rw [← List.append_assoc]
      exact .ended (List.forall_mem_append.2 ⟨hfront, hcalls⟩) released

/-- The course of an attempt goes on with the course of what follows, unless it ended the
context. -/
theorem Course.attempt_bind {t : Task σ α} {f : Except DbError α → Task σ β} (hs : Holds tx conn s)
    (ht : Course tx conn s (t.exchanges driver l s d) (t.run driver l s d).2.1)
    (hopened : ∀ result l' d', Course tx conn s ((f result).exchanges driver l' s d')
      ((f result).run driver l' s d').2.1)
    (hended : ∀ s', s'.connection? tx = none → ∀ result l' d',
      Unheard driver (f result) l' s' d') :
    Course tx conn s ((Task.attempt t >>= f).exchanges driver l s d)
      ((Task.attempt t >>= f).run driver l s d).2.1 := by
  rw [Task.exchanges_attempt_bind, Task.run_attempt_bind]
  generalize t.exchanges driver l s d = trace at ht ⊢
  generalize t.run driver l s d = reached at ht ⊢
  obtain ⟨⟨result, l'⟩, s', d'⟩ := reached
  cases ht with
  | opened hcalls => exact (hopened result l' d').prepend hcalls
  | ended hcalls released =>
      have hrest := hended _ (State.hasEnded_endContext hs).connection? result l' d'
      show Course tx conn s (_ ++ (f result).exchanges driver l' (s.endContext tx) d')
        ((f result).run driver l' (s.endContext tx) d').2.1
      rw [hrest.exchanges, hrest.state, List.append_nil]
      exact .ended hcalls released

/-- A statement in a context is one exchange. -/
theorem Context.exchanges_query (h : Holds tx conn s) (st : Statement) :
    (tx.query st : Task σ Output).exchanges driver l s d =
      [⟨.query conn st, (driver.answer (.query conn st) d).1⟩] := by
  rw [query, Task.exchanges_bind_of_ok (run_connection h), exchanges_connection h, List.nil_append,
    Task.exchanges_bind_of_ok (Task.run_ask _), Task.exchanges_ask, Task.exchanges_ofExcept]
  rfl

/-- One call over the connection leaves the state as it is. -/
theorem Course.call {t : Task σ α} {x : Exchange} (hx : OverConnection conn x.request)
    (hexchanges : t.exchanges driver l s d = [x]) (hrun : (t.run driver l s d).2.1 = s) :
    Course tx conn s (t.exchanges driver l s d) (t.run driver l s d).2.1 := by
  rw [hexchanges, hrun]
  exact .opened (by simpa using hx)

/-- Work in a context that has its connection stays on it, and gives it back at most once and then
does nothing more. -/
theorem Handler.course {α : Type} (h : Handler α) (driver : Driver δ) (hs : Holds tx conn s)
    (l : σ) (d : δ) :
    Course tx conn s ((h.task tx).exchanges driver l s d) ((h.task tx).run driver l s d).2.1 := by
  induction h generalizing l d with
  | done result =>
      rw [task, Task.exchanges_ofExcept, Task.run_ofExcept]
      exact .opened (by simp)
  | query st next ih =>
      refine .attempt_bind hs (.call (.query st) (Context.exchanges_query hs st) ?_) ih
        fun s' hs' result l' d' => (next result).unheard hs' l'
      rw [Context.run_query hs]
  | commit next ih =>
      refine .attempt_bind hs (.call .commit (Context.exchanges_commit hs) ?_) ih
        fun s' hs' result l' d' => (next result).unheard hs' l'
      rw [Context.run_commit hs]
  | rollback next ih =>
      refine .attempt_bind hs (.call .rollback (Context.exchanges_rollback hs) ?_) ih
        fun s' hs' result l' d' => (next result).unheard hs' l'
      rw [Context.run_rollback hs]
  | finish next ih =>
      refine .attempt_bind hs ?_ ih fun s' hs' result l' d' => (next result).unheard hs' l'
      rw [Context.exchanges_finish hs, Context.run_finish hs]
      have hnone : ∀ x ∈ ([] : List Exchange), OverConnection conn x.request := by simp
      exact .ended hnone _
  | isEnded next ih =>
      rw [task]
      exact ih _ l d
  | joined inner next ihinner ih =>
      rw [task, transaction_some]
      exact .attempt_bind hs (ihinner l d) ih
        fun s' hs' result l' d' => (next result).unheard hs' l'

end Courses

/-- Work ends no context a second time, and brings none back. -/
theorem Handler.hasEnded {α : Type} (h : Handler α) {driver : Driver δ} {s : State}
    {tx other : Context} (hs : s.HasEnded tx) (l : σ) (d : δ) :
    ((h.task other).run driver l s d).2.1.HasEnded tx := by
  cases hother : s.connection? other with
  | none =>
      rw [(h.unheard hother l).state]
      exact hs
  | some conn =>
      have hcourse := h.course driver hother l d
      generalize (h.task other).exchanges driver l s d = trace at hcourse
      generalize ((h.task other).run driver l s d).2.1 = reached at hcourse ⊢
      cases hcourse with
      | opened _ => exact hs
      | ended _ _ => exact hs.endContext other

/-! ## Transactions -/

/-- The driver that grants everything. -/
def Driver.granting : Driver Unit where
  answer r _ := (r.granted, ())

/-- The driver that takes no connection back, and grants everything else. -/
def Driver.unreleasing : Driver Unit where
  answer r _ :=
    match r with
    | .release _ => (.error (.connection "lost"), ())
    | r => (r.granted, ())

section Transactions

variable {driver : Driver δ} {l : σ} {s : State} {d : δ} {tx : Context} {conn : Nat}

/-- A bracket on a connection of a pool: begin is the first call, release is the last one, and there
is no other of either. -/
def Brackets (pool conn : Nat) (trace : List Exchange) : Prop :=
  ∃ begun calls released, trace =
      ⟨.acquire pool, .ok conn⟩ :: ⟨.begin conn, begun⟩ :: (calls ++ [⟨.release conn, released⟩]) ∧
    ∀ x ∈ calls, OverConnection conn x.request

/-- A bracket has nothing to end once its work has ended the context. -/
theorem unheard_settle (driver : Driver δ) (h : s.connection? tx = none) (worked : Except DbError α)
    (l : σ) (d : δ) :
    Unheard driver (settle tx worked : Task σ α) l s d := by
  have hfinish : ∀ (result : Except DbError α) (l : σ),
      Unheard driver (finishWith tx result : Task σ α) l s d := fun result l =>
    (Refused.finish h).unheard.attempt_bind fun _ _ => .ofExcept _
  have hundo : ∀ (e : DbError) (l : σ),
      Unheard driver (settle tx (.error e) : Task σ α) l s d := fun e l =>
    (Refused.rollback h).unheard.attempt_bind fun _ => hfinish _
  cases worked with
  | error e => exact hundo e l
  | ok a =>
      rw [settle_ok]
      refine (Refused.commit h).unheard.attempt_bind fun committed l' => ?_
      cases committed with
      | ok u => exact hfinish (.ok a) l'
      | error e => exact hundo e l'

/-- A bracket that is settled brings no ended context back. -/
theorem hasEnded_settle {other : Context} (hs : s.HasEnded tx) (worked : Except DbError α) (l : σ)
    (d : δ) : ((settle other worked : Task σ α).run driver l s d).2.1.HasEnded tx := by
  cases hother : s.connection? other with
  | none =>
      rw [(unheard_settle driver hother worked l d).state]
      exact hs
  | some conn =>
      rw [(settled_settle driver hother worked l d).2]
      exact hs.endContext other

/-- The end of a transaction makes its calls over the connection, and gives it back with the last
one. -/
theorem Settlement.calls {worked : Bool} {back : List Exchange} (h : Settlement conn worked back) :
    ∃ calls released, back = calls ++ [⟨.release conn, released⟩] ∧
      ∀ x ∈ calls, OverConnection conn x.request := by
  have hcommit : ∀ answer, OverConnection conn (Exchange.mk (.commit conn) answer).request :=
    fun _ => .commit
  have hrollback : ∀ answer, OverConnection conn (Exchange.mk (.rollback conn) answer).request :=
    fun _ => .rollback
  cases h with
  | committed released => exact ⟨[_], released, rfl, by simpa using hcommit (.ok ())⟩
  | undone e undone released =>
      exact ⟨[_, _], released, rfl, by simpa using ⟨hcommit (.error e), hrollback undone⟩⟩
  | failed undone released => exact ⟨[_], released, rfl, by simpa using hrollback undone⟩

namespace Handler

variable {α : Type}

/-- Work and its settling make their calls over the connection of the context, give it back with
the last one, and leave the context ended. -/
theorem settled (h : Handler α) (driver : Driver δ) (hs : Holds tx conn s) (l : σ) (d : δ) :
    (∃ calls released, (h.task tx).exchanges driver l s d ++
        (settle tx ((h.task tx).run driver l s d).1.1).exchanges driver
          ((h.task tx).run driver l s d).1.2 ((h.task tx).run driver l s d).2.1
          ((h.task tx).run driver l s d).2.2 = calls ++ [⟨.release conn, released⟩] ∧
      ∀ x ∈ calls, OverConnection conn x.request) ∧
    ((settle tx ((h.task tx).run driver l s d).1.1).run driver
        ((h.task tx).run driver l s d).1.2 ((h.task tx).run driver l s d).2.1
        ((h.task tx).run driver l s d).2.2).2.1.HasEnded tx := by
  have hcourse := h.course driver hs l d
  generalize (h.task tx).exchanges driver l s d = trace at hcourse ⊢
  generalize (h.task tx).run driver l s d = reached at hcourse ⊢
  obtain ⟨⟨worked, l'⟩, s', d'⟩ := reached
  cases hcourse with
  | opened hcalls =>
      obtain ⟨hsettled, hstate⟩ := settled_settle driver hs worked l' d'
      obtain ⟨calls, released, hback, hover⟩ := hsettled.settlement.calls
      refine ⟨⟨trace ++ calls, released, ?_, List.forall_mem_append.2 ⟨hcalls, hover⟩⟩, ?_⟩
      · rw [hback, List.append_assoc]
      · rw [hstate]
        exact State.hasEnded_endContext hs
  | ended hcalls released =>
      have hended := State.hasEnded_endContext hs
      have hsettle := unheard_settle driver hended.connection? worked l' d'
      refine ⟨⟨_, released, ?_, hcalls⟩, ?_⟩
      · show _ ++ (settle tx worked : Task σ α).exchanges driver l' (s.endContext tx) d' = _
        rw [hsettle.exchanges, List.append_nil]
      · show ((settle tx worked : Task σ α).run driver l' (s.endContext tx) d').2.1.HasEnded tx
        rw [hsettle.state]
        exact hended

/-- A transaction brings no ended context back. -/
theorem hasEnded_transaction (h : Handler α) (hs : s.HasEnded tx) (l : σ) (d : δ) :
    ((transaction none h.task).run driver l s d).2.1.HasEnded tx := by
  obtain ⟨result, s', d', hrun, hstart⟩ := start_startTransaction driver l s d
  generalize (startTransaction : Task σ Context).exchanges driver l s d = trace at hstart
  have hunstarted : ∀ e, (startTransaction : Task σ Context).run driver l s d =
      ((.error e, l), s, d') → ((transaction none h.task).run driver l s d).2.1.HasEnded tx := by
    intro e hrun
    rw [transaction, openBracket, Task.run_bind, hrun]
    exact hs
  cases hstart with
  | unconnected e => exact hunstarted e hrun
  | unacquired pool e => exact hunstarted e hrun
  | unbegun pool conn e released => exact hunstarted e hrun
  | begun pool conn =>
      rw [run_transaction_of_started hrun]
      exact hasEnded_settle (h.hasEnded (hs.addContext conn) l d') _ _ _

/-- A transaction that gets a connection is one bracket on it. -/
theorem brackets_transaction (h : Handler α) (driver : Driver δ) (l : σ) (s : State) (d : δ)
    {pool conn : Nat}
    (hacquired : ⟨.acquire pool, .ok conn⟩ ∈ (transaction none h.task).exchanges driver l s d) :
    Brackets pool conn ((transaction none h.task).exchanges driver l s d) := by
  obtain ⟨started, s', d', hrun, hstart⟩ := start_startTransaction driver l s d
  have hunstarted : ∀ e, (startTransaction : Task σ Context).run driver l s d =
      ((.error e, l), s, d') → (transaction none h.task).exchanges driver l s d =
        (startTransaction : Task σ Context).exchanges driver l s d := fun e hrun => by
    rw [transaction, openBracket, Task.exchanges_bind_of_error hrun]
  generalize hfront : (startTransaction : Task σ Context).exchanges driver l s d = front
    at hstart hunstarted
  cases hstart with
  | unconnected e => simp [hunstarted e hrun] at hacquired
  | unacquired pool' e => simp [hunstarted e hrun] at hacquired
  | unbegun pool' conn' e released =>
      rw [hunstarted e hrun] at hacquired ⊢
      obtain ⟨rfl, rfl⟩ : pool = pool' ∧ conn = conn' := by simpa using hacquired
      exact ⟨.error e, [], released, rfl, by simp⟩
  | begun pool' conn' =>
      obtain ⟨⟨calls, released, hcalls, hover⟩, -⟩ :=
        h.settled driver (s.connection?_addContext conn') l d'
      rw [exchanges_transaction_of_started hrun, hfront, hcalls] at hacquired ⊢
      have hother : ⟨.acquire pool, .ok conn⟩ ∉ calls := by
        intro hmem
        cases hover _ hmem
      obtain ⟨rfl, rfl⟩ : pool = pool' ∧ conn = conn' := by simpa [hother] using hacquired
      exact ⟨.ok (), calls, released, rfl, hover⟩

/-- A transaction that has started ends its context. -/
theorem hasEnded_of_started (h : Handler α) {l' : σ} {s' : State} {d' : δ}
    (hrun : (startTransaction : Task σ Context).run driver l s d = ((.ok tx, l'), s', d')) :
    ((transaction none h.task).run driver l s d).2.1.HasEnded tx := by
  obtain ⟨started, s₁, d₁, hrun₁, hstart⟩ := start_startTransaction driver l s d
  rw [run_transaction_of_started hrun]
  rw [hrun] at hrun₁
  cases hrun₁
  generalize (startTransaction : Task σ Context).exchanges driver l s d = front at hstart
  cases hstart with
  | begun pool conn => exact (h.settled driver (s.connection?_addContext conn) l d').2

/-- On the connection that a transaction acquires, it calls begin first and release last, and in
between it only runs statements, commits and rolls back.  What it adds to its work behind the begin
is the end of a bracket, or nothing if the work has ended the context.  A transaction inside of
another one is its work.  A context that was ended stays so, and all of its calls are refused. -/
theorem transaction_brackets (h : Handler α) (driver : Driver δ) (l : σ) (s : State) (d : δ) :
    (∀ pool conn, ⟨.acquire pool, .ok conn⟩ ∈ (transaction none h.task).exchanges driver l s d →
      Brackets pool conn ((transaction none h.task).exchanges driver l s d)) ∧
    (∀ tx l' s' d', (startTransaction : Task σ Context).run driver l s d =
        ((.ok tx, l'), s', d') →
      ∃ back, (transaction none h.task).exchanges driver l s d =
          (startTransaction : Task σ Context).exchanges driver l s d ++
            ((h.task tx).exchanges driver l' s' d' ++ back) ∧
        (((h.task tx).run driver l' s' d').2.1.connection? tx = none → back = []) ∧
        (∀ conn, ((h.task tx).run driver l' s' d').2.1.connection? tx = some conn →
          Settlement conn ((h.task tx).run driver l' s' d').1.1.isOk back) ∧
        ((transaction none h.task).run driver l s d).2.1.HasEnded tx) ∧
    (∀ tx, transaction (some tx) h.task = (h.task tx : Task σ α)) ∧
    (∀ tx conn, s.connection? tx = some conn →
      ((tx.finish : Task σ Unit).run driver l s d).2.1.HasEnded tx) ∧
    (∀ tx, s.HasEnded tx →
      (∀ st, Refused driver (tx.query st : Task σ Output) l s d) ∧
      Refused driver (tx.commit : Task σ Unit) l s d ∧
      Refused driver (tx.rollback : Task σ Unit) l s d ∧
      Refused driver (tx.finish : Task σ Unit) l s d ∧
      (∀ other, ((h.task other).run driver l s d).2.1.HasEnded tx) ∧
      ((transaction none h.task).run driver l s d).2.1.HasEnded tx) := by
  refine ⟨fun pool conn => h.brackets_transaction driver l s d, fun tx l' s' d' hrun => ?_,
    fun tx => transaction_some tx h.task, fun tx conn hconn => ?_, fun tx hended => ?_⟩
  · refine ⟨_, exchanges_transaction_of_started hrun, fun hnone => ?_, fun conn hconn => ?_,
      h.hasEnded_of_started hrun⟩
    · exact (unheard_settle driver hnone _ _ _).exchanges
    · exact (settled_settle driver hconn _ _ _).1.settlement
  · rw [Context.run_finish hconn]
    exact State.hasEnded_endContext hconn
  · have hnone := hended.connection?
    exact ⟨fun st => .query hnone st, .commit hnone, .rollback hnone, .finish hnone,
      fun other => h.hasEnded hended l d, h.hasEnded_transaction hended l d⟩

/-- Work that ends its context and then runs a statement leaves one bracket behind. -/
theorem transaction_brackets_finish :
    Brackets 0 0 ((transaction none (finish fun _ => query (.text "select 1") fun o =>
      done (o.map Output.rows)).task : Task Unit (List Row)).exchanges .granting ()
        { State.initial with pool := .open 0 } ()) :=
  (transaction_brackets _ Driver.granting () { State.initial with pool := .open 0 } ()).1 0 0
    (List.mem_of_getElem? (i := 0) rfl)

/-! ## Outcomes -/

/-- Work that leaves the end of its transaction to the bracket: it makes no commit and no rollback
and does not end the context. -/
def LeavesEnd {α : Type} : Handler α → Prop
  | done _ => True
  | query _ next => ∀ o, (next o).LeavesEnd
  | commit _ => False
  | rollback _ => False
  | finish _ => False
  | isEnded next => ∀ ended, (next ended).LeavesEnd
  | joined inner next => inner.LeavesEnd ∧ ∀ o, (next o).LeavesEnd

/-- Work that leaves the end of its transaction to the bracket only runs statements on the
connection. -/
theorem LeavesEnd.within {α : Type} {h : Handler α} (hleaves : h.LeavesEnd) :
    (h.task tx : Task σ α).Within (Holds tx conn) fun r => ∃ st, r = .query conn st := by
  induction h with
  | done result => exact .ofExcept result
  | query st next ih =>
      exact (Task.Within.attempt (execute_within_of_holds ⟨st, rfl⟩)).bind fun o =>
        ih o (hleaves o)
  | commit next ih => exact hleaves.elim
  | rollback next ih => exact hleaves.elim
  | finish next ih => exact hleaves.elim
  | isEnded next ih => exact .state_bind fun s hs => ih _ (hleaves _)
  | joined inner next ihinner ih =>
      rw [task, transaction_some]
      exact (Task.Within.attempt (ihinner hleaves.1)).bind fun o => ih o (hleaves.2 o)

/-- The outcome of a transaction whose work leaves the end to the bracket: it succeeds exactly if
the commit and the release behind it did.  One that was committed and fails does so with the error
of its release. -/
theorem transaction_outcome {h : Handler α} (hleaves : h.LeavesEnd) (driver : Driver δ) (l : σ)
    (s : State) (d : δ) :
    ((∃ a, ((transaction none h.task).run driver l s d).1.1 = .ok a) ↔
      ∃ conn, ⟨.commit conn, .ok ()⟩ ∈ (transaction none h.task).exchanges driver l s d ∧
        ⟨.release conn, .ok ()⟩ ∈ (transaction none h.task).exchanges driver l s d) ∧
    (∀ conn e, ⟨.commit conn, .ok ()⟩ ∈ (transaction none h.task).exchanges driver l s d →
      ((transaction none h.task).run driver l s d).1.1 = .error e →
        ⟨.release conn, .error e⟩ ∈ (transaction none h.task).exchanges driver l s d) := by
  have hcases := transaction_cases (fun _ _ => hleaves.within) driver l s d
  generalize (transaction none h.task).exchanges driver l s d = trace at hcases ⊢
  generalize ((transaction none h.task).run driver l s d).1.1 = outcome at hcases ⊢
  rcases hcases with ⟨e, rfl, hstart⟩ | ⟨pool, conn, calls, worked, back, rfl, hcalls, hsettled⟩
  · cases hstart with
    | unconnected e => simp
    | unacquired pool e => simp
    | unbegun pool conn e released => simp
  · have hother : ∀ x ∈ calls, (∀ conn, x.request ≠ .commit conn) ∧
        ∀ conn, x.request ≠ .release conn := by
      intro x hx
      obtain ⟨st, hst⟩ := hcalls x hx
      simp [hst]
    have hcommit : ∀ conn answer, ⟨.commit conn, answer⟩ ∉ calls := fun conn answer hx =>
      (hother _ hx).1 conn rfl
    have hrelease : ∀ conn answer, ⟨.release conn, answer⟩ ∉ calls := fun conn answer hx =>
      (hother _ hx).2 conn rfl
    cases hsettled with
    | committed a => simp [hcommit, hrelease]
    | unreleased a e => simp [hcommit, hrelease]
    | undone a e undone released => simp [hcommit, hrelease]
    | failed e undone released => simp [hcommit, hrelease]

/-- A statement in a transaction that gets everything granted succeeds. -/
theorem transaction_outcome_granted :
    (query (.text "select 1") fun o => done (o.map Output.rows)).LeavesEnd ∧
      ∃ rows, ((transaction none (query (.text "select 1") fun o =>
        done (o.map Output.rows)).task : Task Unit (List Row)).run .granting ()
          { State.initial with pool := .open 0 } ()).1.1 = .ok rows := by
  have hleaves : (query (.text "select 1") fun o => done (o.map Output.rows)).LeavesEnd :=
    fun _ => trivial
  exact ⟨hleaves, (transaction_outcome hleaves Driver.granting () _ ()).1.2
    ⟨0, List.mem_of_getElem? (i := 3) rfl, List.mem_of_getElem? (i := 4) rfl⟩⟩

/-- A transaction that does nothing and is committed fails if its connection is not given back. -/
theorem transaction_unreleased :
    (done (.ok ()) : Handler Unit).LeavesEnd ∧
      ((transaction none (done (.ok ())).task : Task Unit Unit).run .unreleasing ()
        { State.initial with pool := .open 0 } ()).1.1 = .error (.connection "lost") ∧
      ⟨.commit 0, .ok ()⟩ ∈ (transaction none (done (.ok ())).task : Task Unit Unit).exchanges
        .unreleasing () { State.initial with pool := .open 0 } () :=
  ⟨trivial, rfl, List.mem_of_getElem? (i := 2) rfl⟩

end Handler

end Transactions

end Persistence
