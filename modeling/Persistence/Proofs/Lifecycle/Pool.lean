import Persistence.Program.Lifecycle
import Persistence.Proofs.Dao.Propagation

/-!
# Tasks and the pool

What the tasks of the library do with the pool while others may change it whenever a request is
waiting for its answer.  A task never restores what it has seen of the pool before a request.  It
closes the pool, or it opens one that was granted to it, in one go with the answer.

Main results:

- `Task.RespectsPool.bind`: a sequence respects the pool if its tasks do.
- `Task.RespectsPool.pending_iff`: when a run leaves the pool pending.
- `Schema.synchronize_respectsPool`, `connect_respectsPool`, `destroy_respectsPool`: the tasks of
  the lifecycle.
-/

namespace Persistence

variable {σ α β δ : Type}

/-- The pool that an answer grants. -/
def Request.created? : (r : Request) → r.Answer → Option Nat
  | .createPool _, .ok n => some n
  | _, _ => none

/-- The pool that was granted in an exchange. -/
def Exchange.created? (x : Exchange) : Option Nat := x.request.created? x.answer

namespace Program

/-- The states that a run writes, in order. -/
def writes (driver : Driver δ) : Program α → State → δ → List State
  | done _, _, _ => []
  | read next, s, d => (next s).writes driver s d
  | write s next, _, d => s :: next.writes driver s d
  | call r next, s, d => (next (driver.answer r d).1).writes driver s (driver.answer r d).2

/-- A program replaces the pool only by a closed one, or by one that was granted to it: `due` is the
pool that has been granted and is opened by the next change, `pool` is the pool before the program.
Behind an answer the pool may be any. -/
def RespectsPool : Program α → (due : Option Nat) → (pool : PoolState) → Prop
  | done _, due, _ => due = none
  | read next, due, pool => ∀ s, s.pool = pool → (next s).RespectsPool due pool
  | write s next, none, pool =>
      (s.pool = pool ∨ s.pool = .closed) ∧ next.RespectsPool none s.pool
  | write s next, some n, _ => s.pool = .open n ∧ next.RespectsPool none s.pool
  | call r next, due, _ =>
      due = none ∧ ∀ answer pool, (next answer).RespectsPool (r.created? answer) pool

theorem RespectsPool.bind {p : Program α} {f : α → Program β} {due : Option Nat} {pool : PoolState}
    (hp : p.RespectsPool due pool) (hf : ∀ a pool, (f a).RespectsPool none pool) :
    (p.bind f).RespectsPool due pool := by
  induction p generalizing due pool with
  | done a =>
      obtain rfl : due = none := hp
      exact hf a pool
  | read next ih => exact fun s hs => ih s (hp s hs)
  | write s next ih =>
      cases due with
      | none => exact ⟨hp.1, ih hp.2⟩
      | some n => exact ⟨hp.1, ih hp.2⟩
  | call r next ih => exact ⟨hp.1, fun answer pool => ih answer (hp.2 answer pool)⟩

/-- A run leaves the pool pending exactly if it was, no pool was granted and none was closed. -/
theorem RespectsPool.pending_iff (driver : Driver δ) {p : Program α} {due : Option Nat} {s : State}
    (h : p.RespectsPool due s.pool) (d : δ) :
    (p.run driver s d).2.1.pool = .pending ↔ due = none ∧ s.pool = .pending ∧
      (∀ x ∈ p.exchanges driver s d, x.created? = none) ∧
      ∀ s' ∈ p.writes driver s d, s'.pool ≠ .closed := by
  induction p generalizing due s d with
  | done a =>
      obtain rfl : due = none := h
      simp [run, exchanges, writes]
  | read next ih => exact ih s (h s rfl) d
  | write s' next ih =>
      cases due with
      | none =>
          have hrest := ih h.2 d
          rw [run, hrest, exchanges, writes]
          rcases h.1 with hpool | hpool
          · rw [List.forall_mem_cons, hpool]
            constructor
            · rintro ⟨-, hpending, hnone, hopen⟩
              exact ⟨rfl, hpending, hnone, by simp [hpending], hopen⟩
            · rintro ⟨-, hpending, hnone, -, hopen⟩
              exact ⟨rfl, hpending, hnone, hopen⟩
          · simp [hpool]
      | some n =>
          -- the pool that is due is opened, and no run makes it pending again
          have hrest := ih h.2 d
          rw [run, hrest, h.1]
          simp
  | call r next ih =>
      obtain ⟨rfl, hnext⟩ := h
      have hrest := ih (driver.answer r d).1 (hnext _ s.pool) (driver.answer r d).2
      show ((next (driver.answer r d).1).run driver s (driver.answer r d).2).2.1.pool = _ ↔ _
      rw [hrest, exchanges, writes, List.forall_mem_cons]
      constructor
      · rintro ⟨hgranted, hpending, hnone, hopen⟩
        exact ⟨rfl, hpending, ⟨hgranted, hnone⟩, hopen⟩
      · rintro ⟨-, hpending, ⟨hgranted, hnone⟩, hopen⟩
        exact ⟨hgranted, hpending, hnone, hopen⟩

end Program

/-! ## Ways of building tasks -/

namespace Task

/-- The states that a run writes, in order. -/
def writes (driver : Driver δ) (t : Task σ α) (l : σ) (s : State) (d : δ) : List State :=
  (t l).writes driver s d

/-- A task replaces the pool only by a closed one, or by one that was granted to it. -/
def RespectsPool (t : Task σ α) : Prop := ∀ l pool, (t l).RespectsPool none pool

namespace RespectsPool

/-- A run leaves the pool pending exactly if it was, no pool was granted and none was closed. -/
theorem pending_iff {t : Task σ α} (h : t.RespectsPool) (driver : Driver δ) (l : σ) (s : State)
    (d : δ) :
    (t.run driver l s d).2.1.pool = .pending ↔ s.pool = .pending ∧
      (∀ x ∈ t.exchanges driver l s d, x.created? = none) ∧
      ∀ s' ∈ t.writes driver l s d, s'.pool ≠ .closed :=
  ((h l s.pool).pending_iff driver d).trans (and_iff_right rfl)

theorem pure (a : α) : (Pure.pure a : Task σ α).RespectsPool := fun _ _ => rfl

theorem fail (e : DbError) : (Task.fail e : Task σ α).RespectsPool := fun _ _ => rfl

theorem ofExcept (x : Except DbError α) : (Task.ofExcept x : Task σ α).RespectsPool := by
  cases x with
  | error e => exact fail e
  | ok a => exact pure a

/-- A request for anything but a pool respects the pool. -/
theorem ask {r : Request} (hr : ∀ answer, r.created? answer = none) :
    (Task.ask r : Task σ r.Answer).RespectsPool :=
  fun _ _ => ⟨rfl, fun answer _ => hr answer⟩

/-- A change of the state respects the pool if it keeps the pool or closes it. -/
theorem modify {f : State → State} (hf : ∀ s, (f s).pool = s.pool ∨ (f s).pool = .closed) :
    (Task.modify f : Task σ Unit).RespectsPool := by
  rintro l pool s rfl
  exact ⟨hf s, rfl⟩

theorem bind {t : Task σ α} {f : α → Task σ β} (ht : t.RespectsPool)
    (hf : ∀ a, (f a).RespectsPool) : (t >>= f).RespectsPool := by
  intro l pool
  refine (ht l pool).bind ?_
  rintro ⟨_ | a, l'⟩ pool'
  · rfl
  · exact hf a l' pool'

theorem state_bind {f : State → Task σ β} (hf : ∀ s, (f s).RespectsPool) :
    (Task.state >>= f).RespectsPool :=
  fun l pool s _ => hf s l pool

theorem attempt {t : Task σ α} (ht : t.RespectsPool) : (Task.attempt t).RespectsPool :=
  fun l pool => (ht l pool).bind fun _ _ => rfl

end RespectsPool

end Task

/-! ## Statements and transactions -/

namespace Context

/-- A request over the connection of a context respects the pool. -/
theorem connection_bind_respectsPool (c : Context) {f : Nat → Task σ β}
    (hf : ∀ conn, (f conn).RespectsPool) : (c.connection >>= f).RespectsPool := by
  refine Task.RespectsPool.bind (.state_bind fun s => ?_) hf
  split
  · exact .pure _
  · exact .fail _

theorem finish_respectsPool (c : Context) : (c.finish : Task σ Unit).RespectsPool := by
  refine c.connection_bind_respectsPool fun conn => ?_
  refine (Task.RespectsPool.modify fun s => .inl rfl).bind fun _ => ?_
  exact (Task.RespectsPool.ask fun _ => rfl).bind fun _ => .ofExcept _

theorem commit_respectsPool (c : Context) : (c.commit : Task σ Unit).RespectsPool :=
  c.connection_bind_respectsPool fun _ =>
    (Task.RespectsPool.ask fun _ => rfl).bind fun _ => .ofExcept _

theorem rollback_respectsPool (c : Context) : (c.rollback : Task σ Unit).RespectsPool :=
  c.connection_bind_respectsPool fun _ =>
    (Task.RespectsPool.ask fun _ => rfl).bind fun _ => .ofExcept _

end Context

/-- What follows a look at the pool respects it. -/
theorem Task.pool_bind_respectsPool {f : Nat → Task σ β} (hf : ∀ pool, (f pool).RespectsPool) :
    (Task.pool >>= f).RespectsPool := by
  refine Task.RespectsPool.bind (.state_bind fun s => ?_) hf
  split
  · exact .fail _
  · exact .pure _
  · exact .fail _

theorem execute_respectsPool (st : Statement) (ctx : Option Context) :
    (execute st ctx : Task σ Output).RespectsPool := by
  cases ctx with
  | some tx =>
      exact tx.connection_bind_respectsPool fun _ =>
        (Task.RespectsPool.ask fun _ => rfl).bind fun _ => .ofExcept _
  | none =>
      exact Task.pool_bind_respectsPool fun _ =>
        (Task.RespectsPool.ask fun _ => rfl).bind fun _ => .ofExcept _

theorem startTransaction_respectsPool : (startTransaction : Task σ Context).RespectsPool := by
  refine Task.pool_bind_respectsPool fun pool => ?_
  refine (Task.RespectsPool.ask fun _ => rfl).bind fun acquired => ?_
  refine (Task.RespectsPool.ofExcept acquired).bind fun conn => ?_
  refine (Task.RespectsPool.ask fun _ => rfl).bind fun begun => ?_
  cases begun with
  | error e => exact (Task.RespectsPool.ask fun _ => rfl).bind fun _ => .fail e
  | ok =>
      refine .state_bind fun s => ?_
      exact (Task.RespectsPool.modify fun s => .inl rfl).bind fun _ => .pure _

theorem settle_respectsPool (c : Context) (worked : Except DbError α) :
    (settle c worked : Task σ α).RespectsPool := by
  have hend : ∀ result : Except DbError α, (finishWith c result : Task σ α).RespectsPool :=
    fun _ => (Task.RespectsPool.attempt c.finish_respectsPool).bind fun _ => .ofExcept _
  have hundo : ∀ e, (settle c (.error e) : Task σ α).RespectsPool := fun e =>
    (Task.RespectsPool.attempt c.rollback_respectsPool).bind fun _ => hend (.error e)
  cases worked with
  | error e => exact hundo e
  | ok a =>
      rw [settle_ok]
      refine (Task.RespectsPool.attempt c.commit_respectsPool).bind fun committed => ?_
      cases committed with
      | error e => exact hundo e
      | ok => exact hend (.ok a)

/-- A transaction respects the pool if its work does. -/
theorem transaction_respectsPool {parent : Option Context} {work : Context → Task σ α}
    (hwork : ∀ c, (work c).RespectsPool) : (transaction parent work).RespectsPool := by
  cases parent with
  | some c =>
      rw [transaction_some]
      exact hwork c
  | none =>
      exact startTransaction_respectsPool.bind fun c =>
        (Task.RespectsPool.attempt (hwork c)).bind fun worked => settle_respectsPool c worked

/-! ## The synchronizer -/

namespace Schema

variable {ctx : Option Context}

theorem dropAll_respectsPool (names : List String) :
    (dropAll ctx names : Task σ Unit).RespectsPool := by
  induction names with
  | nil => exact .pure _
  | cons name names ih => exact (execute_respectsPool _ _).bind fun _ => ih

theorem createAll_respectsPool (tables : List Table) :
    (createAll ctx tables : Task σ Unit).RespectsPool := by
  induction tables with
  | nil => exact .pure _
  | cons t tables ih =>
      have hcreate : (create t ctx : Task σ Output).RespectsPool :=
        (Task.RespectsPool.ask fun _ => rfl).bind fun _ => execute_respectsPool _ _
      exact hcreate.bind fun _ => ih

theorem updateAll_respectsPool (tables : List Table) :
    (updateAll ctx tables : Task σ Unit).RespectsPool := by
  induction tables with
  | nil => exact .pure _
  | cons t tables ih =>
      have hdescribe : (describe t.name ctx : Task σ LiveTable).RespectsPool :=
        (execute_respectsPool _ _).bind fun _ => (execute_respectsPool _ _).bind fun _ =>
          (execute_respectsPool _ _).bind fun _ => .pure _
      have hupdate : (update t ctx : Task σ Output).RespectsPool :=
        hdescribe.bind fun _ => (Task.RespectsPool.ask fun _ => rfl).bind fun _ =>
          execute_respectsPool _ _
      exact hupdate.bind fun _ => ih

/-- A synchronization respects the pool. -/
theorem synchronize_respectsPool : (synchronize ctx : Task σ SyncReport).RespectsPool := by
  rw [synchronize_eq]
  refine transaction_respectsPool fun tx => ?_
  have hconfig : (syncConfig : Task σ SyncConfig).RespectsPool := .state_bind fun _ => .pure _
  have hlive : (tableNames (some tx) : Task σ (List String)).RespectsPool :=
    (execute_respectsPool _ _).bind fun _ => .pure _
  have hcarry : ∀ p, (carryOut p (some tx) : Task σ SyncReport).RespectsPool := fun p =>
    (dropAll_respectsPool _).bind fun _ => (createAll_respectsPool _).bind fun _ =>
      (updateAll_respectsPool _).bind fun _ => .pure _
  exact hconfig.bind fun _ => hlive.bind fun _ => .state_bind fun _ => hcarry _

end Schema

/-! ## The calls of the lifecycle -/

section Calls

variable {actions : HookActions σ} (hactions : ∀ id, (actions id).RespectsPool)

include hactions

theorem HookBody.run_respectsPool (body : HookBody) : (body.run actions).RespectsPool := by
  cases body with
  | synchronize =>
      have hconfig : (Schema.syncConfig : Task σ SyncConfig).RespectsPool :=
        .state_bind fun _ => .pure _
      refine hconfig.bind fun config => ?_
      split
      · exact Schema.synchronize_respectsPool.bind fun _ => .pure _
      · exact .pure _
  | custom id =>
      have hconnected : (isConnected : Task σ Bool).RespectsPool := .state_bind fun _ => .pure _
      exact hconnected.bind fun connected => (Task.RespectsPool.ask fun _ => rfl).bind fun answer =>
        (Task.RespectsPool.ofExcept answer).bind fun _ => hactions id

theorem runHooks_respectsPool (hooks : List Hook) : (runHooks actions hooks).RespectsPool := by
  induction hooks with
  | nil => exact .pure _
  | cons h hooks ih => exact (HookBody.run_respectsPool hactions h.body).bind fun _ => ih

theorem runHooksAt_respectsPool (position : HookPosition) :
    (runHooksAt actions position).RespectsPool :=
  .state_bind fun _ => runHooks_respectsPool hactions _

/-- A connect respects the pool, though it looks at it long before it opens its own. -/
theorem connect_respectsPool (options : ConnectOptions) :
    (connect actions options).RespectsPool := by
  have hpending : (requirePending : Task σ Unit).RespectsPool := by
    refine .state_bind fun s => ?_
    split
    · exact .pure _
    · exact .fail _
    · exact .fail _
  refine hpending.bind fun _ => ?_
  refine (Task.RespectsPool.modify fun s => .inl rfl).bind fun _ => ?_
  refine (runHooksAt_respectsPool hactions .before).bind fun _ => ?_
  rintro l pool
  refine ⟨rfl, fun answer pool => ?_⟩
  cases answer with
  | error e => rfl
  | ok n =>
      rintro s -
      exact ⟨rfl, runHooksAt_respectsPool hactions .after l (.open n)⟩

end Calls

/-- A destroy respects the pool. -/
theorem destroy_respectsPool : (destroy : Task σ Unit).RespectsPool := by
  refine .state_bind fun s => ?_
  refine (Task.RespectsPool.modify fun s => .inr rfl).bind fun _ => ?_
  split
  · exact (Task.RespectsPool.ask fun _ => rfl).bind fun _ => .ofExcept _
  · exact .pure _
  · exact .pure _

/-! ## A hook before the pool -/

/-- The options of a connect with the synchronizer off. -/
def ConnectOptions.shop : ConnectOptions := .of (.url "mysql://localhost/shop")

/-- The state before anything happened, with a hook from outside before the pool. -/
def State.hooked : State :=
  { State.initial with hooks := [⟨.after, 0, .synchronize⟩, ⟨.before, 0, .custom 0⟩] }

end Persistence
