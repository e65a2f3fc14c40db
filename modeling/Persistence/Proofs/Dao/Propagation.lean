import Persistence.Proofs.Dao.Calls
import Persistence.Proofs.Program.Handling
import Persistence.Schema.Sync

/-!
# How operations pass on their context

An operation that is given a context does all of its work on the connection of that context: the
reads that follow relations, the deletes of dependents and the statements of the synchronizer get
the context of the operation that they are part of.  None of them takes a connection of the pool,
and none of them ends the transaction of the context, except that a delete which is not forced may
roll it back.  Where the context has ended, nothing is sent.

A delete or a synchronization without a context has one of its own around all of its work.

Main results:

- `Operation.within_of_holds`: what an operation asks in a context.
- `Operation.shutOut`: an operation in a context that has ended.
- `Operation.passes_context`: both, with the operations that have a transaction of their own.
-/

namespace Persistence

variable {σ α β δ : Type} {I : State → Prop} {P : Request → Prop}

/-! ## Operations -/

/-- An operation: a call of a data access object, a select that follows relations to any depth, or
the synchronizer. -/
inductive Operation : Type → Type 1
  | call {α : Type} (d : Dao) (c : DaoCall α) : Operation α
  | select (depth : Nat) (s : Select) (args : List Param) : Operation Selection
  | synchronize : Operation SyncReport

/-- Whether a call is a delete without force. -/
def DaoCall.isUnforced : DaoCall α → Bool
  | deleteByKey _ force => !force
  | deleteQuery _ force => !force
  | deleteWhere _ force => !force
  | _ => false

/-- Whether a call is a delete. -/
def DaoCall.isDelete : DaoCall α → Bool
  | deleteByKey _ _ => true
  | deleteQuery _ _ => true
  | deleteWhere _ _ => true
  | _ => false

namespace Operation

/-- The task of an operation; `levels` limits the cascade of a delete. -/
def task (levels : Nat) (ctx : Option Context) : Operation α → Task σ α
  | call d c => c.task d levels ctx
  | select depth s args => s.run ctx depth args
  | synchronize => Schema.synchronize ctx

/-- Whether an operation is a delete without force. -/
def isUnforced : Operation α → Bool
  | call _ c => c.isUnforced
  | _ => false

/-- Whether an operation has a transaction around all of its work. -/
def isBracketed : Operation α → Bool
  | call _ c => c.isDelete
  | select _ _ _ => false
  | synchronize => true

end Operation

namespace Plan

/-- Whether a plan is a delete without force. -/
def isUnforced : Plan α → Bool
  | delete _ force _ => !force
  | _ => false

theorem of_isUnforced_given {x : Except DbError β} {plan : β → Plan α} {C : Prop}
    (hplan : ∀ b, (plan b).isUnforced = true → C) (h : (given x plan).isUnforced = true) : C := by
  cases x with
  | error e => cases h
  | ok b => exact hplan b h

theorem of_isUnforced_insert {i : Insert} {entities : List Json} {C : Prop}
    (h : (insert i entities).isUnforced = true) : C := by
  rw [insert] at h
  split at h
  · cases h
  · exact of_isUnforced_given (fun _ hb => by cases hb) h

theorem of_isUnforced_update {u : Update} {entity : Json} {args : List Param} {C : Prop}
    (h : (update u entity args).isUnforced = true) : C :=
  of_isUnforced_given (fun _ hb => by cases hb) h

end Plan

/-- A plan is a delete without force only if its call is one. -/
theorem DaoCall.isUnforced_of_plan {d : Dao} {c : DaoCall α} (h : (c.plan d).isUnforced = true) :
    c.isUnforced = true := by
  cases c with
  | count | list | page p | findByColumn column v | listByColumn column v => cases h
  | countWhere f | listWhere f | pageWhere f p | findByKey key | findWhere f =>
      exact Plan.of_isUnforced_given (fun _ hb => by cases hb) h
  | save entity | saveAll entities | saveOrUpdate entity | saveOrUpdateAll entities =>
      exact Plan.of_isUnforced_given (fun _ => Plan.of_isUnforced_insert) h
  | updateByKey entity | updateWhere entity f =>
      exact Plan.of_isUnforced_given (fun _ => Plan.of_isUnforced_given fun _ =>
        Plan.of_isUnforced_update) h
  | updatePartByKey part object | updatePartWhere part object f =>
      exact Plan.of_isUnforced_given (fun _ => Plan.of_isUnforced_update) h
  | deleteByKey key force | deleteWhere f force => exact Plan.of_isUnforced_given (fun _ => id) h
  | deleteQuery q force => exact h

/-! ## In a context -/

/-- A request that no driver sees. -/
inductive Request.IsLocal : Request → Prop
  | produce (producer : String) : IsLocal (.produce producer)
  | constraintNames : IsLocal .constraintNames

/-- A request of an operation in a context with a connection: a statement on the connection, or the
rollback of a delete without force. -/
inductive InContext (conn : Nat) (unforced : Bool) : Request → Prop
  | query (st : Statement) : InContext conn unforced (.query conn st)
  | rollback : unforced = true → InContext conn unforced (.rollback conn)
  | unseen {r : Request} : r.IsLocal → InContext conn unforced r

namespace Schema

/-- The work of a synchronization. -/
def reconcile (tx : Context) : Task σ SyncReport := do
  let config ← syncConfig
  let live ← tableNames (some tx)
  let declared := (← Task.state).catalog.allTables
  carryOut (SyncPlan.make config live declared) (some tx)

theorem synchronize_eq (ctx : Option Context) :
    (synchronize ctx : Task σ SyncReport) = transaction ctx reconcile := rfl

section Within

variable {ctx : Option Context} (hnames : P .constraintNames)
  (hexecute : ∀ st, (execute st ctx : Task σ Output).Within I P)

include hexecute in
theorem dropAll_within (names : List String) : (dropAll ctx names : Task σ Unit).Within I P := by
  induction names with
  | nil => exact .pure _
  | cons name names ih => exact (hexecute _).bind fun _ => ih

include hnames hexecute

theorem createAll_within (tables : List Table) :
    (createAll ctx tables : Task σ Unit).Within I P := by
  induction tables with
  | nil => exact .pure _
  | cons t tables ih =>
      have hcreate : (create t ctx : Task σ Output).Within I P :=
        (Task.Within.ask hnames).bind fun _ => hexecute _
      exact hcreate.bind fun _ => ih

/-- An update of a table asks for what the table is like, for names and for the changes. -/
theorem update_within (t : Table) : (update t ctx : Task σ Output).Within I P := by
  have hdescribe : (describe t.name ctx : Task σ LiveTable).Within I P :=
    (hexecute _).bind fun _ => (hexecute _).bind fun _ => (hexecute _).bind fun _ => .pure _
  exact hdescribe.bind fun _ => (Task.Within.ask hnames).bind fun _ => hexecute _

theorem updateAll_within (tables : List Table) :
    (updateAll ctx tables : Task σ Unit).Within I P := by
  induction tables with
  | nil => exact .pure _
  | cons t tables ih => exact (update_within hnames hexecute t).bind fun _ => ih

theorem carryOut_within (p : SyncPlan) : (carryOut p ctx : Task σ SyncReport).Within I P :=
  (dropAll_within hexecute _).bind fun _ => (createAll_within hnames hexecute _).bind fun _ =>
    (updateAll_within hnames hexecute _).bind fun _ => .pure _

end Within

/-- A synchronization asks for statements and for the names of constraints. -/
theorem reconcile_within {tx : Context} (hnames : P .constraintNames)
    (hexecute : ∀ st, (execute st (some tx) : Task σ Output).Within I P) :
    (reconcile tx : Task σ SyncReport).Within I P := by
  have hlive : (tableNames (some tx) : Task σ (List String)).Within I P :=
    (hexecute _).bind fun _ => .pure _
  have hconfig : (syncConfig : Task σ SyncConfig).Within I P := .state_bind fun _ _ => .pure _
  exact hconfig.bind fun _ => hlive.bind fun _ => .state_bind fun _ _ =>
    carryOut_within hnames hexecute _

end Schema

/-- A cascade stays on the connection of its context. -/
theorem DeleteOperation.cascade_within_of_holds {tx : Context} {conn : Nat} {force unforced : Bool}
    (levels : Nat) (delete : DeleteOperation) (q : Query)
    (hforce : force = false → unforced = true) :
    (delete.cascade levels q force (some tx)).Within (Holds tx conn) (InContext conn unforced) :=
  cascade_some_within (fun _ => .unseen (.produce _))
    (fun h => Context.rollback_within_of_holds (.rollback (hforce h)))
    (fun st => execute_within_of_holds (.query st)) levels delete q

/-- An operation in a context stays on the connection of the context. -/
theorem Operation.within_of_holds {tx : Context} {conn : Nat} (levels : Nat) (op : Operation α) :
    (op.task levels (some tx) : Task σ α).Within (Holds tx conn)
      (InContext conn op.isUnforced) := by
  have hselect : ∀ (unforced : Bool) (depth : Nat) (s : Select) (args : List Param),
      (s.run (some tx) depth args : Task σ Selection).Within (Holds tx conn)
        (InContext conn unforced) := fun unforced depth s args =>
    Select.run_within (Q := fun _ _ => True) (fun _ _ _ => execute_within_of_holds (.query _))
      (fun _ _ _ _ _ _ _ _ _ _ _ => trivial) depth trivial
  cases op with
  | call d c =>
      rw [task, DaoCall.task_eq]
      cases hplan : c.plan d with
      | settled result => exact .ofExcept result
      | read s args finish => exact (hselect _ _ s args).bind fun _ => .ofExcept _
      | write sql finish => exact (execute_within_of_holds (.query _)).bind fun _ => .pure _
      | delete q force finish =>
          have hcascade : ((DeleteOperation.dao d).cascade levels q force (some tx)).Within
              (Holds tx conn) (InContext conn c.isUnforced) :=
            DeleteOperation.cascade_within_of_holds levels _ q fun hforce =>
              DaoCall.isUnforced_of_plan (by rw [hplan, Plan.isUnforced, hforce]; rfl)
          exact (Task.Within.withLocal hcascade).bind fun _ => .pure _
  | select depth s args => exact hselect _ depth s args
  | synchronize =>
      rw [task, Schema.synchronize_eq, transaction_some]
      exact Schema.reconcile_within (.unseen .constraintNames)
        fun st => execute_within_of_holds (.query st)

/-! ## In a context that has ended -/

/-- A task that gets nowhere once a context has ended: no driver sees a request of it, and it fails
because the context is closed. -/
def ShutOut (tx : Context) (t : Task σ α) : Prop :=
  t.Ensures (fun s => s.connection? tx = none) fun trace result =>
    (∀ x ∈ trace, x.request.IsLocal) ∧ result = .error .contextClosed

namespace ShutOut

variable {tx : Context}

/-- Nothing follows a task that gets nowhere. -/
theorem bind {t : Task σ α} (h : ShutOut tx t) (f : α → Task σ β) : ShutOut tx (t >>= f) := by
  apply Task.Ensures.bind
  apply h.mono
  rintro trace result ⟨htrace, rfl⟩
  exact ⟨htrace, rfl⟩

/-- What is done without the driver gets no further than what follows it. -/
theorem of_local {t : Task σ α} {f : α → Task σ β}
    (ht : t.Ensures (fun s => s.connection? tx = none) fun trace result =>
      (∀ x ∈ trace, x.request.IsLocal) ∧ ∃ a, result = .ok a)
    (hf : ∀ a, ShutOut tx (f a)) : ShutOut tx (t >>= f) := by
  apply Task.Ensures.bind
  apply ht.mono
  rintro trace result ⟨htrace, a, rfl⟩
  apply (hf a).mono
  rintro more result ⟨hmore, rfl⟩
  exact ⟨List.forall_mem_append.2 ⟨htrace, hmore⟩, rfl⟩

theorem execute (st : Statement) : ShutOut tx (execute st (some tx) : Task σ Output) := by
  show ShutOut tx ((Task.state >>= fun s => _) >>= _ : Task σ Output)
  rw [bind_assoc]
  refine .state_bind fun s hs => ?_
  rw [hs]
  exact .fail ⟨by simp, rfl⟩

theorem select (depth : Nat) (s : Select) (args : List Param) :
    ShutOut tx (s.run (some tx) depth args : Task σ Selection) := by
  cases depth <;> exact (execute _).bind _

/-- A delete gets nowhere, whatever depends on its rows. -/
theorem deleteLevel (dao : Dao) (step : CascadeStep) (q : Query) (force : Bool) :
    ShutOut tx (dao.deleteLevel step q force tx) := by
  have hrows : ∀ relations, ShutOut tx (dao.deleteRows q force relations tx) := by
    intro relations
    refine of_local ?_ fun st => (execute st).bind _
    apply (dao.deleteStatement_ensures q).mono
    rintro trace result ⟨htrace, st, rfl, -⟩
    refine ⟨fun x hx => ?_, st, rfl⟩
    obtain ⟨producer, v, rfl⟩ := htrace x hx
    exact .produce producer
  rw [Dao.deleteLevel]
  refine .state_bind fun s hs => ?_
  dsimp only
  split
  · exact hrows []
  · exact (execute _).bind _

theorem reconcile : ShutOut tx (Schema.reconcile tx : Task σ SyncReport) :=
  .state_bind fun _ _ => ((execute _).bind _).bind _

end ShutOut

/-- An operation in a context that has ended gets nowhere, unless its outcome is settled by its
arguments, whatever the context is. -/
theorem Operation.shutOut {tx : Context} (levels : Nat) (op : Operation α) :
    ShutOut tx (op.task (levels + 1) (some tx) : Task σ α) ∨
      ∃ result, ∀ ctx, (op.task (levels + 1) ctx : Task σ α) = Task.ofExcept result := by
  cases op with
  | call d c =>
      simp only [task, DaoCall.task_eq]
      cases hplan : c.plan d with
      | settled result => exact .inr ⟨result, fun ctx => rfl⟩
      | read s args finish => exact .inl ((ShutOut.select _ s args).bind _)
      | write sql finish => exact .inl ((ShutOut.execute _).bind _)
      | delete q force finish =>
          have hcascade : ShutOut tx
              ((DeleteOperation.dao d).cascade (levels + 1) q force (some tx)) := by
            rw [DeleteOperation.cascade, transaction_some]
            exact .deleteLevel d _ q force
          exact .inl (ShutOut.bind (Task.Ensures.withLocal hcascade) _)
  | select depth s args => exact .inl (.select depth s args)
  | synchronize =>
      rw [task, Schema.synchronize_eq, transaction_some]
      exact .inl .reconcile

/-! ## Without a context -/

/-- The requests of work in a transaction of its own: either there is no statement, or a transaction
starts on a connection of the pool, the work stays on that connection, and the transaction is
settled. -/
inductive Alone (unforced : Bool) : List Exchange → Prop
  | silent {trace : List Exchange} (h : ∀ x ∈ trace, x.request.statement? = none) :
      Alone unforced trace
  | bracketed {pool conn : Nat} {calls back : List Exchange} {worked : Bool}
      (hcalls : ∀ x ∈ calls, InContext conn unforced x.request)
      (hback : Settlement conn worked back) :
      Alone unforced (⟨.acquire pool, .ok conn⟩ :: ⟨.begin conn, .ok ()⟩ :: (calls ++ back))

/-- A bracket around work that stays on its connection. -/
theorem alone_transaction {work : Context → Task σ α} {unforced : Bool}
    (hwork : ∀ tx conn, (work tx).Within (Holds tx conn) (InContext conn unforced))
    (driver : Driver δ) (l : σ) (s : State) (d : δ) :
    Alone unforced ((transaction none work).exchanges driver l s d) := by
  have hcases := transaction_cases hwork driver l s d
  generalize (transaction none work).exchanges driver l s d = trace at hcases ⊢
  rcases hcases with
    ⟨e, -, hstart⟩ | ⟨pool, conn, calls, worked, back, rfl, hcalls, hsettled⟩
  · cases hstart with
    | unconnected e => exact .silent (by simp)
    | unacquired pool e => exact .silent (by simp [Request.statement?])
    | unbegun pool conn e released => exact .silent (by simp [Request.statement?])
  · exact .bracketed hcalls hsettled.settlement

/-- The outcome of a delete is settled by its arguments, or it is planned as a delete. -/
theorem DaoCall.plan_of_isDelete {c : DaoCall α} (hc : c.isDelete = true) (d : Dao) :
    (∃ result, c.plan d = .settled result) ∨
      ∃ q force finish, c.plan d = .delete q force finish := by
  cases c with
  | deleteQuery q force => exact .inr ⟨q, force, id, rfl⟩
  | deleteByKey key force =>
      rw [plan]
      cases d.requireKey with
      | error e => exact .inl ⟨_, rfl⟩
      | ok column => exact .inr ⟨_, force, id, rfl⟩
  | deleteWhere f force =>
      rw [plan]
      cases f.toQuery with
      | error e => exact .inl ⟨_, rfl⟩
      | ok q => exact .inr ⟨q, force, id, rfl⟩
  | _ => cases hc

/-- A delete without a context is alone in a transaction of its own. -/
theorem Dao.alone_deleteQuery {force unforced : Bool} (d : Dao) (levels : Nat) (q : Query)
    (hforce : force = false → unforced = true) (driver : Driver δ) (l : σ) (s : State) (t : δ) :
    Alone unforced
      ((d.deleteQuery (levels + 1) q force none : Task σ DeleteResult).exchanges driver l s t) := by
  rw [deleteQuery, Task.exchanges_withLocal, DeleteOperation.cascade]
  refine alone_transaction (fun tx conn => ?_) driver [] s t
  have hcascade : ((DeleteOperation.dao d).cascade (levels + 1) q force (some tx)).Within
      (Holds tx conn) (InContext conn unforced) :=
    DeleteOperation.cascade_within_of_holds _ _ q hforce
  rwa [DeleteOperation.cascade, transaction_some] at hcascade

/-- An operation that has a transaction around its work does all of it in that transaction. -/
theorem Operation.alone {op : Operation α} (hop : op.isBracketed = true) (levels : Nat)
    (driver : Driver δ) (l : σ) (s : State) (d : δ) :
    Alone op.isUnforced ((op.task (levels + 1) none : Task σ α).exchanges driver l s d) := by
  cases op with
  | call dao c =>
      rw [task, DaoCall.task_eq]
      rcases DaoCall.plan_of_isDelete hop dao with ⟨result, hplan⟩ | ⟨q, force, finish, hplan⟩
      · rw [hplan, Plan.task, Task.exchanges_ofExcept]
        exact .silent (by simp)
      · rw [hplan, Plan.task, Task.exchanges_bind_pure]
        exact dao.alone_deleteQuery levels q (fun hforce =>
          DaoCall.isUnforced_of_plan (by rw [hplan, Plan.isUnforced, hforce]; rfl)) driver l s d
  | select depth s args => cases hop
  | synchronize =>
      rw [task, Schema.synchronize_eq]
      exact alone_transaction (fun tx conn => Schema.reconcile_within (.unseen .constraintNames)
        fun st => execute_within_of_holds (.query st)) driver l s d

/-- Operations pass on their context.  In a context with a connection, an operation sends statements
over the connection and, if it is a delete without force, a rollback; no driver sees another request
of it.  In a context that has ended, no driver sees any, and the operation fails because the context
is closed, unless its outcome is settled by its arguments.  Deletes and synchronizations without a
context have a transaction of their own around all that they send. -/
theorem Operation.passes_context (op : Operation α) (levels : Nat) (driver : Driver δ) (l : σ)
    (s : State) (d : δ) :
    (∀ tx conn, s.connection? tx = some conn →
      ∀ x ∈ (op.task (levels + 1) (some tx)).exchanges driver l s d,
        InContext conn op.isUnforced x.request) ∧
    (∀ tx, s.connection? tx = none →
      (∀ x ∈ (op.task (levels + 1) (some tx)).exchanges driver l s d, x.request.IsLocal) ∧
        (((op.task (levels + 1) (some tx)).run driver l s d).1.1 = .error .contextClosed ∨
          ∃ result, ∀ ctx, (op.task (levels + 1) ctx : Task σ α) = Task.ofExcept result)) ∧
    (op.isBracketed = true →
      Alone op.isUnforced ((op.task (levels + 1) none).exchanges driver l s d)) := by
  refine ⟨fun tx conn hconn => ?_, fun tx hended => ?_, fun hop => alone hop levels driver l s d⟩
  · exact ((op.within_of_holds (levels + 1)).exchanges driver hconn l d).1
  · rcases op.shutOut levels with hshut | ⟨result, hresult⟩
    · obtain ⟨⟨hlocal, hclosed⟩, -⟩ := (hshut l).exchanges driver hended d
      exact ⟨hlocal, .inl hclosed⟩
    · refine ⟨?_, .inr ⟨result, hresult⟩⟩
      rw [hresult, Task.exchanges_ofExcept]
      simp

/-- A synchronization in a context that has ended is refused, though the pool is open. -/
theorem Operation.passes_context_ended :
    (∀ x ∈ (synchronize.task 1 (some ⟨0⟩) : Task Unit SyncReport).exchanges .granting ()
        { State.initial with pool := .open 0, contexts := [none] } (), x.request.IsLocal) ∧
      ((synchronize.task 1 (some ⟨0⟩) : Task Unit SyncReport).run .granting ()
        { State.initial with pool := .open 0, contexts := [none] } ()).1.1 =
          .error .contextClosed :=
  ⟨((synchronize.passes_context 0 Driver.granting () _ ()).2.1 ⟨0⟩ rfl).1, rfl⟩

end Persistence
