import Persistence.Proofs.Program.Routes
import Persistence.Proofs.Schema.Creates

/-!
# Reconciliation of the live and the declared tables

The synchronizer reads the names of the live tables and carries out the difference to the declared
ones: it drops, creates and alters tables in this order, and stops at the first failure.  What a
statement does is read off its text.

Main results:

- `Schema.synchronized`: every run of a synchronization is one of a few.
- `Schema.synchronize_reconciles`: what a synchronization changes and reports, for every driver.
-/

namespace Persistence

variable {σ δ : Type}

/-! ## Runs -/

/-- The names in a list of tables. -/
def Output.tableNames (output : Output) : List String :=
  (output.rows.filterMap fun row => row.head?).filterMap fun (_, name) => name.str?

/-- How a synchronization goes in its transaction: the list of tables is refused, or the plan for
the tables that it names is carried out. -/
inductive Reconciled (s : State) (conn : Nat) : List Exchange → Except DbError SyncReport → Prop
  | unlisted (e : DbError) : Reconciled s conn [⟨.query conn .tableNames, .error e⟩] (.error e)
  | listed (output : Output) {trace : List Exchange} {result : Except DbError SyncReport}
      (h : Performed conn (s.syncPlan output.tableNames).changes
        (fun report => report = (s.syncPlan output.tableNames).report) trace result) :
      Reconciled s conn (⟨.query conn .tableNames, .ok output⟩ :: trace) result

/-- A new context has no part in the plan. -/
theorem Reconciled.of_addContext {s : State} {conn : Nat} {trace : List Exchange}
    {result : Except DbError SyncReport} (h : Reconciled (s.addContext conn) conn trace result) :
    Reconciled s conn trace result := by
  cases h with
  | unlisted e => exact .unlisted e
  | listed output h => exact .listed output h

/-- How a synchronization goes in a context or without one: no driver sees a request of it because
the context has ended, its own transaction does not start, it joins the one of the context, or it is
bracketed by its own. -/
inductive Synchronized (s : State) :
    Option Context → List Exchange → Except DbError SyncReport → Prop
  | refused {tx : Context} {trace : List Exchange} (hended : s.connection? tx = none)
      (h : ∀ x ∈ trace, x.request.IsLocal) :
      Synchronized s (some tx) trace (.error .contextClosed)
  | unstarted {trace : List Exchange} {e : DbError} (h : Start s trace (.error e) s)
      (hasked : ∀ pool, s.pool = .open pool → trace ≠ []) : Synchronized s none trace (.error e)
  | joined {tx : Context} {conn : Nat} {trace : List Exchange} {result : Except DbError SyncReport}
      (h : Reconciled s conn trace result) : Synchronized s (some tx) trace result
  | bracketed {pool conn : Nat} {calls back : List Exchange}
      {worked result : Except DbError SyncReport} (h : Reconciled s conn calls worked)
      (hend : Settled conn worked result back) :
      Synchronized s none (⟨.acquire pool, .ok conn⟩ :: ⟨.begin conn, .ok ()⟩ :: (calls ++ back))
        result

/-- The start of a transaction asks for a connection when the pool is open. -/
theorem exchanges_startTransaction_ne_nil (driver : Driver δ) (l : σ) (s : State) (d : δ)
    (pool : Nat) (h : s.pool = .open pool) :
    (startTransaction : Task σ Context).exchanges driver l s d ≠ [] := by
  have hpool : (Task.pool : Task σ Nat).run driver l s d = ((.ok pool, l), s, d) := by
    rw [Task.pool, Task.run_bind_of_ok Task.run_state, h]
    rfl
  rw [startTransaction, Task.exchanges_bind_of_ok hpool,
    Task.exchanges_bind_of_ok (Task.run_ask _), Task.exchanges_ask]
  simp

namespace Schema

/-- What a synchronization exchanges. -/
def syncTrace (driver : Driver δ) (l : σ) (s : State) (d : δ) (ctx : Option Context) :
    List Exchange :=
  (synchronize ctx : Task σ SyncReport).exchanges driver l s d

/-- The outcome of a synchronization. -/
def syncResult (driver : Driver δ) (l : σ) (s : State) (d : δ) (ctx : Option Context) :
    Except DbError SyncReport :=
  ((synchronize ctx : Task σ SyncReport).run driver l s d).1.1

/-- The work of a synchronization in its transaction. -/
theorem reconcile_ensures {tx : Context} {conn : Nat} {s : State} (h : Holds tx conn s) :
    (reconcile tx : Task σ SyncReport).Ensures (· = s) (Reconciled s conn) := by
  have hI : ∀ s', s' = s → Holds tx conn s' := fun s' hs' => hs' ▸ h
  refine .state_bind fun s₁ hs₁ => ?_
  obtain rfl := hs₁
  refine Task.Ensures.bind ?_
  refine Task.Ensures.bind (execute_ensures_of hI fun answer => ?_)
  cases answer with
  | error e => exact .unlisted e
  | ok output =>
      refine Task.Ensures.pure ?_
      refine .state_bind fun s₂ hs₂ => ?_
      obtain rfl := hs₂
      exact (carryOut_performed hI _).mono fun trace result hperformed => .listed output hperformed

/-- Every run of a synchronization is one of these. -/
theorem synchronized (driver : Driver δ) (l : σ) (s : State) (d : δ) (ctx : Option Context) :
    Synchronized s ctx (syncTrace driver l s d ctx) (syncResult driver l s d ctx) := by
  rw [syncTrace, syncResult, synchronize_eq]
  cases ctx with
  | some tx =>
      rw [transaction_some]
      cases htx : s.connection? tx with
      | none =>
          obtain ⟨⟨hlocal, hclosed⟩, -⟩ := (ShutOut.reconcile l).exchanges driver htx d
          rw [Task.run, hclosed]
          exact .refused htx hlocal
      | some conn => exact .joined ((reconcile_ensures htx l).exchanges driver rfl d).1
  | none =>
      have hholds : ∀ conn, Holds ⟨s.contexts.length⟩ conn (s.addContext conn) := fun conn =>
        s.connection?_addContext conn
      rcases transaction_ensures_cases (I := fun conn s' => s' = s.addContext conn) (fun _ => rfl)
        (fun conn _ hkept => hkept ▸ hholds conn) (fun conn => reconcile_ensures (hholds conn))
        driver l d with
        ⟨e, herror, hstart, hfront⟩ | ⟨pool, conn, calls, worked, back, htrace, hcalls, hend⟩
      · rw [herror]
        refine .unstarted hstart fun pool hpool => ?_
        rw [hfront]
        exact exchanges_startTransaction_ne_nil driver l s d pool hpool
      · rw [htrace]
        exact .bracketed (Reconciled.of_addContext hcalls) hend

end Schema

/-! ## Failures -/

/-- A run that stops at a failure: no change is asked for behind it, and its error is the
outcome. -/
structure StopsAtFailure (trace : List Exchange) (result : Except DbError α) : Prop where
  silent : trace.Pairwise fun x y => x.failure? ≠ none → y.change? = none
  outcome : ∀ x ∈ trace, ∀ e, x.failure? = some e → result = .error e

namespace StopsAtFailure

variable {front back trace : List Exchange} {worked result : Except DbError α} {x : Exchange}

theorem nil : StopsAtFailure [] result where
  silent := List.Pairwise.nil
  outcome x hx := by cases hx

/-- What did not fail has no part in what follows it. -/
theorem cons (hx : x.failure? = none) (h : StopsAtFailure trace result) :
    StopsAtFailure (x :: trace) result where
  silent := List.pairwise_cons.2 ⟨fun _ _ hfailure => absurd hx hfailure, h.silent⟩
  outcome y hy e he := by
    rcases List.mem_cons.1 hy with rfl | hy
    · rw [hx] at he
      cases he
    · exact h.outcome y hy e he

theorem of_forall (h : ∀ x ∈ trace, x.failure? = none) : StopsAtFailure trace result := by
  induction trace with
  | nil => exact nil
  | cons x trace ih =>
      obtain ⟨hx, htrace⟩ := List.forall_mem_cons.1 h
      exact cons hx (ih htrace)

/-- A failure is only followed by what does not fail and makes no change. -/
theorem fails {e : DbError} (hx : x.failure? = some e)
    (h : ∀ y ∈ trace, y.failure? = none ∧ y.change? = none) :
    StopsAtFailure (x :: trace) (.error e : Except DbError α) where
  silent := List.pairwise_cons.2 ⟨fun y hy _ => (h y hy).2,
    List.pairwise_of_forall_mem_list fun _ _ z hz _ => (h z hz).2⟩
  outcome y hy e' he' := by
    rcases List.mem_cons.1 hy with rfl | hy
    · rw [hx] at he'
      rw [Option.some.inj he']
    · rw [(h y hy).1] at he'
      cases he'

/-- Work whose failure is passed on may be followed by what makes no change. -/
theorem append (hfront : StopsAtFailure front worked) (hback : StopsAtFailure back result)
    (hpassed : ∀ e, worked = .error e → result = .error e) (hquiet : ∀ y ∈ back, y.change? = none) :
    StopsAtFailure (front ++ back) result where
  silent := List.pairwise_append.2
    ⟨hfront.silent, hback.silent, fun _ _ y hy _ => hquiet y hy⟩
  outcome x hx e he := by
    rcases List.mem_append.1 hx with hx | hx
    · exact hpassed e (hfront.outcome x hx e he)
    · exact hback.outcome x hx e he

end StopsAtFailure

/-- Work that makes changes one after the other stops at a failure. -/
theorem Performed.stopsAtFailure {conn : Nat} {changes : List Change} {R : α → Prop}
    {trace : List Exchange} {result : Except DbError α}
    (h : Performed conn changes R trace result) : StopsAtFailure trace result := by
  cases h with
  | done hfine _ _ => exact .of_forall fun x hx => (hfine x hx).failure?
  | failed front st e hfine _ =>
      clear * - hfine
      induction front with
      | nil => exact .fails rfl (by simp)
      | cons x front ih =>
          obtain ⟨hx, hfront⟩ := List.forall_mem_cons.1 hfine
          exact .cons hx.failure? (ih hfront)

theorem Reconciled.stopsAtFailure {s : State} {conn : Nat} {trace : List Exchange}
    {result : Except DbError SyncReport} (h : Reconciled s conn trace result) :
    StopsAtFailure trace result := by
  cases h with
  | unlisted e => exact .fails rfl (by simp)
  | listed output h => exact .cons rfl h.stopsAtFailure

section Settling

variable {conn : Nat} {worked result : Except DbError α} {back : List Exchange}

/-- The end of a bracket makes no change. -/
theorem Settled.change?_eq_none (h : Settled conn worked result back) :
    ∀ x ∈ back, x.change? = none := by
  cases h <;> simp [Exchange.change?, Request.statement?]

/-- The end of a bracket fails with the failure of the work or with its own. -/
theorem Settled.stopsAtFailure {front : List Exchange} (h : Settled conn worked result back)
    (hfront : StopsAtFailure front worked) : StopsAtFailure (front ++ back) result := by
  have hquiet := h.change?_eq_none
  cases h with
  | committed a => exact hfront.append (.cons rfl (.cons rfl .nil)) (by simp) hquiet
  | unreleased a e => exact hfront.append (.cons rfl (.cons rfl .nil)) (by simp) hquiet
  | undone a e undone released =>
      refine hfront.append (.fails rfl fun y hy => ?_) (by simp) hquiet
      refine ⟨?_, hquiet y (List.mem_cons_of_mem _ hy)⟩
      simp only [List.mem_cons, List.not_mem_nil, or_false] at hy
      rcases hy with rfl | rfl <;> rfl
  | failed e undone released => exact hfront.append (.cons rfl (.cons rfl .nil)) (by simp) hquiet

end Settling

/-- A synchronization stops at a failure. -/
theorem Synchronized.stopsAtFailure {s : State} {ctx : Option Context} {trace : List Exchange}
    {result : Except DbError SyncReport} (h : Synchronized s ctx trace result) :
    StopsAtFailure trace result := by
  cases h with
  | refused _ hlocal =>
      refine .of_forall fun x hx => ?_
      obtain ⟨r, answer⟩ := x
      cases hlocal _ hx <;> rfl
  | unstarted h _ =>
      cases h with
      | unconnected e => exact .nil
      | unacquired pool e => exact .fails rfl (by simp)
      | unbegun pool conn e released => exact .cons rfl (.fails rfl (by simpa using ⟨rfl, rfl⟩))
  | joined h => exact h.stopsAtFailure
  | bracketed h hend => exact .cons rfl (.cons rfl (hend.stopsAtFailure h.stopsAtFailure))

/-! ## Changes -/

/-- The tables that a run was told of by the answers to the text that asks for all of them. -/
def Lists (trace : List Exchange) (live : List String) : Prop :=
  ∀ conn st output, st.sql = tableList → (⟨.query conn st, .ok output⟩ : Exchange) ∈ trace →
    output.tableNames = live

/-- The exchange for the list of tables makes no change. -/
theorem Exchange.change?_tableNames (conn : Nat) (answer : Except DbError Output) :
    (⟨.query conn .tableNames, answer⟩ : Exchange).change? = none := by
  rw [Exchange.change?, Request.statement?, Option.bind_some, Statement.change?_tableNames]

theorem changesIn_tableNames (conn : Nat) (answer : Except DbError Output) (trace : List Exchange) :
    changesIn (⟨.query conn .tableNames, answer⟩ :: trace) = changesIn trace :=
  List.filterMap_cons_none (Exchange.change?_tableNames conn answer)

theorem Performed.changesIn_initial {conn : Nat} {changes : List Change} {R : α → Prop}
    {trace : List Exchange} {result : Except DbError α}
    (h : Performed conn changes R trace result) : changesIn trace <+: changes := by
  cases h with
  | done _ hchanges _ => exact hchanges ▸ List.prefix_refl _
  | failed _ _ _ _ hchanges => exact hchanges

/-- What a synchronization changes are the first ones of the changes of its plan. -/
theorem Synchronized.changesIn_initial {s : State} {ctx : Option Context} {trace : List Exchange}
    {result : Except DbError SyncReport} (h : Synchronized s ctx trace result) :
    ∃ live, (∀ listed, Lists trace listed → changesIn trace ≠ [] → live = listed) ∧
      changesIn trace <+: (s.syncPlan live).changes := by
  have hreconciled : ∀ {conn calls} {worked : Except DbError SyncReport} (front back),
      Reconciled s conn calls worked → changesIn front = [] → changesIn back = [] →
        ∃ live, (∀ listed, Lists (front ++ (calls ++ back)) listed →
            changesIn (front ++ (calls ++ back)) ≠ [] → live = listed) ∧
          changesIn (front ++ (calls ++ back)) <+: (s.syncPlan live).changes := by
    intro conn calls worked front back h hfront hback
    rw [changesIn_append, changesIn_append, hfront, hback, List.nil_append, List.append_nil]
    cases h with
    | unlisted e =>
        rw [changesIn_tableNames]
        exact ⟨[], fun _ _ h => absurd rfl h, List.nil_prefix⟩
    | listed output h =>
        rw [changesIn_tableNames]
        refine ⟨output.tableNames, fun listed hlists _ => ?_, h.changesIn_initial⟩
        exact hlists conn .tableNames output rfl (by simp)
  have hnone : ∀ {trace : List Exchange}, changesIn trace = [] →
      ∃ live, (∀ listed, Lists trace listed → changesIn trace ≠ [] → live = listed) ∧
        changesIn trace <+: (s.syncPlan live).changes := fun h =>
    ⟨[], fun _ _ hne => absurd h hne, h ▸ List.nil_prefix⟩
  cases h with
  | refused _ hlocal =>
      refine hnone (changesIn_eq_nil fun x hx => ?_)
      obtain ⟨r, answer⟩ := x
      cases hlocal _ hx <;> rfl
  | unstarted h _ => cases h <;> exact hnone rfl
  | joined h =>
      have hjoined := hreconciled [] [] h rfl rfl
      rwa [List.nil_append, List.append_nil] at hjoined
  | bracketed h hend =>
      exact hreconciled [_, _] _ h rfl (changesIn_eq_nil hend.change?_eq_none)

/-- Where nothing fails, the work of a synchronization makes all changes and reports them. -/
theorem Reconciled.complete {s : State} {conn : Nat} {trace : List Exchange}
    {result : Except DbError SyncReport} {live : List String} (h : Reconciled s conn trace result)
    (hfine : ∀ x ∈ trace, x.error? = none) (hlists : Lists trace live) :
    changesIn trace = (s.syncPlan live).changes ∧ result = .ok (s.syncPlan live).report := by
  cases h with
  | unlisted e => cases hfine ⟨.query conn .tableNames, .error e⟩ (by simp)
  | listed output h =>
      obtain rfl := hlists conn .tableNames output rfl (by simp)
      rw [changesIn_tableNames]
      cases h with
      | done _ hchanges ha => exact ⟨hchanges, congrArg Except.ok ha⟩
      | failed front st e _ _ => cases hfine ⟨.query conn st, .error e⟩ (by simp)

/-- Where nothing fails, a synchronization that can start makes all changes and reports them. -/
theorem Synchronized.complete {s : State} {ctx : Option Context} {trace : List Exchange}
    {result : Except DbError SyncReport} {live : List String} (h : Synchronized s ctx trace result)
    (hadmits : s.Admits ctx) (hfine : ∀ x ∈ trace, x.error? = none) (hlists : Lists trace live) :
    changesIn trace = (s.syncPlan live).changes ∧ result = .ok (s.syncPlan live).report := by
  cases h with
  | refused hended _ =>
      obtain ⟨conn, hconn⟩ := hadmits
      rw [hended] at hconn
      cases hconn
  | @unstarted trace e h hasked =>
      obtain ⟨pool, hpool⟩ := hadmits
      cases h with
      | unconnected => exact absurd rfl (hasked pool hpool)
      | unacquired pool => cases hfine ⟨.acquire pool, .error e⟩ (by simp)
      | unbegun pool conn _ released => cases hfine ⟨.begin conn, .error e⟩ (by simp)
  | joined h => exact h.complete hfine hlists
  | @bracketed pool conn calls back worked _ h hend =>
      have hcalls : Lists calls live := fun conn st output hsql hmem =>
        hlists conn st output hsql (by simp [hmem])
      obtain ⟨hchanges, rfl⟩ := h.complete (fun x hx => hfine x (by simp [hx])) hcalls
      refine ⟨?_, ?_⟩
      · show changesIn ([_, _] ++ (calls ++ back)) = _
        rw [changesIn_append, changesIn_append, hchanges,
          changesIn_eq_nil hend.change?_eq_none, List.append_nil]
        rfl
      · cases hend with
        | committed a => rfl
        | unreleased a e => cases hfine ⟨.release conn, .error e⟩ (by simp)
        | undone a e undone released => cases hfine ⟨.commit conn, .error e⟩ (by simp)

/-! ## Main result -/

/-- A synchronization carries out the difference of the live and the declared tables.  Where nothing
fails, it drops, creates and then alters exactly the tables of the difference, each of them once,
and reports them in this order; and if it may drop tables and none is excepted, a synchronization
that finds the resulting tables drops and creates none.  In every run, excepted tables are left
alone, a table that is created is a declared one and defined as it is declared, no change is asked
for behind a failure, and the outcome is the error of the failure. -/
theorem Schema.synchronize_reconciles (driver : Driver δ) (l : σ) (s : State) (d : δ)
    (ctx : Option Context) :
    (∀ live, s.Admits ctx → (∀ x ∈ syncTrace driver l s d ctx, x.error? = none) →
      Lists (syncTrace driver l s d ctx) live → live.Nodup →
      (s.catalog.allTables.map Table.name).Nodup →
      ∃ drops creates alters, s.IsDifference live drops creates alters ∧
        changesIn (syncTrace driver l s d ctx) =
          drops.map .drop ++ (creates.map fun t => .create t.name) ++ alters.map .alter ∧
        syncResult driver l s d ctx = .ok ⟨drops, creates.map Table.name, alters⟩ ∧
        (s.sync.deleteTables = true → (∀ name, ¬ s.Excepts name) →
          ∀ {σ' δ' : Type} (driver' : Driver δ') (l' : σ') (s' : State) (d' : δ')
            (ctx' : Option Context) (live' : List String),
            s'.catalog.allTables = s.catalog.allTables →
            Lists (syncTrace driver' l' s' d' ctx') live' →
            (∀ name, name ∈ live' ↔
              name ∈ tablesAfter live (changesIn (syncTrace driver l s d ctx))) →
            ∀ c ∈ changesIn (syncTrace driver' l' s' d' ctx'), ∃ name, c = .alter name)) ∧
    (∀ c ∈ changesIn (syncTrace driver l s d ctx),
      ∃ name, c.subject? = some name ∧ ¬ s.Excepts name) ∧
    (∀ x ∈ syncTrace driver l s d ctx, x.request.CreatesOnly s.catalog.allTables) ∧
    StopsAtFailure (syncTrace driver l s d ctx) (syncResult driver l s d ctx) := by
  have hrun := synchronized driver l s d ctx
  refine ⟨fun live hadmits hfine hlists hlive hdeclared => ?_, fun c hc => ?_,
    createsDeclared_of_mem_exchanges driver l s d ctx, hrun.stopsAtFailure⟩
  · obtain ⟨hchanges, hresult⟩ := hrun.complete hadmits hfine hlists
    have hdifference := State.syncPlan_isDifference hlive hdeclared
    have hsplit : changesIn (syncTrace driver l s d ctx) =
        (s.syncPlan live).drop.map .drop ++ ((s.syncPlan live).create.map fun t => .create t.name) ++
          ((s.syncPlan live).alter.map Table.name).map .alter := by
      rw [hchanges, SyncPlan.changes, List.map_map]
      rfl
    refine ⟨_, _, _, hdifference, hsplit, hresult, ?_⟩
    intro hdelete hexcept σ' δ' driver' l' s' d' ctx' live' hcatalog hlists' hlive' c hc
    obtain ⟨found, hfound, hinitial⟩ := (synchronized driver' l' s' d' ctx').changesIn_initial
    obtain rfl := hfound live' hlists' (List.ne_nil_of_mem hc)
    refine State.exists_alter_of_mem_changes (fun name => ?_) (hinitial.subset hc)
    rw [hlive', hsplit, hdifference.mem_tablesAfter hdelete hexcept, hcatalog]
  · obtain ⟨live, -, hinitial⟩ := hrun.changesIn_initial
    exact State.subject?_of_mem_changes (hinitial.subset hc)

/-! ## A synchronization -/

namespace Shelf

/-- A table with nothing but a name. -/
def table (name : String) : Table where
  name
  charset := Table.defaultCharset
  collate := Table.defaultCollate
  engine := Table.defaultEngine
  softDelete := false
  columns := []
  primaryKeys := []
  uniqueKeys := []
  foreignKeys := []

/-- A program that declares two tables, may drop and alter, and excepts some tables. -/
def state (exceptTables : List String) : State :=
  { State.initial with
    pool := .open 0
    catalog := ⟨[], [("book", table "book"), ("reader", table "reader")], []⟩
    sync := ⟨true, true, true, exceptTables⟩ }

/-- The driver that lists the given tables where it is asked for them, and grants everything
else. -/
def driver (live : List String) : Driver Unit where
  answer r _ :=
    match r with
    | .query _ st =>
        (.ok (Output.ofRows
          (if st.sql = tableList then live.map fun name => [("Tables", Json.str name)] else [])), ())
    | r => (r.granted, ())

theorem error?_eq_none (live : List String) (s : State) :
    ∀ x ∈ Schema.syncTrace (driver live) () s () none, x.error? = none := by
  intro x hx
  obtain ⟨_, hanswer⟩ := Program.answer_of_mem_exchanges _ _ _ _ x hx
  obtain ⟨r, answer⟩ := x
  change answer = ((driver live).answer r _).1 at hanswer
  subst hanswer
  cases r with
  | _ => rfl

theorem lists (live : List String) (s : State) :
    Lists (Schema.syncTrace (driver live) () s () none) live := by
  intro conn st output hsql hx
  obtain ⟨_, hanswer⟩ := Program.answer_of_mem_exchanges _ _ _ _ _ hx
  obtain rfl := Except.ok.inj hanswer
  rw [if_pos hsql]
  simp [Output.tableNames, Output.ofRows, Json.str?, List.filterMap_map, Function.comp_def]

theorem changesIn_eq :
    changesIn (Schema.syncTrace (driver ["old", "reader"]) () (state []) () none) =
      [.drop "old", .create "book", .alter "reader"] := by
  decide +kernel

example : changesIn (Schema.syncTrace (driver ["old", "reader"]) () (state ["old"]) () none) =
    [.create "book", .alter "reader"] := by
  decide +kernel

end Shelf

/-- One of the declared tables is live, and one that is not declared.  When both declared tables are
live, none is dropped or created. -/
theorem Schema.synchronize_reconciles_shelf :
    (∃ drops creates alters, (Shelf.state []).IsDifference ["old", "reader"] drops creates alters ∧
      changesIn (syncTrace (Shelf.driver ["old", "reader"]) () (Shelf.state []) () none) =
        drops.map .drop ++ (creates.map fun t => .create t.name) ++ alters.map .alter ∧
      syncResult (Shelf.driver ["old", "reader"]) () (Shelf.state []) () none =
        .ok ⟨drops, creates.map Table.name, alters⟩) ∧
    ∀ c ∈ changesIn (syncTrace (Shelf.driver ["book", "reader"]) () (Shelf.state []) () none),
      ∃ name, c = .alter name := by
  obtain ⟨drops, creates, alters, hdifference, hchanges, hresult, hagain⟩ :=
    (synchronize_reconciles (Shelf.driver ["old", "reader"]) () (Shelf.state []) () none).1
      ["old", "reader"] ⟨0, rfl⟩ (Shelf.error?_eq_none _ _) (Shelf.lists _ _) (by decide)
      (by decide)
  refine ⟨⟨drops, creates, alters, hdifference, hchanges, hresult⟩, ?_⟩
  refine hagain rfl (fun name => by simp [State.Excepts, Shelf.state, State.initial])
    (Shelf.driver ["book", "reader"]) () (Shelf.state []) () none _ rfl (Shelf.lists _ _) ?_
  intro name
  rw [Shelf.changesIn_eq]
  simp [tablesAfter, Change.apply, or_comm]

end Persistence
