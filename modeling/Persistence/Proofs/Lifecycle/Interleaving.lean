import Persistence.Proofs.Lifecycle.Pool

/-!
# Interleaved calls

Any number of connects and destroys run at the same time.  A call runs until it waits for an answer,
and then another one may go on; its answer may be any.  What a hook does while a connect waits for
it, calls of its own among it, happens between the request and the answer; a hook may also make its
calls in the course of the connect.

The pool is to go from pending to open to closed and never back.  It does so exactly if every pool
is granted while there is none: a connect looks at the pool before its hooks run and opens the pool
that it is granted without another look.

Main results:

- `System.Run.sound`: what every interleaved run does with the pool.
- `Operation.closedOut`: the operations without a context once the pool is closed.
- `System.keepsOrder_iff`: when the pool keeps its order.
- `System.reopened`: a hook that destroys, and the connect that opens the pool behind it.
-/

namespace Persistence

variable {σ α β δ : Type}

/-! ## Interleaved runs -/

/-- What happens to the pool: one is granted to a connect, or the state is written with the pool
that it then has. -/
inductive Moment
  | granted (pool : Nat)
  | pool (pool : PoolState)
deriving DecidableEq

/-- Run a program to its next request or its end: the pools with which it writes the state, the
state, and the program that is left. -/
def Program.advance : Program α → State → List Moment × State × Program α
  | done a, s => ([], s, done a)
  | read next, s => (next s).advance s
  | write s next, _ =>
      let (moments, s', p) := next.advance s
      (.pool s.pool :: moments, s', p)
  | call r next, s => ([], s, call r next)

/-- The calls of the lifecycle. -/
inductive LifecycleCall
  | connect (options : ConnectOptions)
  | destroy

/-- The task of a call. -/
def LifecycleCall.task (actions : HookActions σ) : LifecycleCall → Task σ Unit
  | connect options => Persistence.connect actions options
  | destroy => Persistence.destroy

/-- Calls that were started, with the state that they share. -/
structure System (σ : Type) where
  state : State
  calls : List (Program (Except DbError Unit × σ))

namespace System

/-- A call goes on with the moments, the state and the program of its next step. -/
def resume (front back : List (Program (Except DbError Unit × σ)))
    (step : List Moment × State × Program (Except DbError Unit × σ)) : System σ :=
  ⟨step.2.1, front ++ step.2.2 :: back⟩

/-- One step of a system: a call starts, a call gets the answer that it waits for, or something else
changes the state and leaves the pool alone. -/
inductive Step (actions : HookActions σ) : System σ → List Moment → System σ → Prop
  | start (sys : System σ) (c : LifecycleCall) (l : σ) :
      Step actions sys ((c.task actions l).advance sys.state).1
        (resume sys.calls [] ((c.task actions l).advance sys.state))
  | answer {sys : System σ} {front back : List (Program (Except DbError Unit × σ))} {r : Request}
      {next : r.Answer → Program (Except DbError Unit × σ)}
      (hcalls : sys.calls = front ++ .call r next :: back) (answer : r.Answer) :
      Step actions sys
        ((r.created? answer).toList.map Moment.granted ++ ((next answer).advance sys.state).1)
        (resume front back ((next answer).advance sys.state))
  | other {sys : System σ} {state : State} (hpool : state.pool = sys.state.pool) :
      Step actions sys [] ⟨state, sys.calls⟩

/-- The only call of a system gets the answer that it waits for. -/
theorem Step.answerAlone {actions : HookActions σ} {sys : System σ} {r : Request}
    {next : r.Answer → Program (Except DbError Unit × σ)} (hcalls : sys.calls = [.call r next])
    (answer : r.Answer) :
    Step actions sys
      ((r.created? answer).toList.map Moment.granted ++ ((next answer).advance sys.state).1)
      (resume [] [] ((next answer).advance sys.state)) :=
  .answer hcalls answer

/-- A run of a system, with its moments in order. -/
inductive Run (actions : HookActions σ) : System σ → List Moment → System σ → Prop
  | refl (sys : System σ) : Run actions sys [] sys
  | step {sys sys' sys'' : System σ} {history moments : List Moment} :
      Run actions sys history sys' → Step actions sys' moments sys'' →
        Run actions sys (history ++ moments) sys''

end System

/-! ## What a history is like -/

/-- The pools with which the state was written. -/
def pools (history : List Moment) : List PoolState :=
  history.filterMap fun
    | .pool p => some p
    | .granted _ => none

/-- The pools that were granted. -/
def grants (history : List Moment) : List Nat :=
  history.filterMap fun
    | .granted n => some n
    | .pool _ => none

/-- What the pool may become: an open or a closed one if it is pending, and a closed one if it is
open. -/
def PoolState.MayBecome (p q : PoolState) : Prop := p = q ∨ p = .pending ∨ q = .closed

instance : DecidableRel PoolState.MayBecome :=
  fun p q => inferInstanceAs (Decidable (p = q ∨ p = .pending ∨ q = .closed))

/-- Every pool of a history is granted while the pool is pending. -/
def GrantedWhilePending : (pool : PoolState) → List Moment → Prop
  | _, [] => True
  | pool, .granted _ :: history => pool = .pending ∧ GrantedWhilePending pool history
  | _, .pool p :: history => GrantedWhilePending p history

/-- A history that leads from one pool to another: a write keeps the pool or closes it, and a pool
that is granted is opened at once. -/
inductive Leads : PoolState → List Moment → PoolState → Prop
  | nil (p : PoolState) : Leads p [] p
  | keep {p q : PoolState} {history : List Moment} :
      Leads p history q → Leads p (.pool p :: history) q
  | close (p : PoolState) {q : PoolState} {history : List Moment} :
      Leads .closed history q → Leads p (.pool .closed :: history) q
  | install (p : PoolState) {q : PoolState} {n : Nat} {history : List Moment} :
      Leads (.open n) history q → Leads p (.granted n :: .pool (.open n) :: history) q

namespace Leads

variable {p q r : PoolState} {history history' : List Moment}

theorem append (h : Leads p history q) (h' : Leads q history' r) :
    Leads p (history ++ history') r := by
  induction h with
  | nil p => exact h'
  | keep _ ih => exact .keep (ih h')
  | close p _ ih => exact .close p (ih h')
  | install p _ ih => exact .install p (ih h')

/-- Where pools are granted while there is none, the pool goes forward and at most one is
granted. -/
theorem forward (h : Leads p history q) (hgrants : GrantedWhilePending p history) :
    (p :: pools history).IsChain PoolState.MayBecome ∧ (grants history).length ≤ 1 ∧
      (p ≠ .pending → grants history = []) := by
  induction h with
  | nil p => simp [pools, grants]
  | keep _ ih =>
      obtain ⟨hchain, hrest⟩ := ih hgrants
      exact ⟨.cons_cons (.inl rfl) hchain, hrest⟩
  | close p _ ih =>
      obtain ⟨hchain, honce, hnone⟩ := ih hgrants
      exact ⟨.cons_cons (.inr (.inr rfl)) hchain, honce, fun _ => hnone (by decide)⟩
  | @install p q n history _ ih =>
      obtain ⟨rfl, hgrants⟩ := hgrants
      obtain ⟨hchain, -, hnone⟩ := ih hgrants
      have hgranted : grants (.granted n :: .pool (.open n) :: history) = n :: grants history := rfl
      rw [hgranted, hnone (by simp)]
      exact ⟨.cons_cons (.inr (.inl rfl)) hchain, by simp, fun h => absurd rfl h⟩

/-- Where the pool goes forward and one is granted at most, it is granted while there is none. -/
theorem grantedWhilePending (h : Leads p history q)
    (hchain : (p :: pools history).IsChain PoolState.MayBecome)
    (hgrants : grants history = [] ∨ (grants history).length ≤ 1 ∧ ∀ n, p ≠ .open n) :
    GrantedWhilePending p history := by
  induction h with
  | nil p => trivial
  | keep _ ih => exact ih hchain.tail hgrants
  | close p _ ih => exact ih hchain.tail (hgrants.imp_right fun h => ⟨h.1, fun n => by simp⟩)
  | @install p q n history _ ih =>
      have hgranted : grants (.granted n :: .pool (.open n) :: history) = n :: grants history := rfl
      rw [hgranted] at hgrants
      have hopen : p = .open n ∨ p = .pending ∨ PoolState.open n = .closed :=
        (List.isChain_cons_cons.1 hchain).1
      rcases hgrants with hnone | ⟨honce, hclosed⟩
      · cases hnone
      · have hrest : grants history = [] := by simpa using honce
        refine ⟨?_, ih hchain.tail (.inl hrest)⟩
        simpa [hclosed n] using hopen

/-- A pool that goes forward stays closed. -/
theorem eq_closed (h : Leads p history q)
    (hchain : (p :: pools history).IsChain PoolState.MayBecome)
    (hclosed : .closed ∈ p :: pools history) : q = .closed := by
  induction h with
  | nil p => simpa [pools, eq_comm] using hclosed
  | keep _ ih => exact ih hchain.tail (by simpa [pools] using hclosed)
  | close p _ ih => exact ih hchain.tail List.mem_cons_self
  | @install p q n history _ ih =>
      refine ih hchain.tail ?_
      have hopen : p = .open n ∨ p = .pending ∨ PoolState.open n = .closed :=
        (List.isChain_cons_cons.1 hchain).1
      rcases List.mem_cons.1 hclosed with rfl | hclosed
      · simp at hopen
      · exact hclosed

end Leads

/-! ## Runs of a system -/

/-- A step of a program that respects the pool. -/
theorem Program.RespectsPool.advance {p : Program α} {due : Option Nat} {s : State}
    (h : p.RespectsPool due s.pool) :
    Leads s.pool (due.toList.map Moment.granted ++ (p.advance s).1) (p.advance s).2.1.pool ∧
      ∀ pool, (p.advance s).2.2.RespectsPool none pool := by
  induction p generalizing due s with
  | done a =>
      obtain rfl : due = none := h
      exact ⟨.nil _, fun _ => rfl⟩
  | read next ih => exact ih s (h s rfl)
  | write s' next ih =>
      cases due with
      | none =>
          obtain ⟨hpool, hnext⟩ := h
          obtain ⟨hleads, hrest⟩ := ih hnext
          refine ⟨?_, hrest⟩
          rcases hpool with hpool | hpool
          · show Leads s.pool (.pool s'.pool :: (next.advance s').1) _
            rw [hpool] at hleads ⊢
            exact .keep hleads
          · show Leads s.pool (.pool s'.pool :: (next.advance s').1) _
            rw [hpool] at hleads ⊢
            exact .close _ hleads
      | some n =>
          obtain ⟨hpool, hnext⟩ := h
          obtain ⟨hleads, hrest⟩ := ih hnext
          refine ⟨?_, hrest⟩
          show Leads s.pool (.granted n :: .pool s'.pool :: (next.advance s').1) _
          rw [hpool] at hleads ⊢
          exact .install _ hleads
  | call r next ih =>
      obtain ⟨rfl, hnext⟩ := h
      exact ⟨.nil _, fun pool => ⟨rfl, hnext⟩⟩

theorem LifecycleCall.respectsPool {actions : HookActions σ}
    (hactions : ∀ id, (actions id).RespectsPool) (c : LifecycleCall) :
    (c.task actions).RespectsPool := by
  cases c with
  | connect options => exact connect_respectsPool hactions options
  | destroy => exact destroy_respectsPool

namespace System

/-- What holds of a system behind a history that starts from a pool: the history leads to its pool,
and its calls respect whatever the pool is when they go on. -/
structure Sound (pool : PoolState) (history : List Moment) (sys : System σ) : Prop where
  leads : Leads pool history sys.state.pool
  calls : ∀ p ∈ sys.calls, ∀ pool, p.RespectsPool none pool

variable {actions : HookActions σ} (hactions : ∀ id, (actions id).RespectsPool)

include hactions

/-- A step of a sound system. -/
theorem Step.sound {pool : PoolState} {history moments : List Moment} {sys sys' : System σ}
    (hstep : Step actions sys moments sys') (h : Sound pool history sys) :
    Sound pool (history ++ moments) sys' := by
  cases hstep with
  | start c l =>
      obtain ⟨hleads, hrest⟩ := (c.respectsPool hactions l sys.state.pool).advance
      refine ⟨h.leads.append hleads, fun p hp => ?_⟩
      rcases List.mem_append.1 hp with hp | hp
      · exact h.calls p hp
      · obtain rfl := List.mem_singleton.1 hp
        exact hrest
  | @answer front back r next hcalls answer =>
      have hwaiting : Program.RespectsPool (.call r next) none sys.state.pool :=
        h.calls _ (by simp [hcalls]) _
      obtain ⟨hleads, hrest⟩ := (hwaiting.2 answer sys.state.pool).advance
      refine ⟨h.leads.append hleads, fun p hp => ?_⟩
      rcases List.mem_append.1 hp with hp | hp
      · exact h.calls p (by simp [hcalls, hp])
      · rcases List.mem_cons.1 hp with rfl | hp
        · exact hrest
        · exact h.calls p (by simp [hcalls, hp])
  | @other state hpool =>
      refine ⟨?_, h.calls⟩
      rw [List.append_nil]
      exact hpool ▸ h.leads

/-- What every interleaved run does with the pool. -/
theorem Run.sound {s : State} {history : List Moment} {sys : System σ}
    (hrun : Run actions ⟨s, []⟩ history sys) : Sound s.pool history sys := by
  induction hrun with
  | refl => exact ⟨.nil _, by simp⟩
  | step _ hstep ih => exact hstep.sound hactions ih

end System

/-! ## Once the pool is closed -/

/-- A task that gets nowhere once the pool is closed: nobody is asked for anything, and it fails
because the pool is closed. -/
def ClosedOut (t : Task σ α) : Prop :=
  t.Ensures (fun s => s.pool = .closed) fun trace result =>
    trace = [] ∧ result = .error .poolClosed

namespace ClosedOut

/-- Nothing follows a task that gets nowhere. -/
theorem bind {t : Task σ α} (h : ClosedOut t) (f : α → Task σ β) : ClosedOut (t >>= f) := by
  apply Task.Ensures.bind
  apply h.mono
  rintro trace result ⟨rfl, rfl⟩
  exact ⟨rfl, rfl⟩

theorem pool : ClosedOut (Task.pool : Task σ Nat) := by
  refine .state_bind fun s hs => ?_
  rw [hs]
  exact .fail ⟨rfl, rfl⟩

theorem execute (st : Statement) : ClosedOut (execute st none : Task σ Output) := pool.bind _

theorem transaction (work : Context → Task σ α) : ClosedOut (transaction none work) :=
  bind (bind pool _) _

theorem connect (actions : HookActions σ) (options : ConnectOptions) :
    ClosedOut (connect actions options) := by
  have hpending : ClosedOut (requirePending : Task σ Unit) := by
    refine .state_bind fun s hs => ?_
    rw [hs]
    exact .fail ⟨rfl, rfl⟩
  exact hpending.bind _

theorem select (depth : Nat) (s : Select) (args : List Param) :
    ClosedOut (s.run none depth args : Task σ Selection) := by
  cases depth <;> exact (execute _).bind _

end ClosedOut

/-- An operation without a context gets nowhere once the pool is closed, unless its outcome is
settled by its arguments. -/
theorem Operation.closedOut (levels : Nat) (op : Operation α) :
    ClosedOut (op.task (levels + 1) none : Task σ α) ∨
      ∃ result, ∀ ctx, (op.task (levels + 1) ctx : Task σ α) = Task.ofExcept result := by
  cases op with
  | call d c =>
      simp only [task, DaoCall.task_eq]
      cases hplan : c.plan d with
      | settled result => exact .inr ⟨result, fun ctx => rfl⟩
      | read s args finish => exact .inl ((ClosedOut.select _ s args).bind _)
      | write sql finish => exact .inl ((ClosedOut.execute _).bind _)
      | delete q force finish =>
          have hcascade : ClosedOut ((DeleteOperation.dao d).cascade (levels + 1) q force none) :=
            ClosedOut.transaction _
          exact .inl (ClosedOut.bind (Task.Ensures.withLocal hcascade) _)
  | select depth s args => exact .inl (.select depth s args)
  | synchronize => exact .inl (.transaction _)

/-- A state turns a task down: it fails because the pool is closed, and nobody is asked for
anything. -/
def State.TurnsDown (s : State) (t : Task σ α) : Prop :=
  ∀ {δ : Type} (driver : Driver δ) (l : σ) (d : δ),
    (t.run driver l s d).1.1 = .error .poolClosed ∧ t.exchanges driver l s d = []

theorem ClosedOut.turnsDown {t : Task σ α} (h : ClosedOut t) {s : State} (hs : s.pool = .closed) :
    s.TurnsDown t := by
  intro δ driver l d
  obtain ⟨⟨htrace, hresult⟩, -⟩ := (h l).exchanges driver hs d
  exact ⟨hresult, htrace⟩

/-- A state turns down everything that has no context: operations, unless their outcome is settled
by their arguments, statements, transactions and connects. -/
structure State.Refuses (s : State) : Prop where
  operation : ∀ {τ α : Type} (op : Operation α) (levels : Nat),
    s.TurnsDown (op.task (levels + 1) none : Task τ α) ∨
      ∃ result, ∀ ctx, (op.task (levels + 1) ctx : Task τ α) = Task.ofExcept result
  statement : ∀ {τ : Type} (st : Statement), s.TurnsDown (execute st none : Task τ Output)
  transaction : ∀ {τ α : Type} (work : Context → Task τ α),
    s.TurnsDown (Persistence.transaction none work)
  connect : ∀ {τ : Type} (actions : HookActions τ) (options : ConnectOptions),
    s.TurnsDown (Persistence.connect actions options)

theorem State.refuses {s : State} (hs : s.pool = .closed) : s.Refuses where
  operation op levels := (op.closedOut levels).imp_left fun h => h.turnsDown hs
  statement st := (ClosedOut.execute st).turnsDown hs
  transaction work := (ClosedOut.transaction work).turnsDown hs
  connect actions options := (ClosedOut.connect actions options).turnsDown hs

/-! ## The order of the pool -/

namespace System

/-- The pool keeps its order: it goes from pending to open to closed only, at most one pool is
granted to a connect and opened, and once it was closed it stays so and everything without a context
is refused. -/
structure KeepsOrder (history : List Moment) (sys : System σ) : Prop where
  forward : (PoolState.pending :: pools history).IsChain PoolState.MayBecome
  once : (grants history).length ≤ 1
  stays : .closed ∈ pools history → sys.state.pool = .closed ∧ sys.state.Refuses

/-- Whatever calls are interleaved, the pool keeps its order exactly if every pool is granted while
the pool is pending. -/
theorem keepsOrder_iff {actions : HookActions σ} (hactions : ∀ id, (actions id).RespectsPool)
    {s : State} (hs : s.pool = .pending) {history : List Moment} {sys : System σ}
    (hrun : Run actions ⟨s, []⟩ history sys) :
    KeepsOrder history sys ↔ GrantedWhilePending .pending history := by
  have hleads : Leads .pending history sys.state.pool := hs ▸ (hrun.sound hactions).leads
  constructor
  · intro h
    exact hleads.grantedWhilePending h.forward (.inr ⟨h.once, by simp⟩)
  · intro h
    obtain ⟨hforward, honce, -⟩ := hleads.forward h
    refine ⟨hforward, honce, fun hclosed => ?_⟩
    have hpool := hleads.eq_closed hforward (List.mem_cons_of_mem _ hclosed)
    exact ⟨hpool, State.refuses hpool⟩

/-- A connect that is granted its pool and a destroy behind it keep the order of the pool. -/
theorem keepsOrder_destroyed :
    ∃ (history : List Moment) (sys : System Unit),
      Run (fun _ => pure ()) ⟨State.initial, []⟩ history sys ∧
        history = [.pool .pending, .granted 0, .pool (.open 0), .pool .closed] ∧
        KeepsOrder history sys := by
  have hstarted : Run (fun _ => pure ()) ⟨State.initial, []⟩ _ _ :=
    .step (.refl _) (.start _ (.connect .shop) ())
  have hgranted := hstarted.step (.answerAlone (r := .createPool .shop)
    (by with_unfolding_all rfl) (.ok 0))
  have hrun := hgranted.step (.start _ .destroy ())
  refine ⟨_, _, hrun, ?_, (keepsOrder_iff (fun _ => .pure ()) rfl hrun).2 ?_⟩
  · with_unfolding_all rfl
  · with_unfolding_all exact ⟨rfl, trivial⟩

/-- A hook before the connect destroys, and the connect opens the pool that it is granted all the
same: it succeeds, and statements reach the database. -/
theorem reopened :
    (∃ (history : List Moment) (sys : System Unit),
      Run (fun _ => destroy) ⟨.hooked, []⟩ history sys ∧
        history = [.pool .pending, .pool .closed, .granted 0, .pool (.open 0)] ∧
        sys.state.pool = .open 0 ∧ ¬ KeepsOrder history sys) ∧
    (connect (fun _ => destroy) .shop : Task Unit Unit).run .granting () .hooked () =
      ((.ok (), ()), { State.hooked with pool := .open 0, hooks := [] }, ()) ∧
    (execute (.text "select 1") none : Task Unit Output).exchanges .granting ()
        { State.hooked with pool := .open 0, hooks := [] } () =
      [⟨.poolQuery 0 (.text "select 1"), .ok (Output.ofRows [])⟩] := by
  have hstarted : Run (fun _ => destroy) ⟨.hooked, []⟩ _ _ :=
    .step (.refl _) (.start _ (.connect .shop) ())
  have hdestroyed := hstarted.step (.answerAlone (r := .hook 0 false)
    (by with_unfolding_all rfl) (.ok ()))
  have hrun := hdestroyed.step (.answerAlone (r := .createPool .shop)
    (by with_unfolding_all rfl) (.ok 0))
  refine ⟨⟨_, _, hrun, ?_, ?_, fun h => ?_⟩, by with_unfolding_all rfl, rfl⟩
  · with_unfolding_all rfl
  · with_unfolding_all rfl
  · have hforward := h.forward
    revert hforward
    with_unfolding_all decide

end System

end Persistence
