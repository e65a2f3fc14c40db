import Persistence.Proofs.Lifecycle.Pool

/-!
# Hooks around the pool

A connect runs the hooks of the position before it, is granted a pool and opens it, and runs the
hooks of the position behind it.  What happens is told hook by hook: which of them ran, what was
exchanged and where it ended.

Hooks that leave the lifecycle alone may do everything but connect or destroy; they may register
further hooks.

Main results:

- `hooksRun_runHooks`: a run of hooks, hook by hook; the first failure ends it.
- `connect_of_admission`: a connect that may not go on from the pool that it finds.
- `connectRun_connect`: what a connect does where none was made before.
- `HooksRun.retains`, `HooksRun.created?_eq_none`: what hooks that leave the lifecycle alone leave
  of it, and that no pool is granted to them.
-/

namespace Persistence

variable {σ α δ : Type}

/-! ## The look at the pool -/

/-- Whether a connect may go on from a pool. -/
def PoolState.admission : PoolState → Except DbError Unit
  | pending => .ok ()
  | .open _ => .error .alreadyConnected
  | closed => .error .poolClosed

/-- What the hooks of a position find of the pool. -/
def HookPosition.Finds : HookPosition → PoolState → Prop
  | before, pool => pool = .pending
  | after, pool => ∃ n, pool = .open n

section Admission

variable (driver : Driver δ) (l : σ) (s : State) (d : δ)

theorem run_requirePending :
    (requirePending : Task σ Unit).run driver l s d = ((s.pool.admission, l), s, d) := by
  rw [requirePending, Task.run_bind_of_ok Task.run_state]
  cases s.pool <;> rfl

theorem exchanges_requirePending :
    (requirePending : Task σ Unit).exchanges driver l s d = [] := by
  rw [requirePending, Task.exchanges_bind_of_ok Task.run_state]
  cases s.pool <;> rfl

/-- A connect that may not go on fails at once. -/
theorem connect_of_admission {s : State} {e : DbError} (hs : s.pool.admission = .error e)
    (actions : HookActions σ) (options : ConnectOptions) :
    (connect actions options).run driver l s d = ((.error e, l), s, d) ∧
      (connect actions options).exchanges driver l s d = [] := by
  have hrefused : (requirePending : Task σ Unit).run driver l s d = ((.error e, l), s, d) := by
    rw [run_requirePending, hs]
  rw [connect, Task.run_bind, Task.exchanges_bind_of_error hrefused, hrefused,
    exchanges_requirePending]
  exact ⟨rfl, rfl⟩

end Admission

/-! ## Runs of hooks -/

theorem mem_hooksAt {position : HookPosition} {hooks : List Hook} {h : Hook} :
    h ∈ hooksAt position hooks ↔ h ∈ hooks ∧ h.position = position := by
  simp [hooksAt]

section Runs

variable (actions : HookActions σ) (driver : Driver δ)

/-- Hooks run one after the other until one fails: those that ran, their exchanges, and the outcome
with the states behind it. -/
inductive HooksRun : (hooks : List Hook) → (l : σ) → (s : State) → (d : δ) → (ran : List Hook) →
    List Exchange → (Except DbError Unit × σ) × State × δ → Prop
  | nil (l : σ) (s : State) (d : δ) : HooksRun [] l s d [] [] ((.ok (), l), s, d)
  | failed {h : Hook} (hooks : List Hook) {l l' : σ} {s s' : State} {d d' : δ} {e : DbError}
      (hrun : (h.body.run actions).run driver l s d = ((.error e, l'), s', d')) :
      HooksRun (h :: hooks) l s d [h] ((h.body.run actions).exchanges driver l s d)
        ((.error e, l'), s', d')
  | next {h : Hook} {hooks ran : List Hook} {l l' : σ} {s s' : State} {d d' : δ}
      {trace : List Exchange} {out : (Except DbError Unit × σ) × State × δ}
      (hrun : (h.body.run actions).run driver l s d = ((.ok (), l'), s', d'))
      (hrest : HooksRun hooks l' s' d' ran trace out) :
      HooksRun (h :: hooks) l s d (h :: ran)
        ((h.body.run actions).exchanges driver l s d ++ trace) out

/-- What a connect does where none was made before: a hook before the pool fails, the pool is
refused, or the pool is opened and the hooks behind it run. -/
inductive ConnectRun (options : ConnectOptions) (l : σ) (s : State) (d : δ) :
    List Exchange → (Except DbError Unit × σ) × State × δ → Prop
  | stopped {ran : List Hook} {trace : List Exchange} {e : DbError} {l' : σ} {s' : State} {d' : δ}
      (hbefore : HooksRun actions driver (hooksAt .before s.hooks) l { s with sync := options.sync }
        d ran trace ((.error e, l'), s', d')) :
      ConnectRun options l s d trace ((.error e, l'), s', d')
  | refused {ran : List Hook} {trace : List Exchange} {e : DbError} {l' : σ} {s' : State}
      {d' d'' : δ}
      (hbefore : HooksRun actions driver (hooksAt .before s.hooks) l { s with sync := options.sync }
        d ran trace ((.ok (), l'), s', d'))
      (hpool : driver.answer (.createPool options) d' = (.error e, d'')) :
      ConnectRun options l s d (trace ++ [⟨.createPool options, .error e⟩])
        ((.error e, l'), s', d'')
  | opened {ran ran' : List Hook} {trace trace' : List Exchange} {n : Nat} {l' : σ} {s' : State}
      {d' d'' : δ} {out : (Except DbError Unit × σ) × State × δ}
      (hbefore : HooksRun actions driver (hooksAt .before s.hooks) l { s with sync := options.sync }
        d ran trace ((.ok (), l'), s', d'))
      (hpool : driver.answer (.createPool options) d' = (.ok n, d''))
      (hafter : HooksRun actions driver (hooksAt .after s'.hooks) l' { s' with pool := .open n }
        d'' ran' trace' out) :
      ConnectRun options l s d (trace ++ ⟨.createPool options, .ok n⟩ :: trace') out

/-- A run of hooks, hook by hook. -/
theorem hooksRun_runHooks (hooks : List Hook) (l : σ) (s : State) (d : δ) :
    ∃ ran, HooksRun actions driver hooks l s d ran
      ((runHooks actions hooks).exchanges driver l s d)
      ((runHooks actions hooks).run driver l s d) := by
  induction hooks generalizing l s d with
  | nil => exact ⟨[], .nil l s d⟩
  | cons h hooks ih =>
      rw [runHooks]
      rcases hrun : (h.body.run actions).run driver l s d with ⟨⟨_ | _, l'⟩, s', d'⟩
      · rw [Task.exchanges_bind_of_error hrun, Task.run_bind, hrun]
        exact ⟨[h], .failed hooks hrun⟩
      · obtain ⟨ran, hrest⟩ := ih l' s' d'
        rw [Task.exchanges_bind_of_ok hrun, Task.run_bind_of_ok hrun]
        exact ⟨h :: ran, .next hrun hrest⟩

/-- The hooks of a position run as they are registered when it is their turn. -/
theorem hooksRun_runHooksAt (position : HookPosition) (l : σ) (s : State) (d : δ) :
    ∃ ran, HooksRun actions driver (hooksAt position s.hooks) l s d ran
      ((runHooksAt actions position).exchanges driver l s d)
      ((runHooksAt actions position).run driver l s d) :=
  hooksRun_runHooks actions driver (hooksAt position s.hooks) l s d

/-- What a connect does where none was made before. -/
theorem connectRun_connect (options : ConnectOptions) (l : σ) {s : State} (hs : s.pool = .pending)
    (d : δ) :
    ConnectRun actions driver options l s d ((connect actions options).exchanges driver l s d)
      ((connect actions options).run driver l s d) := by
  have hadmitted : (requirePending : Task σ Unit).run driver l s d = ((.ok (), l), s, d) := by
    rw [run_requirePending, hs, PoolState.admission]
  rw [connect, Task.exchanges_bind_of_ok hadmitted, Task.run_bind_of_ok hadmitted,
    exchanges_requirePending, Task.exchanges_bind_of_ok (Task.run_modify _),
    Task.run_bind_of_ok (Task.run_modify _), Task.exchanges_modify, List.nil_append,
    List.nil_append]
  obtain ⟨ran, hbefore⟩ := hooksRun_runHooksAt actions driver .before l
    { s with sync := options.sync } d
  rcases hrun : (runHooksAt actions .before).run driver l { s with sync := options.sync } d
    with ⟨⟨_ | _, l'⟩, s', d'⟩
  · rw [hrun] at hbefore
    rw [Task.exchanges_bind_of_error hrun, Task.run_bind, hrun]
    exact .stopped hbefore
  · rw [hrun] at hbefore
    rw [Task.exchanges_bind_of_ok hrun, Task.run_bind_of_ok hrun,
      Task.exchanges_bind_of_ok (Task.run_ask _), Task.run_bind_of_ok (Task.run_ask _),
      Task.exchanges_ask]
    rcases hpool : driver.answer (.createPool options) d' with ⟨_ | n, d''⟩
    · exact .refused hbefore hpool
    · obtain ⟨ran', hafter⟩ := hooksRun_runHooksAt actions driver .after l'
        { s' with pool := .open n } d''
      exact .opened hbefore hpool hafter

variable {actions driver} {hooks ran : List Hook} {l : σ} {s : State} {d : δ}
  {trace : List Exchange} {out : (Except DbError Unit × σ) × State × δ}

/-- All hooks ran unless one failed. -/
theorem HooksRun.ran_eq (h : HooksRun actions driver hooks l s d ran trace out)
    (hok : out.1.1 = .ok ()) : ran = hooks := by
  induction h with
  | nil => rfl
  | failed => cases hok
  | next _ _ ih => rw [ih hok]

end Runs

/-! ## Work that leaves the lifecycle alone -/

/-- The lifecycle of a state is that of an earlier one: the pool and the configuration of the
synchronizer are the same, and hooks from outside may have been added. -/
structure State.Retains (s s₀ : State) : Prop where
  pool : s.pool = s₀.pool
  sync : s.sync = s₀.sync
  hooks : ∃ added : List Hook, s.hooks = s₀.hooks ++ added ∧ ∀ h ∈ added, ∃ id, h.body = .custom id

namespace State.Retains

variable {s s' s₀ : State}

theorem refl (s : State) : s.Retains s := ⟨rfl, rfl, [], by simp⟩

theorem trans (h : s.Retains s') (h' : s'.Retains s₀) : s.Retains s₀ := by
  obtain ⟨added, hhooks, hcustom⟩ := h.hooks
  obtain ⟨added', hhooks', hcustom'⟩ := h'.hooks
  refine ⟨h.pool.trans h'.pool, h.sync.trans h'.sync, added' ++ added, ?_, fun h hmem => ?_⟩
  · rw [hhooks, hhooks', List.append_assoc]
  · rcases List.mem_append.1 hmem with hmem | hmem
    · exact hcustom' h hmem
    · exact hcustom h hmem

/-- The lifecycle is retained but for the pool. -/
theorem withPool (h : s.Retains s₀) (pool : PoolState) :
    { s with pool := pool }.Retains { s₀ with pool := pool } := ⟨rfl, h.sync, h.hooks⟩

/-- No hook is forgotten. -/
theorem mem_hooks (h : s.Retains s₀) {hook : Hook} (hmem : hook ∈ s₀.hooks) : hook ∈ s.hooks := by
  obtain ⟨added, hhooks, -⟩ := h.hooks
  rw [hhooks]
  exact List.mem_append_left _ hmem

end State.Retains

/-- Work that leaves the lifecycle alone: it closes no pool and opens none, and it keeps the
configuration of the synchronizer and the registered hooks. -/
structure Task.KeepsLifecycle (t : Task σ α) : Prop where
  respectsPool : t.RespectsPool
  within : ∀ s₀, t.Within (fun s => s.Retains s₀) fun _ => True

namespace Task.KeepsLifecycle

theorem retains {t : Task σ α} (h : t.KeepsLifecycle) {driver : Driver δ} {l l' : σ} {s s' : State}
    {d d' : δ} {result : Except DbError α}
    (hrun : t.run driver l s d = ((result, l'), s', d')) : s'.Retains s := by
  have hkept := ((h.within s).exchanges driver (.refl s) l d).2
  rwa [hrun] at hkept

/-- No pool is granted to work that leaves the lifecycle alone: it would have to open it. -/
theorem created?_eq_none {t : Task σ α} (h : t.KeepsLifecycle) (driver : Driver δ) (l : σ)
    {s : State} (hs : s.pool = .pending) (d : δ) :
    ∀ x ∈ t.exchanges driver l s d, x.created? = none := by
  have hkept := ((h.within s).exchanges driver (.refl s) l d).2
  exact ((h.respectsPool.pending_iff driver l s d).1 (hkept.pool.trans hs)).2.1

end Task.KeepsLifecycle

/-- The synchronizer writes nothing but the contexts of its transaction. -/
theorem HookBody.run_synchronize_within (actions : HookActions σ) {I : State → Prop}
    (hcontexts : ∀ s contexts, I s → I { s with contexts := contexts }) :
    (HookBody.synchronize.run actions).Within I fun _ => True := by
  have hconfig : (Schema.syncConfig : Task σ SyncConfig).Within I fun _ => True :=
    .state_bind fun _ _ => .pure _
  have hsynchronize : (Schema.synchronize none : Task σ SyncReport).Within I fun _ => True := by
    rw [Schema.synchronize_eq]
    exact transaction_within (fun _ _ => trivial) hcontexts fun tx =>
      Schema.reconcile_within trivial fun st => execute_within fun _ => trivial
  refine hconfig.bind fun config => ?_
  split
  · exact hsynchronize.bind fun _ => .pure _
  · exact .pure _

section Keeping

variable {actions : HookActions σ} {driver : Driver δ} {hooks ran : List Hook} {l : σ} {s : State}
  {d : δ} {trace : List Exchange} {out : (Except DbError Unit × σ) × State × δ}
  (hactions : ∀ id, (actions id).KeepsLifecycle)

include hactions

/-- The synchronizer leaves the lifecycle alone, and a hook from outside does if its actions do. -/
theorem HookBody.run_keepsLifecycle (body : HookBody) : (body.run actions).KeepsLifecycle := by
  refine ⟨run_respectsPool (fun id => (hactions id).respectsPool) body, fun s₀ => ?_⟩
  cases body with
  | synchronize => exact run_synchronize_within actions fun s _ hs => ⟨hs.pool, hs.sync, hs.hooks⟩
  | custom id =>
      have hconnected : (isConnected : Task σ Bool).Within (fun s => s.Retains s₀)
          fun _ => True := .state_bind fun _ _ => .pure _
      exact hconnected.bind fun _ => (Task.Within.ask trivial).bind fun answer =>
        (Task.Within.ofExcept answer).bind fun _ => (hactions id).within s₀

/-- What hooks that leave the lifecycle alone leave of it. -/
theorem HooksRun.retains (h : HooksRun actions driver hooks l s d ran trace out) :
    out.2.1.Retains s := by
  induction h with
  | nil l s d => exact .refl s
  | failed hooks hrun => exact (HookBody.run_keepsLifecycle hactions _).retains hrun
  | next hrun _ ih => exact ih.trans ((HookBody.run_keepsLifecycle hactions _).retains hrun)

/-- No pool is granted to hooks that leave the lifecycle alone. -/
theorem HooksRun.created?_eq_none (h : HooksRun actions driver hooks l s d ran trace out)
    (hs : s.pool = .pending) : ∀ x ∈ trace, x.created? = none := by
  induction h with
  | nil => simp
  | failed hooks _ => exact (HookBody.run_keepsLifecycle hactions _).created?_eq_none driver _ hs _
  | next hrun _ ih =>
      have hkept := (HookBody.run_keepsLifecycle hactions _).retains hrun
      intro x hx
      rcases List.mem_append.1 hx with hx | hx
      · exact (HookBody.run_keepsLifecycle hactions _).created?_eq_none driver _ hs _ x hx
      · exact ih (hkept.pool.trans hs) x hx

end Keeping

end Persistence
