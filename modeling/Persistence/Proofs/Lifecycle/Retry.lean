import Persistence.Proofs.Lifecycle.Hooks
import Persistence.Proofs.Program.Handling

/-!
# Connecting again

A connect that fails is to leave things as they were, so that a later one can do all that it did
not.  It does so as long as no pool was granted to it and it came with the configuration of the
synchronizer that was in force.  A connect that fails behind its pool leaves the pool open, and no
later one runs the hooks that are left.

Main results:

- `State.reconnects`: where no pool was created, a connect with hooks and a driver that work runs
  all hooks and succeeds.
- `connect_leaves`: what a connect that failed leaves of the lifecycle.
- `connect_restores_iff`: when a connect that failed leaves things as they were.
- `connect_stuck`: what it leaves otherwise once a pool was granted.
-/

namespace Persistence

variable {σ δ : Type}

/-! ## Connects that work -/

/-- Hooks and a driver that work for a connect from a state, as long as `J` holds of the driver: the
hooks leave the lifecycle alone, none that is registered fails where it runs, the driver grants the
pool, and `J` stays in force. -/
structure Working (actions : HookActions σ) (driver : Driver δ) (J : δ → Prop)
    (options : ConnectOptions) (s : State) : Prop where
  keeps : ∀ id, (actions id).KeepsLifecycle
  hooks : ∀ (pool : PoolState) (s' : State),
    s'.Retains { s with pool := pool, sync := options.sync } →
      ∀ h ∈ s'.hooks, h.position.Finds pool → ∀ l d, J d →
        ((h.body.run actions).run driver l s' d).1.1 = .ok () ∧
          J ((h.body.run actions).run driver l s' d).2.2
  pool : ∀ d, J d → (∃ n, (driver.answer (.createPool options) d).1 = .ok n) ∧
    J (driver.answer (.createPool options) d).2

/-- A connect that succeeds: all hooks of the position before the pool run, the pool is granted and
opened, and all hooks of the position behind it run. -/
inductive Connects (actions : HookActions σ) (driver : Driver δ) (options : ConnectOptions) (l : σ)
    (s : State) (d : δ) : List Exchange → (Except DbError Unit × σ) × State × δ → Prop
  | intro {trace trace' : List Exchange} {n : Nat} {l' l'' : σ} {s' s'' : State}
      {d' d'' d''' : δ}
      (hbefore : HooksRun actions driver (hooksAt .before s.hooks) l { s with sync := options.sync }
        d (hooksAt .before s.hooks) trace ((.ok (), l'), s', d'))
      (hkept : s'.Retains { s with sync := options.sync })
      (hpool : driver.answer (.createPool options) d' = (.ok n, d''))
      (hafter : HooksRun actions driver (hooksAt .after s'.hooks) l' { s' with pool := .open n }
        d'' (hooksAt .after s'.hooks) trace' ((.ok (), l''), s'', d'''))
      (hopened : s''.Retains { s' with pool := .open n }) :
      Connects actions driver options l s d (trace ++ ⟨.createPool options, .ok n⟩ :: trace')
        ((.ok (), l''), s'', d''')

theorem Connects.succeeds {actions : HookActions σ} {driver : Driver δ} {options : ConnectOptions}
    {l : σ} {s : State} {d : δ} {trace : List Exchange}
    {out : (Except DbError Unit × σ) × State × δ}
    (h : Connects actions driver options l s d trace out) : out.1.1 = .ok () := by
  cases h
  rfl

/-- A state from which a connect succeeds, and runs all hooks, whenever hooks and driver work. -/
def State.Reconnects (s : State) : Prop :=
  ∀ {τ δ : Type} (actions : HookActions τ) (driver : Driver δ) (J : δ → Prop)
    (options : ConnectOptions), Working actions driver J options s →
      ∀ l d, J d → Connects actions driver options l s d
        ((connect actions options).exchanges driver l s d)
        ((connect actions options).run driver l s d)

/-- Hooks none of which fails where it runs. -/
theorem HooksRun.succeeds {actions : HookActions σ} {driver : Driver δ} {J : δ → Prop}
    (hactions : ∀ id, (actions id).KeepsLifecycle) {position : HookPosition} {s₀ : State}
    (hwork : ∀ s' : State, s'.Retains s₀ → ∀ h ∈ s'.hooks, h.position = position →
      ∀ l d, J d → ((h.body.run actions).run driver l s' d).1.1 = .ok () ∧
        J ((h.body.run actions).run driver l s' d).2.2)
    {hooks ran : List Hook} {l : σ} {s : State} {d : δ} {trace : List Exchange}
    {out : (Except DbError Unit × σ) × State × δ}
    (h : HooksRun actions driver hooks l s d ran trace out) (hs : s.Retains s₀) (hd : J d)
    (hhooks : ∀ h ∈ hooks, h ∈ s.hooks ∧ h.position = position) :
    out.1.1 = .ok () ∧ J out.2.2 := by
  induction h with
  | nil => exact ⟨rfl, hd⟩
  | @failed h hooks l l' s s' d d' e hrun =>
      obtain ⟨hmem, hposition⟩ := hhooks h List.mem_cons_self
      have hworks := hwork s hs h hmem hposition l d hd
      rwa [hrun] at hworks
  | @next h hooks ran l l' s s' d d' trace out hrun _ ih =>
      obtain ⟨hmem, hposition⟩ := hhooks h List.mem_cons_self
      have hworks := hwork s hs h hmem hposition l d hd
      rw [hrun] at hworks
      have hkept := (h.body.run_keepsLifecycle hactions).retains hrun
      refine ih (hkept.trans hs) hworks.2 fun h hmem => ?_
      obtain ⟨hregistered, hposition⟩ := hhooks h (List.mem_cons_of_mem _ hmem)
      exact ⟨hkept.mem_hooks hregistered, hposition⟩

/-- Where no pool was created, a connect with hooks and a driver that work runs all hooks and
succeeds. -/
theorem State.reconnects {s : State} (hs : s.pool = .pending) : s.Reconnects := by
  intro τ δ actions driver J options hwork l d hd
  have hrun := connectRun_connect actions driver options l hs d
  have hstart : { s with sync := options.sync }.Retains
      { s with pool := .pending, sync := options.sync } := ⟨hs, rfl, [], by simp⟩
  have hbefore : ∀ {ran trace out}, HooksRun actions driver (hooksAt .before s.hooks) l
      { s with sync := options.sync } d ran trace out → out.1.1 = .ok () ∧ J out.2.2 := fun hran =>
    hran.succeeds hwork.keeps
      (fun s' hs' h hmem hposition => hwork.hooks .pending s' hs' h hmem (by rw [hposition]; rfl))
      hstart hd fun h hmem => mem_hooksAt.1 hmem
  generalize (connect actions options).exchanges driver l s d = trace at hrun ⊢
  generalize (connect actions options).run driver l s d = out at hrun ⊢
  cases hrun with
  | stopped hran => cases (hbefore hran).1
  | @refused ran trace e l' s' d' d'' hran hpool =>
      obtain ⟨⟨n, hgranted⟩, -⟩ := hwork.pool d' (hbefore hran).2
      rw [hpool] at hgranted
      cases hgranted
  | @opened ran ran' trace trace' n l' s' d' d'' out hran hpool hran' =>
      have hkept := hran.retains hwork.keeps
      have hd'' : J d'' := by
        have hgranted := (hwork.pool d' (hbefore hran).2).2
        rwa [hpool] at hgranted
      have hafter : out.1.1 = .ok () ∧ J out.2.2 := hran'.succeeds hwork.keeps
        (fun s'' hs'' h hmem hposition =>
          hwork.hooks (.open n) s'' hs'' h hmem (by rw [hposition]; exact ⟨n, rfl⟩))
        (hkept.withPool (.open n)) hd'' fun h hmem => mem_hooksAt.1 hmem
      obtain rfl := hran.ran_eq rfl
      obtain rfl := hran'.ran_eq hafter.1
      obtain ⟨⟨result, l''⟩, s'', d'''⟩ := out
      obtain rfl : result = .ok () := hafter.1
      exact .intro hran hkept hpool hran' (hran'.retains hwork.keeps)

/-- Where the synchronizer is off, hooks that do nothing and a driver that grants everything work
from every state. -/
theorem Working.granting {options : ConnectOptions} (hoff : options.sync.enable = false)
    (s : State) :
    Working (fun _ => (pure () : Task σ Unit)) .granting (fun _ => True) options s where
  keeps _ := ⟨.pure (), fun _ => .pure ()⟩
  hooks pool s' hs' h _ _ l d _ := by
    refine ⟨?_, trivial⟩
    cases h.body with
    | synchronize =>
        have hdisabled : s'.sync.enable = false := by rw [hs'.sync]; exact hoff
        have hconfig : (Schema.syncConfig : Task σ SyncConfig).run .granting l s' d =
            ((.ok (s'.sync.withExceptions s'.exceptTables), l), s', d) := rfl
        rw [HookBody.run, Task.run_bind_of_ok hconfig, SyncConfig.withExceptions, hdisabled]
        rfl
    | custom id => rfl
  pool _ _ := ⟨⟨0, rfl⟩, trivial⟩

/-! ## Connects that fail -/

/-- A state behind a connect that failed is as if the connect had not been tried: no pool is open,
the synchronizer is configured as it was, and a later connect can succeed. -/
structure State.Restores (s₁ s : State) : Prop where
  notConnected : s₁.pool.isOpen = false
  sync : s₁.sync = s.sync
  reconnects : s₁.Reconnects

/-- A state from which every connect fails at once. -/
def State.Stuck (s : State) : Prop :=
  ∀ {τ δ : Type} (actions : HookActions τ) (options : ConnectOptions) (driver : Driver δ) (l : τ)
    (d : δ), (connect actions options).run driver l s d = ((.error .alreadyConnected, l), s, d) ∧
      (connect actions options).exchanges driver l s d = []

/-- A state is as it was for a connect exactly if the pool is pending and the synchronizer is
configured as it was. -/
theorem State.restores_iff {s₁ s : State} :
    s₁.Restores s ↔ s₁.pool = .pending ∧ s₁.sync = s.sync := by
  constructor
  · intro h
    refine ⟨?_, h.sync⟩
    cases hpool : s₁.pool with
    | pending => rfl
    | «open» n =>
        have hconnected := h.notConnected
        rw [hpool] at hconnected
        cases hconnected
    | closed =>
        -- behind a destroy even a connect for which everything works is refused
        have hconnects := h.reconnects (fun _ => pure ()) .granting (fun _ => True) .shop
          (.granting rfl s₁) () () trivial
        have hok := hconnects.succeeds
        rw [(connect_of_admission Driver.granting () () (by rw [hpool]; rfl) _ _).1] at hok
        cases hok
  · rintro ⟨hpool, hsync⟩
    exact ⟨by rw [hpool]; rfl, hsync, State.reconnects hpool⟩

section Failing

variable {actions : HookActions σ} {options : ConnectOptions} {driver : Driver δ} {l l₁ : σ}
  {s s₁ : State} {d d₁ : δ} {e : DbError}

/-- Behind hooks that leave the lifecycle alone, a connect that fails was granted no pool and leaves
none, or it leaves the pool that it was granted.  The synchronizer is configured in either case. -/
theorem connect_leaves (hactions : ∀ id, (actions id).KeepsLifecycle) (hs : s.pool = .pending)
    (hfail : (connect actions options).run driver l s d = ((.error e, l₁), s₁, d₁)) :
    s₁.sync = options.sync ∧
      (((∀ x ∈ (connect actions options).exchanges driver l s d, x.created? = none) ∧
          s₁.pool = .pending) ∨
        ∃ n, (∃ x ∈ (connect actions options).exchanges driver l s d, x.created? = some n) ∧
          s₁.pool = .open n) := by
  have hrun := connectRun_connect actions driver options l hs d
  rw [hfail] at hrun
  generalize (connect actions options).exchanges driver l s d = trace at hrun ⊢
  cases hrun with
  | stopped hbefore =>
      have hkept := hbefore.retains hactions
      exact ⟨hkept.sync, .inl ⟨hbefore.created?_eq_none hactions hs, hkept.pool.trans hs⟩⟩
  | refused hbefore hpool =>
      have hkept := hbefore.retains hactions
      refine ⟨hkept.sync, .inl ⟨fun x hx => ?_, hkept.pool.trans hs⟩⟩
      rcases List.mem_append.1 hx with hx | hx
      · exact hbefore.created?_eq_none hactions hs x hx
      · obtain rfl := List.mem_singleton.1 hx
        rfl
  | opened hbefore hpool hafter =>
      have hkept := hafter.retains hactions
      exact ⟨hkept.sync.trans (hbefore.retains hactions).sync,
        .inr ⟨_, ⟨_, List.mem_append_right _ List.mem_cons_self, rfl⟩, hkept.pool⟩⟩

/-- A connect that failed leaves things as they were exactly if no pool was granted and none closed
meanwhile and the synchronizer is configured as it was.  Behind hooks that leave the lifecycle
alone, that is so exactly if no pool was granted to the connect and it came with the configuration
that was in force. -/
theorem connect_restores_iff (hactions : ∀ id, (actions id).RespectsPool) (hs : s.pool = .pending)
    (hfail : (connect actions options).run driver l s d = ((.error e, l₁), s₁, d₁)) :
    (s₁.Restores s ↔ s₁.sync = s.sync ∧
      (∀ x ∈ (connect actions options).exchanges driver l s d, x.created? = none) ∧
      ∀ s' ∈ (connect actions options).writes driver l s d, s'.pool ≠ .closed) ∧
    ((∀ id, (actions id).KeepsLifecycle) →
      (s₁.Restores s ↔ options.sync = s.sync ∧
        ∀ x ∈ (connect actions options).exchanges driver l s d, x.created? = none)) := by
  constructor
  · have hpending := (connect_respectsPool hactions options).pending_iff driver l s d
    rw [hfail] at hpending
    rw [State.restores_iff, hpending]
    constructor
    · rintro ⟨⟨-, hnone, hopen⟩, hsync⟩
      exact ⟨hsync, hnone, hopen⟩
    · rintro ⟨hsync, hnone, hopen⟩
      exact ⟨⟨hs, hnone, hopen⟩, hsync⟩
  · intro hkeeps
    rw [State.restores_iff]
    obtain ⟨hsync, ⟨hnone, hpool⟩ | ⟨n, ⟨x, hx, hgranted⟩, hpool⟩⟩ :=
      connect_leaves hkeeps hs hfail
    · rw [hsync]
      exact ⟨fun h => ⟨h.2, hnone⟩, fun h => ⟨hpool, h.1⟩⟩
    · constructor
      · rintro ⟨hpending, -⟩
        cases hpool.symm.trans hpending
      · rintro ⟨-, hnone⟩
        cases hgranted.symm.trans (hnone x hx)

/-- Behind a connect that failed with a pool, every connect fails at once. -/
theorem connect_stuck (hactions : ∀ id, (actions id).KeepsLifecycle) (hs : s.pool = .pending)
    (hfail : (connect actions options).run driver l s d = ((.error e, l₁), s₁, d₁)) {x : Exchange}
    {n : Nat} (hx : x ∈ (connect actions options).exchanges driver l s d)
    (hgranted : x.created? = some n) : s₁.pool.isOpen = true ∧ s₁.Stuck := by
  obtain ⟨-, ⟨hnone, -⟩ | ⟨m, -, hpool⟩⟩ := connect_leaves hactions hs hfail
  · cases hgranted.symm.trans (hnone x hx)
  · refine ⟨by rw [hpool]; rfl, ?_⟩
    intro τ δ actions' options' driver' l' d'
    exact connect_of_admission driver' l' d' (by rw [hpool]; rfl) actions' options'

end Failing

/-- A hook before the pool fails, and the connect leaves things as they were: the next one runs all
hooks and succeeds. -/
theorem connect_restores_hooked :
    (connect (fun _ => Task.fail (.connection "not today")) .shop : Task Unit Unit).run .granting
        () .hooked () = ((.error (.connection "not today"), ()), .hooked, ()) ∧
      State.hooked.Restores .hooked ∧
      Connects (fun _ => pure ()) .granting .shop () .hooked ()
        ((connect (fun _ => pure ()) .shop : Task Unit Unit).exchanges .granting () .hooked ())
        ((connect (fun _ => pure ()) .shop : Task Unit Unit).run .granting () .hooked ()) := by
  have hfail : (connect (fun _ => Task.fail (.connection "not today")) .shop :
      Task Unit Unit).run .granting () .hooked () =
        ((.error (.connection "not today"), ()), .hooked, ()) := by
    with_unfolding_all rfl
  have htrace : (connect (fun _ => Task.fail (.connection "not today")) .shop :
      Task Unit Unit).exchanges .granting () .hooked () = [⟨.hook 0 false, .ok ()⟩] := by
    with_unfolding_all rfl
  have hrestores : State.hooked.Restores .hooked := by
    refine ((connect_restores_iff (fun _ => .fail _) rfl hfail).2
      fun _ => ⟨.fail _, fun _ => .fail _⟩).2 ⟨rfl, ?_⟩
    rw [htrace]
    simp [Exchange.created?, Request.created?]
  exact ⟨hfail, hrestores, hrestores.reconnects _ _ _ _ (.granting rfl _) () () trivial⟩

/-- The driver that has no connection to spare, and grants everything else. -/
def Driver.exhausted : Driver Unit where
  answer r _ :=
    match r with
    | .acquire _ => (.error (.connection "too many connections"), ())
    | r => (r.granted, ())

/-- The options of a connect with the synchronizer on. -/
def ConnectOptions.syncing : ConnectOptions :=
  { ConnectOptions.shop with sync := { SyncConfig.off with enable := true } }

/-- The synchronizer fails behind the pool: the pool stays open, the next connect fails at once, and
the tables are never synchronized.  A hook fails before the pool: the configuration of the
synchronizer is not what it was. -/
theorem connect_half_open :
    (connect (fun _ => pure ()) .syncing : Task Unit Unit).run .exhausted () .initial () =
        ((.error (.connection "too many connections"), ()),
          { State.initial with pool := .open 0, sync := ConnectOptions.syncing.sync }, ()) ∧
      ¬ State.Restores
        { State.initial with pool := .open 0, sync := ConnectOptions.syncing.sync } .initial ∧
      State.Stuck { State.initial with pool := .open 0, sync := ConnectOptions.syncing.sync } ∧
      (connect (fun _ => Task.fail (.connection "not today")) .syncing : Task Unit Unit).run
          .granting () .hooked () =
        ((.error (.connection "not today"), ()),
          { State.hooked with sync := ConnectOptions.syncing.sync }, ()) ∧
      ¬ State.Restores { State.hooked with sync := ConnectOptions.syncing.sync } .hooked := by
  refine ⟨by with_unfolding_all rfl, fun h => ?_, ?_, by with_unfolding_all rfl, fun h => ?_⟩
  · exact absurd h.notConnected (by decide)
  · intro τ δ actions options driver l d
    exact connect_of_admission driver l d rfl actions options
  · exact absurd h.sync (by decide)

end Persistence
