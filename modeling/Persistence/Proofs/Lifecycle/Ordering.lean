import Mathlib.Data.List.Perm.Basic
import Persistence.Proofs.Lifecycle.Hooks

/-!
# The order of the hooks

The stages of a connect are the hooks before the pool, the pool, and the hooks behind it.  The hooks
of one position stand by ascending priority, and hooks of equal priority as they were registered.
Each hook is told apart by its number in the order of registration, so that a hook that is
registered twice is two hooks.

A connect goes through its stages up to the first one that fails, if its hooks neither register
hooks nor touch the pool.

Main results:

- `runningOrder_hooksAt`: the hooks of a position run in a running order, since the sort is stable.
- `RunningOrder.eq`: there is only one.
- `StagesRun.goesThrough`: a run of stages goes through them up to the first failure.
- `connect_goes_through_stages`: what a connect goes through behind any registrations.
-/

namespace Persistence

open scoped List

variable {σ δ : Type}

/-! ## Running orders -/

/-- A hook with its number in the order of registration. -/
abbrev NumberedHook := Hook × Nat

/-- Whether a hook runs before another one of the same position. -/
def NumberedHook.Precedes (x y : NumberedHook) : Prop :=
  x.1.priority < y.1.priority ∨ x.1.priority = y.1.priority ∧ x.2 < y.2

/-- The hooks of a position by ascending priority, and by number where the priority is equal. -/
structure RunningOrder (position : HookPosition) (hooks : List Hook) (order : List NumberedHook) :
    Prop where
  ascending : order.Pairwise NumberedHook.Precedes
  mem_iff : ∀ h n, (h, n) ∈ order ↔ hooks[n]? = some h ∧ h.position = position

namespace RunningOrder

variable {position : HookPosition} {hooks : List Hook} {order order' : List NumberedHook}

/-- No hook stands twice in a running order. -/
theorem nodup (h : RunningOrder position hooks order) : order.Nodup := by
  refine h.ascending.imp fun {x y} hxy heq => ?_
  subst heq
  rcases hxy with hlt | ⟨-, hlt⟩
  · exact lt_irrefl _ hlt
  · exact lt_irrefl _ hlt

/-- There is one running order only. -/
theorem eq (h : RunningOrder position hooks order) (h' : RunningOrder position hooks order') :
    order = order' := by
  refine List.Perm.eq_of_pairwise (fun x y _ _ hxy hyx => ?_) h.ascending h'.ascending ?_
  · rcases hxy with hlt | ⟨heq, hlt⟩ <;> rcases hyx with hlt' | ⟨heq', hlt'⟩ <;> omega
  · rw [List.perm_ext_iff_of_nodup h.nodup h'.nodup]
    rintro ⟨hook, n⟩
    rw [h.mem_iff, h'.mem_iff]

end RunningOrder

/-- The comparison by which hooks are sorted. -/
def NumberedHook.atMost (x y : NumberedHook) : Bool := x.1.priority ≤ y.1.priority

theorem NumberedHook.atMost_trans (x y z : NumberedHook) (hxy : x.atMost y = true)
    (hyz : y.atMost z = true) : x.atMost z = true := by
  simp only [atMost, decide_eq_true_eq] at *
  exact hxy.trans hyz

theorem NumberedHook.atMost_total (x y : NumberedHook) : (x.atMost y || y.atMost x) = true := by
  simp only [atMost, Bool.or_eq_true, decide_eq_true_eq]
  exact le_total _ _

/-- The numbered hooks of a position, sorted as the hooks are. -/
def numberedHooksAt (position : HookPosition) (hooks : List Hook) : List NumberedHook :=
  (hooks.zipIdx.filter fun x => x.1.position = position).mergeSort NumberedHook.atMost

section Sorting

variable (position : HookPosition) (hooks : List Hook)

/-- The numbers do not change the order in which the hooks run. -/
theorem map_fst_numberedHooksAt :
    (numberedHooksAt position hooks).map Prod.fst = hooksAt position hooks := by
  have hfilter : (hooks.zipIdx.filter fun x => x.1.position = position).map Prod.fst =
      hooks.filter fun h => h.position = position := by
    conv_rhs => rw [← List.zipIdx_map_fst 0 hooks, List.filter_map]
    rfl
  have hmap := List.map_mergeSort (r := NumberedHook.atMost) (s := fun a b : Hook =>
    decide (a.priority ≤ b.priority)) (f := Prod.fst)
    (l := hooks.zipIdx.filter fun x => x.1.position = position) fun _ _ _ _ => rfl
  rw [numberedHooksAt, hmap, hfilter, hooksAt]

theorem mem_numberedHooksAt (h : Hook) (n : Nat) :
    (h, n) ∈ numberedHooksAt position hooks ↔ hooks[n]? = some h ∧ h.position = position := by
  simp [numberedHooksAt, List.mk_mem_zipIdx_iff_getElem?]

private theorem pairwise_number_zipIdx :
    hooks.zipIdx.Pairwise fun x y : NumberedHook => x.2 < y.2 := by
  have hnumbers : (hooks.zipIdx.map Prod.snd).Pairwise (· < ·) := by
    rw [List.zipIdx_map_snd]
    exact List.pairwise_lt_range' 1
  exact List.pairwise_map.1 hnumbers

/-- Sorting by priority leaves the members of one priority as they stand. -/
private theorem filter_priority_mergeSort (p : Int) (xs : List NumberedHook) :
    (xs.mergeSort NumberedHook.atMost).filter (fun x => x.1.priority = p) =
      xs.filter fun x => x.1.priority = p := by
  set ofPriority : NumberedHook → Bool := fun x => decide (x.1.priority = p) with hdef
  -- They are sorted already, so that they survive the sort as a sublist; and no more come in.
  have hsorted : (xs.filter ofPriority).Pairwise fun x y => x.atMost y = true := by
    refine List.pairwise_of_forall_mem_list fun x hx y hy => ?_
    have hx' : x.1.priority = p := by simpa [hdef] using (List.mem_filter.1 hx).2
    have hy' : y.1.priority = p := by simpa [hdef] using (List.mem_filter.1 hy).2
    simp [NumberedHook.atMost, hx', hy']
  have hsub : xs.filter ofPriority <+ xs.mergeSort NumberedHook.atMost :=
    List.sublist_mergeSort NumberedHook.atMost_trans NumberedHook.atMost_total hsorted
      List.filter_sublist
  have hkept : xs.filter ofPriority <+ (xs.mergeSort NumberedHook.atMost).filter ofPriority := by
    simpa only [List.filter_filter, Bool.and_self] using hsub.filter ofPriority
  have hperm := (List.mergeSort_perm xs NumberedHook.atMost).filter ofPriority
  exact (hkept.eq_of_length_le hperm.length_eq.le).symm

/-- The hooks of a position run in a running order: the sort is stable. -/
theorem runningOrder_hooksAt : RunningOrder position hooks (numberedHooksAt position hooks) := by
  refine ⟨List.pairwise_iff_forall_sublist.2 fun {x y} hxy => ?_,
    mem_numberedHooksAt position hooks⟩
  have hsorted : x.atMost y = true := List.pairwise_iff_forall_sublist.1
    (List.pairwise_mergeSort NumberedHook.atMost_trans NumberedHook.atMost_total _) hxy
  rcases (of_decide_eq_true hsorted).lt_or_eq with hlt | heq
  · exact .inl hlt
  -- Two hooks of one priority stand in the sorted list as in the list that was sorted.
  have hclass := hxy.filter fun z => decide (z.1.priority = y.1.priority)
  rw [List.filter_cons_of_pos (by simpa using heq), List.filter_cons_of_pos (by simp),
    List.filter_nil, numberedHooksAt, filter_priority_mergeSort] at hclass
  have hnumbered : [x, y] <+ hooks.zipIdx :=
    (hclass.trans List.filter_sublist).trans List.filter_sublist
  exact .inr ⟨heq, List.pairwise_iff_forall_sublist.1 (pairwise_number_zipIdx hooks) hnumbered⟩

end Sorting

/-! ## Stages -/

/-- A stage of a connect. -/
inductive Stage
  | hook (x : NumberedHook)
  | pool
deriving DecidableEq

/-- What is done in a stage. -/
def Stage.task (actions : HookActions σ) (options : ConnectOptions) : Stage → Task σ Unit
  | hook x => x.1.body.run actions
  | pool => do
      let pool ← Task.ofExcept (← Task.ask (.createPool options))
      Task.modify fun state => { state with pool := .open pool }

/-- A stage that had its turn: the pool that it found, what it exchanged and how it ended. -/
structure Turn where
  stage : Stage
  found : PoolState
  trace : List Exchange
  result : Except DbError Unit

/-- The turns go through the stages in order, up to the first one that fails: its error is the
result. -/
structure GoesThrough (stages : List Stage) (turns : List Turn) (result : Except DbError Unit) :
    Prop where
  in_order : turns.map Turn.stage <+: stages
  all_of_ok : result = .ok () →
    turns.map Turn.stage = stages ∧ ∀ turn ∈ turns, turn.result = .ok ()
  first_failure : ∀ e, result = .error e → ∃ done failed, turns = done ++ [failed] ∧
    failed.result = .error e ∧ ∀ turn ∈ done, turn.result = .ok ()

theorem HookPosition.Finds.isOpen {position : HookPosition} {pool : PoolState}
    (h : position.Finds pool) : pool.isOpen = decide (position = .after) := by
  cases position with
  | before =>
      cases h
      rfl
  | after =>
      obtain ⟨n, rfl⟩ := h
      rfl

/-- A turn is what its stage promises: a hook finds the pool that it may rely on and is announced
so if it is from outside, and the pool is asked for once. -/
def Turn.Apt (options : ConnectOptions) (turn : Turn) : Prop :=
  match turn.stage with
  | .hook x => x.1.position.Finds turn.found ∧ ∀ id, x.1.body = .custom id →
      ∃ answer rest, turn.trace = ⟨.hook id (x.1.position = .after), answer⟩ :: rest
  | .pool => turn.found = .pending ∧ ∃ answer, turn.trace = [⟨.createPool options, answer⟩]

section Runs

variable (actions : HookActions σ) (driver : Driver δ) (options : ConnectOptions)

/-- Stages have their turns one after the other until one fails. -/
inductive StagesRun : (stages : List Stage) → (l : σ) → (s : State) → (d : δ) → List Turn →
    (Except DbError Unit × σ) × State × δ → Prop
  | nil (l : σ) (s : State) (d : δ) : StagesRun [] l s d [] ((.ok (), l), s, d)
  | failed {stage : Stage} (stages : List Stage) {l l' : σ} {s s' : State} {d d' : δ} {e : DbError}
      (hrun : (stage.task actions options).run driver l s d = ((.error e, l'), s', d')) :
      StagesRun (stage :: stages) l s d
        [⟨stage, s.pool, (stage.task actions options).exchanges driver l s d, .error e⟩]
        ((.error e, l'), s', d')
  | next {stage : Stage} {stages : List Stage} {turns : List Turn} {l l' : σ} {s s' : State}
      {d d' : δ} {out : (Except DbError Unit × σ) × State × δ}
      (hrun : (stage.task actions options).run driver l s d = ((.ok (), l'), s', d'))
      (hrest : StagesRun stages l' s' d' turns out) :
      StagesRun (stage :: stages) l s d
        (⟨stage, s.pool, (stage.task actions options).exchanges driver l s d, .ok ()⟩ :: turns) out

variable {actions driver options} {stages stages' : List Stage} {l l' : σ} {s s' : State}
  {d d' : δ} {turns turns' : List Turn} {out : (Except DbError Unit × σ) × State × δ}

namespace StagesRun

/-- What a run of stages went through. -/
theorem goesThrough (h : StagesRun actions driver options stages l s d turns out) :
    GoesThrough stages turns out.1.1 := by
  induction h with
  | nil => exact ⟨List.prefix_rfl, fun _ => ⟨rfl, by simp⟩, fun e he => by cases he⟩
  | failed stages _ =>
      refine ⟨(List.prefix_cons_inj _).2 List.nil_prefix, fun hok => (by cases hok), ?_⟩
      rintro e he
      cases he
      exact ⟨[], _, rfl, rfl, by simp⟩
  | next _ _ ih =>
      refine ⟨(List.prefix_cons_inj _).2 ih.in_order, fun hok => ?_, fun e he => ?_⟩
      · obtain ⟨hstages, hresults⟩ := ih.all_of_ok hok
        exact ⟨congrArg _ hstages, List.forall_mem_cons.2 ⟨rfl, hresults⟩⟩
      · obtain ⟨done, failed, rfl, hfailed, hdone⟩ := ih.first_failure e he
        exact ⟨_ :: done, failed, rfl, hfailed, List.forall_mem_cons.2 ⟨rfl, hdone⟩⟩

/-- Further stages run behind stages that all succeeded. -/
theorem append
    (h : StagesRun actions driver options stages l s d turns ((.ok (), l'), s', d'))
    (h' : StagesRun actions driver options stages' l' s' d' turns' out) :
    StagesRun actions driver options (stages ++ stages') l s d (turns ++ turns') out := by
  generalize hmid : (((.ok (), l'), s', d') : (Except DbError Unit × σ) × State × δ) = mid at h
  induction h with
  | nil => cases hmid; exact h'
  | failed => cases hmid
  | next hrun _ ih => exact .next hrun (ih hmid)

/-- Further stages have no turn behind a failure. -/
theorem append_of_error {e : DbError}
    (h : StagesRun actions driver options stages l s d turns ((.error e, l'), s', d'))
    (stages' : List Stage) :
    StagesRun actions driver options (stages ++ stages') l s d turns ((.error e, l'), s', d') := by
  generalize hmid : (((.error e, l'), s', d') : (Except DbError Unit × σ) × State × δ) = mid at h ⊢
  induction h with
  | nil => cases hmid
  | failed stages hrun => exact .failed _ hrun
  | next hrun _ ih => exact .next hrun (ih hmid)

end StagesRun

namespace Stage

/-- The pool is asked for once. -/
theorem exchanges_pool (actions : HookActions σ) :
    (pool.task actions options).exchanges driver l s d =
      [⟨.createPool options, (driver.answer (.createPool options) d).1⟩] := by
  rw [task, Task.exchanges_bind_of_ok (Task.run_ask _), Task.exchanges_ask]
  cases (driver.answer (.createPool options) d).1 <;> rfl

/-- A pool that is granted is opened. -/
theorem run_pool_of_ok {n : Nat} (h : driver.answer (.createPool options) d = (.ok n, d')) :
    (pool.task actions options).run driver l s d =
      ((.ok (), l), { s with pool := .open n }, d') := by
  rw [task, Task.run_bind_of_ok (Task.run_ask _), h]
  rfl

/-- A refusal of the pool is the failure. -/
theorem run_pool_of_error {e : DbError}
    (h : driver.answer (.createPool options) d = (.error e, d')) :
    (pool.task actions options).run driver l s d = ((.error e, l), s, d') := by
  rw [task, Task.run_bind_of_ok (Task.run_ask _), h]
  rfl

end Stage

/-- Numbered hooks have their turns as the hooks run. -/
theorem HooksRun.stagesRun {hooks ran : List Hook} {trace : List Exchange}
    (h : HooksRun actions driver hooks l s d ran trace out) {order : List NumberedHook}
    (horder : order.map Prod.fst = hooks) :
    ∃ turns, StagesRun actions driver options (order.map Stage.hook) l s d turns out ∧
      turns.flatMap Turn.trace = trace := by
  induction h generalizing order with
  | nil l s d =>
      rw [List.map_eq_nil_iff] at horder
      subst horder
      exact ⟨[], .nil l s d, rfl⟩
  | failed hooks hrun =>
      obtain ⟨x, order, rfl, rfl, -⟩ := List.map_eq_cons_iff.1 horder
      have hturn : ((Stage.hook x).task actions options).run driver _ _ _ = _ := hrun
      exact ⟨_, .failed _ hturn, List.flatMap_singleton _ _⟩
  | next hrun _ ih =>
      obtain ⟨x, order, rfl, rfl, hrest⟩ := List.map_eq_cons_iff.1 horder
      obtain ⟨turns, hturns, htrace⟩ := ih hrest
      have hturn : ((Stage.hook x).task actions options).run driver _ _ _ = _ := hrun
      refine ⟨_ :: turns, .next hturn hturns, ?_⟩
      rw [List.flatMap_cons, htrace]
      rfl

theorem run_isConnected (driver : Driver δ) (l : σ) (s : State) (d : δ) :
    (isConnected : Task σ Bool).run driver l s d = ((.ok s.pool.isOpen, l), s, d) := rfl

/-- A hook from outside is announced with what it finds before it does anything. -/
theorem HookBody.exchanges_run_custom (id : Nat) :
    ∃ answer rest, ((HookBody.custom id).run actions).exchanges driver l s d =
      ⟨.hook id s.pool.isOpen, answer⟩ :: rest := by
  rw [HookBody.run, Task.exchanges_bind_of_ok (run_isConnected driver l s d),
    Task.exchanges_bind_of_ok (Task.run_ask _), Task.exchanges_ask]
  exact ⟨_, _, rfl⟩

end Runs

/-! ## Hooks that neither register hooks nor touch the pool -/

/-- The actions of the hooks from outside leave the pool and the registered hooks as they are. -/
def HookActions.KeepHooks (actions : HookActions σ) (driver : Driver δ) : Prop :=
  ∀ id l s d, ((actions id).run driver l s d).2.1.pool = s.pool ∧
    ((actions id).run driver l s d).2.1.hooks = s.hooks

section Keeping

variable {actions : HookActions σ} {driver : Driver δ} {options : ConnectOptions}
  (hactions : actions.KeepHooks driver)

include hactions

/-- No hook touches the pool or the hooks if those from outside do not. -/
theorem HookBody.run_keepHooks (body : HookBody) (l : σ) (s : State) (d : δ) :
    ((body.run actions).run driver l s d).2.1.pool = s.pool ∧
      ((body.run actions).run driver l s d).2.1.hooks = s.hooks := by
  cases body with
  | synchronize =>
      have hwithin := run_synchronize_within actions (I := fun s' : State =>
        s'.pool = s.pool ∧ s'.hooks = s.hooks) fun _ _ h => h
      exact (hwithin.exchanges driver ⟨rfl, rfl⟩ l d).2
  | custom id =>
      rw [HookBody.run, Task.run_bind_of_ok (run_isConnected driver l s d),
        Task.run_bind_of_ok (Task.run_ask _)]
      rcases hanswer : driver.answer (.hook id s.pool.isOpen) d with ⟨_ | _, d'⟩
      · exact ⟨rfl, rfl⟩
      · exact hactions id l s d'

/-- Hooks that touch neither find what was there at the start, and leave it. -/
theorem StagesRun.keepHooks {order : List NumberedHook} {l : σ} {s : State} {d : δ}
    {turns : List Turn} {out : (Except DbError Unit × σ) × State × δ}
    (h : StagesRun actions driver options (order.map Stage.hook) l s d turns out) :
    (∀ turn ∈ turns, turn.found = s.pool ∧ ∃ x ∈ order, turn.stage = .hook x ∧
      ∀ id, x.1.body = .custom id →
        ∃ answer rest, turn.trace = ⟨.hook id s.pool.isOpen, answer⟩ :: rest) ∧
      out.2.1.pool = s.pool ∧ out.2.1.hooks = s.hooks := by
  generalize hstages : order.map Stage.hook = stages at h
  induction h generalizing order with
  | nil => exact ⟨by simp, rfl, rfl⟩
  | @failed stage stages l _ s _ d _ _ hrun =>
      obtain ⟨x, order, rfl, rfl, -⟩ := List.map_eq_cons_iff.1 hstages
      have hkept := HookBody.run_keepHooks hactions x.1.body l s d
      rw [show (x.1.body.run actions).run driver l s d = _ from hrun] at hkept
      refine ⟨List.forall_mem_singleton.2 ⟨rfl, x, by simp, rfl, fun id hid => ?_⟩, hkept⟩
      rw [Stage.task, hid]
      exact HookBody.exchanges_run_custom id
  | @next stage stages turns l _ s _ d _ _ hrun _ ih =>
      obtain ⟨x, order, rfl, rfl, hrest⟩ := List.map_eq_cons_iff.1 hstages
      obtain ⟨hpool, hhooks⟩ := HookBody.run_keepHooks hactions x.1.body l s d
      rw [show (x.1.body.run actions).run driver l s d = _ from hrun] at hpool hhooks
      obtain ⟨hturns, hout⟩ := ih hrest
      rw [hpool, hhooks] at hout
      refine ⟨List.forall_mem_cons.2 ⟨⟨rfl, x, by simp, rfl, fun id hid => ?_⟩,
        fun turn hmem => ?_⟩, hout⟩
      · rw [Stage.task, hid]
        exact HookBody.exchanges_run_custom id
      · obtain ⟨hfound, y, hy, hstage, hannounced⟩ := hturns turn hmem
        rw [hpool] at hfound hannounced
        exact ⟨hfound, y, List.mem_cons_of_mem _ hy, hstage, hannounced⟩

end Keeping

/-! ## Connects behind registrations -/

/-- Registering hooks puts them behind those that are registered, and exchanges nothing. -/
theorem run_forM_addHook (driver : Driver δ) (registered : List Hook) (l : σ) (s : State) (d : δ) :
    (registered.forM addHook : Task σ Unit).run driver l s d =
        ((.ok (), l), { s with hooks := s.hooks ++ registered }, d) ∧
      (registered.forM addHook : Task σ Unit).exchanges driver l s d = [] := by
  induction registered generalizing s with
  | nil => exact ⟨by rw [List.append_nil]; rfl, rfl⟩
  | cons h registered ih =>
      obtain ⟨hrun, htrace⟩ := ih { s with hooks := s.hooks ++ [h] }
      have hadd : (addHook h : Task σ Unit).run driver l s d =
          ((.ok (), l), { s with hooks := s.hooks ++ [h] }, d) := rfl
      have hcons : ((h :: registered).forM addHook : Task σ Unit) =
          addHook h >>= fun _ => registered.forM addHook := rfl
      rw [hcons, Task.run_bind_of_ok hadd, Task.exchanges_bind_of_ok hadd, hrun, htrace,
        List.append_assoc]
      exact ⟨rfl, rfl⟩

/-- The stages of a connect. -/
def stagesOf (before after : List NumberedHook) : List Stage :=
  before.map Stage.hook ++ Stage.pool :: after.map Stage.hook

/-- No stage comes twice. -/
theorem nodup_stagesOf {hooks : List Hook} {before after : List NumberedHook}
    (hbefore : RunningOrder .before hooks before) (hafter : RunningOrder .after hooks after) :
    (stagesOf before after).Nodup := by
  have hinjective : Function.Injective Stage.hook := fun x y h => by injection h
  rw [stagesOf, List.nodup_append, List.nodup_cons]
  refine ⟨hbefore.nodup.map hinjective, ⟨by simp, hafter.nodup.map hinjective⟩, ?_⟩
  intro stage hstage stage' hstage' heq
  obtain ⟨⟨h, n⟩, hx, rfl⟩ := List.mem_map.1 hstage
  rcases List.mem_cons.1 hstage' with rfl | hstage'
  · cases heq
  · obtain ⟨x, hx', rfl⟩ := List.mem_map.1 hstage'
    cases hinjective heq
    have hposition := ((hbefore.mem_iff h n).1 hx).2
    rw [((hafter.mem_iff h n).1 hx').2] at hposition
    cases hposition

section Connecting

variable {actions : HookActions σ} {driver : Driver δ} {options : ConnectOptions} {l : σ}
  {s : State} {d : δ} {turns : List Turn} {out : (Except DbError Unit × σ) × State × δ}
  (hactions : actions.KeepHooks driver)

include hactions

/-- The hooks of a position have apt turns where the pool is as they may rely on. -/
theorem RunningOrder.apt {position : HookPosition} {hooks : List Hook} {order : List NumberedHook}
    (horder : RunningOrder position hooks order) (hpool : position.Finds s.pool)
    (h : StagesRun actions driver options (order.map Stage.hook) l s d turns out) :
    ∀ turn ∈ turns, turn.Apt options := by
  intro turn hmem
  obtain ⟨hfound, ⟨hook, n⟩, hx, hstage, hannounced⟩ := (h.keepHooks hactions).1 turn hmem
  obtain ⟨-, hposition⟩ := (horder.mem_iff hook n).1 hx
  rw [Turn.Apt, hstage]
  dsimp only
  rw [hposition, hfound, ← hpool.isOpen]
  exact ⟨hpool, hannounced⟩

/-- A connect from where none was made goes through its stages. -/
theorem stagesRun_connect (options : ConnectOptions) (l : σ) (hs : s.pool = .pending) (d : δ)
    {before after : List NumberedHook}
    (hbefore : RunningOrder .before s.hooks before) (hafter : RunningOrder .after s.hooks after) :
    ∃ turns, StagesRun actions driver options (stagesOf before after) l
        { s with sync := options.sync } d turns ((connect actions options).run driver l s d) ∧
      turns.flatMap Turn.trace = (connect actions options).exchanges driver l s d ∧
      ∀ turn ∈ turns, turn.Apt options := by
  obtain rfl := hbefore.eq (runningOrder_hooksAt .before s.hooks)
  obtain rfl := hafter.eq (runningOrder_hooksAt .after s.hooks)
  have hpending : HookPosition.before.Finds { s with sync := options.sync }.pool := hs
  -- The turn of the pool behind hooks that left it pending.
  have hpoolApt : ∀ l' s' d' result, s'.pool = s.pool → Turn.Apt options
      ⟨.pool, s'.pool, (Stage.pool.task actions options).exchanges driver l' s' d', result⟩ :=
    fun l' s' d' result hkept => ⟨hkept.trans hs, _, Stage.exchanges_pool actions⟩
  have hconnect := connectRun_connect actions driver options l hs d
  generalize (connect actions options).exchanges driver l s d = trace,
    (connect actions options).run driver l s d = out at hconnect
  cases hconnect with
  | stopped hran =>
      obtain ⟨turns, hturns, htrace⟩ := hran.stagesRun (map_fst_numberedHooksAt .before s.hooks)
      exact ⟨turns, hturns.append_of_error _, htrace, hbefore.apt hactions hpending hturns⟩
  | @refused _ _ _ l' s' d' _ hran hpool =>
      obtain ⟨turns, hturns, rfl⟩ := hran.stagesRun (map_fst_numberedHooksAt .before s.hooks)
      obtain ⟨-, hkept, -⟩ := hturns.keepHooks hactions
      refine ⟨_, hturns.append (.failed _ (Stage.run_pool_of_error hpool)), ?_,
        List.forall_mem_append.2 ⟨hbefore.apt hactions hpending hturns,
          List.forall_mem_singleton.2 (hpoolApt _ _ _ _ hkept)⟩⟩
      rw [List.flatMap_append, List.flatMap_singleton, Stage.exchanges_pool, hpool]
  | @opened _ _ _ _ n l' s' d' d'' _ hran hpool hran' =>
      obtain ⟨turns, hturns, rfl⟩ := hran.stagesRun (map_fst_numberedHooksAt .before s.hooks)
      obtain ⟨-, hkept, hhooks⟩ := hturns.keepHooks hactions
      have hsame : (numberedHooksAt .after s.hooks).map Prod.fst = hooksAt .after s'.hooks := by
        rw [show s'.hooks = s.hooks from hhooks, map_fst_numberedHooksAt]
      obtain ⟨turns', hturns', rfl⟩ := hran'.stagesRun hsame
      refine ⟨_, hturns.append (.next (Stage.run_pool_of_ok hpool) hturns'), ?_,
        List.forall_mem_append.2 ⟨hbefore.apt hactions hpending hturns,
          List.forall_mem_cons.2 ⟨hpoolApt _ _ _ _ hkept,
            hafter.apt hactions (s := { s' with pool := .open n }) ⟨n, rfl⟩ hturns'⟩⟩⟩
      rw [List.flatMap_append, List.flatMap_cons, Stage.exchanges_pool, hpool,
        List.singleton_append]

/-- A connect behind any registrations goes through the hooks before the pool, the pool, and the
hooks behind it, in their running order and up to the first failure.  The synchronizer counts as
the hook that was registered first. -/
theorem connect_goes_through_stages (options : ConnectOptions) (l : σ) (hs : s.pool = .pending)
    (hbuiltin : s.hooks = State.initial.hooks) (d : δ) (registered : List Hook) :
    ∃ before after turns,
      RunningOrder .before (State.initial.hooks ++ registered) before ∧
      RunningOrder .after (State.initial.hooks ++ registered) after ∧
      (stagesOf before after).Nodup ∧
      StagesRun actions driver options (stagesOf before after) l
        { s with hooks := State.initial.hooks ++ registered, sync := options.sync } d turns
        ((do registered.forM addHook; connect actions options : Task σ Unit).run driver l s d) ∧
      turns.flatMap Turn.trace =
        (do registered.forM addHook; connect actions options : Task σ Unit).exchanges
          driver l s d ∧
      (∀ turn ∈ turns, turn.Apt options) ∧
      GoesThrough (stagesOf before after) turns
        ((do registered.forM addHook; connect actions options : Task σ Unit).run
          driver l s d).1.1 := by
  obtain ⟨hadded, hsilent⟩ := run_forM_addHook driver registered l s d
  rw [hbuiltin] at hadded
  rw [Task.run_bind_of_ok hadded, Task.exchanges_bind_of_ok hadded, hsilent, List.nil_append]
  have hbefore := runningOrder_hooksAt .before (State.initial.hooks ++ registered)
  have hafter := runningOrder_hooksAt .after (State.initial.hooks ++ registered)
  obtain ⟨turns, hturns, htrace, hapt⟩ := stagesRun_connect hactions options l
    (s := { s with hooks := State.initial.hooks ++ registered }) hs d hbefore hafter
  exact ⟨_, _, turns, hbefore, hafter, nodup_stagesOf hbefore hafter, hturns, htrace, hapt,
    hturns.goesThrough⟩

end Connecting

namespace Announcing

/-- Five hooks from outside, two of them of one priority. -/
def registered : List Hook :=
  [⟨.after, 1, .custom 0⟩, ⟨.before, 5, .custom 1⟩, ⟨.after, -3, .custom 2⟩,
    ⟨.before, -1, .custom 3⟩, ⟨.before, 5, .custom 4⟩]

/-- One of the hooks behind the pool fails. -/
def actions : HookActions Unit := fun id =>
  if id = 0 then Task.fail (.connection "not today") else pure ()

theorem actions_keepHooks (driver : Driver δ) : actions.KeepHooks driver := by
  intro id l s d
  rw [actions]
  split <;> exact ⟨rfl, rfl⟩

/-- Those before the pool, in the order in which they run. -/
def before : List NumberedHook :=
  [(⟨.before, -1, .custom 3⟩, 4), (⟨.before, 5, .custom 1⟩, 2), (⟨.before, 5, .custom 4⟩, 5)]

/-- Those behind it, with the synchronizer. -/
def after : List NumberedHook :=
  [(⟨.after, -3, .custom 2⟩, 3), (⟨.after, 0, .synchronize⟩, 0), (⟨.after, 1, .custom 0⟩, 1)]

theorem runningOrder_before :
    RunningOrder .before (State.initial.hooks ++ registered) before := by
  refine ⟨by simp [before, NumberedHook.Precedes], fun h n => ?_⟩
  rcases n with _ | _ | _ | _ | _ | _ | n <;>
    simp [before, State.initial, registered] <;> grind

theorem runningOrder_after :
    RunningOrder .after (State.initial.hooks ++ registered) after := by
  refine ⟨by simp [after, NumberedHook.Precedes], fun h n => ?_⟩
  rcases n with _ | _ | _ | _ | _ | _ | n <;>
    simp [after, State.initial, registered] <;> grind

end Announcing

/-- The two hooks of one priority run as they were registered, and the synchronizer runs between the
others behind the pool. -/
theorem connect_goes_through_announcing :
    Announcing.actions.KeepHooks Driver.granting ∧
      ∃ turns, GoesThrough (stagesOf Announcing.before Announcing.after) turns
        ((do Announcing.registered.forM addHook; connect Announcing.actions .shop :
          Task Unit Unit).run .granting () .initial ()).1.1 := by
  have hactions := Announcing.actions_keepHooks Driver.granting
  obtain ⟨before, after, turns, hbefore, hafter, -, -, -, -, hthrough⟩ :=
    connect_goes_through_stages hactions .shop () (s := .initial) rfl rfl () Announcing.registered
  rw [hbefore.eq Announcing.runningOrder_before, hafter.eq Announcing.runningOrder_after]
    at hthrough
  exact ⟨hactions, turns, hthrough⟩

end Persistence
