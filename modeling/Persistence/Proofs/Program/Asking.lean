import Persistence.Proofs.Program.Running

/-!
# What tasks ask

The requests that a run makes, for every driver and every state.  A program is kept within a set of
requests if it makes no other one, whatever it is answered; at the same time it keeps what holds of
the shared state.  Both are checked along the program, so no run has to be followed.

Main results:

- `Program.Within.asked`: a run of a program that is kept within some requests makes no others.
- `Program.Within.run_eq`: drivers that answer these alike make no difference to it.
- `Task.Within.bind`: a sequence is kept within what both of its tasks are.
- `transaction_within`: a bracket adds only requests without statements.
-/

namespace Persistence

variable {σ α β δ : Type} {I : State → Prop} {P Q : Request → Prop}

/-! ## Programs -/

namespace Program

/-- The requests that a run of a program makes, in order. -/
def asked (driver : Driver δ) : Program α → State → δ → List Request
  | done _, _, _ => []
  | read next, s, d => (next s).asked driver s d
  | write s next, _, d => next.asked driver s d
  | call r next, s, d =>
      r :: (next (driver.answer r d).1).asked driver s (driver.answer r d).2

/-- The requests that a program makes for some answers and some states. -/
def MayAsk : Program α → Request → Prop
  | done _, _ => False
  | read next, r => ∃ s, (next s).MayAsk r
  | write _ next, r => next.MayAsk r
  | call first next, r => r = first ∨ ∃ answer, (next answer).MayAsk r

/-- From a state in which `I` holds, a program makes only requests of `P` and leaves `I` in force,
whatever it is answered. -/
def Within (I : State → Prop) (P : Request → Prop) : Program α → Prop
  | done _ => True
  | read next => ∀ s, I s → (next s).Within I P
  | write s next => I s ∧ next.Within I P
  | call r next => P r ∧ ∀ answer, (next answer).Within I P

/-- A run of two programs makes the requests of the first and then those of the second. -/
theorem asked_bind (driver : Driver δ) (p : Program α) (f : α → Program β) (s : State) (d : δ) :
    (p.bind f).asked driver s d =
      p.asked driver s d ++
        (f (p.run driver s d).1).asked driver (p.run driver s d).2.1 (p.run driver s d).2.2 := by
  induction p generalizing s d with
  | done a => rfl
  | read next ih => exact ih s s d
  | write s' next ih => exact ih s' d
  | call r next ih =>
      rw [bind, asked, asked, List.cons_append]
      exact congrArg _ (ih _ s _)

/-- A run of a program that is kept within some requests makes no others, and keeps what holds of
the state. -/
theorem Within.asked {p : Program α} (h : p.Within I P) (driver : Driver δ) {s : State} (hs : I s)
    (d : δ) : (∀ r ∈ p.asked driver s d, P r) ∧ I (p.run driver s d).2.1 := by
  induction p generalizing s d with
  | done a => exact ⟨fun r hr => absurd hr List.not_mem_nil, hs⟩
  | read next ih => exact ih s (h s hs) hs d
  | write s next ih => exact ih h.2 h.1 d
  | call r next ih =>
      obtain ⟨hrest, hkept⟩ := ih _ (h.2 (driver.answer r d).1) hs (driver.answer r d).2
      refine ⟨fun r' hr' => ?_, hkept⟩
      rcases List.mem_cons.1 hr' with rfl | hr'
      · exact h.1
      · exact hrest r' hr'

/-- A program that is kept within some requests runs alike against two drivers that answer these
alike, where `f` leads from the states of the one to those of the other. -/
theorem Within.run_eq {ε : Type} {p : Program α} (h : p.Within I P) {driver : Driver δ}
    {other : Driver ε} {f : δ → ε} (halike : ∀ r, P r → ∀ d,
      other.answer r (f d) = ((driver.answer r d).1, f (driver.answer r d).2))
    {s : State} (hs : I s) (d : δ) :
    p.run other s (f d) =
      ((p.run driver s d).1, (p.run driver s d).2.1, f (p.run driver s d).2.2) := by
  induction p generalizing s d with
  | done a => rfl
  | read next ih => exact ih s (h s hs) hs d
  | write s next ih => exact ih h.2 h.1 d
  | call r next ih =>
      rw [run, halike r h.1 d]
      exact ih _ (h.2 _) hs _

theorem Within.bind {p : Program α} {f : α → Program β} (hp : p.Within I P)
    (hf : ∀ a, (f a).Within I P) : (p.bind f).Within I P := by
  induction p with
  | done a => exact hf a
  | read next ih => exact fun s hs => ih s (hp s hs)
  | write s next ih => exact ⟨hp.1, ih hp.2⟩
  | call r next ih => exact ⟨hp.1, fun answer => ih answer (hp.2 answer)⟩

/-- A program that keeps what holds of the state is kept within what it may ask. -/
theorem Within.of_mayAsk {p : Program α} (h : p.Within I Q) (hp : ∀ r, p.MayAsk r → P r) :
    p.Within I P := by
  induction p with
  | done a => trivial
  | read next ih => exact fun s hs => ih s (h s hs) fun r hr => hp r ⟨s, hr⟩
  | write s next ih => exact ⟨h.1, ih h.2 fun r hr => hp r hr⟩
  | call r next ih =>
      exact ⟨hp r (.inl rfl),
        fun answer => ih answer (h.2 answer) fun r' hr' => hp r' (.inr ⟨answer, hr'⟩)⟩

end Program

/-! ## Tasks -/

namespace Task

/-- The requests that a run of a task makes, in order. -/
def asked (driver : Driver δ) (t : Task σ α) (l : σ) (s : State) (d : δ) : List Request :=
  (t l).asked driver s d

/-- The requests that a task makes for some local state, some answers and some states. -/
def MayAsk (t : Task σ α) (r : Request) : Prop := ∃ l, (t l).MayAsk r

/-- From a state in which `I` holds, a task makes only requests of `P` and leaves `I` in force,
whatever it is answered. -/
def Within (I : State → Prop) (P : Request → Prop) (t : Task σ α) : Prop := ∀ l, (t l).Within I P

/-- What a second task asks is asked by the sequence if the first one succeeds. -/
theorem mem_asked_bind {driver : Driver δ} {l l' : σ} {s s' : State} {d d' : δ} {t : Task σ α}
    {f : α → Task σ β} {a : α} {r : Request} (h : t.run driver l s d = ((.ok a, l'), s', d'))
    (hr : r ∈ (f a).asked driver l' s' d') : r ∈ (t >>= f).asked driver l s d := by
  show r ∈ ((t l).bind (proceed f)).asked driver s d
  rw [Program.asked_bind]
  refine List.mem_append_right _ ?_
  rw [show (t l).run driver s d = ((.ok a, l'), s', d') from h]
  exact hr

/-- What a first task asks is asked by the sequence. -/
theorem mem_asked_bind_left {driver : Driver δ} {l : σ} {s : State} {d : δ} {t : Task σ α}
    {f : α → Task σ β} {r : Request} (hr : r ∈ t.asked driver l s d) :
    r ∈ (t >>= f).asked driver l s d := by
  show r ∈ ((t l).bind (proceed f)).asked driver s d
  rw [Program.asked_bind]
  exact List.mem_append_left _ hr

/-- What a task asks is asked by an attempt at it. -/
theorem mem_asked_attempt {driver : Driver δ} {l : σ} {s : State} {d : δ} {t : Task σ α}
    {r : Request} (hr : r ∈ t.asked driver l s d) : r ∈ (attempt t).asked driver l s d := by
  show r ∈ ((t l).bind _).asked driver s d
  rw [Program.asked_bind]
  exact List.mem_append_left _ hr

/-- What a task asks is asked with a local state of its own. -/
theorem mem_asked_withLocal {τ : Type} {driver : Driver δ} {l : σ} {inner : τ} {s : State} {d : δ}
    {t : Task τ α} {r : Request} (hr : r ∈ t.asked driver inner s d) :
    r ∈ (withLocal inner t : Task σ α).asked driver l s d := by
  show r ∈ ((t inner).bind _).asked driver s d
  rw [Program.asked_bind]
  exact List.mem_append_left _ hr

namespace Within

theorem pure (a : α) : (Pure.pure a : Task σ α).Within I P := fun _ => trivial

theorem fail (e : DbError) : (Task.fail e : Task σ α).Within I P := fun _ => trivial

theorem ofExcept (x : Except DbError α) : (Task.ofExcept x : Task σ α).Within I P := by
  cases x with
  | error e => exact fail e
  | ok a => exact pure a

theorem localState : (Task.localState : Task σ σ).Within I P := fun _ => trivial

theorem setLocal (l : σ) : (Task.setLocal l : Task σ Unit).Within I P := fun _ => trivial

theorem modify {f : State → State} (hf : ∀ s, I s → I (f s)) :
    (Task.modify f : Task σ Unit).Within I P :=
  fun _ s hs => ⟨hf s hs, trivial⟩

theorem ask {r : Request} (hr : P r) : (Task.ask r : Task σ r.Answer).Within I P :=
  fun _ => ⟨hr, fun _ => trivial⟩

/-- A sequence is kept within what both of its tasks are. -/
theorem bind {t : Task σ α} {f : α → Task σ β} (ht : t.Within I P) (hf : ∀ a, (f a).Within I P) :
    (t >>= f).Within I P := by
  intro l
  show ((t l).bind (proceed f)).Within I P
  refine (ht l).bind fun x => ?_
  rcases x with ⟨_ | a, l'⟩
  · trivial
  · exact hf a l'

/-- A sequence that looks at the state first is kept within what the rest is. -/
theorem state_bind {f : State → Task σ β} (hf : ∀ s, I s → (f s).Within I P) :
    (Task.state >>= f).Within I P :=
  fun l s hs => hf s hs l

theorem attempt {t : Task σ α} (ht : t.Within I P) : (Task.attempt t).Within I P :=
  fun l => (ht l).bind fun _ => trivial

theorem withLocal {τ : Type} {inner : τ} {t : Task τ α} (ht : t.Within I P) :
    (Task.withLocal inner t : Task σ α).Within I P :=
  fun _ => (ht inner).bind fun _ => trivial

/-- A task that keeps what holds of the state is kept within what it may ask. -/
theorem of_mayAsk {t : Task σ α} (h : t.Within I Q) (ht : ∀ r, t.MayAsk r → P r) : t.Within I P :=
  fun l => (h l).of_mayAsk fun r hr => ht r ⟨l, hr⟩

end Within

end Task

/-! ## Contexts and brackets -/

/-- The statement of a request. -/
def Request.statement? : Request → Option Statement
  | poolQuery _ s => some s
  | query _ s => some s
  | _ => none

/-- What holds of a state has nothing to do with its contexts. -/
def KeptByContexts (I : State → Prop) : Prop :=
  ∀ s contexts, I s → I { s with contexts := contexts }

/-- A statement in a context is asked over its connection. -/
theorem mem_asked_execute {driver : Driver δ} {l : σ} {s : State} {d : δ} {c : Context} {conn : Nat}
    (h : s.connection? c = some conn) (q : Statement) :
    .query conn q ∈ (execute q (some c) : Task σ Output).asked driver l s d :=
  Task.mem_asked_bind (Context.run_connection h)
    (Task.mem_asked_bind_left (List.mem_singleton_self _))

/-- What the work of a bracket asks is asked by the bracket, once its transaction has started. -/
theorem mem_asked_transaction {driver : Driver δ} {l : σ} {s : State} {d d₁ d₂ : δ}
    {pool conn : Nat} {work : Context → Task σ α} {r : Request} (hpool : s.pool = .open pool)
    (hacquire : driver.answer (.acquire pool) d = (.ok conn, d₁))
    (hbegin : driver.answer (.begin conn) d₁ = (.ok (), d₂))
    (hr : r ∈ (work ⟨s.contexts.length⟩).asked driver l (s.addContext conn) d₂) :
    r ∈ (transaction none work).asked driver l s d :=
  Task.mem_asked_bind (run_startTransaction hpool hacquire hbegin)
    (Task.mem_asked_bind_left (Task.mem_asked_attempt hr))

section Contexts

variable (hfree : ∀ r : Request, r.statement? = none → P r) (hI : KeptByContexts I)

/-- The connection of a context is looked up without asking. -/
theorem Context.connection_bind_within {c : Context} {f : Nat → Task σ β}
    (hf : ∀ conn, (f conn).Within I P) : (c.connection >>= f).Within I P := by
  refine Task.Within.bind (Task.Within.state_bind fun s _ => ?_) hf
  split
  · exact .pure _
  · exact .fail _

/-- A statement in a context asks for nothing else. -/
theorem execute_within {s : Statement} {c : Context} (hs : ∀ conn, P (.query conn s)) :
    (execute s (some c) : Task σ Output).Within I P :=
  Context.connection_bind_within fun conn => (Task.Within.ask (hs conn)).bind fun _ => .ofExcept _

include hfree

theorem Context.commit_within (c : Context) : (c.commit : Task σ Unit).Within I P :=
  Context.connection_bind_within fun _ => (Task.Within.ask (hfree _ rfl)).bind fun _ => .ofExcept _

theorem Context.rollback_within (c : Context) : (c.rollback : Task σ Unit).Within I P :=
  Context.connection_bind_within fun _ => (Task.Within.ask (hfree _ rfl)).bind fun _ => .ofExcept _

include hI

theorem Context.finish_within (c : Context) : (c.finish : Task σ Unit).Within I P :=
  Context.connection_bind_within fun _ => by
    refine (Task.Within.modify fun s hs => hI s _ hs).bind fun _ => ?_
    exact (Task.Within.ask (hfree _ rfl)).bind fun _ => .ofExcept _

/-- A start of a transaction asks for no statement. -/
theorem startTransaction_within : (startTransaction : Task σ Context).Within I P := by
  have hpool : (Task.pool : Task σ Nat).Within I P := by
    refine Task.Within.state_bind fun s _ => ?_
    split
    · exact .fail _
    · exact .pure _
    · exact .fail _
  refine hpool.bind fun pool => ?_
  refine (Task.Within.ask (hfree _ rfl)).bind fun acquired => ?_
  refine (Task.Within.ofExcept acquired).bind fun conn => ?_
  refine (Task.Within.ask (hfree _ rfl)).bind fun begun => ?_
  cases begun with
  | error e => exact (Task.Within.ask (hfree _ rfl)).bind fun _ => .fail e
  | ok =>
      refine Task.Within.state_bind fun s _ => ?_
      exact (Task.Within.modify fun s hs => hI s _ hs).bind fun _ => .pure _

/-- The end of a transaction asks for no statement. -/
theorem settle_within (c : Context) (worked : Except DbError α) :
    (settle c worked : Task σ α).Within I P := by
  have hend : ∀ result, (do
      let ended ← Task.attempt c.finish
      Task.ofExcept (bracketOutcome result ended) : Task σ α).Within I P := fun _ =>
    (Task.Within.attempt (c.finish_within hfree hI)).bind fun _ => .ofExcept _
  have hundo : ∀ e, (do
      let _ ← Task.attempt c.rollback
      let ended ← Task.attempt c.finish
      Task.ofExcept (bracketOutcome (.error e) ended) : Task σ α).Within I P := fun e =>
    (Task.Within.attempt (c.rollback_within hfree)).bind fun _ => hend (.error e)
  cases worked with
  | error e => exact hundo e
  | ok a =>
      refine (Task.Within.attempt (c.commit_within hfree)).bind fun committed => ?_
      cases committed with
      | error e => exact hundo e
      | ok => exact hend (.ok a)

/-- A bracket adds only requests without statements. -/
theorem transaction_within {parent : Option Context} {work : Context → Task σ α}
    (hwork : ∀ c, (work c).Within I P) : (transaction parent work).Within I P := by
  cases parent with
  | some c =>
      refine (Task.Within.pure c).bind fun c => ?_
      exact (Task.Within.attempt (hwork c)).bind fun worked => .ofExcept worked
  | none =>
      refine (startTransaction_within hfree hI).bind fun c => ?_
      exact (Task.Within.attempt (hwork c)).bind fun worked => settle_within hfree hI c worked

end Contexts

end Persistence
