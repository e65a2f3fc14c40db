import Persistence.Proofs.Program.Routes

/-!
# Tasks that cover each other

Two tasks that run from one state, against a driver that answers equal statements equally.  The
first covers the second if, whenever it succeeds, the second does as well and is answered no more:
its exchanges are some of those of the first, in their order.  The results of the two are related,
and both leave the shared state as it is; the driver may be in different states.

A task covers what is left of it when a part of it is left out, so covering is shown along the
program of the first task.

Main results:

- `Task.Covers.bind`: sequences cover each other if their parts do.
- `Task.Covers.skip`: a task in front of a sequence may be left out.
- `execute_covers`: a statement covers itself.
-/

namespace Persistence

variable {σ α α' β β' δ : Type}

/-- A driver that answers equal statements equally, whatever happened before. -/
def Driver.Steady (driver : Driver δ) : Prop :=
  ∀ r st, r.statement? = some st → ∀ d d', (driver.answer r d).1 = (driver.answer r d').1

namespace Task

/-- Whenever a task succeeds from a state, a second one succeeds with a related result and with some
of the exchanges of the first; both stay in the state. -/
def Covers (driver : Driver δ) (s : State) (R : α → α' → Prop) (t : Task σ α) (t' : Task σ α') :
    Prop :=
  ∀ l d a l₁ s₁ d₁, t.run driver l s d = ((.ok a, l₁), s₁, d₁) → s₁ = s ∧
    ∀ l' d', ∃ a' l₂ d₂, t'.run driver l' s d' = ((.ok a', l₂), s, d₂) ∧ R a a' ∧
      (t'.exchanges driver l' s d').Sublist (t.exchanges driver l s d)

namespace Covers

variable {driver : Driver δ} {s : State} {R : α → α' → Prop} {S : β → β' → Prop}

theorem pure {a : α} {a' : α'} (h : R a a') :
    Covers driver s R (Pure.pure a : Task σ α) (Pure.pure a') := by
  rintro l d a l₁ s₁ d₁ hrun
  cases hrun
  exact ⟨rfl, fun l' d' => ⟨a', l', d', rfl, h, List.Sublist.refl _⟩⟩

/-- A task that fails covers everything. -/
theorem fail (e : DbError) (t : Task σ α') : Covers driver s R (Task.fail e : Task σ α) t := by
  rintro l d a l₁ s₁ d₁ hrun
  cases hrun

theorem ofExcept (x : Except DbError α) :
    Covers driver s Eq (Task.ofExcept x : Task σ α) (Task.ofExcept x) := by
  cases x with
  | error e => exact fail e _
  | ok a => exact pure rfl

/-- A request for a statement covers itself. -/
theorem ask (hdriver : driver.Steady) {r : Request} {st : Statement} (hr : r.statement? = some st) :
    Covers driver s Eq (Task.ask r : Task σ r.Answer) (Task.ask r) := by
  rintro l d a l₁ s₁ d₁ hrun
  cases hrun
  have hsame := hdriver r st hr
  refine ⟨rfl, fun l' d' => ⟨_, l', _, rfl, hsame d d', ?_⟩⟩
  rw [exchanges_ask, exchanges_ask, hsame d d']

/-- Sequences cover each other if their first tasks do, and their second ones for related
results. -/
theorem bind {t : Task σ α} {t' : Task σ α'} {f : α → Task σ β} {f' : α' → Task σ β'}
    (ht : Covers driver s R t t') (hf : ∀ a a', R a a' → Covers driver s S (f a) (f' a')) :
    Covers driver s S (t >>= f) (t' >>= f') := by
  intro l d b l₂ s₂ d₂ hrun
  obtain ⟨a, l₁, s₁, d₁, hfirst, -⟩ := exists_of_run_bind (congrArg (fun r => r.1.1) hrun)
  obtain ⟨rfl, ht'⟩ := ht l d a l₁ s₁ d₁ hfirst
  rw [run_bind_of_ok hfirst] at hrun
  refine ⟨?_, fun l' d' => ?_⟩
  · obtain ⟨a', -, -, -, hrelated, -⟩ := ht' l d
    exact (hf a a' hrelated l₁ d₁ b l₂ s₂ d₂ hrun).1
  · obtain ⟨a', l'₁, d'₁, hfirst', hrelated, hfront⟩ := ht' l' d'
    obtain ⟨-, hrest⟩ := hf a a' hrelated l₁ d₁ b l₂ s₂ d₂ hrun
    obtain ⟨b', l'₂, d'₂, hsecond', hresult, hback⟩ := hrest l'₁ d'₁
    refine ⟨b', l'₂, d'₂, ?_, hresult, ?_⟩
    · rw [run_bind_of_ok hfirst', hsecond']
    · rw [exchanges_bind_of_ok hfirst, exchanges_bind_of_ok hfirst']
      exact hfront.append hback

/-- A task that stays in the state may be left out in front of a sequence. -/
theorem skip {t : Task σ α} {f : α → Task σ β} {t' : Task σ β'}
    {P : Request → Prop} (ht : t.Within (· = s) P)
    (hf : ∀ a, Covers driver s S (f a) t') : Covers driver s S (t >>= f) t' := by
  have hleft : Covers driver s (fun _ _ => True) t (Pure.pure () : Task σ Unit) := by
    intro l d a l₁ s₁ d₁ hrun
    refine ⟨?_, fun l' d' => ⟨(), l', d', rfl, trivial, List.nil_sublist _⟩⟩
    rw [← ((ht l).asked driver rfl d).2, show (t l).run driver s d = _ from hrun]
  have hrest : Covers driver s S (t >>= f) ((Pure.pure () : Task σ Unit) >>= fun _ => t') :=
    hleft.bind fun a _ _ => hf a
  exact hrest

/-- Sequences that look at the state first cover each other if their rests do. -/
theorem state_bind {f : State → Task σ α} {f' : State → Task σ α'}
    (h : Covers driver s R (f s) (f' s)) :
    Covers driver s R (Task.state >>= f) (Task.state >>= f') := by
  have hstate : Covers driver s (fun a b => a = s ∧ b = s) (Task.state : Task σ State)
      Task.state := by
    rintro l d a l₁ s₁ d₁ hrun
    cases hrun
    exact ⟨rfl, fun l' d' => ⟨s, l', d', rfl, ⟨rfl, rfl⟩, List.Sublist.refl _⟩⟩
  refine hstate.bind ?_
  rintro _ _ ⟨rfl, rfl⟩
  exact h

end Covers

end Task

/-- A statement covers itself. -/
theorem execute_covers {driver : Driver δ} (hdriver : driver.Steady) (s : State) (st : Statement)
    (ctx : Option Context) :
    Task.Covers driver s Eq (execute st ctx : Task σ Output) (execute st ctx) := by
  have hsend : ∀ r : Request, r.statement? = some st → ∀ f : r.Answer → Task σ Output,
      (∀ answer, Task.Covers driver s Eq (f answer) (f answer)) →
        Task.Covers driver s Eq (Task.ask r >>= f) (Task.ask r >>= f) := by
    intro r hr f hf
    refine (Task.Covers.ask hdriver hr).bind ?_
    rintro answer _ rfl
    exact hf answer
  cases ctx with
  | none =>
      show Task.Covers driver s Eq ((Task.state >>= fun s => _) >>= _)
        ((Task.state >>= fun s => _) >>= _)
      rw [bind_assoc]
      refine .state_bind ?_
      cases s.pool with
      | «open» pool => exact hsend _ rfl _ fun answer => .ofExcept answer
      | pending => exact .fail _ _
      | closed => exact .fail _ _
  | some tx =>
      show Task.Covers driver s Eq ((Task.state >>= fun s => _) >>= _)
        ((Task.state >>= fun s => _) >>= _)
      rw [bind_assoc]
      refine .state_bind ?_
      cases s.connection? tx with
      | some conn => exact hsend _ rfl _ fun answer => .ofExcept answer
      | none => exact .fail _ _

end Persistence
