import Persistence.Proofs.Program.Asking

/-!
# What tasks exchange with their surroundings

The exchanges of a run are its requests with their answers.  What holds of the exchanges and of the
result, whatever the answers are, is followed along the program: `Ensures` asks for it behind every
answer, in every state in which an invariant holds, so that one derivation speaks for every driver.

Main results:

- `Program.Ensures.exchanges`: what a program ensures holds of each of its runs.
- `Task.Ensures.bind`: a sequence ensures what its second task ensures behind the first.
- `exchanges_transaction_of_started`: the exchanges of a bracket are its start, the work and its end.
-/

namespace Persistence

variable {σ α β δ : Type} {I : State → Prop}

/-- A request and what it was answered. -/
structure Exchange where
  request : Request
  answer : request.Answer

/-- The answer that grants a request; to a statement it is empty. -/
def Request.granted : (r : Request) → r.Answer
  | .createPool _ => .ok 0
  | .closePool _ => .ok ()
  | .poolQuery _ _ => .ok (Output.ofRows [])
  | .acquire _ => .ok 0
  | .begin _ => .ok ()
  | .commit _ => .ok ()
  | .rollback _ => .ok ()
  | .release _ => .ok ()
  | .query _ _ => .ok (Output.ofRows [])
  | .hook _ _ => .ok ()
  | .produce _ => .null
  | .constraintNames => fun _ => ""

/-! ## Programs -/

namespace Program

/-- The exchanges of a run, in order. -/
def exchanges (driver : Driver δ) : Program α → State → δ → List Exchange
  | done _, _, _ => []
  | read next, s, d => (next s).exchanges driver s d
  | write s next, _, d => next.exchanges driver s d
  | call r next, s, d =>
      ⟨r, (driver.answer r d).1⟩ ::
        (next (driver.answer r d).1).exchanges driver s (driver.answer r d).2

/-- From a state in which `I` holds, `Q` holds of the exchanges and the result of a program and `I`
stays in force, whatever the answers are. -/
def Ensures (I : State → Prop) : Program α → (List Exchange → α → Prop) → Prop
  | done a, Q => Q [] a
  | read next, Q => ∀ s, I s → (next s).Ensures I Q
  | write s next, Q => I s ∧ next.Ensures I Q
  | call r next, Q => ∀ answer, (next answer).Ensures I fun t a => Q (⟨r, answer⟩ :: t) a

/-- A run of two programs has the exchanges of the first and then those of the second. -/
theorem exchanges_bind (driver : Driver δ) (p : Program α) (f : α → Program β) (s : State) (d : δ) :
    (p.bind f).exchanges driver s d =
      p.exchanges driver s d ++
        (f (p.run driver s d).1).exchanges driver (p.run driver s d).2.1
          (p.run driver s d).2.2 := by
  induction p generalizing s d with
  | done a => rfl
  | read next ih => exact ih s s d
  | write s' next ih => exact ih s' d
  | call r next ih =>
      rw [bind, exchanges, exchanges, List.cons_append]
      exact congrArg _ (ih _ s _)

/-- What a run exchanges are requests with the answers of the driver. -/
theorem answer_of_mem_exchanges (driver : Driver δ) (p : Program α) (s : State) (d : δ) :
    ∀ x ∈ p.exchanges driver s d, ∃ d', x.answer = (driver.answer x.request d').1 := by
  induction p generalizing s d with
  | done a => simp [exchanges]
  | read next ih => exact ih s s d
  | write s' next ih => exact ih s' d
  | call r next ih =>
      intro x hx
      rcases List.mem_cons.1 hx with rfl | hx
      · exact ⟨d, rfl⟩
      · exact ih _ s _ x hx

/-- What a program ensures holds of each of its runs, and what holds of the state is kept. -/
theorem Ensures.exchanges {p : Program α} {Q : List Exchange → α → Prop} (h : p.Ensures I Q)
    (driver : Driver δ) {s : State} (hs : I s) (d : δ) :
    Q (p.exchanges driver s d) (p.run driver s d).1 ∧ I (p.run driver s d).2.1 := by
  induction p generalizing Q s d with
  | done a => exact ⟨h, hs⟩
  | read next ih => exact ih s (h s hs) hs d
  | write s next ih => exact ih h.2 h.1 d
  | call r next ih => exact ih _ (h (driver.answer r d).1) hs (driver.answer r d).2

theorem Ensures.mono {p : Program α} {Q Q' : List Exchange → α → Prop} (h : p.Ensures I Q)
    (hQ : ∀ t a, Q t a → Q' t a) : p.Ensures I Q' := by
  induction p generalizing Q Q' with
  | done a => exact hQ [] a h
  | read next ih => exact fun s hs => ih s (h s hs) hQ
  | write s next ih => exact ⟨h.1, ih h.2 hQ⟩
  | call r next ih => exact fun answer => ih answer (h answer) fun t a => hQ (⟨r, answer⟩ :: t) a

/-- A program ensures with another behind it what the other ensures of the rest. -/
theorem Ensures.bind {p : Program α} {f : α → Program β} {Q : List Exchange → β → Prop}
    (h : p.Ensures I fun t a => (f a).Ensures I fun t' b => Q (t ++ t') b) :
    (p.bind f).Ensures I Q := by
  induction p generalizing Q with
  | done a => exact h
  | read next ih => exact fun s hs => ih s (h s hs)
  | write s next ih => exact ⟨h.1, ih h.2⟩
  | call r next ih => exact fun answer => ih answer (h answer)

/-- A program that asks for some requests only ensures that its exchanges are about these. -/
theorem Within.ensures {P : Request → Prop} {p : Program α} (h : p.Within I P) :
    p.Ensures I fun t _ => ∀ x ∈ t, P x.request := by
  induction p with
  | done a => exact fun x hx => by cases hx
  | read next ih => exact fun s hs => ih s (h s hs)
  | write s next ih => exact ⟨h.1, ih h.2⟩
  | call r next ih =>
      exact fun answer => (ih answer (h.2 answer)).mono fun t a ht =>
        List.forall_mem_cons.2 ⟨h.1, ht⟩

/-- What is behind a program may rely on what the program ensures of its result. -/
theorem Within.bind_of_ensures {P : Request → Prop} {p : Program α} {f : α → Program β}
    {R : α → Prop} (hp : p.Within I P) (hr : p.Ensures I fun _ a => R a)
    (hf : ∀ a, R a → (f a).Within I P) : (p.bind f).Within I P := by
  induction p with
  | done a => exact hf a hr
  | read next ih => exact fun s hs => ih s (hp s hs) (hr s hs)
  | write s next ih => exact ⟨hp.1, ih hp.2 hr.2⟩
  | call r next ih => exact ⟨hp.1, fun answer => ih answer (hp.2 answer) (hr answer)⟩

end Program

/-! ## Tasks -/

namespace Task

/-- The exchanges of a run, in order. -/
def exchanges (driver : Driver δ) (t : Task σ α) (l : σ) (s : State) (d : δ) : List Exchange :=
  (t l).exchanges driver s d

/-- From a state in which `I` holds, `Q` holds of the exchanges and the outcome of a task and `I`
stays in force, whatever the answers are. -/
def Ensures (I : State → Prop) (t : Task σ α) (Q : List Exchange → Except DbError α → Prop) :
    Prop :=
  ∀ l, (t l).Ensures I fun trace result => Q trace result.1

section Runs

variable {driver : Driver δ} {l : σ} {s : State} {d : δ}

/-- A sequence has the exchanges of its first task and, unless that fails, those of its second. -/
theorem exchanges_bind (t : Task σ α) (f : α → Task σ β) :
    (t >>= f).exchanges driver l s d =
      t.exchanges driver l s d ++
        match t.run driver l s d with
        | ((.ok a, l'), s', d') => (f a).exchanges driver l' s' d'
        | ((.error _, _), _, _) => [] := by
  show ((t l).bind (proceed f)).exchanges driver s d = _
  rw [Program.exchanges_bind, run, exchanges]
  rcases (t l).run driver s d with ⟨⟨_ | _, _⟩, _, _⟩ <;> rfl

/-- A sequence whose first task succeeds goes on with the exchanges of the second. -/
theorem exchanges_bind_of_ok {t : Task σ α} {f : α → Task σ β} {a : α} {l' : σ} {s' : State}
    {d' : δ} (h : t.run driver l s d = ((.ok a, l'), s', d')) :
    (t >>= f).exchanges driver l s d =
      t.exchanges driver l s d ++ (f a).exchanges driver l' s' d' := by
  rw [exchanges_bind, h]

/-- A sequence whose first task fails has no further exchanges. -/
theorem exchanges_bind_of_error {t : Task σ α} {f : α → Task σ β} {e : DbError} {l' : σ}
    {s' : State} {d' : δ} (h : t.run driver l s d = ((.error e, l'), s', d')) :
    (t >>= f).exchanges driver l s d = t.exchanges driver l s d := by
  rw [exchanges_bind, h, List.append_nil]

/-- A result that is only looked at adds no exchange. -/
theorem exchanges_bind_pure (t : Task σ α) (f : α → β) :
    (t >>= fun a => Pure.pure (f a)).exchanges driver l s d = t.exchanges driver l s d := by
  rw [exchanges_bind]
  split <;> exact List.append_nil _

@[simp]
theorem exchanges_modify (f : State → State) :
    (modify f : Task σ Unit).exchanges driver l s d = [] := rfl

@[simp]
theorem exchanges_ask (r : Request) :
    (ask r : Task σ r.Answer).exchanges driver l s d = [⟨r, (driver.answer r d).1⟩] := rfl

@[simp]
theorem exchanges_ofExcept (x : Except DbError α) :
    (ofExcept x : Task σ α).exchanges driver l s d = [] := by
  cases x <;> rfl

/-- An attempt has the exchanges of the task. -/
theorem exchanges_attempt (t : Task σ α) :
    (attempt t).exchanges driver l s d = t.exchanges driver l s d := by
  show ((t l).bind _).exchanges driver s d = _
  rw [Program.exchanges_bind]
  exact List.append_nil _

/-- A task with a local state of its own has the exchanges of the task. -/
theorem exchanges_withLocal {τ : Type} (inner : τ) (t : Task τ α) :
    (withLocal inner t : Task σ α).exchanges driver l s d = t.exchanges driver inner s d := by
  show ((t inner).bind _).exchanges driver s d = _
  rw [Program.exchanges_bind]
  exact List.append_nil _

end Runs

namespace Ensures

variable {Q : List Exchange → Except DbError α → Prop}

theorem mono {t : Task σ α} {Q' : List Exchange → Except DbError α → Prop} (h : t.Ensures I Q)
    (hQ : ∀ trace result, Q trace result → Q' trace result) : t.Ensures I Q' :=
  fun l => (h l).mono fun trace result => hQ trace result.1

theorem pure {a : α} (h : Q [] (.ok a)) : (Pure.pure a : Task σ α).Ensures I Q := fun _ => h

theorem fail {e : DbError} (h : Q [] (.error e)) : (Task.fail e : Task σ α).Ensures I Q :=
  fun _ => h

theorem ofExcept {x : Except DbError α} (h : Q [] x) :
    (Task.ofExcept x : Task σ α).Ensures I Q := by
  cases x with
  | error e => exact fail h
  | ok a => exact pure h

/-- A sequence ensures what its second task ensures behind the first. -/
theorem bind {t : Task σ α} {f : α → Task σ β} {Q : List Exchange → Except DbError β → Prop}
    (h : t.Ensures I fun trace result =>
      match result with
      | .error e => Q trace (.error e)
      | .ok a => (f a).Ensures I fun trace' result' => Q (trace ++ trace') result') :
    (t >>= f).Ensures I Q := by
  intro l
  refine Program.Ensures.bind ((h l).mono ?_)
  rintro trace ⟨result, l'⟩ hresult
  cases result with
  | error e => simpa [proceed, Program.Ensures] using hresult
  | ok a => exact hresult l'

/-- A sequence ensures behind a task that succeeds without an exchange what the rest does. -/
theorem bind_of_silent {t : Task σ α} {f : α → Task σ β}
    {Q : List Exchange → Except DbError β → Prop}
    (ht : t.Ensures I fun trace result => trace = [] ∧ ∃ a, result = .ok a)
    (hf : ∀ a, (f a).Ensures I Q) : (t >>= f).Ensures I Q := by
  apply bind
  apply ht.mono
  rintro trace result ⟨rfl, a, rfl⟩
  exact hf a

/-- A sequence that looks at the state first ensures what the rest does. -/
theorem state_bind {f : State → Task σ α} (h : ∀ s, I s → (f s).Ensures I Q) :
    (Task.state >>= f).Ensures I Q :=
  fun l s hs => h s hs l

/-- A sequence that asks first ensures what the rest does behind every answer. -/
theorem ask_bind {r : Request} {f : r.Answer → Task σ α}
    (h : ∀ answer, (f answer).Ensures I fun trace result => Q (⟨r, answer⟩ :: trace) result) :
    (Task.ask r >>= f).Ensures I Q :=
  fun l answer => h answer l

/-- A task with a local state of its own ensures what the task does. -/
theorem withLocal {τ : Type} {inner : τ} {t : Task τ α} (h : t.Ensures I Q) :
    (Task.withLocal inner t : Task σ α).Ensures I Q := by
  intro l
  refine Program.Ensures.bind ((h inner).mono fun trace result hresult => ?_)
  show Q (trace ++ []) result.1
  rw [List.append_nil]
  exact hresult

end Ensures

/-- What is behind a task may rely on what the task ensures of its result. -/
theorem Within.bind_of_ensures {P : Request → Prop} {t : Task σ α} {f : α → Task σ β}
    {R : α → Prop} (ht : t.Within I P) (hr : t.Ensures I fun _ result => ∀ a, result = .ok a → R a)
    (hf : ∀ a, R a → (f a).Within I P) : (t >>= f).Within I P := by
  intro l
  refine (ht l).bind_of_ensures (hr l) ?_
  rintro ⟨_ | a, l'⟩ hresult
  · trivial
  · exact hf a (hresult a rfl) l'

end Task

/-! ## Contexts -/

/-- A context stands for a connection. -/
def Holds (tx : Context) (conn : Nat) (s : State) : Prop := s.connection? tx = some conn

section Contexts

variable {tx : Context} {conn : Nat}

namespace Context

/-- What follows the look at the connection of a context goes on with that connection, in all states
in which the context stands for it. -/
theorem connection_bind_ensures_of (hI : ∀ s, I s → Holds tx conn s) {f : Nat → Task σ α}
    {Q : List Exchange → Except DbError α → Prop} (h : (f conn).Ensures I Q) :
    (tx.connection >>= f).Ensures I Q := by
  rw [connection, bind_assoc]
  refine .state_bind fun s hs => ?_
  rw [show s.connection? tx = some conn from hI s hs]
  exact h

theorem connection_bind_ensures {f : Nat → Task σ α} {Q : List Exchange → Except DbError α → Prop}
    (h : (f conn).Ensures (Holds tx conn) Q) :
    (tx.connection >>= f).Ensures (Holds tx conn) Q :=
  connection_bind_ensures_of (fun _ hs => hs) h

/-- A rollback in a context is one exchange, and its answer is the outcome. -/
theorem rollback_ensures {Q : List Exchange → Except DbError Unit → Prop}
    (h : ∀ answer, Q [⟨.rollback conn, answer⟩] answer) :
    (tx.rollback : Task σ Unit).Ensures (Holds tx conn) Q :=
  connection_bind_ensures (.ask_bind fun answer => .ofExcept (h answer))

variable {driver : Driver δ} {l : σ} {s : State} {d : δ}

theorem exchanges_connection (h : Holds tx conn s) :
    (tx.connection : Task σ Nat).exchanges driver l s d = [] := by
  rw [connection, Task.exchanges_bind_of_ok Task.run_state,
    show s.connection? tx = some conn from h]
  rfl

theorem exchanges_commit (h : Holds tx conn s) :
    (tx.commit : Task σ Unit).exchanges driver l s d =
      [⟨.commit conn, (driver.answer (.commit conn) d).1⟩] := by
  rw [commit, Task.exchanges_bind_of_ok (run_connection h), exchanges_connection h, List.nil_append,
    Task.exchanges_bind_of_ok (Task.run_ask _), Task.exchanges_ask, Task.exchanges_ofExcept]
  rfl

theorem exchanges_rollback (h : Holds tx conn s) :
    (tx.rollback : Task σ Unit).exchanges driver l s d =
      [⟨.rollback conn, (driver.answer (.rollback conn) d).1⟩] := by
  rw [rollback, Task.exchanges_bind_of_ok (run_connection h), exchanges_connection h,
    List.nil_append, Task.exchanges_bind_of_ok (Task.run_ask _), Task.exchanges_ask,
    Task.exchanges_ofExcept]
  rfl

theorem exchanges_finish (h : Holds tx conn s) :
    (tx.finish : Task σ Unit).exchanges driver l s d =
      [⟨.release conn, (driver.answer (.release conn) d).1⟩] := by
  rw [finish, Task.exchanges_bind_of_ok (run_connection h), exchanges_connection h,
    List.nil_append, Task.exchanges_bind_of_ok (Task.run_modify _), Task.exchanges_modify,
    List.nil_append, Task.exchanges_bind_of_ok (Task.run_ask _), Task.exchanges_ask,
    Task.exchanges_ofExcept]
  rfl

end Context

section Kept

variable {P : Request → Prop}

/-- What follows the look at the connection of a context goes on with that connection. -/
theorem Context.connection_bind_within_of_holds {f : Nat → Task σ α}
    (h : (f conn).Within (Holds tx conn) P) :
    (tx.connection >>= f).Within (Holds tx conn) P := by
  rw [connection, bind_assoc]
  refine .state_bind fun s hs => ?_
  rw [show s.connection? tx = some conn from hs]
  exact h

/-- A statement in a context is asked over its connection only. -/
theorem execute_within_of_holds {st : Statement} (h : P (.query conn st)) :
    (execute st (some tx) : Task σ Output).Within (Holds tx conn) P :=
  Context.connection_bind_within_of_holds
    ((Task.Within.ask h).bind fun answer => .ofExcept answer)

/-- A rollback in a context is asked over its connection only. -/
theorem Context.rollback_within_of_holds (h : P (.rollback conn)) :
    (tx.rollback : Task σ Unit).Within (Holds tx conn) P :=
  connection_bind_within_of_holds ((Task.Within.ask h).bind fun answer => .ofExcept answer)

end Kept

/-- A statement in a context is one exchange, and its answer is the outcome. -/
theorem execute_ensures_of (hI : ∀ s, I s → Holds tx conn s) {st : Statement}
    {Q : List Exchange → Except DbError Output → Prop}
    (h : ∀ answer, Q [⟨.query conn st, answer⟩] answer) :
    (execute st (some tx) : Task σ Output).Ensures I Q :=
  Context.connection_bind_ensures_of hI (.ask_bind fun answer => .ofExcept (h answer))

theorem execute_ensures {st : Statement} {Q : List Exchange → Except DbError Output → Prop}
    (h : ∀ answer, Q [⟨.query conn st, answer⟩] answer) :
    (execute st (some tx) : Task σ Output).Ensures (Holds tx conn) Q :=
  execute_ensures_of (fun _ hs => hs) h

end Contexts

/-! ## Brackets -/

/-- How a bracket ends whose work succeeded or failed. -/
inductive Settlement (conn : Nat) : (worked : Bool) → List Exchange → Prop
  | committed (released : Except DbError Unit) :
      Settlement conn true [⟨.commit conn, .ok ()⟩, ⟨.release conn, released⟩]
  | undone (e : DbError) (undone released : Except DbError Unit) :
      Settlement conn true
        [⟨.commit conn, .error e⟩, ⟨.rollback conn, undone⟩, ⟨.release conn, released⟩]
  | failed (undone released : Except DbError Unit) :
      Settlement conn false [⟨.rollback conn, undone⟩, ⟨.release conn, released⟩]

/-- How a bracket ends, from the outcome of its work to its own: the work was committed and the
connection given back; it was committed and the connection was not; the commit failed; or the work
had failed already. -/
inductive Settled (conn : Nat) :
    (worked result : Except DbError α) → List Exchange → Prop
  | committed (a : α) :
      Settled conn (.ok a) (.ok a) [⟨.commit conn, .ok ()⟩, ⟨.release conn, .ok ()⟩]
  | unreleased (a : α) (e : DbError) :
      Settled conn (.ok a) (.error e) [⟨.commit conn, .ok ()⟩, ⟨.release conn, .error e⟩]
  | undone (a : α) (e : DbError) (undone released : Except DbError Unit) :
      Settled conn (.ok a) (.error e)
        [⟨.commit conn, .error e⟩, ⟨.rollback conn, undone⟩, ⟨.release conn, released⟩]
  | failed (e : DbError) (undone released : Except DbError Unit) :
      Settled conn (.error e) (.error e) [⟨.rollback conn, undone⟩, ⟨.release conn, released⟩]

namespace Settled

variable {conn : Nat} {worked result : Except DbError α} {back : List Exchange}

theorem settlement (h : Settled conn worked result back) : Settlement conn worked.isOk back := by
  cases h with
  | committed a => exact .committed _
  | unreleased a e => exact .committed _
  | undone a e undone released => exact .undone _ _ _
  | failed e undone released => exact .failed _ _

/-- The end of a bracket makes no success of a failure. -/
theorem worked_eq_ok (h : Settled conn worked result back) {a : α} (ha : result = .ok a) :
    worked = .ok a := by
  cases h with
  | committed b => exact ha
  | unreleased | undone | failed => cases ha

end Settled

section Brackets

variable {driver : Driver δ} {l : σ} {s : State} {d : δ} {tx : Context} {conn : Nat}

/-- The end of a bracket once it is known what is made of the work. -/
def finishWith (tx : Context) (result : Except DbError α) : Task σ α := do
  let ended ← Task.attempt tx.finish
  Task.ofExcept (bracketOutcome result ended)

theorem exchanges_finishWith (h : Holds tx conn s) (result : Except DbError α) :
    (finishWith tx result : Task σ α).exchanges driver l s d =
      [⟨.release conn, (driver.answer (.release conn) d).1⟩] := by
  rw [finishWith, Task.exchanges_bind_of_ok (Task.run_attempt _), Task.exchanges_attempt,
    Context.exchanges_finish h, Task.exchanges_ofExcept]
  rfl

theorem run_finishWith (h : Holds tx conn s) (result : Except DbError α) :
    (finishWith tx result : Task σ α).run driver l s d =
      ((bracketOutcome result (driver.answer (.release conn) d).1, l), s.endContext tx,
        (driver.answer (.release conn) d).2) := by
  rw [finishWith, Task.run_bind_of_ok (Task.run_attempt _), Context.run_finish h,
    Task.run_ofExcept]

/-- A bracket whose work failed is undone. -/
theorem settle_error (tx : Context) (e : DbError) :
    (settle tx (.error e) : Task σ α) =
      Task.attempt tx.rollback >>= fun _ => finishWith tx (.error e) :=
  rfl

/-- A bracket whose work succeeded is committed, and undone if that fails. -/
theorem settle_ok (tx : Context) (a : α) :
    (settle tx (.ok a) : Task σ α) =
      Task.attempt tx.commit >>= fun committed =>
        match committed with
        | .ok () => finishWith tx (.ok a)
        | .error e => Task.attempt tx.rollback >>= fun _ => finishWith tx (.error e) := by
  rw [settle]
  simp only [pure_bind]
  congr 1
  funext committed
  cases committed <;> rfl

/-- The end of a bracket settles it, and ends its context. -/
theorem settled_settle (driver : Driver δ) (h : Holds tx conn s) (worked : Except DbError α) (l : σ)
    (d : δ) :
    Settled conn worked ((settle tx worked : Task σ α).run driver l s d).1.1
        ((settle tx worked : Task σ α).exchanges driver l s d) ∧
      ((settle tx worked : Task σ α).run driver l s d).2.1 = s.endContext tx := by
  have hundo : ∀ (e : DbError) (d : δ), ∃ undone released d',
      (settle tx (.error e) : Task σ α).run driver l s d =
          ((.error e, l), s.endContext tx, d') ∧
        (settle tx (.error e) : Task σ α).exchanges driver l s d =
          [⟨.rollback conn, undone⟩, ⟨.release conn, released⟩] := by
    intro e d
    refine ⟨(driver.answer (.rollback conn) d).1,
      (driver.answer (.release conn) (driver.answer (.rollback conn) d).2).1,
      (driver.answer (.release conn) (driver.answer (.rollback conn) d).2).2, ?_, ?_⟩
    · rw [settle_error, Task.run_bind_of_ok (Task.run_attempt _), Context.run_rollback h,
        run_finishWith h]
      rfl
    · rw [settle_error, Task.exchanges_bind_of_ok (Task.run_attempt _), Task.exchanges_attempt,
        Context.exchanges_rollback h, Context.run_rollback h, exchanges_finishWith h]
      rfl
  cases worked with
  | error e =>
      obtain ⟨undone, released, d', hrun, hexchanges⟩ := hundo e d
      rw [hrun, hexchanges]
      exact ⟨.failed e undone released, rfl⟩
  | ok a =>
      rw [settle_ok, Task.exchanges_bind_of_ok (Task.run_attempt _), Task.exchanges_attempt,
        Task.run_bind_of_ok (Task.run_attempt _), Context.exchanges_commit h, Context.run_commit h]
      cases hcommit : (driver.answer (.commit conn) d).1 with
      | ok u =>
          simp only [exchanges_finishWith h, run_finishWith h]
          refine ⟨?_, trivial⟩
          cases (driver.answer (.release conn) (driver.answer (.commit conn) d).2).1 with
          | ok u => exact .committed a
          | error e => exact .unreleased a e
      | error e =>
          obtain ⟨undone, released, d', hrun, hexchanges⟩ :=
            hundo e (driver.answer (.commit conn) d).2
          simp only [← settle_error, hrun, hexchanges]
          exact ⟨.undone a e undone released, trivial⟩

theorem eq_ok_of_bracketOutcome {result : Except DbError α} {ended : Except DbError Unit} {a : α}
    (h : bracketOutcome result ended = .ok a) : result = .ok a := by
  cases result with
  | error e => cases h
  | ok b =>
      cases ended with
      | error e => cases h
      | ok u => exact h

/-- The end of a bracket makes no success of a failure, in whatever state its context is. -/
theorem worked_of_run_settle {worked : Except DbError α} {a : α}
    (h : ((settle tx worked : Task σ α).run driver l s d).1.1 = .ok a) : worked = .ok a := by
  have hfinish : ∀ {result : Except DbError α} {l : σ} {s : State} {d : δ},
      ((finishWith tx result : Task σ α).run driver l s d).1.1 = .ok a → result = .ok a := by
    intro result l s d h
    rw [finishWith, Task.run_bind_of_ok (Task.run_attempt _), Task.run_ofExcept] at h
    exact eq_ok_of_bracketOutcome h
  cases worked with
  | error e =>
      rw [settle_error, Task.run_bind_of_ok (Task.run_attempt _)] at h
      exact hfinish h
  | ok b =>
      rw [settle_ok, Task.run_bind_of_ok (Task.run_attempt _)] at h
      split at h
      · exact hfinish h
      · rw [Task.run_bind_of_ok (Task.run_attempt _)] at h
        cases hfinish h

/-- How a transaction starts: there is no pool, or no connection, or no transaction on it, and then
the connection is given back; or it has started on a connection of the pool. -/
inductive Start (s : State) : List Exchange → Except DbError Context → State → Prop
  | unconnected (e : DbError) : Start s [] (.error e) s
  | unacquired (pool : Nat) (e : DbError) : Start s [⟨.acquire pool, .error e⟩] (.error e) s
  | unbegun (pool conn : Nat) (e : DbError) (released : Except DbError Unit) :
      Start s [⟨.acquire pool, .ok conn⟩, ⟨.begin conn, .error e⟩, ⟨.release conn, released⟩]
        (.error e) s
  | begun (pool conn : Nat) :
      Start s [⟨.acquire pool, .ok conn⟩, ⟨.begin conn, .ok ()⟩] (.ok ⟨s.contexts.length⟩)
        (s.addContext conn)

/-- The start of a transaction has no statements. -/
theorem Start.statement?_eq_none {s s' : State} {trace : List Exchange}
    {result : Except DbError Context} (h : Start s trace result s') :
    ∀ x ∈ trace, x.request.statement? = none := by
  cases h <;> simp [Request.statement?]

/-- Every start of a transaction is one of these, and leaves the local state as it is. -/
theorem start_startTransaction (driver : Driver δ) (l : σ) (s : State) (d : δ) :
    ∃ result s' d', (startTransaction : Task σ Context).run driver l s d = ((result, l), s', d') ∧
      Start s ((startTransaction : Task σ Context).exchanges driver l s d) result s' := by
  have hask : (Task.pool : Task σ Nat).exchanges driver l s d = [] := by
    rw [Task.pool, Task.exchanges_bind_of_ok Task.run_state]
    cases s.pool <;> rfl
  have hunpooled : ∀ e, (Task.pool : Task σ Nat).run driver l s d = ((.error e, l), s, d) →
      ∃ result s' d', (startTransaction : Task σ Context).run driver l s d =
          ((result, l), s', d') ∧
        Start s ((startTransaction : Task σ Context).exchanges driver l s d) result s' := by
    intro e hpool
    refine ⟨.error e, s, d, by rw [startTransaction, Task.run_bind, hpool], ?_⟩
    rw [startTransaction, Task.exchanges_bind_of_error hpool, hask]
    exact .unconnected e
  cases hs : s.pool with
  | pending =>
      refine hunpooled .notConnected ?_
      rw [Task.pool, Task.run_bind_of_ok Task.run_state, hs]
      rfl
  | closed =>
      refine hunpooled .poolClosed ?_
      rw [Task.pool, Task.run_bind_of_ok Task.run_state, hs]
      rfl
  | «open» pool =>
      have hpool : (Task.pool : Task σ Nat).run driver l s d = ((.ok pool, l), s, d) := by
        rw [Task.pool, Task.run_bind_of_ok Task.run_state, hs]
        rfl
      rcases hacquire : driver.answer (.acquire pool) d with ⟨acquired, d₁⟩
      cases acquired with
      | error e =>
          refine ⟨.error e, s, d₁, ?_, ?_⟩
          · rw [startTransaction, Task.run_bind_of_ok hpool, Task.run_bind_of_ok (Task.run_ask _),
              hacquire, Task.run_bind, Task.run_ofExcept]
          · have hfailed : (Task.ofExcept (.error e) : Task σ Nat).run driver l s d₁ =
                ((.error e, l), s, d₁) := rfl
            rw [startTransaction, Task.exchanges_bind_of_ok hpool,
              Task.exchanges_bind_of_ok (Task.run_ask _), hacquire,
              Task.exchanges_bind_of_error hfailed, hask, Task.exchanges_ask, hacquire,
              Task.exchanges_ofExcept]
            exact .unacquired pool e
      | ok conn =>
          rcases hbegin : driver.answer (.begin conn) d₁ with ⟨begun, d₂⟩
          cases begun with
          | error e =>
              refine ⟨.error e, s, (driver.answer (.release conn) d₂).2, ?_, ?_⟩
              · rw [startTransaction, Task.run_bind_of_ok hpool,
                  Task.run_bind_of_ok (Task.run_ask _), hacquire,
                  Task.run_bind_of_ok (Task.run_ofExcept _), Task.run_bind_of_ok (Task.run_ask _),
                  hbegin, Task.run_bind_of_ok (Task.run_ask _)]
                rfl
              · rw [startTransaction, Task.exchanges_bind_of_ok hpool,
                  Task.exchanges_bind_of_ok (Task.run_ask _), hacquire,
                  Task.exchanges_bind_of_ok (Task.run_ofExcept _),
                  Task.exchanges_bind_of_ok (Task.run_ask _), hbegin, hask, Task.exchanges_ask,
                  Task.exchanges_ask, hacquire, hbegin, Task.exchanges_ofExcept]
                exact .unbegun pool conn e _
          | ok u =>
              refine ⟨_, _, d₂, run_startTransaction hs hacquire hbegin, ?_⟩
              rw [startTransaction, Task.exchanges_bind_of_ok hpool,
                Task.exchanges_bind_of_ok (Task.run_ask _), hacquire,
                Task.exchanges_bind_of_ok (Task.run_ofExcept _),
                Task.exchanges_bind_of_ok (Task.run_ask _), hbegin, hask, Task.exchanges_ask,
                Task.exchanges_ask, hacquire, hbegin, Task.exchanges_ofExcept]
              exact .begun pool conn

/-- A transaction does not start, or it starts on a connection of the pool. -/
theorem startTransaction_cases (driver : Driver δ) (l : σ) (s : State) (d : δ) :
    (∃ e, ((startTransaction : Task σ Context).run driver l s d).1.1 = .error e) ∨
      ∃ pool conn d', (startTransaction : Task σ Context).run driver l s d =
          ((.ok ⟨s.contexts.length⟩, l), s.addContext conn, d') ∧
        (startTransaction : Task σ Context).exchanges driver l s d =
          [⟨.acquire pool, .ok conn⟩, ⟨.begin conn, .ok ()⟩] := by
  obtain ⟨result, s', d', hrun, hstart⟩ := start_startTransaction driver l s d
  rw [hrun]
  generalize (startTransaction : Task σ Context).exchanges driver l s d = trace at hstart ⊢
  cases hstart with
  | unconnected e => exact .inl ⟨e, rfl⟩
  | unacquired pool e => exact .inl ⟨e, rfl⟩
  | unbegun pool conn e released => exact .inl ⟨e, rfl⟩
  | begun pool conn => exact .inr ⟨pool, conn, d', rfl, rfl⟩

/-- A bracket whose transaction has started settles the outcome of its work. -/
theorem run_transaction_of_started {work : Context → Task σ α} {l' : σ} {s' : State} {d' : δ}
    (hstart : (startTransaction : Task σ Context).run driver l s d = ((.ok tx, l'), s', d')) :
    (transaction none work).run driver l s d =
      (settle tx ((work tx).run driver l' s' d').1.1).run driver
        ((work tx).run driver l' s' d').1.2 ((work tx).run driver l' s' d').2.1
        ((work tx).run driver l' s' d').2.2 := by
  rw [transaction, openBracket, Task.run_bind_of_ok hstart,
    Task.run_bind_of_ok (Task.run_attempt _), closeBracket]

/-- A bracket whose transaction has started has the exchanges of the start, of the work and of the
settling. -/
theorem exchanges_transaction_of_started {work : Context → Task σ α} {l' : σ} {s' : State} {d' : δ}
    (hstart : (startTransaction : Task σ Context).run driver l s d = ((.ok tx, l'), s', d')) :
    (transaction none work).exchanges driver l s d =
      (startTransaction : Task σ Context).exchanges driver l s d ++
        ((work tx).exchanges driver l' s' d' ++
          (settle tx ((work tx).run driver l' s' d').1.1).exchanges driver
            ((work tx).run driver l' s' d').1.2 ((work tx).run driver l' s' d').2.1
            ((work tx).run driver l' s' d').2.2) := by
  rw [transaction, openBracket, Task.exchanges_bind_of_ok hstart,
    Task.exchanges_bind_of_ok (Task.run_attempt _), Task.exchanges_attempt, closeBracket]

/-- A run of a bracket with a transaction of its own: it does not start, and fails without a
statement, or the work is done on a new context and settled.  `W` tells what the work exchanges. -/
inductive Bracketed (W : Nat → List Exchange → Except DbError α → Prop) :
    List Exchange → Except DbError α → Prop
  | unstarted {trace : List Exchange} {e : DbError}
      (h : ∀ x ∈ trace, x.request.statement? = none) : Bracketed W trace (.error e)
  | settled {pool conn : Nat} {trace back : List Exchange} {worked result : Except DbError α}
      (hwork : W conn trace worked) (hend : Settlement conn worked.isOk back)
      (hresult : ∀ a, result = .ok a → worked = .ok a) :
      Bracketed W (⟨.acquire pool, .ok conn⟩ :: ⟨.begin conn, .ok ()⟩ :: (trace ++ back)) result

/-- A bracket with a transaction of its own: the transaction does not start, and that is all, or the
work is done on a new context and settled.  `I` is what the work keeps of the state, and `W` tells
how it goes. -/
theorem transaction_ensures_cases {work : Context → Task σ α} {s : State} {I : Nat → State → Prop}
    {W : Nat → List Exchange → Except DbError α → Prop}
    (hstarts : ∀ conn, I conn (s.addContext conn))
    (hholds : ∀ conn s', I conn s' → Holds ⟨s.contexts.length⟩ conn s')
    (hwork : ∀ conn, (work ⟨s.contexts.length⟩).Ensures (I conn) (W conn)) (driver : Driver δ)
    (l : σ) (d : δ) :
    (∃ e, ((transaction none work).run driver l s d).1.1 = .error e ∧
        Start s ((transaction none work).exchanges driver l s d) (.error e) s ∧
        (transaction none work).exchanges driver l s d =
          (startTransaction : Task σ Context).exchanges driver l s d) ∨
      ∃ pool conn calls worked back, (transaction none work).exchanges driver l s d =
          ⟨.acquire pool, .ok conn⟩ :: ⟨.begin conn, .ok ()⟩ :: (calls ++ back) ∧
        W conn calls worked ∧
        Settled conn worked ((transaction none work).run driver l s d).1.1 back := by
  obtain ⟨started, s', d', hrun, hstart⟩ := start_startTransaction driver l s d
  cases started with
  | error e =>
      obtain rfl : s' = s := by
        generalize (startTransaction : Task σ Context).exchanges driver l s d = front at hstart
        cases hstart <;> rfl
      have htrace : (transaction none work).exchanges driver l s' d =
          (startTransaction : Task σ Context).exchanges driver l s' d := by
        rw [transaction, openBracket, Task.exchanges_bind_of_error hrun]
      refine .inl ⟨e, ?_, htrace ▸ hstart, htrace⟩
      rw [transaction, openBracket, Task.run_bind, hrun]
  | ok tx =>
      rw [exchanges_transaction_of_started hrun, run_transaction_of_started hrun]
      generalize (startTransaction : Task σ Context).exchanges driver l s d = front at hstart ⊢
      cases hstart with
      | begun pool conn =>
          obtain ⟨hdone, hkept⟩ := (hwork conn l).exchanges driver (hstarts conn) d'
          exact .inr ⟨pool, conn,
            (work ⟨s.contexts.length⟩).exchanges driver l (s.addContext conn) d', _, _, rfl, hdone,
            (settled_settle driver (hholds conn _ hkept) _ _ _).1⟩

/-- Every run of a bracket with a transaction of its own is one of these. -/
theorem bracketed_transaction {work : Context → Task σ α}
    {W : Nat → List Exchange → Except DbError α → Prop}
    (hwork : ∀ tx conn, (work tx).Ensures (Holds tx conn) (W conn)) (driver : Driver δ) (l : σ)
    (s : State) (d : δ) :
    Bracketed W ((transaction none work).exchanges driver l s d)
      ((transaction none work).run driver l s d).1.1 := by
  rcases transaction_ensures_cases (fun conn => s.connection?_addContext conn) (fun _ _ h => h)
    (hwork ⟨s.contexts.length⟩) driver l d with
    ⟨e, herror, hstart, -⟩ | ⟨pool, conn, calls, worked, back, htrace, hcalls, hsettled⟩
  · rw [herror]
    exact .unstarted hstart.statement?_eq_none
  · rw [htrace]
    exact .settled hcalls hsettled.settlement fun a => hsettled.worked_eq_ok

/-- The requests of the exchanges of a run are among those that it is kept within. -/
theorem Task.Within.exchanges {I : State → Prop} {P : Request → Prop} {t : Task σ α}
    (h : t.Within I P) (driver : Driver δ) (hs : I s) (l : σ) (d : δ) :
    (∀ x ∈ t.exchanges driver l s d, P x.request) ∧ I (t.run driver l s d).2.1 :=
  (h l).ensures.exchanges driver hs d

/-- A bracket whose work is kept within some requests over its connection: its transaction does not
start, or it makes requests of the work and is settled. -/
theorem transaction_cases {work : Context → Task σ α} {P : Nat → Request → Prop}
    (hwork : ∀ tx conn, (work tx).Within (Holds tx conn) (P conn)) (driver : Driver δ) (l : σ)
    (s : State) (d : δ) :
    (∃ e, ((transaction none work).run driver l s d).1.1 = .error e ∧
        Start s ((transaction none work).exchanges driver l s d) (.error e) s) ∨
      ∃ pool conn calls worked back, (transaction none work).exchanges driver l s d =
          ⟨.acquire pool, .ok conn⟩ :: ⟨.begin conn, .ok ()⟩ :: (calls ++ back) ∧
        (∀ x ∈ calls, P conn x.request) ∧
        Settled conn worked ((transaction none work).run driver l s d).1.1 back := by
  have hensures : ∀ conn, (work ⟨s.contexts.length⟩).Ensures (Holds ⟨s.contexts.length⟩ conn)
      fun calls _ => ∀ x ∈ calls, P conn x.request := fun conn l => (hwork _ conn l).ensures
  refine (transaction_ensures_cases (fun conn => s.connection?_addContext conn) (fun _ _ h => h)
    hensures driver l d).imp_left ?_
  rintro ⟨e, herror, hstart, -⟩
  exact ⟨e, herror, hstart⟩

end Brackets

end Persistence
