import Persistence.Proofs.Cascade.Opened
import Persistence.Proofs.Program.Exchanges

/-!
# How a delete is undone

A delete in a transaction of its own should leave all of its changes or none.  A level of a cascade
ends in one of six ways, whatever it is answered: it is complete; it refused and asked for a
rollback; one of its deletes was answered with a sign of failure, and it went no further; a
statement failed; the rollback failed; or it was stuck without a failing statement.  In all of them
what was exchanged before is smooth.

The bracket around the first level undoes everything that failed, but a delete that is answered
with a sign of failure is no failure to it: such a delete is committed.

Main results:

- `DeleteOperation.cascade_ends`: a cascade ends in one of the six ways, for every driver.
- `Dao.deleteQuery_allOrNothing_iff`: a delete that is not successful is undone as a whole exactly if
  every sign of failure was followed by a rollback.
-/

namespace Persistence

variable {σ δ : Type}

/-! ## Exchanges -/

/-- Whether a statement changes something; the text of an operation counts as if it did. -/
def Statement.writes : Statement → Bool
  | rows _ => false
  | tableNames => false
  | columns _ => false
  | indexes _ => false
  | foreignKeys _ => false
  | definition _ => false
  | _ => true

namespace Exchange

/-- Whether a statement was sent that changes something. -/
def isWrite (x : Exchange) : Bool := x.request.statement?.any Statement.writes

def isCommit (x : Exchange) : Bool :=
  match x.request with
  | .commit _ => true
  | _ => false

def isRollback (x : Exchange) : Bool :=
  match x.request with
  | .rollback _ => true
  | _ => false

/-- Whether a statement failed. -/
def isFailure : Exchange → Bool
  | ⟨.query _ _, .error _⟩ => true
  | ⟨.poolQuery _ _, .error _⟩ => true
  | _ => false

/-- Only statements fail. -/
theorem isFailure_eq_false {x : Exchange} (h : x.request.statement? = none) :
    x.isFailure = false := by
  unfold isFailure
  split
  · cases h
  · cases h
  · rfl

/-- Whether a write was answered, but not as a success. -/
def isRefusal : Exchange → Bool
  | ⟨.query _ st, .ok o⟩ => st.writes && !o.isSuccess
  | ⟨.poolQuery _ st, .ok o⟩ => st.writes && !o.isSuccess
  | _ => false

end Exchange

/-- Whether writes are pending behind some exchanges: some were sent since the last rollback, or
were `pending` before and there was none. -/
def pendingAfter (pending : Bool) : List Exchange → Bool
  | [] => pending
  | x :: rest => pendingAfter (!x.isRollback && (pending || x.isWrite)) rest

/-- Whether a commit was requested while writes were pending. -/
def commitsPending (pending : Bool) : List Exchange → Bool
  | [] => false
  | x :: rest =>
      x.isCommit && pending || commitsPending (!x.isRollback && (pending || x.isWrite)) rest

/-- Whether a refusal was not followed by a rollback. -/
def leavesRefusal : List Exchange → Bool
  | [] => false
  | x :: rest => x.isRefusal && !rest.head?.any Exchange.isRollback || leavesRefusal rest

/-- All statements went over one connection, a rollback was requested on it behind the last of
them, and no commit was requested while writes were pending. -/
structure AllOrNothing (trace : List Exchange) : Prop where
  rolledBack : ∃ conn answer front back, trace = front ++ ⟨.rollback conn, answer⟩ :: back ∧
    (∀ x ∈ trace, ∀ st, x.request.statement? = some st → x.request = .query conn st) ∧
    ∀ x ∈ back, x.request.statement? = none
  uncommitted : commitsPending false trace = false

/-! ## The end of a cascade -/

/-- An exchange over a connection that stands in the way of nothing. -/
inductive Smooth (conn : Nat) : Exchange → Prop
  | produced (producer : String) (v : Value) : Smooth conn ⟨.produce producer, v⟩
  | answered {st : Statement} {o : Output} (h : st.writes = true → o.isSuccess = true) :
      Smooth conn ⟨.query conn st, .ok o⟩

/-- How a level of a cascade ends: with which exchanges over its connection, and whether with
success. -/
inductive Ending (conn : Nat) : List Exchange → Except DbError Bool → Prop
  | complete {front : List Exchange} (hfront : ∀ x ∈ front, Smooth conn x) :
      Ending conn front (.ok true)
  | undone {front : List Exchange} (hfront : ∀ x ∈ front, Smooth conn x) (st : Statement)
      (o : Output) :
      Ending conn (front ++ [⟨.query conn st, .ok o⟩, ⟨.rollback conn, .ok ()⟩]) (.ok false)
  | refused {front : List Exchange} (hfront : ∀ x ∈ front, Smooth conn x) {st : Statement}
      {o : Output} (hst : st.writes = true) (ho : o.isSuccess = false) :
      Ending conn (front ++ [⟨.query conn st, .ok o⟩]) (.ok false)
  | failed {front : List Exchange} (hfront : ∀ x ∈ front, Smooth conn x) (st : Statement)
      (e : DbError) : Ending conn (front ++ [⟨.query conn st, .error e⟩]) (.error e)
  | lost {front : List Exchange} (hfront : ∀ x ∈ front, Smooth conn x) (st : Statement) (o : Output)
      (e : DbError) :
      Ending conn (front ++ [⟨.query conn st, .ok o⟩, ⟨.rollback conn, .error e⟩]) (.error e)
  | stuck {front : List Exchange} (hfront : ∀ x ∈ front, Smooth conn x) (e : DbError) :
      Ending conn front (.error e)

variable {conn : Nat} {tx : Context}

/-- An end stays one behind smooth exchanges. -/
theorem Ending.prepend {front trace : List Exchange} {result : Except DbError Bool}
    (hfront : ∀ x ∈ front, Smooth conn x) (h : Ending conn trace result) :
    Ending conn (front ++ trace) result := by
  have hboth : ∀ {more : List Exchange}, (∀ x ∈ more, Smooth conn x) →
      ∀ x ∈ front ++ more, Smooth conn x := by
    intro more hmore
    rw [List.forall_mem_append]
    exact ⟨hfront, hmore⟩
  cases h with
  | complete hmore => exact .complete (hboth hmore)
  | undone hmore st o =>
      rw [← List.append_assoc]
      exact .undone (hboth hmore) st o
  | refused hmore hst ho =>
      rw [← List.append_assoc]
      exact .refused (hboth hmore) hst ho
  | failed hmore st e =>
      rw [← List.append_assoc]
      exact .failed (hboth hmore) st e
  | lost hmore st o e =>
      rw [← List.append_assoc]
      exact .lost (hboth hmore) st o e
  | stuck hmore e => exact .stuck (hboth hmore) e

/-- The answer to a statement that writes is the end of a level, if smooth exchanges are in front of
it. -/
theorem Ending.of_answer {front : List Exchange} (hfront : ∀ x ∈ front, Smooth conn x)
    {st : Statement} (hst : st.writes = true) (o : Output) :
    Ending conn (front ++ [⟨.query conn st, .ok o⟩]) (.ok o.isSuccess) := by
  cases ho : o.isSuccess with
  | false => exact .refused hfront hst ho
  | true =>
      apply Ending.complete
      have hsmooth : Smooth conn ⟨.query conn st, .ok o⟩ := .answered fun _ => ho
      simpa [or_imp, forall_and] using ⟨hfront, hsmooth⟩

/-- A task ends a level: `success` reads from its result whether it was successful. -/
def EndsLevel {α : Type} (tx : Context) (conn : Nat) (success : α → Bool) (t : Task Claims α) :
    Prop :=
  t.Ensures (Holds tx conn) fun trace result => Ending conn trace (result.map success)

/-- A statement in front of the end of a level that it has no part in. -/
theorem EndsLevel.of_execute {α : Type} {success : α → Bool} {st : Statement}
    {f : Output → Task Claims α} (hst : st.writes = false) (hf : ∀ o, EndsLevel tx conn success (f o)) :
    EndsLevel tx conn success (execute st (some tx) >>= f) := by
  apply Task.Ensures.bind
  apply execute_ensures
  intro answer
  cases answer with
  | error e =>
      show Ending conn ([] ++ [_]) _
      exact .failed (by simp) st e
  | ok o =>
      have hsmooth : Smooth conn ⟨.query conn st, .ok o⟩ := .answered (by simp [hst])
      exact (hf o).mono fun trace result => Ending.prepend (by simpa using hsmooth)

namespace Dao

/-- Claims are made without an exchange. -/
theorem claimRows_ensures (dao : Dao) (rows : List Row) :
    (dao.claimRows rows).Ensures (Holds tx conn) fun trace result =>
      trace = [] ∧ ∃ fresh, result = .ok fresh := by
  induction rows with
  | nil => exact .pure ⟨rfl, _, rfl⟩
  | cons row rows ih =>
      have hclaim : (claim dao.tableName (dao.rowKey row)).Ensures (Holds tx conn)
          fun trace result => trace = [] ∧ ∃ fresh, result = .ok fresh := by
        apply Task.Ensures.bind_of_silent
        · exact fun _ => ⟨rfl, _, rfl⟩
        · intro claims
          split
          · exact .pure ⟨rfl, _, rfl⟩
          · exact fun _ => ⟨rfl, _, rfl⟩
      rw [claimRows]
      exact .bind_of_silent hclaim fun fresh => .bind_of_silent ih fun rest => .pure ⟨rfl, _, rfl⟩

/-- Statements that delete are writes. -/
theorem Deletes.writes {dao : Dao} {q : Query} {st : Statement} (h : dao.Deletes q st) :
    st.writes = true := by
  cases h <;> rfl

/-- The own delete of a level ends the level. -/
theorem deleteRows_ends (dao : Dao) (q : Query) (force : Bool) (relations : List RelationCount) :
    EndsLevel tx conn DeleteResult.success (dao.deleteRows q force relations tx) := by
  rw [deleteRows]
  apply Task.Ensures.bind
  apply (deleteStatement_ensures dao q).mono
  rintro front result ⟨hproduced, st, rfl, hdeletes⟩
  have hst := hdeletes.writes
  have hfront : ∀ x ∈ front, Smooth conn x := by
    intro x hx
    obtain ⟨producer, v, rfl⟩ := hproduced x hx
    exact .produced producer v
  apply Task.Ensures.bind
  apply execute_ensures
  intro answer
  cases answer with
  | error e => exact .failed hfront st e
  | ok o =>
      dsimp only
      split
      · apply Task.Ensures.bind
        apply Context.rollback_ensures
        intro answer
        cases answer with
        | error e => exact .lost hfront st o e
        | ok u => exact .pure (.undone hfront st o)
      · exact .pure (.of_answer hfront hst o)

end Dao

/-- The removals in dependents end like the first of them that is no success. -/
theorem removeDependents_ends {step : CascadeStep} (rows : List Row) (deps : List Dependent)
    (hstep : ∀ delete q, EndsLevel tx conn DeleteResult.success (step delete q)) :
    EndsLevel tx conn Removal.complete (removeDependents step rows deps) := by
  induction deps with
  | nil => exact .pure (.complete (by simp))
  | cons dep deps ih =>
      rw [removeDependents]
      split
      · exact ih
      · apply Task.Ensures.state_bind
        intro s _
        split
        · exact ih
        · next delete _ =>
          apply Task.Ensures.bind
          apply (hstep delete (scopeQuery dep.property (dep.references rows))).mono
          intro trace result hend
          cases result with
          | error e => exact hend
          | ok r =>
              obtain ⟨success, count, relations⟩ := r
              cases success with
              | false =>
                  apply Task.Ensures.pure
                  rw [List.append_nil]
                  exact hend
              | true =>
                  have hsmooth : ∀ x ∈ trace, Smooth conn x := by
                    cases hend with
                    | complete hsmooth => exact hsmooth
                  apply Task.Ensures.bind
                  apply ih.mono
                  intro more rest hrest
                  cases rest with
                  | error e => exact hrest.prepend hsmooth
                  | ok rest =>
                      apply Task.Ensures.pure
                      rw [List.append_nil]
                      exact hrest.prepend hsmooth

/-- One level of a cascade ends if the levels behind it do. -/
theorem Dao.deleteLevel_ends (dao : Dao) {step : CascadeStep} (q : Query) (force : Bool)
    (hstep : ∀ delete q, EndsLevel tx conn DeleteResult.success (step delete q)) :
    EndsLevel tx conn DeleteResult.success (dao.deleteLevel step q force tx) := by
  rw [deleteLevel]
  apply Task.Ensures.state_bind
  intro s _
  dsimp only
  split
  · exact dao.deleteRows_ends q force []
  · apply EndsLevel.of_execute rfl
    intro o
    apply Task.Ensures.bind_of_silent (dao.claimRows_ensures o.rows)
    intro rows
    split
    · exact .pure (.complete (by simp))
    · apply Task.Ensures.bind
      apply (removeDependents_ends rows (s.catalog.dependentsOf dao.tableName) hstep).mono
      intro trace result hend
      cases result with
      | error e => exact hend
      | ok removal =>
          obtain ⟨complete, relations⟩ := removal
          cases complete with
          | false =>
              apply Task.Ensures.pure
              rw [List.append_nil]
              exact hend
          | true =>
              have hsmooth : ∀ x ∈ trace, Smooth conn x := by
                cases hend with
                | complete hsmooth => exact hsmooth
              exact (dao.deleteRows_ends _ force relations).mono fun _ _ => Ending.prepend hsmooth

/-- A delete that is given as a statement ends like the statement. -/
theorem DeleteOperation.statement_ends (d : Delete) (levels : Nat) (q : Query) (force : Bool) :
    EndsLevel tx conn DeleteResult.success ((statement d).cascade levels q force (some tx)) := by
  rw [cascade, Delete.call, bind_assoc]
  apply Task.Ensures.bind
  apply execute_ensures
  intro answer
  cases answer with
  | error e =>
      show Ending conn ([] ++ [_]) _
      exact .failed (by simp) _ e
  | ok o =>
      apply Task.Ensures.pure
      show Ending conn ([] ++ [_]) _
      exact .of_answer (by simp) rfl o

/-- A cascade in a transaction ends in one of the six ways, for every driver and in every state in
which the transaction has its connection. -/
theorem DeleteOperation.cascade_ends (levels : Nat) (delete : DeleteOperation) (q : Query)
    (force : Bool) :
    EndsLevel tx conn DeleteResult.success (delete.cascade levels q force (some tx)) := by
  induction levels generalizing delete q with
  | zero =>
      cases delete with
      | statement d => exact statement_ends d 0 q force
      | dao d => exact .fail (.stuck (by simp) _)
  | succ levels ih =>
      cases delete with
      | statement d => exact statement_ends d (levels + 1) q force
      | dao d =>
          rw [cascade, transaction_some]
          exact d.deleteLevel_ends q force fun delete q => ih delete q

/-! ## The bracket -/

/-- An exchange that no bracket takes for an end or a failure. -/
def Quiet (x : Exchange) : Prop :=
  x.isCommit = false ∧ x.isRollback = false ∧ x.isFailure = false ∧ x.isRefusal = false

theorem Smooth.quiet {x : Exchange} (h : Smooth conn x) : Quiet x := by
  cases h with
  | produced producer v => exact ⟨rfl, rfl, rfl, rfl⟩
  | @answered st o ho =>
      refine ⟨rfl, rfl, rfl, ?_⟩
      cases hst : st.writes <;> simp_all [Exchange.isRefusal]

/-- Quiet exchanges leave no refusal. -/
theorem leavesRefusal_append {front : List Exchange} (h : ∀ x ∈ front, Quiet x)
    (trace : List Exchange) : leavesRefusal (front ++ trace) = leavesRefusal trace := by
  induction front with
  | nil => rfl
  | cons x front ih =>
      rw [List.forall_mem_cons] at h
      simp [leavesRefusal, h.1.2.2.2, ih h.2]

/-- Quiet exchanges commit nothing. -/
theorem commitsPending_append {front : List Exchange} (h : ∀ x ∈ front, Quiet x) (pending : Bool)
    (trace : List Exchange) :
    commitsPending pending (front ++ trace) = commitsPending (pendingAfter pending front) trace := by
  induction front generalizing pending with
  | nil => rfl
  | cons x front ih =>
      rw [List.forall_mem_cons] at h
      simp [commitsPending, pendingAfter, h.1.1, ih h.2]

/-- An exchange whose statement, if it has one, goes over a connection. -/
def Over (conn : Nat) (x : Exchange) : Prop :=
  ∀ st, x.request.statement? = some st → x.request = .query conn st

theorem Smooth.over {x : Exchange} (h : Smooth conn x) : Over conn x := by
  intro st hst
  cases h <;> cases hst
  rfl

/-- The end of a bracket has no statements, and there is nothing to undo in it. -/
theorem Settlement.exchanges {worked : Bool} {back : List Exchange}
    (h : Settlement conn worked back) :
    (∀ x ∈ back, x.request.statement? = none ∧ x.isFailure = false) ∧
      commitsPending false back = false ∧ leavesRefusal back = false := by
  cases h <;>
    simp [Request.statement?, Exchange.isFailure, commitsPending, leavesRefusal, Exchange.isCommit,
      Exchange.isRollback, Exchange.isWrite, Exchange.isRefusal]

/-- The exchanges with which a transaction starts. -/
def started (pool conn : Nat) : List Exchange :=
  [⟨.acquire pool, .ok conn⟩, ⟨.begin conn, .ok ()⟩]

section Brackets

variable {pool : Nat} {front tail back : List Exchange}

/-- The start of a transaction and smooth exchanges are quiet. -/
theorem quiet_started (hfront : ∀ x ∈ front, Smooth conn x) :
    ∀ x ∈ started pool conn ++ front, Quiet x := by
  rw [List.forall_mem_append]
  refine ⟨?_, fun x hx => (hfront x hx).quiet⟩
  simp [started, Quiet, Exchange.isCommit, Exchange.isRollback, Exchange.isFailure,
    Exchange.isRefusal]

/-- What is undone behind smooth exchanges is undone as a whole. -/
theorem AllOrNothing.of_smooth (hfront : ∀ x ∈ front, Smooth conn x) (hover : ∀ x ∈ tail, Over conn x)
    (hundone : ∃ answer mid back, tail = mid ++ ⟨.rollback conn, answer⟩ :: back ∧
      ∀ x ∈ back, x.request.statement? = none)
    (hcommit : ∀ pending, commitsPending pending tail = false) :
    AllOrNothing (started pool conn ++ (front ++ tail)) := by
  obtain ⟨answer, mid, back, htail, hback⟩ := hundone
  constructor
  · refine ⟨conn, answer, started pool conn ++ (front ++ mid), back, by simp [htail], ?_, hback⟩
    simp only [List.forall_mem_append]
    refine ⟨?_, fun x hx => (hfront x hx).over, hover⟩
    simp [started, Request.statement?]
  · rw [← List.append_assoc, commitsPending_append (quiet_started hfront)]
    exact hcommit _

/-- A delete in a bracket that did not succeed is undone as a whole exactly if no refusal was left
without a rollback. -/
theorem Ending.allOrNothing_iff {trace : List Exchange} {result : Except DbError Bool}
    (h : Ending conn trace result) (hback : Settlement conn result.isOk back)
    (hbad : (∃ x ∈ started pool conn ++ (trace ++ back), x.isFailure = true) ∨ result = .ok false) :
    AllOrNothing (started pool conn ++ (trace ++ back)) ↔
      leavesRefusal (started pool conn ++ (trace ++ back)) = false := by
  obtain ⟨hnone, hcommit, hrefusal⟩ := hback.exchanges
  have hover : ∀ x ∈ back, Over conn x := by
    intro x hx st hst
    simp [(hnone x hx).1] at hst
  have hquiet : ∀ {front middle : List Exchange}, (∀ x ∈ front, Smooth conn x) →
      (∀ x ∈ middle, x.isFailure = false) →
      ¬∃ x ∈ started pool conn ++ (front ++ middle ++ back), x.isFailure = true := by
    rintro front middle hfront hmiddle ⟨x, hx, hfailure⟩
    rw [← List.append_assoc, ← List.append_assoc, List.mem_append, List.mem_append] at hx
    rcases hx with (hx | hx) | hx
    · simp [(quiet_started hfront x hx).2.2.1] at hfailure
    · simp [hmiddle x hx] at hfailure
    · simp [(hnone x hx).2] at hfailure
  cases h with
  | complete hfront =>
      rcases hbad with hbad | hbad
      · exact absurd hbad (by simpa using hquiet hfront (List.forall_mem_nil _))
      · simp at hbad
  | stuck hfront e =>
      rcases hbad with hbad | hbad
      · exact absurd hbad (by simpa using hquiet hfront (List.forall_mem_nil _))
      · simp at hbad
  | lost hfront st o e =>
      rcases hbad with hbad | hbad
      · exact absurd hbad (hquiet hfront (by simp [Exchange.isFailure]))
      · simp at hbad
  | undone hfront st o =>
      rw [List.append_assoc]
      apply iff_of_true
      · apply AllOrNothing.of_smooth hfront
        · simpa [Over, Request.statement?] using hover
        · exact ⟨.ok (), [_], back, rfl, fun x hx => (hnone x hx).1⟩
        · simp [commitsPending, Exchange.isCommit, Exchange.isRollback, hcommit]
      · rw [← List.append_assoc, leavesRefusal_append (quiet_started hfront)]
        simp [leavesRefusal, Exchange.isRollback, Exchange.isRefusal, hrefusal]
  | failed hfront st e =>
      cases hback with
      | failed undone released =>
          rw [List.append_assoc]
          apply iff_of_true
          · apply AllOrNothing.of_smooth hfront
            · simp [Over, Request.statement?]
            · exact ⟨undone, [_], [_], rfl, by simp [Request.statement?]⟩
            · simp [commitsPending, Exchange.isCommit, Exchange.isRollback]
          · rw [← List.append_assoc, leavesRefusal_append (quiet_started hfront)]
            simp [leavesRefusal, Exchange.isRefusal]
  | @refused front hfront st o hst ho =>
      -- the commit is the next request behind the refusal, and the refused write is pending
      have hcommits : ∃ answer more, back = ⟨.commit conn, answer⟩ :: more := by
        cases hback with
        | committed released => exact ⟨_, _, rfl⟩
        | undone e undone released => exact ⟨_, _, rfl⟩
      obtain ⟨answer, more, rfl⟩ := hcommits
      rw [List.append_assoc]
      apply iff_of_false
      · intro hall
        have huncommitted := hall.uncommitted
        rw [← List.append_assoc, commitsPending_append (quiet_started hfront)] at huncommitted
        simp [commitsPending, Exchange.isCommit, Exchange.isRollback, Exchange.isWrite,
          Request.statement?, hst] at huncommitted
      · rw [← List.append_assoc, leavesRefusal_append (quiet_started hfront)]
        simp [leavesRefusal, Exchange.isRefusal, Exchange.isRollback, hst, ho]

end Brackets

/-! ## Deletes -/

namespace Dao

/-- A delete in a transaction of its own in which a statement failed, or which is not successful,
is undone as a whole exactly if every write that was answered with a sign of failure was followed
by a rollback: for every driver, every state and every catalog. -/
theorem deleteQuery_allOrNothing_iff (dao : Dao) (driver : Driver δ) (levels : Nat) (q : Query)
    (force : Bool) (l : σ) (s : State) (d : δ)
    (h : (∃ x ∈ (dao.deleteQuery levels q force none : Task σ DeleteResult).exchanges driver l s d,
        x.isFailure = true) ∨
      ∃ r, ((dao.deleteQuery levels q force none : Task σ DeleteResult).run driver l s d).1.1 =
        .ok r ∧ r.success = false) :
    AllOrNothing
        ((dao.deleteQuery levels q force none : Task σ DeleteResult).exchanges driver l s d) ↔
      leavesRefusal
        ((dao.deleteQuery levels q force none : Task σ DeleteResult).exchanges driver l s d) =
          false := by
  rw [deleteQuery, Task.exchanges_withLocal, Task.run_withLocal] at h
  rw [deleteQuery, Task.exchanges_withLocal]
  cases levels with
  | zero =>
      rw [DeleteOperation.cascade] at h
      rcases h with ⟨x, hx, -⟩ | ⟨r, hr, -⟩
      · exact absurd hx List.not_mem_nil
      · cases hr
  | succ levels =>
      rw [DeleteOperation.cascade] at h ⊢
      have hlevel : ∀ tx conn, EndsLevel tx conn DeleteResult.success
          (dao.deleteLevel (fun delete q => delete.cascade levels q force (some tx)) q force tx) :=
        fun tx conn => dao.deleteLevel_ends q force fun delete q =>
          delete.cascade_ends levels q force
      have hbracket := bracketed_transaction hlevel driver [] s d
      generalize Task.exchanges driver (transaction none _) [] s d = trace at h hbracket ⊢
      generalize (Task.run driver (transaction none _) [] s d).1.1 = outcome at h hbracket
      cases hbracket with
      | unstarted hnone =>
          rcases h with ⟨x, hx, hfailure⟩ | ⟨r, hr, -⟩
          · rw [Exchange.isFailure_eq_false (hnone x hx)] at hfailure
            cases hfailure
          · cases hr
      | @settled pool conn trace back worked outcome hwork hend hresult =>
          have hok : (worked.map DeleteResult.success).isOk = worked.isOk := by
            cases worked <;> rfl
          rw [← hok] at hend
          refine hwork.allOrNothing_iff hend ?_
          rcases h with hfailure | ⟨r, hr, hsuccess⟩
          · exact .inl hfailure
          · right
            rw [hresult r hr, Except.map, hsuccess]

end Dao

/-! ## A delete that is undone and one that is not -/

namespace Ring

/-- A driver that finds another row in each of a number of reads and then none, and answers every
write with one row affected and a number of fields. -/
def finder (fieldCount : Nat) : Driver Nat where
  answer r reads :=
    match r with
    | .query _ (.rows _) =>
        if reads = 0 then (.ok (Output.ofRows []), 0)
        else (.ok (Output.ofRows [row reads 0]), reads - 1)
    | .query _ _ => (.ok ⟨[], 1, none, fieldCount⟩, reads)
    | r => (r.granted, reads)

/-- The opening of the entity type in an open pool. -/
def opening : (Except DbError (Option Dao) × Unit) × State × Nat :=
  (openDao entity .any : Task Unit (Option Dao)).run (finder 0) ()
    { State.initial with pool := .open 0 } 0

/-- The access to the objects. -/
def dao : Dao := opening.1.1.toOption.join.get (by decide +kernel)

/-- The delete of one object. -/
def delete (force : Bool) : Task Unit DeleteResult :=
  dao.deleteQuery 3 (Query.empty.eq "id" (.int 2)) force none

end Ring

/-- A delete that is refused because another row refers to the one to be deleted is undone as a
whole. -/
theorem Dao.deleteQuery_undone_ring :
    (((Ring.delete false).run (Ring.finder 0) () Ring.opening.2.1 2).1.1.toOption.map
        DeleteResult.success) = some false ∧
      AllOrNothing ((Ring.delete false).exchanges (Ring.finder 0) () Ring.opening.2.1 2) := by
  have hresult : (((Ring.delete false).run (Ring.finder 0) () Ring.opening.2.1 2).1.1.toOption.map
      DeleteResult.success) = some false := by
    decide +kernel
  refine ⟨hresult, (deleteQuery_allOrNothing_iff Ring.dao (Ring.finder 0) 3 _ false ()
    Ring.opening.2.1 2 (.inr ?_)).2 (by decide +kernel)⟩
  cases hrun : ((Ring.delete false).run (Ring.finder 0) () Ring.opening.2.1 2).1.1 with
  | error e =>
      rw [hrun] at hresult
      cases hresult
  | ok r =>
      rw [hrun] at hresult
      exact ⟨r, hrun, Option.some.inj hresult⟩

/-- A delete whose only statement is answered with a field is not successful, and it is committed
all the same. -/
theorem Dao.deleteQuery_committed_ring :
    (((Ring.delete true).run (Ring.finder 1) () Ring.opening.2.1 0).1.1.toOption.map
        DeleteResult.success) = some false ∧
      ¬AllOrNothing ((Ring.delete true).exchanges (Ring.finder 1) () Ring.opening.2.1 0) := by
  refine ⟨by decide +kernel, ?_⟩
  intro h
  have hcommits : commitsPending false
      ((Ring.delete true).exchanges (Ring.finder 1) () Ring.opening.2.1 0) = true := by
    decide +kernel
  rw [h.uncommitted] at hcommits
  cases hcommits

end Persistence
