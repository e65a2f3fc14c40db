import Persistence.Proofs.Cascade.Asking
import Persistence.Proofs.Cascade.Claims

/-!
# Deletes that were sent

A level of a cascade may end without a statement of its own: because other levels have claimed its
rows, or because one of its dependents refuses.  The first level finds nothing claimed, so that a
delete which succeeds has sent its statement, whatever the answers were.

Main results:

- `exists_of_run_transaction`: a bracket that succeeds has done its work with success.
- `Dao.exists_asked_of_run_deleteQuery`: a delete that succeeds has asked for its statement.
-/

namespace Persistence

variable {σ α δ : Type} {driver : Driver δ} {l : σ} {s : State} {x : δ}

/-- A bracket succeeds only if its work does, and asks for what its work asks for. -/
theorem exists_of_run_transaction {ctx : Option Context} {work : Context → Task σ α} {a : α}
    (h : ((transaction ctx work).run driver l s x).1.1 = .ok a) :
    ∃ tx s₁ x₁, ((work tx).run driver l s₁ x₁).1.1 = .ok a ∧
      ∀ r ∈ (work tx).asked driver l s₁ x₁, r ∈ (transaction ctx work).asked driver l s x := by
  cases ctx with
  | some tx =>
      rw [transaction_some] at h ⊢
      exact ⟨tx, s, x, h, fun _ hr => hr⟩
  | none =>
      rw [transaction] at h
      obtain ⟨tx, l₁, s₁, x₁, hopen, hrest⟩ := Task.exists_of_run_bind h
      have hlocal : l₁ = l := by
        obtain ⟨result, s', x', hrun, -⟩ := start_startTransaction driver l s x
        rw [openBracket, hrun] at hopen
        exact (congrArg (fun run => run.1.2) hopen).symm
      rw [Task.run_bind_of_ok (Task.run_attempt _), hlocal] at hrest
      rw [hlocal] at hopen
      exact ⟨tx, s₁, x₁, worked_of_run_settle hrest, fun r hr =>
        Task.mem_asked_bind hopen (Task.mem_asked_bind_left (Task.mem_asked_attempt hr))⟩

/-! ## Levels -/

namespace Dao

variable {dao : Dao} {tx : Context} {q : Query} {force : Bool} {claims : Claims} {r : DeleteResult}

/-- The own delete of a level is asked for before it has a result. -/
theorem exists_asked_of_run_deleteRows {relations : List RelationCount}
    (h : ((dao.deleteRows q force relations tx).run driver claims s x).1.1 = .ok r) :
    ∃ conn st, dao.Deletes q st ∧
      .query conn st ∈ (dao.deleteRows q force relations tx).asked driver claims s x := by
  rw [deleteRows] at h
  obtain ⟨st, l₁, s₁, x₁, hstatement, h⟩ := Task.exists_of_run_bind h
  obtain ⟨o, l₂, s₂, x₂, hexecute, -⟩ := Task.exists_of_run_bind h
  obtain ⟨-, -, conn, hconn, -⟩ := answer_of_run_execute hexecute
  have hdeletes : dao.Deletes q st := by
    have hensures : (dao.deleteStatement q).Ensures (fun _ => True) _ :=
      dao.deleteStatement_ensures q
    obtain ⟨⟨-, st', hst', hdeletes⟩, -⟩ := (hensures claims).exchanges driver (s := s) trivial x
    have hsame : (dao.deleteStatement q claims).run driver s x = ((.ok st, l₁), s₁, x₁) :=
      hstatement
    rw [hsame] at hst'
    cases hst'
    exact hdeletes
  exact ⟨conn, st, hdeletes, Task.mem_asked_bind hstatement
    (Task.mem_asked_bind_left (mem_asked_execute hconn st))⟩

/-- Nothing is left unclaimed where there were no claims. -/
theorem freshRows_eq_nil {rows : List Row} (h : dao.freshRows [] rows = []) : rows = [] := by
  cases rows with
  | nil => rfl
  | cons row rows => simp [freshRows] at h

/-- A level without claims in front of it has asked for its delete if it succeeds. -/
theorem exists_asked_of_run_deleteLevel {step : CascadeStep}
    (h : ((dao.deleteLevel step q force tx).run driver [] s x).1.1 = .ok r)
    (hsuccess : r.success = true) :
    ∃ conn q' st, dao.Deletes q' st ∧
      .query conn st ∈ (dao.deleteLevel step q force tx).asked driver [] s x := by
  rw [deleteLevel, Task.run_bind_of_ok Task.run_state] at h
  dsimp only at h
  split at h
  · next hdeps =>
    obtain ⟨conn, st, hdeletes, hasked⟩ := exists_asked_of_run_deleteRows h
    refine ⟨conn, q, st, hdeletes, Task.mem_asked_bind Task.run_state ?_⟩
    dsimp only
    rwa [if_pos hdeps]
  · next hdeps =>
    obtain ⟨o, l₁, s₁, x₁, hread, hrest⟩ := Task.exists_of_run_bind h
    obtain ⟨rfl, -, -⟩ := answer_of_run_execute hread
    rw [Task.run_bind_of_ok (dao.run_claimRows _ _)] at hrest
    split at hrest
    · next hskip =>
      -- Where no row is left, none was there, and then all of them have been claimed.
      simp only [Bool.and_eq_true, Bool.not_eq_true', decide_eq_false_iff_not,
        List.isEmpty_iff] at hskip
      refine absurd ?_ hskip.1
      rw [hskip.2, freshRows_eq_nil hskip.2]
    · next hskip =>
      obtain ⟨removal, l₂, s₂, x₂, hremoval, hown⟩ := Task.exists_of_run_bind hrest
      split at hown
      · next hcomplete =>
        obtain ⟨conn, st, hdeletes, hasked⟩ := exists_asked_of_run_deleteRows hown
        refine ⟨conn, _, st, hdeletes, Task.mem_asked_bind Task.run_state ?_⟩
        dsimp only
        rw [if_neg hdeps]
        refine Task.mem_asked_bind hread (Task.mem_asked_bind (dao.run_claimRows _ _) ?_)
        rw [if_neg hskip]
        refine Task.mem_asked_bind hremoval ?_
        rwa [if_pos hcomplete]
      · cases hown
        cases hsuccess

/-- A delete that succeeds has asked for its statement. -/
theorem exists_asked_of_run_deleteQuery {levels : Nat} {ctx : Option Context}
    (h : ((dao.deleteQuery levels q force ctx : Task σ DeleteResult).run driver l s x).1.1 = .ok r)
    (hsuccess : r.success = true) :
    ∃ conn q' st, dao.Deletes q' st ∧
      .query conn st ∈ (dao.deleteQuery levels q force ctx : Task σ DeleteResult).asked driver l s
        x := by
  rw [deleteQuery, Task.run_withLocal] at h
  cases levels with
  | zero => cases h
  | succ levels =>
      obtain ⟨tx, s₁, x₁, hlevel, hasked⟩ := exists_of_run_transaction h
      obtain ⟨conn, q', st, hdeletes, hmem⟩ := exists_asked_of_run_deleteLevel hlevel hsuccess
      exact ⟨conn, q', st, hdeletes, Task.mem_asked_withLocal (hasked _ hmem)⟩

end Dao

end Persistence
