import Persistence.Proofs.Cascade.Asking
import Persistence.Proofs.Program.Exchanges

/-!
# Claims grow

A cascade never drops a claim, and it makes none twice: the claims behind it are those before it
with the ones that succeeded in front of them, the last one first.  Only `claim` touches the local
state of the task, so this is checked along the program like what a task asks.

Main results:

- `DeleteOperation.cascade_grows`: claims are never dropped, and none is made twice.
- `DeleteOperation.run_cascade_state`: inside of a transaction a cascade leaves the shared state as
  it is.
-/

namespace Persistence

variable {α β δ : Type}

/-- Claims that were made behind others: none was dropped, and none was made twice. -/
structure Extends (claims claims' : Claims) : Prop where
  suffix : claims <:+ claims'
  nodup : claims.Nodup → claims'.Nodup

namespace Extends

theorem refl (claims : Claims) : Extends claims claims := ⟨List.suffix_refl _, id⟩

theorem trans {a b c : Claims} (h : Extends a b) (h' : Extends b c) : Extends a c :=
  ⟨h.suffix.trans h'.suffix, h'.nodup ∘ h.nodup⟩

theorem claim {claims : Claims} {c : String × String} (h : c ∉ claims) : Extends claims (c :: claims) :=
  ⟨List.suffix_cons c claims, fun hnodup => List.nodup_cons.2 ⟨h, hnodup⟩⟩

theorem subset {claims claims' : Claims} (h : Extends claims claims') : claims ⊆ claims' :=
  h.suffix.subset

end Extends

/-- A task that drops no claim and makes none twice, whatever it is answered. -/
def Grows (t : Task Claims α) : Prop :=
  ∀ claims, (t claims).Ensures (fun _ => True) fun _ result => Extends claims result.2

namespace Grows

theorem pure (a : α) : Grows (Pure.pure a) := fun claims => .refl claims

theorem fail (e : DbError) : Grows (Task.fail e : Task Claims α) := fun claims => .refl claims

theorem ofExcept (x : Except DbError α) : Grows (Task.ofExcept x) := by
  cases x with
  | error e => exact fail e
  | ok a => exact pure a

theorem ask (r : Request) : Grows (Task.ask r) := fun claims _ => .refl claims

theorem modify (f : State → State) : Grows (Task.modify f) :=
  fun claims _ _ => ⟨trivial, .refl claims⟩

theorem bind {t : Task Claims α} {f : α → Task Claims β} (ht : Grows t) (hf : ∀ a, Grows (f a)) :
    Grows (t >>= f) := by
  intro claims
  refine Program.Ensures.bind ((ht claims).mono ?_)
  rintro trace ⟨result, claims'⟩ hgrown
  cases result with
  | error e => exact hgrown
  | ok a => exact (hf a claims').mono fun _ _ => hgrown.trans

theorem state_bind {f : State → Task Claims α} (hf : ∀ s, Grows (f s)) :
    Grows (Task.state >>= f) :=
  fun claims s _ => hf s claims

theorem attempt {t : Task Claims α} (ht : Grows t) : Grows (Task.attempt t) :=
  fun claims => Program.Ensures.bind ((ht claims).mono fun _ _ h => h)

/-- What a run leaves of the claims of a task that drops none. -/
theorem run {t : Task Claims α} (h : Grows t) (driver : Driver δ) (claims : Claims) (s : State)
    (d : δ) : Extends claims (t.run driver claims s d).1.2 :=
  ((h claims).exchanges driver trivial d).1

end Grows

/-! ### Tasks that make no claims -/

theorem Context.connection_bind_grows (c : Context) {f : Nat → Task Claims α}
    (hf : ∀ conn, Grows (f conn)) : Grows (c.connection >>= f) := by
  refine .bind (.state_bind fun s => ?_) hf
  split
  · exact .pure _
  · exact .fail _

theorem pool_grows : Grows Task.pool := by
  refine .state_bind fun s => ?_
  split
  · exact .fail _
  · exact .pure _
  · exact .fail _

theorem execute_grows (st : Statement) (ctx : Option Context) : Grows (execute st ctx) := by
  cases ctx with
  | none => exact pool_grows.bind fun pool => (Grows.ask _).bind fun _ => .ofExcept _
  | some c => exact c.connection_bind_grows fun conn => (Grows.ask _).bind fun _ => .ofExcept _

theorem Context.rollback_grows (c : Context) : Grows c.rollback :=
  c.connection_bind_grows fun _ => (Grows.ask _).bind fun _ => .ofExcept _

theorem startTransaction_grows : Grows startTransaction := by
  refine pool_grows.bind fun pool => (Grows.ask _).bind fun acquired => ?_
  refine (Grows.ofExcept acquired).bind fun conn => (Grows.ask _).bind fun begun => ?_
  cases begun with
  | error e => exact (Grows.ask _).bind fun _ => .fail e
  | ok => exact .state_bind fun s => (Grows.modify _).bind fun _ => .pure _

theorem finishWith_grows (tx : Context) (result : Except DbError α) :
    Grows (finishWith tx result) := by
  refine .bind (.attempt ?_) fun ended => .ofExcept _
  exact tx.connection_bind_grows fun _ => (Grows.modify _).bind fun _ =>
    (Grows.ask _).bind fun _ => .ofExcept _

theorem settle_grows (tx : Context) (worked : Except DbError α) : Grows (settle tx worked) := by
  have hundo : ∀ e, Grows (settle tx (.error e) : Task Claims α) := by
    intro e
    rw [settle_error]
    exact tx.rollback_grows.attempt.bind fun _ => finishWith_grows tx _
  cases worked with
  | error e => exact hundo e
  | ok a =>
      rw [settle_ok]
      refine .bind (.attempt ?_) fun committed => ?_
      · exact tx.connection_bind_grows fun _ => (Grows.ask _).bind fun _ => .ofExcept _
      · cases committed with
        | error e => exact hundo e
        | ok => exact finishWith_grows tx _

theorem transaction_grows (parent : Option Context) {work : Context → Task Claims α}
    (hwork : ∀ tx, Grows (work tx)) : Grows (transaction parent work) := by
  cases parent with
  | some tx =>
      rw [transaction_some]
      exact hwork tx
  | none =>
      exact startTransaction_grows.bind fun tx => (hwork tx).attempt.bind fun worked =>
        settle_grows tx worked

/-! ### Levels -/

namespace Dao

theorem claimRows_grows (dao : Dao) (rows : List Row) : Grows (dao.claimRows rows) := by
  induction rows with
  | nil => exact .pure _
  | cons row rows ih =>
      refine .bind ?_ fun fresh => ih.bind fun rest => .pure _
      intro claims
      show ((if (dao.tableName, dao.rowKey row) ∈ claims then Pure.pure false
        else Task.setLocal ((dao.tableName, dao.rowKey row) :: claims) >>= fun _ =>
          Pure.pure true : Task Claims Bool) claims).Ensures _ _
      split
      · exact .refl claims
      · next hclaim => exact .claim hclaim

theorem deleteValues_grows (columns : List Column) : Grows (deleteValues columns) := by
  induction columns with
  | nil => exact .pure _
  | cons c columns ih =>
      rw [deleteValues]
      split
      · exact ih
      · exact ih.bind fun _ => .pure _
      · exact (Grows.ask _).bind fun _ => ih.bind fun _ => .pure _

theorem deleteRows_grows (dao : Dao) (q : Query) (force : Bool) (relations : List RelationCount)
    (tx : Context) : Grows (dao.deleteRows q force relations tx) := by
  refine .bind ?_ fun st => (execute_grows st (some tx)).bind fun o => ?_
  · unfold deleteStatement
    split
    · exact (deleteValues_grows _).bind fun _ => .pure _
    · exact .pure _
  · dsimp only
    split
    · exact tx.rollback_grows.bind fun _ => .pure _
    · exact .pure _

end Dao

theorem removeDependents_grows {step : CascadeStep} (hstep : ∀ delete q, Grows (step delete q))
    (rows : List Row) (deps : List Dependent) : Grows (removeDependents step rows deps) := by
  induction deps with
  | nil => exact .pure _
  | cons dep deps ih =>
      rw [removeDependents]
      split
      · exact ih
      · refine .state_bind fun s => ?_
        split
        · exact ih
        · refine (hstep _ _).bind fun r => ?_
          split
          · exact ih.bind fun _ => .pure _
          · exact .pure _

theorem Dao.deleteLevel_grows {step : CascadeStep} (hstep : ∀ delete q, Grows (step delete q))
    (dao : Dao) (q : Query) (force : Bool) (tx : Context) :
    Grows (dao.deleteLevel step q force tx) := by
  refine .state_bind fun s => ?_
  dsimp only
  split
  · exact dao.deleteRows_grows q force [] tx
  · refine (execute_grows _ _).bind fun o => (dao.claimRows_grows _).bind fun rows => ?_
    split
    · exact .pure _
    · refine (removeDependents_grows hstep rows _).bind fun removal => ?_
      split
      · exact dao.deleteRows_grows _ force _ tx
      · exact .pure _

namespace DeleteOperation

/-- A cascade drops no claim and makes none twice. -/
theorem cascade_grows (levels : Nat) (delete : DeleteOperation) (q : Query) (force : Bool)
    (ctx : Option Context) : Grows (delete.cascade levels q force ctx) := by
  induction levels generalizing delete q ctx with
  | zero =>
      cases delete with
      | statement d =>
          rw [cascade]
          exact .bind ((execute_grows _ ctx).bind fun _ => .pure _) fun _ => .pure _
      | dao d => exact .fail _
  | succ levels ih =>
      cases delete with
      | statement d =>
          rw [cascade]
          exact .bind ((execute_grows _ ctx).bind fun _ => .pure _) fun _ => .pure _
      | dao d =>
          rw [cascade]
          exact transaction_grows ctx fun tx =>
            d.deleteLevel_grows (fun delete q => ih delete q (some tx)) q force tx

/-- A cascade inside of a transaction leaves the shared state as it is. -/
theorem run_cascade_state (levels : Nat) (delete : DeleteOperation) (q : Query) (force : Bool)
    (tx : Context) (driver : Driver δ) (claims : Claims) (s : State) (d : δ) :
    ((delete.cascade levels q force (some tx)).run driver claims s d).2.1 = s := by
  have hkeeps : (delete.cascade levels q force (some tx)).Within (· = s) fun _ => True :=
    cascade_some_within (fun _ => trivial) (fun _ => tx.rollback_within fun _ _ => trivial)
      (fun _ => execute_within fun _ => trivial) levels delete q
  exact ((hkeeps claims).asked driver rfl d).2

end DeleteOperation

end Persistence
