import Persistence.Dao.Delete
import Persistence.Proofs.Program.Exchanges

/-!
# What a cascade asks

The statements of a level of a cascade, for every driver: it reads the rows of its query, deletes
the rows of its query or of a query that was narrowed to some of those rows, and starts a level for
every dependent with rows that refer to the ones read.  A table without dependents is deleted from
with one statement.

Main results:

- `Dao.deleteLevel_within`: the statements of one level.
- `DeleteOperation.cascade_within`: a cascade keeps what contexts keep.
- `Dao.asked_deleteQuery`: the requests of a delete.
-/

namespace Persistence

variable {σ α : Type} {I : State → Prop} {P : Request → Prop}

/-- The scope of a statement that reads, removes or changes the rows of one. -/
def Statement.scope? : Statement → Option Scope
  | rows s => some s
  | remove s => some s
  | flag s _ => some s
  | _ => none

/-- A statement outside of contexts or in one asks for nothing else. -/
theorem execute_within_of_forall {s : Statement} (ctx : Option Context)
    (hs : ∀ r : Request, r.statement? = some s → P r) :
    (execute s ctx : Task σ Output).Within I P := by
  cases ctx with
  | some c => exact execute_within fun conn => hs _ rfl
  | none =>
      refine Task.Within.bind (Task.Within.state_bind fun st _ => ?_) fun pool =>
        (Task.Within.ask (hs _ rfl)).bind fun _ => .ofExcept _
      split
      · exact .fail _
      · exact .pure _
      · exact .fail _

/-! ## Delete values -/

/-- The assignments that flag a row as deleted: one for each column with a delete value, in order.
A producer may yield anything. -/
inductive DeleteSets : List Column → List (String × Value) → Prop
  | nil : DeleteSets [] []
  | skip {c : Column} {columns : List Column} {sets : List (String × Value)} :
      c.deleteValue = none → DeleteSets columns sets → DeleteSets (c :: columns) sets
  | literal {c : Column} {columns : List Column} {sets : List (String × Value)} {v : Value} :
      c.deleteValue = some (.literal v) → DeleteSets columns sets →
        DeleteSets (c :: columns) ((c.name, v) :: sets)
  | producer {c : Column} {columns : List Column} {sets : List (String × Value)} {name : String}
      {v : Value} : c.deleteValue = some (.producer name) → DeleteSets columns sets →
        DeleteSets (c :: columns) ((c.name, v) :: sets)

/-- Columns that end in the flag have assignments that end in the flag. -/
theorem DeleteSets.exists_append_flag {columns : List Column} {sets : List (String × Value)}
    (h : DeleteSets (columns ++ [Column.softDeleteFlag]) sets) :
    ∃ front, sets = front ++ [(softDeleteColumn, .int 1)] := by
  induction columns generalizing sets with
  | nil =>
      cases h with
      | skip hnone _ => simp [Column.softDeleteFlag] at hnone
      | literal hlit hrest =>
          cases hrest
          simp only [Column.softDeleteFlag, Option.some.injEq, DeleteValue.literal.injEq] at hlit
          exact ⟨[], by rw [← hlit]; rfl⟩
      | producer hprod _ => simp [Column.softDeleteFlag] at hprod
  | cons c columns ih =>
      cases h with
      | skip _ hrest => exact ih hrest
      | literal _ hrest =>
          obtain ⟨front, rfl⟩ := ih hrest
          exact ⟨_ :: front, rfl⟩
      | producer _ hrest =>
          obtain ⟨front, rfl⟩ := ih hrest
          exact ⟨_ :: front, rfl⟩

/-- The columns that a delete sets are columns of the table: what holds of the names of all columns
holds of theirs. -/
theorem DeleteSets.forall_fst {columns : List Column} {sets : List (String × Value)}
    (h : DeleteSets columns sets) (Q : String → Prop) (hQ : ∀ c ∈ columns, Q c.name) :
    ∀ set ∈ sets, Q set.1 := by
  induction h with
  | nil => simp
  | skip _ _ ih =>
      obtain ⟨-, hcolumns⟩ := List.forall_mem_cons.1 hQ
      exact ih hcolumns
  | literal _ _ ih | producer _ _ ih =>
      obtain ⟨hc, hcolumns⟩ := List.forall_mem_cons.1 hQ
      rw [List.forall_mem_cons]
      exact ⟨hc, ih hcolumns⟩

/-- Delete values are asked from producers. -/
theorem deleteValues_ensures (columns : List Column) :
    (Dao.deleteValues columns).Ensures I fun trace result =>
      (∀ x ∈ trace, ∃ producer v, x = ⟨.produce producer, v⟩) ∧
        ∃ sets, result = .ok sets ∧ DeleteSets columns sets := by
  induction columns with
  | nil => exact .pure ⟨by simp, _, rfl, .nil⟩
  | cons c columns ih =>
      rw [Dao.deleteValues]
      split
      · next hnone =>
        apply ih.mono
        rintro trace result ⟨htrace, sets, rfl, hsets⟩
        exact ⟨htrace, sets, rfl, .skip hnone hsets⟩
      · next v hliteral =>
        apply Task.Ensures.bind
        apply ih.mono
        rintro trace result ⟨htrace, sets, rfl, hsets⟩
        exact .pure ⟨by simpa using htrace, _, rfl, .literal hliteral hsets⟩
      · next producer hproducer =>
        apply Task.Ensures.ask_bind
        intro v
        apply Task.Ensures.bind
        apply ih.mono
        rintro trace result ⟨htrace, sets, rfl, hsets⟩
        refine .pure ⟨?_, _, rfl, .producer hproducer hsets⟩
        simpa using htrace

namespace Dao

variable {dao : Dao}

/-- The statements that delete the rows of a query: where deletion is soft the rows are flagged, and
otherwise they are removed. -/
inductive Deletes (dao : Dao) (q : Query) : Statement → Prop
  | remove : dao.table.softDelete = false → Deletes dao q (.remove (dao.scope q))
  | flag {sets : List (String × Value)} : dao.table.softDelete = true →
      DeleteSets dao.table.columns sets → Deletes dao q (.flag (dao.scope q) sets)

theorem Deletes.scope? {q : Query} {st : Statement} (h : dao.Deletes q st) :
    st.scope? = some (dao.scope q) := by
  cases h <;> rfl

/-- The statement of a delete, once its values have been produced. -/
theorem deleteStatement_ensures (dao : Dao) (q : Query) :
    (dao.deleteStatement q).Ensures I fun trace result =>
      (∀ x ∈ trace, ∃ producer v, x = ⟨.produce producer, v⟩) ∧
        ∃ st, result = .ok st ∧ dao.Deletes q st := by
  rw [deleteStatement]
  split
  · next hsoft =>
    apply Task.Ensures.bind
    apply (deleteValues_ensures _).mono
    rintro trace result ⟨htrace, sets, rfl, hsets⟩
    exact .pure ⟨by simpa using htrace, _, rfl, .flag hsoft hsets⟩
  · next hhard => exact .pure ⟨by simp, _, rfl, .remove (by simpa using hhard)⟩

/-- Claims are made without asking. -/
theorem claimRows_within (dao : Dao) (rows : List Row) : (dao.claimRows rows).Within I P := by
  induction rows with
  | nil => exact .pure _
  | cons row rows ih =>
      refine Task.Within.bind (Task.Within.localState.bind fun claims => ?_) fun fresh =>
        ih.bind fun rest => .pure _
      split
      · exact .pure _
      · exact (Task.Within.setLocal _).bind fun _ => .pure _

/-- The removals in the dependents of some rows ask what the registered deletes of the dependents
ask. -/
theorem removeDependents_within {step : CascadeStep} {rows : List Row} (deps : List Dependent)
    (hstep : ∀ s, I s → ∀ dep ∈ deps, dep.references rows ≠ [] → ∀ delete,
      s.deletes.lookup (deleteQueryId dep.entity) = some delete →
        (step delete (scopeQuery dep.property (dep.references rows))).Within I P) :
    (removeDependents step rows deps).Within I P := by
  induction deps with
  | nil => exact .pure _
  | cons dep deps ih =>
      have hpass := ih fun s hs dep' hdep' => hstep s hs dep' (List.mem_cons_of_mem _ hdep')
      rw [removeDependents]
      by_cases hnone : dep.references rows = []
      · simp only [hnone, List.isEmpty_nil, if_true]
        exact hpass
      · simp only [List.isEmpty_iff, hnone, if_false]
        refine Task.Within.state_bind fun s hs => ?_
        split
        · exact hpass
        · next delete hdelete =>
          refine (hstep s hs dep List.mem_cons_self hnone delete hdelete).bind fun r => ?_
          split
          · exact hpass.bind fun _ => .pure _
          · exact .pure _

section Levels

variable {tx : Context} {force : Bool} (hproduce : ∀ producer, P (.produce producer))
  (hrollback : force = false → (tx.rollback : Task Claims Unit).Within I P)

include hproduce in
/-- Delete values are asked from producers. -/
theorem deleteValues_within (columns : List Column) : (deleteValues columns).Within I P := by
  induction columns with
  | nil => exact .pure _
  | cons c columns ih =>
      rw [deleteValues]
      split
      · exact ih
      · exact ih.bind fun _ => .pure _
      · exact (Task.Within.ask (hproduce _)).bind fun _ => ih.bind fun _ => .pure _

include hproduce in
/-- The statement of a delete is made from what producers are asked. -/
theorem deleteStatement_within (q : Query) : (dao.deleteStatement q).Within I P := by
  rw [deleteStatement]
  split
  · exact (deleteValues_within hproduce _).bind fun _ => .pure _
  · exact .pure _

include hproduce hrollback

/-- The delete of a level asks for one statement, over the rows of its query, and for a rollback
unless it is forced. -/
theorem deleteRows_within {q : Query} (relations : List RelationCount)
    (hown : ∀ st, dao.Deletes q st → (execute st (some tx) : Task Claims Output).Within I P) :
    (dao.deleteRows q force relations tx).Within I P := by
  rw [deleteRows]
  refine (deleteStatement_within hproduce q).bind_of_ensures (R := dao.Deletes q) ?_
    fun st hst => ?_
  · apply (deleteStatement_ensures dao q).mono
    rintro trace result ⟨-, st, rfl, hst⟩ st' hst'
    cases hst'
    exact hst
  · refine (hown st hst).bind fun o => ?_
    cases force with
    | true => exact .pure _
    | false =>
        split
        · exact (hrollback rfl).bind fun _ => .pure _
        · exact .pure _

/-- A level asks for the rows of its query and for their delete, for a delete over a query that was
narrowed to rows, and what the registered deletes of its dependents ask. -/
theorem deleteLevel_within {step : CascadeStep} {q : Query}
    (hread : (execute (.rows (dao.scope q)) (some tx) : Task Claims Output).Within I P)
    (hown : ∀ st, dao.Deletes q st → (execute st (some tx) : Task Claims Output).Within I P)
    (hnarrowed : ∀ s, I s → s.catalog.dependentsOf dao.tableName ≠ [] → ∀ rows q',
      dao.keyScope? rows = some q' → ∀ st, dao.Deletes q' st →
        (execute st (some tx) : Task Claims Output).Within I P)
    (hstep : ∀ s, I s → ∀ dep ∈ s.catalog.dependentsOf dao.tableName, ∀ rows,
      dep.references rows ≠ [] → ∀ s', I s' → ∀ delete,
        s'.deletes.lookup (deleteQueryId dep.entity) = some delete →
          (step delete (scopeQuery dep.property (dep.references rows))).Within I P) :
    (dao.deleteLevel step q force tx).Within I P := by
  rw [deleteLevel]
  refine Task.Within.state_bind fun s hs => ?_
  dsimp only
  split
  · exact deleteRows_within hproduce hrollback [] hown
  · next hdeps =>
      rw [List.isEmpty_iff] at hdeps
      refine hread.bind fun o => ?_
      refine (dao.claimRows_within o.rows).bind fun rows => ?_
      split
      · exact .pure _
      · refine (removeDependents_within _ fun s' hs' dep hdep hrows delete hdelete =>
          hstep s hs dep hdep rows hrows s' hs' delete hdelete).bind fun removal => ?_
        split
        · refine deleteRows_within hproduce hrollback removal.relations fun st hst => ?_
          split at hst
          · exact hown st hst
          · cases hscope : dao.keyScope? rows with
            | none =>
                rw [hscope] at hst
                exact hown st hst
            | some q' =>
                rw [hscope] at hst
                exact hnarrowed s hs hdeps rows q' hscope st hst
        · exact .pure _

end Levels

end Dao

namespace DeleteOperation

/-- A delete that is given as a statement asks for that statement. -/
theorem statement_within {ctx : Option Context} {d : Delete} {q : Query}
    (hexecute : (execute (.text (d.statementText [.query q])) ctx : Task Claims Output).Within I P)
    (levels : Nat) (force : Bool) :
    ((statement d).cascade levels q force ctx).Within I P := by
  have hcall : (d.call [.query q] ctx : Task Claims WriteResult).Within I P :=
    hexecute.bind fun _ => .pure _
  cases levels <;> exact hcall.bind fun _ => .pure _

/-- A cascade in a context asks from producers, for statements in the context and, unless it is
forced, for the rollback of the context. -/
theorem cascade_some_within {tx : Context} {force : Bool}
    (hproduce : ∀ producer, P (.produce producer))
    (hrollback : force = false → (tx.rollback : Task Claims Unit).Within I P)
    (hexecute : ∀ st, (execute st (some tx) : Task Claims Output).Within I P) (levels : Nat)
    (delete : DeleteOperation) (q : Query) :
    (delete.cascade levels q force (some tx)).Within I P := by
  induction levels generalizing delete q with
  | zero =>
      cases delete with
      | statement d => exact statement_within (hexecute _) 0 force
      | dao d => exact .fail _
  | succ levels ih =>
      cases delete with
      | statement d => exact statement_within (hexecute _) (levels + 1) force
      | dao d =>
          rw [cascade, transaction_some]
          exact Dao.deleteLevel_within hproduce hrollback (hexecute _) (fun st _ => hexecute st)
            (fun _ _ _ _ _ _ st _ => hexecute st) fun _ _ _ _ _ _ _ _ delete _ => ih delete _

/-- A cascade keeps what contexts keep. -/
theorem cascade_within (hI : KeptByContexts I) (levels : Nat) (delete : DeleteOperation) (q : Query)
    (force : Bool) (ctx : Option Context) :
    (delete.cascade levels q force ctx).Within I fun _ => True := by
  have hexecute : ∀ (st : Statement) (ctx : Option Context),
      (execute st ctx : Task Claims Output).Within I fun _ => True := fun st ctx =>
    execute_within_of_forall ctx fun _ _ => trivial
  have hsome : ∀ (tx : Context) (levels : Nat) (delete : DeleteOperation) (q : Query),
      (delete.cascade levels q force (some tx)).Within I fun _ => True := fun tx =>
    cascade_some_within (fun _ => trivial) (fun _ => tx.rollback_within fun _ _ => trivial)
      fun st => hexecute st (some tx)
  cases delete with
  | statement d => exact statement_within (hexecute _ ctx) levels force
  | dao d =>
      cases levels with
      | zero => exact .fail _
      | succ levels =>
          exact transaction_within (fun _ _ => trivial) hI fun tx =>
            Dao.deleteLevel_within (fun _ => trivial)
              (fun _ => tx.rollback_within fun _ _ => trivial) (hexecute _ _)
              (fun st _ => hexecute st _) (fun _ _ _ _ _ _ st _ => hexecute st _)
              fun _ _ _ _ _ _ _ _ delete _ => hsome tx levels delete _

end DeleteOperation

/-! ## Deletes -/

namespace Dao

/-- A request of the first level of a delete, whose own statements are over scopes of `own`. -/
inductive LevelRequest (dao : Dao) (own : Scope → Prop) (c : Catalog) (levels : Nat)
    (force : Bool) : Request → Prop
  /-- A request without a statement. -/
  | control {r : Request} : r.statement? = none → LevelRequest dao own c levels force r
  /-- A statement over a scope of the level. -/
  | statement {conn : Nat} {st : Statement} {s : Scope} :
      st.scope? = some s → own s → LevelRequest dao own c levels force (.query conn st)
  /-- A statement over a scope that was narrowed to rows, on a table with dependents. -/
  | narrowed {rows : List Row} {q : Query} {conn : Nat} {st : Statement} :
      c.dependentsOf dao.tableName ≠ [] → dao.keyScope? rows = some q →
      st.scope? = some (dao.scope q) → LevelRequest dao own c levels force (.query conn st)
  /-- What the delete of a dependent asks for the rows that refer to some rows. -/
  | dependent {dep : Dependent} {rows : List Row} {delete : DeleteOperation} {tx : Context}
      {r : Request} : dep ∈ c.dependentsOf dao.tableName → dep.references rows ≠ [] →
      (delete.cascade levels (scopeQuery dep.property (dep.references rows)) force
        (some tx)).MayAsk r → LevelRequest dao own c levels force r

theorem LevelRequest.mono {dao : Dao} {own own' : Scope → Prop} {c : Catalog} {levels : Nat}
    {force : Bool} {r : Request} (h : dao.LevelRequest own c levels force r)
    (hown : ∀ s, own s → own' s) : dao.LevelRequest own' c levels force r := by
  cases h with
  | control hr => exact .control hr
  | statement hst hs => exact .statement hst (hown _ hs)
  | narrowed hdeps hq hst => exact .narrowed hdeps hq hst
  | dependent hdep hrows hr => exact .dependent hdep hrows hr

/-- The requests of a delete, for every driver: the statements of its first level are over the rows
of its query unless they were narrowed. -/
theorem asked_deleteQuery {δ : Type} (dao : Dao) (driver : Driver δ) (levels : Nat) (q : Query)
    (force : Bool) (ctx : Option Context) (l : σ) (s : State) (d : δ) :
    ∀ r ∈ (dao.deleteQuery (levels + 1) q force ctx).asked driver l s d,
      dao.LevelRequest (· = dao.scope q) s.catalog levels force r := by
  have hI : KeptByContexts fun s' => s'.catalog = s.catalog := fun _ _ h => h
  have hfree : ∀ r : Request, r.statement? = none →
      dao.LevelRequest (· = dao.scope q) s.catalog levels force r := fun _ hr => .control hr
  have hlevel : ∀ tx, (dao.deleteLevel (fun delete q => delete.cascade levels q force (some tx))
      q force tx).Within (fun s' => s'.catalog = s.catalog)
        (dao.LevelRequest (· = dao.scope q) s.catalog levels force) := by
    intro tx
    refine deleteLevel_within (fun _ => hfree _ rfl) (fun _ => tx.rollback_within hfree)
      (execute_within fun _ => .statement rfl rfl)
      (fun st hst => execute_within fun _ => .statement hst.scope? rfl) ?_ ?_
    · intro s' hs' hdeps rows q hq st hst
      exact execute_within fun _ => .narrowed (hs' ▸ hdeps) hq hst.scope?
    · intro s' hs' dep hdep rows hrows s'' _ delete _
      refine (delete.cascade_within hI levels _ force (some tx)).of_mayAsk fun r hr => ?_
      exact .dependent (hs' ▸ hdep) hrows hr
  have hdelete : (dao.deleteQuery (levels + 1) q force ctx : Task σ DeleteResult).Within
      (fun s' => s'.catalog = s.catalog)
        (dao.LevelRequest (· = dao.scope q) s.catalog levels force) :=
    .withLocal (transaction_within hfree hI hlevel)
  exact ((hdelete l).asked driver rfl d).1

end Dao

end Persistence
