import Persistence.Proofs.Schema.Difference
import Persistence.Proofs.Schema.Reading

/-!
# The tables that a synchronization creates

A statement that creates a table names it and says what is in it.  Among the statements of a
synchronization, those that create a table name a declared one and say what is declared of it.

Main results:

- `Schema.createsDeclared_of_mem_exchanges`: the creating statements of every run.
-/

namespace Persistence

variable {σ δ : Type}

/-- A request that creates no tables but some given ones: the statement that creates one names it and
is its definition. -/
def Request.CreatesOnly (tables : List Table) (r : Request) : Prop :=
  ∀ st name, r.statement? = some st → TableAction.create.read? st.sql = some name →
    ∃ t ∈ tables, t.name = name ∧
      (t.IsDefinable → ∃ names, WrittenTable.read? st.sql = some (t.written names))

namespace Request.CreatesOnly

variable {tables : List Table} {conn : Nat}

theorem of_statement?_eq_none {r : Request} (h : r.statement? = none) : r.CreatesOnly tables := by
  intro st name hst
  rw [h] at hst
  cases hst

/-- A statement for another action creates no table. -/
theorem of_action (st : Statement) {a : TableAction} {name : String}
    (h : st.action? = some (a, name)) (ha : a ≠ .create) :
    (Request.query conn st).CreatesOnly tables := by
  intro st' name' hst hread
  obtain rfl := Option.some.inj hst
  exact absurd (TableAction.read?_unique (Statement.read?_sql h) hread).1 ha

theorem tableNames : (Request.query conn .tableNames).CreatesOnly tables := by
  intro st name hst hread
  obtain rfl := Option.some.inj hst
  have hsome := TableAction.readAny?_eq_some_iff.2 hread
  cases hsome.symm.trans readAny?_tableList

/-- The statement that creates one of the tables. -/
theorem createTable {t : Table} (ht : t ∈ tables) (names : Names) :
    (Request.query conn (.createTable t names)).CreatesOnly tables := by
  intro st name hst hread
  obtain rfl := Option.some.inj hst
  have haction : (Statement.createTable t names).action? = some (.create, t.name) := rfl
  have hname := (TableAction.read?_unique (Statement.read?_sql haction) hread).2
  exact ⟨t, ht, hname, fun hdefinable => ⟨names, t.read?_createStatement hdefinable names⟩⟩

end Request.CreatesOnly

namespace Schema

variable {I : State → Prop} {tables : List Table} {tx : Context}

theorem dropAll_createsOnly (names : List String) :
    (dropAll (some tx) names : Task σ Unit).Within I (Request.CreatesOnly tables) := by
  induction names with
  | nil => exact .pure _
  | cons name names ih =>
      refine Task.Within.bind ?_ fun _ => ih
      exact execute_within fun conn => .of_action (.dropTable name) rfl (by decide)

theorem createAll_createsOnly {created : List Table} (h : created ⊆ tables) :
    (createAll (some tx) created : Task σ Unit).Within I (Request.CreatesOnly tables) := by
  induction created with
  | nil => exact .pure _
  | cons t created ih =>
      obtain ⟨ht, hrest⟩ := List.cons_subset.1 h
      have hcreate : (create t (some tx) : Task σ Output).Within I (Request.CreatesOnly tables) :=
        (Task.Within.ask (.of_statement?_eq_none rfl)).bind fun names =>
          execute_within fun conn => .createTable ht names
      exact hcreate.bind fun _ => ih hrest

theorem describe_createsOnly (name : String) :
    (describe name (some tx) : Task σ LiveTable).Within I (Request.CreatesOnly tables) := by
  have hread : ∀ (st : Statement) {a : TableAction}, st.action? = some (a, name) → a ≠ .create →
      (execute st (some tx) : Task σ Output).Within I (Request.CreatesOnly tables) :=
    fun st _ hst ha => execute_within fun conn => .of_action st hst ha
  refine (hread (.columns name) rfl (by decide)).bind fun _ => ?_
  refine (hread (.indexes name) rfl (by decide)).bind fun _ => ?_
  exact (hread (.foreignKeys name) rfl (by decide)).bind fun _ => .pure _

theorem updateAll_createsOnly (updated : List Table) :
    (updateAll (some tx) updated : Task σ Unit).Within I (Request.CreatesOnly tables) := by
  induction updated with
  | nil => exact .pure _
  | cons t updated ih =>
      have hupdate : (update t (some tx) : Task σ Output).Within I (Request.CreatesOnly tables) := by
        refine (describe_createsOnly t.name).bind fun live => ?_
        refine (Task.Within.ask (.of_statement?_eq_none rfl)).bind fun names => ?_
        exact execute_within fun conn => .of_action (.alterTable t.name _) rfl (by decide)
      exact hupdate.bind fun _ => ih

/-- A plan creates declared tables. -/
theorem create_make_subset (c : SyncConfig) (live : List String) (declared : List Table) :
    (SyncPlan.make c live declared).create ⊆ declared := by
  intro t ht
  rw [SyncPlan.make, List.mem_filter, (Table.creationOrder_perm _).mem_iff] at ht
  exact List.mem_of_mem_filter ht.1

/-- A synchronization creates declared tables. -/
theorem synchronize_createsOnly (c : Catalog) (ctx : Option Context) :
    (synchronize ctx : Task σ SyncReport).Within (fun s => s.catalog = c)
      (Request.CreatesOnly c.allTables) := by
  refine transaction_within (fun r => .of_statement?_eq_none) (fun _ _ h => h) fun tx => ?_
  refine Task.Within.bind (Task.Within.state_bind fun _ _ => .pure _) fun config => ?_
  refine Task.Within.bind ?_ fun live => ?_
  · exact (execute_within fun conn => .tableNames).bind fun _ => .pure _
  · refine Task.Within.state_bind fun s hs => ?_
    rw [hs]
    refine (dropAll_createsOnly _).bind fun _ => ?_
    refine (createAll_createsOnly (create_make_subset _ _ _)).bind fun _ => ?_
    exact (updateAll_createsOnly _).bind fun _ => .pure _

/-- The statements of a synchronization that create a table name a declared one and are its
definition. -/
theorem createsDeclared_of_mem_exchanges (driver : Driver δ) (l : σ) (s : State) (d : δ)
    (ctx : Option Context) :
    ∀ x ∈ (synchronize ctx : Task σ SyncReport).exchanges driver l s d,
      x.request.CreatesOnly s.catalog.allTables :=
  ((synchronize_createsOnly s.catalog ctx).exchanges driver rfl l d).1

end Schema

end Persistence
