import Persistence.Proofs.Cascade.Answering
import Persistence.Proofs.Cascade.Deletion
import Persistence.Proofs.Dao.Opening
import Persistence.Proofs.Store.Integers

/-!
# Deletes of opened entity types

What a delete does to a database whose entity types have been opened, said in terms of their
declarations: a row refers to another one when a property with a foreign key and the action
`CASCADE` equals the column that the key names, and the rows that a delete reaches are the ones
that its query selects and every live row that refers to a row that is reached.  The order in
which the entity types were opened does not matter, and neither does how their foreign keys refer
to each other.

The database is a driver that goes by the texts of statements: it finds the rows of a statement by
the condition that it reads in its text.

Main results:

- `Dao.deleteQuery_unforced`: a delete that is not forced is all or nothing.
- `Dao.deleteQuery_forced`: a forced delete removes exactly the rows that are reached.
-/

namespace Persistence

/-! ## Declared rows -/

/-- The live rows of the tables of some entity types. -/
def liveEntries (k : Collation) (entities : List Entity) (store : Store) : Set Entry :=
  {x | ∃ e ∈ entities, e.tableName? = some x.table ∧ x.row ∈ store x.table ∧
    (e.softDelete = true → x.row.isLive k = true)}

/-- A row refers to another one by a cascading foreign key: the column of the key equals the column
of the other row that the key names, which is not null. -/
def CascadeRefers (k : Collation) (entities : List Entity) (y x : Entry) : Prop :=
  ∃ e ∈ entities, ∃ target ∈ entities, ∃ p c ref column,
    CascadesTo e p c ref target column ∧ e.tableName? = some y.table ∧
    target.tableName? = some x.table ∧ (x.row.cell column.name).isNull = false ∧
    k.equal (y.row.cell c.name) (Value.ofJson (x.row.cell column.name)) = true

/-- A property of an entity type with a table refers to an entity type by a cascading foreign
key. -/
def HasDependents (entities : List Entity) (target : Entity) : Prop :=
  ∃ e ∈ entities, e.tableName? ≠ none ∧ ∃ p c ref column, CascadesTo e p c ref target column

/-- The primary keys of the live rows of tables with dependents are not null and unique: a live row
equals its own key, and the key of no other live row of its table. -/
structure KeysIdentify (k : Collation) (entities : List Entity) (store : Store) : Prop where
  self : ∀ e ∈ entities, HasDependents entities e → ∀ p c, e.primaryKey? = some (p, c) →
    ∀ table, e.tableName? = some table → ∀ row, ⟨table, row⟩ ∈ liveEntries k entities store →
      k.equal (row.cell c.name) (Value.ofJson (row.cell c.name)) = true
  unique : ∀ e ∈ entities, HasDependents entities e → ∀ p c, e.primaryKey? = some (p, c) →
    ∀ table, e.tableName? = some table →
      ∀ row other, ⟨table, row⟩ ∈ liveEntries k entities store →
        ⟨table, other⟩ ∈ liveEntries k entities store →
          k.equal (row.cell c.name) (Value.ofJson (other.cell c.name)) = true → row = other

/-- The rows that a query of an access object selects. -/
def Dao.selected (dao : Dao) (k : Collation) (q : Query) (store : Store) : Set Entry :=
  {x | x.table = dao.tableName ∧ x.row ∈ store x.table ∧ (dao.scope q).selects k x.row = true}

/-- The rows that a delete of the rows of a query reaches: the least set that has the rows of the
query and every live row that refers to one of its rows by a cascading foreign key. -/
def Dao.reached (dao : Dao) (k : Collation) (entities : List Entity) (q : Query) (store : Store) :
    Set Entry :=
  reachedSet (liveEntries k entities store) (CascadeRefers k entities) (dao.selected k q store)

/-- The setting of a cascade over some access objects in a state. -/
def State.setting (s : State) (k : Collation) (daos : List Dao) (start : Store) : Setting :=
  ⟨k, daos, s.catalog.dependentsOf, start⟩

/-! ## Settings of opened entity types -/

theorem Row.presentValue?_eq_some_iff_cell {row : Row} {column : String} {j : Json} :
    presentValue? row column = some j ↔ (row.cell column).isNull = false ∧ j = row.cell column := by
  rw [presentValue?_eq_some, Row.cell]
  cases hlookup : List.lookup column row with
  | none => simp [Json.isNull]
  | some cell =>
      simp only [Option.some.injEq, Option.getD_some]
      constructor
      · rintro ⟨rfl, hnull⟩
        exact ⟨hnull, rfl⟩
      · rintro ⟨hnull, rfl⟩
        exact ⟨rfl, hnull⟩

/-- An access object has the rows in sight that are live, where deletion is soft. -/
theorem IsDaoOf.sees_iff {e : Entity} {dao : Dao} (h : IsDaoOf e dao) (k : Collation) (row : Row) :
    dao.target.sees k row = true ↔ (e.softDelete = true → row.isLive k = true) := by
  rw [Target.sees, h.target_softDelete, h.softDelete]
  cases e.softDelete <;> simp

/-- An access object looks at its table as the table wants to be deleted from. -/
theorem IsDaoOf.coherent {e : Entity} {dao : Dao} (h : IsDaoOf e dao) : dao.Coherent where
  softDelete := h.target_softDelete
  flag := by
    intro hsoft
    have hcolumns := h.columns
    rw [if_pos hsoft] at hcolumns
    exact ⟨_, hcolumns⟩

namespace OpenedWell

variable {entities : List Entity} {daos : List Dao} {s : State} (h : OpenedWell entities daos s)
  (hall : DeclaredTogether entities) (k : Collation) (start : Store)

include h

/-- The access object of the table of an entity type. -/
theorem exists_dao_of_tableName {e : Entity} (he : e ∈ entities) {table : String}
    (hname : e.tableName? = some table) : ∃ dao ∈ daos, IsDaoOf e dao ∧ dao.tableName = table ∧
      s.deletes.lookup (deleteQueryId e.name) = some (.dao dao) := by
  obtain ⟨dao, hdao, hof, hlookup⟩ := h.exists_dao e he (by simp [hname])
  refine ⟨dao, hdao, hof, ?_, hlookup⟩
  exact Option.some.inj (hof.tableName.symm.trans hname)

/-- The live rows of the setting are those of the entity types. -/
theorem live_setting : (s.setting k daos start).live = liveEntries k entities start := by
  ext x
  constructor
  · rintro ⟨dao, hdao, htable, hrow, hlive⟩
    obtain ⟨e, he, hof⟩ := h.exists_entity dao hdao
    exact ⟨e, he, htable ▸ hof.tableName, hrow, (hof.sees_iff k x.row).1 hlive⟩
  · rintro ⟨e, he, hname, hrow, hlive⟩
    obtain ⟨dao, hdao, hof, htable, -⟩ := h.exists_dao_of_tableName he hname
    exact ⟨dao, hdao, htable, hrow, (hof.sees_iff k x.row).2 hlive⟩

include hall

/-- The catalog has dependents of the tables that cascading foreign keys refer to. -/
theorem dependentsOf_ne_nil_iff {e : Entity} (he : e ∈ entities) {table : String}
    (hname : e.tableName? = some table) :
    s.catalog.dependentsOf table ≠ [] ↔ HasDependents entities e := by
  constructor
  · intro hdeps
    obtain ⟨dep, hdep⟩ := List.exists_mem_of_ne_nil _ hdeps
    obtain ⟨e', he', target, htarget, p, c, ref, column, hcascades, hname', htable, -⟩ :=
      (h.knows.mem_dependentsOf hall.distinct).1 hdep
    obtain rfl := hall.distinct.eq_of_tableName? he htarget hname htable
    exact ⟨e', he', by simp [hname'], p, c, ref, column, hcascades⟩
  · rintro ⟨e', he', hsome, p, c, ref, column, hcascades⟩
    obtain ⟨table', hname'⟩ := Option.ne_none_iff_exists'.1 hsome
    have hmem : (⟨e'.name, table', p.key, ref.property, column.name⟩ : Dependent) ∈
        s.catalog.dependentsOf table := (h.knows.mem_dependentsOf hall.distinct).2
      ⟨e', he', e, he, p, c, ref, column, hcascades, hname', hname, rfl⟩
    exact List.ne_nil_of_mem hmem

/-- The state leads to the dependents of the setting. -/
theorem serves : s.Serves (s.setting k daos start) where
  dependents _ := rfl
  deletes table dep hdep := by
    obtain ⟨e, he, -, -, p, c, ref, column, -, hname, -, hdep⟩ :=
      (h.knows.mem_dependentsOf hall.distinct).1 hdep
    obtain ⟨dao, hdao, -, htable, hlookup⟩ := h.exists_dao_of_tableName he hname
    refine ⟨dao, hdao, htable, ?_⟩
    rw [hdep]
    exact hlookup

/-- In the setting rows refer to each other by the cascading foreign keys. -/
theorem refers_setting : (s.setting k daos start).Refers = CascadeRefers k entities := by
  funext y x
  refine propext ?_
  constructor
  · rintro ⟨dep, hdep, htable, dao, hdao, hdaoTable, j, hj, hequal⟩
    obtain ⟨e, he, target, htarget, p, c, ref, column, hcascades, hname, hx, hdep⟩ :=
      (h.knows.mem_dependentsOf hall.distinct).1 hdep
    obtain ⟨e', he', hof⟩ := h.exists_entity dao hdao
    have hname' := hof.tableName
    rw [hdaoTable] at hname'
    obtain rfl := hall.distinct.eq_of_tableName? he he' hname hname'
    rw [hdep] at hj hequal
    obtain ⟨hnull, rfl⟩ := Row.presentValue?_eq_some_iff_cell.1 hj
    rw [hof.columnName (hall.declared e he) hcascades.property] at hequal
    exact ⟨e, he, target, htarget, p, c, ref, column, hcascades, htable ▸ hname, hx, hnull, hequal⟩
  · rintro ⟨e, he, target, htarget, p, c, ref, column, hcascades, hy, hx, hnull, hequal⟩
    obtain ⟨dao, hdao, hof, htable, -⟩ := h.exists_dao_of_tableName he hy
    have hmem : (⟨e.name, y.table, p.key, ref.property, column.name⟩ : Dependent) ∈
        s.catalog.dependentsOf x.table := (h.knows.mem_dependentsOf hall.distinct).2
      ⟨e, he, target, htarget, p, c, ref, column, hcascades, hy, hx, rfl⟩
    refine ⟨_, hmem, rfl, dao, hdao, htable, _,
      Row.presentValue?_eq_some_iff_cell.2 ⟨hnull, rfl⟩, ?_⟩
    rw [hof.columnName (hall.declared e he) hcascades.property]
    exact hequal

/-- A key that identifies rows makes the setting well-formed. -/
theorem wellFormed {k : Collation} {start : Store} (hkeys : KeysIdentify k entities start) :
    (s.setting k daos start).WellFormed := by
  have hprimary : ∀ dao ∈ daos, ∀ key, dao.primaryKey = some key → ∃ e ∈ entities, ∃ p c,
      e.primaryKey? = some (p, c) ∧ e.tableName? = some dao.tableName ∧ key.column = c.name ∧
      dao.target.mapping.columnName key.property = key.column := by
    intro dao hdao key hkey
    obtain ⟨e, he, hof⟩ := h.exists_entity dao hdao
    rw [hof.primaryKey] at hkey
    obtain ⟨⟨p, c⟩, hpc, rfl⟩ := Option.map_eq_some_iff.1 hkey
    have hmem : (p, c) ∈ e.columnProperties := List.mem_of_find?_eq_some hpc
    exact ⟨e, he, p, c, hpc, hof.tableName, rfl, hof.columnName (hall.declared e he) hmem⟩
  constructor
  · show (daos.map Dao.tableName).Nodup
    rw [h.tables]
    exact hall.tables
  · intro dao hdao
    obtain ⟨e, -, hof⟩ := h.exists_entity dao hdao
    exact hof.coherent
  · intro dao hdao key hkey
    obtain ⟨e, -, p, c, -, -, -, hcolumn⟩ := hprimary dao hdao key hkey
    exact hcolumn
  · intro dao hdao hdeps key hkey row other hrow hother
    obtain ⟨e, he, p, c, hpc, hname, hcolumn, -⟩ := hprimary dao hdao key hkey
    have hdependents := (h.dependentsOf_ne_nil_iff hall he hname).1 hdeps
    rw [h.live_setting] at hrow hother
    rw [hcolumn]
    constructor
    · exact hkeys.unique e he hdependents p c hpc _ hname row other hrow hother
    · rintro rfl
      exact hkeys.self e he hdependents p c hpc _ hname row hrow

end OpenedWell

/-! ## A ring of rows -/

namespace Ring

/-- An entity type whose objects refer to each other. -/
def entity : Entity where
  name := "Category"
  table := some ⟨"category", none, none, none, false⟩
  properties :=
    [⟨"id", .number, some (.key "id"), none⟩,
     ⟨"parentId", .number,
       some { ColumnSpec.named "parent_id" with foreignKey := some ⟨"Category", "id", .cascade⟩ },
       none⟩]

def row (id parent : Int) : Row := [("id", Json.ofInt id), ("parent_id", Json.ofInt parent)]

/-- Two rows that refer to each other and one that refers to itself. -/
def store : Store := fun table =>
  if table = "category" then [row 1 2, row 2 1, row 3 3] else []

/-- The session with the rows. -/
def session : Session := ⟨store, store⟩

/-- The entry of a row. -/
def entry (id parent : Int) : Entry := ⟨"category", row id parent⟩

theorem declared : DeclaredTogether [entity] where
  names := by simp
  tables := by simp [entity, Entity.tableName?]
  declared e he := by
    obtain rfl := List.mem_singleton.1 he
    exact ⟨by decide, by decide, by simp [entity]⟩

theorem hasBareNames : ∀ e ∈ [entity], e.HasBareNames := by
  intro e he
  obtain rfl := List.mem_singleton.1 he
  exact Entity.hasBareNames rfl

/-- The entity type can be opened. -/
theorem exists_opened : ∃ dao s, Opened [(entity, .any)] [dao] s ∧ IsDaoOf entity dao ∧
    s.pool = .open 0 := by
  obtain ⟨t, ht, -⟩ := Table.exists_ofEntity? (Catalog.empty.withEntity entity).entity?
    (show entity.tableName? = some "category" from rfl)
  have hregister : (Catalog.empty.register entity).2 = some t :=
    (Catalog.register_snd _ _).trans ht
  obtain ⟨s, hrun, -, -⟩ := run_openDao (Store.driver .scalar) () .initial session entity .any
  have hrun : (openDao entity .any : Task Unit (Option Dao)).run (Store.driver .scalar) () .initial
      session = ((.ok (some (Dao.ofEntity entity t .any)), ()), s, ⟨store, store⟩) := by
    rw [hrun, State.initial, hregister]
    rfl
  have hopened := Opened.openDao (Opened.start (s := .initial) rfl rfl) hrun
  exact ⟨_, { s with pool := .open 0 }, hopened.other rfl rfl, ⟨t, _, .any, ht, rfl⟩, rfl⟩

variable {k : Collation}

theorem mem_live {x : Entry} : x ∈ liveEntries k [entity] store ↔
    x = entry 1 2 ∨ x = entry 2 1 ∨ x = entry 3 3 := by
  constructor
  · rintro ⟨e, he, htable, hrow, -⟩
    obtain rfl := List.mem_singleton.1 he
    obtain ⟨table, row⟩ := x
    obtain rfl : "category" = table := Option.some.inj htable
    simpa [store, entry] using hrow
  · rintro (rfl | rfl | rfl) <;>
      exact ⟨entity, List.mem_singleton_self _, rfl, by simp [entry, store], fun h => by cases h⟩

theorem name_of_primaryKey {p : Property} {c : ColumnSpec} (h : entity.primaryKey? = some (p, c)) :
    c.name = "id" := by
  cases h
  rfl

section Numbers

variable (hk : k.IsNumeric)

include hk

/-- The numbers of the rows are told apart. -/
theorem equal_ofInt {m : Int} (h : m ∈ [1, 2, 3]) (n : Int) :
    k.equal (Json.ofInt m) (.int n) = true ↔ m = n := by
  have hfits : minInt64 ≤ m ∧ m ≤ maxUInt64 := by
    simp only [List.mem_cons, List.not_mem_nil, or_false] at h
    rcases h with rfl | rfl | rfl <;> decide
  have hnumber : Json.ofInt m = .num (.int m hfits) := by
    rw [Json.ofInt, Json.Number.ofInt?, dif_pos hfits]
  rw [hnumber, Collation.equal, hk m hfits n]
  simp

theorem equal_id {id parent : Int} (h : id ∈ [1, 2, 3]) {n : Int} :
    k.equal ((row id parent).cell "id") (.int n) = true ↔ id = n :=
  equal_ofInt hk h n

theorem equal_parent {id parent : Int} (h : parent ∈ [1, 2, 3]) {n : Int} :
    k.equal ((row id parent).cell "parent_id") (.int n) = true ↔ parent = n :=
  equal_ofInt hk h n

theorem keysIdentify : KeysIdentify k [entity] store where
  self e he _ p c hpc table htable row hrow := by
    obtain rfl := List.mem_singleton.1 he
    rw [name_of_primaryKey hpc]
    rcases mem_live.1 hrow with h | h | h <;> cases h <;> exact (equal_id hk (by decide)).2 rfl
  unique e he _ p c hpc table htable row other hrow hother hequal := by
    obtain rfl := List.mem_singleton.1 he
    rw [name_of_primaryKey hpc] at hequal
    rcases mem_live.1 hrow with h | h | h <;> rcases mem_live.1 hother with h' | h' | h' <;>
      cases h <;> cases h' <;>
        first | rfl | exact absurd ((equal_id hk (by decide)).1 hequal) (by decide)

end Numbers

theorem refers {y x : Entry} (h : CascadeRefers k [entity] y x) :
    k.equal (y.row.cell "parent_id") (Value.ofJson (x.row.cell "id")) = true := by
  obtain ⟨e, he, target, htarget, p, c, ref, column, hcascades, -, -, -, hequal⟩ := h
  obtain rfl := List.mem_singleton.1 he
  obtain rfl := List.mem_singleton.1 htarget
  have hp := hcascades.property
  obtain ⟨q, hq, hkey⟩ := hcascades.column
  have href := hcascades.foreignKey
  simp [Entity.columnProperties, entity] at hp hq
  rcases hp with ⟨rfl, rfl⟩ | ⟨rfl, rfl⟩
  · cases href
  · cases href
    rcases hq with ⟨rfl, rfl⟩ | ⟨rfl, rfl⟩
    · exact hequal
    · simp at hkey

theorem hasDependents : HasDependents [entity] entity :=
  ⟨entity, List.mem_singleton_self _, by simp [entity, Entity.tableName?], _, _, _, _,
    List.mem_cons_of_mem _ List.mem_cons_self, rfl, rfl, rfl, _, List.mem_cons_self, rfl⟩

theorem refers_two_one (hk : k.IsNumeric) : CascadeRefers k [entity] (entry 2 1) (entry 1 2) :=
  ⟨entity, List.mem_singleton_self _, entity, List.mem_singleton_self _, _, _, _, _,
    ⟨List.mem_cons_of_mem _ List.mem_cons_self, rfl, rfl, rfl, _, List.mem_cons_self, rfl⟩,
    rfl, rfl, rfl, (equal_parent hk (by decide)).2 rfl⟩

variable {dao : Dao}

theorem columnName_id (hdao : IsDaoOf entity dao) : dao.target.mapping.columnName "id" = "id" :=
  hdao.columnName (declared.declared _ (List.mem_singleton_self _)) List.mem_cons_self

theorem named (hdao : IsDaoOf entity dao) (v : Value) :
    (Query.empty.eq "id" v).Named dao.target.mapping := by
  apply Query.named_eq
  rw [columnName_id hdao]
  rfl

theorem mem_selected (hdao : IsDaoOf entity dao) {x : Entry} (n : Int) :
    x ∈ dao.selected k (Query.empty.eq "id" (.int n)) store ↔
      x ∈ liveEntries k [entity] store ∧ k.equal (x.row.cell "id") (.int n) = true := by
  have htable : dao.tableName = "category" := (Option.some.inj hdao.tableName).symm
  have hcolumn := columnName_id hdao
  have hselects : ∀ row, (dao.scope (Query.empty.eq "id" (.int n))).selects k row =
      k.equal (row.cell "id") (.int n) := by
    intro row
    rw [Scope.selects, Target.sees, Dao.scope]
    simp only
    rw [Query.holds_eq _ _ _ _ rfl, hcolumn, hdao.target_softDelete, hdao.softDelete]
    rfl
  constructor
  · rintro ⟨hx, hrow, hequal⟩
    rw [hselects] at hequal
    rw [htable] at hx
    exact ⟨⟨entity, List.mem_singleton_self _, congrArg some hx.symm, hrow, fun h => by cases h⟩,
      hequal⟩
  · rintro ⟨⟨e, he, hx, hrow, -⟩, hequal⟩
    obtain rfl := List.mem_singleton.1 he
    exact ⟨htable ▸ (Option.some.inj hx).symm, hrow, (hselects x.row).trans hequal⟩

section Reached

variable (hk : k.IsNumeric) (hdao : IsDaoOf entity dao)

include hk hdao

/-- The rows that refer to each other reach each other. -/
theorem reached_one :
    dao.reached k [entity] (Query.empty.eq "id" (.int 1)) store = {entry 1 2, entry 2 1} := by
  ext x
  constructor
  · intro hx
    induction hx with
    | hit hx =>
        obtain ⟨hlive, hequal⟩ := (mem_selected hdao 1).1 hx
        rcases mem_live.1 hlive with rfl | rfl | rfl
        · exact .inl rfl
        · exact .inr rfl
        · exact absurd ((equal_id hk (by decide)).1 hequal) (by decide)
    | refers _ hy href ih =>
        have hequal := refers href
        rcases mem_live.1 hy with rfl | rfl | rfl
        · exact .inl rfl
        · exact .inr rfl
        · rcases ih with rfl | rfl <;>
            exact absurd ((equal_parent hk (by decide)).1 hequal) (by decide)
  · have hone : Reached (liveEntries k [entity] store) (CascadeRefers k [entity])
        (dao.selected k (Query.empty.eq "id" (.int 1)) store) (entry 1 2) :=
      .hit ((mem_selected hdao 1).2 ⟨mem_live.2 (.inl rfl), (equal_id hk (by decide)).2 rfl⟩)
    rintro (rfl | rfl)
    · exact hone
    · exact .refers hone (mem_live.2 (.inr (.inl rfl))) (refers_two_one hk)

/-- The row that refers to itself reaches nothing else. -/
theorem reached_three :
    dao.reached k [entity] (Query.empty.eq "id" (.int 3)) store =
      dao.selected k (Query.empty.eq "id" (.int 3)) store := by
  refine Set.Subset.antisymm (fun x hx => ?_) fun x hx => .hit hx
  induction hx with
  | hit hx => exact hx
  | refers _ hy href ih =>
      have hequal := refers href
      obtain ⟨hlive, hthree⟩ := (mem_selected hdao 3).1 ih
      rcases mem_live.1 hlive with rfl | rfl | rfl
      · exact absurd ((equal_id hk (by decide)).1 hthree) (by decide)
      · exact absurd ((equal_id hk (by decide)).1 hthree) (by decide)
      · rcases mem_live.1 hy with rfl | rfl | rfl
        · exact absurd ((equal_parent hk (by decide)).1 hequal) (by decide)
        · exact absurd ((equal_parent hk (by decide)).1 hequal) (by decide)
        · exact ih

end Reached

theorem ncard_live : (liveEntries k [entity] store).ncard < 4 := by
  have hlive : liveEntries k [entity] store = {entry 1 2, entry 2 1, entry 3 3} := by
    ext x
    exact mem_live
  rw [hlive]
  calc
    Set.ncard {entry 1 2, entry 2 1, entry 3 3} ≤ Set.ncard {entry 2 1, entry 3 3} + 1 :=
      Set.ncard_insert_le _ _
    _ ≤ (Set.ncard {entry 3 3} + 1) + 1 := Nat.succ_le_succ (Set.ncard_insert_le _ _)
    _ < 4 := by rw [Set.ncard_singleton]; decide

/-- What a delete leaves of the rows. -/
theorem eq_filter_of_leaves (hdao : IsDaoOf entity dao) {s : State} {gone : Set Entry}
    {after : Store} (h : (s.setting k [dao] store).Leaves gone after) :
    after "category" =
      [row 1 2, row 2 1, row 3 3].filter fun row => !isEntry gone "category" row := by
  have htable : dao.tableName = "category" := (Option.some.inj hdao.tableName).symm
  have hleft := (h.table dao (List.mem_singleton_self _)).eq_filter hdao.softDelete
  rw [htable] at hleft
  exact hleft

/-- The row that refers to itself is deleted alone. -/
theorem left_three (hk : k.IsNumeric) (hdao : IsDaoOf entity dao) {s : State} {after : Store}
    (h : (s.setting k [dao] store).Leaves
      (dao.selected k (Query.empty.eq "id" (.int 3)) store) after) :
    after "category" = [row 1 2, row 2 1] := by
  set gone := dao.selected k (Query.empty.eq "id" (.int 3)) store
  have hone : isEntry gone "category" (row 1 2) = false := isEntry_eq_false.2 fun hmem =>
    absurd ((equal_id hk (by decide)).1 ((mem_selected hdao 3).1 hmem).2) (by decide)
  have htwo : isEntry gone "category" (row 2 1) = false := isEntry_eq_false.2 fun hmem =>
    absurd ((equal_id hk (by decide)).1 ((mem_selected hdao 3).1 hmem).2) (by decide)
  have hthree : isEntry gone "category" (row 3 3) = true := isEntry_eq_true.2
    ((mem_selected hdao 3).2 ⟨mem_live.2 (.inr (.inr rfl)), (equal_id hk (by decide)).2 rfl⟩)
  rw [eq_filter_of_leaves hdao h]
  simp only [List.filter, hone, htwo, hthree, Bool.not_true, Bool.not_false]

/-- The rows that refer to each other are deleted together. -/
theorem left_one (hk : k.IsNumeric) (hdao : IsDaoOf entity dao) {s : State} {after : Store}
    (h : (s.setting k [dao] store).Leaves
      (dao.reached k [entity] (Query.empty.eq "id" (.int 1)) store) after) :
    after "category" = [row 3 3] := by
  rw [reached_one hk hdao] at h
  have hcell : ∀ x ∈ ({entry 1 2, entry 2 1} : Set Entry),
      Collation.scalar.equal (x.row.cell "id") (.int 3) = false := by
    rintro x (rfl | rfl) <;> decide
  have hone : isEntry {entry 1 2, entry 2 1} "category" (row 1 2) = true :=
    isEntry_eq_true.2 (.inl rfl)
  have htwo : isEntry {entry 1 2, entry 2 1} "category" (row 2 1) = true :=
    isEntry_eq_true.2 (.inr rfl)
  have hthree : isEntry {entry 1 2, entry 2 1} "category" (row 3 3) = false :=
    isEntry_eq_false.2 fun hmem => absurd (hcell _ hmem) (by decide)
  rw [eq_filter_of_leaves hdao h]
  simp only [List.filter, hone, htwo, hthree, Bool.not_true, Bool.not_false]

end Ring

/-! ## Deletes -/

section Deletes

variable {δ σ : Type} {driver : Driver δ} {session : δ → Session} {k : Collation}
  {es : List (Entity × Codec)} {daos : List Dao} {s : State} {l : σ} {d : δ} {pool levels : Nat}
  {dao : Dao} {q : Query}

/-- A delete of opened entity types comes to the verdict over the rows that are reached. -/
theorem Dao.run_deleteQuery_opened (hopened : Opened es daos s)
    (hall : DeclaredTogether (es.map Prod.fst)) (hdao : dao ∈ daos) (hq : q.Plain)
    (hstore : StandsBehind (es.map Prod.fst) dao q driver session k)
    (hkeys : KeysIdentify k (es.map Prod.fst) (session d).current) (hpool : s.pool = .open pool)
    (force : Bool)
    (hlevels : (liveEntries k (es.map Prod.fst) (session d).current).ncard < levels) :
    ∃ r s' d', (dao.deleteQuery levels q force none).run driver l s d = ((.ok r, l), s', d') ∧
      Verdict (s.setting k daos (session d).current) force (dao.selected k q (session d).current)
        (dao.reached k (es.map Prod.fst) q (session d).current) r (session d').current ∧
      session d' = (session d').settled := by
  have hwell := hopened.openedWell hall
  obtain ⟨δ', driver', session', enter, hdriver, hsession, hback⟩ :=
    hwell.exists_store hall hdao hq hstore
  rw [← hsession] at hkeys hlevels ⊢
  have hlive := hwell.live_setting k (session' (enter d)).current
  have hrefers := hwell.refers_setting hall k (session' (enter d)).current
  rw [← hlive] at hlevels
  obtain ⟨r, x, hrun, hverdict, hsettled⟩ :=
    Dao.run_deleteQuery (l := l) (hwell.wellFormed hall hkeys) hdriver
      (hwell.serves hall k (session' (enter d)).current) hpool rfl hdao hq force hlevels
  obtain ⟨d', hrun', rfl⟩ := hback hrun
  rw [Setting.reached, hlive, hrefers, hsession d'] at hverdict
  rw [hsession d'] at hsettled
  exact ⟨r, _, d', hrun', hverdict, hsettled⟩

/-- A delete that is not forced, over entity types opened in any order, against a driver that goes
by the texts of statements.  If its query reaches nothing but its own rows, it succeeds without
dependent rows and removes exactly those; otherwise it is refused and the store is what it was.  The
statements of a delete write names as they are, so these have to be names that need no quotes. -/
theorem Dao.deleteQuery_unforced {r : Reckoning} (hopened : Opened es daos s)
    (hall : DeclaredTogether (es.map Prod.fst)) (hbare : ∀ e ∈ es.map Prod.fst, e.HasBareNames)
    (hdriver : AnswersSql r driver session)
    (hkeys : KeysIdentify r.collation (es.map Prod.fst) (session d).current)
    (hpool : s.pool = .open pool) (hdao : dao ∈ daos) (hq : q.Plain)
    (hnamed : q.Named dao.target.mapping)
    (hlevels : (liveEntries r.collation (es.map Prod.fst) (session d).current).ncard < levels) :
    ∃ result s' d', (dao.deleteQuery levels q false none).run driver l s d =
        ((.ok result, l), s', d') ∧
      session d' = (session d').settled ∧
      (dao.reached r.collation (es.map Prod.fst) q (session d).current =
          dao.selected r.collation q (session d).current →
        result.success = true ∧ result.relations = [] ∧
        (s.setting r.collation daos (session d).current).Leaves
          (dao.selected r.collation q (session d).current) (session d').current ∧
        result.count = (s.setting r.collation daos (session d).current).count
          (dao.selected r.collation q (session d).current)) ∧
      (dao.reached r.collation (es.map Prod.fst) q (session d).current ≠
          dao.selected r.collation q (session d).current →
        result.success = false ∧ result.relations ≠ [] ∧
        (session d').current = (session d).current) := by
  obtain ⟨result, s', d', hrun, hverdict, hsettled⟩ :=
    dao.run_deleteQuery_opened (l := l) hopened hall hdao hq (.texts hbare hnamed hdriver) hkeys
      hpool false hlevels
  refine ⟨result, s', d', hrun, hsettled, ?_, ?_⟩
  · intro heq
    have hsuccess := hverdict.success.2 (.inr heq)
    have hnone := (hverdict.unforced rfl).1 hsuccess
    have hleaves := hverdict.leaves hsuccess
    have hcount := hverdict.count hsuccess
    rw [heq] at hleaves hcount
    rw [result.relationCount_eq, hnone, totalCount_nil, Nat.add_zero] at hcount
    exact ⟨hsuccess, hnone, hleaves, hcount⟩
  · intro hne
    have hfail : result.success = false := by
      cases hsuccess : result.success with
      | false => rfl
      | true =>
          rcases hverdict.success.1 hsuccess with hforce | heq
          · simp at hforce
          · exact absurd heq hne
    refine ⟨hfail, fun hnone => ?_, hverdict.refused hfail⟩
    have hsuccess := (hverdict.unforced rfl).2 hnone
    simp [hfail] at hsuccess

/-- Of the ring, the row that refers to itself can be deleted without force, the others cannot. -/
theorem Dao.deleteQuery_unforced_ring : ∃ dao s, Opened [(Ring.entity, .any)] [dao] s ∧
    (∃ r s' d', (dao.deleteQuery 4 (Query.empty.eq "id" (.int 1)) false none).run
        (Store.sqlDriver .numeric) () s Ring.session = ((.ok r, ()), s', d') ∧
      r.success = false ∧ d'.current = Ring.store) ∧
    ∃ r s' d', (dao.deleteQuery 4 (Query.empty.eq "id" (.int 3)) false none).run
        (Store.sqlDriver .numeric) () s Ring.session = ((.ok r, ()), s', d') ∧
      r.success = true ∧ r.relations = [] ∧
      d'.current "category" = [Ring.row 1 2, Ring.row 2 1] := by
  have hk := Reckoning.isNumeric_numeric
  obtain ⟨dao, s, hopened, hof, hpool⟩ := Ring.exists_opened
  refine ⟨dao, s, hopened, ?_, ?_⟩
  · obtain ⟨r, s', d', hrun, -, -, hrefused⟩ :=
      Dao.deleteQuery_unforced (l := ()) (d := Ring.session) hopened Ring.declared
        Ring.hasBareNames (Store.sqlDriver_answersSql .numeric) (Ring.keysIdentify hk) hpool
        (List.mem_singleton_self dao) (Query.plain_empty.eq "id" (.int 1)) (Ring.named hof _)
        Ring.ncard_live
    have hne : dao.reached Reckoning.numeric.collation [Ring.entity]
          (Query.empty.eq "id" (.int 1)) Ring.store ≠
        dao.selected Reckoning.numeric.collation (Query.empty.eq "id" (.int 1)) Ring.store := by
      rw [Ring.reached_one hk hof]
      intro heq
      have hmem : Ring.entry 2 1 ∈ dao.selected Reckoning.numeric.collation
          (Query.empty.eq "id" (.int 1)) Ring.store := heq ▸ .inr rfl
      have hid := (Ring.equal_id hk (by decide)).1 ((Ring.mem_selected hof 1).1 hmem).2
      exact absurd hid (by decide)
    obtain ⟨hfail, -, hsame⟩ := hrefused hne
    exact ⟨r, s', d', hrun, hfail, hsame⟩
  · obtain ⟨r, s', d', hrun, -, hdone, -⟩ :=
      Dao.deleteQuery_unforced (l := ()) (d := Ring.session) hopened Ring.declared
        Ring.hasBareNames (Store.sqlDriver_answersSql .numeric) (Ring.keysIdentify hk) hpool
        (List.mem_singleton_self dao) (Query.plain_empty.eq "id" (.int 3)) (Ring.named hof _)
        Ring.ncard_live
    obtain ⟨hsuccess, hnone, hleaves, -⟩ := hdone (Ring.reached_three hk hof)
    exact ⟨r, s', d', hrun, hsuccess, hnone, Ring.left_three hk hof hleaves⟩

/-- A forced delete, over entity types opened in any order, against a driver that goes by the texts
of statements.  It succeeds, removes exactly the rows that its query reaches, and reports as many.
Again names have to need no quotes. -/
theorem Dao.deleteQuery_forced {r : Reckoning} (hopened : Opened es daos s)
    (hall : DeclaredTogether (es.map Prod.fst)) (hbare : ∀ e ∈ es.map Prod.fst, e.HasBareNames)
    (hdriver : AnswersSql r driver session)
    (hkeys : KeysIdentify r.collation (es.map Prod.fst) (session d).current)
    (hpool : s.pool = .open pool) (hdao : dao ∈ daos) (hq : q.Plain)
    (hnamed : q.Named dao.target.mapping)
    (hlevels : (liveEntries r.collation (es.map Prod.fst) (session d).current).ncard < levels) :
    ∃ result s' d', (dao.deleteQuery levels q true none).run driver l s d =
        ((.ok result, l), s', d') ∧
      session d' = (session d').settled ∧ result.success = true ∧
      (s.setting r.collation daos (session d).current).Leaves
        (dao.reached r.collation (es.map Prod.fst) q (session d).current) (session d').current ∧
      result.count + result.relationCount =
        (s.setting r.collation daos (session d).current).count
          (dao.reached r.collation (es.map Prod.fst) q (session d).current) := by
  obtain ⟨result, s', d', hrun, hverdict, hsettled⟩ :=
    dao.run_deleteQuery_opened (l := l) hopened hall hdao hq (.texts hbare hnamed hdriver) hkeys
      hpool true hlevels
  have hsuccess := hverdict.success.2 (.inl rfl)
  exact ⟨result, s', d', hrun, hsettled, hsuccess, hverdict.leaves hsuccess,
    hverdict.count hsuccess⟩

/-- Of the ring, a forced delete of one of the rows that refer to each other takes both. -/
theorem Dao.deleteQuery_forced_ring : ∃ dao s, Opened [(Ring.entity, .any)] [dao] s ∧
    ∃ r s' d', (dao.deleteQuery 4 (Query.empty.eq "id" (.int 1)) true none).run
        (Store.sqlDriver .numeric) () s Ring.session = ((.ok r, ()), s', d') ∧
      r.success = true ∧ d'.current "category" = [Ring.row 3 3] := by
  have hk := Reckoning.isNumeric_numeric
  obtain ⟨dao, s, hopened, hof, hpool⟩ := Ring.exists_opened
  obtain ⟨r, s', d', hrun, -, hsuccess, hleaves, -⟩ :=
    Dao.deleteQuery_forced (l := ()) (d := Ring.session) hopened Ring.declared
      Ring.hasBareNames (Store.sqlDriver_answersSql .numeric) (Ring.keysIdentify hk) hpool
      (List.mem_singleton_self dao) (Query.plain_empty.eq "id" (.int 1)) (Ring.named hof _)
      Ring.ncard_live
  exact ⟨dao, s, hopened, r, s', d', hrun, hsuccess, Ring.left_one hk hof hleaves⟩

end Deletes

end Persistence
