import Persistence.Proofs.Cascade.Opened
import Persistence.Proofs.Query.Building

/-!
# Narrowed queries and composite keys

A level of a cascade tells rows apart, and narrows its query to rows, by the first column of the
primary key.  A narrowed query selects nothing new, and a claim stands for one row, exactly if that
column alone identifies the rows of the table; a key of several columns is not enough.

Main results:

- `Query.holds_allEq`: the query for the values of several properties.
- `Dao.narrowsSoundly_iff`: when narrowing is sound on a table.
- `narrowing_sound_iff`: when it is sound on all tables, and what deletes then take.
- `Dao.deleteQuery_marks`: a delete over a key of two columns takes a row outside its query.
-/

namespace Persistence

/-! ## Queries for several values -/

namespace Query

theorem truths_eqLinks (k : Collation) (m : Mapping) (row : Row) (pairs : List (String × Value)) :
    truths k m row .and (eqLinks pairs) =
      pairs.map fun pair => (.and, k.equal (row.cell (m.columnName pair.1)) pair.2) := by
  induction pairs with
  | nil => simp [eqLinks, truths]
  | cons pair pairs ih =>
      have hcondition : (Condition.compare .eq pair.1 pair.2).holds k m row =
          k.equal (row.cell (m.columnName pair.1)) pair.2 := by
        cases hcmp : k.order (row.cell (m.columnName pair.1)) pair.2 <;>
          simp [Condition.holds, hcmp, Comparison.accepts, Collation.equal]
      rw [eqLinks_cons, truths, truths, ih, List.map_cons, hcondition]

theorem anyGroup_and (current : Bool) (truths : List Bool) :
    anyGroup current (truths.map fun truth => (.and, truth)) = (current && truths.all id) := by
  induction truths generalizing current with
  | nil => simp [anyGroup]
  | cons truth truths ih =>
      rw [List.map_cons, anyGroup, ih, List.all_cons, Bool.and_assoc]
      rfl

/-- A query for the values of several properties holds of the rows that have all of them. -/
theorem holds_allEq (k : Collation) (m : Mapping) (row : Row) (pairs : List (String × Value))
    (h : ∀ pair ∈ pairs, pair.2.isNull = false) :
    (allEq pairs).holds k m row =
      pairs.all fun pair => k.equal (row.cell (m.columnName pair.1)) pair.2 := by
  rw [holds, allEq_eq pairs h, truths_eqLinks]
  cases pairs with
  | nil => rfl
  | cons pair pairs =>
      have hmap : pairs.map (fun pair => (Connector.and,
            k.equal (row.cell (m.columnName pair.1)) pair.2)) =
          (pairs.map fun pair => k.equal (row.cell (m.columnName pair.1)) pair.2).map
            fun truth => (Connector.and, truth) := by
        rw [List.map_map]
        rfl
      rw [List.map_cons, joinTruths, hmap, anyGroup_and, List.all_map, List.all_cons]
      rfl

theorem plain_allEq (pairs : List (String × Value)) : (allEq pairs).Plain := by
  have hfold : ∀ (q : Query), q.Plain →
      (pairs.foldl (fun q pair => q.eq pair.1 pair.2) q).Plain := by
    induction pairs with
    | nil => exact fun q hq => hq
    | cons pair pairs ih => exact fun q hq => ih _ (hq.eq pair.1 pair.2)
  exact hfold empty plain_empty

end Query

/-! ## Primary keys -/

/-- The columns of the primary key, with their properties. -/
def Entity.keyColumns (e : Entity) : List (Property × ColumnSpec) :=
  e.columnProperties.filter fun pc => pc.2.primaryKey

/-- The primary key that a delete works with is the first column of the declared one. -/
theorem Entity.head?_keyColumns (e : Entity) : e.keyColumns.head? = e.primaryKey? :=
  List.head?_filter

/-- A row has in some columns what another row has there. -/
def AgreeOn (k : Collation) (columns : List (Property × ColumnSpec)) (row other : Row) : Prop :=
  ∀ pc ∈ columns, k.equal (row.cell pc.2.name) (Value.ofJson (other.cell pc.2.name)) = true

theorem agreeOn_singleton {k : Collation} {p : Property} {c : ColumnSpec} {row other : Row} :
    AgreeOn k [(p, c)] row other ↔
      k.equal (row.cell c.name) (Value.ofJson (other.cell c.name)) = true := by
  simp [AgreeOn]

/-- Columns identify rows: they are not null, and no two rows agree on them. -/
structure IdentifiedBy (k : Collation) (columns : List (Property × ColumnSpec)) (rows : Set Row) :
    Prop where
  self : ∀ row ∈ rows, AgreeOn k columns row row
  unique : ∀ row ∈ rows, ∀ other ∈ rows, AgreeOn k columns row other → row = other

/-- Columns that identify rows are not null in them. -/
theorem IdentifiedBy.isNull_cell {k : Collation} {columns : List (Property × ColumnSpec)}
    {rows : Set Row} (h : IdentifiedBy k columns rows) {row : Row} (hrow : row ∈ rows)
    {pc : Property × ColumnSpec} (hpc : pc ∈ columns) : (row.cell pc.2.name).isNull = false :=
  Collation.isNull_of_equal (h.self row hrow pc hpc)

/-- The properties of some columns with the values that a row has there. -/
def keyPairs (columns : List (Property × ColumnSpec)) (row : Row) : List (String × Value) :=
  columns.map fun pc => (pc.1.key, Value.ofJson (row.cell pc.2.name))

/-- The query for what a row has in some columns holds of the rows that agree with it there. -/
theorem holds_keyPairs {k : Collation} {m : Mapping} {columns : List (Property × ColumnSpec)}
    {other : Row} (hname : ∀ pc ∈ columns, m.columnName pc.1.key = pc.2.name)
    (hpresent : ∀ pc ∈ columns, (other.cell pc.2.name).isNull = false) (row : Row) :
    (Query.allEq (keyPairs columns other)).holds k m row = true ↔ AgreeOn k columns row other := by
  have hpairs : ∀ pair ∈ keyPairs columns other, pair.2.isNull = false := by
    intro pair hmem
    obtain ⟨pc, hpc, rfl⟩ := List.mem_map.1 hmem
    rw [Value.isNull_ofJson]
    exact hpresent pc hpc
  rw [Query.holds_allEq k m row _ hpairs, List.all_eq_true]
  constructor
  · intro hall pc hmem
    have hequal := hall _ (List.mem_map_of_mem hmem)
    rwa [hname pc hmem] at hequal
  · intro hagree pair hmem
    obtain ⟨pc, hpc, rfl⟩ := List.mem_map.1 hmem
    rw [hname pc hpc]
    exact hagree pc hpc

namespace Dao

variable {e : Entity} {dao : Dao} {k : Collation} {store : Store}

/-- The rows that an access object has in sight. -/
def inSight (dao : Dao) (k : Collation) (store : Store) : Set Row :=
  {row | row ∈ store dao.tableName ∧ dao.target.sees k row = true}

/-- Claims and narrowed queries do not confuse the rows of a table. -/
structure NarrowsSoundly (dao : Dao) (k : Collation) (store : Store) : Prop where
  /-- Rows that count as one claim are one row. -/
  apart : ∀ row ∈ dao.inSight k store, ∀ other ∈ dao.inSight k store,
    dao.rowKey row = dao.rowKey other → row = other
  /-- A query that was narrowed to rows of another one selects no row that the other does not. -/
  within : ∀ q : Query, q.Plain → ∀ rows : List Row,
    (∀ row ∈ rows, ⟨dao.tableName, row⟩ ∈ dao.selected k q store) →
      ∀ q', dao.keyScope? rows = some q' → dao.selected k q' store ⊆ dao.selected k q store

theorem mem_selected {q : Query} {row : Row} :
    ⟨dao.tableName, row⟩ ∈ dao.selected k q store ↔
      row ∈ dao.inSight k store ∧ q.holds k dao.target.mapping row = true := by
  rw [selected, inSight, Set.mem_ofPred_eq, Set.mem_ofPred_eq, Scope.selects, Bool.and_eq_true,
    and_assoc]
  simp [scope]

/-- Sound narrowing needs a first column that identifies the rows that the whole key does. -/
theorem NarrowsSoundly.identifiedBy (h : dao.NarrowsSoundly k store) (hof : IsDaoOf e dao)
    (hdeclared : e.WellDeclared)
    (hidentified : IdentifiedBy k e.keyColumns (dao.inSight k store)) {p : Property}
    {c : ColumnSpec} (hfirst : e.primaryKey? = some (p, c)) :
    IdentifiedBy k [(p, c)] (dao.inSight k store) := by
  have hkey : dao.primaryKey = some ⟨p.key, c.name⟩ := by
    rw [hof.primaryKey, hfirst]
    rfl
  have hpc : (p, c) ∈ e.keyColumns := List.mem_of_mem_head? (e.head?_keyColumns ▸ hfirst)
  have hname : ∀ pc ∈ e.keyColumns, dao.target.mapping.columnName pc.1.key = pc.2.name :=
    fun pc hmem => hof.columnName hdeclared (List.mem_filter.1 hmem).1
  constructor
  · intro row hrow
    exact agreeOn_singleton.2 (hidentified.self row hrow _ hpc)
  · intro row hrow other hother hagree
    -- The other row is the only one with its whole key, and its narrowed query selects the row.
    let q := Query.allEq (keyPairs e.keyColumns other)
    have hholds : ∀ row, q.holds k dao.target.mapping row = true ↔
        AgreeOn k e.keyColumns row other :=
      holds_keyPairs hname fun pc hmem => hidentified.isNull_cell hother hmem
    have hselects : ∀ x ∈ [other], ⟨dao.tableName, x⟩ ∈ dao.selected k q store := by
      intro x hx
      obtain rfl := List.mem_singleton.1 hx
      exact mem_selected.2 ⟨hother, (hholds x).2 (hidentified.self x hother)⟩
    have hscope : dao.keyScope? [other] =
        some (scopeQuery p.key (keyValues ⟨p.key, c.name⟩ [other])) := by
      rw [keyScope?, hkey]
      rfl
    have hnarrowed := h.within q (Query.plain_allEq _) [other] hselects _ hscope
    let key : KeyColumn := ⟨p.key, c.name⟩
    have hcolumn : dao.target.mapping.columnName key.property = key.column := hname _ hpc
    have hcell : ∀ x ∈ [other], (Row.cell x key.column).isNull = false := by
      intro x hx
      obtain rfl := List.mem_singleton.1 hx
      exact hidentified.isNull_cell hother hpc
    have hfound := (holds_keyScope k dao hcolumn hcell row).2
      ⟨other, List.mem_singleton_self _, agreeOn_singleton.1 hagree⟩
    have hmem := hnarrowed (mem_selected.2 ⟨hrow, hfound⟩)
    exact hidentified.unique row hrow other hother ((hholds row).1 (mem_selected.1 hmem).2)

/-- A table by itself. -/
def alone (dao : Dao) (k : Collation) (store : Store) : Setting := ⟨k, [dao], fun _ => [], store⟩

theorem mem_live_alone {row : Row} :
    ⟨dao.tableName, row⟩ ∈ (dao.alone k store).live ↔ row ∈ dao.inSight k store := by
  constructor
  · rintro ⟨dao', hdao', -, hrow, hsees⟩
    obtain rfl := List.mem_singleton.1 hdao'
    exact ⟨hrow, hsees⟩
  · rintro ⟨hrow, hsees⟩
    exact ⟨dao, List.mem_singleton_self _, rfl, hrow, hsees⟩

/-- A first column that identifies the rows of a table makes narrowing sound. -/
theorem narrowsSoundly_of_identifiedBy (hof : IsDaoOf e dao) (hdeclared : e.WellDeclared)
    (hfirst : ∀ p c, e.primaryKey? = some (p, c) →
      IdentifiedBy k [(p, c)] (dao.inSight k store)) : dao.NarrowsSoundly k store := by
  have hkey : ∀ key, dao.primaryKey = some key → ∃ p c, e.primaryKey? = some (p, c) ∧
      key = ⟨p.key, c.name⟩ := by
    intro key hkey
    rw [hof.primaryKey] at hkey
    obtain ⟨⟨p, c⟩, hpc, rfl⟩ := Option.map_eq_some_iff.1 hkey
    exact ⟨p, c, hpc, rfl⟩
  have hw : (dao.alone k store).WellFormed := by
    constructor
    · simp [alone]
    · intro dao' hdao'
      obtain rfl := List.mem_singleton.1 hdao'
      exact hof.coherent
    · intro dao' hdao' key hprimary
      obtain rfl := List.mem_singleton.1 hdao'
      obtain ⟨p, c, hpc, rfl⟩ := hkey key hprimary
      exact hof.columnName hdeclared (List.mem_of_find?_eq_some hpc)
    · intro dao' hdao' hdeps
      exact absurd rfl hdeps
  have hid : (dao.alone k store).Identifies dao := by
    intro key hprimary row other hrow hother
    obtain ⟨p, c, hpc, rfl⟩ := hkey key hprimary
    have hidentified := hfirst p c hpc
    constructor
    · intro hequal
      refine hidentified.unique row (mem_live_alone.1 hrow) other (mem_live_alone.1 hother) ?_
      exact agreeOn_singleton.2 hequal
    · rintro rfl
      exact agreeOn_singleton.1 (hidentified.self row (mem_live_alone.1 hrow))
  have hdao : dao ∈ (dao.alone k store).daos := List.mem_singleton_self _
  constructor
  · intro row hrow other hother hequal
    exact hid.rowKey_inj (mem_live_alone.2 hrow) (mem_live_alone.2 hother) hequal
  · intro q hq rows hrows q' hq'
    have hentries : Setting.entries dao.tableName rows ⊆ (dao.alone k store).hits dao q := by
      rintro ⟨table, row⟩ ⟨htable, hrow⟩
      obtain rfl : table = dao.tableName := htable
      exact hrows row hrow
    obtain ⟨-, -, hsub⟩ := hits_narrowed hw hdao hid hq hentries
    rw [hq', Option.getD_some] at hsub
    exact hsub

/-- The rows in sight of an opened entity type are its live rows. -/
theorem mem_inSight {entities : List Entity} (hall : DeclaredTogether entities) (he : e ∈ entities)
    (hof : IsDaoOf e dao) {row : Row} :
    row ∈ dao.inSight k store ↔ ⟨dao.tableName, row⟩ ∈ liveEntries k entities store := by
  constructor
  · rintro ⟨hrow, hsees⟩
    exact ⟨e, he, hof.tableName, hrow, (hof.sees_iff k row).1 hsees⟩
  · rintro ⟨e', he', hname, hrow, hlive⟩
    obtain rfl := hall.distinct.eq_of_tableName? he he' hof.tableName hname
    exact ⟨hrow, (hof.sees_iff k row).2 hlive⟩

end Dao

/-! ## Opened entity types -/

section Opened

variable {es : List (Entity × Codec)} {daos : List Dao} {s : State} {k : Collation} {store : Store}

/-- Narrowing is sound on the tables with dependents exactly if the first columns of their keys
identify the rows. -/
theorem OpenedWell.narrowsSoundly_iff {entities : List Entity} (h : OpenedWell entities daos s)
    (hall : DeclaredTogether entities)
    (hidentified : ∀ e ∈ entities, HasDependents entities e → ∀ table,
      e.tableName? = some table → e.keyColumns ≠ [] →
        IdentifiedBy k e.keyColumns {row | ⟨table, row⟩ ∈ liveEntries k entities store}) :
    (∀ dao ∈ daos, s.catalog.dependentsOf dao.tableName ≠ [] → dao.NarrowsSoundly k store) ↔
      KeysIdentify k entities store := by
  constructor
  · intro hsound
    have hfirst : ∀ e ∈ entities, HasDependents entities e → ∀ p c,
        e.primaryKey? = some (p, c) → ∀ table, e.tableName? = some table →
          IdentifiedBy k [(p, c)] {row | ⟨table, row⟩ ∈ liveEntries k entities store} := by
      intro e he hdependents p c hpc table hname
      obtain ⟨dao, hdao, hof, htable, -⟩ := h.exists_dao_of_tableName he hname
      have hdeps := (h.dependentsOf_ne_nil_iff hall he hname).2 hdependents
      rw [← htable] at hdeps
      have hrows : {row | ⟨table, row⟩ ∈ liveEntries k entities store} = dao.inSight k store := by
        ext row
        rw [Dao.mem_inSight hall he hof, htable]
        rfl
      have hkey : e.keyColumns ≠ [] := by
        intro hnil
        have hhead := e.head?_keyColumns
        simp [hnil, hpc] at hhead
      have hwhole := hidentified e he hdependents table hname hkey
      rw [hrows] at hwhole ⊢
      exact (hsound dao hdao hdeps).identifiedBy hof (hall.declared e he) hwhole hpc
    constructor
    · intro e he hdependents p c hpc table hname row hrow
      have hidentifies := hfirst e he hdependents p c hpc table hname
      exact agreeOn_singleton.1 (hidentifies.self row hrow)
    · intro e he hdependents p c hpc table hname row other hrow hother hequal
      have hidentifies := hfirst e he hdependents p c hpc table hname
      exact hidentifies.unique row hrow other hother (agreeOn_singleton.2 hequal)
  · intro hkeys dao hdao hdeps
    obtain ⟨e, he, hof⟩ := h.exists_entity dao hdao
    have hdependents := (h.dependentsOf_ne_nil_iff hall he hof.tableName).1 hdeps
    refine Dao.narrowsSoundly_of_identifiedBy hof (hall.declared e he) fun p c hpc => ?_
    constructor
    · intro row hrow
      exact agreeOn_singleton.2 (hkeys.self e he hdependents p c hpc _ hof.tableName row
        ((Dao.mem_inSight hall he hof).1 hrow))
    · intro row hrow other hother hagree
      exact hkeys.unique e he hdependents p c hpc _ hof.tableName row other
        ((Dao.mem_inSight hall he hof).1 hrow) ((Dao.mem_inSight hall he hof).1 hother)
        (agreeOn_singleton.1 hagree)

/-- Over entity types opened in any order, where the whole primary keys of tables with dependents
identify the live rows, claims and narrowed queries do not confuse rows exactly if the first columns
of those keys identify them too.  A delete then takes nothing but rows that its query reaches. -/
theorem narrowing_sound_iff (hopened : Opened es daos s) (hall : DeclaredTogether (es.map Prod.fst))
    (hidentified : ∀ e ∈ es.map Prod.fst, HasDependents (es.map Prod.fst) e → ∀ table,
      e.tableName? = some table → e.keyColumns ≠ [] → IdentifiedBy k e.keyColumns
        {row | ⟨table, row⟩ ∈ liveEntries k (es.map Prod.fst) store}) :
    ((∀ dao ∈ daos, s.catalog.dependentsOf dao.tableName ≠ [] → dao.NarrowsSoundly k store) ↔
      KeysIdentify k (es.map Prod.fst) store) ∧
    (KeysIdentify k (es.map Prod.fst) store →
      ∀ {δ σ : Type} {driver : Driver δ} {session : δ → Session} {d : δ} {l : σ}
        {pool levels : Nat} {dao : Dao} {q : Query} (force : Bool),
        StandsBehind (es.map Prod.fst) dao q driver session k → (session d).current = store →
        s.pool = .open pool → dao ∈ daos → q.Plain →
        (liveEntries k (es.map Prod.fst) store).ncard < levels →
        ∃ r s' d', (dao.deleteQuery levels q force none).run driver l s d =
            ((.ok r, l), s', d') ∧
          ∃ gone ⊆ dao.reached k (es.map Prod.fst) q store,
            (s.setting k daos store).Leaves gone (session d').current) := by
  refine ⟨(hopened.openedWell hall).narrowsSoundly_iff hall hidentified, ?_⟩
  rintro hkeys δ σ driver session d l pool levels dao q force hstore rfl hpool hdao hq hlevels
  obtain ⟨r, s', d', hrun, hverdict, -⟩ :=
    dao.run_deleteQuery_opened (l := l) hopened hall hdao hq hstore hkeys hpool force hlevels
  refine ⟨r, s', d', hrun, ?_⟩
  cases hsuccess : r.success with
  | true => exact ⟨_, Set.Subset.rfl, hverdict.leaves hsuccess⟩
  | false =>
      refine ⟨∅, Set.empty_subset _, ?_⟩
      rw [hverdict.refused hsuccess]
      exact (s.setting k daos (session d).current).leaves_start

/-- Of the ring, which depends on itself and whose key has one column, narrowing is sound. -/
theorem narrowing_sound_ring : ∃ dao s, Opened [(Ring.entity, .any)] [dao] s ∧
    s.catalog.dependentsOf dao.tableName ≠ [] ∧ dao.NarrowsSoundly .scalar Ring.store := by
  obtain ⟨dao, s, hopened, hof, -⟩ := Ring.exists_opened
  have hdao : dao ∈ [dao] := List.mem_singleton_self dao
  have hkeys := Ring.keysIdentify Collation.isNumeric_scalar
  have hring : Ring.entity ∈ [Ring.entity] := List.mem_singleton_self _
  have hdeps : s.catalog.dependentsOf dao.tableName ≠ [] :=
    ((hopened.openedWell Ring.declared).dependentsOf_ne_nil_iff Ring.declared hring
      hof.tableName).2 Ring.hasDependents
  have hidentified : ∀ e ∈ [(Ring.entity, Codec.any)].map Prod.fst,
      HasDependents [Ring.entity] e → ∀ table, e.tableName? = some table → e.keyColumns ≠ [] →
        IdentifiedBy .scalar e.keyColumns
          {row | ⟨table, row⟩ ∈ liveEntries .scalar [Ring.entity] Ring.store} := by
    intro e he hdependents table hname _
    obtain rfl := List.mem_singleton.1 he
    constructor
    · intro row hrow pc hpc
      obtain rfl := List.mem_singleton.1 hpc
      exact hkeys.self _ he hdependents _ _ rfl table hname row hrow
    · intro row hrow other hother hagree
      exact hkeys.unique _ he hdependents _ _ rfl table hname row other hrow hother
        (hagree _ (List.mem_singleton_self _))
  exact ⟨dao, s, hopened, hdeps, (narrowing_sound_iff hopened Ring.declared hidentified).1.2
    hkeys dao hdao hdeps⟩

end Opened

/-! ## A composite key -/

namespace Marks

/-- An entity type with a primary key of two columns, whose objects may refer to each other. -/
def entity : Entity where
  name := "Mark"
  table := some ⟨"mark", none, none, none, false⟩
  properties :=
    [⟨"student", .number, some (.key "student"), none⟩,
     ⟨"course", .number, some (.key "course"), none⟩,
     ⟨"code", .number, some (.named "code"), none⟩,
     ⟨"origin", .number,
       some { ColumnSpec.named "origin" with foreignKey := some ⟨"Mark", "code", .cascade⟩ },
       none⟩]

def row (student course : Int) : Row :=
  [("student", Json.ofInt student), ("course", Json.ofInt course), ("code", .null),
   ("origin", .null)]

/-- Three rows that share the first column of their key and do not refer to each other. -/
def store : Store := fun table => if table = "mark" then [row 1 1, row 1 2, row 1 3] else []

/-- The session with the rows. -/
def session : Session := ⟨store, store⟩

/-- The entry of a row. -/
def entry (student course : Int) : Entry := ⟨"mark", row student course⟩

/-- The query for two of the three rows. -/
def query : Query := Query.empty.compare .le "course" (.int 2)

/-- The run that opens the entity type. -/
def opening : (Except DbError (Option Dao) × Unit) × State × Session :=
  (openDao entity .any : Task Unit (Option Dao)).run (Store.driver .scalar) ()
    { State.initial with pool := .open 0 } session

/-- The state behind it. -/
def state : State := opening.2.1

/-- The table of the entity type. -/
def table : Table := (Table.ofEntity? entity (Catalog.empty.withEntity entity).entity?).get rfl

/-- The access object of the entity type. -/
def dao : Dao := Dao.ofEntity entity table .any

theorem opened : Opened [(entity, .any)] [dao] state := by
  have hrun : (openDao entity .any : Task Unit (Option Dao)).run (Store.driver .scalar) ()
      { State.initial with pool := .open 0 } session = ((.ok (some dao), ()), state, session) := rfl
  exact Opened.openDao (Opened.start rfl rfl) hrun

theorem mem_live {x : Entry} : x ∈ liveEntries .scalar [entity] store ↔
    x = entry 1 1 ∨ x = entry 1 2 ∨ x = entry 1 3 := by
  constructor
  · rintro ⟨e, he, htable, hrow, -⟩
    obtain rfl := List.mem_singleton.1 he
    obtain ⟨table, row⟩ := x
    obtain rfl : "mark" = table := Option.some.inj htable
    simpa [store, entry] using hrow
  · rintro (rfl | rfl | rfl) <;>
      exact ⟨entity, List.mem_singleton_self _, rfl, by simp [entry, store], fun h => by cases h⟩

/-- The whole key identifies the rows. -/
theorem identified : IdentifiedBy .scalar entity.keyColumns
    {row | ⟨"mark", row⟩ ∈ liveEntries .scalar [entity] store} := by
  have hcourse : ∀ row other, AgreeOn .scalar entity.keyColumns row other →
      Collation.scalar.equal (row.cell "course") (Value.ofJson (other.cell "course")) = true :=
    fun row other h => h _ (List.mem_cons_of_mem _ List.mem_cons_self)
  constructor
  · intro row hrow pc hpc
    have hpc : pc.2.name = "student" ∨ pc.2.name = "course" := by
      rcases List.mem_cons.1 hpc with rfl | hpc
      · exact .inl rfl
      · obtain rfl := List.mem_singleton.1 hpc
        exact .inr rfl
    rcases mem_live.1 hrow with h | h | h <;> cases h <;>
      rcases hpc with h | h <;> rw [h] <;> decide
  · intro row hrow other hother hagree
    have hequal := hcourse row other hagree
    rcases mem_live.1 hrow with h | h | h <;> rcases mem_live.1 hother with h' | h' | h' <;>
      cases h <;> cases h' <;> first | rfl | exact absurd hequal (by decide)

theorem selects_query (row : Row) : (dao.scope query).selects .scalar row =
    (Collation.scalar.order (row.cell "course") (.int 2)).any Comparison.le.accepts :=
  Query.holds_compare .scalar dao.target.mapping row .le "course" rfl

theorem selects_student (row : Row) :
    (dao.scope (Query.empty.eq "student" (.int 1))).selects .scalar row =
      Collation.scalar.equal (row.cell "student") (.int 1) :=
  Query.holds_eq .scalar dao.target.mapping row "student" rfl

/-- The query selects two of the rows. -/
theorem select_query : store.select .scalar (dao.scope query) = [row 1 1, row 1 2] := by
  have hfilter : store.select .scalar (dao.scope query) =
      [row 1 1, row 1 2, row 1 3].filter fun row =>
        (Collation.scalar.order (row.cell "course") (.int 2)).any Comparison.le.accepts :=
    List.filter_congr fun row _ => selects_query row
  rw [hfilter]
  rfl

/-- The query that was narrowed to the first of them selects all rows. -/
theorem select_student : store.select .scalar (dao.scope (Query.empty.eq "student" (.int 1))) =
    [row 1 1, row 1 2, row 1 3] := by
  have hfilter : store.select .scalar (dao.scope (Query.empty.eq "student" (.int 1))) =
      [row 1 1, row 1 2, row 1 3].filter fun row =>
        Collation.scalar.equal (row.cell "student") (.int 1) :=
    List.filter_congr fun row _ => selects_student row
  rw [hfilter]
  rfl

theorem remove_student :
    store.remove .scalar (dao.scope (Query.empty.eq "student" (.int 1))) "mark" = [] := by
  have hfilter : store.remove .scalar (dao.scope (Query.empty.eq "student" (.int 1))) "mark" =
      [row 1 1, row 1 2, row 1 3].filter fun row =>
        !Collation.scalar.equal (row.cell "student") (.int 1) :=
    List.filter_congr fun row _ => by rw [selects_student]
  rw [hfilter]
  rfl

theorem run_claimRows (s : State) (d : Session) :
    (dao.claimRows [row 1 1, row 1 2]).run (Store.driver .scalar) [] s d =
      ((.ok [row 1 1], [("mark", "1")]), s, d) := rfl

/-- A level over the query claims one of its two rows and then deletes by the narrowed query. -/
theorem run_deleteLevel (step : CascadeStep) {tx : Context} {s : State}
    (hconn : s.connection? tx = some 0) (hcatalog : s.catalog = state.catalog) :
    (dao.deleteLevel step query true tx).run (Store.driver .scalar) [] s session =
      ((.ok ⟨true, 3, []⟩, [("mark", "1")]), s,
        ⟨store.remove .scalar (dao.scope (Query.empty.eq "student" (.int 1))), store⟩) := by
  have hdeps : s.catalog.dependentsOf dao.tableName =
      [⟨"Mark", "mark", "origin", "code", "code"⟩] := by
    rw [hcatalog]
    rfl
  have hread : (execute (.rows (dao.scope query)) (some tx) : Task Claims Output).run
      (Store.driver .scalar) [] s session =
        ((.ok (Output.ofRows [row 1 1, row 1 2]), []), s, session) := by
    rw [run_execute hconn, ← select_query]
    rfl
  have hdelete : ∀ claims : Claims,
      (dao.deleteRows (Query.empty.eq "student" (.int 1)) true [] tx).run (Store.driver .scalar)
        claims s session = ((.ok ⟨true, 3, []⟩, claims), s,
          ⟨store.remove .scalar (dao.scope (Query.empty.eq "student" (.int 1))), store⟩) := by
    intro claims
    have hremove : (execute (.remove (dao.scope (Query.empty.eq "student" (.int 1)))) (some tx) :
        Task Claims Output).run (Store.driver .scalar) claims s session =
          ((.ok (Output.affected 3), claims), s,
            ⟨store.remove .scalar (dao.scope (Query.empty.eq "student" (.int 1))), store⟩) := by
      have hcount : (store.select .scalar (dao.scope (Query.empty.eq "student" (.int 1)))).length =
          3 := by
        rw [select_student]
        rfl
      rw [run_execute hconn, ← hcount]
      rfl
    have hstatement : (dao.deleteStatement (Query.empty.eq "student" (.int 1))).run
        (Store.driver .scalar) claims s session =
          ((.ok (.remove (dao.scope (Query.empty.eq "student" (.int 1)))), claims), s, session) :=
      rfl
    rw [Dao.deleteRows, Task.run_bind_of_ok hstatement, Task.run_bind_of_ok hremove]
    rfl
  rw [Dao.deleteLevel, Task.run_bind_of_ok Task.run_state]
  dsimp only
  rw [hdeps, if_neg (by simp), Task.run_bind_of_ok hread]
  rw [show (Output.ofRows [row 1 1, row 1 2]).rows = [row 1 1, row 1 2] from rfl,
    Task.run_bind_of_ok (run_claimRows s session)]
  exact hdelete _

/-- The rows do not refer to each other. -/
theorem not_refers {x y : Entry} (hy : y ∈ liveEntries .scalar [entity] store) :
    ¬CascadeRefers .scalar [entity] y x := by
  rintro ⟨e, he, target, htarget, p, c, ref, column, hcascades, -, -, -, hequal⟩
  obtain rfl := List.mem_singleton.1 he
  have hp := hcascades.property
  have href := hcascades.foreignKey
  simp [Entity.columnProperties, entity] at hp
  have hnull : y.row.cell "origin" = .null := by
    rcases mem_live.1 hy with rfl | rfl | rfl <;> rfl
  rcases hp with ⟨rfl, rfl⟩ | ⟨rfl, rfl⟩ | ⟨rfl, rfl⟩ | ⟨rfl, rfl⟩
  · cases href
  · cases href
  · cases href
  · rw [show ({ ColumnSpec.named "origin" with
        foreignKey := some ⟨"Mark", "code", .cascade⟩ } : ColumnSpec).name = "origin" from rfl,
      hnull, Collation.equal_null] at hequal
    cases hequal

/-- The query does not reach the third row. -/
theorem not_mem_reached : entry 1 3 ∉ dao.reached .scalar [entity] query store := by
  intro hreached
  cases hreached with
  | hit hhit =>
      have hselects := hhit.2.2
      rw [selects_query] at hselects
      exact absurd hselects (by decide)
  | refers _ hlive href => exact not_refers hlive href

end Marks

/-- A forced delete of two rows of a table with a key of two columns takes a third one, which was
neither selected nor reached: two of them count as one claim, and the query is narrowed to all rows
with the first column of their key. -/
theorem Dao.deleteQuery_marks : ∃ dao s, Opened [(Marks.entity, .any)] [dao] s ∧
    IdentifiedBy .scalar Marks.entity.keyColumns
      {row | ⟨"mark", row⟩ ∈ liveEntries .scalar [Marks.entity] Marks.store} ∧
    dao.rowKey (Marks.row 1 1) = dao.rowKey (Marks.row 1 2) ∧
    Marks.entry 1 3 ∉ dao.reached .scalar [Marks.entity] Marks.query Marks.store ∧
    ∃ r s' d', (dao.deleteQuery 2 Marks.query true none).run (Store.driver .scalar) () s
        Marks.session = ((.ok r, ()), s', d') ∧
      r.success = true ∧ d'.current "mark" = [] := by
  refine ⟨Marks.dao, Marks.state, Marks.opened, Marks.identified, by decide,
    Marks.not_mem_reached, ?_⟩
  have hconn := Marks.state.connection?_addContext 0
  let work : Context → Task Claims DeleteResult := fun tx =>
    Marks.dao.deleteLevel (fun delete q => delete.cascade 1 q true (some tx)) Marks.query true tx
  have hwork := Marks.run_deleteLevel
    (fun delete q => delete.cascade 1 q true (some ⟨Marks.state.contexts.length⟩)) hconn rfl
  have hrun : (transaction none work).run (Store.driver .scalar) [] Marks.state Marks.session = _ :=
    run_transaction_of_ok rfl rfl rfl hwork rfl rfl
  have hdelete : (Marks.dao.deleteQuery 2 Marks.query true none).run (Store.driver .scalar) ()
      Marks.state Marks.session = _ :=
    (Task.run_withLocal ([] : Claims) _).trans (congrArg (fun x => ((x.1.1, ()), x.2)) hrun)
  exact ⟨_, _, _, hdelete, rfl, Marks.remove_student⟩

end Persistence
