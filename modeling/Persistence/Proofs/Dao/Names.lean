import Persistence.Proofs.Dao.Parts
import Persistence.Proofs.Dao.Sparing

/-!
# The names in the statements of an access object

The statement that creates a table declares its names whatever they are, since they stand in quotes
there.  The statements of an access object and the conditions of queries have the names as they are,
so a name with a character that needs quotes says something else.  They are read as statements about
the declared names exactly if all of these are runs of characters that need none.

Main results:

- `DaoCall.hasParts`: the statements of all calls.
- `IsDaoOf.names_read_iff`: when all statements are read as the table is declared.
-/

namespace Persistence

open Sql

/-! ## The statements of calls -/

section Calls

variable {α : Type} {e : Entity} {d : Dao}

/-- A call over the columns of the table. -/
def DaoCall.Keeps (d : Dao) : DaoCall α → Prop
  | countWhere f => ∀ q, f.toQuery = .ok q → d.Keeps q
  | listWhere f => ∀ q, f.toQuery = .ok q → d.Keeps q
  | pageWhere f _ => ∀ q, f.toQuery = .ok q → d.Keeps q
  | findWhere f => ∀ q, f.toQuery = .ok q → d.Keeps q
  | findByColumn column _ => column ∈ d.table.columnNames
  | listByColumn column _ => column ∈ d.table.columnNames
  | updateWhere _ f => ∀ q, f.toQuery = .ok q → d.Keeps q
  | updatePartWhere _ _ f => ∀ q, f.toQuery = .ok q → d.Keeps q
  | deleteByKey key _ => ∀ column, d.primaryKey = some column →
      d.Keeps (Query.empty.eq column.property key)
  | deleteQuery q _ => d.Keeps q
  | deleteWhere f _ => ∀ q, f.toQuery = .ok q → d.Keeps q
  | _ => True

namespace Dao

theorem hasParts_rows {i : Insert} {lead : String} (htaken : i.columns = d.columns)
    (hmakes : ∀ {objects rows sql}, objects.mapM (entityValues d.columns) = .ok rows →
      i.statementText objects = .ok sql → d.Makes lead (d.rowsParts rows) sql)
    {objects : List Json} {sql : String} (hsql : i.statementText objects = .ok sql) :
    d.HasParts sql := by
  obtain ⟨rows, hrows, -⟩ := except_bind_eq_ok_iff.1 hsql
  rw [htaken] at hrows
  exact ⟨_, _, hmakes hrows hsql⟩

theorem hasParts_updateKey (hof : IsDaoOf e d) {key : KeyColumn} (hkey : d.primaryKey = some key)
    {columns : List ValueColumn} (hcolumns : ∀ c ∈ columns, c ∈ d.columns) {object : Json}
    {sql : String} (hsql : (d.updateKey key columns).statementText object [] = .ok sql) :
    d.HasParts sql := by
  obtain ⟨values, hvalues, -⟩ := Update.statementText_eq_ok_iff.1 hsql
  obtain ⟨row, v, more, rfl, hlength⟩ := exists_keyValue (hof.keyColumns_ne_nil hkey) hvalues
  exact ⟨_, _, .updateKey hkey hcolumns hvalues hlength hsql⟩

theorem hasParts_updateQuery {q : Query} (hq : d.Keeps q) {columns : List ValueColumn}
    (hcolumns : ∀ c ∈ columns, c ∈ d.columns) {object : Json} {sql : String}
    (hsql : (d.updateQuery columns).statementText object [.query q] = .ok sql) :
    d.HasParts sql := by
  obtain ⟨row, hvalues, -⟩ := Update.statementText_eq_ok_iff.1 hsql
  exact ⟨_, _, .updateQuery hq hcolumns hvalues hsql⟩

/-- The rows of a query are read and deleted with statements of the access object. -/
theorem hasParts_deletes {q : Query} (hq : d.Keeps q) (st : Statement)
    (hst : st = .rows (d.scope q) ∨ d.Deletes q st) : d.HasParts st.sql := by
  rcases hst with rfl | hst
  · exact ⟨_, _, .rows hq⟩
  · cases hst with
    | remove _ => exact ⟨_, _, .remove hq⟩
    | flag _ hsets => exact ⟨_, _, .flag hq hsets⟩

end Dao

/-- Whatever is asked of an access object, its own statements are those that it makes. -/
theorem DaoCall.hasParts (hof : IsDaoOf e d) {c : DaoCall α} (hc : c.Keeps d) :
    (c.plan d).Satisfies (fun s args => d.HasParts (s.statementText args)) d.HasParts
      fun q => ∀ st, st = .rows (d.scope q) ∨ d.Deletes q st → d.HasParts st.sql := by
  have hpart : ∀ part, ∀ c ∈ d.partColumns part, c ∈ d.columns := fun part c hc =>
    List.mem_of_mem_filter (List.mem_of_mem_filter hc)
  have hnonKey : ∀ c ∈ d.nonKeyColumns, c ∈ d.columns := fun c hc => List.mem_of_mem_filter hc
  cases c with
  | count => exact ⟨_, _, .countAll⟩
  | countWhere f => exact Plan.satisfies_given fun q hq => ⟨_, _, .countQuery (hc q hq)⟩
  | list => exact ⟨_, _, .listAll⟩
  | listWhere f => exact Plan.satisfies_given fun q hq => ⟨_, _, .listQuery (hc q hq)⟩
  | page p => exact ⟨_, _, .pageAll p⟩
  | pageWhere f p => exact Plan.satisfies_given fun q hq => ⟨_, _, .pageQuery p (hc q hq)⟩
  | findByKey key =>
      exact Plan.satisfies_given fun column hcolumn =>
        ⟨_, _, .findKey key (Dao.requireKey_eq_ok_iff.1 hcolumn)⟩
  | findWhere f => exact Plan.satisfies_given fun q hq => ⟨_, _, .findQuery (hc q hq)⟩
  | findByColumn column v => exact ⟨_, _, .findBy v hc⟩
  | listByColumn column v => exact ⟨_, _, .findListBy v hc⟩
  | save entity | saveAll entities =>
      exact Plan.satisfies_given fun objects _ => Plan.satisfies_insert fun sql hsql =>
        Dao.hasParts_rows rfl .insert hsql
  | saveOrUpdate entity | saveOrUpdateAll entities =>
      exact Plan.satisfies_given fun objects _ => Plan.satisfies_insert fun sql hsql =>
        Dao.hasParts_rows rfl .replace hsql
  | updateByKey entity =>
      exact Plan.satisfies_given fun key hkey => Plan.satisfies_given fun object _ =>
        Plan.satisfies_update fun sql hsql =>
          Dao.hasParts_updateKey hof (Dao.requireKey_eq_ok_iff.1 hkey) hnonKey hsql
  | updateWhere entity f =>
      exact Plan.satisfies_given fun q hq => Plan.satisfies_given fun object _ =>
        Plan.satisfies_update fun sql hsql => Dao.hasParts_updateQuery (hc q hq) hnonKey hsql
  | updatePartByKey part object =>
      exact Plan.satisfies_given fun key hkey => Plan.satisfies_update fun sql hsql =>
        Dao.hasParts_updateKey hof (Dao.requireKey_eq_ok_iff.1 hkey) (hpart part) hsql
  | updatePartWhere part object f =>
      exact Plan.satisfies_given fun q hq => Plan.satisfies_update fun sql hsql =>
        Dao.hasParts_updateQuery (hc q hq) (hpart part) hsql
  | deleteByKey key force =>
      exact Plan.satisfies_given fun column hcolumn =>
        Dao.hasParts_deletes (hc column (Dao.requireKey_eq_ok_iff.1 hcolumn))
  | deleteQuery q force => exact Dao.hasParts_deletes hc
  | deleteWhere f force => exact Plan.satisfies_given fun q hq => Dao.hasParts_deletes (hc q hq)

end Calls

/-! ## Reading -/

/-- The names of statements and of the clauses in them are read as they are. -/
structure Dao.ReadsNames (d : Dao) : Prop where
  statements : ∀ {lead closing sql}, d.Makes lead closing sql →
    readAs? (d.statementParts lead closing) sql = some (d.tableName :: namesOf closing)
  clauses : ∀ {q : Query}, d.Keeps q →
    readAs? (q.parts d.target.mapping d.target.softDelete)
        (q.clauseText d.target.mapping d.target.softDelete) =
      some (q.namedColumns d.target.mapping d.target.softDelete)

namespace IsDaoOf

variable {e : Entity} {d : Dao} (hof : IsDaoOf e d) {lead : String} {closing : List Part}

include hof

/-- A statement that is its parts is read exactly if its names are runs. -/
theorem readAs?_statementParts_iff {sql : String} (h : d.Makes lead closing sql) :
    readAs? (d.statementParts lead closing) (textOf id (d.statementParts lead closing)) =
        some (d.tableName :: namesOf closing) ↔
      ∀ s ∈ d.tableName :: namesOf closing, isRun s.toList = true := by
  have hends : endsNames false (d.statementParts lead closing) = true := (h.isOver hof).ends
  exact readNames?_bare_iff hends

/-- The names are read as they are if those that the table is created with are runs. -/
theorem readsNames (hruns : ∀ s ∈ d.tableName :: d.table.columnNames, isRun s.toList = true) :
    d.ReadsNames where
  statements := by
    intro lead closing sql h
    obtain ⟨htable, hcolumns⟩ := List.forall_mem_cons.1 hruns
    have hsql := h.eq_textOf (isUnmarked_of_isRun htable)
      (fun s hs => isUnmarked_of_isRun (hcolumns s hs)) hof
    rw [hsql, hof.readAs?_statementParts_iff h, List.forall_mem_cons]
    exact ⟨htable, fun s hs => hcolumns s ((h.isOver hof).mem s hs)⟩
  clauses := by
    intro q hq
    have hover := Dao.isOver_clauses hof hq
    rw [← Query.textOf_parts, ← Query.namesOf_parts, readNames?_bare_iff hover.ends]
    exact fun s hs => hruns s (List.mem_cons_of_mem _ (hover.mem s hs))

/-- Of a table a listing of all rows tells whether its name is a run, and of a column a listing of
those with some value in it. -/
theorem isRun_of_readsNames (h : d.ReadsNames) :
    ∀ s ∈ d.tableName :: d.table.columnNames, isRun s.toList = true := by
  have hlist : d.listAll.statementText [] =
      textOf id (d.statementParts "select * from " (d.liveParts " where ")) := by
    rw [Dao.textOf_statementParts, Dao.textOf_liveWhere]
    exact fill_nil _
  have hall := h.statements (.listAll (d := d))
  rw [hlist, hof.readAs?_statementParts_iff .listAll] at hall
  have htable := (List.forall_mem_cons.1 hall).1
  refine List.forall_mem_cons.2 ⟨htable, fun column hcolumn => ?_⟩
  have hfind := h.statements (.findListBy .null hcolumn)
  rw [Dao.statementText_findListBy (isUnmarked_of_isRun htable),
    hof.readAs?_statementParts_iff (.findListBy .null hcolumn)] at hfind
  exact hfind column (List.mem_cons_of_mem _ List.mem_cons_self)

omit hof in
/-- The names in statements.  However a table and its columns are named, the table is created with
these names.  Every statement of every call over its columns starts with words and the table, and
behind it names columns only; those that write rows name all columns that keep properties, and the
clauses of a query name the columns of its fields.  All of these statements and clauses are read as
their names exactly if the table and all columns have runs for names. -/
theorem names_read_iff (hof : IsDaoOf e d) :
    (∀ names, readAs? (d.table.declarationParts names) (d.table.createStatement names) =
        some (d.tableName :: d.table.columnNames)) ∧
      (∀ {α : Type} (c : DaoCall α), c.Keeps d →
        (c.plan d).Satisfies (fun s args => d.HasParts (s.statementText args)) d.HasParts
          fun q => ∀ st, st = .rows (d.scope q) ∨ d.Deletes q st → d.HasParts st.sql) ∧
      (∀ lead closing sql, d.Makes lead closing sql → namesOf closing ⊆ d.table.columnNames) ∧
      (∀ rows, namesOf (d.rowsParts rows) = d.table.propertyColumns.map Column.name) ∧
      (∀ q, d.Keeps q →
        namesOf (d.queryParts q) = q.namedColumns d.target.mapping d.target.softDelete ∧
          q.namedColumns d.target.mapping d.target.softDelete ⊆ d.table.columnNames) ∧
      (d.ReadsNames ↔ ∀ s ∈ d.tableName :: d.table.columnNames, isRun s.toList = true) := by
  refine ⟨d.table.readAs?_createStatement, fun c => c.hasParts hof,
    fun lead closing sql h => (h.isOver hof).mem, d.namesOf_rowsParts, fun q hq => ?_,
    hof.isRun_of_readsNames, hof.readsNames⟩
  rw [← Query.namesOf_parts]
  exact ⟨rfl, (Dao.isOver_clauses hof hq).mem⟩

end IsDaoOf

namespace OrderItems

/-- An entity type with a table and a key column of the given names. -/
def entity (table key : String) : Entity where
  name := "OrderItem"
  table := some ⟨table, none, none, none, true⟩
  properties :=
    [⟨"id", .number, some (.key key), none⟩, ⟨"note", .string, some (.named "note"), none⟩]

/-- The access object of the entity type. -/
def dao (table key : String) : Dao :=
  Dao.ofEntity (entity table key) ((Table.ofEntity? (entity table key) fun _ => none).get rfl) .any

theorem isDaoOf (table key : String) : IsDaoOf (entity table key) (dao table key) :=
  ⟨_, fun _ => none, .any, rfl, rfl⟩

end OrderItems

/-- With names that need no quotes, all statements are read as statements about these names. -/
theorem IsDaoOf.names_read_orderItems :
    IsDaoOf (OrderItems.entity "order_item" "no") (OrderItems.dao "order_item" "no") ∧
      (OrderItems.dao "order_item" "no").table.columnNames = ["no", "note", "_is_delete"] ∧
      (OrderItems.dao "order_item" "no").ReadsNames := by
  have hof := OrderItems.isDaoOf "order_item" "no"
  obtain ⟨-, -, -, -, -, hreads⟩ := names_read_iff hof
  exact ⟨hof, by decide, hreads.2 (by decide)⟩

/-- A table with a hyphen in its name is created with this name, but a listing of its rows is not
read as one about this table; and the key takes the place of a question mark in the name of its
column. -/
theorem IsDaoOf.names_misread_orderItems :
    readAs? ((OrderItems.dao "order-item" "no?").table.declarationParts fun _ => "key")
        ((OrderItems.dao "order-item" "no?").table.createStatement fun _ => "key") =
      some ["order-item", "no?", "note", "_is_delete"] ∧
      (OrderItems.dao "order-item" "no?").Makes "select * from "
        ((OrderItems.dao "order-item" "no?").liveParts " where ")
        "select * from order-item where _is_delete = 0" ∧
      readAs? ((OrderItems.dao "order-item" "no?").statementParts "select * from "
          ((OrderItems.dao "order-item" "no?").liveParts " where "))
        "select * from order-item where _is_delete = 0" = none ∧
      ((OrderItems.dao "order-item" "no?").findKey ⟨"id", "no?"⟩).statementText
          [.literal (.int 7)] =
        "select * from order-item where no7 = ? and _is_delete = 0 limit 0, 1" :=
  ⟨Table.readAs?_createStatement _ _, .listAll, by decide, by decide⟩

end Persistence
