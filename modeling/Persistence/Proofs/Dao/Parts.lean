import Persistence.Proofs.Cascade.Asking
import Persistence.Proofs.Dao.Assembly
import Persistence.Proofs.Dao.Binding
import Persistence.Proofs.Query.Names

/-!
# The statements of an access object by parts

Every statement of an access object starts with words and its table, and names no more than columns
behind it.  The statement that creates the table has its names in quotes; the statements of the
access object have them as they are.  Templates know nothing of names: they take a `?` in one for a
placeholder, and a quote in one hides the placeholders behind it.  Statements are their parts if no
name has any of these.

Main results:

- `Table.readAs?_createStatement`: the names that a table is created with.
- `Dao.Makes.isOver`: the names of statements are those of columns.
- `Dao.Makes.eq_textOf`: the statements that are their parts.
-/

namespace Persistence

open Sql

/-! ## Declarations -/

/-- The definition of a column by parts. -/
def Column.parts (c : Column) : List Part :=
  [.name c.name, .fixed " ",
   .fixed (c.type.name ++ c.sizeText ++ (if c.notNull then " not null" else " null") ++
    c.defaultText ++ (if c.autoIncrement then " auto_increment" else ""))]

namespace Table

/-- The definitions of the keys of a table. -/
def keyDefinitions (t : Table) (names : Names) : List String :=
  (if t.primaryKeys.isEmpty then [] else [primaryKeyDefinition t.primaryKeys]) ++
    withNames names 0 (fun name (_, columns) => uniqueKeyDefinition name columns) t.uniqueKeys ++
    withNames names t.uniqueKeys.length
      (fun name (column, key) => ForeignKey.definition name column key) t.foreignKeys

/-- The statement that creates a table, by parts; the definitions of its keys are words to it. -/
def declarationParts (t : Table) (names : Names) : List Part :=
  .fixed "create table " :: .name t.name :: .fixed " (\n  " ::
    (joined ",\n  " (t.columns.map Column.parts ++
      (t.keyDefinitions names).map fun definition => [.fixed definition]) ++
        [.fixed "\n) engine=",
         .fixed (t.engine ++ " charset=" ++ t.charset ++ " collate=" ++ t.collate)])

theorem textOf_declarationParts (t : Table) (names : Names) :
    textOf identifier (t.declarationParts names) = t.createStatement names := by
  have hcolumn : textOf identifier ∘ Column.parts = Column.definition := by
    funext c
    simp [Column.parts, Column.definition, Part.text, String.append_assoc]
  have hkey : (textOf identifier ∘ fun definition => [Part.fixed definition]) = id := by
    funext definition
    simp [Part.text]
  have hdefinitions : t.definitions names =
      t.columns.map Column.definition ++ t.keyDefinitions names := by
    simp only [definitions, keyDefinitions, List.append_assoc]
  unfold createStatement
  simp only [declarationParts, textOf_cons, textOf_nil, textOf_append, textOf_joined, Part.text,
    List.map_append, List.map_map, hcolumn, hkey, List.map_id, hdefinitions, String.append_assoc,
    String.append_empty]

/-- A table is created with its name and the names of its columns, whatever they are. -/
theorem readAs?_createStatement (t : Table) (names : Names) :
    readAs? (t.declarationParts names) (t.createStatement names) =
      some (t.name :: t.columnNames) := by
  have hrows : ∀ parts ∈ t.columns.map Column.parts ++
      (t.keyDefinitions names).map (fun definition => [Part.fixed definition]),
        endsNames false parts = true := by
    rw [List.forall_mem_append, List.forall_mem_map, List.forall_mem_map]
    exact ⟨fun _ _ => rfl, fun _ _ => rfl⟩
  have hends : endsNames false (t.declarationParts names) = true :=
    endsNames_append (endsNames_joined rfl hrows) rfl
  have hnames : namesOf (t.declarationParts names) = t.name :: t.columnNames := by
    have hcolumn : ∀ c : Column, namesOf c.parts = [c.name] := fun _ => rfl
    simp [declarationParts, namesOf_append, namesOf_joined, List.flatMap_map, hcolumn, columnNames,
      ← List.map_eq_flatMap]
  rw [← textOf_declarationParts, readNames?_quoted hends, hnames]

end Table

/-! ## Statements by parts -/

/-- The limits of a page, behind its word. -/
def Page.parts (p : Page) : List Part :=
  [.fixed " limit ",
   .fixed ((Value.uint p.offset).literal ++ ", " ++ (Value.uint p.size).literal)]

/-- Assignments by parts. -/
def assignedParts (sets : List (String × Value)) : List Part :=
  joined "," (sets.map fun (name, v) => [.name name, .fixed " = ", .fixed v.literal])

theorem textOf_assignedParts (sets : List (String × Value)) :
    textOf id (assignedParts sets) =
      ",".intercalate (sets.map fun (name, v) => assignmentText name v) := by
  rw [assignedParts, textOf_joined, List.map_map]
  refine congrArg _ (List.map_congr_left fun set _ => ?_)
  simp [Part.text, assignmentText, String.append_assoc]

namespace Dao

/-- A statement by parts: words, the table, and what stands behind it. -/
def statementParts (d : Dao) (lead : String) (closing : List Part) : List Part :=
  .fixed lead :: .name d.tableName :: closing

/-- The condition that leaves out deleted rows, behind some words. -/
def liveParts (d : Dao) (words : String) : List Part :=
  if d.table.softDelete then [.fixed words, .name softDeleteColumn, .fixed " = 0"] else []

/-- The clauses of a query behind a blank. -/
def queryParts (d : Dao) (q : Query) : List Part :=
  .fixed " " :: q.parts d.target.mapping d.target.softDelete

/-- The condition on the value of a column. -/
def valueParts (d : Dao) (column : String) (v : Value) : List Part :=
  .fixed " where " :: .name column :: .fixed " = " :: .fixed v.literal :: d.liveParts " and "

/-- The columns that are written, and their rows. -/
def rowsParts (d : Dao) (rows : List (List Value)) : List Part :=
  .fixed " (" :: (joined "," (d.table.propertyColumns.map fun c => [.name c.name]) ++
    [.fixed ") values ", .fixed (", ".intercalate (rows.map rowText))])

/-- The assignments of an update. -/
def setParts (sets : List (String × Value)) : List Part := .fixed " set " :: assignedParts sets

/-- The names that an update assigns. -/
def setNames (d : Dao) (columns : List ValueColumn) : List String :=
  (columns.filterMap fun c => d.table.columnOf? c.property).map Column.name

/-- A query over the columns of the table. -/
def Keeps (d : Dao) (q : Query) : Prop := q.KeptIn d.target.mapping d.table.columnNames

/-- The statements of an access object, each with the words in front of its table and the parts
behind it, for queries over the columns of the table. -/
inductive Makes (d : Dao) : String → List Part → String → Prop
  | countAll :
      Makes d "select count(*) from " (d.liveParts " where ") (d.countAll.statementText [])
  | countQuery {q : Query} : d.Keeps q →
      Makes d "select count(*) from " (d.queryParts q) (d.countQuery.statementText [.query q])
  | listAll : Makes d "select * from " (d.liveParts " where ") (d.listAll.statementText [])
  | listQuery {q : Query} : d.Keeps q →
      Makes d "select * from " (d.queryParts q) (d.listQuery.statementText [.query q])
  | pageAll (p : Page) :
      Makes d "select * from " (d.liveParts " where " ++ p.parts)
        (d.pageAll.statementText p.arguments)
  | pageQuery {q : Query} (p : Page) : d.Keeps q →
      Makes d "select * from " (d.queryParts q ++ p.parts)
        (d.pageQuery.statementText (.query q :: p.arguments))
  | findKey {key : KeyColumn} (v : Value) : d.primaryKey = some key →
      Makes d "select * from " (d.valueParts key.column v ++ [.fixed " limit 0, 1"])
        ((d.findKey key).statementText [.literal v])
  | findQuery {q : Query} : d.Keeps q →
      Makes d "select * from " (d.queryParts q ++ [.fixed " limit 0, 1"])
        (d.findQuery.statementText [.query q])
  | findBy {column : String} (v : Value) : column ∈ d.table.columnNames →
      Makes d "select * from " (d.valueParts column v)
        (d.findBy.statementText [.raw column, .literal v])
  | findListBy {column : String} (v : Value) : column ∈ d.table.columnNames →
      Makes d "select * from " (d.valueParts column v)
        (d.findListBy.statementText [.raw column, .literal v])
  | insert {objects : List Json} {rows : List (List Value)} {sql : String} :
      objects.mapM (entityValues d.columns) = .ok rows →
      d.insert.statementText objects = .ok sql → Makes d "insert into " (d.rowsParts rows) sql
  | replace {objects : List Json} {rows : List (List Value)} {sql : String} :
      objects.mapM (entityValues d.columns) = .ok rows →
      d.replace.statementText objects = .ok sql → Makes d "replace into " (d.rowsParts rows) sql
  | updateKey {key : KeyColumn} {columns : List ValueColumn} {object : Json} {row : List Value}
      {v : Value} {more : List Value} {sql : String} : d.primaryKey = some key →
      (∀ c ∈ columns, c ∈ d.columns) →
      entityValues (columns ++ d.keyColumns) object = .ok (row ++ v :: more) →
      columns.length = row.length → (d.updateKey key columns).statementText object [] = .ok sql →
      Makes d "update " (setParts ((d.setNames columns).zip row) ++ d.valueParts key.column v) sql
  | updateQuery {q : Query} {columns : List ValueColumn} {object : Json} {row : List Value}
      {sql : String} : d.Keeps q → (∀ c ∈ columns, c ∈ d.columns) →
      entityValues columns object = .ok row →
      (d.updateQuery columns).statementText object [.query q] = .ok sql →
      Makes d "update " (setParts ((d.setNames columns).zip row) ++ d.queryParts q) sql
  | rows {q : Query} : d.Keeps q →
      Makes d "select * from " (d.queryParts q) (Statement.rows (d.scope q)).sql
  | remove {q : Query} : d.Keeps q →
      Makes d "delete from " (d.queryParts q) (Statement.remove (d.scope q)).sql
  | flag {q : Query} {sets : List (String × Value)} : d.Keeps q →
      DeleteSets d.table.columns sets →
      Makes d "update " (setParts sets ++ d.queryParts q) (Statement.flag (d.scope q) sets).sql

/-- A statement that an access object makes. -/
def HasParts (d : Dao) (sql : String) : Prop := ∃ lead closing, d.Makes lead closing sql

/-! ## The names of statements -/

/-- A statement that writes rows names all columns that keep properties. -/
theorem namesOf_rowsParts (d : Dao) (rows : List (List Value)) :
    namesOf (d.rowsParts rows) = d.table.propertyColumns.map Column.name := by
  simp [rowsParts, namesOf_append, namesOf_joined, List.flatMap_map, ← List.map_eq_flatMap]

/-- A statement that sets columns names them. -/
theorem namesOf_setParts (sets : List (String × Value)) :
    namesOf (setParts sets) = sets.map Prod.fst := by
  simp [setParts, assignedParts, namesOf_joined, List.flatMap_map, ← List.map_eq_flatMap]

section Over

variable {e : Entity} {d : Dao} (hof : IsDaoOf e d)

include hof

theorem softDeleteColumn_mem (hsoft : d.table.softDelete = true) :
    softDeleteColumn ∈ d.table.columnNames := by
  rw [Table.columnNames, hof.columns, if_pos hsoft]
  simp [Column.softDeleteFlag]

theorem keyColumn_mem {key : KeyColumn} (hkey : d.primaryKey = some key) :
    key.column ∈ d.table.columnNames := by
  obtain ⟨c, hc⟩ := hof.exists_keepsKey hkey
  exact hc.name ▸ List.mem_map_of_mem (List.mem_of_mem_filter hc.mem)

theorem isOver_liveParts {words : String} (hwords : endsNames true [.fixed words] = true) :
    IsOver d.table.columnNames true (d.liveParts words) := by
  rw [liveParts]
  split
  · next hsoft => exact .fixed hwords (.name (softDeleteColumn_mem hof hsoft) (.fixed rfl .nil))
  · exact .nil

/-- The clauses of a query name columns of the table. -/
theorem isOver_clauses {q : Query} (hq : d.Keeps q) :
    IsOver d.table.columnNames true (q.parts d.target.mapping d.target.softDelete) :=
  Query.isOver_parts hq fun hsoft => softDeleteColumn_mem hof (hof.target_softDelete ▸ hsoft)

theorem isOver_queryParts {q : Query} (hq : d.Keeps q) :
    IsOver d.table.columnNames true (d.queryParts q) :=
  .fixed rfl (isOver_clauses hof hq).of_true

theorem isOver_valueParts {column : String} (hcolumn : column ∈ d.table.columnNames) (v : Value) :
    IsOver d.table.columnNames true (d.valueParts column v) :=
  .fixed rfl (.name hcolumn (.fixed rfl (.fixed rfl (isOver_liveParts hof rfl).of_true)))

omit hof in
theorem isOver_rowsParts (d : Dao) (rows : List (List Value)) :
    IsOver d.table.columnNames true (d.rowsParts rows) where
  ends := endsNames_append (endsNames_joined rfl (List.forall_mem_map.2 fun _ _ => rfl)) rfl
  mem := by
    rw [namesOf_rowsParts, List.forall_mem_map]
    exact fun c hc => List.mem_map_of_mem (List.mem_of_mem_filter hc)

omit hof in
theorem setNames_mem (d : Dao) (columns : List ValueColumn) :
    ∀ name ∈ d.setNames columns, name ∈ d.table.columnNames := by
  rw [setNames, List.forall_mem_map]
  intro c hc
  obtain ⟨column, -, hfound⟩ := List.mem_filterMap.1 hc
  exact List.mem_map_of_mem (List.mem_of_find?_eq_some hfound)

omit hof in
theorem isOver_setParts {sets : List (String × Value)}
    (h : ∀ set ∈ sets, set.1 ∈ d.table.columnNames) {closing : List Part}
    (hclosing : IsOver d.table.columnNames true closing) :
    IsOver d.table.columnNames true (setParts sets ++ closing) := by
  refine IsOver.append ⟨endsNames_joined rfl (List.forall_mem_map.2 fun _ _ => rfl), ?_⟩ hclosing
  rw [namesOf_setParts, List.forall_mem_map]
  exact h

omit hof in
theorem isOver_setNames {columns : List ValueColumn} {row : List Value} {closing : List Part}
    (hclosing : IsOver d.table.columnNames true closing) :
    IsOver d.table.columnNames true (setParts ((d.setNames columns).zip row) ++ closing) :=
  isOver_setParts (fun _ hset => d.setNames_mem columns _ (List.of_mem_zip hset).1) hclosing

/-- Behind its table a statement names columns of the table. -/
theorem Makes.isOver {lead : String} {closing : List Part} {sql : String}
    (h : d.Makes lead closing sql) : IsOver d.table.columnNames true closing := by
  cases h with
  | countAll | listAll => exact isOver_liveParts hof rfl
  | pageAll p =>
      exact (isOver_liveParts hof rfl).append (.fixed rfl (.fixed rfl .nil))
  | countQuery hq | listQuery hq | rows hq | remove hq => exact isOver_queryParts hof hq
  | pageQuery p hq => exact (isOver_queryParts hof hq).append (.fixed rfl (.fixed rfl .nil))
  | findQuery hq => exact (isOver_queryParts hof hq).append (.fixed rfl .nil)
  | findKey v hkey =>
      exact (isOver_valueParts hof (keyColumn_mem hof hkey) v).append (.fixed rfl .nil)
  | findBy v hcolumn | findListBy v hcolumn => exact isOver_valueParts hof hcolumn v
  | insert hrows hsql | replace hrows hsql => exact d.isOver_rowsParts _
  | updateKey hkey hcolumns hvalues hlength hsql =>
      exact isOver_setNames (isOver_valueParts hof (keyColumn_mem hof hkey) _)
  | updateQuery hq hcolumns hvalues hsql => exact isOver_setNames (isOver_queryParts hof hq)
  | flag hq hsets =>
      refine isOver_setParts ?_ (isOver_queryParts hof hq)
      exact hsets.forall_fst (· ∈ d.table.columnNames) fun c => List.mem_map_of_mem

end Over

/-! ## The texts of statements -/

section Texts

variable {d : Dao} {lead : String} {closing : List Part} {sql : String}

theorem textOf_statementParts :
    textOf id (d.statementParts lead closing) = lead ++ d.tableName ++ textOf id closing := by
  simp [statementParts, Part.text, String.append_assoc]

theorem textOf_liveWhere (d : Dao) : textOf id (d.liveParts " where ") = d.liveWhere := by
  rw [liveParts, liveWhere]
  split <;> simp [Part.text, String.append_assoc]

theorem textOf_liveAnd (d : Dao) : textOf id (d.liveParts " and ") = d.liveAnd := by
  rw [liveParts, liveAnd]
  split <;> simp [Part.text, String.append_assoc]

theorem fill_liveWhere (d : Dao) (texts : List String) :
    fill d.liveWhere texts = textOf id (d.liveParts " where ") := by
  rw [d.isBalanced_liveWhere.fill, textOf_liveWhere]

/-- A template that starts with a query takes its clauses. -/
theorem fill_queryParts (d : Dao) (q : Query) (rest : String) (texts : List String) :
    fill (" ?" ++ rest) (q.clauseText d.target.mapping d.target.softDelete :: texts) =
      textOf id (d.queryParts q) ++ fill rest texts := by
  rw [queryParts, textOf_cons, Query.textOf_parts, Part.text, fill_clause]

/-- A template that ends with a query takes its clauses. -/
theorem fill_lastQuery (d : Dao) (q : Query) :
    fill " ?" [q.clauseText d.target.mapping d.target.softDelete] =
      textOf id (d.queryParts q) := by
  rw [fill_query, queryParts, textOf_cons, Query.textOf_parts, Part.text]

theorem textOf_valueParts (d : Dao) (column : String) (v : Value) :
    textOf id (d.valueParts column v) =
      " where " ++ column ++ " = " ++ v.literal ++ d.liveAnd := by
  simp [valueParts, textOf_liveAnd, Part.text, String.append_assoc]

theorem fill_pageArguments (p : Page) :
    fill " limit ?, ?" (p.arguments.map Param.text) = textOf id p.parts := by
  have hwords : " limit " = " " ++ ("limit" ++ " ") := rfl
  refine (fill_page (Value.uint p.offset).literal (Value.uint p.size).literal).trans ?_
  simp only [Page.parts, textOf_cons, textOf_nil, Part.text, hwords, String.append_assoc,
    String.append_empty]

theorem textOf_setParts (sets : List (String × Value)) :
    textOf id (setParts sets) =
      " set " ++ ",".intercalate (sets.map fun (name, v) => assignmentText name v) := by
  rw [setParts, textOf_cons, textOf_assignedParts, Part.text]

theorem textOf_rowsParts (d : Dao) (rows : List (List Value)) :
    textOf id (d.rowsParts rows) =
      " (" ++ d.columnList ++ ") values " ++ ", ".intercalate (rows.map rowText) := by
  have hnames : (d.table.propertyColumns.map fun c => [Part.name c.name]).map (textOf id) =
      d.listedColumns := by
    rw [List.map_map]
    exact List.map_congr_left fun c _ => String.append_empty
  simp only [rowsParts, textOf_cons, textOf_append, textOf_nil, textOf_joined, hnames, Part.text,
    columnList, String.append_assoc, String.append_empty]

/-- The set clause of some columns has a placeholder for each of them. -/
theorem setClause_eq_setNames (d : Dao) (columns : List ValueColumn) :
    d.setClause columns = ",".intercalate ((d.setNames columns).map (· ++ " = ?")) := by
  rw [setClause, setNames, List.map_map]
  rfl

theorem length_setNames {e : Entity} (hof : IsDaoOf e d) {columns : List ValueColumn}
    (hcolumns : ∀ c ∈ columns, c ∈ d.columns) : (d.setNames columns).length = columns.length := by
  rw [setNames, List.length_map, List.filterMap_length_eq_length]
  intro c hc
  obtain ⟨column, -, hfound⟩ := hof.exists_columnOf? (hcolumns c hc)
  rw [hfound, Option.isSome_some]

theorem fill_limitPart (texts : List String) :
    fill " limit 0, 1" texts = textOf id [.fixed " limit 0, 1"] :=
  ((IsBalanced.of_open rfl).fill texts).trans String.append_empty.symm

theorem isFixed_select : IsFixed "select * from " := (IsBalanced.of_open rfl).isFixed

variable (htable : IsUnmarked d.tableName)

include htable

/-- A template leaves what stands in front of a table and the table. -/
theorem fill_statement (hlead : IsFixed lead) {rest : String} {texts : List String}
    (hrest : fill rest texts = textOf id closing) :
    fill (lead ++ d.tableName ++ rest) texts = textOf id (d.statementParts lead closing) := by
  rw [hlead.append (.of_unmarked htable), hrest, textOf_statementParts]

/-- A select whose template starts with its table. -/
theorem statementText_eq (hlead : IsFixed lead) {s : Select} {args : List Param} {rest : String}
    (htemplate : s.template = lead ++ d.tableName ++ rest)
    (hrest : fill rest ((prepareParams s.target s.rawPositions 0 args).map Param.text) =
      textOf id closing) :
    s.statementText args = textOf id (d.statementParts lead closing) := by
  rw [Select.statementText, format, htemplate]
  exact fill_statement htable hlead hrest

/-- A template with a column behind the table takes the value of the column. -/
theorem statementText_findListBy (column : String) (v : Value) :
    d.findListBy.statementText [.raw column, .literal v] =
      textOf id (d.statementParts "select * from " (d.valueParts column v)) := by
  refine statementText_eq htable isFixed_select String.append_assoc ?_
  show fill (" where ? = ?" ++ d.liveAnd) [column, v.literal] = _
  rw [fill_columnMark, d.isBalanced_liveAnd.fill, textOf_valueParts]

/-- A template with a key takes its value. -/
theorem eq_textOf_findKey {key : KeyColumn} (hkey : IsUnmarked key.column) (v : Value) :
    (d.findKey key).statementText [.literal v] =
      textOf id (d.statementParts "select * from "
        (d.valueParts key.column v ++ [.fixed " limit 0, 1"])) := by
  have htemplate : (d.findKey key).template = "select * from " ++ d.tableName ++
      (" where " ++ key.column ++ " = ?" ++ (d.liveAnd ++ " limit 0, 1")) := by
    simp only [findKey, select, String.append_assoc]
  have hrest : fill (" where " ++ key.column ++ " = ?" ++ (d.liveAnd ++ " limit 0, 1"))
      [v.literal] = textOf id (d.valueParts key.column v ++ [.fixed " limit 0, 1"]) := by
    rw [fill_column (.of_unmarked hkey), d.isBalanced_liveAnd.fill_append, fill_limitPart,
      textOf_append, textOf_valueParts]
    simp only [String.append_assoc]
  exact statementText_eq htable isFixed_select htemplate hrest

/-- A template that has its assignments in it takes the clauses of a query behind them. -/
theorem sql_flag_eq {sets : List (String × Value)} (hsets : ∀ set ∈ sets, IsUnmarked set.1)
    (q : Query) :
    (Statement.flag (d.scope q) sets).sql =
      textOf id (d.statementParts "update " (setParts sets ++ d.queryParts q)) := by
  have hupdate : IsBalanced "update " := .of_open rfl
  have hset : IsBalanced " set " := .of_open rfl
  have hassigned := isFixed_assignments fun set hmem => IsFixed.of_unmarked (hsets set hmem)
  have hfront := (hupdate.isFixed.append (.of_unmarked htable)).append hset.isFixed
  rw [sql_flag_of_isFixed hfront hassigned, textOf_statementParts, textOf_append, textOf_setParts,
    ← fill_lastQuery, fill_query]
  simp only [String.append_assoc]
  rfl

variable (hcolumns : ∀ s ∈ d.table.columnNames, IsUnmarked s)

include hcolumns

/-- A template that takes rows behind the names of the columns. -/
theorem eq_textOf_rows (hlead : IsFixed lead) {i : Insert} (htaken : i.columns = d.columns)
    (htemplate : i.template = lead ++ d.tableName ++ " (" ++ d.columnList ++ ") values ?")
    {objects : List Json} {rows : List (List Value)}
    (hrows : objects.mapM (entityValues d.columns) = .ok rows)
    (hsql : i.statementText objects = .ok sql) :
    sql = textOf id (d.statementParts lead (d.rowsParts rows)) := by
  have hnames : ∀ c ∈ d.table.propertyColumns, IsUnmarked c.name := fun c hc =>
    hcolumns _ (List.mem_map_of_mem (List.mem_of_mem_filter hc))
  obtain ⟨_, htexts, rfl⟩ := (statementText_rows hlead htable hnames htemplate).1 hsql
  rw [htaken, ← mapM_eq_ok_iff, hrows] at htexts
  obtain rfl := Except.ok.inj htexts
  simp only [textOf_statementParts, textOf_rowsParts, String.append_assoc]

/-- A template that assigns columns takes a row of values for them. -/
theorem fill_setClause {columns : List ValueColumn} {row : List Value}
    (hlength : (d.setNames columns).length = row.length) {rest : String} {texts : List String}
    (hrest : fill rest texts = textOf id closing) :
    fill ("update " ++ d.tableName ++ " set " ++ d.setClause columns ++ rest)
        (row.map Value.literal ++ texts) =
      textOf id (d.statementParts "update "
        (setParts ((d.setNames columns).zip row) ++ closing)) := by
  have hnames : ∀ name ∈ d.setNames columns, IsUnmarked name := fun name hname =>
    hcolumns name (d.setNames_mem columns name hname)
  have hassigned : textOf id (setParts ((d.setNames columns).zip row)) =
      " set " ++ assignedText (d.setNames columns) row := by
    rw [textOf_setParts, List.map_zip_eq_zipWith]
    rfl
  rw [setClause_eq_setNames, fill_set htable hnames hlength, hrest, textOf_statementParts,
    textOf_append, hassigned]
  simp only [String.append_assoc]

/-- A statement is its parts, if neither its table nor its columns have placeholders or quotes in
their names. -/
theorem Makes.eq_textOf {e : Entity} (hof : IsDaoOf e d) (h : d.Makes lead closing sql) :
    sql = textOf id (d.statementParts lead closing) := by
  have hcount : IsFixed "select count(*) from " := by
    refine .of_unmarked ?_
    simp [IsUnmarked, isQuote]
  cases h with
  | countAll => exact statementText_eq htable hcount rfl (d.fill_liveWhere _)
  | listAll => exact statementText_eq htable isFixed_select rfl (d.fill_liveWhere _)
  | pageAll p =>
      refine statementText_eq htable isFixed_select String.append_assoc ?_
      rw [d.isBalanced_liveWhere.fill_append, textOf_append, textOf_liveWhere]
      exact congrArg _ (fill_pageArguments p)
  | countQuery hq => exact statementText_eq htable hcount rfl (d.fill_lastQuery _)
  | listQuery hq => exact statementText_eq htable isFixed_select rfl (d.fill_lastQuery _)
  | @pageQuery q p hq =>
      have htemplate : d.pageQuery.template =
          "select * from " ++ d.tableName ++ (" ?" ++ " limit ?, ?") := rfl
      refine statementText_eq htable isFixed_select htemplate ?_
      rw [textOf_append, ← fill_pageArguments]
      exact d.fill_queryParts q _ _
  | findQuery hq =>
      have htemplate : d.findQuery.template =
          "select * from " ++ d.tableName ++ (" ?" ++ " limit 0, 1") := rfl
      refine statementText_eq htable isFixed_select htemplate ?_
      rw [textOf_append, ← fill_limitPart []]
      exact d.fill_queryParts _ _ _
  | findKey v hkey =>
      exact eq_textOf_findKey htable (hcolumns _ (keyColumn_mem hof hkey)) v
  | findBy v hcolumn | findListBy v hcolumn => exact statementText_findListBy htable _ v
  | insert hrows hsql =>
      refine eq_textOf_rows htable hcolumns (.of_unmarked ?_) rfl rfl hrows hsql
      simp [IsUnmarked, isQuote]
  | replace hrows hsql =>
      refine eq_textOf_rows htable hcolumns (.of_unmarked ?_) rfl rfl hrows hsql
      simp [IsUnmarked, isQuote]
  | updateKey hkey htaken hvalues hlength hsql =>
      have hcolumn : IsFixed _ := .of_unmarked (hcolumns _ (keyColumn_mem hof hkey))
      rw [statementText_updateKey hvalues hsql]
      refine fill_setClause htable hcolumns ((length_setNames hof htaken).trans hlength) ?_
      rw [fill_column hcolumn, d.isBalanced_liveAnd.fill, textOf_valueParts]
  | updateQuery hq htaken hvalues hsql =>
      obtain ⟨values, hvalues', rfl⟩ := Update.statementText_eq_ok_iff.1 hsql
      obtain rfl := Except.ok.inj (hvalues'.symm.trans hvalues)
      have hnames := (length_setNames hof htaken).trans (length_of_entityValues hvalues).symm
      exact fill_setClause htable hcolumns hnames (d.fill_lastQuery _)
  | rows hq => exact fill_statement htable isFixed_select (d.fill_lastQuery _)
  | remove hq =>
      have hdelete : IsFixed "delete from " := (IsBalanced.of_open rfl).isFixed
      exact fill_statement htable hdelete (d.fill_lastQuery _)
  | flag hq hsets =>
      refine sql_flag_eq htable (hsets.forall_fst IsUnmarked fun c hc => ?_) _
      exact hcolumns _ (List.mem_map_of_mem hc)

end Texts

end Dao

end Persistence
