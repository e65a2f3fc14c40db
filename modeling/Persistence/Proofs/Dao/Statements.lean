import Persistence.Dao.Delete
import Persistence.Dao.Write
import Persistence.Proofs.Query.Scoping

/-!
# The statements of a data access object

Every statement of an access object is about its own table.  Where deletion is soft, those that read
and those that change rows are about rows that are not deleted, whatever queries, keys and values
they are made with.  A template is the words in front of a table, the table, and what closes the
statement; only the last part has placeholders or ways to leave rows out.

Main results:

- `Dao.closes_liveWhere`, `Dao.closes_column`, `Dao.Plain.closes_clauseText`: what closes a
  statement.
- `Dao.Plain.spares_fill`: statements that read rows.
- `Dao.Plain.spares_assigned`: statements that change rows.
-/

namespace Persistence

open Sql

/-! ## Values -/

/-- A sequence succeeds if both of its parts do. -/
theorem except_bind_eq_ok_iff {α β ε : Type} {x : Except ε α} {f : α → Except ε β} {b : β} :
    x >>= f = .ok b ↔ ∃ a, x = .ok a ∧ f a = .ok b := by
  cases x with
  | error e =>
      constructor
      · rintro ⟨⟩
      · rintro ⟨_, ⟨⟩, _⟩
  | ok a =>
      constructor
      · exact fun h => ⟨a, rfl, h⟩
      · rintro ⟨_, ⟨⟩, h⟩
        exact h

/-- The results for some items are those that each of them has. -/
theorem mapM_eq_ok_iff {α β ε : Type} {f : α → Except ε β} {items : List α} {results : List β} :
    items.mapM f = .ok results ↔ List.Forall₂ (fun a b => f a = .ok b) items results := by
  induction items generalizing results with
  | nil =>
      rw [List.mapM_nil, List.forall₂_nil_left_iff]
      exact ⟨fun h => (Except.ok.inj h).symm, fun h => h ▸ rfl⟩
  | cons item items ih =>
      simp only [List.mapM_cons, List.forall₂_cons_left_iff, except_bind_eq_ok_iff, ih]
      constructor
      · rintro ⟨result, hitem, rest, hrest, hresults⟩
        exact ⟨result, rest, hitem, hrest, (Except.ok.inj hresults).symm⟩
      · rintro ⟨result, rest, hitem, hrest, rfl⟩
        exact ⟨result, hitem, rest, hrest, rfl⟩

/-- An update is made with the values that its columns have for the entity. -/
theorem Update.statementText_eq_ok_iff {u : Update} {entity : Json} {args : List Param}
    {sql : String} :
    u.statementText entity args = .ok sql ↔ ∃ values, entityValues u.columns entity = .ok values ∧
      sql = fill u.template (values.map Value.literal ++
        (prepareParams u.target u.rawPositions 1 args).map Param.text) := by
  have htext : ∀ values : List Value, format u.template
      (values.map Param.literal ++ prepareParams u.target u.rawPositions 1 args) =
        fill u.template (values.map Value.literal ++
          (prepareParams u.target u.rawPositions 1 args).map Param.text) := by
    intro values
    rw [format, List.map_append, List.map_map]
    rfl
  simp only [statementText, except_bind_eq_ok_iff, htext, Except.ok.injEq, eq_comm (a := sql)]

/-- There is a value for each of the columns. -/
theorem length_of_entityValues {columns : List ValueColumn} {entity : Json} {values : List Value}
    (h : entityValues columns entity = .ok values) : values.length = columns.length := by
  cases entity with
  | obj fields => exact (mapM_eq_ok_iff.1 h).length_eq.symm
  | _ => cases h

/-! ## Assignments -/

/-- The assignments of some values to some columns. -/
def assignedText (names : List String) (values : List Value) : String :=
  ",".intercalate (List.zipWith assignmentText names values)

theorem calm_assignmentText {name : String} (h : isBareName name = true) (v : Value) :
    Calm (assignmentText name v) := by
  have hequals : Calm "=" := ⟨_, .of_words rfl rfl, List.all_eq_true.1 rfl⟩
  have hwords : " = " = " " ++ "=" ++ " " := rfl
  rw [assignmentText, hwords]
  simpa only [String.append_assoc] using ((Calm.of_name h).blank hequals).blank v.calm_literal

theorem calm_assignedText {names : List String} (h : ∀ name ∈ names, isBareName name = true)
    (values : List Value) : Calm (assignedText names values) := by
  refine Calm.intercalate (fun _ _ hfront hback => hfront.comma hback) fun text htext => ?_
  obtain ⟨i, hi, rfl⟩ := List.mem_iff_getElem.1 htext
  rw [List.getElem_zipWith]
  exact calm_assignmentText (h _ (List.getElem_mem _)) _

/-- Assignments stay as they are if the names of their columns do, whatever the values are. -/
theorem isFixed_assignments {sets : List (String × Value)} (h : ∀ set ∈ sets, IsFixed set.1) :
    IsFixed (",".intercalate (sets.map fun (column, v) => assignmentText column v)) := by
  have hcomma : IsBalanced "," := .of_open rfl
  have hequals : IsBalanced " = " := .of_open rfl
  apply hcomma.isFixed.intercalate
  rw [List.forall_mem_map]
  intro set hset
  exact ((h set hset).append hequals.isFixed).append (isBalanced_literal set.2).isFixed

/-- Assignments with a placeholder for each column take a value for each column. -/
theorem fill_assignments {names : List String} (h : ∀ name ∈ names, IsFixed name)
    {values : List Value} (hlength : names.length = values.length) (rest : String)
    (texts : List String) :
    fill (",".intercalate (names.map fun name => name ++ " = ?") ++ rest)
        (values.map Value.literal ++ texts) =
      assignedText names values ++ fill rest texts := by
  have hone : ∀ {name : String}, IsFixed name → ∀ (v : Value) (rest : String)
      (texts : List String), fill (name ++ " = ?" ++ rest) (v.literal :: texts) =
        assignmentText name v ++ fill rest texts := by
    intro name hname v rest texts
    have hequals : IsBalanced " = " := .of_open rfl
    have hmark : " = ?" = " = " ++ "?" := rfl
    rw [hmark, ← String.append_assoc, String.append_assoc, hname.append hequals.isFixed, fill_mark,
      assignmentText]
    simp only [String.append_assoc]
  induction names generalizing values with
  | nil =>
      obtain rfl := List.eq_nil_of_length_eq_zero hlength.symm
      simp [assignedText]
  | cons name names ih =>
      obtain ⟨hname, hnames⟩ := List.forall_mem_cons.1 h
      cases values with
      | nil => simp at hlength
      | cons v values =>
          have hrest := ih hnames (Nat.succ.inj hlength)
          cases names with
          | nil =>
              obtain rfl := List.eq_nil_of_length_eq_zero (Nat.succ.inj hlength).symm
              simpa [assignedText] using hone hname v rest texts
          | cons next names =>
              cases values with
              | nil => simp at hlength
              | cons w values =>
                  have hset : ",".intercalate ((name :: next :: names).map (· ++ " = ?")) =
                      name ++ " = ?" ++ "," ++
                        ",".intercalate ((next :: names).map (· ++ " = ?")) :=
                    String.intercalate_cons_of_ne_nil (by simp)
                  have hassigned : assignedText (name :: next :: names) (v :: w :: values) =
                      assignmentText name v ++ "," ++ assignedText (next :: names) (w :: values) :=
                    String.intercalate_cons_of_ne_nil (by simp)
                  have hcomma : IsBalanced "," := .of_open rfl
                  have htexts : (v :: w :: values).map Value.literal ++ texts =
                      v.literal :: ((w :: values).map Value.literal ++ texts) := rfl
                  rw [hset, hassigned, htexts, String.append_assoc, String.append_assoc,
                    hone hname, hcomma.fill_append, hrest]
                  simp only [String.append_assoc]

/-! ## Plain names -/

/-- A mapping that leads bare names to bare names, and whose relations look up bare columns through
the finding selects of entity types. -/
structure Mapping.Plain (m : Mapping) : Prop where
  columns : ∀ field, isBareName field = true → isBareName (m.columnName field) = true
  lookups : ∀ property l, (property, Mapping.Target.lookup l) ∈ m.entries →
    (∃ entity, l.select = findId entity ∨ l.select = findListId entity) ∧
      ∃ column, l.target = some column ∧ isBareName column = true

namespace Dao

/-- An access object with bare names for its table and its columns, and for what its relations look
up; the flag of deleted rows is the last of its columns where deletion is soft. -/
structure Plain (dao : Dao) : Prop where
  table : isBareName dao.tableName = true
  target : dao.target.softDelete = dao.table.softDelete
  mapping : dao.target.mapping.Plain
  key : ∀ key, dao.primaryKey = some key → isBareName key.property = true ∧
    isBareName key.column = true ∧ dao.keyColumns ≠ []
  written : ∀ c ∈ dao.columns, ∃ column, dao.table.columnOf? c.property = some column ∧
    isBareName column.name = true
  columns : ∀ c ∈ dao.table.columns, isBareName c.name = true
  flagged : dao.table.softDelete = true →
    ∃ front, dao.table.columns = front ++ [Column.softDeleteFlag]

/-- A statement about the table of an access object that, where deletion is soft, is about rows that
are not deleted. -/
def Spares (dao : Dao) (verb : Verb) (text : String) : Prop :=
  target? text = some (verb, dao.tableName) ∧
    (dao.table.softDelete = true → isScoped text = true)

/-- What may stand behind the words in front of the clauses of a statement. -/
inductive Closes (dao : Dao) : String → Prop
  | bare : dao.table.softDelete = false → Closes dao ""
  | clauses {body : String} : (dao.table.softDelete = true → Restricts body) →
      Closes dao (" " ++ body)

variable {dao : Dao} {text : String}

theorem requireKey_eq_ok_iff {key : KeyColumn} :
    dao.requireKey = .ok key ↔ dao.primaryKey = some key := by
  rw [requireKey]
  cases dao.primaryKey <;> simp

theorem Closes.blank {front back : String} (h : dao.Closes front) (h' : Trails back) :
    dao.Closes (front ++ " " ++ back) := by
  cases h with
  | bare hhard =>
      rw [String.empty_append]
      exact .clauses fun hsoft => by simp [hhard] at hsoft
  | @clauses body hbody =>
      have happend : " " ++ body ++ " " ++ back = " " ++ (body ++ " " ++ back) := by
        simp only [String.append_assoc]
      rw [happend]
      exact .clauses fun hsoft => (hbody hsoft).blank h'

theorem Closes.eq_or (h : dao.Closes text) : text = "" ∨ ∃ body, text = " " ++ body := by
  cases h with
  | bare _ => exact .inl rfl
  | clauses _ => exact .inr ⟨_, rfl⟩

/-- A statement is about the rows that its clauses leave. -/
theorem Closes.isScoped {head : String} {ws : List Word} (h : dao.Closes text)
    (hhead : Spells head ws) (hws : ∀ w ∈ ws, w.precedes = true)
    (hsoft : dao.table.softDelete = true) : isScoped (head ++ text) = true := by
  cases h with
  | bare hhard => simp [hsoft] at hhard
  | clauses hbody =>
      rw [← String.append_assoc]
      exact (hbody hsoft).isScoped hhead hws

/-! ## Clauses -/

theorem closes_liveWhere (dao : Dao) : dao.Closes dao.liveWhere := by
  rw [liveWhere]
  split
  · next hsoft =>
    have hlive := restricts_where spells_liveCondition .alone
    have hwords : " where " = " " ++ ("where" ++ " ") := rfl
    rw [hwords, String.append_assoc, String.append_assoc]
    refine .clauses fun _ => ?_
    simpa only [String.append_assoc] using hlive
  · next hhard => exact .bare (by simpa using hhard)

/-- The clauses of a query. -/
theorem Plain.closes_clauseText (h : dao.Plain) {q : Query} (hq : q.Named dao.target.mapping) :
    dao.Closes (" " ++ q.clauseText dao.target.mapping dao.target.softDelete) := by
  refine .clauses fun hsoft => ?_
  rw [h.target, hsoft]
  exact Query.restricts_clauseText hq

/-- A condition on one column. -/
theorem closes_column (dao : Dao) {column : String} (hcolumn : isBareName column = true)
    (v : Value) :
    dao.Closes (" where " ++ column ++ " = " ++ v.literal ++ dao.liveAnd) := by
  obtain ⟨ws, hspells, hws⟩ := calm_assignmentText hcolumn v
  have hwords : " where " = " " ++ "where" ++ " " ∧ " and " = " " ++ "and" ++ " " :=
    ⟨rfl, rfl⟩
  have hand : Spells "and" [.clause (.connector .and)] :=
    .of_words rfl rfl
  rw [liveAnd, hwords.1, hwords.2]
  simp only [String.append_assoc]
  refine .clauses fun hsoft => ?_
  rw [if_pos hsoft]
  have hlast := restricts_where ((hspells.blank hand).blank spells_liveCondition)
    (by simpa using AsksForLive.last hws)
  simpa only [assignmentText, String.append_assoc] using hlast

/-- A limit on the number of rows. -/
theorem trails_limit : Trails "limit 0, 1" := by
  refine ⟨.clause .limit, [.name "0", .mark ',', .name "1"], ?_, rfl, by simp [Word.isCalm]⟩
  exact .of_words rfl rfl

/-- The limits of a page. -/
theorem trails_page (offset size : Value) :
    Trails ("limit" ++ " " ++ (offset.literal ++ ", " ++ size.literal)) := by
  have hlimit : Spells "limit" [.clause .limit] := .of_words rfl rfl
  exact trails_of_calm hlimit rfl (by simp) (offset.calm_literal.comma_blank size.calm_literal)

theorem isBalanced_liveWhere (dao : Dao) : IsBalanced dao.liveWhere := by
  rw [liveWhere]
  split <;> exact .of_open rfl

theorem isBalanced_liveAnd (dao : Dao) : IsBalanced dao.liveAnd := by
  rw [liveAnd]
  split <;> exact .of_open rfl

/-! ## Placeholders -/

/-- A template that starts with a clause takes the clause. -/
theorem fill_clause (rest clause : String) (texts : List String) :
    fill (" ?" ++ rest) (clause :: texts) = " " ++ clause ++ fill rest texts := by
  have hblank : IsBalanced " " := .of_open rfl
  have hmark : " ?" = " " ++ "?" := rfl
  rw [hmark, String.append_assoc, hblank.fill_append, fill_mark, String.append_assoc]

theorem fill_query (clause : String) : fill " ?" [clause] = " " ++ clause := by
  have hempty : fill "" [] = "" := rfl
  have hfill := fill_clause "" clause []
  rwa [hempty, String.append_empty, String.append_empty] at hfill

theorem fill_page (offset size : String) :
    fill " limit ?, ?" [offset, size] = " " ++ ("limit" ++ " " ++ (offset ++ ", " ++ size)) := by
  have hlimit : IsBalanced " limit " := .of_open rfl
  have hcomma : IsBalanced ", " := .of_open rfl
  have hmarks : " limit ?, ?" = " limit " ++ ("?" ++ (", " ++ ("?" ++ ""))) ∧
      " limit " = " " ++ "limit" ++ " " :=
    ⟨rfl, rfl⟩
  have hempty : fill "" [] = "" := rfl
  rw [hmarks.1, hlimit.fill_append, fill_mark, hcomma.fill_append, fill_mark, hempty, hmarks.2]
  simp only [String.append_assoc, String.append_empty]

theorem fill_limit : fill " limit 0, 1" [] = " " ++ "limit 0, 1" := by
  have hlimit : IsBalanced " limit 0, 1" := .of_open rfl
  rw [hlimit.fill]
  rfl

/-- A template with a column takes the value behind it. -/
theorem fill_column {column rest : String} (hcolumn : IsFixed column) (v : Value)
    (texts : List String) :
    fill (" where " ++ column ++ " = ?" ++ rest) (v.literal :: texts) =
      " where " ++ column ++ " = " ++ v.literal ++ fill rest texts := by
  have hwhere : IsBalanced " where " := .of_open rfl
  have hequals : IsBalanced " = " := .of_open rfl
  have hmark : " = ?" = " = " ++ "?" := rfl
  rw [hmark]
  simp only [String.append_assoc]
  rw [hwhere.fill_append, hcolumn, hequals.fill_append, fill_mark]

/-- A template for a column and a value takes both, whatever the column is. -/
theorem fill_columnMark (column rest : String) (v : Value) (texts : List String) :
    fill (" where ? = ?" ++ rest) (column :: v.literal :: texts) =
      " where " ++ column ++ " = " ++ v.literal ++ fill rest texts := by
  have hwhere : IsBalanced " where " := .of_open rfl
  have hequals : IsBalanced " = " := .of_open rfl
  have hmarks : " where ? = ?" = " where " ++ ("?" ++ (" = " ++ "?")) := rfl
  rw [hmarks]
  simp only [String.append_assoc]
  rw [hwhere.fill_append, fill_mark, hequals.fill_append, fill_mark]

/-! ## Selects -/

theorem closes_all (dao : Dao) : dao.Closes (fill dao.liveWhere []) := by
  rw [dao.isBalanced_liveWhere.fill]
  exact dao.closes_liveWhere

theorem closes_page (dao : Dao) (offset size : Value) :
    dao.Closes (fill (dao.liveWhere ++ " limit ?, ?") [offset.literal, size.literal]) := by
  rw [dao.isBalanced_liveWhere.fill_append, fill_page, ← String.append_assoc]
  exact dao.closes_liveWhere.blank (trails_page offset size)

namespace Plain

variable (h : dao.Plain) {q : Query} (hq : q.Named dao.target.mapping)

include h

/-- A statement whose template starts with a table is about that table. -/
theorem spares_fill {lead : String} {verb : Verb} (hlead : (lead, verb) ∈ leads)
    {rest : String} {texts : List String} (hrest : dao.Closes (fill rest texts)) :
    dao.Spares verb (fill (lead ++ " " ++ dao.tableName ++ rest) texts) := by
  obtain ⟨ws, hspells, hws⟩ := spells_lead hlead h.table
  rw [hspells.isBalanced.fill_append]
  exact ⟨target?_lead hlead h.table hrest.eq_or, hrest.isScoped hspells hws⟩

/-- A select of rows. -/
theorem spares_rows {rest : String} {texts : List String} (hrest : dao.Closes (fill rest texts)) :
    dao.Spares .select (fill ("select * from " ++ dao.tableName ++ rest) texts) := by
  have hlead : "select * from " = "select * from" ++ " " := rfl
  rw [hlead]
  exact h.spares_fill (by simp [leads]) hrest

/-- A select of their number. -/
theorem spares_number {rest : String} {texts : List String}
    (hrest : dao.Closes (fill rest texts)) :
    dao.Spares .select (fill ("select count(*) from " ++ dao.tableName ++ rest) texts) := by
  have hlead : "select count(*) from " = "select count(*) from" ++ " " := rfl
  rw [hlead]
  exact h.spares_fill (by simp [leads]) hrest

include hq

theorem closes_query :
    dao.Closes (fill " ?" [q.clauseText dao.target.mapping dao.target.softDelete]) := by
  rw [fill_query]
  exact h.closes_clauseText hq

theorem closes_queryPage (offset size : Value) :
    dao.Closes (fill " ? limit ?, ?"
      [q.clauseText dao.target.mapping dao.target.softDelete, offset.literal, size.literal]) := by
  have hmarks : " ? limit ?, ?" = " ?" ++ " limit ?, ?" := rfl
  rw [hmarks, fill_clause, fill_page, ← String.append_assoc]
  exact (h.closes_clauseText hq).blank (trails_page offset size)

theorem closes_queryFirst :
    dao.Closes (fill " ? limit 0, 1"
      [q.clauseText dao.target.mapping dao.target.softDelete]) := by
  have hmarks : " ? limit 0, 1" = " ?" ++ " limit 0, 1" := rfl
  rw [hmarks, fill_clause, fill_limit, ← String.append_assoc]
  exact (h.closes_clauseText hq).blank trails_limit

end Plain

/-! ## Updates -/

/-- The set clause of some columns of an access object has a placeholder for each of them. -/
theorem Plain.exists_setClause (h : dao.Plain) {columns : List ValueColumn}
    (hcolumns : ∀ c ∈ columns, c ∈ dao.columns) :
    ∃ names : List String, dao.setClause columns = ",".intercalate (names.map (· ++ " = ?")) ∧
      names.length = columns.length ∧ ∀ name ∈ names, isBareName name = true := by
  suffices hnames : ∃ written : List Column,
      columns.filterMap (fun c => dao.table.columnOf? c.property) = written ∧
        written.length = columns.length ∧ ∀ c ∈ written, isBareName c.name = true by
    obtain ⟨written, hwritten, hlength, hbare⟩ := hnames
    refine ⟨written.map Column.name, ?_, by simpa using hlength, by simpa using hbare⟩
    rw [setClause, hwritten, List.map_map]
    rfl
  induction columns with
  | nil => exact ⟨[], rfl, rfl, by simp⟩
  | cons c columns ih =>
      obtain ⟨hc, hrest⟩ := List.forall_mem_cons.1 hcolumns
      obtain ⟨column, hcolumn, hbare⟩ := h.written c hc
      obtain ⟨written, hwritten, hlength, hall⟩ := ih hrest
      refine ⟨column :: written, ?_, by simp [hlength], List.forall_mem_cons.2 ⟨hbare, hall⟩⟩
      simp [hcolumn, hwritten]

/-- What stands in front of the assignments of an update has no placeholders. -/
theorem Plain.isBalanced_set (h : dao.Plain) :
    IsBalanced ("update " ++ dao.tableName ++ " set ") := by
  have hwords : IsBalanced "update " ∧ IsBalanced " set " := by
    constructor <;> exact .of_open rfl
  exact (hwords.1.append (isBalanced_name h.table)).append hwords.2

/-- An update is about the rows that its clauses leave, whatever is assigned. -/
theorem Plain.spares_assigned (h : dao.Plain) {assigned rest : String} (hassigned : Calm assigned)
    (hrest : dao.Closes rest) :
    dao.Spares .update ("update " ++ dao.tableName ++ " set " ++ assigned ++ rest) := by
  have hlead : ("update", Verb.update) ∈ leads := by simp [leads]
  obtain ⟨ws, hspells, hws⟩ := spells_lead hlead h.table
  have hset : Spells "set" [.name "set"] := .of_words rfl rfl
  obtain ⟨vs, hvalues, hvs⟩ := hassigned
  have hwords : "update " = "update" ++ " " ∧ " set " = " " ++ "set" ++ " " := ⟨rfl, rfl⟩
  rw [hwords.1, hwords.2]
  simp only [← String.append_assoc]
  refine ⟨?_, hrest.isScoped ((hspells.blank hset).blank hvalues) ?_⟩
  · have htarget := target?_lead hlead h.table (.inr ⟨"set" ++ " " ++ assigned ++ rest, rfl⟩)
    simpa only [← String.append_assoc] using htarget
  · refine List.forall_mem_append.2 ⟨List.forall_mem_append.2 ⟨hws, ?_⟩, fun w hw => ?_⟩
    · simp [Word.precedes]
    · exact Word.precedes_of_isCalm (hvs w hw)

/-- An update with values for some columns and then for the placeholders behind them. -/
theorem Plain.spares_update (h : dao.Plain) {columns : List ValueColumn}
    (hcolumns : ∀ c ∈ columns, c ∈ dao.columns) {values : List Value}
    (hlength : columns.length = values.length) {rest : String} {texts : List String}
    (hrest : dao.Closes (fill rest texts)) :
    dao.Spares .update
      (fill ("update " ++ dao.tableName ++ " set " ++ dao.setClause columns ++ rest)
        (values.map Value.literal ++ texts)) := by
  obtain ⟨names, hset, hnames, hbare⟩ := h.exists_setClause hcolumns
  have hfill := h.isBalanced_set.fill_append (dao.setClause columns ++ rest)
    (values.map Value.literal ++ texts)
  have hfixed : ∀ name ∈ names, IsFixed name := fun name hname =>
    (isBalanced_name (hbare name hname)).isFixed
  rw [hset, fill_assignments hfixed (hnames.trans hlength)] at hfill
  rw [hset, String.append_assoc, hfill, ← String.append_assoc]
  exact h.spares_assigned (calm_assignedText hbare values) hrest

/-- A template that has its assignments in it takes the clauses of a query behind them. -/
theorem sql_flag_of_isFixed {sets : List (String × Value)}
    (hfront : IsFixed ("update " ++ dao.tableName ++ " set "))
    (hsets : IsFixed (",".intercalate (sets.map fun (column, v) => assignmentText column v)))
    (q : Query) :
    (Statement.flag (dao.scope q) sets).sql =
      "update " ++ dao.tableName ++ " set " ++
        ",".intercalate (sets.map fun (column, v) => assignmentText column v) ++ " " ++
          (dao.scope q).clause := by
  have htemplate : (Statement.flag (dao.scope q) sets).sql =
      fill ("update " ++ dao.tableName ++ " set " ++
        ",".intercalate (sets.map fun (column, v) => assignmentText column v) ++ " ?")
          [(dao.scope q).clause] := rfl
  rw [htemplate, hfront.append hsets, fill_query]
  exact String.append_assoc.symm

/-- Behind the values of the columns that it assigns, an update by key has one for the key. -/
theorem exists_keyValue {columns : List ValueColumn} {entity : Json} {values : List Value}
    (hkeys : dao.keyColumns ≠ [])
    (hvalues : entityValues (columns ++ dao.keyColumns) entity = .ok values) :
    ∃ row v more, values = row ++ v :: more ∧ columns.length = row.length := by
  have hlength := length_of_entityValues hvalues
  rw [List.length_append] at hlength
  have hpositive := List.length_pos_iff.2 hkeys
  obtain ⟨v, more, hmore⟩ : ∃ v more, values.drop columns.length = v :: more := by
    refine List.exists_cons_of_ne_nil fun hnil => ?_
    rw [List.drop_eq_nil_iff] at hnil
    omega
  refine ⟨values.take columns.length, v, more, ?_, ?_⟩
  · rw [← hmore, List.take_append_drop]
  · rw [List.length_take]
    omega

/-- The template of an update by key takes the values for the columns, and then that for the key. -/
theorem statementText_updateKey {key : KeyColumn} {columns : List ValueColumn} {entity : Json}
    {row : List Value} {v : Value} {more : List Value} {sql : String}
    (hvalues : entityValues (columns ++ dao.keyColumns) entity = .ok (row ++ v :: more))
    (hsql : (dao.updateKey key columns).statementText entity [] = .ok sql) :
    sql = fill ("update " ++ dao.tableName ++ " set " ++ dao.setClause columns ++
        (" where " ++ key.column ++ " = ?" ++ dao.liveAnd))
      (row.map Value.literal ++ v.literal :: more.map Value.literal) := by
  obtain ⟨values, htaken, rfl⟩ := Update.statementText_eq_ok_iff.1 hsql
  obtain rfl := Except.ok.inj (htaken.symm.trans hvalues)
  simp [updateKey, prepareParams, String.append_assoc]

/-- An update of the row with a primary key. -/
theorem Plain.spares_updateKey (h : dao.Plain) {key : KeyColumn} (hkey : dao.primaryKey = some key)
    {columns : List ValueColumn} (hcolumns : ∀ c ∈ columns, c ∈ dao.columns) {entity : Json}
    {sql : String} (hsql : (dao.updateKey key columns).statementText entity [] = .ok sql) :
    dao.Spares .update sql := by
  obtain ⟨values, hvalues, -⟩ := Update.statementText_eq_ok_iff.1 hsql
  obtain ⟨-, hcolumn, hkeys⟩ := h.key key hkey
  obtain ⟨row, v, more, rfl, hlength⟩ := exists_keyValue hkeys hvalues
  rw [statementText_updateKey hvalues hsql]
  refine h.spares_update hcolumns hlength ?_
  rw [fill_column (isBalanced_name hcolumn).isFixed, dao.isBalanced_liveAnd.fill]
  exact dao.closes_column hcolumn v

/-- An update of the rows of a query. -/
theorem Plain.spares_updateQuery (h : dao.Plain) {q : Query} (hq : q.Named dao.target.mapping)
    {columns : List ValueColumn} (hcolumns : ∀ c ∈ columns, c ∈ dao.columns) {entity : Json}
    {sql : String} (hsql : (dao.updateQuery columns).statementText entity [.query q] = .ok sql) :
    dao.Spares .update sql := by
  obtain ⟨values, hvalues, rfl⟩ := Update.statementText_eq_ok_iff.1 hsql
  exact h.spares_update hcolumns (length_of_entityValues hvalues).symm (h.closes_query hq)

/-! ## Inserts -/

/-- An insert or a replacement is about the table, whatever is written. -/
theorem Plain.target?_fill (h : dao.Plain) {lead : String} {verb : Verb}
    (hlead : (lead, verb) ∈ leads) (rest : String) (texts : List String) :
    target? (fill (lead ++ " " ++ dao.tableName ++ (" " ++ rest)) texts) =
      some (verb, dao.tableName) := by
  obtain ⟨ws, hspells, -⟩ := spells_lead hlead h.table
  have hblank : IsBalanced " " := .of_open rfl
  rw [hspells.isBalanced.fill_append, hblank.fill_append]
  exact target?_lead hlead h.table (.inr ⟨_, rfl⟩)

end Dao

end Persistence
