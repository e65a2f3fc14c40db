import Persistence.Proofs.Cascade.Asking
import Persistence.Proofs.Cascade.Opened
import Persistence.Proofs.Dao.Statements

/-!
# Deletes by a primary key

A delete by a primary key is the delete of a query with one condition.  A query drops the condition
if its value is null, so the statements of such a delete name the key exactly if it is not null.
A find by a primary key has the value as an argument of its statement and keeps the condition.

Main results:

- `Query.clauseText_eq`, `Query.clauseText_eq_null`: the clause of a query for one value.
- `Dao.statementText_findKey`: the statement of a find by a primary key.
- `Dao.deleteByKey_addresses_iff`: the keys for which a delete names the rows with the key.
- `Dao.deleteByKey_null_ring`: a delete by a null key removes every row.
-/

namespace Persistence

variable {σ δ : Type}

/-! ## The clause -/

namespace Query

theorem keyText_ne_empty (column : String) (v : Value) : keyText column v ≠ "" := by
  intro h
  have hlength := congrArg String.length h
  simp [keyText, String.length_append] at hlength

/-- The clause for the live rows with one value of a property. -/
def keyClause (softDelete : Bool) (column : String) (v : Value) : String :=
  " where " ++
    if softDelete then softDeleteColumn ++ " = 0 and (" ++ keyText column v ++ ")"
    else keyText column v

/-- The clause tells which column it is about. -/
theorem keyClause_inj {softDelete : Bool} {column other : String} {v : Value}
    (h : keyClause softDelete column v = keyClause softDelete other v) : column = other := by
  have hbody := (String.append_right_inj _).1 h
  have hkey : keyText column v = keyText other v := by
    cases softDelete with
    | true =>
        rw [if_pos rfl, if_pos rfl] at hbody
        exact (String.append_right_inj _).1 ((String.append_left_inj _).1 hbody)
    | false => exact hbody
  rw [keyText, keyText, String.append_assoc, String.append_assoc] at hkey
  exact (String.append_left_inj _).1 hkey

/-- The clause of a query for one value of a property. -/
theorem clauseText_eq (m : Mapping) (softDelete : Bool) (field : String) {v : Value}
    (h : v.isNull = false) :
    (empty.eq field v).clauseText m softDelete = keyClause softDelete (m.columnName field) v := by
  have hlinks : (empty.eq field v).links =
      [.condition (.compare .eq field v), .connector .and] := by
    rw [eq_of_isNull_eq_false _ _ h]
    rfl
  have hplain := plain_empty.eq field v
  have hwhere : (empty.eq field v).whereText m = keyText (m.columnName field) v := by
    rw [whereText, hlinks, ← text_compare_eq]
    simp only [fragments, joinFragments]
  rw [clauseText, hplain.groupBy, hplain.orderBy, hwhere, keyClause]
  have hlive : liveText (keyText (m.columnName field) v) =
      softDeleteColumn ++ " = 0 and (" ++ keyText (m.columnName field) v ++ ")" :=
    if_neg fun hempty => keyText_ne_empty _ v (String.isEmpty_iff.1 hempty)
  cases softDelete with
  | true =>
      rw [if_pos rfl, if_pos rfl, introduced_of_ne_empty _ (liveText_ne_empty _), hlive]
      simp
  | false =>
      simp only [Bool.false_eq_true, if_false]
      rw [introduced_of_ne_empty _ (keyText_ne_empty _ v)]
      simp

/-- The clause of a query for a null value has no condition of its own. -/
theorem clauseText_eq_null (m : Mapping) (softDelete : Bool) (field : String) :
    (empty.eq field .null).clauseText m softDelete =
      if softDelete then " where " ++ softDeleteColumn ++ " = 0" else "" := by
  have hlinks : (empty.eq field .null).links = [] := rfl
  have hwhere : (empty.eq field .null).whereText m = "" := by
    rw [whereText, hlinks, fragments, joinFragments]
  have hplain := plain_empty.eq field .null
  rw [clauseText, hplain.groupBy, hplain.orderBy, hwhere]
  cases softDelete with
  | true =>
      rw [if_pos rfl, if_pos rfl, introduced_of_ne_empty _ (liveText_ne_empty _)]
      simp [liveText, String.append_assoc]
  | false => simp [introduced]

end Query

/-! ## The statement of a find -/

namespace Sql

/-- Text that stands in a template as it is: it has no placeholder and opens no quoted region. -/
def Verbatim (text : String) : Prop := ∀ c ∈ text.toList, c ≠ '?' ∧ isQuote c = false

/-- Verbatim text is left as it is. -/
theorem Verbatim.isFixed {text : String} (h : Verbatim text) : IsFixed text := .of_unmarked h

end Sql

namespace Dao

/-- A find by a primary key asks for the rows whose key column equals the key, null or not. -/
theorem statementText_findKey (dao : Dao) (key : KeyColumn) (v : Value)
    (htable : Sql.Verbatim dao.tableName) (hcolumn : Sql.Verbatim key.column) :
    (dao.findKey key).statementText [.literal v] =
      "select * from " ++ dao.tableName ++ " where " ++ Query.keyText key.column v ++
        dao.liveAnd ++ " limit 0, 1" := by
  have htemplate : (dao.findKey key).template = "select * from " ++ dao.tableName ++
      (" where " ++ key.column ++ " = ?" ++ (dao.liveAnd ++ " limit 0, 1")) := by
    simp only [findKey, select, String.append_assoc]
  have hselect : Sql.IsBalanced "select * from " := .of_open rfl
  have hlimit : Sql.IsBalanced " limit 0, 1" := .of_open rfl
  have hclosing := dao.isBalanced_liveAnd.append hlimit
  rw [Select.statementText, htemplate]
  show Sql.fill _ [v.literal] = _
  rw [hselect.isFixed.append htable.isFixed, fill_column hcolumn.isFixed, hclosing.fill,
    Query.keyText]
  simp only [String.append_assoc]

end Dao

/-! ## Requests -/

namespace Dao

/-- Whether a find by a primary key is about a row: the table has it in sight and the column of
the key equals the value. -/
def finds (dao : Dao) (k : Collation) (key : KeyColumn) (v : Value) (row : Row) : Bool :=
  dao.target.sees k row && k.equal (row.cell key.column) v

/-- A scope names the rows with a primary key, in its clause and by what it selects. -/
structure Addresses (dao : Dao) (key : KeyColumn) (v : Value) (s : Scope) : Prop where
  table : s.table = dao.tableName
  clause : s.clause = Query.keyClause dao.table.softDelete key.column v
  rows : ∀ k row, s.selects k row = dao.finds k key v row

/-- The delete by a primary key is the delete of a query. -/
theorem deleteByKey_eq {dao : Dao} {key : KeyColumn} (hkey : dao.primaryKey = some key)
    (levels : Nat) (v : Value) (force : Bool) (ctx : Option Context) :
    (dao.deleteByKey levels v force ctx : Task σ DeleteResult) =
      dao.deleteQuery levels (Query.empty.eq key.property v) force ctx := by
  rw [deleteByKey, show dao.requireKey = .ok key by rw [requireKey, hkey]]
  rfl

variable {e : Entity} {dao : Dao} {key : KeyColumn}

/-- The property of the primary key leads to its column if the entity type is declared well. -/
theorem columnName_primaryKey (hof : IsDaoOf e dao) (hdeclared : e.WellDeclared)
    (hkey : dao.primaryKey = some key) :
    dao.target.mapping.columnName key.property = key.column := by
  rw [hof.primaryKey] at hkey
  obtain ⟨⟨p, c⟩, hpc, rfl⟩ := Option.map_eq_some_iff.1 hkey
  exact hof.columnName hdeclared (List.mem_of_find?_eq_some hpc)

/-- The scope of a delete by a primary key names the rows with the key exactly if that is not null
and its property leads to its column. -/
theorem addresses_scope_iff (hof : IsDaoOf e dao) (key : KeyColumn) (v : Value) :
    dao.Addresses key v (dao.scope (Query.empty.eq key.property v)) ↔
      v.isNull = false ∧ dao.target.mapping.columnName key.property = key.column := by
  have hsoft : dao.target.softDelete = dao.table.softDelete := hof.target_softDelete
  constructor
  · rintro ⟨-, hclause, -⟩
    cases hnull : v.isNull with
    | false =>
        rw [Scope.clause, scope, Query.clauseText_eq _ _ _ hnull, hsoft] at hclause
        exact ⟨rfl, Query.keyClause_inj hclause⟩
    | true =>
        obtain rfl : v = .null := by cases v <;> simp_all [Value.isNull]
        rw [Scope.clause, scope, Query.clauseText_eq_null, hsoft, Query.keyClause] at hclause
        have hlength := congrArg String.length hclause
        by_cases hflag : dao.table.softDelete = true
        · rw [if_pos hflag, if_pos hflag] at hlength
          simp only [String.length_append] at hlength
          have hand : " = 0 and (".length = " = 0".length + 6 := rfl
          omega
        · rw [if_neg hflag, if_neg hflag] at hlength
          simp only [String.length_append] at hlength
          have hempty : "".length = 0 := rfl
          have hwhere : " where ".length = 7 := rfl
          omega
  · rintro ⟨hnull, hcolumn⟩
    refine ⟨rfl, ?_, fun k row => ?_⟩
    · rw [Scope.clause, scope, Query.clauseText_eq _ _ _ hnull, hcolumn, hsoft]
    · rw [Scope.selects, finds, scope, Query.holds_eq _ _ _ _ hnull, hcolumn]

/-- The delete of a table without dependents asks for a statement over the rows of its query. -/
theorem exists_asked_deleteQuery (dao : Dao) {driver : Driver δ} {session : δ → Session}
    {w : Setting} (hdriver : AnswersAsStore w.collation driver session) {s : State} {pool : Nat}
    (hpool : s.pool = .open pool) (hdeps : s.catalog.dependentsOf dao.tableName = [])
    (levels : Nat) (q : Query) (force : Bool) (l : σ) (d : δ) :
    ∃ conn st, st.scope? = some (dao.scope q) ∧
      .query conn st ∈ (dao.deleteQuery (levels + 1) q force none).asked driver l s d := by
  obtain ⟨conn, d₁, hacquire, -⟩ := hdriver.acquire pool d
  obtain ⟨d₂, hbegin, -⟩ := hdriver.begin conn d₁
  have hconn := s.connection?_addContext conn
  have hstatement : ∃ st d₃, st.scope? = some (dao.scope q) ∧
      (dao.deleteStatement q).run driver [] (s.addContext conn) d₂ =
        ((.ok st, []), s.addContext conn, d₃) := by
    rw [deleteStatement]
    split
    · obtain ⟨sets, d₃, hrun, -, -⟩ :=
        run_deleteValues hdriver [] (s.addContext conn) dao.table.columns d₂
      exact ⟨.flag (dao.scope q) sets, d₃, rfl, Task.run_bind_of_ok hrun⟩
    · exact ⟨.remove (dao.scope q), d₂, rfl, rfl⟩
  obtain ⟨st, d₃, hst, hrun⟩ := hstatement
  refine ⟨conn, st, hst, Task.mem_asked_withLocal (mem_asked_transaction hpool hacquire hbegin ?_)⟩
  have hnone : ((s.addContext conn).catalog.dependentsOf dao.tableName).isEmpty = true := by
    rw [List.isEmpty_iff]
    exact hdeps
  refine Task.mem_asked_bind Task.run_state ?_
  dsimp only
  rw [if_pos hnone]
  exact Task.mem_asked_bind hrun (Task.mem_asked_bind_left (mem_asked_execute hconn st))

/-- A delete by a primary key names the rows with the key in every statement of its own, unless
cascades narrow it, exactly if the key is not null and its property leads to its column. -/
theorem deleteByKey_addresses_iff (hof : IsDaoOf e dao) (hkey : dao.primaryKey = some key)
    (v : Value) :
    (∀ {σ δ : Type} (driver : Driver δ) (levels : Nat) (force : Bool) (ctx : Option Context) (l : σ)
      (s : State) (d : δ), ∀ r ∈ (dao.deleteByKey (levels + 1) v force ctx).asked driver l s d,
        dao.LevelRequest (dao.Addresses key v) s.catalog levels force r) ↔
      v.isNull = false ∧ dao.target.mapping.columnName key.property = key.column := by
  constructor
  · intro h
    have hdriver := Store.driver_answersAsStore .scalar
    obtain ⟨conn, st, hst, hasked⟩ := exists_asked_deleteQuery
      (w := ⟨.scalar, [], fun _ => [], fun _ => []⟩) (s := { State.initial with pool := .open 0 })
      dao hdriver rfl rfl 0 (Query.empty.eq key.property v) true () Ring.session
    rw [← deleteByKey_eq hkey] at hasked
    have hrequest := h _ 0 true none () _ _ _ hasked
    cases hrequest with
    | control hr => cases hr
    | statement hst' hs =>
        rw [hst] at hst'
        obtain rfl := Option.some.inj hst'
        exact (addresses_scope_iff hof key v).1 hs
    | narrowed hdeps => exact absurd rfl hdeps
    | dependent hdep => exact absurd hdep List.not_mem_nil
  · intro hnamed σ δ driver levels force ctx l s d r hr
    rw [deleteByKey_eq hkey] at hr
    refine (asked_deleteQuery dao driver levels _ force ctx l s d r hr).mono ?_
    rintro _ rfl
    exact (addresses_scope_iff hof key v).2 hnamed

/-- Of the ring, a delete by the key one asks for nothing else. -/
theorem deleteByKey_addresses_ring : ∃ dao, IsDaoOf Ring.entity dao ∧
    ∀ {σ δ : Type} (driver : Driver δ) (levels : Nat) (force : Bool) (ctx : Option Context) (l : σ)
      (s : State) (d : δ),
      ∀ r ∈ (dao.deleteByKey (levels + 1) (.int 1) force ctx).asked driver l s d,
        dao.LevelRequest (dao.Addresses ⟨"id", "id"⟩ (.int 1)) s.catalog levels force r := by
  obtain ⟨dao, s, -, hof, -⟩ := Ring.exists_opened
  have hdeclared := Ring.declared.declared _ (List.mem_singleton_self _)
  have hcolumn := columnName_primaryKey hof hdeclared hof.primaryKey
  exact ⟨dao, hof, (deleteByKey_addresses_iff hof hof.primaryKey (.int 1)).2 ⟨rfl, hcolumn⟩⟩

end Dao

/-- Nothing is left of the rows behind a delete by a null key. -/
theorem Ring.left_null {dao : Dao} (hof : IsDaoOf Ring.entity dao) {s : State} {after : Store}
    (h : (s.setting .scalar [dao] Ring.store).Leaves
      (dao.reached .scalar [Ring.entity] (Query.empty.eq "id" .null) Ring.store) after) :
    after "category" = [] := by
  set gone := dao.reached .scalar [Ring.entity] (Query.empty.eq "id" .null) Ring.store
  have htable : dao.tableName = "category" := (Option.some.inj hof.tableName).symm
  have hselected : ∀ row ∈ Ring.store "category", isEntry gone "category" row = true := by
    intro row hrow
    refine isEntry_eq_true.2 (.hit ⟨htable.symm, hrow, ?_⟩)
    rw [Scope.selects, Dao.scope, Query.holds_eq_null, Target.sees, hof.target_softDelete,
      hof.softDelete]
    rfl
  rw [Ring.eq_filter_of_leaves hof h, List.filter_eq_nil_iff]
  intro row hrow
  rw [hselected row hrow]
  simp

namespace Dao

/-- Of the ring, a delete by a null key takes every row, and a find by it is about none. -/
theorem deleteByKey_null_ring : ∃ dao s, Opened [(Ring.entity, .any)] [dao] s ∧
    (dao.findKey ⟨"id", "id"⟩).statementText [.literal .null] =
      "select * from category where id = NULL limit 0, 1" ∧
    (∀ row, dao.finds .scalar ⟨"id", "id"⟩ .null row = false) ∧
    ∃ r s' d', (dao.deleteByKey 4 .null true none).run (Store.driver .scalar) () s Ring.session =
        ((.ok r, ()), s', d') ∧
      r.success = true ∧ d'.current "category" = [] := by
  obtain ⟨dao, s, hopened, hof, hpool⟩ := Ring.exists_opened
  obtain ⟨r, s', d', hrun, hverdict, -⟩ :=
    dao.run_deleteQuery_opened (l := ()) (d := Ring.session) hopened Ring.declared
      (List.mem_singleton_self dao) (Query.plain_empty.eq "id" .null)
      (.scopes (Store.driver_answersAsStore .scalar))
      (Ring.keysIdentify Collation.isNumeric_scalar) hpool true Ring.ncard_live
  have hsuccess := hverdict.success.2 (.inl rfl)
  refine ⟨dao, s, hopened, ?_, fun row => ?_, r, s', d', ?_, hsuccess,
    Ring.left_null hof (hverdict.leaves hsuccess)⟩
  · have htable : dao.tableName = "category" := (Option.some.inj hof.tableName).symm
    have hlive : dao.liveAnd = "" := by
      rw [liveAnd, hof.softDelete]
      rfl
    rw [statementText_findKey dao _ _ (by rw [htable]; simp [Sql.Verbatim, Sql.isQuote])
      (by simp [Sql.Verbatim, Sql.isQuote]), htable, hlive]
    rfl
  · have hequal : Collation.scalar.equal (row.cell "id") .null = false := by
      cases row.cell "id" with
      | num n => cases n <;> rfl
      | _ => rfl
    rw [finds, hequal, Bool.and_false]
  · rw [deleteByKey_eq hof.primaryKey]
    exact hrun

end Dao

end Persistence
