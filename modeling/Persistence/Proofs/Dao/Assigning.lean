import Persistence.Proofs.Dao.Writing

/-!
# What updates assign

An update assigns the columns that are left when the primary key is taken out, and for a partial
update those of them whose properties are named.  No column is assigned twice, however often its
property is named.  Where nothing is left the statement is sent all the same, with no assignment
in it; an insert of no entities sends nothing.

Main results:

- `Dao.mem_assignedNames`, `Dao.nodup_assignedNames`: the columns that an update assigns.
- `Writing.assigns_of_sql`: the statement of an update, whatever its names are.
- `Writing.update_assigns_iff`: the updates that always assign something or send nothing.
-/

namespace Persistence

open Sql

variable {e : Entity} {dao : Dao} {part : Option (List String)}

/-! ## The columns that are assigned -/

namespace IsDaoOf

variable (hof : IsDaoOf e dao) (hapart : e.ToldApart)

include hof hapart

/-- The columns of an entity type keep distinct properties. -/
theorem nodup_properties : (dao.table.propertyColumns.map Column.property).Nodup := by
  have hkeys := hapart.nodup_columnKeys.map (Option.some_injective String)
  rw [List.map_map] at hkeys
  rw [hof.propertyColumns, List.map_map]
  exact hkeys

/-- The columns of an entity type have distinct names. -/
theorem nodup_names : (dao.table.propertyColumns.map Column.name).Nodup := by
  rw [hof.propertyColumns, List.map_map]
  exact hapart.columns

end IsDaoOf

namespace Dao

/-- No column is assigned twice. -/
theorem nodup_assignedNames (hof : IsDaoOf e dao) (hapart : e.ToldApart)
    (part : Option (List String)) : (dao.assignedNames part).Nodup :=
  (hof.nodup_names hapart).sublist (List.filter_sublist.map Column.name)

/-- The columns that are assigned keep properties other than that of the primary key, and those
that are named if some are. -/
theorem mem_assignedNames (hof : IsDaoOf e dao) {name : String} :
    name ∈ dao.assignedNames part ↔ ∃ p c, (p, c) ∈ e.columnProperties ∧ c.name = name ∧
      dao.primaryKey.map KeyColumn.property ≠ some p.key ∧
      ∀ properties ∈ part, p.key ∈ properties := by
  have hchosen : ∀ p c, Column.ofSpec p c ∈ dao.assignedColumns part ↔
      Column.ofSpec p c ∈ dao.table.propertyColumns ∧
        dao.primaryKey.map KeyColumn.property ≠ some p.key ∧
          ∀ properties ∈ part, p.key ∈ properties := by
    intro p c
    rw [assignedColumns, List.mem_filter]
    refine and_congr_right fun _ => ?_
    cases dao.primaryKey <;> cases part <;> simp [Column.ofSpec]
  rw [assignedNames, List.mem_map]
  constructor
  · rintro ⟨column, hcolumn, rfl⟩
    have hmem := mem_assignedColumns hcolumn
    rw [hof.propertyColumns] at hmem
    obtain ⟨⟨p, c⟩, hpc, rfl⟩ := List.mem_map.1 hmem
    exact ⟨p, c, hpc, rfl, ((hchosen p c).1 hcolumn).2⟩
  · rintro ⟨p, c, hpc, rfl, hproperty⟩
    refine ⟨Column.ofSpec p c, (hchosen p c).2 ⟨?_, hproperty⟩, rfl⟩
    rw [hof.propertyColumns]
    exact List.mem_map.2 ⟨(p, c), hpc, rfl⟩

/-! ## The statements -/

/-- What stands behind the assignments of an update, with the texts of its placeholders: the
condition on the primary key, or the clauses of a query. -/
inductive Ends (dao : Dao) : String → List String → Prop
  | key {key : KeyColumn} (v : Value) : dao.primaryKey = some key →
      Ends dao (dao.keyRest key) [v.literal]
  | query (q : Query) : Ends dao " ?" [q.clauseText dao.target.mapping dao.target.softDelete]

/-- An update that has a value for each of the columns that it assigns. -/
def Assigns (dao : Dao) (part : Option (List String)) (sql : String) : Prop :=
  ∃ (row : List Value) (rest : String) (texts : List String),
    row.length = (dao.assignedNames part).length ∧ dao.Ends rest texts ∧
      sql = fill (dao.updateTemplate part rest) (row.map Value.literal ++ texts)

/-- An update that assigns at least one column, and none of them twice. -/
structure AssignsSome (dao : Dao) (part : Option (List String)) (sql : String) : Prop where
  assigns : dao.Assigns part sql
  nonempty : dao.assignedNames part ≠ []
  nodup : (dao.assignedNames part).Nodup

end Dao

theorem TakesRow.length_eq {columns : List Column} {object : Json} {row : List Value}
    (h : TakesRow columns object row) : row.length = columns.length := by
  obtain ⟨_, -, hrow⟩ := h
  exact hrow.length_eq.symm

/-- Columns take their defaults from an object without properties. -/
theorem takesRow_nil {columns : List Column} (h : ∀ c ∈ columns, c.property.isSome = true) :
    ∃ row, TakesRow columns (.obj []) row := by
  induction columns with
  | nil => exact ⟨[], [], rfl, .nil⟩
  | cons c columns ih =>
      obtain ⟨hc, hcolumns⟩ := List.forall_mem_cons.1 h
      obtain ⟨row, fields, hfields, hrow⟩ := ih hcolumns
      obtain rfl := Json.obj.inj hfields
      obtain ⟨property, hproperty⟩ := Option.isSome_iff_exists.1 hc
      have hcolumn : c.valueColumn? = some ⟨property, c.type, c.defaultValue⟩ := by
        rw [Column.valueColumn?, hproperty, Option.map_some]
      exact ⟨c.defaultValue.getD .null :: row, [], rfl, .cons ⟨_, hcolumn, rfl⟩ hrow⟩

theorem Event.toldApart : Event.entity.ToldApart := ⟨by decide, by decide⟩

namespace Writing

variable {σ δ : Type} {w : Writing} {sql : String}

/-- The properties that an update writes, or all of them. -/
def part? : Writing → Option (Option (List String))
  | updateByKey _ => some none
  | updateWhere _ _ => some none
  | updatePartByKey part _ => some (some part)
  | updatePartWhere part _ _ => some (some part)
  | _ => none

theorem isIdle_of_part? (hw : w.part? = some part) : w.isIdle = false := by
  cases w <;> first | rfl | cases hw

/-- The statement of an update assigns its columns. -/
theorem assigns_of_sql (hof : IsDaoOf e dao) (hapart : e.ToldApart) (hw : w.part? = some part)
    (hsql : w.sql dao = .ok sql) : dao.Assigns part sql := by
  have hnodup := hof.nodup_properties hapart
  have hlength : ∀ {object : Json} {row : List Value},
      TakesRow (dao.assignedColumns part) object row →
        row.length = (dao.assignedNames part).length := by
    intro object row hrow
    rw [hrow.length_eq, Dao.assignedNames, List.length_map]
  have hbyKey : ∀ {key : KeyColumn} {object : Json}, dao.primaryKey = some key →
      (dao.updateKey key (ValueColumn.ofColumns (dao.assignedColumns part))).statementText object
        [] = .ok sql → dao.Assigns part sql := by
    intro key object hkey htext
    obtain ⟨c, hc⟩ := hof.exists_keepsKey hkey
    obtain ⟨row, v, hrow, -, rfl⟩ := (hof.updateKey_fill hnodup hkey hc part).1 htext
    exact ⟨row, _, _, hlength hrow, .key v hkey, rfl⟩
  have hwhere : ∀ {q : Query} {object : Json},
      (dao.updateQuery (ValueColumn.ofColumns (dao.assignedColumns part))).statementText object
        [.query q] = .ok sql → dao.Assigns part sql := by
    intro q object htext
    obtain ⟨row, hrow, rfl⟩ := (Dao.updateQuery_fill hnodup part q).1 htext
    exact ⟨row, _, _, hlength hrow, .query q, rfl⟩
  cases w with
  | saveAll entities | saveOrUpdateAll entities => cases hw
  | updateByKey entity =>
      obtain rfl := Option.some.inj hw
      simp only [Writing.sql, except_bind_eq_ok_iff, Dao.requireKey_eq_ok_iff,
        hof.nonKeyColumns_eq] at hsql
      obtain ⟨key, hkey, object, -, htext⟩ := hsql
      exact hbyKey hkey htext
  | updateWhere entity f =>
      obtain rfl := Option.some.inj hw
      simp only [Writing.sql, except_bind_eq_ok_iff, hof.nonKeyColumns_eq] at hsql
      obtain ⟨q, -, object, -, htext⟩ := hsql
      exact hwhere htext
  | updatePartByKey properties object =>
      obtain rfl := Option.some.inj hw
      simp only [Writing.sql, except_bind_eq_ok_iff, Dao.requireKey_eq_ok_iff,
        hof.partColumns_eq] at hsql
      obtain ⟨key, hkey, htext⟩ := hsql
      exact hbyKey hkey htext
  | updatePartWhere properties object f =>
      obtain rfl := Option.some.inj hw
      simp only [Writing.sql, except_bind_eq_ok_iff, hof.partColumns_eq] at hsql
      obtain ⟨q, -, htext⟩ := hsql
      exact hwhere htext

/-- An update of whole entities writes one that its type has as an object. -/
theorem exists_encode_of_sql (hw : w.part? = some none) (hsql : w.sql dao = .ok sql) :
    ∃ entity fields, dao.codec.encode entity = .ok (.obj fields) := by
  have hfields : ∀ {u : Update} {object : Json} {args : List Param},
      u.statementText object args = .ok sql → ∃ fields, object = .obj fields := by
    intro u object args htext
    obtain ⟨values, hvalues, -⟩ := Update.statementText_eq_ok_iff.1 htext
    cases object with
    | obj fields => exact ⟨fields, rfl⟩
    | _ => cases hvalues
  cases w with
  | updateByKey entity =>
      simp only [Writing.sql, except_bind_eq_ok_iff] at hsql
      obtain ⟨key, -, object, hobject, htext⟩ := hsql
      obtain ⟨fields, rfl⟩ := hfields htext
      exact ⟨entity, fields, hobject⟩
  | updateWhere entity f =>
      simp only [Writing.sql, except_bind_eq_ok_iff] at hsql
      obtain ⟨q, -, object, hobject, htext⟩ := hsql
      obtain ⟨fields, rfl⟩ := hfields htext
      exact ⟨entity, fields, hobject⟩
  | saveAll entities | saveOrUpdateAll entities => cases hw
  | updatePartByKey properties object | updatePartWhere properties object f => cases hw

/-- The statement of an update is sent once, if there is a way for it. -/
theorem exchanges_of_sql (hw : w.isIdle = false) (hsql : w.sql dao = .ok sql) (levels : Nat)
    (ctx : Option Context) (driver : Driver δ) (l : σ) (s : State) (d : δ) :
    ∃ answer, Directed s ctx (.text sql) ((w.call.task dao levels ctx).exchanges driver l s d)
      answer := by
  rw [DaoCall.task_eq, plan_call dao hw, hsql]
  obtain ⟨answer, hdirected, -⟩ :=
    ((Plan.write_ensures dao levels s ctx sql WriteResult.ofOutput l).exchanges driver rfl d).1
  exact ⟨answer, hdirected⟩

/-- Where there is no statement, nothing is sent. -/
theorem exchanges_of_error (hw : w.isIdle = false) {error : DbError}
    (hsql : w.sql dao = .error error) (levels : Nat) (ctx : Option Context) (driver : Driver δ)
    (l : σ) (s : State) (d : δ) : (w.call.task dao levels ctx).exchanges driver l s d = [] := by
  rw [DaoCall.task_eq, plan_call dao hw, hsql]
  rfl

/-- An update sends nothing, or the statement that assigns its columns. -/
theorem exchanges_update (hof : IsDaoOf e dao) (hapart : e.ToldApart) (hw : w.part? = some part)
    (levels : Nat) (ctx : Option Context) (driver : Driver δ) (l : σ) (s : State) (d : δ) :
    (w.call.task dao levels ctx).exchanges driver l s d = [] ∨
      ∃ sql answer, dao.Assigns part sql ∧
        Directed s ctx (.text sql) ((w.call.task dao levels ctx).exchanges driver l s d) answer := by
  cases hsql : w.sql dao with
  | error error =>
      exact .inl (exchanges_of_error (isIdle_of_part? hw) hsql levels ctx driver l s d)
  | ok sql =>
      obtain ⟨answer, hdirected⟩ :=
        exchanges_of_sql (isIdle_of_part? hw) hsql levels ctx driver l s d
      exact .inr ⟨sql, answer, assigns_of_sql hof hapart hw hsql, hdirected⟩

/-- Whatever the updates of some properties send assigns a column, and none twice. -/
def AlwaysAssign (dao : Dao) (part : Option (List String)) : Prop :=
  ∀ (σ δ : Type) (w : Writing), w.part? = some part → ∀ (levels : Nat) (ctx : Option Context)
    (driver : Driver δ) (l : σ) (s : State) (d : δ),
    (w.call.task dao levels ctx).exchanges driver l s d = [] ∨
      ∃ sql answer, dao.AssignsSome part sql ∧
        Directed s ctx (.text sql) ((w.call.task dao levels ctx).exchanges driver l s d) answer

/-- An update of an object is made of no values where no column is assigned. -/
theorem exists_sql_of_assignedNames_eq_nil (hof : IsDaoOf e dao) (hapart : e.ToldApart)
    (hnone : dao.assignedNames part = []) {entity : Json} {fields : Json.Fields}
    (hentity : part = none → dao.codec.encode entity = .ok (.obj fields)) :
    ∃ w sql, part? w = some part ∧ w.sql dao = .ok sql := by
  have hrow : TakesRow (dao.assignedColumns part) (.obj fields) [] := by
    rw [List.map_eq_nil_iff.1 hnone]
    exact ⟨fields, rfl, .nil⟩
  obtain ⟨sql, htext⟩ : ∃ sql, (dao.updateQuery
      (ValueColumn.ofColumns (dao.assignedColumns part))).statementText (.obj fields)
        [.query Query.empty] = .ok sql :=
    ⟨_, (Dao.updateQuery_fill (hof.nodup_properties hapart) part _).2 ⟨[], hrow, rfl⟩⟩
  have hquery : (Filter.query Query.empty).toQuery = .ok Query.empty := rfl
  cases part with
  | none =>
      refine ⟨.updateWhere entity (.query Query.empty), sql, rfl, ?_⟩
      simp only [Writing.sql, except_bind_eq_ok_iff, hof.nonKeyColumns_eq]
      exact ⟨_, hquery, _, hentity rfl, htext⟩
  | some properties =>
      refine ⟨.updatePartWhere properties (.obj fields) (.query Query.empty), sql, rfl, ?_⟩
      simp only [Writing.sql, except_bind_eq_ok_iff, hof.partColumns_eq]
      exact ⟨_, hquery, htext⟩

/-- An update sends nothing or assigns its columns, each of them once: those of the properties that
are not the primary key's, and are named if some are.  So the updates of some properties always
assign something exactly if there is such a column, or no entity can be written as an object. -/
theorem update_assigns_iff (hof : IsDaoOf e dao) (hapart : e.ToldApart)
    (part : Option (List String)) :
    (∀ name, name ∈ dao.assignedNames part ↔ ∃ p c, (p, c) ∈ e.columnProperties ∧ c.name = name ∧
      dao.primaryKey.map KeyColumn.property ≠ some p.key ∧
      ∀ properties ∈ part, p.key ∈ properties) ∧
    (dao.assignedNames part).Nodup ∧
    (∀ (σ δ : Type) (w : Writing), w.part? = some part → ∀ (levels : Nat) (ctx : Option Context)
      (driver : Driver δ) (l : σ) (s : State) (d : δ),
      (w.call.task dao levels ctx).exchanges driver l s d = [] ∨
        ∃ sql answer, dao.Assigns part sql ∧ Directed s ctx (.text sql)
          ((w.call.task dao levels ctx).exchanges driver l s d) answer) ∧
    (AlwaysAssign dao part ↔ dao.assignedNames part ≠ [] ∨
      part = none ∧ ∀ entity fields, dao.codec.encode entity ≠ .ok (.obj fields)) := by
  have hnodup := Dao.nodup_assignedNames hof hapart part
  refine ⟨fun name => Dao.mem_assignedNames hof, hnodup,
    fun σ δ w hw => exchanges_update hof hapart hw, fun halways => ?_, ?_⟩
  · by_contra hno
    rw [not_or, not_not, not_and] at hno
    obtain ⟨hnone, hencode⟩ := hno
    obtain ⟨entity, fields, hentity⟩ : ∃ entity fields,
        part = none → dao.codec.encode entity = .ok (.obj fields) := by
      by_cases hwhole : part = none
      · have hsome := hencode hwhole
        push Not at hsome
        obtain ⟨entity, fields, hentity⟩ := hsome
        exact ⟨entity, fields, fun _ => hentity⟩
      · exact ⟨.null, [], fun h => absurd h hwhole⟩
    obtain ⟨w, sql, hw, hsql⟩ :=
      exists_sql_of_assignedNames_eq_nil hof hapart hnone hentity
    -- Where the pool is open, the statement goes out.
    obtain ⟨answer, hdirected⟩ := exchanges_of_sql (isIdle_of_part? hw) hsql 0 none .granting ()
      { State.initial with pool := .open 0 } ()
    rcases halways Unit Unit w hw 0 none .granting () { State.initial with pool := .open 0 } ()
      with hnothing | ⟨_, _, hassigns, -⟩
    · rw [hnothing] at hdirected
      cases hdirected with
      | refused e hroute => cases hroute
    · exact hassigns.nonempty hnone
  · rintro (hsome | ⟨rfl, hencode⟩) σ δ w hw levels ctx driver l s d
    · refine (exchanges_update hof hapart hw levels ctx driver l s d).imp_right ?_
      rintro ⟨sql, answer, hassigns, hdirected⟩
      exact ⟨sql, answer, ⟨hassigns, hsome, hnodup⟩, hdirected⟩
    · cases hsql : w.sql dao with
      | error error =>
          exact .inl (exchanges_of_error (isIdle_of_part? hw) hsql levels ctx driver l s d)
      | ok sql =>
          obtain ⟨entity, fields, hentity⟩ := exists_encode_of_sql hw hsql
          exact absurd hentity (hencode entity fields)

/-- A list that names one column twice, and the key, and a property that there is none of. -/
theorem update_assigns_title :
    Event.dao.assignedNames (some ["title", "id", "title", "place"]) = ["title"] ∧
    AlwaysAssign Event.dao (some ["title", "id", "title", "place"]) := by
  have hnames : Event.dao.assignedNames (some ["title", "id", "title", "place"]) = ["title"] := by
    decide
  exact ⟨hnames, (update_assigns_iff Event.isDaoOf Event.toldApart _).2.2.2.2
    (.inl (by simp [hnames]))⟩

/-- An update of no properties is sent with nothing behind `set` but the condition; an insert of no
entities sends nothing. -/
theorem update_assigns_nothing :
    ((updatePartByKey [] Event.talk).call.task Event.dao 0 none :
        Task Unit WriteResult).exchanges .granting () Event.state () =
      [⟨.poolQuery 0 (.text "update event set  where id = 1"), .ok (Output.ofRows [])⟩] ∧
    Event.dao.assignedNames (some []) = [] ∧
    ((saveAll []).call.task Event.dao 0 none : Task Unit WriteResult).exchanges .granting ()
      Event.state () = [] ∧
    ¬ AlwaysAssign Event.dao (some []) := by
  have hnone : Event.dao.assignedNames (some []) = [] := by decide
  have hsent : ((updatePartByKey [] Event.talk).call.task Event.dao 0 none :
      Task Unit WriteResult).exchanges .granting () Event.state () =
        [⟨.poolQuery 0 (.text "update event set  where id = 1"), .ok (Output.ofRows [])⟩] := by
    have hsql : (updatePartByKey [] Event.talk).sql Event.dao =
        .ok "update event set  where id = 1" := by
      cbv
    rw [DaoCall.task_eq, plan_call Event.dao rfl, hsql]
    rfl
  refine ⟨hsent, hnone, rfl, fun halways => ?_⟩
  rcases halways Unit Unit (updatePartByKey [] Event.talk) rfl 0 none .granting () Event.state ()
    with hnothing | ⟨_, _, hassigns, -⟩
  · rw [hsent] at hnothing
    cases hnothing
  · exact hassigns.nonempty hnone

end Writing

end Persistence
