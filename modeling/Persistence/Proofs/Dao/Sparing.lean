import Persistence.Proofs.Cascade.Sending
import Persistence.Proofs.Dao.Assembly
import Persistence.Proofs.Dao.Propagation

/-!
# Deleted rows are out of reach

Every statement that a call of an access object brings about belongs to that object, to one that a
relation leads to, or to one whose rows a cascade takes along.  Where deletion is soft, it reads or
changes only rows that are not deleted, and no row is removed: a delete flags its rows.  Only
replacements may take the place of rows.

Main results:

- `DaoCall.satisfies`: the statements of a call, by its plan.
- `Select.run_leadsTo`, `DeleteOperation.cascade_leadsTo`: the statements of selects that follow
  relations and of cascades.
- `DaoCall.exists_asked_of_hasDeleted`: a delete that succeeds has asked for its statement.
- `DaoCall.spares_deleted`: the statements of a call with all that it leads to.
-/

namespace Persistence

open Sql

section Sparing

variable {σ α β δ : Type} {dao : Dao}

/-! ## Statements of access objects -/

namespace Dao

/-- The statements that an access object may send.  Where deletion is soft, they read or change only
rows that are not deleted, and remove none. -/
inductive Sends (dao : Dao) (replaces : Bool) (text : String) : Prop
  | select : dao.Spares .select text → Sends dao replaces text
  | update : dao.Spares .update text → Sends dao replaces text
  | insert : target? text = some (.insert, dao.tableName) → Sends dao replaces text
  | replace : replaces = true → target? text = some (.replace, dao.tableName) →
      Sends dao replaces text
  | delete : dao.table.softDelete = false → target? text = some (.delete, dao.tableName) →
      Sends dao replaces text

/-- A select of an access object with arguments for which it spares deleted rows. -/
structure Selects (dao : Dao) (s : Select) (args : List Param) : Prop where
  target : s.target = some dao.target
  spares : dao.Spares .select (s.statementText args)

/-- The statements with which rows are deleted.  Where deletion is soft, they set the flag of the
rows that they are about, and with it every other column that has a value for deleted rows. -/
inductive Erases (dao : Dao) : Statement → Prop
  | remove (q : Query) : dao.table.softDelete = false → Erases dao (.remove (dao.scope q))
  | flag {q : Query} {sets : List (String × Value)} : dao.table.softDelete = true →
      DeleteSets dao.table.columns sets → (softDeleteColumn, .int 1) ∈ sets →
      (Statement.flag (dao.scope q) sets).sql =
        "update " ++ dao.tableName ++ " set " ++
          ",".intercalate (sets.map fun (column, v) => assignmentText column v) ++ " " ++
            (dao.scope q).clause →
      Erases dao (.flag (dao.scope q) sets)

/-- The statements of a delete: it reads the rows that it is about and deletes them. -/
inductive Removes (dao : Dao) : Statement → Prop
  | rows (q : Query) : Removes dao (.rows (dao.scope q))
  | erase {st : Statement} : dao.Erases st → Removes dao st

/-! ## Selects -/

namespace Plain

variable (h : dao.Plain) {q : Query} (hq : q.Named dao.target.mapping)

include h

/-- A select of rows whose template starts with the table. -/
theorem selects_rows {s : Select} {args : List Param} {rest : String}
    (htarget : s.target = some dao.target)
    (htemplate : s.template = "select * from " ++ dao.tableName ++ rest)
    (hrest : dao.Closes
      (fill rest ((prepareParams s.target s.rawPositions 0 args).map Param.text))) :
    dao.Selects s args where
  target := htarget
  spares := by
    rw [Select.statementText, format, htemplate]
    exact h.spares_rows hrest

/-- A select of their number. -/
theorem selects_number {s : Select} {args : List Param} {rest : String}
    (htarget : s.target = some dao.target)
    (htemplate : s.template = "select count(*) from " ++ dao.tableName ++ rest)
    (hrest : dao.Closes
      (fill rest ((prepareParams s.target s.rawPositions 0 args).map Param.text))) :
    dao.Selects s args where
  target := htarget
  spares := by
    rw [Select.statementText, format, htemplate]
    exact h.spares_number hrest

theorem selects_countAll : dao.Selects dao.countAll [] :=
  h.selects_number rfl rfl dao.closes_all

theorem selects_listAll : dao.Selects dao.listAll [] :=
  h.selects_rows rfl rfl dao.closes_all

theorem selects_pageAll (p : Page) : dao.Selects dao.pageAll p.arguments :=
  h.selects_rows rfl String.append_assoc (dao.closes_page _ _)

theorem selects_findKey {key : KeyColumn} (hkey : dao.primaryKey = some key) (v : Value) :
    dao.Selects (dao.findKey key) [.literal v] := by
  have hlimit : IsBalanced (dao.liveAnd ++ " limit 0, 1") :=
    dao.isBalanced_liveAnd.append (.of_open rfl)
  have htemplate : (dao.findKey key).template = "select * from " ++ dao.tableName ++
      (" where " ++ key.column ++ " = ?" ++ (dao.liveAnd ++ " limit 0, 1")) := by
    simp only [findKey, select, String.append_assoc]
  have hlimitWords : " limit 0, 1" = " " ++ "limit 0, 1" := rfl
  obtain ⟨-, hcolumn, -⟩ := h.key key hkey
  refine h.selects_rows rfl htemplate ?_
  show dao.Closes (fill _ [v.literal])
  rw [fill_column (isBalanced_name hcolumn).isFixed, hlimit.fill, hlimitWords]
  simpa only [String.append_assoc] using (dao.closes_column hcolumn v).blank trails_limit

/-- Finding selects take any bare column and any value. -/
theorem selects_findBy {column : String} (hcolumn : isBareName column = true) (v : Value) :
    dao.Selects dao.findBy [.raw column, .literal v] ∧
      dao.Selects dao.findListBy [.raw column, .literal v] := by
  have hrest : dao.Closes (fill (" where ? = ?" ++ dao.liveAnd) [column, v.literal]) := by
    rw [fill_columnMark, dao.isBalanced_liveAnd.fill]
    exact dao.closes_column hcolumn v
  have htemplate : "select * from " ++ dao.tableName ++ " where ? = ?" ++ dao.liveAnd =
      "select * from " ++ dao.tableName ++ (" where ? = ?" ++ dao.liveAnd) :=
    String.append_assoc
  exact ⟨h.selects_rows rfl htemplate hrest, h.selects_rows rfl htemplate hrest⟩

include hq

theorem selects_countQuery : dao.Selects dao.countQuery [.query q] :=
  h.selects_number rfl rfl (h.closes_query hq)

theorem selects_listQuery : dao.Selects dao.listQuery [.query q] :=
  h.selects_rows rfl rfl (h.closes_query hq)

theorem selects_findQuery : dao.Selects dao.findQuery [.query q] :=
  h.selects_rows rfl rfl (h.closes_queryFirst hq)

theorem selects_pageQuery (p : Page) : dao.Selects dao.pageQuery (.query q :: p.arguments) :=
  h.selects_rows rfl rfl (h.closes_queryPage hq _ _)

end Plain

/-! ## Writes -/

/-- What an insert of entities sends is about the table that its template starts with. -/
theorem Plain.target?_statementText (h : dao.Plain) {i : Insert} {lead rest : String} {verb : Verb}
    (hlead : (lead, verb) ∈ leads)
    (htemplate : i.template = lead ++ " " ++ dao.tableName ++ (" " ++ rest))
    {entities : List Json} {sql : String} (hsql : i.statementText entities = .ok sql) :
    target? sql = some (verb, dao.tableName) := by
  rw [Insert.statementText] at hsql
  cases hrows : entities.mapM (entityValues i.columns) with
  | error e =>
      rw [hrows] at hsql
      cases hsql
  | ok rows =>
      rw [hrows] at hsql
      cases hsql
      rw [format, htemplate]
      exact h.target?_fill hlead rest _

/-- An insert of rows is about the table of the access object, and so is a replacement. -/
theorem Plain.target?_insert (h : dao.Plain) {entities : List Json} {sql : String} :
    (dao.insert.statementText entities = .ok sql →
        target? sql = some (.insert, dao.tableName)) ∧
      (dao.replace.statementText entities = .ok sql →
        target? sql = some (.replace, dao.tableName)) := by
  have hassoc : ∀ lead : String,
      lead ++ " " ++ dao.tableName ++ (" " ++ "(") ++ dao.columnList ++ ") values ?" =
        lead ++ " " ++ dao.tableName ++ (" " ++ ("(" ++ dao.columnList ++ ") values ?")) := by
    intro lead
    simp only [String.append_assoc]
  constructor
  · have hlead : ("insert into", Verb.insert) ∈ leads := by simp [leads]
    have htemplate : dao.insert.template = "insert into" ++ " " ++ dao.tableName ++ (" " ++ "(") ++
        dao.columnList ++ ") values ?" := rfl
    exact h.target?_statementText hlead (htemplate.trans (hassoc _))
  · have hlead : ("replace into", Verb.replace) ∈ leads := by simp [leads]
    have htemplate : dao.replace.template = "replace into" ++ " " ++ dao.tableName ++
        (" " ++ "(") ++ dao.columnList ++ ") values ?" := rfl
    exact h.target?_statementText hlead (htemplate.trans (hassoc _))

/-! ## Deletes -/

namespace Plain

variable (h : dao.Plain) {q : Query} {sets : List (String × Value)}

include h

/-- The values of a soft delete have no effect on how the rest of its text is read. -/
theorem calm_deleteSets (hsets : DeleteSets dao.table.columns sets) :
    Calm (",".intercalate (sets.map fun (column, v) => assignmentText column v)) := by
  refine Calm.intercalate (fun _ _ hfront hback => hfront.comma hback) ?_
  rw [List.forall_mem_map]
  rintro ⟨column, v⟩ hset
  have hname := hsets.forall_fst (isBareName · = true) h.columns (column, v) hset
  exact calm_assignmentText hname v

theorem sql_flag (hsets : DeleteSets dao.table.columns sets) :
    (Statement.flag (dao.scope q) sets).sql =
      "update " ++ dao.tableName ++ " set " ++
        ",".intercalate (sets.map fun (column, v) => assignmentText column v) ++ " " ++
          (dao.scope q).clause :=
  sql_flag_of_isFixed h.isBalanced_set.isFixed (h.calm_deleteSets hsets).isBalanced.isFixed q

/-- Rows are removed only where deletion is not soft; where it is, they are flagged. -/
theorem erases {st : Statement} (hst : dao.Deletes q st) : dao.Erases st := by
  cases hst with
  | remove hhard => exact .remove q hhard
  | flag hsoft hsets =>
      obtain ⟨front, hcolumns⟩ := h.flagged hsoft
      obtain ⟨others, hflag⟩ := (hcolumns ▸ hsets).exists_append_flag
      exact .flag hsoft hsets (by simp [hflag]) (h.sql_flag hsets)

variable (hq : q.Named dao.target.mapping)

include hq

/-- The rows that a delete is about are read without the deleted ones. -/
theorem sends_rows (replaces : Bool) :
    dao.Sends replaces (Statement.rows (dao.scope q)).sql :=
  .select (h.spares_rows (h.closes_query hq))

/-- The statements of a delete leave deleted rows alone. -/
theorem sends_deletes (replaces : Bool) {st : Statement} (hst : dao.Deletes q st) :
    dao.Sends replaces st.sql := by
  cases hst with
  | remove hhard =>
      have hlead : ("delete from", Verb.delete) ∈ leads := by simp [leads]
      have hwords : "delete from " = "delete from" ++ " " := rfl
      have hsql : (Statement.remove (dao.scope q)).sql =
          fill ("delete from " ++ dao.tableName ++ " ?") [(dao.scope q).clause] := rfl
      rw [hsql, hwords]
      exact .delete hhard (h.spares_fill hlead (h.closes_query hq)).1
  | flag _ hsets =>
      rw [h.sql_flag hsets, String.append_assoc]
      exact .update (h.spares_assigned (h.calm_deleteSets hsets) (h.closes_clauseText hq))

end Plain

end Dao

/-! ## Queries of calls and cascades -/

/-- The queries that a filter stands for name columns with bare names. -/
def Filter.Named (m : Mapping) (f : Filter) : Prop := ∀ q, f.toQuery = .ok q → q.Named m

namespace Query

variable {m : Mapping} {property : String}

theorem named_empty : empty.Named m := by
  intro field hfield
  simp [fields, empty, conditions] at hfield

theorem named_condition {c : Condition} (h : isBareName (m.columnName c.field) = true) :
    (empty.appendCondition c).Named m := by
  intro field hfield
  obtain rfl : field = c.field := by
    simpa [fields, appendCondition, append, empty, conditions] using hfield
  exact h

theorem named_eq (h : isBareName (m.columnName property) = true) (v : Value) :
    (empty.eq property v).Named m := by
  rw [eq, compare, appendUnlessNull]
  split
  · exact named_empty
  · exact named_condition h

theorem named_scopeQuery (h : isBareName (m.columnName property) = true) (values : List Value) :
    (scopeQuery property values).Named m := by
  unfold scopeQuery
  split
  · exact named_eq h _
  · rw [among, appendUnlessNull]
    split
    · exact named_empty
    · exact named_condition h

end Query

/-! ## Calls -/

namespace Plan

/-- A plan whose select, whose writing text or whose query for a delete satisfies a property. -/
def Satisfies (R : Select → List Param → Prop) (W : String → Prop) (D : Query → Prop) :
    Plan α → Prop
  | settled _ => True
  | read s args _ => R s args
  | write sql _ => W sql
  | delete q _ _ => D q

variable {R : Select → List Param → Prop} {W : String → Prop} {D : Query → Prop}

theorem satisfies_given {x : Except DbError β} {plan : β → Plan α}
    (h : ∀ b, x = .ok b → (plan b).Satisfies R W D) : (given x plan).Satisfies R W D := by
  cases x with
  | error e => trivial
  | ok b => exact h b rfl

theorem satisfies_insert {i : Insert} {entities : List Json}
    (h : ∀ sql, i.statementText entities = .ok sql → W sql) :
    (insert i entities).Satisfies R W D := by
  rw [insert]
  split
  · trivial
  · exact satisfies_given h

theorem satisfies_update {u : Update} {entity : Json} {args : List Param}
    (h : ∀ sql, u.statementText entity args = .ok sql → W sql) :
    (update u entity args).Satisfies R W D :=
  satisfies_given h

end Plan

namespace DaoCall

/-- Whether a call puts rows in the place of others. -/
def replaces : DaoCall α → Bool
  | saveOrUpdate _ => true
  | saveOrUpdateAll _ => true
  | _ => false

/-- A call that names its columns by bare names. -/
def IsPlain (d : Dao) : DaoCall α → Prop
  | countWhere f => f.Named d.target.mapping
  | listWhere f => f.Named d.target.mapping
  | pageWhere f _ => f.Named d.target.mapping
  | findWhere f => f.Named d.target.mapping
  | findByColumn column _ => isBareName column = true
  | listByColumn column _ => isBareName column = true
  | updateWhere _ f => f.Named d.target.mapping
  | updatePartWhere _ _ f => f.Named d.target.mapping
  | deleteQuery q _ => q.Named d.target.mapping
  | deleteWhere f _ => f.Named d.target.mapping
  | _ => True

/-- What a call of a plain access object reads, writes and deletes. -/
theorem satisfies (h : dao.Plain) {c : DaoCall α} (hc : c.IsPlain dao) :
    (c.plan dao).Satisfies dao.Selects (dao.Sends c.replaces)
      (fun q => q.Named dao.target.mapping) := by
  have hpart : ∀ part, ∀ c ∈ dao.partColumns part, c ∈ dao.columns := fun part c hc =>
    List.mem_of_mem_filter (List.mem_of_mem_filter hc)
  have hnonKey : ∀ c ∈ dao.nonKeyColumns, c ∈ dao.columns := fun c hc => List.mem_of_mem_filter hc
  cases c with
  | count => exact h.selects_countAll
  | countWhere f => exact Plan.satisfies_given fun q hq => h.selects_countQuery (hc q hq)
  | list => exact h.selects_listAll
  | listWhere f => exact Plan.satisfies_given fun q hq => h.selects_listQuery (hc q hq)
  | page p => exact h.selects_pageAll p
  | pageWhere f p => exact Plan.satisfies_given fun q hq => h.selects_pageQuery (hc q hq) p
  | findByKey key =>
      exact Plan.satisfies_given fun column hcolumn =>
        h.selects_findKey (Dao.requireKey_eq_ok_iff.1 hcolumn) key
  | findWhere f => exact Plan.satisfies_given fun q hq => h.selects_findQuery (hc q hq)
  | findByColumn column v => exact (h.selects_findBy hc v).1
  | listByColumn column v => exact (h.selects_findBy hc v).2
  | save entity | saveAll entities =>
      exact Plan.satisfies_given fun objects _ => Plan.satisfies_insert fun sql hsql =>
        .insert (h.target?_insert.1 hsql)
  | saveOrUpdate entity | saveOrUpdateAll entities =>
      exact Plan.satisfies_given fun objects _ => Plan.satisfies_insert fun sql hsql =>
        .replace rfl (h.target?_insert.2 hsql)
  | updateByKey entity =>
      exact Plan.satisfies_given fun key hkey => Plan.satisfies_given fun object _ =>
        Plan.satisfies_update fun sql hsql =>
          .update (h.spares_updateKey (Dao.requireKey_eq_ok_iff.1 hkey) hnonKey hsql)
  | updateWhere entity f =>
      exact Plan.satisfies_given fun q hq => Plan.satisfies_given fun object _ =>
        Plan.satisfies_update fun sql hsql => .update (h.spares_updateQuery (hc q hq) hnonKey hsql)
  | updatePartByKey part object =>
      exact Plan.satisfies_given fun key hkey => Plan.satisfies_update fun sql hsql =>
        .update (h.spares_updateKey (Dao.requireKey_eq_ok_iff.1 hkey) (hpart part) hsql)
  | updatePartWhere part object f =>
      exact Plan.satisfies_given fun q hq => Plan.satisfies_update fun sql hsql =>
        .update (h.spares_updateQuery (hc q hq) (hpart part) hsql)
  | deleteByKey key force =>
      refine Plan.satisfies_given fun column hcolumn => Query.named_eq ?_ key
      obtain ⟨hproperty, -⟩ := h.key column (Dao.requireKey_eq_ok_iff.1 hcolumn)
      exact h.mapping.columns _ hproperty
  | deleteQuery q force => exact hc
  | deleteWhere f force => exact Plan.satisfies_given fun q hq => hc q hq

end DaoCall

/-! ## What a call leads to -/

/-- The access objects that another one leads to: itself, those that find the rows of relations, and
those that delete the rows of dependents. -/
inductive State.Reaches (s : State) (d : Dao) : Dao → Prop
  | self : s.Reaches d d
  | relation {g f : Dao} {property : String} {l : Mapping.Lookup} {select : Select} :
      s.Reaches d g → (property, .lookup l) ∈ g.target.mapping.entries →
      s.selects.lookup l.select = some select → select = f.findBy ∨ select = f.findListBy →
      s.Reaches d f
  | dependent {g f : Dao} {dep : Dependent} : s.Reaches d g →
      dep ∈ s.catalog.dependentsOf g.tableName →
      s.deletes.lookup (deleteQueryId dep.entity) = some (.dao f) → s.Reaches d f

/-- The states with the catalog and the registered operations of another one. -/
def State.IsEquippedLike (s s' : State) : Prop :=
  s'.catalog = s.catalog ∧ s'.selects = s.selects ∧ s'.deletes = s.deletes

/-- A request whose statement, if it has one, is sent by an access object that another one leads
to. -/
def Dao.LeadsTo (d : Dao) (daos : List Dao) (s : State) (replaces deletes : Bool) (r : Request) :
    Prop :=
  ∀ st, r.statement? = some st → ∃ f ∈ daos, s.Reaches d f ∧ f.Sends replaces st.sql ∧
    (deletes = true → f.Removes st)

variable {daos : List Dao} {s : State} {d f : Dao} {replaces deletes : Bool}

theorem Dao.LeadsTo.of_statement?_eq_none {r : Request} (h : r.statement? = none) :
    d.LeadsTo daos s replaces deletes r := by
  intro st hst
  rw [h] at hst
  cases hst

/-- A statement of an access object that another one leads to. -/
theorem Dao.LeadsTo.execute {st : Statement} (ctx : Option Context) (hf : f ∈ daos)
    (hreach : s.Reaches d f) (hsends : f.Sends replaces st.sql)
    (hremoves : deletes = true → f.Removes st) :
    (Persistence.execute st ctx : Task σ Output).Within s.IsEquippedLike
      (d.LeadsTo daos s replaces deletes) := by
  refine execute_within_of_forall ctx fun r hr st' hst' => ?_
  obtain rfl := Option.some.inj (hr.symm.trans hst')
  exact ⟨f, hf, hreach, hsends, hremoves⟩

/-- A select that follows relations leads to the access objects of the relations. -/
theorem Select.run_leadsTo (h : Equipped daos s) (hd : d ∈ daos) (replaces : Bool)
    (ctx : Option Context) (depth : Nat) {select : Select} {args : List Param}
    (hselect : d.Selects select args) :
    (select.run ctx depth args : Task σ Selection).Within s.IsEquippedLike
      (d.LeadsTo daos s replaces false) := by
  refine run_within (Q := fun select args => ∃ f ∈ daos, s.Reaches d f ∧ f.Selects select args)
    ?_ ?_ depth ⟨d, hd, .self, hselect⟩
  · rintro select args ⟨f, hf, hreach, hselects⟩
    exact Dao.LeadsTo.execute ctx hf hreach (.select hselects.spares) fun h => by cases h
  · rintro select args ⟨f, hf, hreach, hselects⟩ l ⟨t, ht, property, hl⟩ key - state hstate related
      hrelated
    obtain rfl := Option.some.inj (hselects.target.symm.trans ht)
    obtain ⟨⟨entity, hid⟩, column, htarget, hcolumn⟩ := (h.plain f hf).mapping.lookups property l hl
    rw [hstate.2.1] at hrelated
    obtain ⟨g, hg, hfinds⟩ := h.selects entity l.select related hid hrelated
    refine ⟨g, hg, hreach.relation hl hrelated hfinds, ?_⟩
    have harguments : l.arguments key = [.raw column, .literal (Value.ofJson key)] := by
      rw [Mapping.Lookup.arguments, htarget]
    have hboth := (h.plain g hg).selects_findBy hcolumn (Value.ofJson key)
    rw [harguments]
    rcases hfinds with rfl | rfl
    · exact hboth.1
    · exact hboth.2

/-- One level of a cascade leads to what its dependents lead to. -/
theorem Dao.deleteLevel_leadsTo (h : Equipped daos s) (hf : f ∈ daos) (hreach : s.Reaches d f)
    {step : CascadeStep} {q : Query} (hq : q.Named f.target.mapping) (force : Bool) (tx : Context)
    (hstep : ∀ g ∈ daos, s.Reaches d g → ∀ q : Query, q.Named g.target.mapping →
      (step (.dao g) q).Within s.IsEquippedLike (d.LeadsTo daos s replaces deletes)) :
    (f.deleteLevel step q force tx).Within s.IsEquippedLike
      (d.LeadsTo daos s replaces deletes) := by
  have hfree : ∀ r : Request, r.statement? = none → d.LeadsTo daos s replaces deletes r :=
    fun _ => .of_statement?_eq_none
  have hplain := h.plain f hf
  have hdeletes : ∀ q : Query, q.Named f.target.mapping → ∀ st, f.Deletes q st →
      (Persistence.execute st (some tx) : Task Claims Output).Within s.IsEquippedLike
        (d.LeadsTo daos s replaces deletes) := by
    intro q hq st hst
    exact LeadsTo.execute (some tx) hf hreach (hplain.sends_deletes hq replaces hst) fun _ =>
      .erase (hplain.erases hst)
  refine deleteLevel_within (fun _ => hfree _ rfl) (fun _ => tx.rollback_within hfree)
    (LeadsTo.execute (some tx) hf hreach (hplain.sends_rows hq replaces) fun _ => .rows q)
    (hdeletes q hq) ?_ ?_
  · intro _ _ _ rows q' hscope
    obtain ⟨key, hkey, rfl⟩ := Option.map_eq_some_iff.1 hscope
    obtain ⟨hproperty, -⟩ := hplain.key key hkey
    exact hdeletes _ (Query.named_scopeQuery (hplain.mapping.columns _ hproperty) _)
  · intro s' hs' dep hdep rows _ s'' hs'' delete hdelete
    rw [hs'.1] at hdep
    rw [hs''.2.2] at hdelete
    obtain ⟨g, hg, rfl⟩ := h.deletes dep.entity delete hdelete
    refine hstep g hg (hreach.dependent hdep hdelete) _ (Query.named_scopeQuery ?_ _)
    exact (h.plain g hg).mapping.columns _ (h.catalog.dependents _ dep hdep)

/-- A cascade leads to the deletes of dependents, however deep it goes. -/
theorem DeleteOperation.cascade_leadsTo (h : Equipped daos s) (hf : f ∈ daos)
    (hreach : s.Reaches d f) {q : Query} (hq : q.Named f.target.mapping) (replaces deletes : Bool)
    (levels : Nat) (force : Bool) (tx : Context) :
    ((DeleteOperation.dao f).cascade levels q force (some tx)).Within s.IsEquippedLike
      (d.LeadsTo daos s replaces deletes) := by
  induction levels generalizing f q with
  | zero => exact .fail _
  | succ levels ih =>
      rw [cascade, transaction_some]
      exact Dao.deleteLevel_leadsTo h hf hreach hq force tx fun g hg hreach q hq => ih hg hreach hq

/-- So does a delete, in a context or with a transaction of its own. -/
theorem Dao.deleteQuery_leadsTo (h : Equipped daos s) (hd : d ∈ daos) {q : Query}
    (hq : q.Named d.target.mapping) (replaces deletes : Bool) (levels : Nat) (force : Bool)
    (ctx : Option Context) :
    (d.deleteQuery levels q force ctx : Task σ DeleteResult).Within s.IsEquippedLike
      (d.LeadsTo daos s replaces deletes) := by
  refine .withLocal ?_
  cases levels with
  | zero => exact .fail _
  | succ levels =>
      refine transaction_within (fun _ => .of_statement?_eq_none) (fun _ _ h => h) fun tx => ?_
      exact deleteLevel_leadsTo h hd .self hq force tx fun g hg hreach q hq =>
        DeleteOperation.cascade_leadsTo h hg hreach hq replaces deletes levels force tx

/-- A call that is planned as anything but a delete is none. -/
theorem DaoCall.isDelete_eq_false {c : DaoCall α} (hsettled : ∀ result, c.plan d ≠ .settled result)
    (hdelete : ∀ q force finish, c.plan d ≠ .delete q force finish) : c.isDelete = false := by
  by_contra hc
  rcases plan_of_isDelete (by simpa using hc) d with ⟨result, hplan⟩ | ⟨q, force, finish, hplan⟩
  · exact hsettled result hplan
  · exact hdelete q force finish hplan

/-- A call leads to statements of access objects that spare deleted rows. -/
theorem DaoCall.task_leadsTo (h : Equipped daos s) (hd : d ∈ daos) {c : DaoCall α}
    (hc : c.IsPlain d) (levels : Nat) (ctx : Option Context) :
    (c.task d levels ctx : Task σ α).Within s.IsEquippedLike
      (d.LeadsTo daos s c.replaces c.isDelete) := by
  have hplanned := c.satisfies (h.plain d hd) hc
  rw [task_eq]
  cases hplan : c.plan d with
  | settled result => exact .ofExcept result
  | read select args finish =>
      rw [hplan] at hplanned
      rw [isDelete_eq_false (c := c) (d := d) (by simp [hplan]) (by simp [hplan])]
      exact (Select.run_leadsTo h hd _ ctx _ hplanned).bind fun _ => .ofExcept _
  | write sql finish =>
      rw [hplan] at hplanned
      rw [isDelete_eq_false (c := c) (d := d) (by simp [hplan]) (by simp [hplan])]
      have hsend : (execute (.text sql) ctx : Task σ Output).Within s.IsEquippedLike
          (d.LeadsTo daos s c.replaces false) :=
        Dao.LeadsTo.execute ctx hd .self hplanned fun hdeletes => by cases hdeletes
      exact hsend.bind fun _ => .pure _
  | delete q force finish =>
      rw [hplan] at hplanned
      exact (Dao.deleteQuery_leadsTo h hd hplanned _ _ levels force ctx).bind fun _ => .pure _

/-- Whether a result of a call says that a delete has succeeded. -/
def DaoCall.hasDeleted : DaoCall α → α → Bool
  | deleteByKey _ _, r => r.success
  | deleteQuery _ _, r => r.success
  | deleteWhere _ _, r => r.success
  | _, _ => false

/-- A delete that succeeds has asked for its statement. -/
theorem DaoCall.exists_asked_of_hasDeleted {c : DaoCall α} {levels : Nat} {ctx : Option Context}
    {driver : Driver δ} {l : σ} {x : δ} {result : α}
    (h : ((c.task d levels ctx : Task σ α).run driver l s x).1.1 = .ok result)
    (hresult : c.hasDeleted result = true) :
    ∃ conn q st, d.Deletes q st ∧
      .query conn st ∈ (c.task d levels ctx : Task σ α).asked driver l s x := by
  cases c with
  | deleteByKey key force =>
      obtain ⟨column, l', s', x', hkey, hrest⟩ := Task.exists_of_run_bind h
      obtain ⟨conn, q, st, hdeletes, hasked⟩ := Dao.exists_asked_of_run_deleteQuery hrest hresult
      exact ⟨conn, q, st, hdeletes, Task.mem_asked_bind hkey hasked⟩
  | deleteQuery q force => exact Dao.exists_asked_of_run_deleteQuery h hresult
  | deleteWhere f force =>
      obtain ⟨query, l', s', x', hquery, hrest⟩ := Task.exists_of_run_bind h
      obtain ⟨conn, q, st, hdeletes, hasked⟩ := Dao.exists_asked_of_run_deleteQuery hrest hresult
      exact ⟨conn, q, st, hdeletes, Task.mem_asked_bind hquery hasked⟩
  | _ => cases hresult

/-- Deleted rows are out of reach.  In a program of plain entity types, every statement that a call
brings about is sent by an access object of the program that the called one leads to, through
relations or as a dependent, and it is about the table of that object.  Where deletion is soft, each
select and each update has a condition that is a conjunction with the one that asks for rows that
are not deleted; there is no delete, and only saving over rows puts others in their place.  The
statements of a delete read rows or set the flag of deleted rows, together with all columns that
have values for them; and a delete that succeeds has sent such a statement about its own table. -/
theorem DaoCall.spares_deleted {es : List Entity} (h : Assembled es daos s)
    (hplain : ∀ e ∈ es, e.isPlain = true) (hd : d ∈ daos) {c : DaoCall α} (hc : c.IsPlain d)
    (levels : Nat) (ctx : Option Context) (driver : Driver δ) (l : σ) (x : δ) :
    (∀ r ∈ (c.task d levels ctx).asked driver l s x, ∀ st, r.statement? = some st →
      ∃ f ∈ daos, s.Reaches d f ∧ f.Sends c.replaces st.sql ∧
        (c.isDelete = true → f.Removes st)) ∧
      ∀ result, ((c.task d levels ctx).run driver l s x).1.1 = .ok result →
        c.hasDeleted result = true →
          ∃ conn st, .query conn st ∈ (c.task d levels ctx).asked driver l s x ∧ d.Erases st := by
  have hequipped := h.equipped hplain
  refine ⟨((DaoCall.task_leadsTo hequipped hd hc levels ctx l).asked driver ⟨rfl, rfl, rfl⟩ x).1,
    fun result hrun hresult => ?_⟩
  obtain ⟨conn, q, st, hdeletes, hasked⟩ := DaoCall.exists_asked_of_hasDeleted hrun hresult
  exact ⟨conn, st, hasked, (hequipped.plain d hd).erases hdeletes⟩

end Sparing

namespace Notes

/-- An entity type with soft deletion whose objects refer to each other. -/
def entity : Entity where
  name := "Note"
  table := some ⟨"note", none, none, none, true⟩
  properties :=
    [⟨"id", .number, some (.key "id"), none⟩,
     ⟨"title", .string, some (.named "title"), none⟩,
     ⟨"deletedAt", .string,
       some { ColumnSpec.named "deleted_at" with deleteValue := some (.producer "now") }, none⟩,
     ⟨"parentId", .number,
       some { ColumnSpec.named "parent_id" with foreignKey := some ⟨"Note", "id", .cascade⟩ },
       none⟩]

theorem isPlain : ∀ e ∈ [entity], e.isPlain = true := by
  intro e he
  obtain rfl := List.mem_singleton.1 he
  rfl

/-- The state once the entity type has been opened. -/
def state : State :=
  ((openDao entity .any : Task Unit (Option Dao)).run .granting ()
    { State.initial with pool := .open 0 } ()).2.1

/-- The table of the entity type. -/
def table : Table :=
  (Table.ofEntity? entity (Catalog.empty.withEntity entity).entity?).get rfl

/-- The access object of the entity type. -/
def dao : Dao := Dao.ofEntity entity table .any

theorem assembled : Assembled [entity] [dao] state := by
  have hrun : (openDao entity .any : Task Unit (Option Dao)).run .granting ()
      { State.initial with pool := .open 0 } () = ((.ok (some dao), ()), state, ()) := rfl
  exact Assembled.openDao (Assembled.start rfl rfl rfl) hrun

/-- The notes with a title or a key. -/
def query : Query := (Query.empty.eq "title" (.string "or")).or.eq "id" (.int 1)

/-- A delete of these notes. -/
def call : DaoCall DeleteResult := .deleteQuery query false

theorem named : query.Named dao.target.mapping := by
  intro field hfield
  have hfields : field = "title" ∨ field = "id" := by
    simpa [query, Query.fields, Query.eq, Query.compare, Query.or, Query.connect,
      Query.dropConnector, Query.appendUnlessNull, Query.appendCondition, Query.append, Query.empty,
      Value.isNull, Link.isConnector, conditions, Condition.field] using hfield
  rcases hfields with rfl | rfl
  · rfl
  · rfl

end Notes

/-- A delete of notes reads them and then flags them; no note that is deleted already is read or
flagged again. -/
theorem DaoCall.spares_deleted_notes :
    Notes.dao.table.softDelete = true ∧
      (((Notes.call.task Notes.dao 2 none : Task Unit DeleteResult).asked .granting ()
        Notes.state ()).filterMap Request.statement?).length = 2 ∧
      (∀ r ∈ (Notes.call.task Notes.dao 2 none).asked .granting () Notes.state (),
        ∀ st, r.statement? = some st → ∃ f ∈ [Notes.dao], Notes.state.Reaches Notes.dao f ∧
          f.Sends false st.sql ∧ f.Removes st) ∧
      ∃ conn st, .query conn st ∈
        (Notes.call.task Notes.dao 2 none).asked .granting () Notes.state () ∧
          Notes.dao.Erases st := by
  obtain ⟨hasked, hsent⟩ :=
    DaoCall.spares_deleted Notes.assembled Notes.isPlain (List.mem_singleton_self Notes.dao)
      (c := Notes.call) Notes.named 2 none Driver.granting () ()
  refine ⟨rfl, rfl, fun r hr st hst => ?_, hsent ⟨true, 0, []⟩ rfl rfl⟩
  obtain ⟨f, hf, hreach, hsends, hremoves⟩ := hasked r hr st hst
  exact ⟨f, hf, hreach, hsends, hremoves rfl⟩

end Persistence
