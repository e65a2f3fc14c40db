import Persistence.Proofs.Cascade.Outcome

/-!
# Levels of a cascade

Runs of the parts of a cascade against a driver that answers as a store does.  Each run is
described by the outcome that it has; nothing is said about the states of the driver in between
beyond the session that they show.

Main results:

- `Dao.run_deleteRows`: the delete of a level.
- `run_removeDependents`: the removals in the dependents of some rows.
- `Dao.starts`: what a level does before its dependents, whether it is forced or not.
- `Dao.run_deleteLevel`: a level, given what the level below does.
- `DeleteOperation.run_cascade`: a cascade that may go as deep as there are live rows.
-/

namespace Persistence

variable {δ : Type} {driver : Driver δ} {session : δ → Session} {w : Setting} {s : State} {d : δ}
  {claims : Claims} {dao : Dao}

/-! ## The delete of a level -/

namespace Dao

/-- The delete values of some columns only ask for values. -/
theorem run_deleteValues (hdriver : AnswersAsStore w.collation driver session) (claims : Claims)
    (s : State) (columns : List Column) (d : δ) :
    ∃ sets d', (deleteValues columns).run driver claims s d = ((.ok sets, claims), s, d') ∧
      DeleteSets columns sets ∧ session d' = session d := by
  induction columns generalizing d with
  | nil => exact ⟨[], d, rfl, .nil, rfl⟩
  | cons c columns ih =>
      rw [deleteValues]
      cases hvalue : c.deleteValue with
      | none =>
          obtain ⟨sets, d', hrun, hsets, hsession⟩ := ih d
          exact ⟨sets, d', hrun, .skip hvalue hsets, hsession⟩
      | some value =>
          cases value with
          | literal v =>
              obtain ⟨sets, d', hrun, hsets, hsession⟩ := ih d
              refine ⟨(c.name, v) :: sets, d', ?_, .literal hvalue hsets, hsession⟩
              exact Task.run_bind_of_ok hrun
          | producer name =>
              obtain ⟨sets, d', hrun, hsets, hsession⟩ := ih (driver.answer (.produce name) d).2
              refine ⟨(c.name, (driver.answer (.produce name) d).1) :: sets, d', ?_,
                .producer hvalue hsets, hsession.trans (hdriver.produce name d)⟩
              exact (Task.run_bind_of_ok (Task.run_ask _)).trans (Task.run_bind_of_ok hrun)

/-- The statement of a delete takes the rows of its query out of the store. -/
theorem run_statement (hw : w.WellFormed) (hdriver : AnswersAsStore w.collation driver session)
    (hdao : dao ∈ w.daos) {q : Query} (hq : q.Plain) {touched gone : Set Entry}
    (h : Progress w claims (session d) touched gone) (conn : Nat) :
    ∃ statement d₁ o d₂,
      (dao.deleteStatement q).run driver claims s d = ((.ok statement, claims), s, d₁) ∧
      driver.answer (.query conn statement) d₁ = (.ok o, d₂) ∧ o.fieldCount = 0 ∧
      w.count (gone ∪ w.hits dao q) = w.count gone + o.affectedRows ∧
      Progress w claims (session d₂) (touched ∪ w.hits dao q) (gone ∪ w.hits dao q) := by
  have hcount := Setting.count_union_hits hw h.leaves hdao q
  cases hsoft : dao.table.softDelete with
  | true =>
      obtain ⟨sets, d₁, hrun, hsets, hd₁⟩ :=
        run_deleteValues hdriver claims s dao.table.columns d
      obtain ⟨o, d₂, hanswer, hd₂, hwrote⟩ := hdriver.flag conn (dao.scope q) sets d₁ hq
      rw [hd₁] at hd₂ hwrote
      refine ⟨.flag (dao.scope q) sets, d₁, o, d₂, ?_, hanswer, hwrote.fieldCount, ?_, ?_⟩
      · rw [deleteStatement, if_pos hsoft]
        exact Task.run_bind_of_ok hrun
      · rw [hwrote.affectedRows]
        exact hcount
      · rw [hd₂]
        exact h.delete hdao (h.leaves.flag hw hdao hsoft q hsets)
  | false =>
      obtain ⟨o, d₂, hanswer, hd₂, hwrote⟩ := hdriver.remove conn (dao.scope q) d hq
      refine ⟨.remove (dao.scope q), d, o, d₂, ?_, hanswer, hwrote.fieldCount, ?_, ?_⟩
      · rw [deleteStatement, if_neg (by simp [hsoft])]
        rfl
      · rw [hwrote.affectedRows]
        exact hcount
      · rw [hd₂]
        exact h.delete hdao (h.leaves.remove hw hdao hsoft q)

/-- The delete of a level takes the rows of its query.  It undoes everything if it was not forced
and there are rows in dependents. -/
theorem run_deleteRows (hw : w.WellFormed) (hdriver : AnswersAsStore w.collation driver session)
    {tx : Context} {conn : Nat} (hconn : s.connection? tx = some conn) (hdao : dao ∈ w.daos)
    {q : Query} (hq : q.Plain) {touched gone : Set Entry}
    (h : Progress w claims (session d) touched gone) (force : Bool)
    (relations : List RelationCount) :
    ∃ n d', w.count (gone ∪ w.hits dao q) = w.count gone + n ∧
      if (!force && relations.any fun r => 0 < r.count) = true then
        (dao.deleteRows q force relations tx).run driver claims s d =
          ((.ok ⟨false, n, relations⟩, claims), s, d') ∧ session d' = ⟨w.start, w.start⟩
      else
        (dao.deleteRows q force relations tx).run driver claims s d =
          ((.ok ⟨true, n, relations⟩, claims), s, d') ∧
        Progress w claims (session d') (touched ∪ w.hits dao q) (gone ∪ w.hits dao q) := by
  obtain ⟨statement, d₁, o, d₂, hstatement, hanswer, hfields, hcount, hprogress⟩ :=
    run_statement (s := s) hw hdriver hdao hq h conn
  have hexecute : (execute statement (some tx) : Task Claims Output).run driver claims s d₁ =
      ((.ok o, claims), s, d₂) := by
    rw [run_execute hconn, hanswer]
  have hrun : (dao.deleteRows q force relations tx).run driver claims s d =
      (if (!force && relations.any fun r => 0 < r.count) = true then do
          tx.rollback
          return ⟨false, (WriteResult.ofOutput o).affectedRows, relations⟩
        else return ⟨(WriteResult.ofOutput o).success, (WriteResult.ofOutput o).affectedRows,
          relations⟩ : Task Claims DeleteResult).run driver claims s d₂ := by
    rw [deleteRows, Task.run_bind_of_ok hstatement, Task.run_bind_of_ok hexecute]
  by_cases hundo : (!force && relations.any fun r => 0 < r.count) = true
  · obtain ⟨d₃, hrollback, hd₃⟩ := hdriver.rollback conn d₂
    have hback : (tx.rollback : Task Claims Unit).run driver claims s d₂ =
        ((.ok (), claims), s, d₃) := by
      rw [Context.run_rollback hconn, hrollback]
    refine ⟨o.affectedRows, d₃, hcount, ?_⟩
    rw [if_pos hundo, hrun, if_pos hundo, Task.run_bind_of_ok hback]
    refine ⟨rfl, ?_⟩
    rw [hd₃, Session.restored, hprogress.saved]
  · refine ⟨o.affectedRows, d₂, hcount, ?_⟩
    rw [if_neg hundo, hrun, if_neg hundo]
    refine ⟨?_, hprogress⟩
    simp [WriteResult.ofOutput, Output.isSuccess, hfields]

end Dao

/-! ## The removals in dependents -/

/-- The catalog and the registered deletes of a state lead to the dependents of a setting. -/
structure State.Serves (s : State) (w : Setting) : Prop where
  dependents : ∀ table, s.catalog.dependentsOf table = w.dependents table
  deletes : ∀ table, ∀ dep ∈ w.dependents table, ∃ dao ∈ w.daos, dao.tableName = dep.table ∧
    s.deletes.lookup (deleteQueryId dep.entity) = some (.dao dao)

/-- A way to delete the rows of a query has one of the outcomes of a delete, as long as fewer than
`bound` live rows are untouched. -/
def Cascades (driver : Driver δ) (session : δ → Session) (w : Setting) (s : State) (force : Bool)
    (bound : Nat) (step : CascadeStep) : Prop :=
  ∀ dao ∈ w.daos, ∀ q : Query, q.Plain → ∀ claims d touched gone,
    Progress w claims (session d) touched gone → w.untouched touched < bound →
      ∃ r claims' d', (step (.dao dao) q).run driver claims s d = ((.ok r, claims'), s, d') ∧
        Outcome w force touched gone (w.hits dao q \ gone) r claims' (session d')

/-- A dependent without references is passed over. -/
theorem removeDependents_of_references_eq_nil (step : CascadeStep) {rows : List Row}
    {dep : Dependent} (h : dep.references rows = []) (deps : List Dependent) :
    removeDependents step rows (dep :: deps) = removeDependents step rows deps := by
  rw [removeDependents, h]
  rfl

section Dependents

variable {step : CascadeStep} {rows : List Row} {dep : Dependent} {delete : DeleteOperation}
  {r : DeleteResult} {claims' : Claims} {d' : δ}

/-- Behind a dependent that was deleted come the others. -/
theorem run_removeDependents_of_success (h : dep.references rows ≠ [])
    (hlookup : s.deletes.lookup (deleteQueryId dep.entity) = some delete)
    (hrun : (step delete (scopeQuery dep.property (dep.references rows))).run driver claims s d =
      ((.ok r, claims'), s, d')) (hsuccess : r.success = true) (deps : List Dependent) :
    (removeDependents step rows (dep :: deps)).run driver claims s d =
      (removeDependents step rows deps >>= fun rest =>
        pure ⟨rest.complete, dep.counts r ++ rest.relations⟩).run driver claims' s d' := by
  rw [removeDependents]
  simp only [List.isEmpty_iff, h, if_false]
  rw [Task.run_bind_of_ok Task.run_state, hlookup]
  dsimp only
  rw [Task.run_bind_of_ok hrun, if_pos hsuccess]

/-- A dependent that refuses is the last one. -/
theorem run_removeDependents_of_refusal (h : dep.references rows ≠ [])
    (hlookup : s.deletes.lookup (deleteQueryId dep.entity) = some delete)
    (hrun : (step delete (scopeQuery dep.property (dep.references rows))).run driver claims s d =
      ((.ok r, claims'), s, d')) (hsuccess : r.success = false) (deps : List Dependent) :
    (removeDependents step rows (dep :: deps)).run driver claims s d =
      ((.ok ⟨false, ⟨dep.table, r.count⟩ :: r.relations⟩, claims'), s, d') := by
  rw [removeDependents]
  simp only [List.isEmpty_iff, h, if_false]
  rw [Task.run_bind_of_ok Task.run_state, hlookup]
  dsimp only
  rw [Task.run_bind_of_ok hrun, if_neg (by simp [hsuccess]), Task.run_pure]

end Dependents

/-- The removals in the dependents of some rows of a table have one of their outcomes. -/
theorem run_removeDependents (hw : w.WellFormed) (hs : s.Serves w) {force : Bool} {bound : Nat}
    {step : CascadeStep} (hstep : Cascades driver session w s force bound step) (table : String)
    {rows : List Row} (deps : List Dependent) (hdeps : ∀ dep ∈ deps, dep ∈ w.dependents table)
    {touched gone : Set Entry} (h : Progress w claims (session d) touched gone)
    (hbound : rows ≠ [] → w.untouched touched < bound) :
    ∃ r claims' d',
      (removeDependents step rows deps).run driver claims s d = ((.ok r, claims'), s, d') ∧
      RemovalOutcome w force touched gone (Setting.entries table rows) deps r claims'
        (session d') := by
  induction deps generalizing claims d touched gone with
  | nil =>
      refine ⟨⟨true, []⟩, claims, d, rfl, .removed rfl h ?_⟩
      exact Removed.nil w force touched gone _
  | cons dep deps ih =>
      obtain ⟨hdep, hrest⟩ := List.forall_mem_cons.1 hdeps
      by_cases hnone : dep.references rows = []
      · obtain ⟨r, claims', d', hrun, hout⟩ := ih hrest h hbound
        refine ⟨r, claims', d', ?_, ?_⟩
        · rw [removeDependents_of_references_eq_nil step hnone, hrun]
        · exact hout.pass fun x hx y => Setting.not_refersBy_of_references_eq_nil hnone hx
      · have hrows : rows ≠ [] := by
          rintro rfl
          exact hnone rfl
        obtain ⟨dao, hdao, htable, hlookup⟩ := hs.deletes table dep hdep
        have hhits : ∀ y, y ∈ w.hits dao (scopeQuery dep.property (dep.references rows)) ↔
            y ∈ w.live ∧ ∃ x ∈ Setting.entries table rows, w.RefersBy dep y x :=
          fun y => Setting.mem_hits_references hw hdao htable
        have hown : ∀ x ∈ Setting.entries table rows, x.table = table := fun x hx => hx.1
        obtain ⟨r, claims₁, d₁, hrun, hout⟩ := hstep dao hdao _
          (plain_scopeQuery dep.property (dep.references rows)) claims d touched gone h
          (hbound hrows)
        cases hout with
        | @deleted touched₁ gone₁ hsuccess hprogress hdeleted =>
            have hless := Setting.untouched_anti (w := w) hdeleted.spread.touched_subset
            obtain ⟨rest, claims₂, d₂, hrun₂, hout₂⟩ :=
              ih hrest hprogress fun hne => hless.trans_lt (hbound hne)
            rw [run_removeDependents_of_success hnone hlookup hrun hsuccess,
              Task.run_bind_of_ok hrun₂]
            refine ⟨⟨rest.complete, dep.counts r ++ rest.relations⟩, claims₂, d₂, rfl, ?_⟩
            exact hout₂.cons hdep hown h.gone_subset hhits hdeleted
        | refused hsuccess hforce hne hsession hbeyond =>
            rw [run_removeDependents_of_refusal hnone hlookup hrun hsuccess]
            refine ⟨⟨false, ⟨dep.table, r.count⟩ :: r.relations⟩, claims₁, d₁, rfl, ?_⟩
            refine .refused rfl hforce (by simp) hsession (hbeyond.mono Set.subset_union_left ?_)
            intro entries hclosed hsub
            refine Set.sdiff_subset.trans ?_
            exact Removed.hits_subset hdep hown (fun y hy => (hhits y).1 hy) hclosed hsub

/-! ## Levels -/

/-- What is in a set has gone or is in the rest of it. -/
theorem hits_subset_gone_union_sdiff (hits gone : Set Entry) : hits ⊆ gone ∪ hits \ gone := by
  rw [Set.union_sdiff_self]
  exact Set.subset_union_right

namespace Dao

/-- Narrowing a query to some of the rows that it selects takes nothing in that it did not select.
A table without a primary key keeps the query. -/
theorem hits_narrowed (hw : w.WellFormed) (hdao : dao ∈ w.daos) (hid : w.Identifies dao)
    {q : Query} (hq : q.Plain) {rows : List Row}
    (hrows : Setting.entries dao.tableName rows ⊆ w.hits dao q) :
    ((dao.keyScope? rows).getD q).Plain ∧
      Setting.entries dao.tableName rows ⊆ w.hits dao ((dao.keyScope? rows).getD q) ∧
      w.hits dao ((dao.keyScope? rows).getD q) ⊆ w.hits dao q := by
  cases hkey : dao.primaryKey with
  | none =>
      simp only [keyScope?, hkey, Option.map_none, Option.getD_none]
      exact ⟨hq, hrows, Set.Subset.rfl⟩
  | some key =>
      have hlive := hrows.trans (Setting.hits_subset_live hdao q)
      have hhits := Setting.hits_keyScope hw hdao hid hkey hlive
      simp only [keyScope?, hkey, Option.map_some, Option.getD_some]
      rw [keyValues] at hhits
      rw [hhits]
      exact ⟨plain_scopeQuery _ _, Set.Subset.rfl, hrows⟩

/-- The rows that a level reads are those that its query selects and that have not gone. -/
theorem run_doomed (hw : w.WellFormed) (hdriver : AnswersAsStore w.collation driver session)
    {tx : Context} {conn : Nat} (hconn : s.connection? tx = some conn) (hdao : dao ∈ w.daos)
    {q : Query} (hq : q.Plain) {touched gone : Set Entry}
    (h : Progress w claims (session d) touched gone) :
    ∃ o d', (execute (.rows (dao.scope q)) (some tx) : Task Claims Output).run driver claims s d =
        ((.ok o, claims), s, d') ∧ session d' = session d ∧
      Setting.entries dao.tableName o.rows = w.hits dao q \ gone := by
  obtain ⟨o, d', hanswer, hsession, hperm⟩ := hdriver.rows conn (dao.scope q) d hq
  refine ⟨o, d', ?_, hsession, ?_⟩
  · rw [run_execute hconn, hanswer]
  · ext ⟨table, row⟩
    constructor
    · rintro ⟨rfl, hrow⟩
      exact (h.leaves.mem_select hw hdao q row).1 (hperm.mem_iff.1 hrow)
    · rintro hx
      obtain rfl : table = dao.tableName := hx.1.1
      exact ⟨rfl, hperm.mem_iff.2 ((h.leaves.mem_select hw hdao q row).2 hx)⟩

/-- A level without dependents is its own delete. -/
theorem run_deleteLevel_of_leaf (hs : s.Serves w) (hleaf : w.dependents dao.tableName = [])
    (step : CascadeStep) (q : Query) (force : Bool) (tx : Context) :
    (dao.deleteLevel step q force tx).run driver claims s d =
      (dao.deleteRows q force [] tx).run driver claims s d := by
  rw [deleteLevel, Task.run_bind_of_ok Task.run_state, hs.dependents, hleaf]
  rfl

/-- A level without dependents has one of the outcomes of a delete. -/
theorem run_deleteLevel_leaf (hw : w.WellFormed)
    (hdriver : AnswersAsStore w.collation driver session) (hs : s.Serves w) {tx : Context}
    {conn : Nat} (hconn : s.connection? tx = some conn) {force : Bool} (step : CascadeStep)
    (hdao : dao ∈ w.daos) (hleaf : w.dependents dao.tableName = []) {q : Query} (hq : q.Plain)
    {touched gone : Set Entry} (h : Progress w claims (session d) touched gone) :
    ∃ r claims' d',
      (dao.deleteLevel step q force tx).run driver claims s d = ((.ok r, claims'), s, d') ∧
      Outcome w force touched gone (w.hits dao q \ gone) r claims' (session d') := by
  have hfresh : w.hits dao q \ gone ⊆ (w.hits dao q \ gone) \ touched := by
    rintro x ⟨hx, hgone⟩
    refine ⟨⟨hx, hgone⟩, fun htouched => hgone (h.leaf x htouched ?_)⟩
    rw [hx.1]
    exact hleaf
  have hnew : w.hits dao q \ gone = ∅ ∨ ((w.hits dao q \ gone) \ touched).Nonempty := by
    rcases (w.hits dao q \ gone).eq_empty_or_nonempty with hnone | hsome
    · exact .inl hnone
    · exact .inr (hsome.mono hfresh)
  have hremoved : Removed w force (touched ∪ w.hits dao q \ gone) gone
      (touched ∪ w.hits dao q \ gone) gone ((w.hits dao q \ gone) \ touched)
      (w.dependents dao.tableName) [] := by
    rw [hleaf]
    exact Removed.nil w force _ gone _
  obtain ⟨n, d', hcount, hrun⟩ := run_deleteRows hw hdriver hconn hdao hq h force []
  rw [if_neg (by simp)] at hrun
  obtain ⟨hrun, hprogress⟩ := hrun
  have hdeleted := Deleted.of_removed h.gone_subset (fun x hx => hx.1.1)
    (Set.sdiff_subset.trans Set.sdiff_subset) (hits_subset_gone_union_sdiff _ _) hnew
    (h.gone_subset.trans h.touched_subset) hremoved hcount fun _ => rfl
  rw [Set.union_assoc, Set.union_eq_self_of_subset_left Set.sdiff_subset] at hdeleted
  refine ⟨⟨true, n, []⟩, claims, d', ?_, .deleted rfl hprogress hdeleted⟩
  rw [run_deleteLevel_of_leaf hs hleaf, hrun]

/-- The end of a level, behind the removals of its dependents. -/
def afterRemoval (dao : Dao) (q : Query) (force : Bool) (tx : Context) (removal : Removal) :
    Task Claims DeleteResult :=
  if removal.complete then dao.deleteRows q force removal.relations tx
  else return ⟨false, 0, removal.relations⟩

/-- The end of a level has one of the outcomes of a delete. -/
theorem run_afterRemoval (hw : w.WellFormed)
    (hdriver : AnswersAsStore w.collation driver session) {tx : Context} {conn : Nat}
    (hconn : s.connection? tx = some conn) {force : Bool} (hdao : dao ∈ w.daos) {q : Query}
    (hq : q.Plain) {touched gone hit : Set Entry} (hgone : gone ⊆ touched)
    (htable : ∀ x ∈ hit, x.table = dao.tableName) (hfresh : hit \ touched ⊆ w.hits dao q)
    (hhits : w.hits dao q ⊆ gone ∪ hit) (hnew : hit = ∅ ∨ (hit \ touched).Nonempty)
    {removal : Removal}
    (hout : RemovalOutcome w force (touched ∪ hit) gone (hit \ touched)
      (w.dependents dao.tableName) removal claims (session d)) :
    ∃ r claims' d',
      (dao.afterRemoval q force tx removal).run driver claims s d = ((.ok r, claims'), s, d') ∧
      Outcome w force touched gone hit r claims' (session d') := by
  rw [afterRemoval]
  have hfound : ∀ entries, w.Closed entries → hit ⊆ entries → hit \ touched ⊆ entries :=
    fun _ _ hsub => Set.sdiff_subset.trans hsub
  cases hout with
  | @removed touched' gone' hcomplete hprogress hremoved =>
      rw [if_pos hcomplete]
      obtain ⟨n, d', hcount, hrun⟩ :=
        run_deleteRows hw hdriver hconn hdao hq hprogress force removal.relations
      by_cases hundo : (!force && removal.relations.any fun r => 0 < r.count) = true
      · rw [if_pos hundo] at hrun
        rw [Bool.and_eq_true, Bool.not_eq_true'] at hundo
        have hne : removal.relations ≠ [] := by
          intro hnil
          simp [hnil] at hundo
        refine ⟨_, claims, d', hrun.1, .refused rfl hundo.1 hne hrun.2 ?_⟩
        exact (hremoved.beyond hundo.1 hne).mono Set.Subset.rfl hfound
      · rw [if_neg hundo] at hrun
        have hforce : force = false → removal.relations = [] := by
          intro hforce
          by_contra hne
          obtain ⟨c, hc⟩ := List.exists_mem_of_ne_nil _ hne
          refine hundo ?_
          rw [hforce, Bool.not_false, Bool.true_and, List.any_eq_true]
          exact ⟨c, hc, by simpa using hremoved.unforced hforce c hc⟩
        refine ⟨_, claims, d', hrun.1, .deleted rfl hrun.2 ?_⟩
        exact Deleted.of_removed hgone htable hfresh hhits hnew
          (hprogress.gone_subset.trans hprogress.touched_subset) hremoved hcount hforce
  | refused hcomplete hforce hne hsession hbeyond =>
      rw [if_neg (by simp [hcomplete])]
      refine ⟨_, claims, d, rfl, .refused rfl hforce hne hsession ?_⟩
      exact hbeyond.mono Set.Subset.rfl hfound

/-- How a level with dependents starts, whatever its dependents do and whether it is forced: all
rows that it finds have been claimed by others and it is done, or it goes on with the dependents of
the rows that it claimed and with a query that selects these. -/
inductive Starts (driver : Driver δ) (session : δ → Session) (w : Setting) (s : State)
    (claims : Claims) (d : δ) (dao : Dao) (q : Query) (tx : Context) (touched gone : Set Entry) : Prop
  | left {claims' : Claims} {d' : δ} :
      (∀ step force, (dao.deleteLevel step q force tx).run driver claims s d =
        ((.ok ⟨true, 0, []⟩, claims'), s, d')) →
      Progress w claims' (session d') (touched ∪ w.hits dao q \ gone) gone →
      w.hits dao q \ gone ⊆ touched → Starts driver session w s claims d dao q tx touched gone
  | found {rows : List Row} {q' : Query} {claims' : Claims} {d' : δ} :
      (∀ step force, (dao.deleteLevel step q force tx).run driver claims s d =
        (removeDependents step rows (w.dependents dao.tableName) >>=
          dao.afterRemoval q' force tx).run driver claims' s d') →
      Progress w claims' (session d') (touched ∪ w.hits dao q \ gone) gone →
      Setting.entries dao.tableName rows = (w.hits dao q \ gone) \ touched → q'.Plain →
      (w.hits dao q \ gone) \ touched ⊆ w.hits dao q' → w.hits dao q' ⊆ w.hits dao q →
      (w.hits dao q \ gone = ∅ ∨ rows ≠ []) →
      Starts driver session w s claims d dao q tx touched gone

/-- A level with dependents reads its rows and claims them. -/
theorem starts (hw : w.WellFormed) (hdriver : AnswersAsStore w.collation driver session)
    (hs : s.Serves w) {tx : Context} {conn : Nat} (hconn : s.connection? tx = some conn)
    (hdao : dao ∈ w.daos) (hleaf : w.dependents dao.tableName ≠ []) {q : Query} (hq : q.Plain)
    {touched gone : Set Entry} (h : Progress w claims (session d) touched gone) :
    Starts driver session w s claims d dao q tx touched gone := by
  obtain ⟨o, d₁, hread, hd₁, hdoomed⟩ := run_doomed hw hdriver hconn hdao hq h
  have hrows : ∀ row ∈ o.rows, ⟨dao.tableName, row⟩ ∈ w.live \ gone := by
    intro row hrow
    have hmem : (⟨dao.tableName, row⟩ : Entry) ∈ w.hits dao q \ gone := by
      rw [← hdoomed]
      exact ⟨rfl, hrow⟩
    exact ⟨Setting.hits_subset_live hdao q hmem.1, hmem.2⟩
  have hclaim := h.claim hw hdao hleaf hrows
  have hid := hw.identifies dao hdao hleaf
  have hfresh := h.entries_freshRows hdao hid hrows
  rw [hdoomed] at hfresh
  rw [hdoomed, ← hd₁] at hclaim
  have hsub : Setting.entries dao.tableName (dao.freshRows claims o.rows) ⊆ w.hits dao q := by
    rw [hfresh]
    exact Set.sdiff_subset.trans Set.sdiff_subset
  have hlevel : ∀ step force, (dao.deleteLevel step q force tx).run driver claims s d =
      (if !decide ((dao.freshRows claims o.rows).length = o.rows.length) &&
          (dao.freshRows claims o.rows).isEmpty then return ⟨true, 0, []⟩
        else removeDependents step (dao.freshRows claims o.rows) (w.dependents dao.tableName) >>=
          dao.afterRemoval (if (dao.freshRows claims o.rows).length = o.rows.length then q
            else (dao.keyScope? (dao.freshRows claims o.rows)).getD q) force tx :
        Task Claims DeleteResult).run driver (dao.claimsAfter claims o.rows) s d₁ := by
    intro step force
    rw [deleteLevel, Task.run_bind_of_ok Task.run_state, hs.dependents]
    simp only [List.isEmpty_iff, hleaf, if_false]
    rw [Task.run_bind_of_ok hread, Task.run_bind_of_ok (run_claimRows dao claims o.rows)]
    rfl
  by_cases hleft : (!decide ((dao.freshRows claims o.rows).length = o.rows.length) &&
      (dao.freshRows claims o.rows).isEmpty) = true
  · have hnone : dao.freshRows claims o.rows = [] := by
      rw [Bool.and_eq_true, List.isEmpty_iff] at hleft
      exact hleft.2
    rw [hnone, (Setting.entries_eq_empty _).2 rfl] at hfresh
    refine .left (fun step force => ?_) hclaim (Set.sdiff_eq_empty.1 hfresh.symm)
    rw [hlevel, if_pos hleft, Task.run_pure]
  · have hnew : w.hits dao q \ gone = ∅ ∨ dao.freshRows claims o.rows ≠ [] := by
      rw [← hdoomed, Setting.entries_eq_empty]
      by_contra hneither
      rw [not_or, not_not] at hneither
      have hlength : o.rows.length ≠ 0 :=
        fun hzero => hneither.1 (List.eq_nil_of_length_eq_zero hzero)
      refine hleft ?_
      simp [hneither.2, hlength.symm]
    by_cases hall : (dao.freshRows claims o.rows).length = o.rows.length
    · refine .found (fun step force => ?_) hclaim hfresh hq (hfresh ▸ hsub) Set.Subset.rfl hnew
      rw [hlevel, if_neg hleft, if_pos hall]
    · obtain ⟨hplain, hkeep, hwiden⟩ := hits_narrowed hw hdao hid hq hsub
      refine .found (fun step force => ?_) hclaim hfresh hplain (hfresh ▸ hkeep) hwiden hnew
      rw [hlevel, if_neg hleft, if_neg hall]

/-- A level that claims rows leaves fewer untouched. -/
theorem untouched_claimed_lt (hdao : dao ∈ w.daos) {q : Query} {touched gone : Set Entry}
    {rows : List Row} (hrows : Setting.entries dao.tableName rows = (w.hits dao q \ gone) \ touched)
    {bound : Nat} (hbound : w.untouched touched ≤ bound) (hsome : rows ≠ []) :
    w.untouched (touched ∪ w.hits dao q \ gone) < bound := by
  rw [← Setting.entries_nonempty dao.tableName, hrows] at hsome
  have hlive : w.hits dao q \ gone ⊆ w.live :=
    Set.sdiff_subset.trans (Setting.hits_subset_live hdao q)
  exact (Setting.untouched_union_lt hlive hsome).trans_le hbound

/-- A level has one of the outcomes of a delete, given that the level below has. -/
theorem run_deleteLevel (hw : w.WellFormed) (hdriver : AnswersAsStore w.collation driver session)
    (hs : s.Serves w) {tx : Context} {conn : Nat} (hconn : s.connection? tx = some conn)
    {force : Bool} {bound : Nat} {step : CascadeStep}
    (hstep : Cascades driver session w s force bound step) (hdao : dao ∈ w.daos) {q : Query}
    (hq : q.Plain) {touched gone : Set Entry}
    (h : Progress w claims (session d) touched gone) (hbound : w.untouched touched ≤ bound) :
    ∃ r claims' d',
      (dao.deleteLevel step q force tx).run driver claims s d = ((.ok r, claims'), s, d') ∧
      Outcome w force touched gone (w.hits dao q \ gone) r claims' (session d') := by
  by_cases hleaf : w.dependents dao.tableName = []
  · exact run_deleteLevel_leaf hw hdriver hs hconn step hdao hleaf hq h
  cases starts hw hdriver hs hconn hdao hleaf hq h with
  | left hrun hclaim htouched =>
      exact ⟨_, _, _, hrun step force, .deleted rfl hclaim (Deleted.nothing htouched)⟩
  | @found rows q' _ _ hrun hclaim hrows hplain hkeep hwiden hnew =>
      obtain ⟨removal, claims₂, d₂, hremove, hout⟩ :=
        run_removeDependents hw hs hstep dao.tableName (w.dependents dao.tableName)
          (fun dep hdep => hdep) hclaim (untouched_claimed_lt hdao hrows hbound)
      rw [hrows] at hout
      rw [← Setting.entries_nonempty dao.tableName, hrows] at hnew
      rw [hrun step force, Task.run_bind_of_ok hremove]
      exact run_afterRemoval hw hdriver hconn hdao hplain h.gone_subset (fun x hx => hx.1.1) hkeep
        (hwiden.trans (hits_subset_gone_union_sdiff (w.hits dao q) gone)) hnew hout

end Dao

/-! ## Cascades -/

/-- A cascade that may go as deep as there are untouched live rows has one of the outcomes of a
delete. -/
theorem DeleteOperation.run_cascade (hw : w.WellFormed)
    (hdriver : AnswersAsStore w.collation driver session) (hs : s.Serves w) {tx : Context}
    {conn : Nat} (hconn : s.connection? tx = some conn) (force : Bool) (levels : Nat) :
    Cascades driver session w s force levels fun delete q =>
      delete.cascade levels q force (some tx) := by
  induction levels with
  | zero =>
      intro dao hdao q hq claims d touched gone h hbound
      exact absurd hbound (Nat.not_lt_zero _)
  | succ levels ih =>
      intro dao hdao q hq claims d touched gone h hbound
      simp only [cascade, transaction_some]
      exact Dao.run_deleteLevel hw hdriver hs hconn ih hdao hq h (Nat.le_of_lt_succ hbound)

end Persistence
