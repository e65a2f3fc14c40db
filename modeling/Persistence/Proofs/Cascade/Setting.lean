import Persistence.Proofs.Cascade.Asking
import Persistence.Proofs.Cascade.Claims

/-!
# The setting of a cascade

What a cascade is about: the access objects of some tables, the dependents of each table, and the
rows in the tables when the cascade starts.  Rows of different tables are told apart by the table
that they are an entry of.  A row refers to another one when it depends on it through a cascading
foreign key, and a set of entries is closed when it has every live row that refers to one of them.

`Setting.Leaves` says what a store is when exactly some entries have gone from it: rows of soft
delete tables are still there with their delete values, other rows are removed, and everything
else is as it was.

Main results:

- `Setting.Leaves.select`: the rows that a scope selects in what is left.
- `Setting.Leaves.remove`, `Setting.Leaves.flag`: what is left behind a delete.
- `Setting.count_union_hits`: how many rows a delete takes.
-/

namespace Persistence

/-- A row of a table. -/
@[ext]
structure Entry where
  table : String
  row : Row

open Classical in
/-- Whether a row of a table is an entry of a set. -/
noncomputable def isEntry (entries : Set Entry) (table : String) (row : Row) : Bool :=
  decide (⟨table, row⟩ ∈ entries)

@[simp]
theorem isEntry_eq_true {entries : Set Entry} {table : String} {row : Row} :
    isEntry entries table row = true ↔ ⟨table, row⟩ ∈ entries := by
  simp [isEntry]

@[simp]
theorem isEntry_eq_false {entries : Set Entry} {table : String} {row : Row} :
    isEntry entries table row = false ↔ ⟨table, row⟩ ∉ entries := by
  simp [isEntry]

/-! ## Rows that are gone -/

namespace Dao

/-- Whether a row is what a soft delete makes of another one. -/
def Flags (k : Collation) (dao : Dao) (row flagged : Row) : Prop :=
  ∃ sets, DeleteSets dao.table.columns sets ∧ flagged = row.assign k sets

/-- What is left of the rows of a table when exactly the rows in `gone` have been deleted. -/
inductive Leaves (k : Collation) (dao : Dao) (gone : Row → Prop) : List Row → List Row → Prop
  | nil : Leaves k dao gone [] []
  | kept {row : Row} {before after : List Row} :
      ¬gone row → Leaves k dao gone before after → Leaves k dao gone (row :: before) (row :: after)
  | removed {row : Row} {before after : List Row} :
      gone row → dao.table.softDelete = false → Leaves k dao gone before after →
        Leaves k dao gone (row :: before) after
  | flagged {row flagged : Row} {before after : List Row} :
      gone row → dao.table.softDelete = true → dao.Flags k row flagged →
        Leaves k dao gone before after → Leaves k dao gone (row :: before) (flagged :: after)

/-- The object looks at its table as the table wants to be deleted from. -/
structure Coherent (dao : Dao) : Prop where
  softDelete : dao.target.softDelete = dao.table.softDelete
  flag : dao.table.softDelete = true →
    ∃ columns, dao.table.columns = columns ++ [Column.softDeleteFlag]

variable {k : Collation} {dao : Dao} {gone : Row → Prop} {before after : List Row}

theorem isLive_of_flags (h : dao.Coherent) (hsoft : dao.table.softDelete = true) {row flagged : Row}
    (hflags : dao.Flags k row flagged) : flagged.isLive k = false := by
  obtain ⟨sets, hsets, rfl⟩ := hflags
  obtain ⟨columns, hcolumns⟩ := h.flag hsoft
  rw [hcolumns] at hsets
  obtain ⟨front, rfl⟩ := hsets.exists_append_flag
  exact Row.isLive_assign_flag k row front

/-- A flagged row is out of sight. -/
theorem selects_of_flags (h : dao.Coherent) (hsoft : dao.table.softDelete = true)
    {row flagged : Row} (hflags : dao.Flags k row flagged) (q : Query) :
    (dao.scope q).selects k flagged = false := by
  simp [Scope.selects, Target.sees, scope, h.softDelete, hsoft, isLive_of_flags h hsoft hflags]

namespace Leaves

/-- Nothing has gone from the rows themselves. -/
theorem refl (k : Collation) (dao : Dao) (rows : List Row) :
    Leaves k dao (fun _ => False) rows rows := by
  induction rows with
  | nil => exact .nil
  | cons row rows ih => exact .kept not_false ih

/-- Only the rows that were there matter. -/
theorem congr {gone' : Row → Prop} (h : Leaves k dao gone before after)
    (hiff : ∀ row ∈ before, gone row ↔ gone' row) : Leaves k dao gone' before after := by
  induction h with
  | nil => exact .nil
  | kept hrow _ ih =>
      obtain ⟨hfirst, hrest⟩ := List.forall_mem_cons.1 hiff
      exact .kept (fun h => hrow (hfirst.2 h)) (ih hrest)
  | removed hrow hsoft _ ih =>
      obtain ⟨hfirst, hrest⟩ := List.forall_mem_cons.1 hiff
      exact .removed (hfirst.1 hrow) hsoft (ih hrest)
  | flagged hrow hsoft hflags _ ih =>
      obtain ⟨hfirst, hrest⟩ := List.forall_mem_cons.1 hiff
      exact .flagged (hfirst.1 hrow) hsoft hflags (ih hrest)

open Classical in
/-- The rows that a scope selects in what is left. -/
theorem select (hco : dao.Coherent) (h : Leaves k dao gone before after) (q : Query) :
    after.filter ((dao.scope q).selects k) =
      before.filter fun row => (dao.scope q).selects k row && !decide (gone row) := by
  induction h with
  | nil => rfl
  | kept hrow _ ih => simp [List.filter_cons, hrow, ih]
  | removed hrow _ _ ih => simp [hrow, ih]
  | flagged hrow hsoft hflags _ ih =>
      simp [hrow, ih, selects_of_flags hco hsoft hflags]

open Classical in
/-- Where deletion is not soft, the rows that have not gone are left. -/
theorem eq_filter (hsoft : dao.table.softDelete = false) (h : Leaves k dao gone before after) :
    after = before.filter fun row => !decide (gone row) := by
  induction h with
  | nil => rfl
  | kept hrow _ ih =>
      rw [List.filter_cons_of_pos (by simp [hrow]), ← ih]
  | removed hrow _ _ ih =>
      rw [List.filter_cons_of_neg (by simp [hrow]), ← ih]
  | flagged _ hsoft' _ _ _ => simp [hsoft] at hsoft'

/-- What is left behind a delete that removes. -/
theorem remove (hsoft : dao.table.softDelete = false) (h : Leaves k dao gone before after)
    (q : Query) :
    Leaves k dao (fun row => gone row ∨ (dao.scope q).selects k row = true) before
      (after.filter fun row => !(dao.scope q).selects k row) := by
  induction h with
  | nil => exact .nil
  | @kept row _ _ hrow _ ih =>
      cases hsel : (dao.scope q).selects k row with
      | true =>
          rw [List.filter_cons_of_neg (by simp [hsel])]
          exact .removed (.inr hsel) hsoft ih
      | false =>
          rw [List.filter_cons_of_pos (by simp [hsel])]
          exact .kept (by simp [hrow, hsel]) ih
  | removed hrow _ _ ih => exact .removed (.inl hrow) hsoft ih
  | flagged _ hsoft' _ _ _ => simp [hsoft] at hsoft'

/-- What is left behind a delete that flags. -/
theorem flag (hco : dao.Coherent) (hsoft : dao.table.softDelete = true)
    (h : Leaves k dao gone before after) (q : Query) {sets : List (String × Value)}
    (hsets : DeleteSets dao.table.columns sets) :
    Leaves k dao (fun row => gone row ∨ (dao.scope q).selects k row = true) before
      (after.map fun row => if (dao.scope q).selects k row then row.assign k sets else row) := by
  induction h with
  | nil => exact .nil
  | @kept row _ _ hrow _ ih =>
      cases hsel : (dao.scope q).selects k row with
      | true =>
          rw [List.map_cons, hsel, if_pos rfl]
          exact .flagged (.inr hsel) hsoft ⟨sets, hsets, rfl⟩ ih
      | false =>
          rw [List.map_cons, hsel, if_neg (by simp)]
          exact .kept (by simp [hrow, hsel]) ih
  | removed _ hsoft' _ _ => simp [hsoft] at hsoft'
  | @flagged _ _ _ _ hrow _ hflags _ ih =>
      rw [List.map_cons, selects_of_flags hco hsoft hflags q, if_neg (by simp)]
      exact .flagged (.inl hrow) hsoft hflags ih

end Leaves

end Dao

/-! ## Settings -/

/-- The access objects of some tables, the dependents of each table, and the rows at the start. -/
structure Setting where
  collation : Collation
  daos : List Dao
  dependents : String → List Dependent
  start : Store

namespace Setting

/-- The rows that are in sight at the start. -/
def live (w : Setting) : Set Entry :=
  {x | ∃ dao ∈ w.daos, dao.tableName = x.table ∧ x.row ∈ w.start x.table ∧
    dao.target.sees w.collation x.row = true}

/-- A row refers to another one by the property of a dependent: the cell of the property equals the
target column, which is not null. -/
def RefersBy (w : Setting) (dep : Dependent) (y x : Entry) : Prop :=
  y.table = dep.table ∧ ∃ dao ∈ w.daos, dao.tableName = dep.table ∧
    ∃ j, presentValue? x.row dep.targetColumn = some j ∧
      w.collation.equal (y.row.cell (dao.target.mapping.columnName dep.property))
        (Value.ofJson j) = true

/-- A row refers to another one by a dependent of its table. -/
def Refers (w : Setting) (y x : Entry) : Prop :=
  ∃ dep ∈ w.dependents x.table, w.RefersBy dep y x

/-- A set of entries that has every live row that refers to one of them. -/
def Closed (w : Setting) (entries : Set Entry) : Prop :=
  ∀ x ∈ entries, ∀ y ∈ w.live, w.Refers y x → y ∈ entries

/-- The rows that a query selects at the start. -/
def hits (w : Setting) (dao : Dao) (q : Query) : Set Entry :=
  {x | x.table = dao.tableName ∧ x.row ∈ w.start x.table ∧
    (dao.scope q).selects w.collation x.row = true}

/-- The primary key of a table, if it has one, tells its live rows apart: a row equals the key of
another one only if it is that row. -/
def Identifies (w : Setting) (dao : Dao) : Prop :=
  ∀ key, dao.primaryKey = some key → ∀ row other, ⟨dao.tableName, row⟩ ∈ w.live →
    ⟨dao.tableName, other⟩ ∈ w.live →
      (w.collation.equal (row.cell key.column) (Value.ofJson (other.cell key.column)) = true ↔
        row = other)

/-- The access objects fit together: each table has one, it is coherent, and where rows are claimed
the key identifies them. -/
structure WellFormed (w : Setting) : Prop where
  tables : (w.daos.map Dao.tableName).Nodup
  coherent : ∀ dao ∈ w.daos, dao.Coherent
  keyColumn : ∀ dao ∈ w.daos, ∀ key, dao.primaryKey = some key →
    dao.target.mapping.columnName key.property = key.column
  identifies : ∀ dao ∈ w.daos, w.dependents dao.tableName ≠ [] → w.Identifies dao

/-- What a store is when exactly the entries in `gone` have been deleted from the start. -/
structure Leaves (w : Setting) (gone : Set Entry) (store : Store) : Prop where
  table : ∀ dao ∈ w.daos, dao.Leaves w.collation (fun row => ⟨dao.tableName, row⟩ ∈ gone)
    (w.start dao.tableName) (store dao.tableName)
  other : ∀ table, (∀ dao ∈ w.daos, dao.tableName ≠ table) → store table = w.start table

variable {w : Setting}

/-- The access object of a table is the only one. -/
theorem WellFormed.dao_eq (hw : w.WellFormed) {dao dao' : Dao} (h : dao ∈ w.daos)
    (h' : dao' ∈ w.daos) (heq : dao.tableName = dao'.tableName) : dao = dao' :=
  List.inj_on_of_nodup_map hw.tables h h' heq

theorem hits_subset_live {dao : Dao} (hdao : dao ∈ w.daos) (q : Query) : w.hits dao q ⊆ w.live := by
  rintro x ⟨htable, hrow, hsel⟩
  refine ⟨dao, hdao, htable.symm, hrow, ?_⟩
  rw [Scope.selects, Bool.and_eq_true] at hsel
  exact hsel.1

/-- Nothing has gone from the start itself. -/
theorem leaves_start (w : Setting) : w.Leaves ∅ w.start where
  table dao _ := (Dao.Leaves.refl w.collation dao _).congr (by simp)
  other _ _ := rfl

/-- The rows that a scope selects in what is left. -/
theorem Leaves.select (hw : w.WellFormed) {gone : Set Entry} {store : Store}
    (h : w.Leaves gone store) {dao : Dao} (hdao : dao ∈ w.daos) (q : Query) :
    store.select w.collation (dao.scope q) =
      (w.start dao.tableName).filter fun row =>
        (dao.scope q).selects w.collation row && !isEntry gone dao.tableName row :=
  (h.table dao hdao).select (hw.coherent dao hdao) q

/-- A row is selected in what is left if it was selected at the start and has not gone. -/
theorem Leaves.mem_select (hw : w.WellFormed) {gone : Set Entry} {store : Store}
    (h : w.Leaves gone store) {dao : Dao} (hdao : dao ∈ w.daos) (q : Query) (row : Row) :
    row ∈ store.select w.collation (dao.scope q) ↔
      ⟨dao.tableName, row⟩ ∈ w.hits dao q ∧ ⟨dao.tableName, row⟩ ∉ gone := by
  rw [h.select hw hdao, List.mem_filter]
  simp [hits, and_assoc]

theorem mem_union_hits {gone : Set Entry} {dao : Dao} {q : Query} {row : Row}
    (hrow : row ∈ w.start dao.tableName) :
    ⟨dao.tableName, row⟩ ∈ gone ∪ w.hits dao q ↔
      ⟨dao.tableName, row⟩ ∈ gone ∨ (dao.scope q).selects w.collation row = true := by
  simp [hits, hrow]

/-- Entries of another table are not selected. -/
theorem mem_union_hits_of_ne {gone : Set Entry} {dao : Dao} {q : Query} {x : Entry}
    (hne : x.table ≠ dao.tableName) : x ∈ gone ∪ w.hits dao q ↔ x ∈ gone := by
  simp [hits, hne]

/-- A change of one table leaves the entries of the others. -/
theorem Leaves.of_table (hw : w.WellFormed) {gone : Set Entry} {store store' : Store}
    (h : w.Leaves gone store) {dao : Dao} (hdao : dao ∈ w.daos) (q : Query)
    (hother : ∀ table, table ≠ dao.tableName → store' table = store table)
    (htable : dao.Leaves w.collation
      (fun row => ⟨dao.tableName, row⟩ ∈ gone ∨ (dao.scope q).selects w.collation row = true)
      (w.start dao.tableName) (store' dao.tableName)) :
    w.Leaves (gone ∪ w.hits dao q) store' where
  table dao' hdao' := by
    by_cases heq : dao'.tableName = dao.tableName
    · obtain rfl := hw.dao_eq hdao' hdao heq
      exact htable.congr fun row hrow => (mem_union_hits hrow).symm
    · rw [hother _ heq]
      exact (h.table dao' hdao').congr fun row _ =>
        (mem_union_hits_of_ne (x := ⟨dao'.tableName, row⟩) heq).symm
  other table htable := by
    rw [hother table fun heq => htable dao hdao heq.symm]
    exact h.other table htable

/-- What is left behind a delete that removes. -/
theorem Leaves.remove (hw : w.WellFormed) {gone : Set Entry} {store : Store}
    (h : w.Leaves gone store) {dao : Dao} (hdao : dao ∈ w.daos)
    (hsoft : dao.table.softDelete = false) (q : Query) :
    w.Leaves (gone ∪ w.hits dao q) (store.remove w.collation (dao.scope q)) := by
  refine h.of_table hw hdao q (fun table hne => Store.remove_of_ne _ _ _ hne) ?_
  have hself := Store.remove_self w.collation (dao.scope q) store
  rw [show (dao.scope q).table = dao.tableName from rfl] at hself
  rw [hself]
  exact (h.table dao hdao).remove hsoft q

/-- What is left behind a delete that flags. -/
theorem Leaves.flag (hw : w.WellFormed) {gone : Set Entry} {store : Store}
    (h : w.Leaves gone store) {dao : Dao} (hdao : dao ∈ w.daos)
    (hsoft : dao.table.softDelete = true) (q : Query) {sets : List (String × Value)}
    (hsets : DeleteSets dao.table.columns sets) :
    w.Leaves (gone ∪ w.hits dao q) (store.flag w.collation (dao.scope q) sets) := by
  refine h.of_table hw hdao q (fun table hne => Store.flag_of_ne _ _ _ _ hne) ?_
  have hself := Store.flag_self w.collation (dao.scope q) sets store
  rw [show (dao.scope q).table = dao.tableName from rfl] at hself
  rw [hself]
  exact (h.table dao hdao).flag (hw.coherent dao hdao) hsoft q hsets

/-! ## Counting -/

/-- The number of rows at the start that are entries of a set. -/
noncomputable def count (w : Setting) (entries : Set Entry) : Nat :=
  (w.daos.map fun dao => (w.start dao.tableName).countP (isEntry entries dao.tableName)).sum

private theorem countP_or {α : Type} (p q : α → Bool) (l : List α) :
    l.countP (fun a => p a || q a) = l.countP p + l.countP fun a => q a && !p a := by
  induction l with
  | nil => rfl
  | cons a l ih =>
      rw [List.countP_cons, List.countP_cons, List.countP_cons, ih]
      cases p a <;> cases q a <;> simp <;> omega

/-- Rows are counted once, by what they join. -/
theorem count_union (w : Setting) (entries more : Set Entry) :
    w.count (entries ∪ more) = w.count entries + w.count (more \ entries) := by
  rw [count, count, count, ← List.sum_map_add]
  refine congrArg List.sum (List.map_congr_left fun dao _ => ?_)
  rw [← List.countP_congr (p := fun row => isEntry entries dao.tableName row ||
    isEntry more dao.tableName row) (fun row _ => by simp), countP_or]
  congr 1
  exact List.countP_congr fun row _ => by simp

/-- Without rows there is none of them at the start. -/
theorem not_mem_live_of_count_eq_zero {entries : Set Entry} (h : w.count entries = 0) {x : Entry}
    (hx : x ∈ entries) : x ∉ w.live := by
  rintro ⟨dao, hdao, htable, hrow, -⟩
  have hterm := List.sum_eq_zero_iff.1 h _ (List.mem_map_of_mem hdao)
  have hnone := List.countP_eq_zero.1 hterm x.row (by rwa [htable])
  rw [htable] at hnone
  exact hnone (isEntry_eq_true.2 hx)

/-- As many rows are as many entries. -/
theorem subset_of_count_eq {entries more : Set Entry} (hsub : entries ⊆ more)
    (hlive : more ⊆ w.live) (h : w.count more = w.count entries) : more ⊆ entries := by
  intro x hx
  by_contra hnot
  have hcount := w.count_union entries more
  rw [Set.union_eq_self_of_subset_left hsub, h] at hcount
  have hzero : w.count (more \ entries) = 0 := by omega
  exact not_mem_live_of_count_eq_zero hzero ⟨hx, hnot⟩ (hlive hx)

/-- A delete takes as many rows as its scope selects. -/
theorem count_union_hits (hw : w.WellFormed) {gone : Set Entry} {store : Store}
    (h : w.Leaves gone store) {dao : Dao} (hdao : dao ∈ w.daos) (q : Query) :
    w.count (gone ∪ w.hits dao q) =
      w.count gone + (store.select w.collation (dao.scope q)).length := by
  classical
  have hother : ∀ dao', dao' ≠ dao → dao' ∈ w.daos →
      (w.start dao'.tableName).countP (isEntry (w.hits dao q \ gone) dao'.tableName) = 0 := by
    intro dao' hne hdao'
    have htable : dao'.tableName ≠ dao.tableName := fun heq => hne (hw.dao_eq hdao' hdao heq)
    simp [hits, htable]
  rw [count_union, h.select hw hdao, count.eq_def w (w.hits dao q \ gone),
    List.sum_map_eq_nsmul_single dao _ hother,
    List.count_eq_one_of_mem (List.Nodup.of_map _ hw.tables) hdao, one_smul,
    ← List.countP_eq_length_filter]
  congr 1
  refine List.countP_congr fun row hrow => ?_
  simp [hits, hrow]

end Setting

end Persistence
