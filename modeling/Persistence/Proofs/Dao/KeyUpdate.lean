import Persistence.Proofs.Cascade.Narrowing
import Persistence.Proofs.Dao.Assigning
import Persistence.Proofs.Query.Building

/-!
# Updates by a primary key

The condition of an update by a primary key is about the first column of the key, and the columns
that it assigns are the others.  With one column this is one row, of which the key is left alone.
With more, the rest of the key is assigned like any other column and plays no part in the condition,
so that all rows with the same first column are taken for the row that is written.

Main results:

- `Dao.keyScope_eq`, `Dao.holds_keyCondition`: the condition, as text and for rows.
- `Writing.exchanges_byKey`: what an update by a primary key sends.
- `Dao.disjoint_primaryKeys_iff`: the properties with which an update leaves the key alone.
- `Dao.updates_one_iff`: the primary keys by which updates are about one row.
-/

namespace Persistence

open Sql

variable {e : Entity} {dao : Dao} {key : KeyColumn}

/-! ## The condition -/

namespace Dao

/-- The condition of an update by a primary key, as a query for columns. -/
def keyCondition (dao : Dao) (key : KeyColumn) (v : Value) : Query :=
  { Query.empty with
    links := .condition (.compare .eq key.column v) ::
      if dao.table.softDelete then
        [.connector .and, .condition (.compare .eq softDeleteColumn (.int 0))]
      else [] }

/-- The text of the condition. -/
theorem keyScope_eq (dao : Dao) (key : KeyColumn) (v : Value) :
    dao.keyScope key v = " where " ++ (dao.keyCondition key v).whereText Mapping.empty := by
  have hkey : (Condition.compare .eq key.column v).text Mapping.empty =
      key.column ++ " = " ++ v.literal := Query.text_compare_eq _ _ _
  have hflag : (Condition.compare .eq softDeleteColumn (.int 0)).text Mapping.empty =
      softDeleteColumn ++ " = 0" := rfl
  have hand : " " ++ (Connector.and.text ++ (" " ++ (softDeleteColumn ++ " = 0"))) =
      " and " ++ (softDeleteColumn ++ " = 0") := rfl
  rw [keyScope, keyCondition, Query.whereText, liveAnd]
  split
  · simp only [fragments, joinFragments, hkey, hflag, String.append_assoc, hand]
  · simp only [fragments, joinFragments, hkey, String.append_assoc, String.append_empty]

/-- The rows that the condition is about: those with the value in the column of the key that have
not been deleted. -/
theorem holds_keyCondition (dao : Dao) (key : KeyColumn) (v : Value) (k : Collation) (row : Row) :
    (dao.keyCondition key v).holds k Mapping.empty row = true ↔
      k.equal (row.cell key.column) v = true ∧
        (dao.table.softDelete = true → row.isLive k = true) := by
  have hequal : ∀ column w, (Condition.compare .eq column w).holds k Mapping.empty row =
      k.equal (row.cell column) w := by
    intro column w
    show (k.order (row.cell column) w).any Comparison.eq.accepts = _
    rw [Collation.equal]
    cases k.order (row.cell column) w <;> rfl
  rw [Query.holds, keyCondition]
  cases dao.table.softDelete with
  | true => simp [truths, joinTruths, anyGroup, hequal, Row.isLive]
  | false => simp [truths, joinTruths, anyGroup, hequal]

/-! ## The columns of the key -/

/-- The columns of the primary key of the table, all of them. -/
def declaredKey (dao : Dao) : List Column :=
  dao.table.propertyColumns.filter fun c => c.name ∈ dao.table.primaryKeys

/-- The value that the column of a key takes from an object. -/
def TakesKey (dao : Dao) (key : KeyColumn) (object : Json) (v : Value) : Prop :=
  ∃ c, dao.KeepsKey key c ∧ TakesRow [c] object [v]

end Dao

/-- The names of the primary key are those of its columns. -/
theorem IsDaoOf.primaryKeys (hof : IsDaoOf e dao) :
    dao.table.primaryKeys = e.keyColumns.map fun pc => pc.2.name := by
  obtain ⟨t, lookup, codec, ht, rfl⟩ := hof
  obtain ⟨spec, -, rfl⟩ := Option.map_eq_some_iff.1 ht
  rfl

namespace Dao

/-- The column of a key is the one with its name. -/
theorem declaredKey_eq_singleton (hof : IsDaoOf e dao) (hapart : e.ToldApart) {c : Column}
    (hc : dao.KeepsKey key c) (hone : dao.table.primaryKeys = [key.column]) :
    dao.declaredKey = [c] := by
  rw [declaredKey, ← filter_eq_singleton_of_nodup Column.name (hof.nodup_names hapart) hc.mem]
  refine List.filter_congr fun b _ => ?_
  simp only [hone, hc.name, List.mem_singleton]

/-- The first column of the primary key is the one that updates work with. -/
theorem exists_keyColumns (hof : IsDaoOf e dao) (hkey : dao.primaryKey = some key) :
    ∃ first rest, e.keyColumns = first :: rest ∧ key = ⟨first.1.key, first.2.name⟩ := by
  have hfirst := hof.primaryKey.symm.trans hkey
  rw [← e.head?_keyColumns] at hfirst
  obtain ⟨first, hhead, rfl⟩ := Option.map_eq_some_iff.1 hfirst
  obtain ⟨rest, hrest⟩ := List.head?_eq_some_iff.1 hhead
  exact ⟨first, rest, hrest, rfl⟩

/-- A primary key has one column if there is none behind the first. -/
theorem primaryKeys_eq_singleton_iff (hof : IsDaoOf e dao) (hkey : dao.primaryKey = some key) :
    dao.table.primaryKeys = [key.column] ↔ e.keyColumns.tail = [] := by
  obtain ⟨first, rest, hcolumns, rfl⟩ := exists_keyColumns hof hkey
  rw [hof.primaryKeys, hcolumns]
  simp

/-- An update leaves the columns of the primary key alone if it names none of the properties behind
the first. -/
theorem disjoint_primaryKeys_iff (hof : IsDaoOf e dao) (hapart : e.ToldApart)
    (hkey : dao.primaryKey = some key) (part : Option (List String)) :
    (dao.assignedNames part).Disjoint dao.table.primaryKeys ↔
      ∀ pc ∈ e.keyColumns.tail, ∃ properties ∈ part, pc.1.key ∉ properties := by
  obtain ⟨first, rest, hcolumns, rfl⟩ := exists_keyColumns hof hkey
  have hmem : ∀ pc ∈ first :: rest, pc ∈ e.columnProperties := fun pc hpc =>
    List.mem_of_mem_filter (hcolumns ▸ hpc : pc ∈ e.keyColumns)
  have hkeys : ((first :: rest).map fun pc => pc.1.key).Nodup := by
    rw [← hcolumns]
    exact hapart.nodup_columnKeys.sublist (List.filter_sublist.map _)
  rw [hof.primaryKeys, hcolumns, List.tail_cons]
  constructor
  · intro hdisjoint pc hpc
    by_contra hnamed
    push Not at hnamed
    have hne : first.1.key ≠ pc.1.key := fun heq =>
      (List.nodup_cons.1 hkeys).1 (List.mem_map.2 ⟨pc, hpc, heq.symm⟩)
    have hpc' := List.mem_cons_of_mem first hpc
    have hassigned : pc.2.name ∈ dao.assignedNames part :=
      (mem_assignedNames hof).2 ⟨pc.1, pc.2, hmem pc hpc', rfl, by simp [hkey, hne], hnamed⟩
    exact hdisjoint hassigned (List.mem_map.2 ⟨pc, hpc', rfl⟩)
  · intro hspared name hassigned hname
    obtain ⟨p, c, hpc, rfl, hother, hnamed⟩ := (mem_assignedNames hof).1 hassigned
    obtain ⟨pc, hpc', heq⟩ := List.mem_map.1 hname
    obtain rfl := List.inj_on_of_nodup_map hapart.columns (hmem pc hpc') hpc heq
    rcases List.mem_cons.1 hpc' with rfl | hrest
    · simp [hkey] at hother
    · obtain ⟨properties, hpart, hnot⟩ := hspared _ hrest
      exact hnot (hnamed properties hpart)

end Dao

/-! ## What is sent -/

/-- An update by a primary key, with the properties that it writes, or all of them, and the object
that has them. -/
inductive Writing.ByKey (dao : Dao) : Writing → Option (List String) → Json → Prop
  | whole {entity object : Json} : dao.codec.encode entity = .ok object →
      ByKey dao (.updateByKey entity) none object
  | part (properties : List String) (object : Json) :
      ByKey dao (.updatePartByKey properties object) (some properties) object

/-- An update by a primary key sends nothing, or assigns the values of the object, with the
condition on the value of the key. -/
theorem Writing.exchanges_byKey {σ δ : Type} {w : Writing} {part : Option (List String)}
    {object : Json} (hof : IsDaoOf e dao) (h : dao.Writable) (hkey : dao.primaryKey = some key)
    (hw : w.ByKey dao part object) (levels : Nat) (ctx : Option Context) (driver : Driver δ)
    (l : σ) (s : State) (d : δ) :
    (w.call.task dao levels ctx).exchanges driver l s d = [] ∨
      ∃ row v answer, TakesRow (dao.assignedColumns part) object row ∧ dao.TakesKey key object v ∧
        Directed s ctx (.text (dao.updateText part row
            (" where " ++ (dao.keyCondition key v).whereText Mapping.empty)))
          ((w.call.task dao levels ctx).exchanges driver l s d) answer := by
  have hbusy : w.isIdle = false := by cases hw <;> rfl
  cases hsql : w.sql dao with
  | error error => exact .inl (exchanges_of_error hbusy hsql levels ctx driver l s d)
  | ok sql =>
      obtain ⟨answer, hdirected⟩ := exchanges_of_sql hbusy hsql levels ctx driver l s d
      obtain ⟨row, v, hrow, hv, rfl⟩ : ∃ row v, TakesRow (dao.assignedColumns part) object row ∧
          dao.TakesKey key object v ∧ sql = dao.updateText part row (dao.keyScope key v) := by
        have hbinds := (sql_eq_ok_iff hof h).1 hsql
        cases hw with
        | whole hencode =>
            cases hbinds with
            | updateByKey hkey' hc hobject hrow hv =>
                obtain rfl := Option.some.inj (hkey.symm.trans hkey')
                obtain rfl := Except.ok.inj (hencode.symm.trans hobject)
                exact ⟨_, _, hrow, ⟨_, hc, hv⟩, rfl⟩
        | part properties object =>
            cases hbinds with
            | updatePartByKey hkey' hc hrow hv =>
                obtain rfl := Option.some.inj (hkey.symm.trans hkey')
                exact ⟨_, _, hrow, ⟨_, hc, hv⟩, rfl⟩
      rw [Dao.keyScope_eq] at hdirected
      exact .inr ⟨row, v, answer, hrow, hv, hdirected⟩

/-! ## One row -/

/-- A row has some values in some columns. -/
def Row.Has (k : Collation) (columns : List Column) (values : List Value) (row : Row) : Prop :=
  List.Forall₂ (fun c v => k.equal (row.cell c.name) v = true) columns values

/-- Columns tell rows apart if no two of them have the same values there. -/
def TellApart (k : Collation) (columns : List Column) (rows : Set Row) : Prop :=
  ∀ values, ∀ row ∈ rows, ∀ other ∈ rows, row.Has k columns values → other.Has k columns values →
    row = other

namespace Dao

/-- An update of an object by a primary key is about one row.  Among rows that the primary key tells
apart its condition is only satisfied by the one that has the values of the object in all columns
of the key, and it assigns none of these columns. -/
structure UpdatesOne (dao : Dao) (key : KeyColumn) (part : Option (List String)) (object : Json)
    (v : Value) : Prop where
  selects : ∀ (k : Collation) (rows : Set Row) (values : List Value),
    TellApart k dao.declaredKey rows → TakesRow dao.declaredKey object values →
      ∀ row ∈ rows, (dao.keyCondition key v).holds k Mapping.empty row = true →
        row.Has k dao.declaredKey values ∧
          ∀ other ∈ rows, (dao.keyCondition key v).holds k Mapping.empty other = true →
            other = row
  spares : (dao.assignedNames part).Disjoint dao.table.primaryKeys

/-- An update by a primary key of one column is about one row. -/
theorem updatesOne_of_singleton (hof : IsDaoOf e dao) (hapart : e.ToldApart)
    (hkey : dao.primaryKey = some key) (hone : dao.table.primaryKeys = [key.column])
    (part : Option (List String)) {object : Json} {v : Value} (hv : dao.TakesKey key object v) :
    dao.UpdatesOne key part object v where
  selects k rows values hrows hvalues row hrow hholds := by
    obtain ⟨c, hc, htakes⟩ := hv
    have hcolumns := declaredKey_eq_singleton hof hapart hc hone
    rw [hcolumns] at hrows hvalues ⊢
    obtain rfl := htakes.eq hvalues
    have hhas : ∀ row : Row, (dao.keyCondition key v).holds k Mapping.empty row = true →
        row.Has k [c] [v] := by
      intro row hholds
      have hequal := ((dao.holds_keyCondition key v k row).1 hholds).1
      rw [← hc.name] at hequal
      exact .cons hequal .nil
    exact ⟨hhas row hholds, fun other hother hother' =>
      hrows [v] other hother row hrow (hhas other hother') (hhas row hholds)⟩
  spares := by
    rw [disjoint_primaryKeys_iff hof hapart hkey, (primaryKeys_eq_singleton_iff hof hkey).1 hone]
    exact fun pc hpc => absurd hpc List.not_mem_nil

end Dao

/-- The cells with the truth value `true` equal every literal, and no others equal any. -/
def Collation.truthful : Collation where
  order
    | .bool true, _ => some .eq
    | _, _ => none
  like _ _ := none
  includes _ _ := none
  stored _ := .null
  order_null _ := rfl
  order_same cell _ _ _ := by
    cases cell with
    | bool b => cases b <;> rfl
    | _ => rfl
  order_flag := by simp

theorem Collation.equal_truthful {cell : Json} {v : Value} :
    truthful.equal cell v = true ↔ cell = .bool true := by
  cases cell with
  | bool b => cases b <;> simp [equal, truthful]
  | _ => simp [equal, truthful]

/-- The names of the columns of a table are those of the declared columns, and that of the flag
where deletion is soft. -/
theorem IsDaoOf.columnNames (hof : IsDaoOf e dao) :
    dao.table.columnNames = (e.columnProperties.map fun pc => pc.2.name) ++
      if dao.table.softDelete then [softDeleteColumn] else [] := by
  rw [Table.columnNames, hof.columns, List.map_append, List.map_map]
  split <;> rfl

namespace Dao

/-- A primary key of more than one column has one that updates do not work with. -/
theorem exists_mem_declaredKey (hof : IsDaoOf e dao) (hkey : dao.primaryKey = some key)
    (hnames : dao.table.columnNames.Nodup) (hmore : dao.table.primaryKeys ≠ [key.column]) :
    ∃ c ∈ dao.declaredKey, c.name ≠ key.column ∧
      (dao.table.softDelete = true → c.name ≠ softDeleteColumn) := by
  obtain ⟨first, rest, hcolumns, rfl⟩ := exists_keyColumns hof hkey
  rw [Ne, primaryKeys_eq_singleton_iff hof hkey, hcolumns, List.tail_cons] at hmore
  obtain ⟨other, hother⟩ := List.exists_mem_of_ne_nil rest hmore
  have hdeclared : other ∈ e.columnProperties :=
    List.mem_of_mem_filter (hcolumns ▸ List.mem_cons_of_mem first hother : other ∈ e.keyColumns)
  rw [hof.columnNames] at hnames
  obtain ⟨hdistinct, -, hflag⟩ := List.nodup_append.1 hnames
  have hkeys : ((first :: rest).map fun pc => pc.2.name).Nodup := by
    rw [← hcolumns]
    exact hdistinct.sublist (List.filter_sublist.map _)
  refine ⟨Column.ofSpec other.1 other.2, List.mem_filter.2 ⟨?_, decide_eq_true ?_⟩, ?_, ?_⟩
  · rw [hof.propertyColumns]
    exact List.mem_map.2 ⟨other, hdeclared, rfl⟩
  · rw [hof.primaryKeys, hcolumns]
    exact List.mem_map.2 ⟨other, List.mem_cons_of_mem first hother, rfl⟩
  · exact fun heq => (List.nodup_cons.1 hkeys).1 (List.mem_map.2 ⟨other, hother, heq⟩)
  · exact fun hsoft => hflag _ (List.mem_map.2 ⟨other, hdeclared, rfl⟩) _ (by simp [hsoft])

/-- A live row that has `true` in the first column of the key and `false` in the others. -/
def firstOnlyRow (dao : Dao) (key : KeyColumn) : Row :=
  (if dao.table.softDelete then [(softDeleteColumn, .bool true)] else []) ++
    dao.declaredKey.map fun c => (c.name, .bool (c.name = key.column))

theorem cell_firstOnlyRow {c : Column} (hc : c ∈ dao.declaredKey)
    (hflag : dao.table.softDelete = true → c.name ≠ softDeleteColumn) :
    (dao.firstOnlyRow key).cell c.name = .bool (c.name = key.column) := by
  have hlookup : ∀ columns : List Column, c ∈ columns →
      (columns.map fun b => (b.name, Json.bool (b.name = key.column))).lookup c.name =
        some (.bool (c.name = key.column)) := by
    intro columns hmem
    induction columns with
    | nil => cases hmem
    | cons first columns ih =>
        rw [List.map_cons, Keyed.lookup_cons]
        split
        · next heq => rw [heq]
        · next hne => exact ih (List.mem_of_ne_of_mem (fun h => hne (congrArg _ h)) hmem)
  rw [Row.cell, firstOnlyRow]
  split
  · next hsoft =>
    rw [List.singleton_append, Keyed.lookup_cons, if_neg (hflag hsoft), hlookup _ hc,
      Option.getD_some]
  · rw [List.nil_append, hlookup _ hc, Option.getD_some]

/-- The row satisfies the condition on the first column, whatever the value there. -/
theorem holds_firstOnlyRow {c : Column} (hc : c ∈ dao.declaredKey) (hname : c.name = key.column)
    (v : Value) :
    (dao.keyCondition key v).holds .truthful Mapping.empty (dao.firstOnlyRow key) = true := by
  have hlive : dao.table.softDelete = true →
      (dao.firstOnlyRow key).cell softDeleteColumn = .bool true := by
    intro hsoft
    rw [Row.cell, firstOnlyRow, if_pos hsoft, List.singleton_append, Keyed.lookup_cons, if_pos rfl,
      Option.getD_some]
  rw [holds_keyCondition, Collation.equal_truthful]
  refine ⟨?_, fun hsoft => by rw [Row.isLive, Collation.equal_truthful, hlive hsoft]⟩
  by_cases hflag : dao.table.softDelete = true ∧ c.name = softDeleteColumn
  · rw [← hname, hflag.2, hlive hflag.1]
  · rw [← hname, cell_firstOnlyRow hc fun hsoft heq => hflag ⟨hsoft, heq⟩, hname]
    simp

/-- Whatever properties are written, an update by a primary key of more than one column can be
about a row that does not have the key. -/
theorem exists_not_updatesOne (hof : IsDaoOf e dao) (hkey : dao.primaryKey = some key)
    (hnames : dao.table.columnNames.Nodup) (hmore : dao.table.primaryKeys ≠ [key.column])
    (part : Option (List String)) :
    ∃ object v, dao.TakesKey key object v ∧ ¬ dao.UpdatesOne key part object v := by
  obtain ⟨c, hc⟩ := hof.exists_keepsKey hkey
  obtain ⟨_, hvalue⟩ : ∃ row, TakesRow [c] (.obj []) row :=
    takesRow_nil (by simpa using isSome_property hc.mem)
  obtain ⟨v, rfl⟩ := List.length_eq_one_iff.1 hvalue.length_eq
  obtain ⟨values, hvalues⟩ : ∃ values, TakesRow dao.declaredKey (.obj []) values :=
    takesRow_nil fun b hb => isSome_property (List.mem_of_mem_filter hb)
  refine ⟨.obj [], v, ⟨c, hc, hvalue⟩, fun h => ?_⟩
  have htold : TellApart .truthful dao.declaredKey {dao.firstOnlyRow key} :=
    fun _ _ hrow _ hother _ _ => hrow.trans hother.symm
  have hfirst : c ∈ dao.declaredKey := by
    obtain ⟨first, rest, hcolumns, rfl⟩ := exists_keyColumns hof hkey
    refine List.mem_filter.2 ⟨hc.mem, decide_eq_true ?_⟩
    rw [hof.primaryKeys, hcolumns, hc.name]
    exact List.mem_cons_self
  have hhas := (h.selects .truthful _ values htold hvalues _ rfl
    (holds_firstOnlyRow hfirst hc.name v)).1
  have htrue : ∀ b ∈ dao.declaredKey, (dao.firstOnlyRow key).cell b.name = .bool true :=
    ((List.forall₂_and_left _ _).1
      (hhas.imp fun b w hw => ⟨Collation.equal_truthful.1 hw, hw⟩)).1
  obtain ⟨other, hother, hname, hflag⟩ := exists_mem_declaredKey hof hkey hnames hmore
  have hcell := htrue other hother
  rw [cell_firstOnlyRow hother hflag] at hcell
  simp [hname] at hcell

/-- An update by a primary key has the value of the first column of the key as its condition and
assigns the other columns that are written, those of the key among them unless their properties are
left out.  Whatever properties are written, such updates are about one row exactly if the primary
key has one column. -/
theorem updates_one_iff (hof : IsDaoOf e dao) (h : dao.Writable) (hapart : e.ToldApart)
    (hnames : dao.table.columnNames.Nodup) (hkey : dao.primaryKey = some key) :
    (∀ (σ δ : Type) (w : Writing) (part : Option (List String)) (object : Json),
      w.ByKey dao part object → ∀ (levels : Nat) (ctx : Option Context) (driver : Driver δ) (l : σ)
        (s : State) (d : δ), (w.call.task dao levels ctx).exchanges driver l s d = [] ∨
          ∃ row v answer, TakesRow (dao.assignedColumns part) object row ∧
            dao.TakesKey key object v ∧
              Directed s ctx (.text (dao.updateText part row
                  (" where " ++ (dao.keyCondition key v).whereText Mapping.empty)))
                ((w.call.task dao levels ctx).exchanges driver l s d) answer) ∧
    (∀ v k row, (dao.keyCondition key v).holds k Mapping.empty row = true ↔
      k.equal (row.cell key.column) v = true ∧
        (dao.table.softDelete = true → row.isLive k = true)) ∧
    ∀ part, ((dao.assignedNames part).Disjoint dao.table.primaryKeys ↔
        ∀ pc ∈ e.keyColumns.tail, ∃ properties ∈ part, pc.1.key ∉ properties) ∧
      ((∀ object v, dao.TakesKey key object v → dao.UpdatesOne key part object v) ↔
        dao.table.primaryKeys = [key.column]) := by
  refine ⟨fun σ δ w part object hw => Writing.exchanges_byKey hof h hkey hw,
    dao.holds_keyCondition key, fun part => ⟨disjoint_primaryKeys_iff hof hapart hkey part,
      fun hall => ?_, fun hone object v => updatesOne_of_singleton hof hapart hkey hone part⟩⟩
  by_contra hmore
  obtain ⟨object, v, hv, hnot⟩ := exists_not_updatesOne hof hkey hnames hmore part
  exact hnot (hall object v hv)

/-- The title of a talk is written to the one row with its key. -/
theorem updates_one_event : Event.dao.table.primaryKeys = ["id"] ∧
    Event.dao.UpdatesOne ⟨"id", "id"⟩ (some ["title"]) Event.talk (.int 1) := by
  have hvalue : TakesRow (Event.dao.table.propertyColumns.take 1) Event.talk [.int 1] :=
    (entityValues_eq_ok_iff (by decide)).1 rfl
  have hone := (updates_one_iff Event.isDaoOf Event.writable Event.toldApart (by decide) rfl).2.2
    (some ["title"])
  exact ⟨rfl, hone.2.2 rfl _ _ ⟨_, ⟨.head _, rfl, rfl⟩, hvalue⟩⟩

end Dao

/-- A cell with an integer only equals values that stand for it. -/
theorem Collation.integer?_of_equal_scalar {n : Int} {v : Value}
    (h : scalar.equal (Json.ofInt n) v = true) : v.integer? = some n := by
  have horder : scalarOrder (Json.ofInt n) v = some .eq := beq_iff_eq.1 h
  rw [Json.ofInt, Json.Number.ofInt?] at horder
  split at horder
  · next m hm =>
    split_ifs at hm
    obtain rfl := Option.some.inj hm
    obtain ⟨i, hi, hcompare⟩ := Option.map_eq_some_iff.1 horder
    rw [hi, compare_eq_iff_eq.1 hcompare]
  · cases horder

namespace Marks

/-- The mark of a student in a course, which is written to the row with both. -/
def mark : Json := .obj [("student", Json.ofInt 1), ("course", Json.ofInt 2)]

/-- The column of the key that updates work with. -/
def student : KeyColumn := ⟨"student", "student"⟩

/-- The values that a row has in the key are those of its student and its course. -/
theorem integer?_of_has {student course : Int} {values : List Value}
    (h : (row student course).Has .scalar Marks.dao.declaredKey values) :
    values.map Value.integer? = [some student, some course] := by
  have hcolumns : Marks.dao.declaredKey.map Column.name = ["student", "course"] := by decide
  have hnames : List.Forall₂ (fun name v =>
      Collation.scalar.equal ((row student course).cell name) v = true)
        ["student", "course"] values := by
    rw [← hcolumns, List.forall₂_map_left_iff]
    exact h
  obtain ⟨v, rest, hv, hrest, rfl⟩ := List.forall₂_cons_left_iff.1 hnames
  obtain ⟨w, more, hw, hmore, rfl⟩ := List.forall₂_cons_left_iff.1 hrest
  obtain rfl := List.forall₂_nil_left_iff.1 hmore
  rw [List.map_cons, List.map_cons, List.map_nil, Collation.integer?_of_equal_scalar hv,
    Collation.integer?_of_equal_scalar hw]

/-- The key tells the marks of students in courses apart. -/
theorem tellApart_rows : TellApart .scalar Marks.dao.declaredKey
    {r | ∃ student course, r = row student course} := by
  rintro values _ ⟨student, course, rfl⟩ _ ⟨student', course', rfl⟩ h h'
  have hvalues := (integer?_of_has h).symm.trans (integer?_of_has h')
  simp only [List.cons.injEq, Option.some.injEq, and_true] at hvalues
  rw [hvalues.1, hvalues.2]

end Marks

/-- The mark of a student in one course is written to the rows of all courses, as the condition is
about the student only; and the course is assigned. -/
theorem Dao.updates_one_marks :
    (Writing.updateByKey Marks.mark).sql Marks.dao =
      .ok "update mark set course = 2,code = NULL,origin = NULL where student = 1" ∧
    (Writing.updatePartByKey ["code"] Marks.mark).sql Marks.dao =
      .ok "update mark set code = NULL where student = 1" ∧
    Marks.dao.table.primaryKeys = ["student", "course"] ∧
    TellApart .scalar Marks.dao.declaredKey
      {row | ∃ student course, row = Marks.row student course} ∧
    (∀ course, (Marks.dao.keyCondition Marks.student (.int 1)).holds .scalar Mapping.empty
      (Marks.row 1 course) = true) ∧
    ∀ part, ¬ Marks.dao.UpdatesOne Marks.student part Marks.mark (.int 1) := by
  have hholds : ∀ course, (Marks.dao.keyCondition Marks.student (.int 1)).holds .scalar
      Mapping.empty (Marks.row 1 course) = true := by
    intro course
    rw [Dao.holds_keyCondition]
    exact ⟨rfl, fun h => by cases h⟩
  have hvalues : TakesRow Marks.dao.declaredKey Marks.mark [.int 1, .int 2] :=
    (entityValues_eq_ok_iff (by decide)).1 rfl
  refine ⟨by cbv, by cbv, by decide, Marks.tellApart_rows, hholds, fun part h => ?_⟩
  have hrow := (h.selects .scalar _ _ Marks.tellApart_rows hvalues (Marks.row 1 1) ⟨1, 1, rfl⟩
    (hholds 1)).1
  exact absurd (Marks.integer?_of_has hrow) (by decide)

end Persistence
