import Persistence.Proofs.Catalog.Declared
import Persistence.Proofs.Schema.Stored

/-!
# The changes of a table

The changes that turn a live table into the declared one act on the columns first and then on the
keys.  All of the clauses that they are written as are applicable to the table that was described,
and behind them it has the declared form, whatever it was like before.

Main results:

- `Table.readAlter?_changes`: the text of the changes says what their clauses are.
- `StoredTable.alter_columnClauses`, `StoredTable.alter_keyClauses`: the two halves of the clauses.
- `StoredTable.alter_clauses`, `StoredTable.form_updated`: all clauses together.
-/

namespace Persistence

open Keyed Sql

/-! ## Forms -/

/-- What a table is like, up to the order of its parts, the names of its constraints and the indexes
that are not unique. -/
@[ext]
structure TableForm where
  /-- The definitions of the columns, with their names. -/
  columns : Multiset (String × List Lexeme)
  primaryKey : Option (List String)
  /-- The columns of the unique indexes other than the primary key. -/
  uniqueGroups : Multiset (List String)
  foreignKeys : Multiset StoredKey

/-- A declared column with its definition. -/
def Column.defined (c : Column) : String × List Lexeme := (c.name, c.written.traitLexemes)

/-- A foreign key that is declared for a column. -/
def ForeignKey.stored (key : ForeignKey) (column : String) : StoredKey :=
  ⟨column, key.table, key.column, key.action, key.action⟩

/-- The foreign keys that are declared for a table. -/
def Table.storedKeys (t : Table) : List StoredKey :=
  t.foreignKeys.map fun (column, key) => key.stored column

/-- The form that is declared for a table. -/
def Table.form (t : Table) : TableForm where
  columns := ↑(t.columns.map Column.defined)
  primaryKey := if t.primaryKeys = [] then none else some t.primaryKeys
  uniqueGroups := ↑(t.uniqueKeys.map Prod.snd)
  foreignKeys := ↑t.storedKeys

namespace StoredTable

/-- The form that a table has. -/
def form (x : StoredTable) : TableForm where
  columns := ↑x.columns
  primaryKey := x.primaryKey
  uniqueGroups := ↑(x.uniqueIndexes.map Prod.snd)
  foreignKeys := ↑(x.foreignKeys.map Prod.snd)

/-- Names that no index and no foreign key of a table has, and no two constraints get. -/
structure Fresh (x : StoredTable) (names : Names) : Prop where
  injective : Function.Injective names
  indexes : ∀ i, names i ∉ keys x.uniqueIndexes ++ keys x.otherIndexes
  foreignKeys : ∀ i, names i ∉ keys x.foreignKeys

end StoredTable

/-! ## Named items -/

/-- Items under the names of a supply. -/
def named {α : Type} (names : Names) : Nat → List α → List (String × α)
  | _, [] => []
  | start, item :: items => (names start, item) :: named names (start + 1) items

section Named

variable {α β : Type} (names : Names) (start : Nat)

theorem map_clause_namedChanges (change : String → α → Alteration) (f : α → β)
    (clause : String × β → Clause)
    (h : ∀ name item, (change name item).clause = clause (name, f item)) (items : List α) :
    (namedChanges names start change items).map Alteration.clause =
      (named names start (items.map f)).map clause := by
  induction items generalizing start with
  | nil => rfl
  | cons item items ih =>
      rw [namedChanges, List.map_cons, ih, h]
      rfl

theorem forall_mem_namedChanges {change : String → α → Alteration} {P : Alteration → Prop}
    (h : ∀ name item, P (change name item)) (items : List α) :
    ∀ a ∈ namedChanges names start change items, P a := by
  induction items generalizing start with
  | nil => exact fun a ha => absurd ha List.not_mem_nil
  | cons item items ih => exact List.forall_mem_cons.2 ⟨h _ item, ih (start + 1)⟩

@[simp]
theorem map_snd_named (items : List α) : (named names start items).map Prod.snd = items := by
  induction items generalizing start with
  | nil => rfl
  | cons item items ih => rw [named, List.map_cons, ih]

theorem exists_of_mem_keys_named {name : String} {items : List α}
    (h : name ∈ keys (named names start items)) : ∃ i, start ≤ i ∧ name = names i := by
  induction items generalizing start with
  | nil => cases h
  | cons item items ih =>
      rcases List.mem_cons.1 h with rfl | h
      · exact ⟨start, le_rfl, rfl⟩
      · obtain ⟨i, hi, hname⟩ := ih (start + 1) h
        exact ⟨i, by omega, hname⟩

theorem nodup_keys_named (hnames : Function.Injective names) (items : List α) :
    (keys (named names start items)).Nodup := by
  induction items generalizing start with
  | nil => exact List.nodup_nil
  | cons item items ih =>
      refine List.nodup_cons.2 ⟨fun h => ?_, ih (start + 1)⟩
      obtain ⟨i, hi, hname⟩ := exists_of_mem_keys_named names (start + 1) h
      have := hnames hname
      omega

end Named

/-! ## The changes of the columns -/

namespace Table

variable (t : Table) (live : List String)

/-- The live columns that are not declared. -/
def surplus : List String := live.filter fun name => name ∉ t.columnNames

/-- The declared columns that are live. -/
def shared : List Column := t.columns.filter fun c => c.name ∈ live

/-- The declared columns that are not live. -/
def missing : List Column := t.columns.filter fun c => c.name ∉ live

/-- The clauses of the columns: the surplus ones are dropped, the shared ones defined anew and the
missing ones added. -/
def columnClauses : List Clause :=
  (t.surplus live).map .dropColumn ++
    ((t.shared live).map Column.written).map .modifyColumn ++
    ((t.missing live).map Column.written).map .addColumn

theorem map_clause_columnChanges :
    (t.columnChanges live).map Alteration.clause = t.columnClauses live := by
  simp only [columnChanges, columnClauses, surplus, shared, missing, List.map_append, List.map_map]
  rfl

/-- The clauses of the keys: whatever is there is dropped, and whatever is declared is added. -/
def keyClauses (live : LiveTable) (names : Names) : List Clause :=
  ((if live.hasPrimaryKey then [.dropPrimaryKey] else []) ++
      if t.primaryKeys.isEmpty then [] else [.addPrimaryKey t.primaryKeys]) ++
    (live.uniqueIndexes.map .dropIndex ++ (named names 0 (t.uniqueKeys.map Prod.snd)).map
      fun entry => .addUnique entry.1 entry.2) ++
    (live.foreignKeys.map .dropForeignKey ++ (named names t.uniqueKeys.length t.storedKeys).map
      fun (name, key) =>
        .addForeignKey name key.column key.table key.target key.onDelete key.onUpdate)

theorem map_clause_keyChanges (live : LiveTable) (names : Names) :
    (t.keyChanges live names).map Alteration.clause = t.keyClauses live names := by
  have hdrop : (if live.hasPrimaryKey then [.dropPrimaryKey] else []).map Alteration.clause =
      if live.hasPrimaryKey then [.dropPrimaryKey] else [] := by
    cases live.hasPrimaryKey <;> rfl
  have hadd : (if t.primaryKeys.isEmpty then [] else
      [Alteration.addPrimaryKey t.primaryKeys]).map Alteration.clause =
        if t.primaryKeys.isEmpty then [] else [.addPrimaryKey t.primaryKeys] := by
    cases t.primaryKeys.isEmpty <;> rfl
  simp only [keyChanges, keyClauses, storedKeys, List.map_append, List.map_map, hdrop, hadd,
    List.append_assoc]
  rw [map_clause_namedChanges names 0 _ Prod.snd (fun entry => .addUnique entry.1 entry.2),
    map_clause_namedChanges names t.uniqueKeys.length _
      (fun (column, key) => ForeignKey.stored key column)
      (fun (name, key) =>
        .addForeignKey name key.column key.table key.target key.onDelete key.onUpdate)]
  · rfl
  · exact fun _ _ => rfl
  · exact fun _ _ => rfl

/-- The clauses of all changes. -/
def clauses (live : LiveTable) (names : Names) : List Clause :=
  t.columnClauses live.columns ++ t.keyClauses live names ++
    [.options t.engine t.charset t.collate]

theorem map_clause_changes (live : LiveTable) (names : Names) :
    (t.changes live names).map Alteration.clause = t.clauses live names := by
  rw [changes, List.map_append, List.map_append, map_clause_columnChanges, map_clause_keyChanges]
  rfl

/-- The changes for a table that can be defined can be written as clauses. -/
theorem IsDefinable.changes {t : Table} (h : t.IsDefinable) (live : LiveTable) (names : Names) :
    ∀ a ∈ t.changes live names, a.IsDefinable := by
  have hcolumns : ∀ a ∈ t.columnChanges live.columns, a.IsDefinable := by
    simp only [columnChanges, List.forall_mem_append, List.forall_mem_map, List.mem_filter]
    exact ⟨⟨fun _ _ => trivial, fun c hc => h.isSome_constant? hc.1⟩,
      fun c hc => h.isSome_constant? hc.1⟩
  have hkeys : ∀ a ∈ t.keyChanges live names, a.IsDefinable := by
    simp only [keyChanges, List.forall_mem_append, List.forall_mem_map]
    refine ⟨⟨⟨⟨⟨?_, ?_⟩, fun _ _ => trivial⟩, ?_⟩, fun _ _ => trivial⟩, ?_⟩
    · split <;> simp [Alteration.IsDefinable]
    · split
      · simp
      · next hne => simpa [Alteration.IsDefinable] using hne
    · exact forall_mem_namedChanges _ _ (fun _ _ => trivial) _
    · exact forall_mem_namedChanges _ _ (fun _ _ => trivial) _
  refine List.forall_mem_append.2 ⟨List.forall_mem_append.2 ⟨hcolumns, hkeys⟩, ?_⟩
  simpa [Alteration.IsDefinable] using ⟨h.engine, h.charset, h.collate⟩

/-- The text of the changes says what their clauses are. -/
theorem readAlter?_changes {t : Table} (h : t.IsDefinable) (live : LiveTable) (names : Names) :
    readAlter? (Statement.alterTable t.name (t.changes live names)).sql =
      some (t.name, t.clauses live names) := by
  rw [← map_clause_changes]
  refine readAlter?_alterTable t.name ?_ (h.changes live names)
  simp [changes]

theorem keys_map_defined (columns : List Column) :
    keys (columns.map Column.defined) = columns.map Column.name := by
  rw [keys, List.map_map]
  rfl

end Table

namespace StoredTable

variable {x : StoredTable} {t : Table} {live : LiveTable} {names : Names} {columns : List String}

/-- The columns that stay, with their definitions. -/
def kept (x : StoredTable) (t : Table) (columns : List String) : List (String × List Lexeme) :=
  x.columns.filter fun entry => entry.1 ∉ t.surplus columns

/-- The columns behind the changes of the columns. -/
def reconciled (x : StoredTable) (t : Table) (columns : List String) : List (String × List Lexeme) :=
  redefined ((t.shared columns).map Column.written) (x.kept t columns) ++
    (t.missing columns).map Column.defined

section Columns

variable (hx : x.WellFormed) (hcolumns : columns.Perm (keys x.columns))
  (hdistinct : t.columnNames.Nodup)

include hcolumns

/-- The columns that stay are those that are live and declared. -/
theorem mem_keys_kept {name : String} :
    name ∈ keys (x.kept t columns) ↔ name ∈ columns ∧ name ∈ t.columnNames := by
  rw [hcolumns.mem_iff, mem_keys, mem_keys, kept]
  simp only [List.mem_filter, decide_eq_true_eq, exists_and_right, and_congr_right_iff,
    forall_exists_index]
  intro definition hentry
  rw [Table.surplus, List.mem_filter, hcolumns.mem_iff, mem_keys]
  simp only [decide_eq_true_eq, not_and, not_not]
  exact ⟨fun h => h ⟨definition, hentry⟩, fun h _ => h⟩

include hx hdistinct

/-- The surplus columns are dropped, the shared ones defined anew and the missing ones added. -/
theorem alter_columnClauses :
    x.alter (t.columnClauses columns) = some { x with columns := x.reconciled t columns } := by
  have hnodup : columns.Nodup := hcolumns.nodup_iff.2 hx.columns
  have hdrop : x.alter ((t.surplus columns).map .dropColumn) =
      some { x with columns := x.kept t columns } :=
    alter_drops (fun entries => { x with columns := entries })
      (fun _ _ h => act_dropColumn h) (hnodup.filter _) fun name hname =>
        hcolumns.subset (List.mem_of_mem_filter hname)
  have hmodify : ({ x with columns := x.kept t columns } : StoredTable).alter
      (((t.shared columns).map Column.written).map .modifyColumn) =
        some { x with
          columns := redefined ((t.shared columns).map Column.written) (x.kept t columns) } := by
    refine alter_modifies ?_ fun written hwritten => ?_
    · rw [List.map_map]
      exact hdistinct.sublist (List.filter_sublist.map Column.name)
    · obtain ⟨c, hc, rfl⟩ := List.mem_map.1 hwritten
      rw [Table.shared, List.mem_filter, decide_eq_true_eq] at hc
      exact (mem_keys_kept hcolumns).2 ⟨hc.2, List.mem_map_of_mem hc.1⟩
  have hadd : ({ x with
        columns := redefined ((t.shared columns).map Column.written) (x.kept t columns) } :
      StoredTable).alter (((t.missing columns).map Column.written).map .addColumn) =
        some { x with columns := x.reconciled t columns } := by
    rw [List.map_map]
    refine alter_adds (fun entries => { x with columns := entries }) _ Column.defined
      (fun _ => True) (fun _ _ _ h => act_addColumn h) _ (fun _ _ => trivial) ?_ _
      fun name hname hmem => ?_
    · rw [Table.keys_map_defined]
      exact hdistinct.sublist (List.filter_sublist.map Column.name)
    · rw [Table.keys_map_defined] at hname
      obtain ⟨c, hc, rfl⟩ := List.mem_map.1 hname
      rw [Table.missing, List.mem_filter, decide_eq_true_eq] at hc
      rw [keys_redefined] at hmem
      exact hc.2 ((mem_keys_kept hcolumns).1 hmem).1
  exact alter_append_of_some (alter_append_of_some hdrop hmodify) hadd

/-- What is left are the declared columns with their definitions. -/
theorem reconciled_perm : (x.reconciled t columns).Perm (t.columns.map Column.defined) := by
  have hkept : (keys (x.kept t columns)).Nodup :=
    hx.columns.sublist (List.filter_sublist.map Prod.fst)
  have hkeys : (keys (x.reconciled t columns)).Nodup := by
    rw [reconciled, keys_append, keys_redefined, Table.keys_map_defined, List.nodup_append]
    refine ⟨hkept, hdistinct.sublist (List.filter_sublist.map Column.name), ?_⟩
    rintro name hname other hother rfl
    obtain ⟨c, hc, rfl⟩ := List.mem_map.1 hother
    rw [Table.missing, List.mem_filter, decide_eq_true_eq] at hc
    exact hc.2 ((mem_keys_kept hcolumns).1 hname).1
  have hdeclared : (t.columns.map Column.defined).Nodup := by
    refine List.Nodup.of_map Prod.fst ?_
    rw [List.map_map]
    exact hdistinct
  have hshared : ∀ c ∈ t.shared columns,
      ((t.shared columns).map Column.written).find? (fun other => other.name = c.name) =
        some c.written := by
    intro c hc
    have hnodup : (((t.shared columns).map Column.written).map WrittenColumn.name).Nodup := by
      rw [List.map_map]
      exact hdistinct.sublist (List.filter_sublist.map Column.name)
    exact find?_eq_some_of_nodup WrittenColumn.name hnodup (List.mem_map_of_mem hc)
  refine (List.perm_ext_iff_of_nodup (List.Nodup.of_map Prod.fst hkeys) hdeclared).2 ?_
  rintro ⟨name, definition⟩
  simp only [reconciled, List.mem_append, List.mem_map, redefined]
  constructor
  · rintro (⟨entry, hentry, heq⟩ | ⟨c, hc, heq⟩)
    · obtain ⟨hlive, hname⟩ := (mem_keys_kept hcolumns).1 (List.mem_map_of_mem hentry)
      obtain ⟨c, hc, hcname⟩ := List.mem_map.1 hname
      have hmem : c ∈ t.shared columns :=
        List.mem_filter.2 ⟨hc, decide_eq_true (hcname ▸ hlive)⟩
      refine ⟨c, hc, heq ▸ ?_⟩
      rw [← hcname, hshared c hmem]
      rfl
    · exact ⟨c, List.mem_of_mem_filter hc, heq⟩
  · rintro ⟨c, hc, heq⟩
    by_cases hlive : c.name ∈ columns
    · obtain ⟨old, hentry⟩ := mem_keys.1
        ((mem_keys_kept hcolumns).2 ⟨hlive, List.mem_map_of_mem hc⟩)
      have hmem : c ∈ t.shared columns := List.mem_filter.2 ⟨hc, decide_eq_true hlive⟩
      refine .inl ⟨(c.name, old), hentry, heq ▸ ?_⟩
      rw [hshared c hmem]
      rfl
    · exact .inr ⟨c, List.mem_filter.2 ⟨hc, decide_eq_true hlive⟩, heq⟩

end Columns

/-! ## The changes of the keys -/

/-- The table behind the changes of the keys. -/
def rekeyed (x : StoredTable) (t : Table) (names : Names) : StoredTable :=
  { x with
    primaryKey := if t.primaryKeys = [] then none else some t.primaryKeys
    uniqueIndexes := named names 0 (t.uniqueKeys.map Prod.snd)
    foreignKeys := named names t.uniqueKeys.length t.storedKeys }

/-- The primary key is dropped if there is one, and the declared one added if there is one. -/
theorem alter_primaryKey {hasPrimaryKey : Bool} (hlive : hasPrimaryKey = x.primaryKey.isSome) :
    x.alter ((if hasPrimaryKey then [.dropPrimaryKey] else []) ++
        if t.primaryKeys.isEmpty then [] else [.addPrimaryKey t.primaryKeys]) =
      some { x with
        primaryKey := if t.primaryKeys = [] then none else some t.primaryKeys } := by
  have hdrop : x.alter (if hasPrimaryKey then [.dropPrimaryKey] else []) =
      some { x with primaryKey := none } := by
    obtain ⟨columns, key, unique, other, foreign⟩ := x
    subst hlive
    cases key <;> rfl
  refine alter_append_of_some hdrop ?_
  cases t.primaryKeys <;> rfl

/-- The unique indexes are dropped, whatever their number, and the declared ones added. -/
theorem alter_uniqueIndexes (hindexes : (keys x.uniqueIndexes).Nodup)
    (hnames : Function.Injective names) (hother : ∀ i, names i ∉ keys x.otherIndexes)
    {indexes : List String} (hlive : indexes.Perm (keys x.uniqueIndexes))
    (groups : List (List String)) :
    x.alter (indexes.map .dropIndex ++
        (named names 0 groups).map fun entry => .addUnique entry.1 entry.2) =
      some { x with uniqueIndexes := named names 0 groups } := by
  have hdrop : x.alter (indexes.map .dropIndex) = some { x with uniqueIndexes := [] } :=
    alter_dropAll (fun entries => { x with uniqueIndexes := entries })
      (fun _ _ h => act_dropIndex h) hindexes hlive
  refine alter_append_of_some hdrop ?_
  have hadd := alter_adds (fun entries => { x with uniqueIndexes := entries })
    (fun entry => .addUnique entry.1 entry.2) id (fun name => name ∉ keys x.otherIndexes)
    (fun entry entries hother hunique => act_addUnique entry.2 ?_) (named names 0 groups) ?_ ?_ []
    ?_
  · rwa [List.map_id] at hadd
  · rw [List.mem_append, not_or]
    exact ⟨hunique, hother⟩
  · intro name hname hmem
    rw [List.map_id] at hname
    obtain ⟨i, -, rfl⟩ := exists_of_mem_keys_named names 0 hname
    exact hother i hmem
  · rw [List.map_id]
    exact nodup_keys_named names 0 hnames groups
  · exact fun _ _ hmem => by cases hmem

/-- The foreign keys are dropped and the declared ones added. -/
theorem alter_foreignKeys (hforeignKeys : (Keyed.keys x.foreignKeys).Nodup)
    (hnames : Function.Injective names) {keys : List String}
    (hlive : keys.Perm (Keyed.keys x.foreignKeys)) (start : Nat)
    (declared : List StoredKey) :
    x.alter (keys.map .dropForeignKey ++ (named names start declared).map fun (name, key) =>
        .addForeignKey name key.column key.table key.target key.onDelete key.onUpdate) =
      some { x with foreignKeys := named names start declared } := by
  have hdrop : x.alter (keys.map .dropForeignKey) = some { x with foreignKeys := [] } :=
    alter_dropAll (fun entries => { x with foreignKeys := entries })
      (fun _ _ h => act_dropForeignKey h) hforeignKeys hlive
  refine alter_append_of_some hdrop ?_
  have hadd := alter_adds (fun entries => { x with foreignKeys := entries })
    (fun (name, key) =>
      .addForeignKey name key.column key.table key.target key.onDelete key.onUpdate) id
    (fun _ => True) (fun entry entries _ h => act_addForeignKey entry.2 h)
    (named names start declared)
    (fun _ _ => trivial) ?_ [] ?_
  · rwa [List.map_id] at hadd
  · rw [List.map_id]
    exact nodup_keys_named names start hnames declared
  · exact fun _ _ hmem => by cases hmem

/-- Whatever keys are there are dropped and whatever is declared is added, under new names. -/
theorem alter_keyClauses (hx : x.WellFormed) (hlive : x.DescribedBy live) (hfresh : x.Fresh names)
    (columns : List (String × List Lexeme)) :
    ({ x with columns := columns } : StoredTable).alter (t.keyClauses live names) =
      some ({ x with columns := columns }.rekeyed t names) := by
  have hother : ∀ i, names i ∉ keys x.otherIndexes := fun i hmem =>
    hfresh.indexes i (List.mem_append_right _ hmem)
  have hkey := alter_primaryKey (x := { x with columns := columns }) (t := t) hlive.primaryKey
  have hindexes := alter_uniqueIndexes (x := { x with
    columns := columns
    primaryKey := if t.primaryKeys = [] then none else some t.primaryKeys })
    (List.nodup_append.1 hx.indexes).1 hfresh.injective hother hlive.uniqueIndexes
    (t.uniqueKeys.map Prod.snd)
  have hforeignKeys := alter_foreignKeys (x := { x with
    columns := columns
    primaryKey := if t.primaryKeys = [] then none else some t.primaryKeys
    uniqueIndexes := named names 0 (t.uniqueKeys.map Prod.snd) })
    hx.foreignKeys hfresh.injective hlive.foreignKeys t.uniqueKeys.length t.storedKeys
  exact alter_append_of_some (alter_append_of_some hkey hindexes) hforeignKeys

/-! ## All changes -/

/-- The table behind all changes. -/
def updated (x : StoredTable) (t : Table) (live : LiveTable) (names : Names) : StoredTable :=
  { x with columns := x.reconciled t live.columns }.rekeyed t names

/-- All clauses are applicable. -/
theorem alter_clauses (hx : x.WellFormed) (hlive : x.DescribedBy live) (hfresh : x.Fresh names)
    (hdistinct : t.columnNames.Nodup) :
    x.alter (t.clauses live names) = some (x.updated t live names) :=
  alter_append_of_some (alter_append_of_some (alter_columnClauses hx hlive.columns hdistinct)
    (alter_keyClauses hx hlive hfresh _)) rfl

/-- Behind them the table has the declared form. -/
theorem form_updated (hx : x.WellFormed) (hlive : x.DescribedBy live)
    (hdistinct : t.columnNames.Nodup) : (x.updated t live names).form = t.form := by
  refine TableForm.ext ?_ rfl ?_ ?_
  · exact Multiset.coe_eq_coe.2 (reconciled_perm hx hlive.columns hdistinct)
  · exact congrArg Multiset.ofList (map_snd_named names 0 _)
  · exact congrArg Multiset.ofList (map_snd_named names _ _)

/-- An index that is dropped is a unique one. -/
theorem mem_uniqueIndexes_of_dropIndex (hlive : x.DescribedBy live) {name : String}
    (h : .dropIndex name ∈ t.clauses live names) : name ∈ keys x.uniqueIndexes := by
  rw [← hlive.uniqueIndexes.mem_iff]
  simp only [Table.clauses, Table.columnClauses, Table.keyClauses, List.mem_append] at h
  rcases h with (((h | h) | h) | (((h | h) | (h | h)) | (h | h))) | h
  · simp at h
  · simp at h
  · simp at h
  · split at h <;> simp at h
  · split at h <;> simp at h
  · simpa using h
  · simp at h
  · simp at h
  · simp at h
  · simp at h

end StoredTable

end Persistence
