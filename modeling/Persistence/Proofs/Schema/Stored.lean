import Persistence.Proofs.Schema.Clauses
import Persistence.Schema.Live

/-!
# Stored tables

A table as the database keeps it: the definitions of its columns by name, its primary key, its
unique and its other indexes and its foreign keys.  The clauses of a statement that alters a table
act on it one by one, and each of them has to be applicable: what it drops or changes must be there,
and what it adds must not.

Main results:

- `StoredTable.alter_drops`, `StoredTable.alter_adds`: clauses that drop or add several entries.
- `StoredTable.describes`: what the answers to the statements that read a table say about it.
-/

namespace Persistence

open Keyed Sql

/-! ## Entries -/

/-- The entries of all keys but one. -/
def Keyed.without {α : Type} (key : String) (entries : List (String × α)) : List (String × α) :=
  entries.filter fun entry => entry.1 ≠ key

theorem Keyed.mem_keys {α : Type} {key : String} {entries : List (String × α)} :
    key ∈ keys entries ↔ ∃ value, (key, value) ∈ entries := by
  simp [keys]

theorem Keyed.mem_keys_without {α : Type} {key other : String} {entries : List (String × α)} :
    other ∈ keys (without key entries) ↔ other ∈ keys entries ∧ other ≠ key := by
  simp [mem_keys, without]

theorem Keyed.keys_append {α : Type} (entries more : List (String × α)) :
    keys (entries ++ more) = keys entries ++ keys more :=
  List.map_append

/-! ## Tables -/

/-- A foreign key as the database keeps it: the column that it is on, and what it refers to. -/
structure StoredKey where
  column : String
  table : String
  target : String
  onDelete : ForeignAction
  onUpdate : ForeignAction
deriving DecidableEq

/-- A table as the database keeps it. -/
structure StoredTable where
  /-- The definitions of the columns, as the lexemes behind their names; a column that others have
  made may be defined in any way. -/
  columns : List (String × List Lexeme)
  primaryKey : Option (List String)
  /-- The columns of the unique indexes other than the primary key. -/
  uniqueIndexes : List (String × List String)
  /-- The columns of the indexes that are not unique. -/
  otherIndexes : List (String × List String)
  foreignKeys : List (String × StoredKey)

namespace StoredTable

/-- Names tell columns, indexes and foreign keys apart, and every index has a column.  Only the
primary key has the name of one. -/
structure WellFormed (x : StoredTable) : Prop where
  columns : (keys x.columns).Nodup
  indexes : (keys x.uniqueIndexes ++ keys x.otherIndexes).Nodup
  foreignKeys : (keys x.foreignKeys).Nodup
  primary : primaryIndexName ∉ keys x.uniqueIndexes ++ keys x.otherIndexes
  key : x.primaryKey ≠ some []
  indexed : ∀ index ∈ x.uniqueIndexes ++ x.otherIndexes, index.2 ≠ []

/-- The effect of one clause, if it is applicable. -/
def act (x : StoredTable) : Clause → Option StoredTable
  | .dropColumn name =>
      if name ∈ keys x.columns then some { x with columns := without name x.columns } else none
  | .modifyColumn c =>
      if c.name ∈ keys x.columns then
        some { x with
          columns := x.columns.map fun entry =>
            if entry.1 = c.name then (c.name, c.traitLexemes) else entry }
      else none
  | .addColumn c =>
      if c.name ∈ keys x.columns then none
      else some { x with columns := x.columns ++ [(c.name, c.traitLexemes)] }
  | .dropPrimaryKey => if x.primaryKey.isSome then some { x with primaryKey := none } else none
  | .addPrimaryKey columns =>
      if x.primaryKey.isSome then none else some { x with primaryKey := some columns }
  | .dropIndex name =>
      if name ∈ keys x.uniqueIndexes then
        some { x with uniqueIndexes := without name x.uniqueIndexes }
      else if name ∈ keys x.otherIndexes then
        some { x with otherIndexes := without name x.otherIndexes }
      else none
  | .addUnique name columns =>
      if name ∈ keys x.uniqueIndexes ++ keys x.otherIndexes then none
      else some { x with uniqueIndexes := x.uniqueIndexes ++ [(name, columns)] }
  | .dropForeignKey name =>
      if name ∈ keys x.foreignKeys then some { x with foreignKeys := without name x.foreignKeys }
      else none
  | .addForeignKey name column table target onDelete onUpdate =>
      if name ∈ keys x.foreignKeys then none
      else some { x with
        foreignKeys := x.foreignKeys ++ [(name, ⟨column, table, target, onDelete, onUpdate⟩)] }
  | .options _ _ _ => some x

section Effects

variable {x : StoredTable} {name : String}

theorem act_dropColumn (h : name ∈ keys x.columns) :
    x.act (.dropColumn name) = some { x with columns := without name x.columns } := if_pos h

theorem act_modifyColumn {c : WrittenColumn} (h : c.name ∈ keys x.columns) :
    x.act (.modifyColumn c) = some { x with
      columns := x.columns.map fun entry =>
        if entry.1 = c.name then (c.name, c.traitLexemes) else entry } := if_pos h

theorem act_addColumn {c : WrittenColumn} (h : c.name ∉ keys x.columns) :
    x.act (.addColumn c) = some { x with columns := x.columns ++ [(c.name, c.traitLexemes)] } :=
  if_neg h

theorem act_dropIndex (h : name ∈ keys x.uniqueIndexes) :
    x.act (.dropIndex name) = some { x with uniqueIndexes := without name x.uniqueIndexes } :=
  if_pos h

theorem act_addUnique (columns : List String)
    (h : name ∉ keys x.uniqueIndexes ++ keys x.otherIndexes) :
    x.act (.addUnique name columns) =
      some { x with uniqueIndexes := x.uniqueIndexes ++ [(name, columns)] } := if_neg h

theorem act_dropForeignKey (h : name ∈ keys x.foreignKeys) :
    x.act (.dropForeignKey name) = some { x with foreignKeys := without name x.foreignKeys } :=
  if_pos h

theorem act_addForeignKey (key : StoredKey) (h : name ∉ keys x.foreignKeys) :
    x.act (.addForeignKey name key.column key.table key.target key.onDelete key.onUpdate) =
      some { x with foreignKeys := x.foreignKeys ++ [(name, key)] } := if_neg h

end Effects

/-- The effect of a statement that alters a table, clause by clause. -/
def alter (x : StoredTable) (clauses : List Clause) : Option StoredTable := clauses.foldlM act x

@[simp]
theorem alter_nil (x : StoredTable) : x.alter [] = some x := rfl

theorem alter_cons (x : StoredTable) (clause : Clause) (clauses : List Clause) :
    x.alter (clause :: clauses) = (x.act clause).bind fun y => y.alter clauses := rfl

theorem alter_append (x : StoredTable) (front back : List Clause) :
    x.alter (front ++ back) = (x.alter front).bind fun y => y.alter back :=
  List.foldlM_append

/-- What is applicable one after the other is applicable together. -/
theorem alter_append_of_some {x y z : StoredTable} {front back : List Clause}
    (hfront : x.alter front = some y) (hback : y.alter back = some z) :
    x.alter (front ++ back) = some z := by
  rw [alter_append, hfront, Option.bind_some, hback]

section Clauses

variable {α : Type} (field : List (String × α) → StoredTable)

/-- Clauses that drop entries of a table, each of them once. -/
theorem alter_drops {clause : String → Clause}
    (hact : ∀ name entries, name ∈ keys entries →
      (field entries).act (clause name) = some (field (without name entries)))
    {names : List String} (hnodup : names.Nodup) {entries : List (String × α)}
    (hthere : names ⊆ keys entries) :
    (field entries).alter (names.map clause) =
      some (field (entries.filter fun entry => entry.1 ∉ names)) := by
  induction names generalizing entries with
  | nil => simp
  | cons name names ih =>
      obtain ⟨hnew, hnodup⟩ := List.nodup_cons.1 hnodup
      obtain ⟨hname, hthere⟩ := List.cons_subset.1 hthere
      have hleft : names ⊆ keys (without name entries) := fun other hother =>
        mem_keys_without.2 ⟨hthere hother, fun heq => hnew (heq ▸ hother)⟩
      rw [List.map_cons, alter_cons, hact name entries hname, Option.bind_some, ih hnodup hleft,
        without, List.filter_filter]
      congr 3
      funext entry
      by_cases heq : entry.1 = name <;> simp [heq]

/-- Clauses that drop all entries of a table. -/
theorem alter_dropAll {clause : String → Clause}
    (hact : ∀ name entries, name ∈ keys entries →
      (field entries).act (clause name) = some (field (without name entries)))
    {names : List String} {entries : List (String × α)} (hnodup : (keys entries).Nodup)
    (hall : names.Perm (keys entries)) :
    (field entries).alter (names.map clause) = some (field []) := by
  rw [alter_drops field hact (hall.nodup_iff.2 hnodup) hall.subset]
  congr 2
  rw [List.filter_eq_nil_iff]
  intro entry hentry
  simpa using hall.mem_iff.2 (List.mem_map_of_mem hentry)

/-- Clauses that add entries to a table, none of them there before. -/
theorem alter_adds {ι : Type} (clause : ι → Clause) (entry : ι → String × α)
    (P : String → Prop)
    (hact : ∀ item entries, P (entry item).1 → (entry item).1 ∉ keys entries →
      (field entries).act (clause item) = some (field (entries ++ [entry item])))
    (items : List ι) (hadmitted : ∀ name ∈ keys (items.map entry), P name)
    (hnodup : (keys (items.map entry)).Nodup) (entries : List (String × α))
    (hnew : ∀ name ∈ keys (items.map entry), name ∉ keys entries) :
    (field entries).alter (items.map clause) = some (field (entries ++ items.map entry)) := by
  induction items generalizing entries with
  | nil => simp
  | cons first items ih =>
      obtain ⟨hfirst, hnodup⟩ := List.nodup_cons.1 hnodup
      obtain ⟨hadmittedFirst, hadmitted⟩ := List.forall_mem_cons.1 hadmitted
      obtain ⟨hnewFirst, hnew⟩ := List.forall_mem_cons.1 hnew
      have hleft : ∀ name ∈ keys (items.map entry), name ∉ keys (entries ++ [entry first]) := by
        intro name hname hmem
        rw [keys_append] at hmem
        rcases List.mem_append.1 hmem with hmem | hmem
        · exact hnew name hname hmem
        · exact hfirst (List.mem_singleton.1 hmem ▸ hname)
      rw [List.map_cons, alter_cons, hact first entries hadmittedFirst hnewFirst, Option.bind_some,
        ih hadmitted hnodup _ hleft, List.append_assoc, List.singleton_append, List.map_cons]

end Clauses

/-- The columns with the definitions that some of them are given. -/
def redefined (given : List WrittenColumn) (columns : List (String × List Lexeme)) :
    List (String × List Lexeme) :=
  columns.map fun entry =>
    (entry.1, ((given.find? fun c => c.name = entry.1).map WrittenColumn.traitLexemes).getD entry.2)

@[simp]
theorem keys_redefined (given : List WrittenColumn) (columns : List (String × List Lexeme)) :
    keys (redefined given columns) = keys columns := by
  simp [keys, redefined]

/-- Clauses that give columns new definitions. -/
theorem alter_modifies {x : StoredTable} {given : List WrittenColumn}
    (hnodup : (given.map WrittenColumn.name).Nodup) (hthere : ∀ c ∈ given, c.name ∈ keys x.columns) :
    x.alter (given.map .modifyColumn) = some { x with columns := redefined given x.columns } := by
  induction given generalizing x with
  | nil => simp [redefined]
  | cons first given ih =>
      obtain ⟨hnew, hnodup⟩ := List.nodup_cons.1 hnodup
      obtain ⟨hfirst, hthere⟩ := List.forall_mem_cons.1 hthere
      have hnone : given.find? (fun c => c.name = first.name) = none := by
        rw [List.find?_eq_none]
        intro c hc heq
        rw [decide_eq_true_eq] at heq
        exact hnew (heq ▸ List.mem_map_of_mem hc)
      have hkeys : ∀ c ∈ given, c.name ∈ keys (x.columns.map fun entry =>
          if entry.1 = first.name then (first.name, first.traitLexemes) else entry) := by
        intro c hc
        have hsame : keys (x.columns.map fun entry =>
            if entry.1 = first.name then (first.name, first.traitLexemes) else entry) =
              keys x.columns := by
          rw [keys, keys, List.map_map]
          refine List.map_congr_left fun entry _ => ?_
          by_cases heq : entry.1 = first.name <;> simp [heq]
        rw [hsame]
        exact hthere c hc
      rw [List.map_cons, alter_cons, act_modifyColumn hfirst, Option.bind_some, ih hnodup hkeys]
      simp only [redefined, List.map_map, Option.some.injEq, StoredTable.mk.injEq, and_self,
        and_true]
      refine List.map_congr_left fun entry _ => ?_
      by_cases heq : entry.1 = first.name
      · simp [heq, hnone]
      · simp [heq, Ne.symm heq]

end StoredTable

/-! ## Answers -/

/-- Rows that report some items: one row for each of them, in any order. -/
def Reports {ι : Type} (tells : ι → Row → Prop) (items : List ι) (rows : List Row) : Prop :=
  ∃ listed, listed.Perm items ∧ List.Forall₂ tells listed rows

/-- How it is said of an index whether it is unique: as a number, as text or as a boolean. -/
inductive UniqueFlag : Bool → Json → Prop
  | number (unique : Bool) : UniqueFlag unique (Json.ofInt (if unique then 0 else 1))
  | text (unique : Bool) : UniqueFlag unique (.str (if unique then "0" else "1"))
  | boolean (unique : Bool) : UniqueFlag unique (.bool !unique)

namespace StoredTable

/-- The row of a column in the description of a table. -/
def ColumnRow (name : String) (row : Row) : Prop := row.lookup "Field" = some (.str name)

/-- The row of a column of an index. -/
def IndexRow (index : String × Bool) (row : Row) : Prop :=
  row.lookup "Key_name" = some (.str index.1) ∧
    ∃ flag, row.lookup "Non_unique" = some flag ∧ UniqueFlag index.2 flag

/-- The row of a foreign key. -/
def ForeignKeyRow (name : String) (row : Row) : Prop := row.lookup "name" = some (.str name)

/-- The name of an index and whether it is unique, once for each of its columns. -/
def indexEntries (name : String) (unique : Bool) (columns : List String) : List (String × Bool) :=
  columns.map fun _ => (name, unique)

/-- What the list of the indexes of a table is about: a row for each column of each index. -/
def indexed (x : StoredTable) : List (String × Bool) :=
  x.primaryKey.toList.flatMap (indexEntries primaryIndexName true) ++
    x.uniqueIndexes.flatMap (fun (name, columns) => indexEntries name true columns) ++
    x.otherIndexes.flatMap fun (name, columns) => indexEntries name false columns

/-- A description that agrees with a table. -/
structure DescribedBy (x : StoredTable) (live : LiveTable) : Prop where
  columns : live.columns.Perm (keys x.columns)
  primaryKey : live.hasPrimaryKey = x.primaryKey.isSome
  uniqueIndexes : live.uniqueIndexes.Perm (keys x.uniqueIndexes)
  foreignKeys : live.foreignKeys.Perm (keys x.foreignKeys)

end StoredTable

theorem isUniqueIndex_of_flag {row : Row} {unique : Bool} {flag : Json}
    (hflag : row.lookup "Non_unique" = some flag) (h : UniqueFlag unique flag) :
    isUniqueIndex row = unique := by
  rw [isUniqueIndex, hflag]
  cases h <;> cases unique <;> rfl

/-- The texts in a column of rows that report some names. -/
theorem filterMap_textIn? {tells : String → Row → Prop} {column : String} {names : List String}
    {rows : List Row} (htells : ∀ name row, tells name row → row.lookup column = some (.str name))
    (h : Reports tells names rows) : (rows.filterMap fun row => textIn? row column).Perm names := by
  obtain ⟨listed, hperm, hrows⟩ := h
  suffices hsame : (rows.filterMap fun row => textIn? row column) = listed from hsame ▸ hperm
  clear hperm
  induction hrows with
  | nil => rfl
  | @cons name row listed rows hrow _ ih =>
      have htext : textIn? row column = some name := by
        rw [textIn?, htells name row hrow]
        rfl
      simp only [List.filterMap_cons, htext, ih]

theorem mem_distinctNames {name : String} {names seen : List String} :
    name ∈ distinctNames seen names ↔ name ∈ names ∧ name ∉ seen := by
  induction names generalizing seen with
  | nil => simp [distinctNames]
  | cons first names ih =>
      rw [distinctNames]
      split
      · next hseen => rw [ih]; grind
      · next hnew => rw [List.mem_cons, ih]; grind

theorem nodup_distinctNames (names seen : List String) : (distinctNames seen names).Nodup := by
  induction names generalizing seen with
  | nil => exact List.nodup_nil
  | cons first names ih =>
      rw [distinctNames]
      split
      · exact ih seen
      · refine List.nodup_cons.2 ⟨fun hmem => (mem_distinctNames.1 hmem).2 ?_, ih _⟩
        simp

namespace StoredTable

variable {x : StoredTable} {rows : List Row}

/-- The rows of the indexes name the index of an entry, and say whether it is unique. -/
theorem exists_row_iff (h : Reports IndexRow x.indexed rows) (name : String) (unique : Bool) :
    (∃ row ∈ rows, textIn? row "Key_name" = some name ∧ isUniqueIndex row = unique) ↔
      (name, unique) ∈ x.indexed := by
  obtain ⟨listed, hperm, hrows⟩ := h
  rw [← hperm.mem_iff]
  clear hperm
  induction hrows with
  | nil => simp
  | @cons index row listed rows hrow _ ih =>
      obtain ⟨hname, flag, hflag, htells⟩ := hrow
      have htext : textIn? row "Key_name" = some index.1 := by
        rw [textIn?, hname]
        rfl
      rw [List.mem_cons, ← ih]
      simp [htext, isUniqueIndex_of_flag hflag htells, Prod.ext_iff, eq_comm]

theorem mem_indexed {name : String} {unique : Bool} :
    (name, unique) ∈ x.indexed ↔
      (name = primaryIndexName ∧ unique = true ∧ ∃ columns, x.primaryKey = some columns ∧
          columns ≠ []) ∨
        (unique = true ∧ ∃ columns, (name, columns) ∈ x.uniqueIndexes ∧ columns ≠ []) ∨
        (unique = false ∧ ∃ columns, (name, columns) ∈ x.otherIndexes ∧ columns ≠ []) := by
  have hentries : ∀ (other : String) (flag : Bool) (columns : List String),
      (name, unique) ∈ indexEntries other flag columns ↔
        name = other ∧ unique = flag ∧ columns ≠ [] := by
    intro other flag columns
    cases columns <;> simp [indexEntries]
  simp only [indexed, List.mem_append, List.mem_flatMap, Option.mem_toList, hentries, or_assoc,
    Prod.exists]
  grind

/-- A table has a primary key if the rows of its indexes name one. -/
theorem hasPrimaryKeyIn_eq (hx : x.WellFormed) (h : Reports IndexRow x.indexed rows) :
    LiveTable.hasPrimaryKeyIn rows = x.primaryKey.isSome := by
  have hnone : ∀ columns, (primaryIndexName, columns) ∉ x.uniqueIndexes ++ x.otherIndexes := by
    intro columns hmem
    refine hx.primary ?_
    rw [← keys_append]
    exact mem_keys.2 ⟨columns, hmem⟩
  have hnamed : LiveTable.hasPrimaryKeyIn rows = true ↔ ∃ unique, (primaryIndexName, unique) ∈
      x.indexed := by
    simp only [← exists_row_iff h, LiveTable.hasPrimaryKeyIn, List.any_eq_true, beq_iff_eq]
    grind
  rw [Bool.eq_iff_iff, hnamed, Option.isSome_iff_exists]
  constructor
  · rintro ⟨unique, hmem⟩
    rcases mem_indexed.1 hmem with ⟨-, -, columns, hkey, -⟩ | ⟨-, columns, hin, -⟩ |
      ⟨-, columns, hin, -⟩
    · exact ⟨columns, hkey⟩
    · exact absurd (List.mem_append_left _ hin) (hnone columns)
    · exact absurd (List.mem_append_right _ hin) (hnone columns)
  · rintro ⟨columns, hkey⟩
    exact ⟨true, mem_indexed.2 (.inl ⟨rfl, rfl, columns, hkey, fun hnil => hx.key (hnil ▸ hkey)⟩)⟩

/-- The unique indexes that the rows of the indexes name, each once. -/
theorem uniqueIndexesIn_perm (hx : x.WellFormed) (h : Reports IndexRow x.indexed rows) :
    (LiveTable.uniqueIndexesIn rows).Perm (keys x.uniqueIndexes) := by
  have hnodup : (LiveTable.uniqueIndexesIn rows).Nodup := nodup_distinctNames _ _
  refine (List.perm_ext_iff_of_nodup hnodup (List.nodup_append.1 hx.indexes).1).2 fun name => ?_
  have hnamed : name ∈ LiveTable.uniqueIndexesIn rows ↔
      (name, true) ∈ x.indexed ∧ name ≠ primaryIndexName := by
    rw [← exists_row_iff h, LiveTable.uniqueIndexesIn, mem_distinctNames]
    simp only [List.mem_filter, List.mem_filterMap, decide_eq_true_eq, List.not_mem_nil,
      not_false_eq_true, and_true]
    grind
  rw [hnamed, mem_indexed, mem_keys]
  constructor
  · rintro ⟨⟨rfl, -⟩ | ⟨-, columns, hin, -⟩ | ⟨hflag, -⟩, hname⟩
    · exact absurd rfl hname
    · exact ⟨columns, hin⟩
    · cases hflag
  · rintro ⟨columns, hin⟩
    refine ⟨.inr (.inl ⟨rfl, columns, hin, ?_⟩), ?_⟩
    · exact hx.indexed (name, columns) (List.mem_append_left _ hin)
    · rintro rfl
      exact hx.primary (List.mem_append_left _ (mem_keys.2 ⟨columns, hin⟩))

/-- What is read from the answers about a table agrees with it. -/
theorem describedBy {columns indexes foreignKeys : List Row} (hx : x.WellFormed)
    (hcolumns : Reports ColumnRow (keys x.columns) columns)
    (hindexes : Reports IndexRow x.indexed indexes)
    (hforeignKeys : Reports ForeignKeyRow (keys x.foreignKeys) foreignKeys) :
    x.DescribedBy {
      columns := LiveTable.columnsIn columns
      hasPrimaryKey := LiveTable.hasPrimaryKeyIn indexes
      uniqueIndexes := LiveTable.uniqueIndexesIn indexes
      foreignKeys := LiveTable.foreignKeysIn foreignKeys } where
  columns := filterMap_textIn? (fun _ _ h => h) hcolumns
  primaryKey := hasPrimaryKeyIn_eq hx hindexes
  uniqueIndexes := uniqueIndexesIn_perm hx hindexes
  foreignKeys := filterMap_textIn? (fun _ _ h => h) hforeignKeys

end StoredTable

end Persistence
