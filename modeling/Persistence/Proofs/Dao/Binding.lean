import Persistence.Proofs.Dao.Opening
import Persistence.Proofs.Dao.Statements

/-!
# The columns and values of statements that write

A statement that writes names columns and has values for them, and the two meet in the placeholders
of a template only.  Each column gets the value that it takes from the object written, in the place
that the statement has for it, whatever the values are.

Main results:

- `Column.Takes.isList_iff`: when the value of a column is a list rather than one literal.
- `IsDaoOf.insert_statementText`, `IsDaoOf.updateKey_statementText`,
  `IsDaoOf.updateQuery_statementText`: the statements that write.
-/

namespace Persistence

open Sql

/-! ## Literals in a row -/

namespace Value

/-- Whether a value is a list of values. -/
def isList : Value → Bool
  | list _ => true
  | _ => false

/-- What stands for a value among others: its literal, which is in parentheses for a list. -/
def entryText (v : Value) : String := if v.isList then "(" ++ v.literal ++ ")" else v.literal

/-- A value stands among others as its literal, unless it is a list. -/
theorem entryText_eq_literal_iff (v : Value) : v.entryText = v.literal ↔ v.isList = false := by
  rw [entryText]
  split
  · next hlist =>
    refine ⟨fun heq => ?_, fun hno => by rw [hlist] at hno; cases hno⟩
    have hlength := congrArg String.length heq
    rw [String.length_append, String.length_append] at hlength
    have hopening : "(".length = 1 := rfl
    omega
  · next hlist => exact iff_of_true rfl (by simpa using hlist)

theorem itemLiterals_eq (values : List Value) : itemLiterals values = values.map entryText := by
  induction values with
  | nil => rw [itemLiterals, List.map_nil]
  | cons v values ih => cases v <;> simp [itemLiterals, entryText, isList, literal, ih]

end Value

/-- A row of values in a statement. -/
def rowText (row : List Value) : String := "(" ++ ", ".intercalate (row.map Value.entryText) ++ ")"

/-- The literal of some rows. -/
theorem literal_rows (rows : List (List Value)) :
    (Value.list (rows.map Value.list)).literal = ", ".intercalate (rows.map rowText) := by
  have hrow : Value.entryText ∘ Value.list = rowText := by
    funext row
    simp [Value.entryText, Value.isList, Value.literal, Value.itemLiterals_eq, rowText]
  rw [Value.literal, Value.itemLiterals_eq, List.map_map, hrow]

/-! ## The values of columns -/

namespace Column

/-- What a statement writes to a column that keeps a property. -/
def valueColumn? (c : Column) : Option ValueColumn :=
  c.property.map fun property => ⟨property, c.type, c.defaultValue⟩

/-- A column takes a value from the fields of an object: that of its property, or its default if the
property is missing or null. -/
def Takes (c : Column) (fields : Json.Fields) (v : Value) : Prop :=
  ∃ column, c.valueColumn? = some column ∧ column.value fields = .ok v

/-- The property of a column is an array in some fields. -/
def GetsArray (c : Column) (fields : Json.Fields) : Prop :=
  ∃ property items, c.property = some property ∧ fields.lookup property = some (.arr items)

end Column

/-- The value of a JSON value is a list for an array only. -/
theorem Value.isList_ofJson (j : Json) :
    (Value.ofJson j).isList = true ↔ ∃ items, j = .arr items := by
  cases j with
  | num n => cases n <;> simp only [ofJson, ofNumber] <;> (try split) <;> simp [isList]
  | _ => simp [ofJson, isList]

theorem isList_momentOrValue (j : Json) :
    (momentOrValue j).isList = true ↔ ∃ items, j = .arr items := by
  cases j with
  | str s =>
      rw [momentOrValue]
      split <;> simp [Value.isList]
  | _ => exact Value.isList_ofJson _

/-- A property becomes a list of values only where a column for moments gets an array. -/
theorem ValueColumn.isList_convert {c : ValueColumn} {j : Json} {v : Value}
    (h : c.convert j = .ok v) :
    v.isList = true ↔ c.type = .datetime ∧ ∃ items, j = .arr items := by
  rw [convert.eq_def] at h
  split at h
  · next htype =>
    split at h
    · obtain rfl := Except.ok.inj h
      simp [Value.isList, htype]
    · cases h
  · next htype =>
    obtain rfl := Except.ok.inj h
    simp [isList_momentOrValue, htype]
  · next htype =>
    have hother : ¬ c.type = .datetime := by simpa using htype
    split at h
    · obtain rfl := Except.ok.inj h
      simp [Value.isList]
    · obtain rfl := Except.ok.inj h
      simp [Value.isList, hother]
    · next hobject harray =>
      obtain rfl := Except.ok.inj h
      have hnone : ¬ ∃ items, j = .arr items := by
        rintro ⟨items, hj⟩
        exact harray items hj
      simp only [Value.isList_ofJson, hnone, and_false]

/-- The value that a column takes is one literal and no list, unless the column is for moments and
gets an array. -/
theorem Column.Takes.isList_iff {c : Column} {fields : Json.Fields} {v : Value}
    (h : c.Takes fields v) (hdefault : ∀ d, c.defaultValue = some d → d.isList = false) :
    v.isList = true ↔ c.type = .datetime ∧ c.GetsArray fields := by
  obtain ⟨column, hcolumn, hvalue⟩ := h
  obtain ⟨property, hproperty, rfl⟩ := Option.map_eq_some_iff.1 hcolumn
  have harray : c.GetsArray fields ↔ ∃ items, fields.lookup property = some (.arr items) := by
    constructor
    · rintro ⟨_, items, hsome, hlookup⟩
      obtain rfl := Option.some.inj (hproperty.symm.trans hsome)
      exact ⟨items, hlookup⟩
    · rintro ⟨items, hlookup⟩
      exact ⟨property, items, hproperty, hlookup⟩
  have hdefault' : (c.defaultValue.getD .null).isList = false := by
    cases hd : c.defaultValue with
    | none => rfl
    | some d => exact hdefault d hd
  rw [harray]
  rw [ValueColumn.value] at hvalue
  split at hvalue
  · next hlookup =>
    obtain rfl := Except.ok.inj hvalue
    simp [hdefault', hlookup]
  · next j hlookup =>
    rw [hlookup]
    split at hvalue
    · next hnull =>
      obtain rfl := Except.ok.inj hvalue
      cases j <;> simp_all [Json.isNull]
    · simpa using ValueColumn.isList_convert hvalue

/-- A row has the values that some columns take from an object, in their order. -/
def TakesRow (columns : List Column) (object : Json) (row : List Value) : Prop :=
  ∃ fields, object = .obj fields ∧ List.Forall₂ (fun c v => c.Takes fields v) columns row

/-- Columns take one row of values from an object. -/
theorem TakesRow.eq {columns : List Column} {object : Json} {row row' : List Value}
    (h : TakesRow columns object row) (h' : TakesRow columns object row') : row = row' := by
  obtain ⟨fields, rfl, hrow⟩ := h
  obtain ⟨_, hfields, hrow'⟩ := h'
  obtain rfl := Json.obj.inj hfields
  induction hrow generalizing row' with
  | nil => exact (List.forall₂_nil_left_iff.1 hrow').symm
  | cons hv _ ih =>
      obtain ⟨v, rest, hv', hrest, rfl⟩ := List.forall₂_cons_left_iff.1 hrow'
      obtain ⟨column, hcolumn, hvalue⟩ := hv
      obtain ⟨column', hcolumn', hvalue'⟩ := hv'
      obtain rfl := Option.some.inj (hcolumn.symm.trans hcolumn')
      rw [Except.ok.inj (hvalue.symm.trans hvalue'), ih hrest]

theorem forall₂_ofColumns {columns : List Column} (h : ∀ c ∈ columns, c.property.isSome = true)
    {fields : Json.Fields} {row : List Value} :
    List.Forall₂ (fun c v => c.value fields = .ok v) (ValueColumn.ofColumns columns) row ↔
      List.Forall₂ (fun c v => c.Takes fields v) columns row := by
  induction columns generalizing row with
  | nil => exact (List.forall₂_nil_left_iff).trans (List.forall₂_nil_left_iff).symm
  | cons c columns ih =>
      obtain ⟨hc, hcolumns⟩ := List.forall_mem_cons.1 h
      obtain ⟨property, hproperty⟩ := Option.isSome_iff_exists.1 hc
      have hcolumn : c.valueColumn? = some ⟨property, c.type, c.defaultValue⟩ := by
        rw [Column.valueColumn?, hproperty, Option.map_some]
      have hcons : ValueColumn.ofColumns (c :: columns) =
          ⟨property, c.type, c.defaultValue⟩ :: ValueColumn.ofColumns columns :=
        List.filterMap_cons_some hcolumn
      simp only [hcons, List.forall₂_cons_left_iff, ih hcolumns, Column.Takes, hcolumn,
        Option.some.injEq, exists_eq_left']

/-- The values for an entity are those that the columns take from it. -/
theorem entityValues_eq_ok_iff {columns : List Column}
    (h : ∀ c ∈ columns, c.property.isSome = true) {object : Json} {row : List Value} :
    entityValues (ValueColumn.ofColumns columns) object = .ok row ↔
      TakesRow columns object row := by
  constructor
  · intro hvalues
    cases object with
    | obj fields => exact ⟨fields, rfl, (forall₂_ofColumns h).1 (mapM_eq_ok_iff.1 hvalues)⟩
    | _ => cases hvalues
  · rintro ⟨fields, rfl, hrow⟩
    exact mapM_eq_ok_iff.2 ((forall₂_ofColumns h).2 hrow)

/-- A row with one more column has one more value. -/
theorem takesRow_concat {columns : List Column} {c : Column} {object : Json} {values : List Value} :
    TakesRow (columns ++ [c]) object values ↔ ∃ row v, values = row ++ [v] ∧
      TakesRow columns object row ∧ TakesRow [c] object [v] := by
  constructor
  · rintro ⟨fields, rfl, hvalues⟩
    have hflip : List.Forall₂ (fun v c => Column.Takes c fields v) values (columns ++ [c]) :=
      hvalues.flip
    have hrow := (List.forall₂_take_append _ _ _ hflip).flip
    have hlast := (List.forall₂_drop_append _ _ _ hflip).flip
    obtain ⟨v, rest, hv, hrest, hdrop⟩ := List.forall₂_cons_left_iff.1 hlast
    obtain rfl := List.forall₂_nil_left_iff.1 hrest
    refine ⟨_, v, ?_, ⟨fields, rfl, hrow⟩, fields, rfl, .cons hv .nil⟩
    rw [← hdrop, List.take_append_drop]
  · rintro ⟨row, v, rfl, ⟨fields, rfl, hrow⟩, _, hfields, hlast⟩
    obtain rfl := Json.obj.inj hfields
    exact ⟨fields, rfl, List.rel_append hrow hlast⟩

/-! ## The columns of access objects -/

/-- The one item with its key is all that a filter for the key leaves, if keys are distinct. -/
theorem filter_eq_singleton_of_nodup {α β : Type} [DecidableEq β] (key : α → β) {items : List α}
    (h : (items.map key).Nodup) {a : α} (ha : a ∈ items) :
    items.filter (fun b => key b = key a) = [a] := by
  induction items with
  | nil => cases ha
  | cons first items ih =>
      obtain ⟨hfirst, hitems⟩ := List.nodup_cons.1 h
      rcases List.mem_cons.1 ha with rfl | ha
      · have hnone : items.filter (fun b => key b = key a) = [] := by
          rw [List.filter_eq_nil_iff]
          exact fun b hb heq => hfirst (of_decide_eq_true heq ▸ List.mem_map_of_mem hb)
        rw [List.filter_cons_of_pos (by simp), hnone]
      · have hne : key first ≠ key a := fun heq => hfirst (heq ▸ List.mem_map_of_mem ha)
        rw [List.filter_cons_of_neg (by simpa using hne), ih hitems ha]

namespace Dao

/-- An access object whose columns keep distinct properties, whose names have no placeholders and no
quotes, and whose columns have no lists as defaults. -/
structure Writable (dao : Dao) : Prop where
  properties : (dao.table.propertyColumns.map Column.property).Nodup
  table : IsUnmarked dao.tableName
  columns : ∀ c ∈ dao.table.propertyColumns, IsUnmarked c.name
  defaults : ∀ c ∈ dao.table.propertyColumns, ∀ d, c.defaultValue = some d → d.isList = false

/-- The columns that an update assigns: those that keep properties other than that of the primary
key, or those of them that keep the properties of a list. -/
def assignedColumns (dao : Dao) (part : Option (List String)) : List Column :=
  dao.table.propertyColumns.filter fun c =>
    c.property.all fun property =>
      !(dao.primaryKey.any fun key => key.property = property) &&
        part.all fun properties => property ∈ properties

variable {dao : Dao}

theorem isSome_property {c : Column} (h : c ∈ dao.table.propertyColumns) :
    c.property.isSome = true :=
  (List.mem_filter.1 h).2

/-- Columns that are chosen by their properties are written as the columns that are chosen so. -/
theorem ofColumns_filter (columns : List Column) (p : String → Bool) :
    ValueColumn.ofColumns (columns.filter fun c => c.property.all p) =
      (ValueColumn.ofColumns columns).filter fun c => p c.property := by
  rw [ValueColumn.ofColumns, ValueColumn.ofColumns, List.filterMap_filter, List.filter_filterMap]
  refine List.filterMap_congr fun c _ => ?_
  cases c.property with
  | none => simp
  | some property => cases hp : p property <;> simp [Option.filter, hp]

/-- A column that keeps the property of a primary key, by the name that the key has for it. -/
structure KeepsKey (dao : Dao) (key : KeyColumn) (c : Column) : Prop where
  mem : c ∈ dao.table.propertyColumns
  property : c.property = some key.property
  name : c.name = key.column

section Distinct

variable (h : (dao.table.propertyColumns.map Column.property).Nodup) {c : Column}

include h

/-- The one column with a property. -/
theorem filter_property (hc : c ∈ dao.table.propertyColumns) {property : String}
    (hproperty : c.property = some property) :
    (dao.table.propertyColumns.filter fun b => b.property = some property) = [c] := by
  rw [← hproperty]
  exact filter_eq_singleton_of_nodup Column.property h hc

/-- A column is found by its property. -/
theorem columnOf?_eq (hc : c ∈ dao.table.propertyColumns) {property : String}
    (hproperty : c.property = some property) : dao.table.columnOf? property = some c := by
  have hfilter := filter_property h hc hproperty
  rw [Table.propertyColumns, List.filter_filter] at hfilter
  rw [Table.columnOf?, ← List.head?_filter, ← List.head?_singleton (a := c), ← hfilter]
  refine congrArg List.head? (List.filter_congr fun b _ => ?_)
  by_cases hb : b.property = some property <;> simp [hb]

/-- The set clause of some columns has a placeholder for each of them, in their order. -/
theorem setClause_eq {columns : List Column}
    (hcolumns : ∀ c ∈ columns, c ∈ dao.table.propertyColumns) :
    dao.setClause (ValueColumn.ofColumns columns) =
      ",".intercalate ((columns.map Column.name).map (· ++ " = ?")) := by
  have hfound : (ValueColumn.ofColumns columns).filterMap
      (fun c => dao.table.columnOf? c.property) = columns := by
    rw [ValueColumn.ofColumns, List.filterMap_filterMap]
    refine (List.filterMap_congr fun c hc => ?_).trans List.filterMap_some
    obtain ⟨property, hproperty⟩ := Option.isSome_iff_exists.1 (isSome_property (hcolumns c hc))
    rw [hproperty, Option.map_some, Option.bind_some]
    exact columnOf?_eq h (hcolumns c hc) hproperty
  rw [setClause, hfound, List.map_map]
  rfl

end Distinct

namespace Writable

variable (h : dao.Writable) {c : Column}

include h

theorem isFixed_name (hc : c ∈ dao.table.propertyColumns) : IsFixed c.name :=
  .of_unmarked (h.columns c hc)

end Writable

theorem mem_assignedColumns {part : Option (List String)} {c : Column}
    (hc : c ∈ dao.assignedColumns part) : c ∈ dao.table.propertyColumns :=
  List.mem_of_mem_filter hc

end Dao

namespace IsDaoOf

variable {e : Entity} {dao : Dao}

theorem columns_eq (hof : IsDaoOf e dao) :
    dao.columns = ValueColumn.ofColumns dao.table.propertyColumns := by
  obtain ⟨t, lookup, codec, -, rfl⟩ := hof
  rfl

theorem nonKeyColumns_eq (hof : IsDaoOf e dao) :
    dao.nonKeyColumns = ValueColumn.ofColumns (dao.assignedColumns none) := by
  rw [Dao.assignedColumns, Dao.ofColumns_filter, ← hof.columns_eq, Dao.nonKeyColumns]
  simp [Dao.isKeyColumn]

theorem partColumns_eq (hof : IsDaoOf e dao) (part : List String) :
    dao.partColumns part = ValueColumn.ofColumns (dao.assignedColumns (some part)) := by
  rw [Dao.assignedColumns, Dao.ofColumns_filter, ← hof.columns_eq, Dao.partColumns,
    Dao.nonKeyColumns, List.filter_filter]
  refine List.filter_congr fun c _ => ?_
  rw [Option.all_some, Bool.and_comm]
  rfl

/-- The property of a primary key is kept in a column. -/
theorem exists_keepsKey (hof : IsDaoOf e dao) {key : KeyColumn} (hkey : dao.primaryKey = some key) :
    ∃ c, dao.KeepsKey key c := by
  rw [hof.primaryKey] at hkey
  obtain ⟨⟨p, spec⟩, hpc, rfl⟩ := Option.map_eq_some_iff.1 hkey
  have hmem : Column.ofSpec p spec ∈ dao.table.propertyColumns := by
    rw [hof.propertyColumns]
    exact List.mem_map.2 ⟨(p, spec), List.mem_of_find?_eq_some hpc, rfl⟩
  exact ⟨Column.ofSpec p spec, hmem, rfl, rfl⟩

/-- No other column is written as that of the primary key. -/
theorem keyColumns_eq (hof : IsDaoOf e dao)
    (h : (dao.table.propertyColumns.map Column.property).Nodup) {key : KeyColumn} {c : Column}
    (hkey : dao.primaryKey = some key) (hc : dao.KeepsKey key c) :
    dao.keyColumns = ValueColumn.ofColumns [c] := by
  have hcolumns : (dao.table.propertyColumns.filter fun b => b.property.all fun property =>
      decide (key.property = property)) = [c] := by
    rw [← Dao.filter_property h hc.mem hc.property]
    refine List.filter_congr fun b hb => ?_
    obtain ⟨property, hproperty⟩ := Option.isSome_iff_exists.1 (Dao.isSome_property hb)
    simp [hproperty, eq_comm]
  rw [Dao.keyColumns, hof.columns_eq, ← hcolumns, Dao.ofColumns_filter]
  refine List.filter_congr fun b _ => ?_
  rw [Dao.isKeyColumn, hkey, Option.any_some]

end IsDaoOf

/-! ## Statements -/

namespace Dao

/-- The statement that writes rows in the columns that keep properties. -/
def insertText (dao : Dao) (verb : String) (rows : List (List Value)) : String :=
  verb ++ " into " ++ dao.tableName ++ " (" ++ ",".intercalate dao.listedColumns ++ ") values " ++
    ", ".intercalate (rows.map rowText)

/-- The names of the columns that an update assigns. -/
def assignedNames (dao : Dao) (part : Option (List String)) : List String :=
  (dao.assignedColumns part).map Column.name

/-- The template of an update, with what it has behind the assignments. -/
def updateTemplate (dao : Dao) (part : Option (List String)) (rest : String) : String :=
  "update " ++ dao.tableName ++ " set " ++
    ",".intercalate ((dao.assignedNames part).map (· ++ " = ?")) ++ rest

/-- The condition on a primary key in a template. -/
def keyRest (dao : Dao) (key : KeyColumn) : String :=
  " where " ++ key.column ++ " = ?" ++ dao.liveAnd

/-- The statement that assigns a row of values, with what it has behind the assignments. -/
def updateText (dao : Dao) (part : Option (List String)) (row : List Value) (scope : String) :
    String :=
  "update " ++ dao.tableName ++ " set " ++
    assignedText ((dao.assignedColumns part).map Column.name) row ++ scope

/-- The condition on the value of a primary key. -/
def keyScope (dao : Dao) (key : KeyColumn) (v : Value) : String :=
  " where " ++ key.column ++ " = " ++ v.literal ++ dao.liveAnd

/-- The clauses of a query. -/
def queryScope (dao : Dao) (q : Query) : String :=
  " " ++ q.clauseText dao.target.mapping dao.target.softDelete

end Dao

section Statements

variable {e : Entity} {dao : Dao} (hof : IsDaoOf e dao) (h : dao.Writable)

/-- An insert with one placeholder at its end takes the rows there. -/
theorem Insert.statementText_eq_ok_iff {i : Insert} {front : String}
    (htemplate : i.template = front ++ "?") (hfront : IsFixed front) {objects : List Json}
    {sql : String} :
    i.statementText objects = .ok sql ↔ ∃ rows,
      List.Forall₂ (fun object row => entityValues i.columns object = .ok row) objects rows ∧
        sql = front ++ ", ".intercalate (rows.map rowText) := by
  have htext : ∀ rows : List (List Value),
      format i.template [.literal (.list (rows.map Value.list))] =
        front ++ ", ".intercalate (rows.map rowText) := by
    intro rows
    have hempty : fill "" [] = "" := rfl
    have hmark := fill_mark "" (", ".intercalate (rows.map rowText)) []
    rw [String.append_empty, hempty, String.append_empty] at hmark
    rw [format, htemplate, List.map_singleton, Param.text, literal_rows, hfront, hmark]
  simp only [statementText, except_bind_eq_ok_iff, mapM_eq_ok_iff, htext, Except.ok.injEq,
    eq_comm (a := sql)]

/-- An insert about a table takes the rows behind the names of the columns. -/
theorem Dao.statementText_rows {lead : String} (hlead : IsFixed lead)
    (htable : IsUnmarked dao.tableName)
    (hcolumns : ∀ c ∈ dao.table.propertyColumns, IsUnmarked c.name) {i : Insert}
    (htemplate : i.template =
      lead ++ dao.tableName ++ " (" ++ dao.columnList ++ ") values ?")
    {objects : List Json} {sql : String} :
    i.statementText objects = .ok sql ↔ ∃ rows,
      List.Forall₂ (fun object row => entityValues i.columns object = .ok row) objects rows ∧
        sql = lead ++ dao.tableName ++ " (" ++ dao.columnList ++ ") values " ++
          ", ".intercalate (rows.map rowText) := by
  have hmarks : IsFixed " (" ∧ IsFixed "," ∧ IsFixed ") values " := by
    refine ⟨.of_unmarked ?_, .of_unmarked ?_, .of_unmarked ?_⟩ <;> simp [IsUnmarked, isQuote]
  obtain ⟨hopening, hcomma, hvalues⟩ := hmarks
  have hnames : IsFixed dao.columnList :=
    hcomma.intercalate (List.forall_mem_map.2 fun c hc => .of_unmarked (hcolumns c hc))
  have hfront :=
    (((hlead.append (.of_unmarked htable)).append hopening).append hnames).append hvalues
  have hlast : ") values ?" = ") values " ++ "?" := rfl
  rw [hlast, ← String.append_assoc] at htemplate
  exact Insert.statementText_eq_ok_iff htemplate hfront

include hof h

/-- A statement that inserts has a row for each object, with the values that the columns take from
it. -/
theorem IsDaoOf.statementText_insert {i : Insert} {verb : String}
    (hverb : IsFixed (verb ++ " into ")) (hcolumns : i.columns = dao.columns)
    (htemplate : i.template =
      verb ++ " into " ++ dao.tableName ++ " (" ++ dao.columnList ++ ") values ?")
    {objects : List Json} {sql : String} :
    i.statementText objects = .ok sql ↔ ∃ rows,
      List.Forall₂ (TakesRow dao.table.propertyColumns) objects rows ∧
        sql = dao.insertText verb rows := by
  rw [Dao.statementText_rows hverb h.table h.columns htemplate, hcolumns, hof.columns_eq]
  simp only [entityValues_eq_ok_iff fun _ => Dao.isSome_property]
  rfl

theorem IsDaoOf.insert_statementText {objects : List Json} {sql : String} :
    dao.insert.statementText objects = .ok sql ↔ ∃ rows,
      List.Forall₂ (TakesRow dao.table.propertyColumns) objects rows ∧
        sql = dao.insertText "insert" rows :=
  hof.statementText_insert h (.of_unmarked (by simp [IsUnmarked, isQuote])) rfl rfl

theorem IsDaoOf.replace_statementText {objects : List Json} {sql : String} :
    dao.replace.statementText objects = .ok sql ↔ ∃ rows,
      List.Forall₂ (TakesRow dao.table.propertyColumns) objects rows ∧
        sql = dao.insertText "replace" rows :=
  hof.statementText_insert h (.of_unmarked (by simp [IsUnmarked, isQuote])) rfl rfl

omit hof h in
/-- A template that assigns names takes a row of values, and behind the assignments what is put into
the rest of it. -/
theorem Dao.fill_set (htable : IsUnmarked dao.tableName) {names : List String}
    (hnames : ∀ name ∈ names, IsUnmarked name) {row : List Value}
    (hlength : names.length = row.length) (rest : String) (texts : List String) :
    fill ("update " ++ dao.tableName ++ " set " ++
        ",".intercalate (names.map (· ++ " = ?")) ++ rest) (row.map Value.literal ++ texts) =
      "update " ++ dao.tableName ++ " set " ++ assignedText names row ++ fill rest texts := by
  have hwords : IsFixed "update " ∧ IsFixed " set " := by
    refine ⟨.of_unmarked ?_, .of_unmarked ?_⟩ <;> simp [IsUnmarked, isQuote]
  rw [String.append_assoc, (hwords.1.append (.of_unmarked htable)).append hwords.2,
    fill_assignments (fun name hname => .of_unmarked (hnames name hname)) hlength]
  simp only [String.append_assoc]

omit hof in
theorem Dao.Writable.fill_update {part : Option (List String)} {row : List Value}
    (hlength : (dao.assignedColumns part).length = row.length) (rest : String)
    (texts : List String) :
    fill (dao.updateTemplate part rest) (row.map Value.literal ++ texts) =
      dao.updateText part row (fill rest texts) := by
  have hnames : ∀ name ∈ dao.assignedNames part, IsUnmarked name :=
    List.forall_mem_map.2 fun c hc => h.columns c (mem_assignedColumns hc)
  exact Dao.fill_set h.table hnames (by rwa [Dao.assignedNames, List.length_map]) rest texts

omit h in
/-- A statement that updates the row with a primary key has the values that the columns take from
the object, and behind them the value that the key column takes from it. -/
theorem IsDaoOf.updateKey_fill
    (hnodup : (dao.table.propertyColumns.map Column.property).Nodup) {key : KeyColumn} {c : Column}
    (hkey : dao.primaryKey = some key) (hc : dao.KeepsKey key c) (part : Option (List String))
    {object : Json} {sql : String} :
    (dao.updateKey key (ValueColumn.ofColumns (dao.assignedColumns part))).statementText object [] =
        .ok sql ↔ ∃ row v, TakesRow (dao.assignedColumns part) object row ∧
      TakesRow [c] object [v] ∧ sql = fill (dao.updateTemplate part (dao.keyRest key))
        (row.map Value.literal ++ [v.literal]) := by
  have hsome : ∀ b ∈ dao.assignedColumns part ++ [c], b.property.isSome = true := by
    rw [List.forall_mem_append, List.forall_mem_singleton]
    exact ⟨fun b hb => Dao.isSome_property (Dao.mem_assignedColumns hb),
      Dao.isSome_property hc.mem⟩
  have hcolumns : (dao.updateKey key
      (ValueColumn.ofColumns (dao.assignedColumns part))).columns =
        ValueColumn.ofColumns (dao.assignedColumns part ++ [c]) :=
    (congrArg (ValueColumn.ofColumns (dao.assignedColumns part) ++ ·)
      (hof.keyColumns_eq hnodup hkey hc)).trans List.filterMap_append.symm
  have htemplate : (dao.updateKey key
      (ValueColumn.ofColumns (dao.assignedColumns part))).template =
        dao.updateTemplate part (dao.keyRest key) := by
    rw [Dao.updateKey, Dao.setClause_eq hnodup fun c => Dao.mem_assignedColumns]
    simp only [Dao.updateTemplate, Dao.assignedNames, Dao.keyRest, String.append_assoc]
  have htexts : ∀ row v, (row ++ [v]).map Value.literal ++ [] =
      row.map Value.literal ++ [v.literal] := by simp
  rw [Update.statementText_eq_ok_iff, hcolumns, htemplate]
  simp only [entityValues_eq_ok_iff hsome, takesRow_concat]
  constructor
  · rintro ⟨_, ⟨row, v, rfl, hrow, hv⟩, rfl⟩
    exact ⟨row, v, hrow, hv, congrArg _ (htexts row v)⟩
  · rintro ⟨row, v, hrow, hv, rfl⟩
    exact ⟨_, ⟨row, v, rfl, hrow, hv⟩, (congrArg _ (htexts row v)).symm⟩

/-- A statement that updates the row with a primary key assigns the values that the columns take
from the object, and its condition has the value that the key column takes from it. -/
theorem IsDaoOf.updateKey_statementText {key : KeyColumn} {c : Column}
    (hkey : dao.primaryKey = some key) (hc : dao.KeepsKey key c) (part : Option (List String))
    {object : Json} {sql : String} :
    (dao.updateKey key (ValueColumn.ofColumns (dao.assignedColumns part))).statementText object [] =
        .ok sql ↔ ∃ row v, TakesRow (dao.assignedColumns part) object row ∧
      TakesRow [c] object [v] ∧ sql = dao.updateText part row (dao.keyScope key v) := by
  have htext : ∀ row v, TakesRow (dao.assignedColumns part) object row →
      fill (dao.updateTemplate part (dao.keyRest key)) (row.map Value.literal ++ [v.literal]) =
        dao.updateText part row (dao.keyScope key v) := by
    rintro row v ⟨fields, -, hrow⟩
    have hname : IsFixed key.column := hc.name ▸ h.isFixed_name hc.mem
    rw [h.fill_update hrow.length_eq, Dao.keyRest, Dao.fill_column hname,
      dao.isBalanced_liveAnd.fill, Dao.keyScope]
  rw [hof.updateKey_fill h.properties hkey hc part]
  refine exists_congr fun row => exists_congr fun v => and_congr_right fun hrow => ?_
  rw [htext row v hrow]

omit hof h in
/-- A statement that updates the rows of a query has the values that the columns take from the
object, and behind them the clauses of the query. -/
theorem Dao.updateQuery_fill
    (hnodup : (dao.table.propertyColumns.map Column.property).Nodup) (part : Option (List String))
    (q : Query) {object : Json} {sql : String} :
    (dao.updateQuery (ValueColumn.ofColumns (dao.assignedColumns part))).statementText object
        [.query q] = .ok sql ↔ ∃ row, TakesRow (dao.assignedColumns part) object row ∧
      sql = fill (dao.updateTemplate part " ?") (row.map Value.literal ++
        [q.clauseText dao.target.mapping dao.target.softDelete]) := by
  have hsome : ∀ b ∈ dao.assignedColumns part, b.property.isSome = true := fun b hb =>
    isSome_property (mem_assignedColumns hb)
  have htemplate : (dao.updateQuery
      (ValueColumn.ofColumns (dao.assignedColumns part))).template =
        dao.updateTemplate part " ?" := by
    rw [updateQuery, setClause_eq hnodup fun c => mem_assignedColumns]
    rfl
  rw [Update.statementText_eq_ok_iff, htemplate]
  exact exists_congr fun row => and_congr_left fun _ => entityValues_eq_ok_iff hsome

omit hof in
/-- A statement that updates the rows of a query assigns the values that the columns take from the
object, and has the clauses of the query behind them. -/
theorem Dao.Writable.updateQuery_statementText (part : Option (List String)) (q : Query)
    {object : Json} {sql : String} :
    (dao.updateQuery (ValueColumn.ofColumns (dao.assignedColumns part))).statementText object
        [.query q] = .ok sql ↔ ∃ row, TakesRow (dao.assignedColumns part) object row ∧
      sql = dao.updateText part row (dao.queryScope q) := by
  rw [updateQuery_fill h.properties part q]
  refine exists_congr fun row => and_congr_right ?_
  rintro ⟨fields, -, hrow⟩
  rw [h.fill_update hrow.length_eq, fill_query, queryScope]

end Statements

end Persistence
