import Mathlib
import Persistence.Catalog

/-!
# Declared entity types

Entity types whose declarations tell their properties and columns apart, and lists of entity types
whose names and tables are distinct.  What a table has of its entity type can then be read off the
declaration: a column is the one of its property, and a foreign key is the reference of its
property, resolved.

Main results:

- `Entity.lookup_resolvedKeys`: the foreign key of a column is the reference of its property.
- `Catalog.mem_cascades`: the dependents that an entity type makes.
- `DistinctEntities.resolve?_eq_some`: how a reference is resolved among declared entity types.
-/

namespace Persistence

/-- An item is the first one with its key if keys are distinct. -/
theorem find?_eq_some_of_nodup {α : Type} (key : α → String) {items : List α}
    (h : (items.map key).Nodup) {a : α} (ha : a ∈ items) :
    items.find? (fun b => key b = key a) = some a := by
  cases hfind : items.find? (fun b => key b = key a) with
  | none =>
      have hnone := List.find?_eq_none.1 hfind a ha
      simp at hnone
  | some b =>
      have hkey : key b = key a := by simpa using List.find?_some hfind
      rw [List.inj_on_of_nodup_map h (List.mem_of_find?_eq_some hfind) ha hkey]

/-! ## One entity type -/

namespace Entity

/-- The properties of an entity type have distinct keys and distinct columns. -/
structure ToldApart (e : Entity) : Prop where
  keys : (e.properties.map Property.key).Nodup
  columns : (e.columnProperties.map fun pc => pc.2.name).Nodup

/-- The properties of an entity type have distinct keys and distinct columns, and none is kept in
a column and found through a relation as well. -/
structure WellDeclared (e : Entity) : Prop where
  keys : (e.properties.map Property.key).Nodup
  columns : (e.columnProperties.map fun pc => pc.2.name).Nodup
  either : ∀ p ∈ e.properties, p.column = none ∨ p.relation = none

variable {e : Entity} {p : Property} {c : ColumnSpec}

@[simp]
theorem mem_columnProperties :
    (p, c) ∈ e.columnProperties ↔ p ∈ e.properties ∧ p.column = some c := by
  simp [columnProperties]

theorem WellDeclared.toldApart (h : e.WellDeclared) : e.ToldApart := ⟨h.keys, h.columns⟩

/-- The properties that are kept in columns have distinct keys. -/
theorem ToldApart.nodup_columnKeys (h : e.ToldApart) :
    (e.columnProperties.map fun pc => pc.1.key).Nodup := by
  have hsublist : ∀ properties : List Property,
      ((properties.filterMap fun p => p.column.map fun c => (p, c)).map fun pc => pc.1.key).Sublist
        (properties.map Property.key) := by
    intro properties
    induction properties with
    | nil => exact List.Sublist.refl _
    | cons first properties ih =>
        cases hcolumn : first.column with
        | none =>
            rw [List.filterMap_cons_none (by simp [hcolumn])]
            exact ih.cons _
        | some c =>
            rw [List.filterMap_cons_some (b := (first, c)) (by simp [hcolumn])]
            exact ih.cons_cons _
  exact h.keys.sublist (hsublist e.properties)

/-- A property is found by its key. -/
theorem ToldApart.property?_eq (h : e.ToldApart) (hp : p ∈ e.properties) :
    e.property? p.key = some p :=
  find?_eq_some_of_nodup Property.key h.keys hp

/-- A property that is found has the key and is one of the properties. -/
theorem property?_eq_some {key : String} (h : e.property? key = some p) :
    p ∈ e.properties ∧ p.key = key :=
  ⟨List.mem_of_find?_eq_some h, by simpa using List.find?_some h⟩

end Entity

/-! ## Foreign keys -/

namespace Table

variable {e : Entity} {lookup : String → Option Entity}

/-- One step of the collection of foreign keys. -/
def addResolved (e : Entity) (lookup : String → Option Entity) (keys : List (String × ForeignKey))
    (pc : Property × ColumnSpec) : List (String × ForeignKey) :=
  match pc.2.foreignKey.bind fun ref => ref.resolve? e lookup with
  | some key => Keyed.putSorted pc.2.name key keys
  | none => keys

theorem resolvedKeys_eq (e : Entity) (lookup : String → Option Entity) :
    resolvedKeys e lookup = e.columnProperties.foldl (addResolved e lookup) [] := rfl

theorem lookup_addResolved (keys : List (String × ForeignKey)) (pc : Property × ColumnSpec)
    (name : String) :
    (addResolved e lookup keys pc).lookup name =
      if name = pc.2.name then
        (pc.2.foreignKey.bind fun ref => ref.resolve? e lookup) <|> keys.lookup name
      else keys.lookup name := by
  rw [addResolved]
  cases hkey : pc.2.foreignKey.bind fun ref => ref.resolve? e lookup with
  | none => simp
  | some key => simp [Keyed.lookup_putSorted]

/-- Columns that are not among the given ones have no foreign key from them. -/
theorem lookup_foldl_addResolved_of_notMem {name : String} (l : List (Property × ColumnSpec))
    (keys : List (String × ForeignKey)) (h : name ∉ l.map fun pc => pc.2.name) :
    (l.foldl (addResolved e lookup) keys).lookup name = keys.lookup name := by
  induction l generalizing keys with
  | nil => rfl
  | cons first l ih =>
      rw [List.map_cons, List.mem_cons, not_or] at h
      rw [List.foldl_cons, ih _ h.2, lookup_addResolved, if_neg h.1]

/-- The foreign key of a column is the reference of its property, if it can be resolved. -/
theorem lookup_resolvedKeys (h : e.ToldApart) {p : Property} {c : ColumnSpec}
    (hpc : (p, c) ∈ e.columnProperties) :
    (resolvedKeys e lookup).lookup c.name = c.foreignKey.bind fun ref => ref.resolve? e lookup := by
  obtain ⟨front, back, hsplit⟩ := List.append_of_mem hpc
  have hnodup := h.columns
  rw [hsplit, List.map_append, List.map_cons] at hnodup
  have hback : c.name ∉ back.map fun pc => pc.2.name :=
    (List.nodup_cons.1 (List.nodup_append.1 hnodup).2.1).1
  have hfront : c.name ∉ front.map fun pc => pc.2.name := fun hmem =>
    (List.nodup_append.1 hnodup).2.2 c.name hmem c.name List.mem_cons_self rfl
  rw [resolvedKeys_eq, hsplit, List.foldl_append, List.foldl_cons,
    lookup_foldl_addResolved_of_notMem _ _ hback, lookup_addResolved, if_pos rfl,
    lookup_foldl_addResolved_of_notMem _ _ hfront]
  simp

variable {t : Table}

/-- The table of an entity type has its columns, and the flag if deletion is soft. -/
theorem ofEntity?_eq_some (h : ofEntity? e lookup = some t) :
    e.tableName? = some t.name ∧ t.softDelete = e.softDelete ∧
      t.foreignKeys = resolvedKeys e lookup ∧
      t.columns = e.columnProperties.map (fun (p, c) => Column.ofSpec p c) ++
        if t.softDelete then [Column.softDeleteFlag] else [] := by
  rw [ofEntity?, Option.map_eq_some_iff] at h
  obtain ⟨spec, hspec, rfl⟩ := h
  refine ⟨?_, ?_, rfl, rfl⟩
  · rw [Entity.tableName?, hspec, Option.map_some]
  · rw [Entity.softDelete, hspec, Option.any_some]

/-- An entity type has a table if it has the name of one. -/
theorem exists_ofEntity? (lookup : String → Option Entity) {name : String}
    (h : e.tableName? = some name) : ∃ t, ofEntity? e lookup = some t ∧ t.name = name := by
  rw [Entity.tableName?, Option.map_eq_some_iff] at h
  obtain ⟨spec, hspec, rfl⟩ := h
  rw [ofEntity?, hspec, Option.map_some]
  exact ⟨_, rfl, rfl⟩

end Table

namespace Catalog

/-- The dependents that an entity type makes: one for each cascading foreign key. -/
theorem mem_cascades {e : Entity} (h : e.ToldApart) {lookup : String → Option Entity}
    {t : Table} (ht : Table.ofEntity? e lookup = some t) {table : String} {dep : Dependent} :
    (table, dep) ∈ cascades e t ↔ ∃ p c ref key, (p, c) ∈ e.columnProperties ∧
      c.foreignKey = some ref ∧ ref.resolve? e lookup = some key ∧ key.action = .cascade ∧
      key.table = table ∧ dep = ⟨e.name, t.name, p.key, ref.property, key.column⟩ := by
  obtain ⟨-, -, hkeys, -⟩ := Table.ofEntity?_eq_some ht
  constructor
  · intro hmem
    obtain ⟨⟨p, c⟩, hpc, hmake⟩ := List.mem_filterMap.1 hmem
    obtain ⟨ref, href, hmake⟩ := Option.bind_eq_some_iff.1 hmake
    obtain ⟨key, hkey, hmake⟩ := Option.bind_eq_some_iff.1 hmake
    rw [hkeys, Table.lookup_resolvedKeys h hpc, href, Option.bind_some] at hkey
    split at hmake
    · next haction =>
        obtain ⟨rfl, rfl⟩ := Prod.mk.inj (Option.some.inj hmake)
        exact ⟨p, c, ref, key, hpc, href, hkey, haction, rfl, rfl⟩
    · simp at hmake
  · rintro ⟨p, c, ref, key, hpc, href, hresolve, haction, rfl, rfl⟩
    refine List.mem_filterMap.2 ⟨(p, c), hpc, ?_⟩
    have hkey : t.foreignKeys.lookup c.name = some key := by
      rw [hkeys, Table.lookup_resolvedKeys h hpc, href, Option.bind_some, hresolve]
    simp [href, hkey, haction]

end Catalog

/-! ## Resolution -/

/-- The first entity type with a name. -/
def findEntity (entities : List Entity) (name : String) : Option Entity :=
  entities.find? fun e => e.name = name

/-- Entity types that are told apart by their names and their tables, and the properties of each of
them by their keys and columns. -/
structure DistinctEntities (entities : List Entity) : Prop where
  names : (entities.map Entity.name).Nodup
  tables : (entities.filterMap Entity.tableName?).Nodup
  each : ∀ e ∈ entities, e.ToldApart

/-- Entity types that are told apart by their names and their tables. -/
structure DeclaredTogether (entities : List Entity) : Prop where
  names : (entities.map Entity.name).Nodup
  tables : (entities.filterMap Entity.tableName?).Nodup
  declared : ∀ e ∈ entities, e.WellDeclared

/-- A property refers with the action `CASCADE` to a column of an entity type. -/
structure CascadesTo (e : Entity) (p : Property) (c : ColumnSpec) (ref : ForeignRef)
    (target : Entity) (column : ColumnSpec) : Prop where
  property : (p, c) ∈ e.columnProperties
  foreignKey : c.foreignKey = some ref
  action : ref.action = .cascade
  entity : ref.entity = target.name
  column : ∃ q, (q, column) ∈ target.columnProperties ∧ q.key = ref.property

variable {entities : List Entity} {e target : Entity}

theorem findEntity_eq_some {name : String} (h : findEntity entities name = some e) :
    e ∈ entities ∧ e.name = name :=
  ⟨List.mem_of_find?_eq_some h, by simpa using List.find?_some h⟩

theorem DeclaredTogether.distinct (h : DeclaredTogether entities) : DistinctEntities entities :=
  ⟨h.names, h.tables, fun e he => (h.declared e he).toldApart⟩

namespace DistinctEntities

/-- A name belongs to one entity type. -/
theorem eq_of_name (h : DistinctEntities entities) (he : e ∈ entities) (htarget : target ∈ entities)
    (hname : e.name = target.name) : e = target :=
  List.inj_on_of_nodup_map h.names he htarget hname

/-- An entity type is found by its name. -/
theorem findEntity_eq (h : DistinctEntities entities) (he : e ∈ entities) :
    findEntity entities e.name = some e :=
  find?_eq_some_of_nodup Entity.name h.names he

/-- A table belongs to one entity type. -/
theorem eq_of_tableName? (h : DistinctEntities entities) (he : e ∈ entities)
    (htarget : target ∈ entities) {table : String} (hname : e.tableName? = some table)
    (hname' : target.tableName? = some table) : e = target := by
  obtain ⟨front, back, rfl⟩ := List.append_of_mem he
  have hnodup := h.tables
  rw [List.filterMap_append, List.filterMap_cons_some hname, List.nodup_append] at hnodup
  obtain ⟨-, hback, hfront⟩ := hnodup
  rcases List.mem_append.1 htarget with hmem | hmem
  · have hin := List.mem_filterMap.2 ⟨target, hmem, hname'⟩
    exact absurd rfl (hfront table hin table List.mem_cons_self)
  · rcases List.mem_cons.1 hmem with rfl | hmem
    · rfl
    · have hin := List.mem_filterMap.2 ⟨target, hmem, hname'⟩
      exact absurd hin (List.nodup_cons.1 hback).1

/-- A reference is resolved to the table and the column of the property that it names. -/
theorem resolve?_eq_some (h : DistinctEntities entities) (he : e ∈ entities) {ref : ForeignRef}
    {key : ForeignKey} :
    ref.resolve? e (findEntity entities) = some key ↔ ∃ target ∈ entities, ∃ q column,
      ref.entity = target.name ∧ target.tableName? = some key.table ∧
      (q, column) ∈ target.columnProperties ∧ q.key = ref.property ∧ column.name = key.column ∧
      ref.action = key.action := by
  have hself : ref.resolve? e (findEntity entities) =
      (findEntity entities ref.entity).bind fun target => target.tableName?.bind fun table =>
        (target.property? ref.property).bind fun q => q.columnName?.bind fun column =>
          some ⟨table, column, ref.action⟩ := by
    rw [ForeignRef.resolve?]
    split
    · next heq =>
        rw [heq, h.findEntity_eq he]
        rfl
    · rfl
  rw [hself]
  constructor
  · intro hresolve
    obtain ⟨target, htarget, hresolve⟩ := Option.bind_eq_some_iff.1 hresolve
    obtain ⟨table, htable, hresolve⟩ := Option.bind_eq_some_iff.1 hresolve
    obtain ⟨q, hq, hresolve⟩ := Option.bind_eq_some_iff.1 hresolve
    obtain ⟨name, hname, hresolve⟩ := Option.bind_eq_some_iff.1 hresolve
    obtain ⟨column, hcolumn, rfl⟩ := Option.map_eq_some_iff.1 hname
    obtain ⟨hmem, htargetName⟩ := findEntity_eq_some htarget
    obtain ⟨hqmem, hkey⟩ := Entity.property?_eq_some hq
    obtain rfl := Option.some.inj hresolve
    exact ⟨target, hmem, q, column, htargetName.symm, htable,
      Entity.mem_columnProperties.2 ⟨hqmem, hcolumn⟩, hkey, rfl, rfl⟩
  · rintro ⟨target, hmem, q, column, hentity, htable, hq, hkey, hcolumn, haction⟩
    obtain ⟨hqmem, hqcolumn⟩ := Entity.mem_columnProperties.1 hq
    have hfind := (h.each target hmem).property?_eq hqmem
    rw [hentity, h.findEntity_eq hmem]
    simp [htable, ← hkey, hfind, Property.columnName?, hqcolumn, hcolumn, haction]

end DistinctEntities

end Persistence
