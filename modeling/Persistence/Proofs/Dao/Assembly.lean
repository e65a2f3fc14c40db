import Persistence.Proofs.Dao.Opening
import Persistence.Proofs.Dao.Statements

/-!
# Assembled programs

The states in which entity types with plain names have been registered and opened, in any order and
any number of times.  Between two of them anything may happen that leaves the catalog and the
registered operations of entity types alone.

Main results:

- `IsDaoOf.plain`: the access objects of a plain entity type are plain.
- `Assembled.equipped`: what relations and cascades find are the selects and deletes of plain access
  objects.
-/

namespace Persistence

open Sql

/-! ## Plain entity types -/

/-- Whether the names of an entity type need no quotes in statements: those of its table, of the
properties that are kept in columns, of the columns, and of the columns in which relations are
looked up. -/
def Entity.isPlain (e : Entity) : Bool :=
  e.tableName?.all isBareName &&
    (e.columnProperties.all fun (p, c) => isBareName p.key && isBareName c.name) &&
    e.properties.all fun p => p.relation.all fun r => isBareName r.target

namespace Entity

variable {e : Entity} {p : Property} {c : ColumnSpec}

theorem isBareName_table (h : e.isPlain = true) {name : String} (hname : e.tableName? = some name) :
    isBareName name = true := by
  simp only [isPlain, Bool.and_eq_true] at h
  simpa [hname] using h.1.1

theorem isBareName_column (h : e.isPlain = true) (hpc : (p, c) ∈ e.columnProperties) :
    isBareName p.key = true ∧ isBareName c.name = true := by
  simp only [isPlain, Bool.and_eq_true, List.all_eq_true] at h
  simpa using h.1.2 (p, c) hpc

theorem isBareName_relation (h : e.isPlain = true) (hp : p ∈ e.properties) {r : Relation}
    (hr : p.relation = some r) : isBareName r.target = true := by
  simp only [isPlain, Bool.and_eq_true, List.all_eq_true] at h
  simpa [hr] using h.2 p hp

/-- The names of the table and of the columns of an entity type need no quotes. -/
structure HasBareNames (e : Entity) : Prop where
  table : ∀ name, e.tableName? = some name → isBareName name = true
  column : ∀ p c, (p, c) ∈ e.columnProperties → isBareName c.name = true

theorem hasBareNames (h : e.isPlain = true) : e.HasBareNames where
  table _ hname := isBareName_table h hname
  column _ _ hpc := (isBareName_column h hpc).2

end Entity

/-! ## Mappings -/

namespace Mapping

theorem plain_empty : Mapping.empty.Plain where
  columns field h := h
  lookups property l h := by cases h

theorem Plain.withColumn {m : Mapping} (h : m.Plain) (property : String) {column : String}
    (hcolumn : isBareName column = true) : (m.withColumn property column).Plain where
  columns field hfield := by
    by_cases heq : field = property
    · rw [heq, columnName_withColumn]
      exact hcolumn
    · rw [columnName_withColumn_of_ne m column heq]
      exact h.columns field hfield
  lookups key l hl := by
    rcases Keyed.mem_putSorted hl with heq | hl
    · cases heq
    · exact h.lookups key l hl

theorem Plain.withLookup {m : Mapping} (h : m.Plain) (property : String) {l : Lookup}
    (hselect : ∃ entity, l.select = findId entity ∨ l.select = findListId entity)
    (htarget : ∃ column, l.target = some column ∧ isBareName column = true) :
    (m.withLookup property l).Plain where
  columns field hfield := by
    by_cases heq : field = property
    · have hself : (m.withLookup property l).columnName field = field := by
        simp [columnName, get?, Mapping.withLookup, Keyed.lookup_putSorted, heq]
      rwa [hself]
    · rw [columnName_withLookup_of_ne m l heq]
      exact h.columns field hfield
  lookups key l' hl := by
    rcases Keyed.mem_putSorted hl with heq | hl
    · obtain ⟨-, heq⟩ := Prod.mk.inj heq
      obtain rfl := Target.lookup.inj heq
      exact ⟨hselect, htarget⟩
    · exact h.lookups key l' hl

theorem Plain.withColumns {m : Mapping} (h : m.Plain) {columns : List (String × String)}
    (hcolumns : ∀ pc ∈ columns, isBareName pc.2 = true) : (m.withColumns columns).Plain := by
  induction columns generalizing m with
  | nil => exact h
  | cons first columns ih =>
      obtain ⟨hfirst, hrest⟩ := List.forall_mem_cons.1 hcolumns
      exact ih (h.withColumn _ hfirst) hrest

theorem Plain.withRelations {m : Mapping} (h : m.Plain) {properties : List Property}
    (hproperties : ∀ p ∈ properties, ∀ r, p.relation = some r → isBareName r.target = true) :
    (m.withRelations properties).Plain := by
  induction properties generalizing m with
  | nil => exact h
  | cons first properties ih =>
      obtain ⟨hfirst, hrest⟩ := List.forall_mem_cons.1 hproperties
      rw [Mapping.withRelations, List.foldl_cons]
      cases hrelation : first.relation with
      | none => exact ih h hrest
      | some r =>
          refine ih (h.withLookup _ ⟨r.entity, ?_⟩ ⟨r.target, rfl, hfirst r hrelation⟩) hrest
          cases r.many with
          | true => exact .inr rfl
          | false => exact .inl rfl

/-- The mapping of a plain entity type. -/
theorem plain_ofEntity {e : Entity} (h : e.isPlain = true) {lookup : String → Option Entity}
    {t : Table} (ht : Table.ofEntity? e lookup = some t) : (Mapping.ofEntity e t).Plain := by
  rw [Mapping.ofEntity_eq ht]
  refine (plain_empty.withColumns ?_).withRelations fun p hp r hr =>
    Entity.isBareName_relation h hp hr
  rw [List.forall_mem_map]
  exact fun pc hpc => (Entity.isBareName_column h hpc).2

end Mapping

/-! ## Plain access objects -/

section AccessObjects

variable {e : Entity} {dao : Dao}

/-- The columns of the table of such an entity type have bare names, the flag included. -/
theorem IsDaoOf.isBareName_column (hof : IsDaoOf e dao) (h : e.HasBareNames) :
    ∀ c ∈ dao.table.columns, isBareName c.name = true := by
  rw [hof.columns, List.forall_mem_append, List.forall_mem_map]
  constructor
  · exact fun pc hpc => h.column pc.1 pc.2 hpc
  · split
    · simp only [List.mem_singleton, forall_eq]
      rfl
    · simp

/-- The columns that are written are those that keep properties. -/
theorem IsDaoOf.mem_columns (hof : IsDaoOf e dao) {c : ValueColumn} :
    c ∈ dao.columns ↔ ∃ p spec, (p, spec) ∈ e.columnProperties ∧
      c = ⟨p.key, (Column.ofSpec p spec).type, spec.defaultValue⟩ := by
  obtain ⟨t, lookup, codec, ht, rfl⟩ := hof
  show c ∈ ValueColumn.ofColumns t.propertyColumns ↔ _
  rw [ValueColumn.ofColumns, Table.propertyColumns_eq ht, List.mem_filterMap]
  constructor
  · rintro ⟨column, hcolumn, hc⟩
    obtain ⟨⟨p, spec⟩, hpc, rfl⟩ := List.mem_map.1 hcolumn
    exact ⟨p, spec, hpc, (Option.some.inj hc).symm⟩
  · rintro ⟨p, spec, hpc, rfl⟩
    exact ⟨_, List.mem_map.2 ⟨(p, spec), hpc, rfl⟩, rfl⟩

/-- A column that is written is found by its property. -/
theorem IsDaoOf.exists_columnOf? (hof : IsDaoOf e dao) {c : ValueColumn} (hc : c ∈ dao.columns) :
    ∃ column ∈ dao.table.columns, dao.table.columnOf? c.property = some column := by
  obtain ⟨p, spec, hpc, rfl⟩ := hof.mem_columns.1 hc
  have hmem : Column.ofSpec p spec ∈ dao.table.columns := by
    rw [hof.columns]
    exact List.mem_append_left _ (List.mem_map.2 ⟨(p, spec), hpc, rfl⟩)
  have hsome : (dao.table.columnOf? p.key).isSome = true := by
    rw [Table.columnOf?, List.find?_isSome]
    exact ⟨_, hmem, by simp [Column.ofSpec]⟩
  obtain ⟨column, hcolumn⟩ := Option.isSome_iff_exists.1 hsome
  exact ⟨column, List.mem_of_find?_eq_some hcolumn, hcolumn⟩

/-- A primary key has a column. -/
theorem IsDaoOf.keyColumns_ne_nil (hof : IsDaoOf e dao) {key : KeyColumn}
    (hkey : dao.primaryKey = some key) : dao.keyColumns ≠ [] := by
  rw [hof.primaryKey] at hkey
  obtain ⟨⟨p, c⟩, hpc, rfl⟩ := Option.map_eq_some_iff.1 hkey
  have hmem := hof.mem_columns.2 ⟨p, c, List.mem_of_find?_eq_some hpc, rfl⟩
  refine List.ne_nil_of_mem (List.mem_filter.2 ⟨hmem, ?_⟩)
  simp [Dao.isKeyColumn, hof.primaryKey, hpc]

/-- The access objects of a plain entity type are plain. -/
theorem IsDaoOf.plain (hof : IsDaoOf e dao) (h : e.isPlain = true) : dao.Plain where
  table := Entity.isBareName_table h hof.tableName
  target := hof.target_softDelete
  mapping := by
    obtain ⟨t, lookup, codec, ht, rfl⟩ := hof
    exact Mapping.plain_ofEntity h ht
  key key hkey := by
    have hcolumns := hof.keyColumns_ne_nil hkey
    rw [hof.primaryKey] at hkey
    obtain ⟨⟨p, c⟩, hpc, rfl⟩ := Option.map_eq_some_iff.1 hkey
    obtain ⟨hproperty, hcolumn⟩ := Entity.isBareName_column h (List.mem_of_find?_eq_some hpc)
    exact ⟨hproperty, hcolumn, hcolumns⟩
  written c hc := by
    obtain ⟨column, hmem, hcolumn⟩ := hof.exists_columnOf? hc
    exact ⟨column, hcolumn, hof.isBareName_column (Entity.hasBareNames h) column hmem⟩
  columns := hof.isBareName_column (Entity.hasBareNames h)
  flagged hsoft := ⟨_, by rw [hof.columns, if_pos hsoft]⟩

end AccessObjects

/-! ## Plain catalogs -/

namespace Catalog

/-- A catalog of plain entity types. -/
structure Plain (c : Catalog) : Prop where
  entities : ∀ e ∈ Keyed.values c.entities, e.isPlain = true
  dependents : ∀ table, ∀ dep ∈ c.dependentsOf table, isBareName dep.property = true

variable {c : Catalog} {e : Entity}

theorem plain_empty : Catalog.empty.Plain where
  entities e he := by cases he
  dependents table dep hdep := by cases hdep

theorem Plain.addDependent (h : c.Plain) (target : String) {d : Dependent}
    (hd : isBareName d.property = true) : (c.addDependent target d).Plain where
  entities := h.entities
  dependents table dep hdep := by
    rw [dependentsOf_addDependent] at hdep
    split at hdep
    · rcases List.mem_append.1 hdep with hdep | hdep
      · exact h.dependents table dep hdep
      · rw [List.mem_singleton.1 hdep]
        exact hd
    · exact h.dependents table dep hdep

/-- Making the table of a plain entity type keeps a catalog plain. -/
theorem Plain.derive (h : c.Plain) (he : e.isPlain = true) : (c.derive e).1.Plain := by
  have hfold : ∀ (new : List (String × Dependent)) (c : Catalog), c.Plain →
      (∀ td ∈ new, isBareName td.2.property = true) →
        (new.foldl (fun c td => c.addDependent td.1 td.2) c).Plain := by
    intro new
    induction new with
    | nil => exact fun c hc _ => hc
    | cons first new ih =>
        intro c hc hnew
        obtain ⟨hfirst, hrest⟩ := List.forall_mem_cons.1 hnew
        exact ih _ (hc.addDependent first.1 hfirst) hrest
  rw [Catalog.derive]
  split
  · exact h
  · next t _ =>
    refine hfold _ _ ⟨h.entities, h.dependents⟩ fun td htd => ?_
    -- A dependent is on the property of one of the columns.
    obtain ⟨⟨p, spec⟩, hpc, hmake⟩ := List.mem_filterMap.1 htd
    obtain ⟨ref, href, hmake⟩ := Option.bind_eq_some_iff.1 hmake
    obtain ⟨key, hkey, hmake⟩ := Option.bind_eq_some_iff.1 hmake
    split at hmake
    · obtain rfl := Option.some.inj hmake
      exact (Entity.isBareName_column he hpc).1
    · cases hmake

/-- So does making the tables of several. -/
theorem Plain.deriveAll (h : c.Plain) {es : List Entity} (hes : ∀ x ∈ es, x.isPlain = true) :
    (c.deriveAll es).Plain := by
  induction es generalizing c with
  | nil => exact h
  | cons first es ih =>
      obtain ⟨hfirst, hrest⟩ := List.forall_mem_cons.1 hes
      exact ih (h.derive hfirst) hrest

/-- So does registering it. -/
theorem Plain.register (h : c.Plain) (he : e.isPlain = true) : (c.register e).1.Plain := by
  have hvalues : ∀ x ∈ Keyed.values (c.withEntity e).entities, x.isPlain = true := by
    intro x hx
    rcases Keyed.mem_values_put hx with rfl | hx
    · exact he
    · exact h.entities x hx
  have hwith : (c.withEntity e).Plain := ⟨hvalues, h.dependents⟩
  rw [register_fst]
  exact hwith.deriveAll (List.forall_mem_cons.2
    ⟨he, fun x hx => hvalues x (List.mem_of_mem_filter hx)⟩)

end Catalog

/-! ## Assembled programs -/

/-- The states in which some entity types have been registered, with the access objects of those
that were opened and have tables. -/
inductive Assembled : List Entity → List Dao → State → Prop
  /-- At first nothing is registered. -/
  | start {s : State} : s.catalog = Catalog.empty → s.selects = [] → s.deletes = [] →
      Assembled [] [] s
  /-- One more entity type is registered. -/
  | register {es : List Entity} {daos : List Dao} {s s' : State} {e : Entity}
      {table : Option Table} {σ δ : Type} {driver : Driver δ} {l l' : σ} {d d' : δ} :
      Assembled es daos s →
      (registerEntity e : Task σ (Option Table)).run driver l s d = ((.ok table, l'), s', d') →
      Assembled (es ++ [e]) daos s'
  /-- One more entity type is registered and opened. -/
  | openDao {es : List Entity} {daos : List Dao} {s s' : State} {e : Entity} {codec : Codec}
      {opened : Option Dao} {σ δ : Type} {driver : Driver δ} {l l' : σ} {d d' : δ} :
      Assembled es daos s →
      (Persistence.openDao e codec : Task σ (Option Dao)).run driver l s d =
        ((.ok opened, l'), s', d') →
      Assembled (es ++ [e]) (daos ++ opened.toList) s'
  /-- Something else happens. -/
  | other {es : List Entity} {daos : List Dao} {s s' : State} :
      Assembled es daos s → s'.catalog = s.catalog →
      (∀ entity, s'.selects.lookup (findId entity) = s.selects.lookup (findId entity) ∧
        s'.selects.lookup (findListId entity) = s.selects.lookup (findListId entity) ∧
        s'.deletes.lookup (deleteQueryId entity) = s.deletes.lookup (deleteQueryId entity)) →
      Assembled es daos s'

/-- What holds once plain entity types have been registered and opened. -/
structure Equipped (daos : List Dao) (s : State) : Prop where
  catalog : s.catalog.Plain
  plain : ∀ dao ∈ daos, dao.Plain
  selects : ∀ entity id select, id = findId entity ∨ id = findListId entity →
    s.selects.lookup id = some select → ∃ dao ∈ daos, select = dao.findBy ∨ select = dao.findListBy
  deletes : ∀ entity delete, s.deletes.lookup (deleteQueryId entity) = some delete →
    ∃ dao ∈ daos, delete = .dao dao

/-- The ids of selects that find rows by a column are not those of other selects. -/
theorem findId_ne_listQueryId (a b : String) :
    findId a ≠ listQueryId b ∧ findListId a ≠ listQueryId b := by
  have hids : "__INNER__FIND__BY__" = "__INNER__" ++ ("F" ++ "IND__BY__") ∧
      "__INNER__FIND__LIST__BY__" = "__INNER__" ++ ("F" ++ "IND__LIST__BY__") ∧
      "__INNER__LIST__QUERY__" = "__INNER__" ++ ("L" ++ "IST__QUERY__") :=
    ⟨rfl, rfl, rfl⟩
  have hletters : ∀ s t : String, "F" ++ s ≠ "L" ++ t := by
    intro s t h
    simpa using congrArg String.toList h
  unfold findId findListId listQueryId
  simp only [hids, String.append_assoc, ne_eq, String.append_right_inj]
  exact ⟨hletters _ _, hletters _ _⟩

/-- What an access object registers under the ids that relations use are its finding selects. -/
theorem Dao.eq_of_mem_registeredSelects {dao : Dao} {entity id : String} {select : Select}
    (hid : id = findId entity ∨ id = findListId entity)
    (h : (id, select) ∈ dao.registeredSelects) :
    select = dao.findBy ∨ select = dao.findListBy := by
  have hne := findId_ne_listQueryId entity dao.entity
  simp only [registeredSelects, List.mem_cons, Prod.mk.injEq, List.not_mem_nil, or_false] at h
  rcases h with ⟨rfl, -⟩ | ⟨-, rfl⟩ | ⟨-, rfl⟩
  · exact absurd hid (by simp [hne.1.symm, hne.2.symm])
  · exact .inl rfl
  · exact .inr rfl

/-- What holds stays so when one more plain entity type is opened. -/
theorem Equipped.openDao {daos : List Dao} {s s' : State} {e : Entity} {codec : Codec}
    (h : Equipped daos s) (he : e.isPlain = true)
    (hcatalog : s'.catalog = (s.catalog.register e).1)
    (hdeletes : s'.deletes = openedDeletes e codec s.deletes (s.catalog.register e).2)
    (hselects : ∀ id select, s'.selects.lookup id = some select →
      s.selects.lookup id = some select ∨ ∃ t, (s.catalog.register e).2 = some t ∧
        (id, select) ∈ (Dao.ofEntity e t codec).registeredSelects) :
    Equipped (daos ++ ((s.catalog.register e).2.map fun t => Dao.ofEntity e t codec).toList)
      s' where
  catalog := hcatalog ▸ h.catalog.register he
  plain dao hdao := by
    rcases List.mem_append.1 hdao with hdao | hdao
    · exact h.plain dao hdao
    · obtain ⟨t, ht, rfl⟩ := Option.map_eq_some_iff.1 (Option.mem_toList.1 hdao)
      have hmade := s.catalog.register_snd e
      rw [ht] at hmade
      exact IsDaoOf.plain ⟨t, _, codec, hmade.symm, rfl⟩ he
  selects entity id select hid hselect := by
    rcases hselects id select hselect with hbefore | ⟨t, ht, hmem⟩
    · obtain ⟨dao, hdao, heq⟩ := h.selects entity id select hid hbefore
      exact ⟨dao, List.mem_append_left _ hdao, heq⟩
    · exact ⟨Dao.ofEntity e t codec, by simp [ht], Dao.eq_of_mem_registeredSelects hid hmem⟩
  deletes entity delete hdelete := by
    rw [hdeletes] at hdelete
    cases htable : (s.catalog.register e).2 with
    | none =>
        rw [htable] at hdelete
        obtain ⟨dao, hdao, heq⟩ := h.deletes entity delete hdelete
        exact ⟨dao, List.mem_append_left _ hdao, heq⟩
    | some t =>
        rw [htable, openedDeletes, Keyed.lookup_put] at hdelete
        split at hdelete
        · exact ⟨Dao.ofEntity e t codec, by simp, (Option.some.inj hdelete).symm⟩
        · obtain ⟨dao, hdao, heq⟩ := h.deletes entity delete hdelete
          exact ⟨dao, List.mem_append_left _ hdao, heq⟩

/-- What relations and cascades find in an assembled program are the selects and deletes of plain
access objects. -/
theorem Assembled.equipped {es : List Entity} {daos : List Dao} {s : State}
    (h : Assembled es daos s) (hplain : ∀ e ∈ es, e.isPlain = true) : Equipped daos s := by
  induction h with
  | start hcatalog hselects hdeletes =>
      refine ⟨hcatalog ▸ Catalog.plain_empty, by simp, ?_, ?_⟩
      · simp [hselects]
      · simp [hdeletes]
  | @register es daos s s' e table σ δ driver l l' d d' _ hrun ih =>
      obtain ⟨hbefore, he⟩ := List.forall_mem_append.1 hplain
      have h := ih hbefore
      rw [run_registerEntity] at hrun
      simp only [Prod.mk.injEq] at hrun
      obtain ⟨-, rfl, -⟩ := hrun
      exact ⟨h.catalog.register (he e (by simp)), h.plain, h.selects, h.deletes⟩
  | @openDao es daos s s' e codec opened σ δ driver l l' d d' _ hrun ih =>
      obtain ⟨hbefore, he⟩ := List.forall_mem_append.1 hplain
      obtain ⟨s₁, hrun₁, hcatalog, hdeletes, hselects⟩ := run_openDao driver l s d e codec
      rw [hrun₁] at hrun
      simp only [Prod.mk.injEq, Except.ok.injEq] at hrun
      obtain ⟨⟨rfl, -⟩, rfl, -⟩ := hrun
      exact (ih hbefore).openDao (he e (by simp)) hcatalog hdeletes hselects
  | @other es daos s s' _ hcatalog hlookup ih =>
      have h := ih hplain
      refine ⟨hcatalog ▸ h.catalog, h.plain, fun entity id select hid hselect => ?_,
        fun entity delete hdelete => ?_⟩
      · have hsame : s'.selects.lookup id = s.selects.lookup id := by
          rcases hid with rfl | rfl
          · exact (hlookup entity).1
          · exact (hlookup entity).2.1
        exact h.selects entity id select hid (hsame ▸ hselect)
      · rw [(hlookup entity).2.2] at hdelete
        exact h.deletes entity delete hdelete

end Persistence
