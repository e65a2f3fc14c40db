import Persistence.Dao.Delete
import Persistence.Dao.Registration
import Persistence.Proofs.Catalog.Dependents
import Persistence.Proofs.Program.Running

/-!
# Opened entity types

The states in which some entity types have been opened, one after the other and each once, with
their access objects.  Between two of them anything may happen that leaves the catalog and the
registered deletes alone.

Main results:

- `Mapping.get?_ofEntity`: the mapping of an entity type leads each property to its column.
- `Opened.knows`: the catalog knows the entity types that were opened.
- `Opened.exists_dao`: every entity type with a table has an access object, whose delete is
  registered.
-/

namespace Persistence

/-! ## Mappings -/

namespace Mapping

variable {m : Mapping} {property : String}

theorem get?_withColumn (m : Mapping) (property name other : String) :
    (m.withColumn property name).get? other =
      if other = property then some (.column name) else m.get? other :=
  Keyed.lookup_putSorted property other _ m.entries

theorem get?_withLookup (m : Mapping) (property : String) (l : Lookup) (other : String) :
    (m.withLookup property l).get? other =
      if other = property then some (.lookup l) else m.get? other :=
  Keyed.lookup_putSorted property other _ m.entries

theorem columnName_withColumn_of_ne (m : Mapping) {property other : String} (column : String)
    (h : other ≠ property) :
    (m.withColumn property column).columnName other = m.columnName other := by
  rw [columnName, columnName, get?_withColumn, if_neg h]

theorem columnName_withLookup_of_ne (m : Mapping) {property other : String} (l : Lookup)
    (h : other ≠ property) : (m.withLookup property l).columnName other = m.columnName other := by
  rw [columnName, columnName, get?_withLookup, if_neg h]

theorem columnName_of_get? {name : String} (h : m.get? property = some (.column name)) :
    m.columnName property = name := by
  rw [columnName, h]

/-- A mapping to which the columns of some properties were added. -/
def withColumns (m : Mapping) (columns : List (String × String)) : Mapping :=
  columns.foldl (fun m (property, name) => m.withColumn property name) m

/-- Columns of other properties leave a property alone. -/
theorem get?_withColumns_of_notMem {columns : List (String × String)}
    (h : property ∉ columns.map Prod.fst) :
    (m.withColumns columns).get? property = m.get? property := by
  induction columns generalizing m with
  | nil => rfl
  | cons first columns ih =>
      rw [List.map_cons, List.mem_cons, not_or] at h
      refine (ih h.2).trans ?_
      rw [get?_withColumn, if_neg h.1]

/-- A property that was given a column leads to it, if the properties are distinct. -/
theorem get?_withColumns {columns : List (String × String)}
    (hnodup : (columns.map Prod.fst).Nodup) {name : String} (h : (property, name) ∈ columns) :
    (m.withColumns columns).get? property = some (.column name) := by
  induction columns generalizing m with
  | nil => cases h
  | cons first columns ih =>
      rw [List.map_cons, List.nodup_cons] at hnodup
      rcases List.mem_cons.1 h with rfl | h
      · refine (get?_withColumns_of_notMem hnodup.1).trans ?_
        rw [get?_withColumn, if_pos rfl]
      · exact ih hnodup.2 h

/-- A mapping to which the relations of some properties were added. -/
def withRelations (m : Mapping) (properties : List Property) : Mapping :=
  properties.foldl
    (fun m p =>
      match p.relation with
      | some r =>
          let select := if r.many then findListId r.entity else findId r.entity
          m.withLookup p.key ⟨r.source, some r.target, select⟩
      | none => m)
    m

/-- A property leads where it led before, unless it was given a relation. -/
theorem get?_withRelations (m : Mapping) (properties : List Property) (property : String) :
    (m.withRelations properties).get? property = m.get? property ∨
      ∃ l, (m.withRelations properties).get? property = some (.lookup l) ∧
        ∃ p ∈ properties, p.key = property ∧ p.relation ≠ none := by
  induction properties generalizing m with
  | nil => exact .inl rfl
  | cons first properties ih =>
      rw [withRelations, List.foldl_cons]
      cases hrelation : first.relation with
      | none =>
          refine (ih m).imp_right ?_
          rintro ⟨l, hl, p, hp, hkey⟩
          exact ⟨l, hl, p, List.mem_cons_of_mem _ hp, hkey⟩
      | some r =>
          dsimp only
          generalize hlookup : (⟨r.source, some r.target,
            if r.many then findListId r.entity else findId r.entity⟩ : Lookup) = l
          rcases ih (m.withLookup first.key l) with hsame | ⟨l', hl', p, hp, hkey⟩
          · rw [get?_withLookup] at hsame
            split at hsame
            · next heq =>
              exact .inr ⟨l, hsame, first, List.mem_cons_self, heq.symm, by simp [hrelation]⟩
            · exact .inl hsame
          · exact .inr ⟨l', hl', p, List.mem_cons_of_mem _ hp, hkey⟩

theorem pairwise_keys_withColumns (h : (Keyed.keys m.entries).Pairwise (· < ·))
    (columns : List (String × String)) :
    (Keyed.keys (m.withColumns columns).entries).Pairwise (· < ·) := by
  induction columns generalizing m with
  | nil => exact h
  | cons first columns ih =>
      exact ih (m := m.withColumn first.1 first.2) (Keyed.pairwise_keys_putSorted h)

theorem pairwise_keys_withRelations (h : (Keyed.keys m.entries).Pairwise (· < ·))
    (properties : List Property) :
    (Keyed.keys (m.withRelations properties).entries).Pairwise (· < ·) := by
  induction properties generalizing m with
  | nil => exact h
  | cons first properties ih =>
      rw [withRelations, List.foldl_cons]
      cases first.relation with
      | none => exact ih h
      | some r => exact ih (m := m.withLookup first.key _) (Keyed.pairwise_keys_putSorted h)

end Mapping

namespace Table

variable {e : Entity} {lookup : String → Option Entity} {t : Table}

/-- The columns that keep properties are those of the entity type. -/
theorem propertyColumns_eq (h : ofEntity? e lookup = some t) :
    t.propertyColumns = e.columnProperties.map fun (p, c) => Column.ofSpec p c := by
  obtain ⟨-, -, -, hcolumns⟩ := ofEntity?_eq_some h
  have hflag : (if t.softDelete then [Column.softDeleteFlag] else []).filter
      (fun c => c.property.isSome) = [] := by
    split <;> rfl
  rw [propertyColumns, hcolumns, List.filter_append, hflag, List.append_nil,
    List.filter_eq_self.2]
  rintro column hcolumn
  obtain ⟨pc, -, rfl⟩ := List.mem_map.1 hcolumn
  rfl

end Table

theorem Mapping.ofEntity_eq {e : Entity} {lookup : String → Option Entity} {t : Table}
    (h : Table.ofEntity? e lookup = some t) :
    Mapping.ofEntity e t =
      (Mapping.empty.withColumns
        (e.columnProperties.map fun pc => (pc.1.key, pc.2.name))).withRelations e.properties := by
  rw [Mapping.ofEntity, Table.propertyColumns_eq h, Mapping.withColumns, List.foldl_map,
    List.foldl_map]
  rfl

namespace Mapping

variable {e : Entity} {lookup : String → Option Entity} {t : Table}

/-- The properties of a mapping are in ascending order. -/
theorem pairwise_keys_ofEntity (h : Table.ofEntity? e lookup = some t) :
    (Keyed.keys (ofEntity e t).entries).Pairwise (· < ·) := by
  rw [ofEntity_eq h]
  exact pairwise_keys_withRelations (pairwise_keys_withColumns List.Pairwise.nil _) _

/-- A property that is kept in a column leads to it. -/
theorem get?_ofEntity (hdeclared : e.WellDeclared) (h : Table.ofEntity? e lookup = some t)
    {p : Property} {c : ColumnSpec} (hpc : (p, c) ∈ e.columnProperties) :
    (ofEntity e t).get? p.key = some (.column c.name) := by
  obtain ⟨hp, hc⟩ := Entity.mem_columnProperties.1 hpc
  have hkeys : ((e.columnProperties.map fun pc => (pc.1.key, pc.2.name)).map Prod.fst).Nodup := by
    rw [List.map_map]
    exact hdeclared.toldApart.nodup_columnKeys
  rw [ofEntity_eq h]
  rcases get?_withRelations (empty.withColumns _) e.properties p.key with
    hsame | ⟨l, -, q, hq, hkey, hrelation⟩
  · exact hsame.trans (get?_withColumns hkeys (List.mem_map.2 ⟨(p, c), hpc, rfl⟩))
  · obtain rfl := List.inj_on_of_nodup_map hdeclared.keys hp hq hkey.symm
    rcases hdeclared.either p hp with hnone | hnone
    · simp [hc] at hnone
    · exact absurd hnone hrelation

/-- Any other property leads to no column. -/
theorem get?_ofEntity_ne_column (h : Table.ofEntity? e lookup = some t)
    (hproperty : ∀ pc ∈ e.columnProperties, pc.1.key ≠ property) (name : String) :
    (ofEntity e t).get? property ≠ some (.column name) := by
  have hnone :
      property ∉ (e.columnProperties.map fun pc => (pc.1.key, pc.2.name)).map Prod.fst := by
    rw [List.map_map]
    intro hmem
    obtain ⟨pc, hpc, hkey⟩ := List.mem_map.1 hmem
    exact hproperty pc hpc hkey
  rw [ofEntity_eq h]
  rcases get?_withRelations (empty.withColumns _) e.properties property with hsame | ⟨l, hl, -⟩
  · rw [hsame, get?_withColumns_of_notMem hnone]
    simp [get?, empty]
  · simp [hl]

/-- The mapping of an entity type leads each property to its column. -/
theorem columnName_ofEntity (hdeclared : e.WellDeclared) (h : Table.ofEntity? e lookup = some t)
    {p : Property} {c : ColumnSpec} (hpc : (p, c) ∈ e.columnProperties) :
    (ofEntity e t).columnName p.key = c.name :=
  columnName_of_get? (get?_ofEntity hdeclared h hpc)

end Mapping

/-! ## Access objects -/

/-- An access object of an entity type. -/
def IsDaoOf (e : Entity) (dao : Dao) : Prop :=
  ∃ t lookup codec, Table.ofEntity? e lookup = some t ∧ dao = Dao.ofEntity e t codec

namespace IsDaoOf

variable {e : Entity} {dao : Dao}

theorem tableName (h : IsDaoOf e dao) : e.tableName? = some dao.tableName := by
  obtain ⟨t, lookup, codec, ht, rfl⟩ := h
  exact (Table.ofEntity?_eq_some ht).1

theorem softDelete (h : IsDaoOf e dao) : dao.table.softDelete = e.softDelete := by
  obtain ⟨t, lookup, codec, ht, rfl⟩ := h
  exact (Table.ofEntity?_eq_some ht).2.1

theorem target_softDelete (h : IsDaoOf e dao) :
    dao.target.softDelete = dao.table.softDelete := by
  obtain ⟨t, lookup, codec, -, rfl⟩ := h
  rfl

theorem columns (h : IsDaoOf e dao) :
    dao.table.columns = e.columnProperties.map (fun (p, c) => Column.ofSpec p c) ++
      if dao.table.softDelete then [Column.softDeleteFlag] else [] := by
  obtain ⟨t, lookup, codec, ht, rfl⟩ := h
  exact (Table.ofEntity?_eq_some ht).2.2.2

theorem propertyColumns (h : IsDaoOf e dao) :
    dao.table.propertyColumns = e.columnProperties.map fun (p, c) => Column.ofSpec p c := by
  obtain ⟨t, lookup, codec, ht, rfl⟩ := h
  exact Table.propertyColumns_eq ht

theorem primaryKey (h : IsDaoOf e dao) :
    dao.primaryKey = e.primaryKey?.map fun (p, c) => ⟨p.key, c.name⟩ := by
  obtain ⟨t, lookup, codec, -, rfl⟩ := h
  rfl

theorem columnName (h : IsDaoOf e dao) (hdeclared : e.WellDeclared) {p : Property}
    {c : ColumnSpec} (hpc : (p, c) ∈ e.columnProperties) :
    dao.target.mapping.columnName p.key = c.name := by
  obtain ⟨t, lookup, codec, ht, rfl⟩ := h
  exact Mapping.columnName_ofEntity hdeclared ht hpc

/-- The property that a column keeps leads to it. -/
theorem columnName_property (h : IsDaoOf e dao) (hdeclared : e.WellDeclared) {c : Column}
    (hc : c ∈ dao.table.propertyColumns) {property : String}
    (hproperty : c.property = some property) :
    dao.target.mapping.columnName property = c.name := by
  rw [h.propertyColumns] at hc
  obtain ⟨⟨p, spec⟩, hpc, rfl⟩ := List.mem_map.1 hc
  obtain rfl := Option.some.inj hproperty
  exact h.columnName hdeclared hpc

end IsDaoOf

/-! ## Opening -/

section Opening

variable {σ δ : Type} (driver : Driver δ) (l : σ) (s : State) (d : δ)

theorem run_registerEntity (e : Entity) :
    (registerEntity e : Task σ (Option Table)).run driver l s d =
      ((.ok (s.catalog.register e).2, l), { s with catalog := (s.catalog.register e).1 }, d) := by
  rw [registerEntity, Task.run_bind_of_ok Task.run_state]
  exact Task.run_bind_of_ok (Task.run_modify _)

/-- After selects have been registered, an id leads to one of them or to where it led before. -/
theorem run_registerSelects (selects : List (String × Select)) :
    ∃ known, (registerSelects selects : Task σ Unit).run driver l s d =
        ((.ok (), l), { s with selects := known }, d) ∧
      ∀ id select, known.lookup id = some select →
        s.selects.lookup id = some select ∨ (id, select) ∈ selects := by
  induction selects generalizing s with
  | nil => exact ⟨s.selects, rfl, fun _ _ h => .inl h⟩
  | cons first selects ih =>
      obtain ⟨known, hrun, hknown⟩ := ih { s with selects := Keyed.put first.1 first.2 s.selects }
      refine ⟨known, ?_, fun id select h => ?_⟩
      · rw [registerSelects]
        exact (Task.run_bind_of_ok (Task.run_modify _)).trans hrun
      · rcases hknown id select h with hput | hmem
        · rw [Keyed.lookup_put] at hput
          split at hput
          · next heq =>
            refine .inr (List.mem_cons.2 (.inl ?_))
            rw [heq, ← Option.some.inj hput]
          · exact .inl hput
        · exact .inr (List.mem_cons_of_mem _ hmem)

/-- The deletes that are registered once an entity type has been opened. -/
def openedDeletes (e : Entity) (codec : Codec) (deletes : List (String × DeleteOperation)) :
    Option Table → List (String × DeleteOperation)
  | none => deletes
  | some t => Keyed.put (deleteQueryId e.name) (.dao (Dao.ofEntity e t codec)) deletes

/-- Opening an entity type registers it, and its delete and its selects if it has a table. -/
theorem run_openDao (e : Entity) (codec : Codec) :
    ∃ s', (openDao e codec : Task σ (Option Dao)).run driver l s d =
        ((.ok ((s.catalog.register e).2.map fun t => Dao.ofEntity e t codec), l), s', d) ∧
      s'.catalog = (s.catalog.register e).1 ∧
      s'.deletes = openedDeletes e codec s.deletes (s.catalog.register e).2 ∧
      ∀ id select, s'.selects.lookup id = some select → s.selects.lookup id = some select ∨
        ∃ t, (s.catalog.register e).2 = some t ∧
          (id, select) ∈ (Dao.ofEntity e t codec).registeredSelects := by
  rw [openDao, Task.run_bind_of_ok (run_registerEntity driver l s d e)]
  cases htable : (s.catalog.register e).2 with
  | none =>
      exact ⟨{ s with catalog := (s.catalog.register e).1 }, rfl, rfl, rfl, fun _ _ h => .inl h⟩
  | some t =>
      obtain ⟨known, hselects, hknown⟩ :=
        run_registerSelects driver l { s with catalog := (s.catalog.register e).1 } d
          (Dao.ofEntity e t codec).registeredSelects
      refine ⟨{ s with
        catalog := (s.catalog.register e).1
        selects := known
        deletes := openedDeletes e codec s.deletes (some t) }, ?_, rfl, rfl, fun id select h => ?_⟩
      · exact (Task.run_bind_of_ok hselects).trans (Task.run_bind_of_ok (Task.run_modify _))
      · exact (hknown id select h).imp_right fun hmem => ⟨t, rfl, hmem⟩

end Opening

/-- The states in which some entity types have been opened, each once, with the access objects of
those that have tables. -/
inductive Opened : List (Entity × Codec) → List Dao → State → Prop
  /-- At first nothing is registered. -/
  | start {s : State} : s.catalog = Catalog.empty → s.deletes = [] → Opened [] [] s
  /-- One more entity type is opened. -/
  | openDao {es : List (Entity × Codec)} {daos : List Dao} {s s' : State} {e : Entity}
      {codec : Codec} {opened : Option Dao} {σ δ : Type} {driver : Driver δ} {l l' : σ} {d d' : δ} :
      Opened es daos s →
      (Persistence.openDao e codec : Task σ (Option Dao)).run driver l s d =
        ((.ok opened, l'), s', d') →
      Opened (es ++ [(e, codec)]) (daos ++ opened.toList) s'
  /-- Something else happens. -/
  | other {es : List (Entity × Codec)} {daos : List Dao} {s s' : State} :
      Opened es daos s → s'.catalog = s.catalog → s'.deletes = s.deletes → Opened es daos s'

/-! ## What has been opened -/

/-- The ids of deletes tell entity types apart. -/
theorem deleteQueryId_injective : Function.Injective deleteQueryId := by
  intro a b h
  unfold deleteQueryId at h
  exact (String.append_right_inj _).1 h

variable {es : List (Entity × Codec)} {daos : List Dao} {s : State}

theorem DeclaredTogether.of_append {front back : List Entity}
    (h : DeclaredTogether (front ++ back)) : DeclaredTogether front where
  names := by
    have hnames := h.names
    rw [List.map_append] at hnames
    exact (List.nodup_append.1 hnames).1
  tables := by
    have htables := h.tables
    rw [List.filterMap_append] at htables
    exact (List.nodup_append.1 htables).1
  declared e he := h.declared e (List.mem_append_left _ he)

/-- What holds once some entity types have been opened. -/
structure OpenedWell (entities : List Entity) (daos : List Dao) (s : State) : Prop where
  knows : s.catalog.Knows entities
  tables : daos.map Dao.tableName = entities.filterMap Entity.tableName?
  exists_entity : ∀ dao ∈ daos, ∃ e ∈ entities, IsDaoOf e dao
  exists_dao : ∀ e ∈ entities, e.tableName? ≠ none → ∃ dao ∈ daos, IsDaoOf e dao ∧
    s.deletes.lookup (deleteQueryId e.name) = some (.dao dao)

namespace OpenedWell

variable {entities : List Entity} {e : Entity} {s' : State}

/-- An entity type without a table adds no access object. -/
theorem append_without_table (h : OpenedWell entities daos s)
    (hknows : s'.catalog.Knows (entities ++ [e])) (hdeletes : s'.deletes = s.deletes)
    (hnone : e.tableName? = none) : OpenedWell (entities ++ [e]) daos s' where
  knows := hknows
  tables := by
    rw [List.filterMap_append, h.tables]
    simp [hnone]
  exists_entity dao hdao := by
    obtain ⟨x, hx, hof⟩ := h.exists_entity dao hdao
    exact ⟨x, List.mem_append_left _ hx, hof⟩
  exists_dao x hx hname := by
    rcases List.mem_append.1 hx with hx | hx
    · rw [hdeletes]
      exact h.exists_dao x hx hname
    · obtain rfl := List.mem_singleton.1 hx
      exact absurd hnone hname

/-- The access object of an entity type with a table comes with its delete. -/
theorem append_with_table (h : OpenedWell entities daos s) {dao : Dao}
    (hknows : s'.catalog.Knows (entities ++ [e])) (hof : IsDaoOf e dao)
    (hdeletes : s'.deletes = Keyed.put (deleteQueryId e.name) (.dao dao) s.deletes)
    (hnames : ∀ x ∈ entities, x.name ≠ e.name) :
    OpenedWell (entities ++ [e]) (daos ++ [dao]) s' where
  knows := hknows
  tables := by
    rw [List.map_append, List.filterMap_append, h.tables]
    simp [hof.tableName]
  exists_entity other hother := by
    rcases List.mem_append.1 hother with hother | hother
    · obtain ⟨x, hx, hof'⟩ := h.exists_entity other hother
      exact ⟨x, List.mem_append_left _ hx, hof'⟩
    · obtain rfl := List.mem_singleton.1 hother
      exact ⟨e, by simp, hof⟩
  exists_dao x hx hname := by
    rw [hdeletes, Keyed.lookup_put]
    rcases List.mem_append.1 hx with hx | hx
    · obtain ⟨other, hother, hof', hlookup⟩ := h.exists_dao x hx hname
      rw [if_neg fun heq => hnames x hx (deleteQueryId_injective heq)]
      exact ⟨other, List.mem_append_left _ hother, hof', hlookup⟩
    · obtain rfl := List.mem_singleton.1 hx
      rw [if_pos rfl]
      exact ⟨dao, List.mem_append_right _ (List.mem_singleton_self dao), hof, rfl⟩

/-- What holds stays so when one more entity type is opened. -/
theorem openDao (h : OpenedWell entities daos s) (hall : DeclaredTogether (entities ++ [e]))
    (codec : Codec) (hcatalog : s'.catalog = (s.catalog.register e).1)
    (hdeletes : s'.deletes = openedDeletes e codec s.deletes (s.catalog.register e).2) :
    OpenedWell (entities ++ [e])
      (daos ++ ((s.catalog.register e).2.map fun t => Dao.ofEntity e t codec).toList) s' := by
  have hknows : s'.catalog.Knows (entities ++ [e]) := by
    rw [hcatalog]
    exact h.knows.register hall.distinct (List.Subset.refl _)
  have hmade := s.catalog.register_snd e
  cases htable : (s.catalog.register e).2 with
  | none =>
      rw [htable] at hdeletes hmade
      have hnone : e.tableName? = none := by
        by_contra hsome
        obtain ⟨name, hname⟩ := Option.ne_none_iff_exists'.1 hsome
        obtain ⟨t, ht, -⟩ := Table.exists_ofEntity? (s.catalog.withEntity e).entity? hname
        rw [ht] at hmade
        simp at hmade
      rw [Option.map_none, Option.toList_none, List.append_nil]
      exact h.append_without_table hknows hdeletes hnone
  | some t =>
      rw [htable] at hdeletes hmade
      have hof : IsDaoOf e (Dao.ofEntity e t codec) := ⟨t, _, codec, hmade.symm, rfl⟩
      rw [Option.map_some, Option.toList_some]
      refine h.append_with_table hknows hof hdeletes ?_
      have hnames := hall.names
      rw [List.map_append, List.nodup_append] at hnames
      exact fun x hx => hnames.2.2 x.name (List.mem_map_of_mem hx) e.name (by simp)

end OpenedWell

/-- Entity types that are declared together are opened well, in whatever order. -/
theorem Opened.openedWell (h : Opened es daos s) (hall : DeclaredTogether (es.map Prod.fst)) :
    OpenedWell (es.map Prod.fst) daos s := by
  induction h with
  | start hcatalog hdeletes =>
      refine ⟨?_, rfl, by simp, by simp⟩
      rw [hcatalog]
      exact Catalog.knows_nil rfl rfl
  | @openDao es daos s s' e codec opened σ δ driver l l' d d' _ hrun ih =>
      rw [List.map_append] at hall ⊢
      obtain ⟨s₁, hrun₁, hcatalog, hdeletes, -⟩ := run_openDao driver l s d e codec
      rw [hrun₁] at hrun
      simp only [Prod.mk.injEq, Except.ok.injEq] at hrun
      obtain ⟨⟨rfl, -⟩, rfl, -⟩ := hrun
      exact (ih hall.of_append).openDao hall codec hcatalog hdeletes
  | other _ hcatalog hdeletes ih =>
      have hwell := ih hall
      refine ⟨?_, hwell.tables, hwell.exists_entity, ?_⟩
      · rw [hcatalog]
        exact hwell.knows
      · rw [hdeletes]
        exact hwell.exists_dao

end Persistence
