import Persistence.Proofs.Dao.Assembly
import Persistence.Proofs.Program.Handling

/-!
# The order of registration

Entity types that are told apart can be registered in any order and any number of times.  After
each of them the catalog has the tables that the types known so far make among each other, and one
dependent for each of their cascading foreign keys.  When all types are known, these are the tables
and the dependents of the complete list.

Main results:

- `Catalog.Current.register`: what registering one entity type keeps.
- `Catalog.Current.register_of_perm`: the tables that refer to it can be made anew in any order.
- `Assembled.current`: what holds after any registrations.
- `Assembled.order_irrelevant`: two programs that have registered the same entity types have the
  same tables and, up to their order, the same dependents.
-/

namespace Persistence

variable {declared order : List Entity} {e : Entity}

/-! ## The complete list -/

/-- The tables of entity types that find each other. -/
def tablesOf (declared : List Entity) : List Table :=
  declared.filterMap fun e => Table.ofEntity? e (findEntity declared)

/-- The dependents of a table among entity types that find each other: one for each foreign key
with the action `CASCADE` that is resolved to the table. -/
def cascadesInto (declared : List Entity) (table : String) : List Dependent :=
  declared.flatMap fun e => e.tableName?.toList.flatMap fun source =>
    e.columnProperties.filterMap fun (p, c) => do
      let ref ← c.foreignKey
      let key ← ref.resolve? e (findEntity declared)
      if key.action = .cascade ∧ key.table = table then
        some ⟨e.name, source, p.key, ref.property, key.column⟩
      else none

theorem map_name_ofEntity? (e : Entity) (lookup : String → Option Entity) :
    (Table.ofEntity? e lookup).map Table.name = e.tableName? := by
  rw [Table.ofEntity?, Entity.tableName?, Option.map_map]
  rfl

/-- Tables are told apart by their names. -/
theorem nodup_tablesOf (h : DistinctEntities declared) : (tablesOf declared).Nodup := by
  refine List.Nodup.of_map Table.name ?_
  rw [tablesOf, List.map_filterMap]
  simp only [map_name_ofEntity?]
  exact h.tables

/-- The dependents of a table are those that some type makes. -/
theorem mem_cascadesInto (h : DistinctEntities declared) {table : String} {dep : Dependent} :
    dep ∈ cascadesInto declared table ↔ MadeBy (findEntity declared) declared table dep := by
  rw [cascadesInto, List.mem_flatMap, MadeBy]
  refine exists_congr fun e => and_congr_right fun he => ?_
  rw [makes_iff (h.each e he), List.mem_flatMap]
  constructor
  · rintro ⟨source, hsource, hmem⟩
    obtain ⟨⟨p, c⟩, hpc, hmake⟩ := List.mem_filterMap.1 hmem
    obtain ⟨ref, href, hmake⟩ := Option.bind_eq_some_iff.1 hmake
    obtain ⟨key, hkey, hmake⟩ := Option.bind_eq_some_iff.1 hmake
    split at hmake
    · next hwanted =>
        obtain rfl := Option.some.inj hmake
        exact ⟨p, c, ref, key, hpc, href, hkey, hwanted.1, hwanted.2, Option.mem_toList.1 hsource,
          rfl⟩
    · cases hmake
  · rintro ⟨p, c, ref, key, hpc, href, hkey, haction, htable, hsource, hdep⟩
    refine ⟨dep.table, Option.mem_toList.2 hsource, List.mem_filterMap.2 ⟨(p, c), hpc, ?_⟩⟩
    rw [hdep]
    simp [href, hkey, haction, htable]

/-- No dependent is listed twice: types are told apart by their names, and the columns of a type by
their properties. -/
theorem nodup_cascadesInto (h : DistinctEntities declared) (table : String) :
    (cascadesInto declared table).Nodup := by
  have hof : ∀ {e : Entity} {source : String} {pc : Property × ColumnSpec} {dep : Dependent},
      (do let ref ← pc.2.foreignKey
          let key ← ref.resolve? e (findEntity declared)
          if key.action = .cascade ∧ key.table = table then
            some (⟨e.name, source, pc.1.key, ref.property, key.column⟩ : Dependent)
          else none) = some dep → dep.entity = e.name ∧ dep.property = pc.1.key := by
    intro e source pc dep hmake
    obtain ⟨ref, -, hmake⟩ := Option.bind_eq_some_iff.1 hmake
    obtain ⟨key, -, hmake⟩ := Option.bind_eq_some_iff.1 hmake
    split at hmake
    · obtain rfl := Option.some.inj hmake
      exact ⟨rfl, rfl⟩
    · cases hmake
  rw [cascadesInto, List.nodup_flatMap]
  constructor
  · intro e he
    rw [List.nodup_flatMap]
    refine ⟨fun source _ => ?_, ?_⟩
    · refine List.pairwise_filterMap.2
        ((List.pairwise_map.1 (h.each e he).nodup_columnKeys).imp fun hne dep hdep dep' hdep' => ?_)
      rintro rfl
      exact hne ((hof hdep).2.symm.trans (hof hdep').2)
    · cases e.tableName? with
      | none => exact List.Pairwise.nil
      | some source => exact List.pairwise_singleton _ _
  · refine (List.pairwise_map.1 h.names).imp fun {e e'} hne dep hdep hdep' => ?_
    obtain ⟨source, -, hmem⟩ := List.mem_flatMap.1 hdep
    obtain ⟨source', -, hmem'⟩ := List.mem_flatMap.1 hdep'
    obtain ⟨pc, -, hmake⟩ := List.mem_filterMap.1 hmem
    obtain ⟨pc', -, hmake'⟩ := List.mem_filterMap.1 hmem'
    exact hne ((hof hmake).1.symm.trans (hof hmake').1)

/-! ## What every registration keeps -/

namespace Catalog

variable {c : Catalog}

/-- Tables are kept under their names and in the order of these, and no dependent is noted twice. -/
structure Tidy (c : Catalog) : Prop where
  ascending : (Keyed.keys c.tables).Pairwise (· < ·)
  named : ∀ entry ∈ c.tables, entry.2.name = entry.1
  once : ∀ table, (c.dependentsOf table).Nodup

theorem tidy_empty : Catalog.empty.Tidy where
  ascending := List.Pairwise.nil
  named _ h := by cases h
  once _ := List.Pairwise.nil

theorem Tidy.addDependent (h : c.Tidy) (target : String) (d : Dependent) :
    (c.addDependent target d).Tidy where
  ascending := h.ascending
  named := h.named
  once table := by
    rw [dependentsOf_addDependent]
    split
    · next hnew =>
        refine (h.once table).append (List.nodup_singleton d) ?_
        rw [List.disjoint_singleton]
        exact fun hmem => hnew.2 ⟨d, hnew.1 ▸ hmem, rfl, rfl⟩
    · exact h.once table

theorem Tidy.derive (h : c.Tidy) (e : Entity) : (c.derive e).1.Tidy := by
  have hfold : ∀ (new : List (String × Dependent)) (c : Catalog), c.Tidy →
      (new.foldl (fun c td => c.addDependent td.1 td.2) c).Tidy := by
    intro new
    induction new with
    | nil => exact fun c hc => hc
    | cons first new ih => exact fun c hc => ih _ (hc.addDependent first.1 first.2)
  rw [Catalog.derive]
  split
  · exact h
  · next t _ =>
      refine hfold _ _ ⟨Keyed.pairwise_keys_putSorted h.ascending, fun entry hentry => ?_, h.once⟩
      rcases Keyed.mem_putSorted hentry with heq | hentry
      · obtain ⟨hname, htable⟩ := Prod.mk.inj heq
        rw [hname, htable]
      · exact h.named entry hentry

theorem Tidy.deriveAll (h : c.Tidy) (es : List Entity) : (c.deriveAll es).Tidy := by
  induction es generalizing c with
  | nil => exact h
  | cons first es ih => exact ih (h.derive first)

theorem Tidy.withEntity (h : c.Tidy) : (c.withEntity e).Tidy := ⟨h.ascending, h.named, h.once⟩

/-- Registering an entity type keeps a catalog tidy. -/
theorem Tidy.register (h : c.Tidy) (e : Entity) : (c.register e).1.Tidy := by
  rw [register_fst]
  exact h.withEntity.deriveAll _

theorem Tidy.map_name_allTables (h : c.Tidy) :
    c.allTables.map Table.name = Keyed.keys c.tables := by
  rw [allTables, Keyed.values, Keyed.keys, List.map_map]
  exact List.map_congr_left h.named

/-- The tables come in the order of their names. -/
theorem Tidy.pairwise_allTables (h : c.Tidy) :
    c.allTables.Pairwise fun t t' => t.name < t'.name := by
  rw [← List.pairwise_map, h.map_name_allTables]
  exact h.ascending

/-- So they are told apart by these. -/
theorem Tidy.nodup_names (h : c.Tidy) : (c.allTables.map Table.name).Nodup :=
  List.pairwise_map.2 (h.pairwise_allTables.imp fun hlt => hlt.ne)

/-! ## Tables -/

theorem tables_foldl_addDependent (c : Catalog) (new : List (String × Dependent)) :
    (new.foldl (fun c (target, d) => c.addDependent target d) c).tables = c.tables := by
  induction new generalizing c with
  | nil => rfl
  | cons first new ih =>
      rw [List.foldl_cons, ih]
      rfl

/-- The table that is made takes the place of the one with its name. -/
theorem table?_derive (c : Catalog) (e : Entity) (name : String) :
    (c.derive e).1.table? name =
      if e.tableName? = some name then Table.ofEntity? e c.entity? else c.table? name := by
  rw [← map_name_ofEntity? e c.entity?, derive]
  cases hmade : Table.ofEntity? e c.entity? with
  | none => rw [Option.map_none, if_neg (Option.some_ne_none name).symm]
  | some t =>
      rw [table?, tables_foldl_addDependent, Keyed.lookup_putSorted, Option.map_some]
      by_cases hname : name = t.name
      · rw [if_pos hname, if_pos (congrArg some hname.symm)]
      · rw [if_neg hname, if_neg fun h => hname (Option.some.inj h).symm, table?]

/-- The tables after some have been made: these, and those of other names. -/
theorem table?_deriveAll (hall : DistinctEntities declared) {es : List Entity} (hes : es ⊆ declared)
    {name : String} {t : Table} :
    (c.deriveAll es).table? name = some t ↔
      (∃ x ∈ es, x.tableName? = some name ∧ Table.ofEntity? x c.entity? = some t) ∨
        c.table? name = some t ∧ ∀ x ∈ es, x.tableName? ≠ some name := by
  induction es generalizing c with
  | nil => simp [deriveAll]
  | cons first es ih =>
      obtain ⟨hfirst, hrest⟩ := List.cons_subset.1 hes
      rw [deriveAll_cons, ih hrest, entity?_derive, table?_derive]
      by_cases hname : first.tableName? = some name
      · rw [if_pos hname]
        constructor
        · rintro (⟨x, hx, hmade⟩ | ⟨hmade, -⟩)
          · exact .inl ⟨x, List.mem_cons_of_mem _ hx, hmade⟩
          · exact .inl ⟨first, List.mem_cons_self, hname, hmade⟩
        · rintro (⟨x, hx, hxname, hmade⟩ | ⟨-, hnone⟩)
          · obtain rfl := hall.eq_of_tableName? (hes hx) hfirst hxname hname
            by_cases hmem : x ∈ es
            · exact .inl ⟨x, hmem, hname, hmade⟩
            · refine .inr ⟨hmade, fun y hy hyname => hmem ?_⟩
              rwa [← hall.eq_of_tableName? (hrest hy) hfirst hyname hname]
          · exact absurd hname (hnone first List.mem_cons_self)
      · rw [if_neg hname]
        simp [hname]

/-! ## Current catalogs -/

/-- A catalog that is up to date with the entity types that have been registered: it finds these,
and it has the tables and the dependents that they make among each other. -/
structure Current (c : Catalog) (order : List Entity) : Prop extends c.Knows order, c.Tidy where
  table : ∀ name t, c.table? name = some t ↔
    ∃ x ∈ order, x.tableName? = some name ∧ Table.ofEntity? x (findEntity order) = some t

theorem current_empty : Catalog.empty.Current [] where
  toKnows := knows_nil rfl rfl
  toTidy := tidy_empty
  table name t := by simp [table?, empty]

/-- Making the tables of a new entity type and of those that refer to it, in whatever order, keeps
the catalog current.  The types that are neither the new one nor refer to it have the tables that
they had. -/
theorem Current.deriveAll (h : c.Current order) (hall : DistinctEntities declared)
    (hin : order ++ [e] ⊆ declared) {es : List Entity} (hes : ∀ x, x ∈ es ↔ x ∈ c.remade e) :
    ((c.withEntity e).deriveAll es).Current (order ++ [e]) where
  toKnows := h.toKnows.deriveAll hall hin hes
  toTidy := h.toTidy.withEntity.deriveAll es
  table name t := by
    have hremade : ∀ x, x ∈ es ↔ _ := fun x => (hes x).trans (h.toKnows.mem_remade hall hin x)
    have hsubset : es ⊆ declared := fun x hx => hin ((hremade x).1 hx).1
    have hkept : ∀ x ∈ order ++ [e], x ∉ es → x ∈ order ∧
        Table.ofEntity? x (findEntity (order ++ [e])) = Table.ofEntity? x (findEntity order) := by
      intro x hx hnot
      rw [hremade, not_and, not_or, Bool.not_eq_true] at hnot
      refine ⟨?_, Table.ofEntity?_findEntity_append (hnot hx).2⟩
      rcases List.mem_append.1 hx with hold | hnew
      · exact hold
      · exact absurd (congrArg Entity.name (List.mem_singleton.1 hnew)) (hnot hx).1
    have hwith : (c.withEntity e).table? name = c.table? name := rfl
    rw [table?_deriveAll hall hsubset, h.toKnows.entity?_withEntity hall hin, hwith, h.table]
    constructor
    · rintro (⟨x, hx, hmade⟩ | ⟨⟨x, hx, hname, hmade⟩, hnone⟩)
      · exact ⟨x, ((hremade x).1 hx).1, hmade⟩
      · have hx' := List.mem_append_left [e] hx
        have hnot : x ∉ es := fun hmem => hnone x hmem hname
        exact ⟨x, hx', hname, (hkept x hx' hnot).2.trans hmade⟩
    · rintro ⟨x, hx, hname, hmade⟩
      by_cases hmem : x ∈ es
      · exact .inl ⟨x, hmem, hname, hmade⟩
      · obtain ⟨hold, hsame⟩ := hkept x hx hmem
        refine .inr ⟨⟨x, hold, hname, hsame.symm.trans hmade⟩, fun y hy hyname => hmem ?_⟩
        rwa [← hall.eq_of_tableName? (hsubset hy) (hin hx) hyname hname]

/-- Registering an entity type, for the first time or again, keeps the catalog current. -/
theorem Current.register (h : c.Current order) (hall : DistinctEntities declared)
    (hin : order ++ [e] ⊆ declared) : (c.register e).1.Current (order ++ [e]) := by
  rw [register_fst]
  exact h.deriveAll hall hin fun _ => .rfl

/-- A table is there exactly if one of the types makes it. -/
theorem Current.mem_allTables_iff (h : c.Current order) {t : Table} :
    t ∈ c.allTables ↔ ∃ x ∈ order, Table.ofEntity? x (findEntity order) = some t := by
  rw [allTables, Keyed.values, List.mem_map]
  constructor
  · rintro ⟨⟨name, t⟩, hmem, rfl⟩
    obtain ⟨x, hx, -, hmade⟩ := (h.table name t).1 ((Keyed.lookup_eq_some_iff h.ascending).2 hmem)
    exact ⟨x, hx, hmade⟩
  · rintro ⟨x, hx, hmade⟩
    have hfound := (h.table t.name t).2 ⟨x, hx, (Table.ofEntity?_eq_some hmade).1, hmade⟩
    exact ⟨(t.name, t), (Keyed.lookup_eq_some_iff h.ascending).1 hfound, rfl⟩

/-- Catalogs that are current with the same entity types have the same tables and, up to their order,
the same dependents. -/
theorem Current.agree {c' : Catalog} (h : c.Current order) (h' : c'.Current order) :
    c.allTables = c'.allTables ∧
      ∀ table, (c.dependentsOf table).Perm (c'.dependentsOf table) := by
  constructor
  · have hnodup : ∀ {c : Catalog}, c.Current order → c.allTables.Nodup := fun hc =>
      hc.pairwise_allTables.imp fun hlt heq => hlt.ne (congrArg Table.name heq)
    have hsame : c.allTables.Perm c'.allTables :=
      (List.perm_ext_iff_of_nodup (hnodup h) (hnodup h')).2 fun t =>
        h.mem_allTables_iff.trans h'.mem_allTables_iff.symm
    refine hsame.eq_of_pairwise ?_ h.pairwise_allTables h'.pairwise_allTables
    exact fun t t' _ _ hlt hgt => absurd hgt hlt.asymm
  · intro table
    refine (List.perm_ext_iff_of_nodup (h.once table) (h'.once table)).2 fun dep => ?_
    exact (h.dependents table dep).trans (h'.dependents table dep).symm

/-- The order in which the tables are made anew that refer to a new type cannot be seen in the tables,
and in the dependents only by their order. -/
theorem Current.register_of_perm (h : c.Current order) (hall : DistinctEntities declared)
    (hin : order ++ [e] ⊆ declared) {es : List Entity} (hes : es.Perm (c.remade e)) :
    ((c.withEntity e).deriveAll es).allTables = (c.register e).1.allTables ∧
      ∀ table, (((c.withEntity e).deriveAll es).dependentsOf table).Perm
        ((c.register e).1.dependentsOf table) :=
  (h.deriveAll hall hin fun _ => hes.mem_iff).agree (h.register hall hin)

variable (h : c.Current order) (hall : DistinctEntities declared)
  (horder : ∀ e, e ∈ order ↔ e ∈ declared)

include h hall horder

theorem Current.mem_allTables {t : Table} : t ∈ c.allTables ↔ t ∈ tablesOf declared := by
  rw [h.mem_allTables_iff, hall.findEntity_congr horder, tablesOf, List.mem_filterMap]
  exact exists_congr fun x => and_congr_left' (horder x)

/-- The tables are those of the complete list. -/
theorem Current.allTables_perm : c.allTables.Perm (tablesOf declared) := by
  refine (List.perm_ext_iff_of_nodup ?_ (nodup_tablesOf hall)).2 fun t =>
    h.mem_allTables hall horder
  exact h.pairwise_allTables.imp fun hlt heq => hlt.ne (congrArg Table.name heq)

/-- The dependents are those of the complete list. -/
theorem Current.dependentsOf_perm (table : String) :
    (c.dependentsOf table).Perm (cascadesInto declared table) := by
  refine (List.perm_ext_iff_of_nodup (h.once table)
    (nodup_cascadesInto hall table)).2 fun dep => ?_
  rw [h.dependents, mem_cascadesInto hall, hall.findEntity_congr horder, MadeBy, MadeBy]
  exact exists_congr fun e => and_congr_left' (horder e)

end Catalog

/-! ## Assembled programs -/

variable {order' : List Entity} {daos daos' : List Dao} {s s' : State}

/-- What holds of the empty catalog and is kept by every registration holds of the catalog of every
assembled program. -/
theorem Assembled.catalog_induction {P : List Entity → Catalog → Prop} (hempty : P [] Catalog.empty)
    (hregister : ∀ order c e, P order c → P (order ++ [e]) (c.register e).1)
    (h : Assembled order daos s) : P order s.catalog := by
  induction h with
  | start hcatalog => exact hcatalog ▸ hempty
  | @register es daos s s' e table σ δ driver l l' d d' _ hrun ih =>
      rw [run_registerEntity] at hrun
      simp only [Prod.mk.injEq] at hrun
      obtain ⟨-, rfl, -⟩ := hrun
      exact hregister _ _ e ih
  | @openDao es daos s s' e codec opened σ δ driver l l' d d' _ hrun ih =>
      obtain ⟨s₁, hrun₁, hcatalog, -⟩ := run_openDao driver l s d e codec
      rw [hrun₁] at hrun
      simp only [Prod.mk.injEq] at hrun
      obtain ⟨-, rfl, -⟩ := hrun
      rw [hcatalog]
      exact hregister _ _ e ih
  | other _ hcatalog _ ih => exact hcatalog ▸ ih

/-- After any registrations the catalog is tidy; in particular the names of its tables are told
apart. -/
theorem Assembled.tidy (h : Assembled order daos s) : s.catalog.Tidy :=
  h.catalog_induction (P := fun _ c => c.Tidy) Catalog.tidy_empty fun _ _ e hc => hc.register e

/-- After any registrations of entity types that are told apart, the catalog is current. -/
theorem Assembled.current (h : Assembled order daos s) (hall : DistinctEntities declared)
    (hin : order ⊆ declared) : s.catalog.Current order :=
  h.catalog_induction (P := fun order c => order ⊆ declared → c.Current order)
    (fun _ => Catalog.current_empty)
    (fun _ _ e hc hin =>
      (hc fun _ hx => hin (List.mem_append_left [e] hx)).register hall hin) hin

/-- Entity types can be registered in every order; the driver has no part in it. -/
theorem exists_assembled {δ : Type} (driver : Driver δ) (d : δ) (order : List Entity) :
    ∃ s, Assembled order [] s := by
  induction order using List.reverseRecOn with
  | nil => exact ⟨.initial, .start rfl rfl rfl⟩
  | append_singleton order e ih =>
      obtain ⟨s, hs⟩ := ih
      exact ⟨_, hs.register (run_registerEntity driver () s d e)⟩

/-- The order in which entity types have been registered, and how often each of them was, cannot be
seen in the tables, and in the dependents only by their order: both are those of the complete list
of types. -/
theorem Assembled.order_irrelevant (hall : DistinctEntities declared)
    (h : Assembled order daos s) (h' : Assembled order' daos' s')
    (horder : ∀ e, e ∈ order ↔ e ∈ declared) (horder' : ∀ e, e ∈ order' ↔ e ∈ declared) :
    s.catalog.allTables = s'.catalog.allTables ∧
      s.catalog.allTables.Perm (tablesOf declared) ∧
      ∀ table, (s.catalog.dependentsOf table).Perm (s'.catalog.dependentsOf table) ∧
        (s.catalog.dependentsOf table).Perm (cascadesInto declared table) := by
  have hcurrent := h.current hall fun e he => (horder e).1 he
  have hcurrent' := h'.current hall fun e he => (horder' e).1 he
  refine ⟨?_, hcurrent.allTables_perm hall horder, fun table => ⟨?_,
    hcurrent.dependentsOf_perm hall horder table⟩⟩
  · have hsame : s.catalog.allTables.Perm s'.catalog.allTables :=
      (hcurrent.allTables_perm hall horder).trans (hcurrent'.allTables_perm hall horder').symm
    refine hsame.eq_of_pairwise ?_ hcurrent.pairwise_allTables
      hcurrent'.pairwise_allTables
    exact fun t t' _ _ hlt hgt => absurd hgt hlt.asymm
  · exact (hcurrent.dependentsOf_perm hall horder table).trans
      (hcurrent'.dependentsOf_perm hall horder' table).symm

/-! ## Types that refer to each other -/

namespace Mutual

/-- A property that refers to the property `id` of an entity type. -/
def reference (key column entity : String) : Property :=
  ⟨key, .number,
    some { ColumnSpec.named column with foreignKey := some ⟨entity, "id", .cascade⟩ }, none⟩

/-- An entity type that refers to itself and to another one. -/
def author : Entity where
  name := "Author"
  table := some ⟨"author", none, none, none, false⟩
  properties := [⟨"id", .number, some (.key "id"), none⟩,
    reference "mentorId" "mentor_id" "Author", reference "postId" "post_id" "Post"]

/-- The other one, which refers back and to a type that is never registered. -/
def post : Entity where
  name := "Post"
  table := some ⟨"post", none, none, none, false⟩
  properties := [⟨"id", .number, some (.key "id"), none⟩,
    reference "authorId" "author_id" "Author", reference "topicId" "topic_id" "Topic"]

theorem distinct : DistinctEntities [author, post] where
  names := by decide
  tables := by decide
  each e he := by
    simp only [List.mem_cons, List.not_mem_nil, or_false] at he
    rcases he with rfl | rfl
    · exact ⟨by decide, by decide⟩
    · exact ⟨by decide, by decide⟩

example : cascadesInto [author, post] "author" =
    [⟨"Author", "author", "mentorId", "id", "id"⟩, ⟨"Post", "post", "authorId", "id", "id"⟩] := by
  decide

end Mutual

/-- The two types have the same tables and dependents whether the one is registered first, or the
other one first and twice. -/
theorem Assembled.order_irrelevant_mutual :
    ∃ s s', Assembled [Mutual.author, Mutual.post] [] s ∧
      Assembled [Mutual.post, Mutual.author, Mutual.post] [] s' ∧
      s.catalog.allTables = s'.catalog.allTables ∧
      s.catalog.allTables.Perm (tablesOf [Mutual.author, Mutual.post]) ∧
      ∀ table, (s.catalog.dependentsOf table).Perm (s'.catalog.dependentsOf table) ∧
        (s.catalog.dependentsOf table).Perm (cascadesInto [Mutual.author, Mutual.post] table) := by
  obtain ⟨s, hs⟩ := exists_assembled Driver.granting () [Mutual.author, Mutual.post]
  obtain ⟨s', hs'⟩ := exists_assembled Driver.granting () [Mutual.post, Mutual.author, Mutual.post]
  refine ⟨s, s', hs, hs', Assembled.order_irrelevant Mutual.distinct hs hs' (fun e => Iff.rfl) ?_⟩
  intro e
  simp only [List.mem_cons, List.not_mem_nil, or_false]
  tauto

end Persistence
