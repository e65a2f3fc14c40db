import Persistence.Proofs.Catalog.Declared
import Persistence.Proofs.Catalog.Entries

/-!
# Dependents in the catalog

When entity types are registered one after the other, a reference may name a type that comes
later.  The catalog makes the tables of the types that refer to a new one anew, so that in the end
it has the dependents that the types make when every one of them can be found, whatever the order
was and however often each of them was registered.

Main results:

- `Catalog.Knows.register`: registering an entity type, a new one or one that is known.
- `Catalog.Knows.mem_dependentsOf`: the dependents of a table are the cascading foreign keys that
  refer to it.
-/

namespace Persistence

/-! ## The dependents of an entity type -/

/-- An entity type makes a dependent of a table, where others are found by `lookup`. -/
def Makes (lookup : String → Option Entity) (e : Entity) (table : String) (dep : Dependent) :
    Prop :=
  ∃ t, Table.ofEntity? e lookup = some t ∧ (table, dep) ∈ Catalog.cascades e t

variable {e : Entity} {declared entities : List Entity} {table : String} {dep : Dependent}
  {lookup lookup' : String → Option Entity}

/-- An entity type with a table makes one dependent for each reference that can be resolved. -/
theorem makes_iff (h : e.ToldApart) :
    Makes lookup e table dep ↔ ∃ p c ref key, (p, c) ∈ e.columnProperties ∧
      c.foreignKey = some ref ∧ ref.resolve? e lookup = some key ∧ key.action = .cascade ∧
      key.table = table ∧ e.tableName? = some dep.table ∧
      dep = ⟨e.name, dep.table, p.key, ref.property, key.column⟩ := by
  constructor
  · rintro ⟨t, ht, hmem⟩
    obtain ⟨p, c, ref, key, hpc, href, hkey, haction, htable, rfl⟩ :=
      (Catalog.mem_cascades h ht).1 hmem
    have hname := (Table.ofEntity?_eq_some ht).1
    exact ⟨p, c, ref, key, hpc, href, hkey, haction, htable, hname, rfl⟩
  · rintro ⟨p, c, ref, key, hpc, href, hkey, haction, htable, hname, hdep⟩
    obtain ⟨t, ht, hname'⟩ := Table.exists_ofEntity? lookup hname
    rw [← hname'] at hdep
    exact ⟨t, ht, (Catalog.mem_cascades h ht).2
      ⟨p, c, ref, key, hpc, href, hkey, haction, htable, hdep⟩⟩

/-- A reference to another type only depends on where that type is found. -/
theorem ForeignRef.resolve?_congr {ref : ForeignRef}
    (h : lookup ref.entity = lookup' ref.entity) :
    ref.resolve? e lookup = ref.resolve? e lookup' := by
  rw [resolve?, resolve?, h]

/-- A reference that can be resolved stays so when more types are found. -/
theorem ForeignRef.resolve?_mono {ref : ForeignRef} {key : ForeignKey}
    (hle : ∀ name x, lookup name = some x → lookup' name = some x)
    (h : ref.resolve? e lookup = some key) : ref.resolve? e lookup' = some key := by
  by_cases hself : ref.entity = e.name
  · rw [resolve?, if_pos hself] at h ⊢
    exact h
  · cases hfind : lookup ref.entity with
    | none =>
        rw [resolve?, if_neg hself, hfind] at h
        simp at h
    | some x =>
        rw [← h]
        exact resolve?_congr ((hle _ _ hfind).trans hfind.symm)

/-- A dependent is still made when more types are found. -/
theorem Makes.mono (hapart : e.ToldApart)
    (hle : ∀ name x, lookup name = some x → lookup' name = some x)
    (h : Makes lookup e table dep) : Makes lookup' e table dep := by
  obtain ⟨p, c, ref, key, hpc, href, hkey, hrest⟩ := (makes_iff hapart).1 h
  exact (makes_iff hapart).2
    ⟨p, c, ref, key, hpc, href, ForeignRef.resolve?_mono hle hkey, hrest⟩

/-- The dependents that some entity types make. -/
def MadeBy (lookup : String → Option Entity) (entities : List Entity) (table : String)
    (dep : Dependent) : Prop :=
  ∃ e ∈ entities, Makes lookup e table dep

/-- The dependent of a property is the only one. -/
theorem MadeBy.unique (h : DistinctEntities declared) (hin : entities ⊆ declared)
    {dep' : Dependent} (hdep : MadeBy lookup entities table dep)
    (hdep' : MadeBy lookup entities table dep') (htable : dep.table = dep'.table)
    (hproperty : dep.property = dep'.property) : dep = dep' := by
  obtain ⟨e, he, hmakes⟩ := hdep
  obtain ⟨e', he', hmakes'⟩ := hdep'
  have hapart := h.each e (hin he)
  obtain ⟨p, c, ref, key, hpc, href, hkey, -, -, hname, heq⟩ := (makes_iff hapart).1 hmakes
  obtain ⟨p', c', ref', key', hpc', href', hkey', -, -, hname', heq'⟩ :=
    (makes_iff (h.each e' (hin he'))).1 hmakes'
  rw [htable] at hname
  obtain rfl := h.eq_of_tableName? (hin he) (hin he') hname hname'
  rw [heq, heq'] at hproperty
  obtain ⟨hp, hc⟩ := Entity.mem_columnProperties.1 hpc
  obtain ⟨hp', hc'⟩ := Entity.mem_columnProperties.1 hpc'
  obtain rfl := List.inj_on_of_nodup_map hapart.keys hp hp' hproperty
  obtain rfl := Option.some.inj (hc.symm.trans hc')
  obtain rfl := Option.some.inj (href.symm.trans href')
  obtain rfl := Option.some.inj (hkey.symm.trans hkey')
  rw [heq, heq', htable]

/-! ## Finding types in the order of their registration -/

/-- The first type with a name is the only one, among types that may come more than once. -/
theorem DistinctEntities.findEntity_eq_some_iff (h : DistinctEntities declared)
    (hin : entities ⊆ declared) {name : String} :
    findEntity entities name = some e ↔ e ∈ entities ∧ e.name = name := by
  refine ⟨findEntity_eq_some, ?_⟩
  rintro ⟨he, rfl⟩
  cases hfind : findEntity entities e.name with
  | none => simpa using List.find?_eq_none.1 hfind e he
  | some x =>
      obtain ⟨hx, hname⟩ := findEntity_eq_some hfind
      rw [h.eq_of_name (hin hx) (hin he) hname]

/-- Types are found alike among the same types, in whatever order. -/
theorem DistinctEntities.findEntity_congr (h : DistinctEntities declared)
    (hmem : ∀ e, e ∈ entities ↔ e ∈ declared) : findEntity entities = findEntity declared := by
  funext name
  refine Option.ext fun e => ?_
  rw [h.findEntity_eq_some_iff fun x hx => (hmem x).1 hx,
    h.findEntity_eq_some_iff (List.Subset.refl declared), hmem]

/-- A type is found among more types if it was found before, or if it is the new one. -/
theorem findEntity_append (entities : List Entity) (e : Entity) (name : String) :
    findEntity (entities ++ [e]) name =
      (findEntity entities name).or (if e.name = name then some e else none) := by
  rw [findEntity, findEntity, List.find?_append, List.find?_singleton]
  simp

/-- Another type than the new one is found where it was found before. -/
theorem findEntity_append_of_ne (entities : List Entity) {name : String} (h : name ≠ e.name) :
    findEntity (entities ++ [e]) name = findEntity entities name := by
  rw [findEntity_append, if_neg (Ne.symm h), Option.or_none]

/-! ## Making a table anew -/

/-- The table of an entity type only depends on where the types that it refers to are found. -/
theorem Table.ofEntity?_congr
    (h : ∀ name, Catalog.refersTo e name = true → lookup name = lookup' name) :
    Table.ofEntity? e lookup = Table.ofEntity? e lookup' := by
  have hkeys : Table.resolvedKeys e lookup = Table.resolvedKeys e lookup' := by
    rw [Table.resolvedKeys_eq, Table.resolvedKeys_eq]
    refine List.foldl_ext _ _ _ fun keys pc hpc => ?_
    obtain ⟨p, c⟩ := pc
    have hbind : (c.foreignKey.bind fun ref => ref.resolve? e lookup) =
        c.foreignKey.bind fun ref => ref.resolve? e lookup' := by
      cases href : c.foreignKey with
      | none => rfl
      | some ref =>
          refine ForeignRef.resolve?_congr (h ref.entity ?_)
          exact List.any_eq_true.2 ⟨(p, c), hpc, by simp [href]⟩
    simp only [Table.addResolved, hbind]
  rw [Table.ofEntity?, Table.ofEntity?, hkeys]

/-- So do its dependents. -/
theorem Makes.congr (h : ∀ name, Catalog.refersTo e name = true → lookup name = lookup' name) :
    Makes lookup e table dep ↔ Makes lookup' e table dep := by
  rw [Makes, Makes, Table.ofEntity?_congr h]

/-- A type that does not refer to the new one has the table that it had. -/
theorem Table.ofEntity?_findEntity_append {x : Entity}
    (h : Catalog.refersTo x e.name = false) :
    Table.ofEntity? x (findEntity (entities ++ [e])) = Table.ofEntity? x (findEntity entities) := by
  refine Table.ofEntity?_congr fun name hname => findEntity_append_of_ne entities ?_
  rintro rfl
  rw [h] at hname
  cases hname

/-! ## Noting dependents -/

namespace Catalog

variable {c : Catalog}

/-- Dependents by table of which no two are on one property. -/
def OneEach (made : String → Dependent → Prop) : Prop :=
  ∀ table dep dep', made table dep → made table dep' → dep.table = dep'.table →
    dep.property = dep'.property → dep = dep'

/-- A noted dependent comes last among those of its table, unless it is known there. -/
theorem dependentsOf_addDependent (c : Catalog) (target : String) (d : Dependent) (table : String) :
    (c.addDependent target d).dependentsOf table =
      if table = target ∧ ¬ ∃ e ∈ c.dependentsOf target, e.table = d.table ∧ e.property = d.property
      then c.dependentsOf table ++ [d] else c.dependentsOf table := by
  by_cases htable : table = target
  · subst htable
    have hknown : ((c.dependentsOf table).any fun e =>
        e.table = d.table && e.property = d.property) = true ↔
          ∃ e ∈ c.dependentsOf table, e.table = d.table ∧ e.property = d.property := by
      simp
    have hwritten : (c.addDependent table d).dependentsOf table =
        if (c.dependentsOf table).any (fun e => e.table = d.table && e.property = d.property) then
          c.dependentsOf table
        else c.dependentsOf table ++ [d] := by
      simp [addDependent, dependentsOf, Keyed.lookup_put]
    rw [hwritten]
    by_cases h : ∃ e ∈ c.dependentsOf table, e.table = d.table ∧ e.property = d.property
    · rw [if_pos (hknown.2 h), if_neg fun hnew => hnew.2 h]
    · rw [if_neg fun hany => h (hknown.1 hany), if_pos ⟨rfl, h⟩]
  · rw [if_neg fun hnew => htable hnew.1]
    simp [addDependent, dependentsOf, Keyed.lookup_put, htable]

/-- A noted dependent is there afterwards, with those that were there. -/
theorem mem_dependentsOf_addDependent {made : String → Dependent → Prop} (hmade : OneEach made)
    (hc : ∀ table dep, dep ∈ c.dependentsOf table → made table dep) {target : String}
    {d : Dependent} (hd : made target d) :
    dep ∈ (c.addDependent target d).dependentsOf table ↔
      dep ∈ c.dependentsOf table ∨ table = target ∧ dep = d := by
  rw [dependentsOf_addDependent]
  split
  · next hnew => simp [hnew.1]
  · next hknown =>
      refine ⟨.inl, ?_⟩
      rintro (hmem | ⟨rfl, rfl⟩)
      · exact hmem
      · simp only [true_and, not_not] at hknown
        obtain ⟨other, hother, htable, hproperty⟩ := hknown
        rwa [hmade table other dep (hc table other hother) hd htable hproperty] at hother

/-- Noted dependents are there afterwards, with those that were there. -/
theorem mem_dependentsOf_foldl {made : String → Dependent → Prop} (hmade : OneEach made)
    (hc : ∀ table dep, dep ∈ c.dependentsOf table → made table dep)
    (new : List (String × Dependent)) (hnew : ∀ td ∈ new, made td.1 td.2) :
    dep ∈ (new.foldl (fun c (target, d) => c.addDependent target d) c).dependentsOf table ↔
      dep ∈ c.dependentsOf table ∨ (table, dep) ∈ new := by
  induction new generalizing c with
  | nil => simp
  | cons first new ih =>
      obtain ⟨target, d⟩ := first
      obtain ⟨hd, hrest⟩ := List.forall_mem_cons.1 hnew
      have hstep : ∀ table dep, dep ∈ (c.addDependent target d).dependentsOf table ↔
          dep ∈ c.dependentsOf table ∨ table = target ∧ dep = d :=
        fun _ _ => mem_dependentsOf_addDependent hmade hc hd
      have hc' : ∀ table dep, dep ∈ (c.addDependent target d).dependentsOf table →
          made table dep := by
        intro table dep hmem
        rcases (hstep table dep).1 hmem with hmem | ⟨rfl, rfl⟩
        · exact hc table dep hmem
        · exact hd
      rw [List.foldl_cons, ih hc' hrest, hstep, List.mem_cons, Prod.mk.injEq, or_assoc]

theorem entities_foldl_addDependent (c : Catalog) (new : List (String × Dependent)) :
    (new.foldl (fun c (target, d) => c.addDependent target d) c).entities = c.entities := by
  induction new generalizing c with
  | nil => rfl
  | cons first new ih =>
      rw [List.foldl_cons, ih]
      rfl

/-- Making the table of an entity type leaves the entity types alone. -/
@[simp]
theorem entities_derive (c : Catalog) (e : Entity) : (c.derive e).1.entities = c.entities := by
  rw [derive]
  split
  · rfl
  · rw [entities_foldl_addDependent]

/-- The table that is made. -/
theorem derive_snd (c : Catalog) (e : Entity) :
    (c.derive e).2 = Table.ofEntity? e c.entity? := by
  rw [derive]
  split
  · next hnone => exact hnone.symm
  · next t hsome => exact hsome.symm

/-- Making the table of an entity type notes the dependents that it makes. -/
theorem mem_dependentsOf_derive {made : String → Dependent → Prop} (hmade : OneEach made)
    (hc : ∀ table dep, dep ∈ c.dependentsOf table → made table dep)
    (hnew : ∀ table dep, Makes c.entity? e table dep → made table dep) :
    dep ∈ (c.derive e).1.dependentsOf table ↔
      dep ∈ c.dependentsOf table ∨ Makes c.entity? e table dep := by
  rw [derive]
  split
  · next hnone => simp [Makes, hnone]
  · next t hsome =>
      have hmakes : ∀ table dep, (table, dep) ∈ cascades e t ↔ Makes c.entity? e table dep := by
        intro table dep
        simp [Makes, hsome]
      have hadmitted : ∀ td ∈ cascades e t, made td.1 td.2 :=
        fun td htd => hnew _ _ ((hmakes _ _).1 htd)
      rw [← hmakes]
      exact mem_dependentsOf_foldl (c := { c with tables := Keyed.putSorted t.name t c.tables })
        hmade hc _ hadmitted

/-- The catalog after the tables of some entity types have been made. -/
def deriveAll (c : Catalog) (es : List Entity) : Catalog := es.foldl (fun c e => (c.derive e).1) c

theorem deriveAll_cons (c : Catalog) (e : Entity) (es : List Entity) :
    c.deriveAll (e :: es) = (c.derive e).1.deriveAll es := rfl

@[simp]
theorem entities_deriveAll (c : Catalog) (es : List Entity) :
    (c.deriveAll es).entities = c.entities := by
  induction es generalizing c with
  | nil => rfl
  | cons first es ih => rw [deriveAll_cons, ih, entities_derive]

/-- Making the table of an entity type leaves alone where types are found. -/
@[simp]
theorem entity?_derive (c : Catalog) (e : Entity) : (c.derive e).1.entity? = c.entity? := by
  funext name
  rw [entity?, entity?, entities_derive]

/-- Making the tables of some entity types notes the dependents that they make. -/
theorem mem_dependentsOf_deriveAll {made : String → Dependent → Prop} (hmade : OneEach made)
    (hc : ∀ table dep, dep ∈ c.dependentsOf table → made table dep) (es : List Entity)
    (hnew : ∀ e ∈ es, ∀ table dep, Makes c.entity? e table dep → made table dep) :
    dep ∈ (c.deriveAll es).dependentsOf table ↔
      dep ∈ c.dependentsOf table ∨ ∃ e ∈ es, Makes c.entity? e table dep := by
  induction es generalizing c with
  | nil => simp [deriveAll]
  | cons first es ih =>
      obtain ⟨hfirst, hrest⟩ := List.forall_mem_cons.1 hnew
      have hstep : ∀ table dep, dep ∈ (c.derive first).1.dependentsOf table ↔
          dep ∈ c.dependentsOf table ∨ Makes c.entity? first table dep :=
        fun _ _ => mem_dependentsOf_derive hmade hc hfirst
      have hc' : ∀ table dep, dep ∈ (c.derive first).1.dependentsOf table → made table dep := by
        intro table dep hmem
        rcases (hstep table dep).1 hmem with hmem | hmem
        · exact hc table dep hmem
        · exact hfirst table dep hmem
      have hrest' : ∀ e ∈ es, ∀ table dep, Makes (c.derive first).1.entity? e table dep →
          made table dep := by
        rw [entity?_derive]
        exact hrest
      rw [deriveAll_cons, ih hc' hrest', hstep, entity?_derive]
      simp [or_assoc]

/-! ## Registration -/

/-- A catalog in which exactly some entity types have been registered. -/
structure Knows (c : Catalog) (entities : List Entity) : Prop where
  entity : c.entity? = findEntity entities
  values : ∀ e, e ∈ Keyed.values c.entities ↔ e ∈ entities
  dependents : ∀ table dep,
    dep ∈ c.dependentsOf table ↔ MadeBy (findEntity entities) entities table dep

theorem knows_nil {c : Catalog} (hentities : c.entities = []) (hdependents : c.dependents = []) :
    c.Knows [] where
  entity := by
    funext name
    simp [entity?, hentities, findEntity]
  values := by simp [Keyed.values, hentities]
  dependents := by simp [dependentsOf, hdependents, MadeBy]

/-- The catalog with one more entity type, before its table is made. -/
def withEntity (c : Catalog) (e : Entity) : Catalog :=
  { c with entities := Keyed.put e.name e c.entities }

/-- The entity types whose tables are made when a type is registered: its own, and those of the
other types that refer to it. -/
def remade (c : Catalog) (e : Entity) : List Entity :=
  e :: (Keyed.values (c.withEntity e).entities).filter fun x =>
    x.name ≠ e.name && refersTo x e.name

theorem register_fst (c : Catalog) (e : Entity) :
    (c.register e).1 = (c.withEntity e).deriveAll (c.remade e) := by
  rw [remade, deriveAll_cons, ← entities_derive (c.withEntity e) e]
  rfl

theorem register_snd (c : Catalog) (e : Entity) :
    (c.register e).2 = Table.ofEntity? e (c.withEntity e).entity? :=
  derive_snd (c.withEntity e) e

theorem entities_register (c : Catalog) (e : Entity) :
    (c.register e).1.entities = (c.withEntity e).entities := by
  rw [register_fst, entities_deriveAll]

/-- The dependents that are made among more types are those that were made before, and those of
the types that are the new one or refer to it. -/
theorem madeBy_append (hall : DistinctEntities declared) (hin : entities ++ [e] ⊆ declared) :
    MadeBy (findEntity (entities ++ [e])) (entities ++ [e]) table dep ↔
      MadeBy (findEntity entities) entities table dep ∨
      ∃ x ∈ entities ++ [e], (x.name = e.name ∨ refersTo x e.name = true) ∧
        Makes (findEntity (entities ++ [e])) x table dep := by
  constructor
  · rintro ⟨x, hx, hmakes⟩
    by_cases hmade : x.name = e.name ∨ refersTo x e.name = true
    · exact .inr ⟨x, hx, hmade, hmakes⟩
    · rw [not_or, Bool.not_eq_true] at hmade
      have hold : x ∈ entities := by
        rcases List.mem_append.1 hx with hold | hnew
        · exact hold
        · exact absurd (congrArg Entity.name (List.mem_singleton.1 hnew)) hmade.1
      rw [Makes, Table.ofEntity?_findEntity_append hmade.2] at hmakes
      exact .inl ⟨x, hold, hmakes⟩
  · rintro (⟨x, hx, hmakes⟩ | ⟨x, hx, -, hmakes⟩)
    · have hx' := List.mem_append_left [e] hx
      refine ⟨x, hx', hmakes.mono (hall.each x (hin hx')) fun name y hfind => ?_⟩
      rw [findEntity_append, hfind]
      rfl
    · exact ⟨x, hx, hmakes⟩

namespace Knows

variable (h : c.Knows entities) (hall : DistinctEntities declared)
  (hin : entities ++ [e] ⊆ declared)

include h hall hin

theorem entity?_withEntity : (c.withEntity e).entity? = findEntity (entities ++ [e]) := by
  funext name
  rw [withEntity, entity?, Keyed.lookup_put]
  split
  · next heq =>
      rw [heq, (hall.findEntity_eq_some_iff hin).2 ⟨by simp, rfl⟩]
  · next hne =>
      rw [findEntity_append_of_ne entities hne, ← h.entity]
      rfl

/-- A type that is known stays where it is, and a new one comes last. -/
theorem values_withEntity (x : Entity) :
    x ∈ Keyed.values (c.withEntity e).entities ↔ x ∈ entities ++ [e] := by
  have hlookup : c.entities.lookup e.name = findEntity entities e.name := by
    rw [← h.entity]
    rfl
  cases hfind : findEntity entities e.name with
  | none =>
      rw [withEntity, Keyed.put_of_lookup_eq_none e (hlookup.trans hfind), Keyed.values,
        List.map_append, List.mem_append, List.mem_append, ← h.values, Keyed.values]
      simp
  | some y =>
      obtain ⟨hy, hname⟩ := findEntity_eq_some hfind
      obtain rfl : y = e :=
        hall.eq_of_name (hin (List.mem_append_left [e] hy)) (hin (by simp)) hname
      rw [withEntity, Keyed.put_of_lookup_eq_some (hlookup.trans hfind), h.values]
      simp only [List.mem_append, List.mem_singleton]
      refine ⟨.inl, ?_⟩
      rintro (hx | rfl)
      · exact hx
      · exact hy

/-- The types whose tables are made. -/
theorem mem_remade (x : Entity) :
    x ∈ c.remade e ↔
      x ∈ entities ++ [e] ∧ (x.name = e.name ∨ refersTo x e.name = true) := by
  rw [remade, List.mem_cons, List.mem_filter, h.values_withEntity hall hin]
  simp only [Bool.and_eq_true, decide_eq_true_eq]
  constructor
  · rintro (rfl | ⟨hx, -, hrefers⟩)
    · exact ⟨by simp, .inl rfl⟩
    · exact ⟨hx, .inr hrefers⟩
  · rintro ⟨hx, hmade⟩
    by_cases hname : x.name = e.name
    · exact .inl (hall.eq_of_name (hin hx) (hin (by simp)) hname)
    · exact .inr ⟨hx, hname, hmade.resolve_left hname⟩

/-- Making the tables of the new type and of those that refer to it, in whatever order, whether the
new type is known or not. -/
theorem deriveAll {es : List Entity} (hes : ∀ x, x ∈ es ↔ x ∈ c.remade e) :
    ((c.withEntity e).deriveAll es).Knows (entities ++ [e]) := by
  have hentity := h.entity?_withEntity hall hin
  have hone : OneEach (MadeBy (findEntity (entities ++ [e])) (entities ++ [e])) :=
    fun _ _ _ hdep hdep' => hdep.unique hall hin hdep'
  constructor
  · rw [← hentity]
    funext name
    rw [entity?, entity?, entities_deriveAll]
  · intro x
    rw [entities_deriveAll]
    exact h.values_withEntity hall hin x
  · intro table dep
    rw [mem_dependentsOf_deriveAll hone, hentity, madeBy_append hall hin]
    · refine or_congr (h.dependents table dep) (exists_congr fun x => ?_)
      rw [hes, h.mem_remade hall hin, and_assoc]
    · intro table dep hdep
      exact (madeBy_append hall hin).2 (.inl ((h.dependents table dep).1 hdep))
    · intro x hx table dep hmakes
      rw [hentity] at hmakes
      exact ⟨x, ((h.mem_remade hall hin x).1 ((hes x).1 hx)).1, hmakes⟩

/-- Registering an entity type, whether it is known or not. -/
theorem register : (c.register e).1.Knows (entities ++ [e]) := by
  rw [register_fst]
  exact h.deriveAll hall hin fun _ => .rfl

end Knows

/-- The dependents of a table are the cascading foreign keys that refer to it. -/
theorem Knows.mem_dependentsOf (h : c.Knows entities) (hall : DistinctEntities entities) :
    dep ∈ c.dependentsOf table ↔ ∃ e ∈ entities, ∃ target ∈ entities, ∃ p col ref column,
      CascadesTo e p col ref target column ∧ e.tableName? = some dep.table ∧
      target.tableName? = some table ∧
      dep = ⟨e.name, dep.table, p.key, ref.property, column.name⟩ := by
  rw [h.dependents]
  constructor
  · rintro ⟨e, he, hmakes⟩
    obtain ⟨p, col, ref, key, hpc, href, hkey, haction, rfl, hname, hdep⟩ :=
      (makes_iff (hall.each e he)).1 hmakes
    obtain ⟨target, htarget, q, column, hentity, htable, hq, hproperty, hcolumn, haction'⟩ :=
      (hall.resolve?_eq_some he).1 hkey
    refine ⟨e, he, target, htarget, p, col, ref, column,
      ⟨hpc, href, haction'.trans haction, hentity, q, hq, hproperty⟩, hname, htable, ?_⟩
    rwa [hcolumn]
  · rintro ⟨e, he, target, htarget, p, col, ref, column, hcascades, hname, htable, hdep⟩
    obtain ⟨q, hq, hproperty⟩ := hcascades.column
    refine ⟨e, he, (makes_iff (hall.each e he)).2 ⟨p, col, ref,
      ⟨table, column.name, .cascade⟩, hcascades.property, hcascades.foreignKey, ?_, rfl, rfl,
      hname, hdep⟩⟩
    exact (hall.resolve?_eq_some he).2 ⟨target, htarget, q, column, hcascades.entity, htable, hq,
      hproperty, rfl, hcascades.action⟩

end Catalog

end Persistence
