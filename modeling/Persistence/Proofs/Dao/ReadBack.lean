import Persistence.Proofs.Dao.Binding

/-!
# Saved entities read back

An entity that is saved and read again without its relations has the properties that it was saved
with.  The values that an insert binds, the columns that it names, the mapping under which rows are
read and the declaration that all of them come from are independent of each other; they agree for
every declaration and every object with scalars.

Main results:

- `Value.stored?_ofJson`: a scalar is answered as it was written.
- `hydrateEntries_none`: what a row becomes without its relations.
- `Entity.HoldsScalars.stores_iff`: the rows that are kept of an object with scalars.
- `IsDaoOf.reads_saved`: what is read of a saved object.
-/

namespace Persistence

open Sql

variable {σ : Type}

/-! ## Scalars -/

/-- Whether a JSON value is a string, a number, a boolean or null. -/
def Json.isScalar : Json → Bool
  | arr _ => false
  | obj _ => false
  | _ => true

/-- Whether a JSON value is not null. -/
def Json.isPresent (j : Json) : Bool := !j.isNull

/-- What a database answers for a scalar that it was given.  A number that is not finite is given to
it as null.  Moments, documents, points and lists are no scalars. -/
def Value.stored? : Value → Option Json
  | null => some .null
  | bool b => some (.bool b)
  | int n => some (Json.ofInt n)
  | uint n => some (Json.ofInt n)
  | float x => some (Json.ofFloat x)
  | string s => some (.str s)
  | _ => none

theorem Json.ofInt_of_fits {n : Int} (h : minInt64 ≤ n ∧ n ≤ maxUInt64) :
    ofInt n = num (.int n h) := by
  rw [ofInt, Number.ofInt?, dif_pos h]

/-- A scalar is answered as it was written. -/
theorem Value.stored?_ofJson {j : Json} (h : j.isScalar = true) : (ofJson j).stored? = some j := by
  cases j with
  | null | bool b | str s => rfl
  | arr items | obj fields => cases h
  | num n =>
      cases n with
      | int n fits =>
          rw [ofJson, ofNumber]
          split
          · rw [stored?, Json.ofInt_of_fits fits]
          · next hlarge =>
            have hnonneg : 0 ≤ n := by
              have hmax : (0 : Int) ≤ maxInt64 := by decide
              omega
            rw [stored?, Int.toNat_of_nonneg hnonneg, Json.ofInt_of_fits fits]
      | float x finite =>
          rw [ofJson, ofNumber, stored?, Json.ofFloat, Json.Number.ofFloat?, dif_pos finite]

/-! ## Rows without relations -/

/-- What a row has of a property whose relations are not followed. -/
def Mapping.Target.kept? (row : Row) : Mapping.Target → Option Json
  | column name => presentValue? row name
  | lookup _ => none

/-- Without relations, a row becomes the object of what it has in the columns. -/
theorem hydrateEntries_none (row : Row) (entries : List (String × Mapping.Target)) :
    (hydrateEntries none row entries : Task σ Json.Fields) =
      pure (entries.filterMap fun entry => (entry.2.kept? row).map (entry.1, ·)) := by
  induction entries with
  | nil => rfl
  | cons entry entries ih =>
      obtain ⟨property, target⟩ := entry
      have hvalue : (hydrateProperty none row target : Task σ (Option Json)) =
          pure (target.kept? row) := by
        cases target <;> rfl
      rw [hydrateEntries, hvalue, pure_bind, ih, pure_bind]
      cases hkept : target.kept? row with
      | none => rw [List.filterMap_cons_none (by simp [hkept])]
      | some v => rw [List.filterMap_cons_some (b := (property, v)) (by simp [hkept])]

/-! ## Saved entities -/

namespace Entity

variable {e : Entity} {fields : Json.Fields} {p : Property} {c : ColumnSpec}

/-- An object with scalars in the properties that are kept in columns: each is missing, null, or a
scalar in a column that is neither for moments nor for points.  The defaults of the columns are
scalars as well. -/
structure HoldsScalars (e : Entity) (fields : Json.Fields) : Prop where
  values : ∀ p c, (p, c) ∈ e.columnProperties → ∀ j, fields.lookup p.key = some j →
    j.isNull = true ∨ j.isScalar = true ∧ (Column.ofSpec p c).type ≠ .datetime ∧
      (Column.ofSpec p c).type ≠ .geometry
  defaults : ∀ p c, (p, c) ∈ e.columnProperties → ∀ v, c.defaultValue = some v →
    v.stored?.isSome = true

/-- What a column keeps of an object: the value of its property or, where that is missing or null,
the default. -/
def kept (fields : Json.Fields) (p : Property) (c : ColumnSpec) : Json :=
  (((fields.lookup p.key).filter Json.isPresent).or (c.defaultValue.bind Value.stored?)).getD .null

/-- What an object has of a property once it was saved: nothing of a property that is kept in no
column or that is null. -/
def saved? (e : Entity) (fields : Json.Fields) (property : String) : Option Json :=
  (e.columnProperties.find? fun pc => pc.1.key = property).bind fun (p, c) =>
    some (kept fields p c) |>.filter Json.isPresent

/-- The value that a column takes from an object with scalars. -/
def bound (fields : Json.Fields) (p : Property) (c : ColumnSpec) : Value :=
  (((fields.lookup p.key).filter Json.isPresent).map Value.ofJson).getD (c.defaultValue.getD .null)

end Entity

/-- A scalar goes into a column that is neither for moments nor for points as it is. -/
theorem ValueColumn.convert_of_isScalar {c : ValueColumn} {j : Json} (h : j.isScalar = true)
    (hmoment : c.type ≠ .datetime) (hpoint : c.type ≠ .geometry) :
    c.convert j = .ok (Value.ofJson j) := by
  rw [convert.eq_def]
  split
  · next htype => exact absurd htype hpoint
  · next htype => exact absurd htype hmoment
  · cases j with
    | arr items | obj fields => cases h
    | _ => rfl

namespace Entity.HoldsScalars

variable {e : Entity} {fields : Json.Fields} {p : Property} {c : ColumnSpec}

/-- A column takes its value from an object with scalars. -/
theorem takes (h : e.HoldsScalars fields) (hpc : (p, c) ∈ e.columnProperties) :
    (Column.ofSpec p c).Takes fields (bound fields p c) := by
  refine ⟨⟨p.key, (Column.ofSpec p c).type, c.defaultValue⟩, rfl, ?_⟩
  rw [ValueColumn.value, bound]
  cases hlookup : fields.lookup p.key with
  | none => rfl
  | some j =>
      dsimp only
      cases hnull : j.isNull with
      | true => simp [Option.filter, Json.isPresent, hnull]
      | false =>
          rcases h.values p c hpc j hlookup with htrue | ⟨hscalar, hmoment, hpoint⟩
          · simp [hnull] at htrue
          · rw [if_neg (by simp), ValueColumn.convert_of_isScalar hscalar hmoment hpoint]
            simp [Option.filter, Json.isPresent, hnull]

/-- The value that a column takes is kept as what the column keeps of the object. -/
theorem stored?_bound (h : e.HoldsScalars fields) (hpc : (p, c) ∈ e.columnProperties) :
    (bound fields p c).stored? = some (kept fields p c) := by
  rw [bound, kept]
  cases hvalue : (fields.lookup p.key).filter Json.isPresent with
  | some j =>
      obtain ⟨hlookup, hpresent⟩ := Option.filter_eq_some_iff.1 hvalue
      rcases h.values p c hpc j hlookup with hnull | ⟨hscalar, -, -⟩
      · simp [Json.isPresent, hnull] at hpresent
      · exact Value.stored?_ofJson hscalar
  | none =>
      cases hdefault : c.defaultValue with
      | none => rfl
      | some v =>
          obtain ⟨j, hj⟩ := Option.isSome_iff_exists.1 (h.defaults p c hpc v hdefault)
          simp [hj]

end Entity.HoldsScalars

/-! ## Stored rows -/

/-- A row that a database keeps of the values of an insert and answers, with its columns in any
order: what it keeps of each value in the column that the insert lists for it and, where deletion is
soft, the flag. -/
def Dao.Stores (dao : Dao) (values : List Value) (row : Row) : Prop :=
  ∃ scalars flag, List.Forall₂ (fun v j => v.stored? = some j) values scalars ∧
    row.Perm (dao.listedColumns.zip scalars ++
      if dao.table.softDelete then [(softDeleteColumn, flag)] else [])

section Stored

variable {e : Entity} {dao : Dao} {fields : Json.Fields}

/-- The values that an insert binds for an object with scalars. -/
theorem Entity.HoldsScalars.entityValues_insert (h : e.HoldsScalars fields) (hof : IsDaoOf e dao) :
    entityValues dao.insert.columns (.obj fields) =
      .ok (e.columnProperties.map fun (p, c) => bound fields p c) := by
  show entityValues dao.columns (.obj fields) = _
  rw [hof.columns_eq, entityValues_eq_ok_iff fun _ => Dao.isSome_property, hof.propertyColumns]
  refine ⟨fields, rfl, ?_⟩
  rw [List.forall₂_map_left_iff, List.forall₂_map_right_iff, List.forall₂_same]
  exact fun pc hpc => h.takes hpc

/-- The insert of an object with scalars lists the columns and has one row with these values. -/
theorem Entity.HoldsScalars.insert_statementText (h : e.HoldsScalars fields) (hof : IsDaoOf e dao)
    (hwritable : dao.Writable) :
    dao.insert.statementText [.obj fields] =
      .ok (dao.insertText "insert" [e.columnProperties.map fun (p, c) => bound fields p c]) := by
  rw [hof.insert_statementText hwritable]
  refine ⟨_, .cons ⟨fields, rfl, ?_⟩ .nil, rfl⟩
  rw [hof.propertyColumns, List.forall₂_map_left_iff, List.forall₂_map_right_iff,
    List.forall₂_same]
  exact fun pc hpc => h.takes hpc

/-- What the columns of an entity type keep of an object, by name, with the flag of a soft
deletion. -/
def Entity.keptRow (e : Entity) (fields : Json.Fields) (flag : Json) : Row :=
  (e.columnProperties.map fun (p, c) => (c.name, kept fields p c)) ++
    if e.softDelete then [(softDeleteColumn, flag)] else []

/-- The rows that are kept of the values for an object with scalars. -/
theorem Entity.HoldsScalars.stores_iff (h : e.HoldsScalars fields) (hof : IsDaoOf e dao)
    {row : Row} :
    dao.Stores (e.columnProperties.map fun (p, c) => bound fields p c) row ↔
      ∃ flag, row.Perm (e.keptRow fields flag) := by
  have hkept : (e.columnProperties.map fun (p, c) => bound fields p c).map Value.stored? =
      (e.columnProperties.map fun (p, c) => kept fields p c).map some := by
    rw [List.map_map, List.map_map]
    exact List.map_congr_left fun pc hpc => h.stored?_bound hpc
  have hscalars : ∀ scalars, List.Forall₂ (fun v j => Value.stored? v = some j)
      (e.columnProperties.map fun (p, c) => bound fields p c) scalars ↔
        scalars = e.columnProperties.map fun (p, c) => kept fields p c := by
    intro scalars
    rw [← List.forall₂_map_left_iff (f := Value.stored?) (R := fun v j => v = some j),
      ← List.forall₂_map_right_iff (f := some), List.forall₂_eq_eq_eq, hkept, eq_comm]
    exact (List.map_injective_iff.2 (Option.some_injective _)).eq_iff
  have hrow : dao.listedColumns.zip (e.columnProperties.map fun (p, c) => kept fields p c) =
      e.columnProperties.map fun (p, c) => (c.name, kept fields p c) := by
    rw [Dao.listedColumns, hof.propertyColumns, List.map_map, List.zip_map']
    rfl
  rw [Dao.Stores, hof.softDelete]
  constructor
  · rintro ⟨scalars, flag, hscalars', hperm⟩
    rw [(hscalars scalars).1 hscalars', hrow] at hperm
    exact ⟨flag, hperm⟩
  · rintro ⟨flag, hperm⟩
    refine ⟨_, flag, (hscalars _).2 rfl, ?_⟩
    rw [hrow]
    exact hperm

/-! ## Reading back -/

section Rows

variable (hdeclared : e.WellDeclared)
  (hflag : ∀ p c, (p, c) ∈ e.columnProperties → c.name ≠ softDeleteColumn)

include hdeclared hflag

/-- The columns of a row that is kept have distinct names. -/
theorem Entity.nodup_keys_keptRow (flag : Json) : (Keyed.keys (e.keptRow fields flag)).Nodup := by
  rw [keptRow, Keyed.keys, List.map_append, List.map_map]
  refine hdeclared.columns.append ?_ fun name hname hflagged => ?_
  · split
    · exact List.nodup_singleton _
    · exact List.nodup_nil
  · obtain ⟨⟨p, c⟩, hpc, rfl⟩ := List.mem_map.1 hname
    split at hflagged
    · exact hflag p c hpc (List.mem_singleton.1 hflagged)
    · cases hflagged

/-- The column of a property has in a row that is kept what it keeps of the object. -/
theorem Entity.presentValue?_keptRow {flag : Json} {row : Row}
    (hrow : row.Perm (e.keptRow fields flag)) {p : Property} {c : ColumnSpec}
    (hpc : (p, c) ∈ e.columnProperties) :
    presentValue? row c.name = (some (kept fields p c)).filter Json.isPresent := by
  have hnodup : (Keyed.keys row).Nodup :=
    (hrow.map Prod.fst).nodup_iff.2 (nodup_keys_keptRow hdeclared hflag flag)
  have hmem : (c.name, kept fields p c) ∈ row :=
    hrow.mem_iff.2 (List.mem_append_left _ (List.mem_map.2 ⟨(p, c), hpc, rfl⟩))
  rw [presentValue?, (Keyed.lookup_eq_some_iff_of_nodup hnodup).2 hmem]
  rfl

/-- What the mapping of an entity type finds in a row that is kept. -/
theorem IsDaoOf.kept?_target (hof : IsDaoOf e dao) {flag : Json} {row : Row}
    (hrow : row.Perm (e.keptRow fields flag)) (property : String) :
    (dao.target.mapping.get? property).bind (Mapping.Target.kept? row) =
      e.saved? fields property := by
  obtain ⟨t, lookup, codec, ht, rfl⟩ := hof
  rw [Entity.saved?]
  cases hfind : e.columnProperties.find? fun pc => pc.1.key = property with
  | some pc =>
      obtain ⟨p, c⟩ := pc
      have hpc := List.mem_of_find?_eq_some hfind
      have hkey : p.key = property := by simpa using List.find?_some hfind
      subst hkey
      show ((Mapping.ofEntity e t).get? p.key).bind _ = _
      rw [Mapping.get?_ofEntity hdeclared ht hpc]
      exact Entity.presentValue?_keptRow hdeclared hflag hrow hpc
  | none =>
      have hother : ∀ pc ∈ e.columnProperties, pc.1.key ≠ property := by
        simpa using List.find?_eq_none.1 hfind
      have hcolumn := Mapping.get?_ofEntity_ne_column ht hother
      show ((Mapping.ofEntity e t).get? property).bind _ = _
      cases hget : (Mapping.ofEntity e t).get? property with
      | none => rfl
      | some target =>
          cases target with
          | column name => exact absurd hget (hcolumn name)
          | lookup l => rfl

end Rows

/-- An object with scalars that is saved and read back without its relations is the object of what
was saved: the values of the properties that are kept in columns, the defaults where the object had
nothing, no property that is null, and nothing else.  The values are those of the insert that is
sent, one for each column that it lists. -/
theorem IsDaoOf.reads_saved (hof : IsDaoOf e dao) (hdeclared : e.WellDeclared)
    (hflag : ∀ p c, (p, c) ∈ e.columnProperties → c.name ≠ softDeleteColumn)
    (hfields : e.HoldsScalars fields) :
    ∃ values, entityValues dao.insert.columns (.obj fields) = .ok values ∧
      (dao.Writable →
        dao.insert.statementText [.obj fields] = .ok (dao.insertText "insert" [values])) ∧
      (∃ row, dao.Stores values row) ∧
      ∀ row, dao.Stores values row → ∃ found : Json.Fields,
        (Keyed.keys found).Pairwise (· < ·) ∧
        (∀ property, found.lookup property = e.saved? fields property) ∧
        ∀ s : Select, s.target = some dao.target →
          (s.hydrate none row : Task σ Json) = pure (.obj found) := by
  refine ⟨_, hfields.entityValues_insert hof, hfields.insert_statementText hof, ?_,
    fun row hstores => ?_⟩
  · exact ⟨e.keptRow fields (Json.ofInt 0), (hfields.stores_iff hof).2 ⟨_, List.Perm.refl _⟩⟩
  · obtain ⟨flag, hrow⟩ := (hfields.stores_iff hof).1 hstores
    have hsorted : (Keyed.keys dao.target.mapping.entries).Pairwise (· < ·) := by
      obtain ⟨t, lookup, codec, ht, rfl⟩ := hof
      exact Mapping.pairwise_keys_ofEntity ht
    refine ⟨_, Keyed.pairwise_keys_filterMap hsorted (Mapping.Target.kept? row),
      fun property => ?_, fun s hs => ?_⟩
    · rw [Keyed.lookup_filterMap (Keyed.nodup_of_pairwise hsorted)]
      exact hof.kept?_target hdeclared hflag hrow property
    · rw [Select.hydrate, hs]
      dsimp only
      rw [hydrateEntries_none, pure_bind]

end Stored

namespace Product

/-- An entity type with soft deletion, a default and a relation. -/
def entity : Entity where
  name := "Product"
  table := some ⟨"product", none, none, none, true⟩
  properties :=
    [⟨"id", .number, some (.key "id"), none⟩,
     ⟨"name", .string, some (.named "product_name"), none⟩,
     ⟨"stock", .number,
       some { ColumnSpec.named "stock" with defaultValue := some (.int 1) }, none⟩,
     ⟨"soldAt", .date, some (.named "sold_at"), none⟩,
     ⟨"maker", .object, none, some ⟨"Maker", "maker_id", "id", false⟩⟩]

/-- A product whose stock is null, with nothing about when it was sold. -/
def fields : Json.Fields :=
  [("name", .str "pen"), ("id", Json.ofInt 7), ("stock", .null), ("maker", .obj [])]

/-- The table of the entity type. -/
def table : Table := (Table.ofEntity? entity fun _ => none).get rfl

/-- The access object of the entity type. -/
def dao : Dao := Dao.ofEntity entity table .any

theorem isDaoOf : IsDaoOf entity dao := ⟨table, fun _ => none, .any, rfl, rfl⟩

theorem wellDeclared : entity.WellDeclared where
  keys := by decide
  columns := by decide
  either p hp := by
    simp only [entity, List.mem_cons, List.not_mem_nil, or_false] at hp
    rcases hp with rfl | rfl | rfl | rfl | rfl
    all_goals simp

theorem mem_columnProperties {p : Property} {c : ColumnSpec}
    (h : (p, c) ∈ entity.columnProperties) :
    (p, c) = (⟨"id", .number, some (.key "id"), none⟩, .key "id") ∨
    (p, c) = (⟨"name", .string, some (.named "product_name"), none⟩, .named "product_name") ∨
    (p, c) = (⟨"stock", .number,
        some { ColumnSpec.named "stock" with defaultValue := some (.int 1) }, none⟩,
      { ColumnSpec.named "stock" with defaultValue := some (.int 1) }) ∨
    (p, c) = (⟨"soldAt", .date, some (.named "sold_at"), none⟩, .named "sold_at") := by
  simpa [entity, Entity.columnProperties] using h

theorem holdsScalars : entity.HoldsScalars fields where
  values p c hpc j hj := by
    rcases mem_columnProperties hpc with h | h | h | h
    all_goals obtain ⟨rfl, rfl⟩ := Prod.mk.inj h
    · obtain rfl : Json.ofInt 7 = j := Option.some.inj hj
      exact .inr ⟨rfl, by decide, by decide⟩
    · obtain rfl : Json.str "pen" = j := Option.some.inj hj
      exact .inr ⟨rfl, by decide, by decide⟩
    · obtain rfl : Json.null = j := Option.some.inj hj
      exact .inl rfl
    · cases hj
  defaults p c hpc v hv := by
    rcases mem_columnProperties hpc with h | h | h | h
    all_goals obtain ⟨rfl, rfl⟩ := Prod.mk.inj h
    · cases hv
    · cases hv
    · obtain rfl : Value.int 1 = v := Option.some.inj hv
      rfl
    · cases hv

theorem name_ne_softDeleteColumn {p : Property} {c : ColumnSpec}
    (h : (p, c) ∈ entity.columnProperties) : c.name ≠ softDeleteColumn := by
  rcases mem_columnProperties h with h | h | h | h
  all_goals
    obtain ⟨rfl, rfl⟩ := Prod.mk.inj h
    decide

theorem writable : dao.Writable where
  properties := by decide
  table := by
    show IsUnmarked "product"
    simp [IsUnmarked, isQuote]
  columns := by
    have hnames : ∀ name ∈ ["id", "product_name", "stock", "sold_at"], IsUnmarked name := by
      simp [IsUnmarked, isQuote]
    exact (List.forall_mem_map (f := Column.name) (l := dao.table.propertyColumns)).1 hnames
  defaults := by
    have hscalar : ∀ given ∈ [none, none, some (Value.int 1), none], ∀ d, given = some d →
        d.isList = false := by
      simp [Value.isList]
    exact fun c hc => hscalar _ (List.mem_map_of_mem (f := Column.defaultValue) hc)

end Product

/-- A product is read back with its name, with the default for its stock, and without its maker. -/
theorem IsDaoOf.reads_saved_product :
    IsDaoOf Product.entity Product.dao ∧ Product.entity.WellDeclared ∧
      Product.entity.HoldsScalars Product.fields ∧
      ∃ values row found, entityValues Product.dao.insert.columns (.obj Product.fields) =
          .ok values ∧
        Product.dao.insert.statementText [.obj Product.fields] =
          .ok (Product.dao.insertText "insert" [values]) ∧
        Product.dao.Stores values row ∧
        (Product.dao.listAll.hydrate none row : Task Unit Json) = Pure.pure (.obj found) ∧
        found.lookup "name" = some (.str "pen") ∧ found.lookup "stock" = some (Json.ofInt 1) ∧
        found.lookup "soldAt" = none ∧ found.lookup "maker" = none := by
  obtain ⟨values, hvalues, htext, ⟨row, hrow⟩, hread⟩ :=
    Product.isDaoOf.reads_saved (σ := Unit) Product.wellDeclared
      (fun _ _ => Product.name_ne_softDeleteColumn) Product.holdsScalars
  obtain ⟨found, -, hfound, hhydrate⟩ := hread row hrow
  refine ⟨Product.isDaoOf, Product.wellDeclared, Product.holdsScalars, values, row, found, hvalues,
    htext Product.writable, hrow, hhydrate _ rfl, ?_, ?_, ?_, ?_⟩
  all_goals
    rw [hfound]
    rfl

end Persistence
