import Persistence.Proofs.Catalog.Registration

/-!
# What the catalog notes

Making the table of an entity type notes its dependents, and each note stays.  A later note of the
same property for the same tables is passed over, also when the type has been registered again and
its foreign key is no longer what it was.  So the dependents of a table are the first notes that
any registration made, and every foreign key with the action `CASCADE` that is declared has one;
but a note can outlive the declaration, or name a column that the foreign key has left.

Main results:

- `Catalog.Tracks.register`: what one registration keeps.
- `Catalog.tracks_registerAll`: what any registrations keep.
- `Catalog.dependents_match_iff`: the registrations after which the dependents are those that are
  declared.
-/

namespace Persistence

namespace Catalog

variable {c : Catalog} {notes : List (String × Dependent)} {target source property : String}
  {dep : Dependent}

/-! ## First notes -/

/-- The first note of a property of a table as a dependent of another table. -/
def firstNote (notes : List (String × Dependent)) (target source property : String) :
    Option Dependent :=
  (notes.find? fun (table, d) => table = target && d.table = source && d.property = property).map
    Prod.snd

theorem firstNote_append (notes more : List (String × Dependent))
    (target source property : String) :
    firstNote (notes ++ more) target source property =
      (firstNote notes target source property).or (firstNote more target source property) := by
  rw [firstNote, List.find?_append, Option.map_or]
  rfl

theorem firstNote_singleton (table : String) (d : Dependent) (target source property : String) :
    firstNote [(table, d)] target source property =
      if table = target ∧ d.table = source ∧ d.property = property then some d else none := by
  rw [firstNote, List.find?_singleton]
  simp only [Bool.and_eq_true, decide_eq_true_eq, and_assoc]
  split <;> rfl

/-- The first note of a property is about that property. -/
theorem source_of_firstNote (h : firstNote notes target source property = some dep) :
    dep.table = source ∧ dep.property = property := by
  obtain ⟨⟨table, d⟩, hfind, rfl⟩ := Option.map_eq_some_iff.1 h
  have hsource := List.find?_some hfind
  simp only [Bool.and_eq_true, decide_eq_true_eq] at hsource
  exact ⟨hsource.1.2, hsource.2⟩

/-- A property that is noted has a first note. -/
theorem exists_firstNote (h : (target, dep) ∈ notes) :
    ∃ first, firstNote notes target dep.table dep.property = some first := by
  refine Option.isSome_iff_exists.1 ?_
  rw [firstNote, Option.isSome_map, List.find?_isSome]
  exact ⟨(target, dep), h, by simp⟩

/-! ## Making tables -/

/-- What is noted when the table of an entity type is made. -/
def notesOf (c : Catalog) (e : Entity) : List (String × Dependent) :=
  ((Table.ofEntity? e c.entity?).map (cascades e)).getD []

theorem mem_notesOf {e : Entity} : (target, dep) ∈ c.notesOf e ↔ Makes c.entity? e target dep := by
  rw [notesOf, Makes]
  cases Table.ofEntity? e c.entity? <;> simp

/-- A catalog whose dependents are the first of some notes. -/
def Notes (c : Catalog) (notes : List (String × Dependent)) : Prop :=
  ∀ target dep, dep ∈ c.dependentsOf target ↔
    firstNote notes target dep.table dep.property = some dep

/-- A property is known to a catalog if it has a first note. -/
theorem Notes.exists_iff (h : c.Notes notes) (target source property : String) :
    (∃ d ∈ c.dependentsOf target, d.table = source ∧ d.property = property) ↔
      ∃ d, firstNote notes target source property = some d := by
  constructor
  · rintro ⟨d, hd, rfl, rfl⟩
    exact ⟨d, (h target d).1 hd⟩
  · rintro ⟨d, hd⟩
    obtain ⟨htable, hproperty⟩ := source_of_firstNote hd
    exact ⟨d, (h target d).2 (htable ▸ hproperty ▸ hd), htable, hproperty⟩

theorem Notes.addDependent (h : c.Notes notes) (table : String) (d : Dependent) :
    (c.addDependent table d).Notes (notes ++ [(table, d)]) := by
  intro target dep
  rw [dependentsOf_addDependent, firstNote_append, firstNote_singleton]
  split
  · next hnew =>
      obtain ⟨rfl, hnone⟩ := hnew
      rw [h.exists_iff] at hnone
      have hfirst : firstNote notes target d.table d.property = none :=
        Option.eq_none_iff_forall_ne_some.2 fun d' hd' => hnone ⟨d', hd'⟩
      rw [List.mem_append, List.mem_singleton, h target dep, Option.or_eq_some_iff]
      refine or_congr_right ⟨?_, ?_⟩
      · rintro rfl
        exact ⟨hfirst, if_pos ⟨rfl, rfl, rfl⟩⟩
      · rintro ⟨-, hmade⟩
        split at hmade
        · exact (Option.some.inj hmade).symm
        · cases hmade
  · next hknown =>
      rw [h.exists_iff] at hknown
      rw [h target dep, Option.or_eq_some_iff]
      refine ⟨.inl, ?_⟩
      rintro (hold | ⟨hnone, hmade⟩)
      · exact hold
      · split at hmade
        · next hsame =>
            obtain ⟨rfl, htable, hproperty⟩ := hsame
            obtain ⟨d', hd'⟩ := not_not.1 fun hno => hknown ⟨rfl, hno⟩
            rw [htable, hproperty, hnone] at hd'
            cases hd'
        · cases hmade

theorem Notes.foldl (h : c.Notes notes) (new : List (String × Dependent)) :
    (new.foldl (fun c (target, d) => c.addDependent target d) c).Notes (notes ++ new) := by
  induction new generalizing c notes with
  | nil => rwa [List.append_nil]
  | cons first new ih =>
      obtain ⟨table, d⟩ := first
      rw [List.foldl_cons, List.append_cons]
      exact ih (h.addDependent table d)

theorem Notes.derive (h : c.Notes notes) (e : Entity) :
    (c.derive e).1.Notes (notes ++ c.notesOf e) := by
  rw [notesOf, Catalog.derive]
  split
  · next hnone => rwa [hnone, Option.map_none, Option.getD_none, List.append_nil]
  · next t hsome =>
      have htables : Notes { c with tables := Keyed.putSorted t.name t c.tables } notes := h
      rw [hsome, Option.map_some, Option.getD_some]
      exact htables.foldl (cascades e t)

theorem Notes.deriveAll (h : c.Notes notes) (es : List Entity) :
    (c.deriveAll es).Notes (notes ++ es.flatMap c.notesOf) := by
  induction es generalizing c notes with
  | nil => rwa [List.flatMap_nil, List.append_nil]
  | cons first es ih =>
      have hsame : (c.derive first).1.notesOf = c.notesOf := by
        funext e
        rw [notesOf, notesOf, entity?_derive]
      have hrest := ih (h.derive first)
      rw [hsame, List.append_assoc, ← List.flatMap_cons] at hrest
      exact hrest

/-! ## Registrations -/

/-- What is noted when an entity type is registered. -/
def registrationNotes (c : Catalog) (e : Entity) : List (String × Dependent) :=
  (c.remade e).flatMap (c.withEntity e).notesOf

/-- The catalog after several registrations. -/
def registerAll (c : Catalog) (es : List Entity) : Catalog :=
  es.foldl (fun c e => (c.register e).1) c

/-- All that is noted by several registrations, in order. -/
def history (c : Catalog) : List Entity → List (String × Dependent)
  | [] => []
  | e :: es => c.registrationNotes e ++ (c.register e).1.history es

/-- A catalog whose dependents are the first of some notes, where all that its entity types make
has been noted. -/
structure Tracks (c : Catalog) (notes : List (String × Dependent)) : Prop where
  dependents : c.Notes notes
  noted : ∀ e, c.entity? e.name = some e → ∀ target dep, Makes c.entity? e target dep →
    (target, dep) ∈ notes

theorem tracks_empty : Catalog.empty.Tracks [] where
  dependents target dep := by simp [dependentsOf, empty, firstNote]
  noted e h := by cases h

theorem entity?_withEntity (c : Catalog) (e : Entity) (name : String) :
    (c.withEntity e).entity? name = if name = e.name then some e else c.entity? name :=
  Keyed.lookup_put e.name name e c.entities

theorem entity?_register (c : Catalog) (e : Entity) :
    (c.register e).1.entity? = (c.withEntity e).entity? := by
  funext name
  rw [entity?, entity?, entities_register]

/-- A type that is found after a registration is one of those whose tables are made, or was found
before and does not refer to the new one. -/
theorem remade_or_kept {e x : Entity} (hx : (c.withEntity e).entity? x.name = some x) :
    x ∈ c.remade e ∨ c.entity? x.name = some x ∧ refersTo x e.name = false := by
  rw [remade, List.mem_cons, List.mem_filter]
  by_cases hname : x.name = e.name
  · rw [entity?_withEntity, if_pos hname] at hx
    exact .inl (.inl (Option.some.inj hx).symm)
  · cases hrefers : refersTo x e.name with
    | true =>
        have hvalue : x ∈ Keyed.values (c.withEntity e).entities :=
          Keyed.mem_values_of_lookup hx
        exact .inl (.inr ⟨hvalue, by simp [hname]⟩)
    | false =>
        rw [entity?_withEntity, if_neg hname] at hx
        exact .inr ⟨hx, rfl⟩

/-- Registering an entity type, a new one or one that is known with whatever declaration. -/
theorem Tracks.register (h : c.Tracks notes) (e : Entity) :
    (c.register e).1.Tracks (notes ++ c.registrationNotes e) where
  dependents := by
    have hwith : (c.withEntity e).Notes notes := h.dependents
    rw [register_fst]
    exact hwith.deriveAll (c.remade e)
  noted x hx target dep hmakes := by
    rw [entity?_register] at hx hmakes
    rw [List.mem_append]
    rcases remade_or_kept hx with hremade | ⟨hold, hrefers⟩
    · exact .inr (List.mem_flatMap.2 ⟨x, hremade, mem_notesOf.2 hmakes⟩)
    · -- The type finds what it refers to where it found it before.
      refine .inl (h.noted x hold target dep ((Makes.congr fun name hname => ?_).1 hmakes))
      rw [entity?_withEntity, if_neg]
      rintro rfl
      rw [hrefers] at hname
      cases hname

theorem Tracks.registerAll (h : c.Tracks notes) (es : List Entity) :
    (c.registerAll es).Tracks (notes ++ c.history es) := by
  induction es generalizing c notes with
  | nil => rwa [history, List.append_nil]
  | cons e es ih =>
      rw [history, ← List.append_assoc]
      exact ih (h.register e)

/-- After any registrations. -/
theorem tracks_registerAll (es : List Entity) :
    (empty.registerAll es).Tracks (empty.history es) :=
  tracks_empty.registerAll es

theorem registerAll_append_singleton (c : Catalog) (es : List Entity) (e : Entity) :
    c.registerAll (es ++ [e]) = ((c.registerAll es).register e).1 := by
  rw [registerAll, List.foldl_append]
  rfl

theorem current_registerAll {declared es : List Entity} (hall : DistinctEntities declared)
    (hin : es ⊆ declared) : (empty.registerAll es).Current es := by
  induction es using List.reverseRecOn with
  | nil => exact current_empty
  | append_singleton es e ih =>
      rw [registerAll_append_singleton]
      exact (ih fun x hx => hin (List.mem_append_left [e] hx)).register hall hin

/-! ## Declared foreign keys -/

/-- The table of a registered type has, on a property, a foreign key with the action `CASCADE` to a
column of another table. -/
def Declares (c : Catalog) (target source property column : String) : Prop :=
  ∃ e t p spec, c.entity? e.name = some e ∧ Table.ofEntity? e c.entity? = some t ∧
    t.name = source ∧ c.table? source = some t ∧
    (p, spec) ∈ e.columnProperties ∧ p.key = property ∧ spec.foreignKey.isSome ∧
    t.foreignKeys.lookup spec.name = some ⟨target, column, .cascade⟩

/-- The dependents of each table are the foreign keys that are declared: they are on the same
properties, and name the same columns. -/
structure DependentsMatch (c : Catalog) : Prop where
  properties : ∀ target source property,
    (∃ dep ∈ c.dependentsOf target, dep.table = source ∧ dep.property = property) ↔
      ∃ column, c.Declares target source property column
  columns : ∀ target, ∀ dep ∈ c.dependentsOf target,
    c.Declares target dep.table dep.property dep.targetColumn

/-- What is declared is made by a type that is registered. -/
theorem Declares.exists_makes {column : String} (h : c.Declares target source property column) :
    ∃ e dep, c.entity? e.name = some e ∧ Makes c.entity? e target dep ∧ dep.table = source ∧
      dep.property = property ∧ dep.targetColumn = column := by
  obtain ⟨e, t, p, spec, he, ht, rfl, -, hspec, rfl, hforeign, hkey⟩ := h
  obtain ⟨ref, href⟩ := Option.isSome_iff_exists.1 hforeign
  refine ⟨e, ⟨e.name, t.name, p.key, ref.property, column⟩, he, ⟨t, ht, ?_⟩, rfl, rfl, rfl⟩
  exact List.mem_filterMap.2 ⟨(p, spec), hspec, by simp [href, hkey]⟩

/-- What a registered type makes is declared, if the table of the type is the one of its name. -/
theorem declares_of_makes {e : Entity} (he : c.entity? e.name = some e)
    (hmakes : Makes c.entity? e target dep)
    (htable : ∀ t, Table.ofEntity? e c.entity? = some t → c.table? t.name = some t) :
    c.Declares target dep.table dep.property dep.targetColumn := by
  obtain ⟨t, ht, hmem⟩ := hmakes
  obtain ⟨⟨p, spec⟩, hspec, hmake⟩ := List.mem_filterMap.1 hmem
  obtain ⟨ref, href, hmake⟩ := Option.bind_eq_some_iff.1 hmake
  obtain ⟨key, hkey, hmake⟩ := Option.bind_eq_some_iff.1 hmake
  split at hmake
  · next haction =>
      obtain ⟨rfl, rfl⟩ := Prod.mk.inj (Option.some.inj hmake)
      refine ⟨e, t, p, spec, he, ht, rfl, htable t ht, hspec, rfl, by simp [href], ?_⟩
      rw [hkey, ← haction]
  · cases hmake

/-- In a current catalog the dependents match. -/
theorem Current.dependentsMatch {declared order : List Entity} (h : c.Current order)
    (hall : DistinctEntities declared) (hin : order ⊆ declared) : c.DependentsMatch := by
  have hdeclared : ∀ target, ∀ dep ∈ c.dependentsOf target,
      c.Declares target dep.table dep.property dep.targetColumn := by
    intro target dep hdep
    obtain ⟨e, he, hmakes⟩ := (h.dependents target dep).1 hdep
    rw [← h.entity] at hmakes
    refine declares_of_makes ?_ hmakes fun t ht => ?_
    · rw [h.entity]
      exact (hall.findEntity_eq_some_iff hin).2 ⟨he, rfl⟩
    · rw [h.entity] at ht
      exact (h.table t.name t).2 ⟨e, he, (Table.ofEntity?_eq_some ht).1, ht⟩
  refine ⟨fun target source property => ⟨?_, ?_⟩, hdeclared⟩
  · rintro ⟨dep, hdep, rfl, rfl⟩
    exact ⟨dep.targetColumn, hdeclared target dep hdep⟩
  · rintro ⟨column, hcolumn⟩
    obtain ⟨e, dep, he, hmakes, htable, hproperty, -⟩ := hcolumn.exists_makes
    rw [h.entity] at he hmakes
    exact ⟨dep, (h.dependents target dep).2 ⟨e, (findEntity_eq_some he).1, hmakes⟩, htable,
      hproperty⟩

/-- After any registrations, the dependents are the first notes; every foreign key that is declared
has one, and they match exactly if each first note is still declared with its column.  So they do
where each name has been registered with one declaration only, of types that are told apart. -/
theorem dependents_match_iff (es : List Entity) :
    (∀ target dep, dep ∈ (empty.registerAll es).dependentsOf target ↔
      firstNote (empty.history es) target dep.table dep.property = some dep) ∧
    (∀ target source property column,
      (empty.registerAll es).Declares target source property column →
        ∃ dep ∈ (empty.registerAll es).dependentsOf target,
          dep.table = source ∧ dep.property = property) ∧
    ((empty.registerAll es).DependentsMatch ↔ ∀ target source property dep,
      firstNote (empty.history es) target source property = some dep →
        (empty.registerAll es).Declares target source property dep.targetColumn) ∧
    (∀ declared, DistinctEntities declared → es ⊆ declared →
      (empty.registerAll es).DependentsMatch) := by
  have htracks := tracks_registerAll es
  have hfirst := htracks.dependents
  have hnoted : ∀ target source property column,
      (empty.registerAll es).Declares target source property column →
        ∃ dep ∈ (empty.registerAll es).dependentsOf target,
          dep.table = source ∧ dep.property = property := by
    intro target source property column hcolumn
    obtain ⟨e, dep, he, hmakes, rfl, rfl, -⟩ := hcolumn.exists_makes
    rw [hfirst.exists_iff]
    exact exists_firstNote (htracks.noted e he target dep hmakes)
  refine ⟨hfirst, hnoted, ⟨fun h target source property dep hdep => ?_, fun h => ?_⟩,
    fun declared hall hin => (current_registerAll hall hin).dependentsMatch hall hin⟩
  · obtain ⟨rfl, rfl⟩ := source_of_firstNote hdep
    exact h.columns target dep ((hfirst target dep).2 hdep)
  · have hcolumns : ∀ target, ∀ dep ∈ (empty.registerAll es).dependentsOf target,
        (empty.registerAll es).Declares target dep.table dep.property dep.targetColumn :=
      fun target dep hdep => h target _ _ dep ((hfirst target dep).1 hdep)
    refine ⟨fun target source property => ⟨?_, ?_⟩, hcolumns⟩
    · rintro ⟨dep, hdep, rfl, rfl⟩
      exact ⟨dep.targetColumn, hcolumns target dep hdep⟩
    · rintro ⟨column, hcolumn⟩
      exact hnoted target source property column hcolumn

/-- Types that refer to each other, the one registered again when the other one is known. -/
theorem dependents_match_mutual :
    (empty.registerAll [Mutual.post, Mutual.author, Mutual.post]).DependentsMatch :=
  (dependents_match_iff _).2.2.2 _ Mutual.distinct (by simp)

namespace Renamed

/-- An entity type with a key column of the given name. -/
def role (column : String) : Entity where
  name := "Role"
  table := some ⟨"role", none, none, none, false⟩
  properties := [⟨"id", .number, some (.key column), none⟩]

/-- An entity type that refers to it. -/
def user : Entity where
  name := "User"
  table := some ⟨"user", none, none, none, false⟩
  properties := [⟨"id", .number, some (.key "id"), none⟩,
    Mutual.reference "roleId" "role_id" "Role"]

/-- The catalog after the key column of the one type has been renamed. -/
def catalog : Catalog := empty.registerAll [role "id", user, role "code"]

end Renamed

/-- When the column that a foreign key refers to is renamed, the table of the foreign key names the
new column and the dependent the old one. -/
theorem dependents_match_renamed :
    (Renamed.catalog.table? "user").map Table.foreignKeys =
      some [("role_id", ⟨"role", "code", .cascade⟩)] ∧
    Renamed.catalog.dependentsOf "role" = [⟨"User", "user", "roleId", "id", "id"⟩] ∧
    ¬ Renamed.catalog.DependentsMatch := by
  have hkeys : (Renamed.catalog.table? "user").map Table.foreignKeys =
      some [("role_id", ⟨"role", "code", .cascade⟩)] := by decide
  have hdeps : Renamed.catalog.dependentsOf "role" = [⟨"User", "user", "roleId", "id", "id"⟩] := by
    decide
  refine ⟨hkeys, hdeps, fun h => ?_⟩
  obtain ⟨e, t, p, spec, -, -, -, htable, -, -, -, hkey⟩ :=
    h.columns "role" ⟨"User", "user", "roleId", "id", "id"⟩ (by rw [hdeps]; simp)
  rw [htable, Option.map_some, Option.some.injEq] at hkeys
  rw [hkeys, Keyed.lookup_cons] at hkey
  split at hkey
  · exact absurd hkey (by decide)
  · cases hkey

end Catalog

/-- A program that has registered some entity types has the catalog of these registrations. -/
theorem Assembled.catalog_eq_registerAll {order : List Entity} {daos : List Dao} {s : State}
    (h : Assembled order daos s) : s.catalog = Catalog.empty.registerAll order :=
  h.catalog_induction (P := fun order c => c = Catalog.empty.registerAll order) rfl
    fun order c e hc => by rw [hc, Catalog.registerAll_append_singleton]

end Persistence
