import Persistence.Operation.Run
import Persistence.Proofs.Catalog.Entries

/-!
# Levels of relations

The relation properties of an object that a select finds are at the first level; those of an object
in the value of a relation are one level below the relation.  Which properties are relations is said
by the mapping of the select, and which objects are in the value of a relation by the shape of the
select that is registered for it.

Main results:

- `Selection.HasShape.related?_mapObjects`: the objects of a result are those of the relation that
  the result becomes.
- `Select.nests_cut`: the relations that are left of an object that was cut at a level.
-/

namespace Persistence

/-! ## The objects of a result -/

/-- The results that selects of a shape have. -/
inductive Selection.HasShape : SelectShape → Selection → Prop
  | one (value : Option Json) : HasShape .one (.one value)
  | list (values : List Json) : HasShape .list (.list values)
  | count (value : Json) : HasShape .count (.scalar value)
  | aggregation (value : Json) : HasShape .aggregation (.scalar value)

namespace Selection

/-- The objects of a result; a scalar is none. -/
def objects : Selection → List Json
  | scalar _ => []
  | one value => value.toList
  | list values => values

/-- A result with each of its objects put through a function. -/
def mapObjects (f : Json → Json) : Selection → Selection
  | scalar value => scalar value
  | one value => one (value.map f)
  | list values => list (values.map f)

end Selection

namespace SelectShape

/-- The objects in the value of a relation, by the shape of the select that finds it. -/
def objects : SelectShape → Json → List Json
  | .one, v => [v]
  | .list, .arr items => items
  | _, _ => []

/-- The value of a relation with each of its objects put through a function. -/
def mapObjects (f : Json → Json) : SelectShape → Json → Json
  | .one, v => f v
  | .list, .arr items => .arr (items.map f)
  | _, v => v

theorem objects_mapObjects (f : Json → Json) (shape : SelectShape) (v : Json) :
    shape.objects (shape.mapObjects f v) = (shape.objects v).map f := by
  cases shape with
  | list => cases v <;> rfl
  | one | count | aggregation => rfl

end SelectShape

section Shapes

variable {shape : SelectShape} {found : Selection}

/-- The value of a relation changes with the objects of the result that it is. -/
theorem Selection.HasShape.related?_mapObjects (h : found.HasShape shape) (f : Json → Json) :
    (found.mapObjects f).related? = found.related?.map (shape.mapObjects f) := by
  cases h with
  | one value => rfl
  | list values => rfl
  | count value | aggregation value =>
      cases hnull : value.isNull <;>
        simp [Selection.mapObjects, Selection.related?, SelectShape.mapObjects, hnull]

/-- The objects in the value of a relation are those of the result that it is. -/
theorem Selection.HasShape.objects_related (h : found.HasShape shape) {v : Json}
    (hv : found.related? = some v) : shape.objects v = found.objects := by
  cases h with
  | one value => simp_all [Selection.related?, SelectShape.objects, Selection.objects]
  | list values =>
      obtain rfl := Option.some.inj hv
      rfl
  | count value => rfl
  | aggregation value => rfl

end Shapes

/-! ## Levels of relations -/

/-- The relations of a mapping. -/
def Mapping.relations (m : Mapping) : List Mapping.Lookup :=
  m.entries.filterMap fun entry =>
    match entry.2 with
    | .lookup l => some l
    | .column _ => none

/-- The fields of an object with the values of its relations put through a function, which may leave
them out. -/
def Mapping.mapRelations (m : Mapping) (f : Mapping.Lookup → Json → Option Json)
    (fields : Json.Fields) : Json.Fields :=
  fields.filterMap fun (property, v) =>
    match m.get? property with
    | some (.lookup l) => (f l v).map (property, ·)
    | _ => some (property, v)

namespace Select

/-- The relations that a select follows from each of its rows. -/
def relations (s : Select) : List Mapping.Lookup :=
  match s.target with
  | some t => t.mapping.relations
  | none => []

/-- An object that a select finds with the values of its relations put through a function; a row
without a mapping has no relations. -/
def mapRelations (s : Select) (f : Mapping.Lookup → Json → Option Json) (j : Json) : Json :=
  match s.target, j with
  | some t, .obj fields => .obj (t.mapping.mapRelations f fields)
  | _, j => j

/-- An object that a select finds without the relation properties at one level: those of the object
itself for zero, and otherwise those of the objects in its relations. -/
def cut (selects : List (String × Select)) : (below : Nat) → Select → Json → Json
  | 0, s => s.mapRelations fun _ _ => none
  | below + 1, s => s.mapRelations fun l v =>
      match selects.lookup l.select with
      | some related => some (related.shape.mapObjects (cut selects below related) v)
      | none => some v

/-- An object that a select finds has a relation with a value. -/
def HasRelation (s : Select) (j : Json) (l : Mapping.Lookup) (v : Json) : Prop :=
  ∃ t fields property, s.target = some t ∧ j = .obj fields ∧ (property, v) ∈ fields ∧
    t.mapping.get? property = some (.lookup l)

/-- An object that a select finds has a relation property at a level. -/
inductive Nests (selects : List (String × Select)) : Select → (level : Nat) → Json → Prop
  | relation {s : Select} {j v : Json} {l : Mapping.Lookup} : s.HasRelation j l v →
      Nests selects s 1 j
  | nested {s related : Select} {j v inner : Json} {l : Mapping.Lookup} {level : Nat} :
      s.HasRelation j l v → selects.lookup l.select = some related →
        inner ∈ related.shape.objects v → Nests selects related level inner →
          Nests selects s (level + 1) j

/-- The mapping of a select has each property once. -/
def WellMapped (s : Select) : Prop :=
  ∀ t, s.target = some t → (Keyed.keys t.mapping.entries).Nodup

theorem mapRelations_obj {s : Select} {t : Target} (ht : s.target = some t)
    (f : Mapping.Lookup → Json → Option Json) (fields : Json.Fields) :
    s.mapRelations f (.obj fields) = .obj (t.mapping.mapRelations f fields) := by
  simp [mapRelations, ht]

/-- The relations that are left of an object are those with a value behind the function. -/
theorem hasRelation_mapRelations {s : Select} {f : Mapping.Lookup → Json → Option Json}
    {j v' : Json} {l : Mapping.Lookup} :
    s.HasRelation (s.mapRelations f j) l v' ↔ ∃ v, s.HasRelation j l v ∧ f l v = some v' := by
  constructor
  · rintro ⟨t, fields', property, ht, hj, hmem, hget⟩
    cases j with
    | obj fields =>
        rw [mapRelations_obj ht] at hj
        obtain rfl := Json.obj.inj hj
        obtain ⟨⟨key, v⟩, hfield, hmade⟩ := List.mem_filterMap.1 hmem
        dsimp only at hmade
        split at hmade
        · next l' hl' =>
          obtain ⟨_, hf, heq⟩ := Option.map_eq_some_iff.1 hmade
          obtain ⟨rfl, rfl⟩ := Prod.mk.inj heq
          obtain rfl := Mapping.Target.lookup.inj (Option.some.inj (hl'.symm.trans hget))
          exact ⟨v, ⟨t, fields, key, ht, rfl, hfield, hget⟩, hf⟩
        · next hother =>
          obtain ⟨rfl, rfl⟩ := Prod.mk.inj (Option.some.inj hmade)
          exact absurd hget (hother l)
    | _ => simp [mapRelations, ht] at hj
  · rintro ⟨v, ⟨t, fields, property, ht, rfl, hmem, hget⟩, hf⟩
    refine ⟨t, _, property, ht, mapRelations_obj ht f fields, ?_, hget⟩
    exact List.mem_filterMap.2 ⟨(property, v), hmem, by simp [hget, hf]⟩

theorem not_nests_zero {selects : List (String × Select)} {s : Select} {j : Json} :
    ¬ s.Nests selects 0 j := by
  intro h
  cases h

/-- A cut takes away the relations below a level and leaves the others. -/
theorem nests_cut {selects : List (String × Select)} {below : Nat} {s : Select} {level : Nat}
    {j : Json} :
    s.Nests selects level (s.cut selects below j) ↔ s.Nests selects level j ∧ level ≤ below := by
  induction below generalizing s level j with
  | zero =>
      have hnone : ∀ l v, ¬ s.HasRelation (s.cut selects 0 j) l v := by
        intro l v hrelation
        obtain ⟨_, -, hf⟩ := hasRelation_mapRelations.1 hrelation
        cases hf
      constructor
      · intro h
        cases h with
        | relation hrelation => exact absurd hrelation (hnone _ _)
        | nested hrelation => exact absurd hrelation (hnone _ _)
      · rintro ⟨h, hle⟩
        obtain rfl := Nat.le_zero.1 hle
        exact absurd h not_nests_zero
  | succ below ih =>
      constructor
      · intro h
        cases h with
        | relation hrelation =>
            obtain ⟨v, hv, -⟩ := hasRelation_mapRelations.1 hrelation
            exact ⟨.relation hv, Nat.le_add_left 1 below⟩
        | nested hrelation hrelated hinner hnests =>
            obtain ⟨v, hv, hf⟩ := hasRelation_mapRelations.1 hrelation
            rw [hrelated] at hf
            obtain rfl := Option.some.inj hf
            rw [SelectShape.objects_mapObjects] at hinner
            obtain ⟨inner, hmem, rfl⟩ := List.mem_map.1 hinner
            obtain ⟨hnests', hle⟩ := ih.1 hnests
            exact ⟨.nested hv hrelated hmem hnests', Nat.add_le_add_right hle 1⟩
      · rintro ⟨h, hle⟩
        cases h with
        | @relation _ _ v l hrelation =>
            have hsome : ∃ v', (match selects.lookup l.select with
                | some related => some (related.shape.mapObjects (cut selects below related) v)
                | none => some v) = some v' := by
              split <;> exact ⟨_, rfl⟩
            obtain ⟨v', hv'⟩ := hsome
            exact .relation (hasRelation_mapRelations.2 ⟨v, hrelation, hv'⟩)
        | nested hrelation hrelated hinner hnests =>
            refine .nested (hasRelation_mapRelations.2 ⟨_, hrelation, by rw [hrelated]⟩) hrelated ?_
              (ih.2 ⟨hnests, Nat.le_of_succ_le_succ hle⟩)
            rw [SelectShape.objects_mapObjects]
            exact List.mem_map_of_mem hinner

end Select

end Persistence
