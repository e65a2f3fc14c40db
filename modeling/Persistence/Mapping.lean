import Persistence.Keyed

/-!
# Mappings

A mapping says, for each property of an entity, which column it is kept in, or through which
registered select its value is found.  Properties are kept in ascending order.
-/

namespace Persistence

/-- How a relation is looked up: the value of `source` in the current row goes to the select
registered as `select`, behind the column name `target` if there is one. -/
structure Mapping.Lookup where
  source : String
  target : Option String
  select : String
deriving DecidableEq

/-- Where the value of a property comes from. -/
inductive Mapping.Target
  | column (name : String)
  | lookup (l : Mapping.Lookup)
deriving DecidableEq

/-- The properties of an entity and where their values come from. -/
structure Mapping where
  entries : List (String × Mapping.Target)
deriving DecidableEq

namespace Mapping

/-- The mapping without properties. -/
def empty : Mapping := ⟨[]⟩

/-- The mapping with a property kept in a column. -/
def withColumn (m : Mapping) (property column : String) : Mapping :=
  ⟨Keyed.putSorted property (.column column) m.entries⟩

/-- The mapping with a property that is looked up. -/
def withLookup (m : Mapping) (property : String) (l : Lookup) : Mapping :=
  ⟨Keyed.putSorted property (.lookup l) m.entries⟩

/-- Where a property comes from. -/
def get? (m : Mapping) (property : String) : Option Target := m.entries.lookup property

/-- The column that a property is kept in, or the property name itself if it has none. -/
def columnName (m : Mapping) (property : String) : String :=
  match m.get? property with
  | some (.column name) => name
  | _ => property

/-- Whether there is no property. -/
def isEmpty (m : Mapping) : Bool := m.entries.isEmpty

@[simp] theorem columnName_empty (property : String) : empty.columnName property = property := rfl

/-- A property that was given a column is found in it. -/
theorem columnName_withColumn (m : Mapping) (property column : String) :
    (m.withColumn property column).columnName property = column := by
  simp [columnName, get?, withColumn, Keyed.lookup_putSorted]

end Mapping

end Persistence
