import Persistence.Dao.Read

/-!
# Writing entities

Inserting, replacing and updating the rows of one entity type.  Whole entities are written in the
form that their type has; for a partial update any object with the properties will do.
-/

namespace Persistence.Dao

variable {σ : Type}

/-! ## Inserting -/

/-- Insert entities with one statement. -/
def saveAll (d : Dao) (entities : List Json) (ctx : Option Context) : Task σ WriteResult := do
  let objects ← Task.ofExcept (entities.mapM d.codec.encode)
  d.insert.call objects ctx

/-- Insert an entity. -/
def save (d : Dao) (entity : Json) (ctx : Option Context) : Task σ WriteResult :=
  d.saveAll [entity] ctx

/-- Insert entities, each in place of the one with the same key if there is one. -/
def saveOrUpdateAll (d : Dao) (entities : List Json) (ctx : Option Context) :
    Task σ WriteResult := do
  let objects ← Task.ofExcept (entities.mapM d.codec.encode)
  d.replace.call objects ctx

/-- Insert an entity, or overwrite the one with the same key. -/
def saveOrUpdate (d : Dao) (entity : Json) (ctx : Option Context) : Task σ WriteResult :=
  d.saveOrUpdateAll [entity] ctx

/-! ## Updating -/

/-- Write all columns of an entity to the row with its primary key. -/
def updateByKey (d : Dao) (entity : Json) (ctx : Option Context) : Task σ WriteResult := do
  let key ← Task.ofExcept d.requireKey
  let object ← Task.ofExcept (d.codec.encode entity)
  (d.updateKey key d.nonKeyColumns).call object [] ctx

/-- Write all columns but the primary key to the rows that a filter selects. -/
def updateWhere (d : Dao) (entity : Json) (f : Filter) (ctx : Option Context) :
    Task σ WriteResult := do
  let q ← Task.ofExcept f.toQuery
  let object ← Task.ofExcept (d.codec.encode entity)
  (d.updateQuery d.nonKeyColumns).call object [.query q] ctx

/-- Write some properties of an object to the row with its primary key. -/
def updatePartByKey (d : Dao) (part : List String) (object : Json) (ctx : Option Context) :
    Task σ WriteResult := do
  let key ← Task.ofExcept d.requireKey
  (d.updateKey key (d.partColumns part)).call object [] ctx

/-- Write some properties of an object to the rows that a filter selects. -/
def updatePartWhere (d : Dao) (part : List String) (object : Json) (f : Filter)
    (ctx : Option Context) : Task σ WriteResult := do
  let q ← Task.ofExcept f.toQuery
  (d.updateQuery (d.partColumns part)).call object [.query q] ctx

end Persistence.Dao
