import Persistence.Dao.Filter
import Persistence.Operation.Run

/-!
# Reading entities

Counting, listing and finding the rows of one entity type.  Every row is hydrated by the select
that found it, and then read into the form that the entity type has.
-/

namespace Persistence.Dao

variable {σ : Type}

/-! ## Results -/

/-- The entities of a selection, up to the first that does not fit its type. -/
def entities (d : Dao) (s : Selection) : Except DbError (List Json) := s.toList.mapM d.codec.decode

/-- The first entity of a selection. -/
def entity? (d : Dao) (s : Selection) : Except DbError (Option Json) :=
  match s.first? with
  | some row => (d.codec.decode row).map some
  | none => .ok none

/-- The number that a select counts. -/
def counted (s : Select) (args : List Param) (ctx : Option Context) : Task σ Nat := do
  return (← s.call args ctx).count

/-- The entities that a select lists. -/
def listed (d : Dao) (s : Select) (args : List Param) (ctx : Option Context) :
    Task σ (List Json) := do
  Task.ofExcept (d.entities (← s.call args ctx))

/-- The entity that a select finds. -/
def found (d : Dao) (s : Select) (args : List Param) (ctx : Option Context) :
    Task σ (Option Json) := do
  Task.ofExcept (d.entity? (← s.call args ctx))

/-! ## Counting and listing -/

/-- The number of entities. -/
def count (d : Dao) (ctx : Option Context) : Task σ Nat := counted d.countAll [] ctx

/-- The number of entities that a filter selects. -/
def countWhere (d : Dao) (f : Filter) (ctx : Option Context) : Task σ Nat := do
  let q ← Task.ofExcept f.toQuery
  counted d.countQuery [.query q] ctx

/-- All entities. -/
def list (d : Dao) (ctx : Option Context) : Task σ (List Json) := d.listed d.listAll [] ctx

/-- The entities that a filter selects. -/
def listWhere (d : Dao) (f : Filter) (ctx : Option Context) : Task σ (List Json) := do
  let q ← Task.ofExcept f.toQuery
  d.listed d.listQuery [.query q] ctx

/-- A page of all entities. -/
def page (d : Dao) (p : Page) (ctx : Option Context) : Task σ (List Json) :=
  d.listed d.pageAll p.arguments ctx

/-- A page of the entities that a filter selects. -/
def pageWhere (d : Dao) (f : Filter) (p : Page) (ctx : Option Context) : Task σ (List Json) := do
  let q ← Task.ofExcept f.toQuery
  d.listed d.pageQuery (.query q :: p.arguments) ctx

/-! ## Finding -/

/-- The column of the primary key. -/
def requireKey (d : Dao) : Except DbError KeyColumn :=
  match d.primaryKey with
  | some key => .ok key
  | none => .error (.validation (.noPrimaryKey d.tableName))

/-- The entity with a primary key. -/
def findByKey (d : Dao) (key : Value) (ctx : Option Context) : Task σ (Option Json) := do
  let column ← Task.ofExcept d.requireKey
  d.found (d.findKey column) [.literal key] ctx

/-- The first entity that a filter selects. -/
def findWhere (d : Dao) (f : Filter) (ctx : Option Context) : Task σ (Option Json) := do
  let q ← Task.ofExcept f.toQuery
  d.found d.findQuery [.query q] ctx

/-- The first entity that has a value in a column. -/
def findByColumn (d : Dao) (column : String) (v : Value) (ctx : Option Context) :
    Task σ (Option Json) :=
  d.found d.findBy [.raw column, .literal v] ctx

/-- The entities that have a value in a column. -/
def listByColumn (d : Dao) (column : String) (v : Value) (ctx : Option Context) :
    Task σ (List Json) :=
  d.listed d.findListBy [.raw column, .literal v] ctx

end Persistence.Dao
