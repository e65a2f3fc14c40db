import Persistence.Operation.Binding
import Persistence.Program.Transaction

/-!
# Running operations

Writing operations send one statement.  A select sends one statement and then turns each row into
an object: properties kept in columns are copied, and properties that are relations are found
through registered selects, as many levels deep as the caller asks for.
-/

namespace Persistence

variable {σ : Type}

/-! ## Selects -/

/-- The number in a row of a count. -/
def countInRow (row : Row) : Option Json :=
  row.lookup "count(*)" <|> row.head?.map Prod.snd

/-- The value of a column, unless it is missing or null. -/
def presentValue? (row : Row) (column : String) : Option Json :=
  (row.lookup column).filter fun v => !v.isNull

/-- How the selects of relations are run: by id and with arguments. -/
abbrev Related (σ : Type) := String → List Param → Task σ Selection

/-- The select registered under an id. -/
def registeredSelect (id : String) : Task σ Select := do
  match (← Task.state).selects.lookup id with
  | some s => return s
  | none => Task.fail (.notRegistered (.select id))

/-- The arguments with which a relation is looked up for a key. -/
def Mapping.Lookup.arguments (l : Mapping.Lookup) (key : Json) : List Param :=
  match l.target with
  | some column => [.raw column, .literal (Value.ofJson key)]
  | none => [.literal (Value.ofJson key)]

/-- The value of one property of a row, if it has one.  Without `related` no relation is
followed. -/
def hydrateProperty (related : Option (Related σ)) (row : Row) :
    Mapping.Target → Task σ (Option Json)
  | .column column => pure (presentValue? row column)
  | .lookup l =>
      match related, presentValue? row l.source with
      | some related, some key => do
          let found ← related l.select (l.arguments key)
          return found.related?
      | _, _ => pure none

/-- The object that a row becomes; its properties are in ascending order. -/
def hydrateEntries (related : Option (Related σ)) (row : Row) :
    List (String × Mapping.Target) → Task σ Json.Fields
  | [] => pure []
  | (property, target) :: entries => do
      let value ← hydrateProperty related row target
      let rest ← hydrateEntries related row entries
      return match value with
        | some v => (property, v) :: rest
        | none => rest

namespace Select

/-- The object that a row becomes; without a target the row stays as it is. -/
def hydrate (s : Select) (related : Option (Related σ)) (row : Row) : Task σ Json :=
  match s.target with
  | none => pure (.obj row)
  | some t => do return .obj (← hydrateEntries related row t.mapping.entries)

/-- The objects that rows become, one after the other. -/
def hydrateAll (s : Select) (related : Option (Related σ)) : List Row → Task σ (List Json)
  | [] => pure []
  | row :: rows => do
      let value ← s.hydrate related row
      return value :: (← s.hydrateAll related rows)

/-- Run a select once the way of following relations is known. -/
def runWith (s : Select) (ctx : Option Context) (related : Option (Related σ))
    (args : List Param) : Task σ Selection := do
  let output ← execute (.text (s.statementText args)) ctx
  match s.shape with
  | .count => return .scalar ((output.rows.head?.bind countInRow).getD (Json.ofInt 0))
  | .aggregation =>
      return .scalar ((output.rows.head?.bind fun row => row.head?.map Prod.snd).getD .null)
  | .list => return .list (← s.hydrateAll related output.rows)
  | .one => return .one (← s.hydrateAll related (output.rows.take 1)).head?

/-- Run a select and follow relations `depth` levels deep. -/
def run (ctx : Option Context) : (depth : Nat) → Select → List Param → Task σ Selection
  | 0, s, args => s.runWith ctx none args
  | depth + 1, s, args =>
      s.runWith ctx
        (some fun id args => do
          let related ← registeredSelect id
          run ctx depth related args)
        args

/-- Run a select to the depth that it asks for. -/
def call (s : Select) (args : List Param) (ctx : Option Context) : Task σ Selection :=
  run ctx s.depth s args

end Select

/-! ## Writing operations -/

/-- Insert some entities with one statement; for none there is nothing to send. -/
def Insert.call (i : Insert) (entities : List Json) (ctx : Option Context) :
    Task σ WriteResult := do
  if entities.isEmpty then return ⟨true, 0, none⟩
  else
    let sql ← Task.ofExcept (i.statementText entities)
    return WriteResult.ofOutput (← execute (.text sql) ctx)

/-- Update rows to the values of an entity. -/
def Update.call (u : Update) (entity : Json) (args : List Param) (ctx : Option Context) :
    Task σ WriteResult := do
  let sql ← Task.ofExcept (u.statementText entity args)
  return WriteResult.ofOutput (← execute (.text sql) ctx)

/-- Remove rows. -/
def Delete.call (d : Delete) (args : List Param) (ctx : Option Context) : Task σ WriteResult := do
  return WriteResult.ofOutput (← execute (.text (d.statementText args)) ctx)

/-! ## Registration -/

/-- Register a select under an id. -/
def registerSelect (id : String) (s : Select) : Task σ Unit :=
  Task.modify fun state => { state with selects := Keyed.put id s state.selects }

/-- The delete registered under an id. -/
def registeredDelete (id : String) : Task σ DeleteOperation := do
  match (← Task.state).deletes.lookup id with
  | some d => return d
  | none => Task.fail (.notRegistered (.delete id))

/-- Register a delete under an id. -/
def registerDelete (id : String) (d : DeleteOperation) : Task σ Unit :=
  Task.modify fun state => { state with deletes := Keyed.put id d state.deletes }

end Persistence
