import Persistence.Scripted.Rule
import Persistence.Scripted.Supply

/-!
# A scripted database

A driver without a database: requests are kept in a log and answered by the rules of a script.
Without a rule everything succeeds, statements that read find nothing, and statements that write
affect one row.
-/

namespace Persistence.Scripted

/-- A script, and what has happened so far. -/
structure Database where
  rules : List Rule
  /-- The requests that were answered, the last one first. -/
  log : List Request
  /-- The number of connections that were reserved. -/
  connections : Nat
  taken : Taken

/-- The start of a script. -/
def Database.ofRules (rules : List Rule) : Database := ⟨rules, [], 0, Taken.nothing⟩

/-- How the statements that read start. -/
def readingFronts : List String := ["select", "show", "desc"]

/-- The answer to a statement that no rule is about. -/
def ordinaryOutput (sql : String) : Output :=
  if readingFronts.any fun front => sql.startsWith front then Output.ofRows []
  else Output.affected 1

namespace Reaction

/-- The answer to a statement. -/
def output (sql : String) : Reaction → Except DbError Output
  | fail e => .error e
  | answer o => .ok o
  | ordinary => .ok (ordinaryOutput sql)

/-- The answer to a request that is not a statement. -/
def outcome : Reaction → Except DbError Unit
  | fail e => .error e
  | _ => .ok ()

end Reaction

namespace Database

/-- Log a request and find the reaction to it. -/
def react (d : Database) (request : Request) : Reaction × Database :=
  let (reaction, rules) := Rule.useLast request d.rules
  (reaction, { d with rules, log := request :: d.log })

/-- Answer a request that is not a statement. -/
def control (d : Database) (request : Request) : Except DbError Unit × Database :=
  let (reaction, d) := d.react request
  (reaction.outcome, d)

/-- Answer a statement. -/
def respond (d : Database) (request : Request) (s : Statement) :
    Except DbError Output × Database :=
  let (reaction, d) := d.react request
  (reaction.output s.sql, d)

/-- Reserve a connection; connections are numbered from 1 in the order of success. -/
def reserve (d : Database) (request : Request) : Except DbError Nat × Database :=
  match d.control request with
  | (.error e, d) => (.error e, d)
  | (.ok (), d) => (.ok (d.connections + 1), { d with connections := d.connections + 1 })

/-- The answer to a request. -/
def answer (supply : Supply) : (r : Request) → Database → r.Answer × Database
  | .createPool o, d =>
      let (result, d) := d.control (.createPool o)
      (result.map fun () => 0, d)
  | .closePool pool, d => d.control (.closePool pool)
  | .poolQuery pool s, d => d.respond (.poolQuery pool s) s
  | .acquire pool, d => d.reserve (.acquire pool)
  | .begin conn, d => d.control (.begin conn)
  | .commit conn, d => d.control (.commit conn)
  | .rollback conn, d => d.control (.rollback conn)
  | .release conn, d => d.control (.release conn)
  | .query conn s, d => d.respond (.query conn s) s
  | .hook id connected, d => (.ok (), { d with log := .hook id connected :: d.log })
  | .produce producer, d =>
      let (value, taken) := supply.takeValue producer d.taken
      (value, { d with taken })
  | .constraintNames, d =>
      let (names, taken) := supply.takeNames d.taken
      (names, { d with taken })

/-- The driver that follows a script. -/
def driver (supply : Supply) : Driver Database := ⟨answer supply⟩

end Database

end Persistence.Scripted
