import Persistence.Json.Record

/-!
# Configuration

Where the database is, how many connections are kept, and what the schema synchronizer may do;
together with their JSON form.
-/

namespace Persistence

/-- Where the database is and who connects. -/
inductive ConnectionConfig
  | url (text : String)
  | credentials (host : String) (port : Option Nat) (user password database : String)
      (charset : Option String)
deriving DecidableEq

/-- What the schema synchronizer does.  Missing tables are created whenever it is enabled;
dropping and altering tables are allowed one by one. -/
structure SyncConfig where
  enable : Bool
  deleteTables : Bool
  updateTables : Bool
  /-- The tables that are never touched. -/
  exceptTables : List String
deriving DecidableEq

/-- The options of a connect. -/
structure ConnectOptions where
  connection : ConnectionConfig
  maxConnections : Nat
  sync : SyncConfig
deriving DecidableEq

/-- The synchronizer is off by default. -/
def SyncConfig.off : SyncConfig := ⟨false, false, false, []⟩

/-- The number of connections when none is given. -/
def ConnectOptions.defaultMaxConnections : Nat := 10

/-- The options of a connection with everything else at its default. -/
def ConnectOptions.of (connection : ConnectionConfig) : ConnectOptions :=
  ⟨connection, defaultMaxConnections, SyncConfig.off⟩

/-! ## JSON forms -/

namespace ConnectionConfig

/-- A connection is a URL, or an object with the parts of one. -/
def ofJson? : Json → Option ConnectionConfig
  | .str text => some (url text)
  | .obj fields => do
      let host ← Json.required? Json.str? fields "host"
      let port ← Json.optional? (Json.natBelow? UInt16.size) fields "port"
      let user ← Json.required? Json.str? fields "user"
      let password ← Json.required? Json.str? fields "password"
      let database ← Json.required? Json.str? fields "database"
      let charset ← Json.optional? Json.str? fields "charset"
      some (credentials host port user password database charset)
  | _ => none

/-- The JSON form of a connection, every field written out. -/
def toJson : ConnectionConfig → Json
  | url text => .str text
  | credentials host port user password database charset =>
      .obj [("host", .str host), ("port", Json.ofOption (fun n : Nat => Json.ofInt n) port),
        ("user", .str user), ("password", .str password), ("database", .str database),
        ("charset", Json.ofOption Json.str charset)]

end ConnectionConfig

namespace SyncConfig

def fieldNames : List String :=
  ["enable", "enable_delete_table", "enable_update_table", "expect_tables"]

/-- The synchronizer's configuration; every field may be missing. -/
def ofJson? (j : Json) : Option SyncConfig := do
  let fields ← j.record? fieldNames
  let enable ← Json.withDefault? false Json.bool? fields "enable"
  let deleteTables ← Json.withDefault? false Json.bool? fields "enable_delete_table"
  let updateTables ← Json.withDefault? false Json.bool? fields "enable_update_table"
  let exceptTables ← Json.withDefault? [] Json.strings? fields "expect_tables"
  some ⟨enable, deleteTables, updateTables, exceptTables⟩

def toJson (c : SyncConfig) : Json :=
  .obj [("enable", .bool c.enable), ("enable_delete_table", .bool c.deleteTables),
    ("enable_update_table", .bool c.updateTables),
    ("expect_tables", .arr (c.exceptTables.map Json.str))]

end SyncConfig

namespace ConnectOptions

def fieldNames : List String := ["connection", "max_connections", "auto_sync"]

/-- The options of a connect; only the connection must be there. -/
def ofJson? (j : Json) : Option ConnectOptions := do
  let fields ← j.record? fieldNames
  let connection ← Json.required? ConnectionConfig.ofJson? fields "connection"
  let maxConnections ←
    Json.withDefault? defaultMaxConnections (Json.natBelow? UInt32.size) fields "max_connections"
  let sync ← Json.withDefault? SyncConfig.off SyncConfig.ofJson? fields "auto_sync"
  some ⟨connection, maxConnections, sync⟩

def toJson (o : ConnectOptions) : Json :=
  .obj [("connection", o.connection.toJson), ("max_connections", Json.ofInt o.maxConnections),
    ("auto_sync", o.sync.toJson)]

end ConnectOptions

end Persistence
