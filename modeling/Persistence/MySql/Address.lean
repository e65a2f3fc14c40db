import Persistence.Config
import Persistence.Error
import Persistence.Number.Reading
import Persistence.Url.Basic

/-!
# Server addresses

Where a MySQL server is and as whom to log in, from a connection configuration.  What a URL leaves
out takes a default; its parts are meant without their percent escapes.
-/

namespace Persistence.MySql

/-- Where a server is and as whom to log in. -/
structure Address where
  host : String
  port : Nat
  username : String
  database : Option String
  charset : String
deriving DecidableEq

/-- The address that is meant when nothing is said. -/
def Address.default : Address := ⟨"localhost", 3306, "root", none, "utf8mb4"⟩

/-- The text of a part of a URL; the bytes behind its escapes have to be one. -/
def partText? (part : List Char) : Option String := Text.utf8Strict? (Text.percentBytes part)

/-- The words that say how the connection is encrypted. -/
def encryptionModes : List String :=
  ["disabled", "preferred", "required", "verify_ca", "verify_identity"]

/-- The names of the parameter that says how the connection is encrypted. -/
def encryptionNames : List String := ["sslmode", "ssl-mode"]

/-- The name of the parameter that says how many prepared statements are kept. -/
def cacheName : String := "statement-cache-capacity"

/-- Apply a parameter of a URL.  Unknown parameters say nothing, but what is known has to be
readable. -/
def Address.withParameter? (a : Address) (name value : String) : Option Address :=
  if name ∈ encryptionNames then if value.toLower ∈ encryptionModes then some a else none
  else if name = cacheName then (readUInt64? value.toList).map fun _ => a
  else if name = "charset" then some { a with charset := value }
  else some a

/-- Apply parameters of a URL one after the other. -/
def Address.withParameters? (a : Address) (parameters : List (String × String)) :
    Option Address :=
  parameters.foldlM (fun a (name, value) => a.withParameter? name value) a

/-- A text, unless it is empty. -/
def nonempty? (s : String) : Option String := if s.isEmpty then none else some s

/-- The address that a URL names. -/
def Address.ofUrl? (u : Url) : Option Address := do
  let username ← partText? u.username
  let _ ← partText? u.password
  let database ← partText? (u.path.dropWhile (· = '/'))
  let a : Address :=
    { host := (u.host.map String.ofList).getD Address.default.host
      port := u.port.getD Address.default.port
      username := (nonempty? username).getD Address.default.username
      database := nonempty? database
      charset := Address.default.charset }
  a.withParameters? u.queryPairs

/-- The address that a configuration names. -/
def Address.ofConfig? : ConnectionConfig → Option Address
  | .url text => (Url.parse? text).bind Address.ofUrl?
  | .credentials host port user _ database charset =>
      some ⟨host, port.getD Address.default.port, user, some database,
        charset.getD Address.default.charset⟩

end Persistence.MySql
