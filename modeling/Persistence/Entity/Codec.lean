import Persistence.Error

/-!
# Codecs

A codec ties the JSON objects that the library reads and writes to the values of an entity type:
`decode` brings an object into the form that the type has in JSON, or refuses it, and `encode` is
the form in which a value is written.
-/

namespace Persistence

/-- How the objects of an entity type are read and written. -/
structure Codec where
  decode : Json → Except DbError Json
  encode : Json → Except DbError Json

/-- Objects of any form. -/
def Codec.any : Codec := ⟨.ok, .ok⟩

end Persistence
