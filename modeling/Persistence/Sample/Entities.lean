import Persistence.Declaration.Record
import Persistence.Sample.Declarations

/-!
# Sample entity types

The entity types of the sample declarations, with the codecs of their objects and the producers
that they name.
-/

namespace Persistence.Sample

/-- The shapes of the fields that name a reader of their own. -/
def readers : List (String × Shape) := [("cells", .cells)]

/-- The records of all sample declarations. -/
def records : List (String × Shape.Record) :=
  declarations.map fun d => (d.name, d.toRecord readers)

/-- The entity type that is declared under a name, and the codec of its objects. -/
def entity? (name : String) : Option (Entity × Codec) :=
  match (declarations.find? fun d => d.name = name).map Declaration.toEntity with
  | some (.ok e) => some (e, Codec.ofRecord records name)
  | _ => none

/-- What a producer yields when it was asked so many times before: the producer of stamps always
the same text, and that of revisions the positive integers. -/
def value? (producer : String) (asked : Nat) : Option Value :=
  match producer with
  | "stamp" => some (.string "gone")
  | "next_revision" => some (.int (asked + 1 : Nat))
  | _ => none

end Persistence.Sample
